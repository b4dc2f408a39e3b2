/-
# Reports that are rejected

The handler of MLDv2 reports checks a record when it comes to it, and the records before are in the
table by then.  So a report that it gives up changes memberships all the same, unless everything
that it came to was there already (`Stated`).  Memberships are compared without the stamps and
counters of the group nodes; `stampAll` makes the stamps equal, and then `Current` decides.
-/
import Ecmh.Repeated

namespace Ecmh

open ByteMem

/-! ## 1. The memberships of a table -/

/-- The subscriptions of a group-interface. -/
def grpintData (grpintn : GrpIntNode) : Nat × List SubscrNode :=
  (grpintn.ifindex, grpintn.subscriptions.nodes)

def groupData (groupn : GroupNode) : In6Addr × List (Nat × List SubscrNode) :=
  (groupn.mca, groupn.interfaces.nodes.map grpintData)

/-- The groups, group-interfaces and subscriptions of the table with their modes and refresh
times. -/
def tableData (groups : Groups) : List (In6Addr × List (Nat × List SubscrNode)) :=
  groups.nodes.map groupData

theorem groupData_key (groupn : GroupNode) : (groupData groupn).1 = groupn.mca := rfl

theorem grpintData_key (grpintn : GrpIntNode) : (grpintData grpintn).1 = grpintn.ifindex := rfl

/-- What the searches find depends on these data only. -/
theorem groupintFind_data (groups : Groups) (g : In6Addr) (ifindex : Nat) :
    (groupintFind groups g ifindex).map grpintData
      = (KeyedList.find Prod.fst g (tableData groups)).bind
          fun groupn => KeyedList.find Prod.fst ifindex groupn.2 := by
  rw [tableData, KeyedList.find_map groupData_key, groupintFind, groupFind]
  cases KeyedList.find GroupNode.mca g groups.nodes with
  | none => rfl
  | some groupn => exact (KeyedList.find_map grpintData_key ifindex groupn.interfaces.nodes).symm

theorem membershipOf_data (groups : Groups) (g : In6Addr) (ifindex : Nat) (src : In6Addr) :
    membershipOf groups g ifindex src = ((groupintFind groups g ifindex).map grpintData).bind
      fun grpintn => KeyedList.find SubscrNode.ipv6 src grpintn.2 := by
  rw [membershipOf]
  cases groupintFind groups g ifindex <;> rfl

section Same

variable {a b : Groups} (hsame : tableData a = tableData b)

include hsame

theorem groupintFind_isSome_of_data (g : In6Addr) (ifindex : Nat) :
    (groupintFind a g ifindex).isSome = (groupintFind b g ifindex).isSome := by
  have ha := groupintFind_data a g ifindex
  rw [hsame, ← groupintFind_data] at ha
  rw [← Option.isSome_map (f := grpintData), ha, Option.isSome_map]

theorem membershipOf_of_data : membershipOf a = membershipOf b := by
  funext g ifindex src
  rw [membershipOf_data, groupintFind_data, hsame, ← groupintFind_data, ← membershipOf_data]

end Same

/-! ## 2. A table whose groups are all stamped -/

def stampNode (now : Nat) (groupn : GroupNode) : GroupNode := { groupn with lastforward := now }

theorem stampNode_mca (now : Nat) (groupn : GroupNode) : (stampNode now groupn).mca = groupn.mca :=
  rfl

def stampAll (now : Nat) (groups : Groups) : Groups :=
  { groups with nodes := groups.nodes.map (stampNode now) }

section Stamp

variable {now ifindex : Nat}

theorem tableData_stampAll (now : Nat) (groups : Groups) :
    tableData (stampAll now groups) = tableData groups := by
  rw [tableData, stampAll, List.map_map]
  rfl

theorem groupFind_stampAll (groups : Groups) (g : In6Addr) :
    groupFind (stampAll now groups) g = (groupFind groups g).map (stampNode now) :=
  KeyedList.find_map (stampNode_mca now) g groups.nodes

theorem stampAll_setGroup (groups : Groups) (g : In6Addr) {f f' : GroupNode → GroupNode}
    (hf : ∀ x, stampNode now (f x) = f' (stampNode now x)) :
    stampAll now (setGroup groups g f) = setGroup (stampAll now groups) g f' :=
  congrArg (CList.mk · groups.count) (KeyedList.map_adjust_comm (stampNode_mca now) hf groups.nodes)

theorem stampNode_groupTouch (x : GroupNode) :
    stampNode now (groupTouch now ifindex x) = groupTouch now ifindex (stampNode now x) := by
  simp only [groupTouch, stampNode]
  split <;> rfl

/-- The handler stamps what it touches, so it does not matter whether it was stamped before. -/
theorem stampAll_groupintGet (groups : Groups) (g : In6Addr) :
    stampAll now (groupintGet now groups g ifindex).1
      = (groupintGet now (stampAll now groups) g ifindex).1 := by
  unfold groupintGet
  rw [groupFind_stampAll]
  cases hfind : groupFind groups g with
  | some groupn => exact stampAll_setGroup groups g stampNode_groupTouch
  | none =>
    have hnone : KeyedList.find GroupNode.mca g (groups.nodes.map (stampNode now)) = none := by
      rw [KeyedList.find_map (stampNode_mca now), ← groupFind, hfind]
      rfl
    have hmca : (groupCreate g).mca = g := rfl
    have hnodes : (KeyedList.adjust GroupNode.mca g (groupTouch now ifindex)
        (groups.nodes ++ [groupCreate g])).map (stampNode now)
        = KeyedList.adjust GroupNode.mca g (groupTouch now ifindex)
          (groups.nodes.map (stampNode now) ++ [groupCreate g]) := by
      rw [KeyedList.adjust_concat _ hmca hfind, KeyedList.adjust_concat _ hmca hnone,
        List.map_append, List.map_singleton, stampNode_groupTouch]
      rfl
    exact congrArg (CList.mk · _) hnodes

theorem stampAll_joinTable (groups : Groups) (j : Join) :
    stampAll now (joinTable now ifindex groups j)
      = joinTable now ifindex (stampAll now groups) j := by
  rw [joinTable, joinTable, ← stampAll_groupintGet]
  exact stampAll_setGroup _ j.mca fun _ => rfl

theorem stampAll_joins (joins : List Join) : ∀ groups : Groups,
    stampAll now (joins.foldl (joinTable now ifindex) groups)
      = joins.foldl (joinTable now ifindex) (stampAll now groups) := by
  induction joins with
  | nil => exact fun _ => rfl
  | cons j joins ih =>
    intro groups
    rw [List.foldl_cons, ih, stampAll_joinTable, List.foldl_cons]

end Stamp

/-! ## 3. When a report changes no membership -/

/-- What the report says of the listeners on the interface is in the table: the group-interfaces,
and the subscriptions as it writes them last, refreshed in this second. -/
structure Stated (now ifindex : Nat) (groups : Groups) (joins : List Join) : Prop where
  found : ∀ j ∈ joins, (groupintFind groups j.mca ifindex).isSome
  written : ∀ g src mode, Writes.last (joins.flatMap Join.cells) (g, src) = some mode →
    membershipOf groups g ifindex src = some ⟨src, mode, now⟩

section Joins

variable {now ifindex : Nat} {groups : Groups} {joins : List Join}

theorem Stated.current (hs : Stated now ifindex groups joins) :
    Current now ifindex (stampAll now groups) joins := by
  constructor
  · intro j hj
    have hfound := hs.found j hj
    rw [groupintFind] at hfound
    cases hfind : groupFind groups j.mca with
    | none =>
      rw [hfind] at hfound
      cases hfound
    | some groupn =>
      rw [hfind] at hfound
      exact ⟨stampNode now groupn, by rw [groupFind_stampAll, hfind]; rfl, rfl, hfound⟩
  · intro g src mode hlast
    rw [membershipOf_of_data (tableData_stampAll now groups)]
    exact hs.written g src mode hlast

/-- What was said before in the same second is in the table. -/
theorem Current.stated (hc : Current now ifindex groups joins) :
    Stated now ifindex groups joins := by
  refine ⟨fun j hj => ?_, hc.2⟩
  obtain ⟨groupn, hfind, -, hfound⟩ := hc.1 j hj
  rw [groupintFind, hfind]
  exact hfound

theorem tableData_joins_iff :
    tableData (joins.foldl (joinTable now ifindex) groups) = tableData groups ↔
      Stated now ifindex groups joins := by
  constructor
  · intro hsame
    have hs := (current_joins now ifindex groups joins).stated
    refine ⟨fun j hj => ?_, fun g src mode hlast => ?_⟩
    · rw [← groupintFind_isSome_of_data hsame]
      exact hs.found j hj
    · rw [← membershipOf_of_data hsame]
      exact hs.written g src mode hlast
  · intro hs
    rw [← tableData_stampAll now, stampAll_joins, joinTables_eq_self_iff.mpr hs.current,
      tableData_stampAll]

end Joins

/-- **When a rejected report changes no membership**: if all it says, up to the record at which the
handler gives up, is in the table and was said in this second. -/
theorem rejected_report_unchanged_iff (h : Host) (now : Nat) (st : Conf) (i : Nat) (mld2r : Mem)
    (plen : Nat) : (l4Ipv6Icmpv6Mld2Report h now st i mld2r plen).exit ≠ .done →
    (tableData (l4Ipv6Icmpv6Mld2Report h now st i mld2r plen).st.groups = tableData st.groups ↔
      Stated now (st.intn i).ifindex st.groups (mld2Asked h.endian mld2r plen)) := by
  intro _
  rw [mld2Report_asked]
  exact tableData_joins_iff

/-- A join for `ff05::1`, and a record of an unknown type. -/
def brokenReport : Mem := twoRecords (.plain 4 siteGroup none) (.plain 9 siteGroup none)

/-- The second time in a second it changes nothing. -/
theorem broken_report_again :
    tableData (l4Ipv6Icmpv6Mld2Report (quietHost .little) 7
      (l4Ipv6Icmpv6Mld2Report (quietHost .little) 7 oneLink 1 brokenReport 48).st 1 brokenReport
        48).st.groups
    = tableData
      (l4Ipv6Icmpv6Mld2Report (quietHost .little) 7 oneLink 1 brokenReport 48).st.groups := by
  refine (rejected_report_unchanged_iff _ _ _ _ _ _ (by decide +kernel)).mpr ?_
  have hidx : ((l4Ipv6Icmpv6Mld2Report (quietHost .little) 7 oneLink 1 brokenReport 48).st.intn
      1).ifindex = (oneLink.intn 1).ifindex := by
    decide +kernel
  rw [hidx, mld2Report_asked]
  exact (current_joins 7 _ _ _).stated

/-- The first time its join is in the table before the handler gives up. -/
theorem broken_report_joins :
    (l4Ipv6Icmpv6Mld2Report (quietHost .little) 7 oneLink 1 brokenReport 48).exit = .unknownType ∧
    tableData (l4Ipv6Icmpv6Mld2Report (quietHost .little) 7 oneLink 1 brokenReport 48).st.groups
      ≠ tableData oneLink.groups := by
  decide +kernel

end Ecmh
