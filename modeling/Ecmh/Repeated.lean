/-
# Reports that are repeated, and joins in either version

Listeners send every report of a change more than once.  A report that comes again in the same
second finds everything it names in the table (`Held`) with the mode that it writes last
(`Current`), so it changes nothing and creates nothing, whatever its records are.

A listener that joins a group says so in an MLDv1 report or in an MLDv2 record that excludes
nothing.  Both come down to the same `Join`.
-/
import Ecmh.Grecs
import Ecmh.Handling
import Ecmh.ReportParser
import Ecmh.Unchanged

namespace Ecmh

open ByteMem

/-! ## 1. What the table names -/

/-- The group-interfaces of a group, and the sources that each of them has a subscription for. -/
def groupKeys (groupn : GroupNode) : In6Addr × List (Nat × List In6Addr) :=
  (groupn.mca, groupn.interfaces.nodes.map fun grpintn =>
    (grpintn.ifindex, grpintn.subscriptions.nodes.map SubscrNode.ipv6))

/-- The groups, group-interfaces and subscriptions of the table, in order, without their data. -/
def tableKeys (groups : Groups) : List (In6Addr × List (Nat × List In6Addr)) :=
  groups.nodes.map groupKeys

section Keys

variable {now ifindex : Nat} {groups : Groups} {joins : List Join}

theorem tableKeys_setCell (c : In6Addr × In6Addr) (mode : Nat) :
    tableKeys (setCell now ifindex groups c mode) = tableKeys groups := by
  refine KeyedList.map_adjust (fun groupn => ?_) groups.nodes
  rw [groupKeys, groupKeys]
  refine congrArg (Prod.mk groupn.mca) (KeyedList.map_adjust (fun grpintn => ?_) _)
  exact congrArg (Prod.mk grpintn.ifindex) (KeyedList.map_adjust (setSubscr_key mode) _)

/-- A record that names nothing new creates nothing. -/
theorem Held.tableKeys_joinTable (hs : Held now ifindex groups joins) {j : Join} (hj : j ∈ joins) :
    tableKeys (joinTable now ifindex groups j) = tableKeys groups := by
  rw [hs.joinTable_eq_run hj]
  exact Runs.foldl_frame tableKeys (fun _ c => tableKeys_setCell c.1 c.2) j.cells groups

theorem Held.joinTable (hs : Held now ifindex groups joins) {j : Join} (hj : j ∈ joins) :
    Held now ifindex (Ecmh.joinTable now ifindex groups j) joins := by
  rw [hs.joinTable_eq_run hj]
  exact hs.run j.cells

/-- After a report, the report says nothing new. -/
theorem current_joins (now ifindex : Nat) (groups : Groups) (joins : List Join) :
    Current now ifindex (joins.foldl (Ecmh.joinTable now ifindex) groups) joins :=
  ⟨stamped_joins now ifindex joins groups, fun _ _ _ hlast => membershipOf_joins_last hlast⟩

end Keys

/-! ## 2. The report again -/

section Again

variable {h : Host} {now i : Nat}

/-- What the records that the handler goes through ask of the table. -/
def mld2Asked (e : Endian) (mld2r : Mem) (plen : Nat) : List Join :=
  (mld2Records e mld2r plen).filterMap GrecSeen.join

theorem mld2Report_asked (st : Conf) (mld2r : Mem) (plen : Nat) :
    (l4Ipv6Icmpv6Mld2Report h now st i mld2r plen).st.groups
      = (mld2Asked h.endian mld2r plen).foldl (joinTable now (st.intn i).ifindex) st.groups := by
  rw [mld2Report_groups, mld2Op, mld2Asked, mld2Records]
  split <;> rfl

/-- A record of the report, while all that the report names is in the table. -/
theorem grecStep_held {ifindex : Nat} {joins : List Join} {s : Conf × Bool} {r : GrecSeen}
    (hidx : (s.1.intn i).ifindex = ifindex) (hs : Held now ifindex s.1.groups joins)
    (hr : ∀ j, r.join = some j → j ∈ joins) :
    ((grecStep h now i s r).1.intn i).ifindex = ifindex ∧
      Held now ifindex (grecStep h now i s r).1.groups joins ∧
      tableKeys (grecStep h now i s r).1.groups = tableKeys s.1.groups := by
  have hint := ((grecStep_sendsOnly h now i s r).ifindex i).trans hidx
  rw [grecStep_groups, hidx, grecTable]
  cases hj : r.join with
  | none => exact ⟨hint, hs, rfl⟩
  | some j => exact ⟨hint, hs.joinTable (hr j hj), hs.tableKeys_joinTable (hr j hj)⟩

/-- **Retransmitted reports are harmless**: the second time a report is processed in a second, the
table is the same afterwards, and at no record is anything created. -/
theorem retransmission_harmless (h : Host) (now : Nat) (st : Conf) (i : Nat) (mld2r : Mem)
    (plen : Nat) :
    (l4Ipv6Icmpv6Mld2Report h now (l4Ipv6Icmpv6Mld2Report h now st i mld2r plen).st i mld2r
        plen).st.groups
      = (l4Ipv6Icmpv6Mld2Report h now st i mld2r plen).st.groups ∧
    Runs.Always (grecStep h now i)
      (fun s => tableKeys s.1.groups
        = tableKeys (l4Ipv6Icmpv6Mld2Report h now st i mld2r plen).st.groups)
      (intSetMldVersion now (l4Ipv6Icmpv6Mld2Report h now st i mld2r plen).st i 2, false)
      (mld2Records h.endian mld2r plen) := by
  have hidx : ((l4Ipv6Icmpv6Mld2Report h now st i mld2r plen).st.intn i).ifindex
      = (st.intn i).ifindex := (mld2Report_handles h now st i mld2r plen).ifindex i
  have hgroups : (l4Ipv6Icmpv6Mld2Report h now st i mld2r plen).st.groups
      = (mld2Asked h.endian mld2r plen).foldl (joinTable now (st.intn i).ifindex) st.groups :=
    mld2Report_asked st mld2r plen
  generalize (l4Ipv6Icmpv6Mld2Report h now st i mld2r plen).st = once at hidx hgroups
  have hcur : Current now (st.intn i).ifindex once.groups (mld2Asked h.endian mld2r plen) := by
    rw [hgroups]
    exact current_joins now _ st.groups _
  constructor
  · rw [mld2Report_asked, hidx]
    exact joinTables_eq_self_iff.mpr hcur
  · have hstart : Held now (st.intn i).ifindex (intSetMldVersion now once i 2).groups
        (mld2Asked h.endian mld2r plen) := by
      rw [intSetMldVersion_groups]
      exact hcur.held
    have hall := Runs.always_of_stepsMeet
      (P := fun s : Conf × Bool => (s.1.intn i).ifindex = (st.intn i).ifindex ∧
        Held now (st.intn i).ifindex s.1.groups (mld2Asked h.endian mld2r plen) ∧
        tableKeys s.1.groups = tableKeys once.groups)
      (Q := fun _ r => ∀ j, r.join = some j → j ∈ mld2Asked h.endian mld2r plen)
      (fun s r hs hr => by
        obtain ⟨h1, h2, h3⟩ := grecStep_held (h := h) hs.1 hs.2.1 hr
        exact ⟨h1, h2, h3.trans hs.2.2⟩)
      (mld2Records h.endian mld2r plen) (intSetMldVersion now once i 2, false)
      ⟨by rw [intSetMldVersion_ifindex]; exact hidx, hstart, by rw [intSetMldVersion_groups]⟩
      (fun pre r post he j hj => List.mem_filterMap.mpr ⟨r, by rw [he]; simp, hj⟩)
    exact fun pre post he => (hall pre post he).2.2

end Again

/-! ## 3. Joins in either version -/

/-- A record with which a listener joins: it excludes nothing. -/
structure WireGrec.Joins (r : WireGrec) : Prop where
  grecType : r.grecType.toNat = mld2ModeIsExclude ∨ r.grecType.toNat = mld2ChangeToExclude
  multicast : in6IsAddrMulticast r.mca = true
  srcs : r.srcs = []
  aux : r.aux = []

/-- What a join for the group asks of the table. -/
def joinOf (mca : In6Addr) : Option Join :=
  if mld1Ignores mca then none else some (mld1Join mca)

theorem mld1Ignores_multicast {mca : In6Addr} (hm : in6IsAddrMulticast mca = true) :
    mld1Ignores mca = mld2Ignores mca := by
  simp [mld1Ignores, mld2Ignores, hm]

/-- What the handler sees of such a record asks for the same as the MLDv1 report. -/
theorem WireGrec.Joins.join {r : WireGrec} (hr : r.Joins) (off : Nat) :
    (GrecSeen.mk off r.grecType.toNat r.mca (some r.srcs)).join = joinOf r.mca := by
  have hknown : mld2Known r.grecType.toNat = true := by
    rcases hr.grecType with ht | ht <;> rw [ht] <;> rfl
  have hmode : mld2AnyMode r.grecType.toNat = mld2ModeIsInclude := by
    rcases hr.grecType with ht | ht <;> rw [ht] <;> rfl
  rw [GrecSeen.join, joinOf, mld1Ignores_multicast hr.multicast]
  simp [hknown, hr.srcs, grecRows, hmode, mld1Join]

/-- The records of a report of joins, with the offset of the next one as the invariant. -/
theorem grecWalk_joins {e : Endian} {m : Mem} {plen : Nat} : ∀ (rs : List WireGrec) (off : Nat),
    m.read off (encodeGrecs rs).length = encodeGrecs rs →
    off + (encodeGrecs rs).length ≤ plen → (∀ r ∈ rs, r.Joins) →
    (grecWalk e m plen rs.length off).1.filterMap GrecSeen.join
      = (rs.map WireGrec.mca).filterMap joinOf := by
  intro rs
  induction rs with
  | nil => exact fun _ _ _ _ => rfl
  | cons r rs ih =>
    intro off hm hfit hall
    have hr : r.Joins := hall r List.mem_cons_self
    rw [encodeGrecs_cons] at hm hfit
    rw [List.length_append] at hfit
    obtain ⟨hm1, hm2⟩ := Mem.read_eq_append hm
    have hlen := r.length_encode
    have haux : r.auxwords = 0 := by
      rw [WireGrec.auxwords, hr.aux]
      rfl
    have hknown : mld2Known r.grecType.toNat = true := by
      rcases hr.grecType with ht | ht <;> rw [ht] <;> rfl
    have hstep := grecWalk_record (n := rs.length) (grecAt_of_read (e := e) hm1) hknown
      (show off + 20 + 16 * r.srcs.length ≤ plen by omega)
    have hnext : off + 20 + 16 * r.srcs.length + r.auxwords = off + r.encode.length := by omega
    rw [List.length_cons, hstep, List.map_cons, hnext]
    simp only [List.filterMap_cons, hr.join off]
    rw [ih _ hm2 (by omega) fun x hx => hall x (List.mem_cons_of_mem _ hx)]

/-- MLDv1 reports one after the other, each taken in by the same interface. -/
theorem mld1Reports_groups (h : Host) (now i : Nat) : ∀ (reports : List Mem) (st : Conf),
    (reports.foldl (fun st mld1 => l4Ipv6Icmpv6Mld1Report h now st i mld1) st).groups
      = ((reports.map mld1Mca).filterMap joinOf).foldl (joinTable now (st.intn i).ifindex)
          st.groups := by
  intro reports
  induction reports with
  | nil => exact fun _ => rfl
  | cons mld1 reports ih =>
    intro st
    have hidx := (mld1Report_handles h now st i mld1).ifindex i
    rw [List.foldl_cons, ih, hidx, mld1Report_groups, List.map_cons, List.filterMap_cons, joinOf]
    cases mld1Ignores (mld1Mca mld1) <;> rfl

/-- **MLDv1 and MLDv2 joins are equivalent**: one report of joins leaves the same table as an MLDv1
report for each of its groups, in the same order. -/
theorem joins_equivalent (h : Host) (now : Nat) (st : Conf) (i : Nat) (m : Mem)
    (rs : List WireGrec) (reports : List Mem) (hm : HoldsReport m rs)
    (hlen : reportLength rs < 65536) (hjoins : ∀ r ∈ rs, r.Joins)
    (hreports : reports.map mld1Mca = rs.map WireGrec.mca) :
    (l4Ipv6Icmpv6Mld2Report h now st i m (reportLength rs)).st.groups
      = (reports.foldl (fun st mld1 => l4Ipv6Icmpv6Mld1Report h now st i mld1) st).groups := by
  obtain ⟨hn, hfit⟩ := hm.ngrec h.endian hlen
  have hwalk : (grecWalk h.endian m (reportLength rs) rs.length 8).1.filterMap GrecSeen.join
      = (rs.map WireGrec.mca).filterMap joinOf :=
    grecWalk_joins rs 8 hm.records (Nat.le_refl _) hjoins
  rw [mld2Report_asked, mld1Reports_groups, hreports, mld2Asked, mld2Records, hn,
    if_neg (by omega), hwalk]

/-- A report of two joins, of which the second is for a link-local group, and two MLDv1 reports. -/
theorem two_joins_equivalent :
    (l4Ipv6Icmpv6Mld2Report (quietHost .little) 7 (init plainOptions) 0
      (twoRecords (.plain 4 siteGroup none) (.plain 2 (linkScope 5) none))
      (reportLength [.plain 4 siteGroup none, .plain 2 (linkScope 5) none])).st.groups
    = ([Mem.ofList mld1JoinMessage, Mem.ofList ([131, 0, 0, 0, 0, 0, 0, 0] ++
        (linkScope 5).s6Addr)].foldl
        (fun st mld1 => l4Ipv6Icmpv6Mld1Report (quietHost .little) 7 st 0 mld1)
        (init plainOptions)).groups := by
  refine joins_equivalent _ _ _ _ _ _ _ (by decide +kernel) (by decide +kernel) ?_
    (by decide +kernel)
  intro r hr
  simp only [List.mem_cons, List.not_mem_nil, or_false] at hr
  rcases hr with rfl | rfl
  · exact ⟨by decide, by decide, rfl, rfl⟩
  · exact ⟨by decide, by decide, rfl, rfl⟩

end Ecmh
