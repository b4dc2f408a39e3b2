/-
# The membership as a map

What the table is for: it says, for a group, an interface and a source, whether somebody on the
interface listens, in which mode, and when that was last confirmed.  `MemberMap` is this map,
and the operations on it are one-liners: a refresh sets an entry, a reduction clears the entry of
the group's `::`, the sweep clears what has expired.

`membershipOf` reads the map off the three nested lists, and `membershipOf_apply` is the
refinement: for a well-formed table every operation of the code is the operation of the same name
on the map.  Group-interfaces without subscriptions are not visible in the map.
-/
import Ecmh.Invariant

namespace Ecmh

/-! ## 1. The abstract membership -/

/-- The subscription of an interface to a source of a group. -/
abbrev MemberMap := In6Addr → Nat → In6Addr → Option SubscrNode

namespace MemberMap

instance (ipv6 : In6Addr) (mode : Nat) : Decidable (rowIgnored ipv6 mode) :=
  inferInstanceAs (Decidable (_ ∧ _))

/-- One source is confirmed. -/
def refresh (now : Nat) (mca : In6Addr) (ifindex : Nat) (m : MemberMap)
    (row : In6Addr × Nat) : MemberMap := fun g i src =>
  if g = mca ∧ i = ifindex ∧ src = row.1 ∧ ¬ rowIgnored row.1 row.2 then
    some ⟨row.1, row.2, now⟩
  else m g i src

/-- A report for one group is taken in. -/
def join (now ifindex : Nat) (m : MemberMap) (j : Join) : MemberMap :=
  j.rows.foldl (refresh now j.mca ifindex) m

/-- The listeners for all sources have left. -/
def leave (mca : In6Addr) (ifindex : Nat) (m : MemberMap) : MemberMap := fun g i src =>
  if g = mca ∧ i = ifindex ∧ src = In6Addr.any then none else m g i src

/-- What has not been confirmed for too long is forgotten. -/
def expire (now : Nat) (m : MemberMap) : MemberMap := fun g i src =>
  (m g i src).filter (fun s => !deadTooLong now s)

end MemberMap

/-- The operation on the map. -/
def TableOp.applyMap (now : Nat) : TableOp → MemberMap → MemberMap
  | .keep, m => m
  | .count _ _, m => m
  | .refresh ifindex joins, m => joins.foldl (MemberMap.join now ifindex) m
  | .reduce mca ifindex, m => m.leave mca ifindex
  | .sweep, m => m.expire now

/-- The map that a table stands for. -/
def membershipOf (groups : Groups) : MemberMap := fun mca ifindex src =>
  (groupintFind groups mca ifindex).bind (fun g => subscrFind g.subscriptions src)

/-! ## 2. What a search finds after a change -/

theorem groupintFind_setGroup (groups : Groups) (mca : In6Addr) {f : GroupNode → GroupNode}
    (hkey : ∀ g, (f g).mca = g.mca) (hint : ∀ g, (f g).interfaces = g.interfaces)
    (mca' : In6Addr) (ifindex : Nat) :
    groupintFind (setGroup groups mca f) mca' ifindex = groupintFind groups mca' ifindex := by
  unfold groupintFind groupFind setGroup
  by_cases hm : mca' = mca
  · rw [hm, KeyedList.find_adjust_same hkey]
    cases KeyedList.find GroupNode.mca mca groups.nodes with
    | none => rfl
    | some g => simp [hint]
  · rw [KeyedList.find_adjust_of_ne hkey hm]

/-- A write to a group-interface is seen in the search for it, and in no other one. -/
theorem groupintFind_setGroupint (groups : Groups) (mca : In6Addr) (ifindex : Nat)
    {f : GrpIntNode → GrpIntNode} (hkey : ∀ g, (f g).ifindex = g.ifindex) (mca' : In6Addr)
    (i : Nat) : groupintFind (setGroupint groups mca ifindex f) mca' i =
      if mca' = mca ∧ i = ifindex then (groupintFind groups mca ifindex).map f
      else groupintFind groups mca' i := by
  unfold groupintFind groupFind setGroupint setGroup
  by_cases hm : mca' = mca
  · rw [hm, KeyedList.find_adjust_same (setGrpint_mca ifindex f)]
    cases KeyedList.find GroupNode.mca mca groups.nodes with
    | none => simp
    | some g =>
      by_cases hi : i = ifindex
      · simp [hi, grpintFind, setGrpint, KeyedList.find_adjust_same hkey]
      · simp [hi, grpintFind, setGrpint, KeyedList.find_adjust_of_ne hkey hi]
  · rw [KeyedList.find_adjust_of_ne (setGrpint_mca ifindex f) hm]
    simp [hm]

/-- In the group node that `groupint_get` works on, the group-interface is found afterwards. -/
theorem grpintFind_groupTouch (t ifindex i : Nat) (g : GroupNode) :
    grpintFind (groupTouch t ifindex g).interfaces i =
      if i = ifindex then some ((grpintFind g.interfaces ifindex).getD (grpintCreate ifindex))
      else grpintFind g.interfaces i := by
  unfold groupTouch
  dsimp only
  cases hf : grpintFind g.interfaces ifindex with
  | some x =>
    by_cases hi : i = ifindex
    · simp [hi, hf]
    · simp [hi]
  | none =>
    unfold grpintFind at hf ⊢
    dsimp only [listnodeAdd]
    by_cases hi : i = ifindex
    · rw [if_pos hi, hi, KeyedList.find_concat_eq hf rfl]
      rfl
    · rw [if_neg hi, KeyedList.find_concat_ne _ fun e => hi e.symm]

theorem groupintFind_groupintGet (t : Nat) (groups : Groups) (mca : In6Addr) (ifindex : Nat)
    (mca' : In6Addr) (i : Nat) : groupintFind (groupintGet t groups mca ifindex).1 mca' i =
      if mca' = mca ∧ i = ifindex then
        some ((groupintFind groups mca ifindex).getD (grpintCreate ifindex))
      else groupintFind groups mca' i := by
  have hkey := groupTouch_mca t ifindex
  unfold groupintGet groupintFind
  by_cases hm : mca' = mca
  · rw [hm]
    cases hf : groupFind groups mca with
    | none =>
      -- the new group has no group-interface yet
      unfold groupFind at hf ⊢
      dsimp only [setGroup, listnodeAdd]
      rw [KeyedList.find_adjust_same hkey, KeyedList.find_concat_eq hf rfl, Option.map_some]
      dsimp only
      rw [grpintFind_groupTouch]
      by_cases hi : i = ifindex
      · rw [if_pos hi, if_pos ⟨rfl, hi⟩]
        rfl
      · rw [if_neg hi, if_neg fun hc => hi hc.2]
        rfl
    | some g =>
      unfold groupFind at hf ⊢
      dsimp only [setGroup]
      rw [KeyedList.find_adjust_same hkey, hf, Option.map_some]
      dsimp only
      rw [grpintFind_groupTouch]
      simp
  · rw [if_neg fun hc => hm hc.1]
    have hne : ¬ (groupCreate mca).mca = mca' := fun e => hm e.symm
    cases groupFind groups mca with
    | none =>
      unfold groupFind
      dsimp only [setGroup, listnodeAdd]
      rw [KeyedList.find_adjust_of_ne hkey hm, KeyedList.find_concat_ne _ hne]
    | some g =>
      unfold groupFind
      dsimp only [setGroup]
      rw [KeyedList.find_adjust_of_ne hkey hm]

theorem timeoutGroup_find {P : SubscrNode → Prop} (now : Nat) {g : GroupNode} (h : GroupOk P g)
    (i : Nat) : ((timeoutGroup now g).bind fun g' => grpintFind g'.interfaces i)
      = (grpintFind g.interfaces i).bind (timeoutGrpint now) := by
  have hfind : grpintFind (listLoop2 (timeoutGrpint now) g.interfaces) i
      = (grpintFind g.interfaces i).bind (timeoutGrpint now) := by
    unfold grpintFind
    rw [listLoop2_nodes]
    exact KeyedList.find_filterMap (timeoutGrpint_ifindex now) i h.unique
  rw [← hfind]
  unfold timeoutGroup
  dsimp only
  split
  · rename_i hc
    -- the group goes only when no group-interface is left
    have hnil : (listLoop2 (timeoutGrpint now) g.interfaces).nodes = [] := by
      rw [listLoop2_count, h.count] at hc
      rw [listLoop2_nodes]
      exact List.length_eq_zero_iff.mp (by omega)
    rw [grpintFind, hnil]
    rfl
  · rfl

theorem groupintFind_sweep {P : SubscrNode → Prop} (now : Nat) {groups : Groups}
    (h : TableOk P groups) (mca : In6Addr) (i : Nat) :
    groupintFind (listLoop2 (timeoutGroup now) groups) mca i
      = (groupintFind groups mca i).bind (timeoutGrpint now) := by
  have hfind : groupFind (listLoop2 (timeoutGroup now) groups) mca
      = (groupFind groups mca).bind (timeoutGroup now) := by
    unfold groupFind
    rw [listLoop2_nodes]
    exact KeyedList.find_filterMap (timeoutGroup_mca now) mca h.unique
  unfold groupintFind
  rw [hfind]
  cases hg : groupFind groups mca with
  | none => rfl
  | some g =>
    have := timeoutGroup_find now (h.all g (KeyedList.mem_of_find hg)) i
    simp only [Option.bind_some]
    rw [← this]
    cases timeoutGroup now g <;> rfl

/-! ## 3. What a search for a subscription finds after a change -/

theorem subscrFind_subscrGet (now : Nat) (list : CList SubscrNode) (ipv6 : In6Addr) (mode : Nat)
    (src : In6Addr) : subscrFind (subscrGet now list ipv6 mode) src =
      if src = ipv6 then some ((subscrFind list ipv6).getD (subscrCreate now ipv6 mode))
      else subscrFind list src := by
  unfold subscrGet
  cases hf : subscrFind list ipv6 with
  | some x =>
    by_cases hs : src = ipv6
    · simp [hs, hf]
    · simp [hs]
  | none =>
    unfold subscrFind at hf ⊢
    dsimp only [listnodeAdd]
    by_cases hs : src = ipv6
    · rw [if_pos hs, hs, KeyedList.find_concat_eq hf rfl]
      rfl
    · rw [if_neg hs, KeyedList.find_concat_ne _ fun e => hs e.symm]

theorem subscrFind_refresh (now : Nat) (g : GrpIntNode) (ipv6 : In6Addr) (mode : Nat)
    (src : In6Addr) : subscrFind (grpintRefresh now g ipv6 mode).subscriptions src =
      if src = ipv6 ∧ ¬ rowIgnored ipv6 mode then some ⟨ipv6, mode, now⟩
      else subscrFind g.subscriptions src := by
  by_cases hr : rowIgnored ipv6 mode
  · rw [grpintRefresh_ignored hr, if_neg fun hc => hc.2 hr]
  · have hkey : ∀ s : SubscrNode,
        ({ s with mode := mode, refreshtime := now } : SubscrNode).ipv6 = s.ipv6 := fun _ => rfl
    have hget := subscrFind_subscrGet now g.subscriptions ipv6 mode src
    rw [grpintRefresh_stored hr]
    unfold subscrFind setSubscr at *
    by_cases hs : src = ipv6
    · subst hs
      rw [if_pos rfl] at hget
      rw [KeyedList.find_adjust_same hkey, hget, if_pos ⟨rfl, hr⟩, Option.map_some]
      have hold : ((KeyedList.find SubscrNode.ipv6 src g.subscriptions.nodes).getD
          (subscrCreate now src mode)).ipv6 = src := by
        cases hf : KeyedList.find SubscrNode.ipv6 src g.subscriptions.nodes with
        | none => rfl
        | some x => exact KeyedList.key_of_find hf
      rw [hold]
    · rw [if_neg hs] at hget
      rw [KeyedList.find_adjust_of_ne hkey hs, hget, if_neg fun hc => hs hc.1]

theorem subscrFind_reduce {P : SubscrNode → Prop} {g : GrpIntNode}
    (h : SubscrsOk P g.subscriptions) (src : In6Addr) :
    subscrFind (reduceGrpint g).subscriptions src =
      if src = In6Addr.any then none else subscrFind g.subscriptions src := by
  have hunsub : subscrFind (subscrUnsub g.subscriptions In6Addr.any).1 src =
      if src = In6Addr.any then none else subscrFind g.subscriptions src := by
    unfold subscrFind
    rw [subscrUnsub_nodes]
    exact KeyedList.find_eraseP In6Addr.any src h.unique
  unfold reduceGrpint
  dsimp only
  split
  · rename_i hno
    rw [← hunsub]
    unfold subscrUnsub at hno ⊢
    split at hno
    · simp at hno
    · rfl
  · split
    · exact hunsub
    · exact hunsub

theorem subscrFind_sweep {P : SubscrNode → Prop} (now : Nat) {g : GrpIntNode}
    (h : SubscrsOk P g.subscriptions) (src : In6Addr) :
    ((timeoutGrpint now g).bind fun g' => subscrFind g'.subscriptions src)
      = (subscrFind g.subscriptions src).filter (fun s => !deadTooLong now s) := by
  have hfind : subscrFind (listLoop2 (fun s => if deadTooLong now s then none else some s)
      g.subscriptions) src
      = (subscrFind g.subscriptions src).filter (fun s => !deadTooLong now s) := by
    unfold subscrFind
    rw [sweepSubscrs_nodes]
    exact KeyedList.find_filter _ src h.unique
  rw [← hfind]
  unfold timeoutGrpint
  dsimp only
  split
  · rename_i hc
    have hnil : (listLoop2 (fun s => if deadTooLong now s then none else some s)
        g.subscriptions).nodes = [] := by
      rw [sweepSubscrs_nodes]
      rcases sweepSubscrs_count now h with hcount | ⟨hn, -⟩
      · have : (0 : Int) ≤ (g.subscriptions.nodes.filter (fun s => !deadTooLong now s)).length :=
          Int.natCast_nonneg _
        rw [hcount] at hc
        simp only [ecmhRobustnessFactor] at hc
        omega
      · rw [hn]
        rfl
    rw [subscrFind, hnil]
    rfl
  · rfl

/-! ## 4. The refinement -/

theorem groupintFind_ok {P : SubscrNode → Prop} {groups : Groups} (h : TableOk P groups)
    {mca : In6Addr} {ifindex : Nat} {g : GrpIntNode}
    (hg : groupintFind groups mca ifindex = some g) : SubscrsOk P g.subscriptions := by
  unfold groupintFind at hg
  split at hg
  · simp at hg
  · rename_i groupn hf
    exact (h.all groupn (KeyedList.mem_of_find hf)).all g (KeyedList.mem_of_find hg)

/-- What the subscriptions of a table have, the ones that are found have. -/
theorem subscriptionsOf_ok {P : SubscrNode → Prop} {groups : Groups} (h : TableOk P groups)
    {mca : In6Addr} {ifindex : Nat} : ∀ s ∈ subscriptionsOf groups mca ifindex, P s := by
  intro s hs
  unfold subscriptionsOf at hs
  split at hs
  · cases hs
  · rename_i hfind
    exact (groupintFind_ok h hfind).all s hs

/-- The rows of a report, one after the other, on a group-interface. -/
theorem subscrFind_refreshRows (now : Nat) (mca : In6Addr) (ifindex : Nat) (src : In6Addr) :
    ∀ (rows : List (In6Addr × Nat)) (g : GrpIntNode) (m : MemberMap),
    m mca ifindex src = subscrFind g.subscriptions src →
    subscrFind (refreshRows now rows g).subscriptions src
      = rows.foldl (MemberMap.refresh now mca ifindex) m mca ifindex src := by
  intro rows
  induction rows with
  | nil => exact fun _ _ h => h.symm
  | cons row rows ih =>
    intro g m h
    refine ih _ _ ?_
    rw [subscrFind_refresh, MemberMap.refresh]
    simp [h]

/-- The rows of a report do not touch other entries. -/
theorem refresh_other (now : Nat) {mca mca' : In6Addr} {ifindex i : Nat}
    (hne : ¬ (mca' = mca ∧ i = ifindex)) (src : In6Addr) :
    ∀ (rows : List (In6Addr × Nat)) (m : MemberMap),
    rows.foldl (MemberMap.refresh now mca ifindex) m mca' i src = m mca' i src := by
  intro rows
  induction rows with
  | nil => exact fun _ => rfl
  | cons row rows ih =>
    intro m
    rw [List.foldl_cons, ih, MemberMap.refresh, if_neg fun hc => hne ⟨hc.1, hc.2.1⟩]

theorem membershipOf_joinTable (now ifindex : Nat) (groups : Groups) (j : Join) :
    membershipOf (joinTable now ifindex groups j)
      = (membershipOf groups).join now ifindex j := by
  funext mca i src
  unfold membershipOf joinTable MemberMap.join
  rw [groupintFind_setGroupint _ _ _ (refreshRows_ifindex now j.rows), groupintFind_groupintGet,
    groupintFind_groupintGet]
  by_cases hc : mca = j.mca ∧ i = ifindex
  · obtain ⟨rfl, rfl⟩ := hc
    rw [if_pos ⟨rfl, rfl⟩, if_pos ⟨rfl, rfl⟩, Option.map_some, Option.bind_some]
    refine subscrFind_refreshRows now j.mca i src j.rows _ _ ?_
    cases groupintFind groups j.mca i <;> rfl
  · rw [if_neg hc, if_neg hc, refresh_other now hc]

/-- **The table refines the map**: reading the map off the table after an operation gives what
the operation makes of the map. -/
theorem membershipOf_apply {P : SubscrNode → Prop} (now : Nat) (op : TableOp) {groups : Groups}
    (h : TableOk P groups) :
    membershipOf (op.apply now groups) = op.applyMap now (membershipOf groups) := by
  cases op with
  | keep => rfl
  | count dst len =>
    funext mca i src
    simp only [membershipOf, TableOp.apply, TableOp.applyMap]
    rw [groupintFind_setGroup groups dst (f := countGroup len) (fun _ => rfl) fun _ => rfl]
  | refresh ifindex joins =>
    simp only [TableOp.apply, TableOp.applyMap]
    clear h
    induction joins generalizing groups with
    | nil => rfl
    | cons j joins ih => rw [List.foldl_cons, List.foldl_cons, ih, membershipOf_joinTable]
  | reduce mca ifindex =>
    funext mca' i src
    simp only [membershipOf, TableOp.apply, TableOp.applyMap, MemberMap.leave]
    rw [groupintFind_setGroupint groups mca ifindex reduceGrpint_ifindex]
    by_cases hc : mca' = mca ∧ i = ifindex
    · obtain ⟨rfl, rfl⟩ := hc
      rw [if_pos ⟨rfl, rfl⟩]
      cases hg : groupintFind groups mca' i with
      | none => simp
      | some g => simp [subscrFind_reduce (groupintFind_ok h hg)]
    · rw [if_neg hc, if_neg fun hx => hc ⟨hx.1, hx.2.1⟩]
  | sweep =>
    funext mca i src
    simp only [membershipOf, TableOp.apply, TableOp.applyMap, MemberMap.expire]
    rw [groupintFind_sweep now h]
    cases hg : groupintFind groups mca i with
    | none => rfl
    | some g =>
      rw [Option.bind_some, Option.bind_some]
      exact subscrFind_sweep now (groupintFind_ok h hg) src

/-- The same for a step of the daemon. -/
theorem step_membership {P : SubscrNode → Prop} (h : Host) (st : Conf) (ev : Event)
    (hok : TableOk P st.groups) : membershipOf (step h st ev).groups
      = (tableOp h st ev).applyMap ev.now (membershipOf st.groups) := by
  rw [step_groups, membershipOf_apply ev.now _ hok]

/-- An entry of the map is a subscription of the table. -/
theorem membershipOf_eq_some {P : SubscrNode → Prop} {groups : Groups} (h : TableOk P groups)
    {mca : In6Addr} {ifindex : Nat} {src : In6Addr} {s : SubscrNode} :
    membershipOf groups mca ifindex src = some s ↔
      s ∈ subscriptionsOf groups mca ifindex ∧ s.ipv6 = src := by
  unfold membershipOf subscriptionsOf
  cases hg : groupintFind groups mca ifindex with
  | none => simp
  | some g =>
    rw [Option.bind_some]
    constructor
    · intro hs
      exact ⟨KeyedList.mem_of_find hs, KeyedList.key_of_find hs⟩
    · rintro ⟨hs, rfl⟩
      exact KeyedList.find_of_mem (groupintFind_ok h hg).unique hs

end Ecmh
