/-
# What changes nothing

When the handling of a message leaves the membership table and the MLD version as they are and
sends nothing.  For a report this is so if everything it says was said before in the same second:
`Current`.  The handler writes the subscriptions one after the other, and only the last write to
each of them counts.
-/
import Ecmh.Lib.Writes
import Ecmh.Announce

namespace Ecmh

open ByteMem

/-! ## 1. `groupint_get` on what is there

`groupint_get` renews `lastforward` at every call.  Where this was done in the same second already,
and the interface is there, the call changes nothing. -/

/-- The group was touched in this second, and the interface is one of its group-interfaces. -/
def Stamped (now : Nat) (groups : Groups) (mca : In6Addr) (ifindex : Nat) : Prop :=
  ∃ groupn, groupFind groups mca = some groupn ∧ groupn.lastforward = now ∧
    (grpintFind groupn.interfaces ifindex).isSome

section Stamped

variable {now ifindex : Nat} {groups : Groups} {mca : In6Addr}

/-- The interval since the last forward is zero in the same second. -/
theorem sub64_self (a : Nat) : sub64 a a = 0 := by
  unfold sub64
  omega

/-- A group that was touched at the same time, and has the interface, stays as it is. -/
theorem groupTouch_of_found {groupn : GroupNode} (hlast : groupn.lastforward = now)
    (hfound : (grpintFind groupn.interfaces ifindex).isSome) :
    groupTouch now ifindex groupn = groupn := by
  obtain ⟨grpintn, hg⟩ := Option.isSome_iff_exists.mp hfound
  subst hlast
  unfold groupTouch
  dsimp only
  rw [hg]

/-- Nothing is new, and nothing is touched. -/
theorem groupintGet_of_stamped (hs : Stamped now groups mca ifindex) :
    groupintGet now groups mca ifindex = (groups, false) := by
  obtain ⟨groupn, hfind, hlast, hfound⟩ := hs
  have htouch : setGroup groups mca (groupTouch now ifindex) = groups := by
    rw [setGroup, KeyedList.adjust_eq_self_iff.mpr]
    intro x hx
    obtain rfl := Option.some.inj (hx.symm.trans hfind)
    exact groupTouch_of_found hlast hfound
  rw [groupintGet, hfind]
  dsimp only
  rw [htouch, hlast, sub64_self]
  rfl

/-- A write to a group is found there, and nowhere else. -/
theorem groupFind_setGroup (groups : Groups) (mca : In6Addr) {f : GroupNode → GroupNode}
    (hf : ∀ g, (f g).mca = g.mca) (mca' : In6Addr) :
    groupFind (setGroup groups mca f) mca'
      = if mca' = mca then (groupFind groups mca).map f else groupFind groups mca' := by
  unfold groupFind setGroup
  split
  · rename_i h
    rw [h, KeyedList.find_adjust_same hf]
  · rename_i h
    rw [KeyedList.find_adjust_of_ne hf h]

/-- A change of group nodes that keeps the stamp and does not take group-interfaces out. -/
theorem Stamped.setGroup (hs : Stamped now groups mca ifindex) (mca' : In6Addr)
    {f : GroupNode → GroupNode} (hf : ∀ g, (f g).mca = g.mca)
    (hlast : ∀ g, g.lastforward = now → (f g).lastforward = now)
    (hfound : ∀ g, (grpintFind g.interfaces ifindex).isSome →
      (grpintFind (f g).interfaces ifindex).isSome) :
    Stamped now (setGroup groups mca' f) mca ifindex := by
  obtain ⟨groupn, hfind, hl, hg⟩ := hs
  by_cases hm : mca = mca'
  · subst hm
    exact ⟨f groupn, by rw [groupFind_setGroup _ _ hf, if_pos rfl, hfind, Option.map_some],
      hlast groupn hl, hfound groupn hg⟩
  · exact ⟨groupn, by rw [groupFind_setGroup _ _ hf, if_neg hm, hfind], hl, hg⟩

/-- A write to a group-interface leaves the stamp. -/
theorem Stamped.setGroupint (hs : Stamped now groups mca ifindex) (mca' : In6Addr) (i : Nat)
    {f : GrpIntNode → GrpIntNode} (hf : ∀ g, (f g).ifindex = g.ifindex) :
    Stamped now (setGroupint groups mca' i f) mca ifindex := by
  refine hs.setGroup mca' (setGrpint_mca i f) (fun _ hl => hl) ?_
  intro g hg
  unfold grpintFind setGrpint at *
  by_cases hi : ifindex = i
  · subst hi
    rw [KeyedList.find_adjust_same hf, Option.isSome_map]
    exact hg
  · rw [KeyedList.find_adjust_of_ne hf hi]
    exact hg

/-- A group that has the interface keeps it. -/
theorem groupTouch_found (now i ifindex : Nat) {g : GroupNode}
    (hg : (grpintFind g.interfaces ifindex).isSome) :
    (grpintFind (groupTouch now i g).interfaces ifindex).isSome := by
  rw [grpintFind_groupTouch]
  split
  · rfl
  · exact hg

theorem groupTouch_lastforward (now i : Nat) (g : GroupNode) :
    (groupTouch now i g).lastforward = now := by
  unfold groupTouch
  dsimp only
  split <;> rfl

/-- `groupint_get` leaves its group stamped. -/
theorem stamped_groupintGet (now : Nat) (groups : Groups) (mca : In6Addr) (ifindex : Nat) :
    Stamped now (groupintGet now groups mca ifindex).1 mca ifindex := by
  have hkey := groupTouch_mca now ifindex
  have hfound : ∀ g, (grpintFind (groupTouch now ifindex g).interfaces ifindex).isSome := by
    intro g
    rw [grpintFind_groupTouch, if_pos rfl]
    rfl
  unfold groupintGet
  cases hf : groupFind groups mca with
  | none =>
    refine ⟨groupTouch now ifindex (groupCreate mca), ?_, groupTouch_lastforward _ _ _, hfound _⟩
    dsimp only
    rw [groupFind_setGroup _ _ hkey, if_pos rfl, groupFind, listnodeAdd,
      KeyedList.find_concat_eq hf rfl, Option.map_some]
  | some groupn =>
    refine ⟨groupTouch now ifindex groupn, ?_, groupTouch_lastforward _ _ _, hfound _⟩
    dsimp only
    rw [groupFind_setGroup _ _ hkey, if_pos rfl, hf, Option.map_some]

/-- `groupint_get` stamps the group that it is called for, and no stamp is lost. -/
theorem Stamped.groupintGet (hs : Stamped now groups mca ifindex) (mca' : In6Addr) (i : Nat) :
    Stamped now (groupintGet now groups mca' i).1 mca ifindex := by
  have hkeep : ∀ groups, Stamped now groups mca ifindex →
      Stamped now (Ecmh.setGroup groups mca' (groupTouch now i)) mca ifindex := fun _ h =>
    h.setGroup mca' (groupTouch_mca now i) (fun g _ => groupTouch_lastforward now i g)
      fun _ => groupTouch_found now i ifindex
  unfold Ecmh.groupintGet
  cases hf : groupFind groups mca' with
  | none =>
    refine hkeep _ ?_
    obtain ⟨groupn, hfind, hrest⟩ := hs
    refine ⟨groupn, ?_, hrest⟩
    unfold groupFind at *
    rw [listnodeAdd, KeyedList.find_append, hfind]
    rfl
  | some groupn => exact hkeep groups hs

/-- A join stamps its group. -/
theorem stamped_joinTable (now ifindex : Nat) (groups : Groups) (j : Join) :
    Stamped now (joinTable now ifindex groups j) j.mca ifindex :=
  (stamped_groupintGet now groups j.mca ifindex).setGroupint _ _ (refreshRows_ifindex now j.rows)

/-- The joins behind it leave the stamp. -/
theorem Stamped.joinTable (hs : Stamped now groups mca ifindex) (i : Nat) (j : Join) :
    Stamped now (joinTable now i groups j) mca ifindex :=
  (hs.groupintGet j.mca i).setGroupint _ _ (refreshRows_ifindex now j.rows)

/-- After a report all groups that it names are stamped. -/
theorem stamped_joins (now ifindex : Nat) : ∀ (joins : List Join) (groups : Groups),
    ∀ j ∈ joins, Stamped now (joins.foldl (Ecmh.joinTable now ifindex) groups) j.mca ifindex := by
  intro joins
  induction joins with
  | nil =>
    intro groups j hj
    cases hj
  | cons j joins ih =>
    intro groups k hk
    rcases List.mem_cons.mp hk with rfl | hk
    · exact Runs.foldl_invariant (P := fun gs => Stamped now gs k.mca ifindex)
        (fun gs j hs => hs.joinTable ifindex j) joins _ (stamped_joinTable now ifindex groups k)
    · exact ih _ k hk

end Stamped

/-! ## 2. Reports that say nothing new

A report may write to one cell more than once.  Its last writes decide, both for the map and for the
table, and the writes before them do not show. -/

/-- The subscriptions that the calls of `grpint_refresh` write, with their modes; a subscription is
named by its group and its source. -/
def Join.cells (j : Join) : List ((In6Addr × In6Addr) × Nat) :=
  (j.rows.filter (fun row => ¬ rowIgnored row.1 row.2)).map fun row => ((j.mca, row.1), row.2)

/-- Everything that the report says of the listeners on the interface was said before in this
second. -/
def Current (now ifindex : Nat) (groups : Groups) (joins : List Join) : Prop :=
  (∀ j ∈ joins, Stamped now groups j.mca ifindex) ∧
  ∀ g src mode, Writes.last (joins.flatMap Join.cells) (g, src) = some mode →
    membershipOf groups g ifindex src = some ⟨src, mode, now⟩

/-- A write to one entry of the map. -/
def MemberMap.set (now ifindex : Nat) (m : MemberMap) (c : In6Addr × In6Addr) (mode : Nat) :
    MemberMap := fun g i src =>
  if g = c.1 ∧ i = ifindex ∧ src = c.2 then some ⟨c.2, mode, now⟩ else m g i src

/-- The part of `grpint_refresh` that writes to the subscription it found. -/
def setMode (now : Nat) (src : In6Addr) (mode : Nat) (grpintn : GrpIntNode) : GrpIntNode :=
  { grpintn with
    subscriptions := setSubscr grpintn.subscriptions src
      (fun subscrn => { subscrn with mode := mode, refreshtime := now }) }

/-- A write to a subscription that is there. -/
def setCell (now ifindex : Nat) (groups : Groups) (c : In6Addr × In6Addr) (mode : Nat) : Groups :=
  setGroupint groups c.1 ifindex (setMode now c.2 mode)

section Cells

variable {now ifindex : Nat}

/-- A row that is not stored writes no cell. -/
theorem Join.cells_cons_ignored (mca : In6Addr) {row : In6Addr × Nat} (rows : List (In6Addr × Nat))
    (hr : rowIgnored row.1 row.2) : Join.cells ⟨mca, row :: rows⟩ = Join.cells ⟨mca, rows⟩ := by
  simp [Join.cells, hr]

/-- Any other row writes one. -/
theorem Join.cells_cons_stored (mca : In6Addr) {row : In6Addr × Nat} (rows : List (In6Addr × Nat))
    (hr : ¬ rowIgnored row.1 row.2) :
    Join.cells ⟨mca, row :: rows⟩ = ((mca, row.1), row.2) :: Join.cells ⟨mca, rows⟩ := by
  simp [Join.cells, hr]

/-! ### On the map -/

/-- A join writes its cells, one after the other. -/
theorem join_eq_run (m : MemberMap) (j : Join) :
    m.join now ifindex j = Writes.run (MemberMap.set now ifindex) m j.cells := by
  obtain ⟨mca, rows⟩ := j
  unfold MemberMap.join
  dsimp only
  induction rows generalizing m with
  | nil => rfl
  | cons row rows ih =>
    rw [List.foldl_cons, ih]
    by_cases hr : rowIgnored row.1 row.2
    · have hsame : MemberMap.refresh now mca ifindex m row = m := by
        funext g i src
        exact if_neg fun hc => hc.2.2.2 hr
      rw [hsame, Join.cells_cons_ignored mca rows hr]
    · have hset : MemberMap.refresh now mca ifindex m row
          = MemberMap.set now ifindex m (mca, row.1) row.2 := by
        funext g i src
        simp [MemberMap.refresh, MemberMap.set, hr]
      rw [hset, Join.cells_cons_stored mca rows hr, Writes.run_cons]

/-- So do the joins of a report. -/
theorem joins_eq_run (joins : List Join) : ∀ m : MemberMap,
    joins.foldl (MemberMap.join now ifindex) m
      = Writes.run (MemberMap.set now ifindex) m (joins.flatMap Join.cells) := by
  induction joins with
  | nil => exact fun m => rfl
  | cons j joins ih =>
    intro m
    rw [List.foldl_cons, ih, join_eq_run, List.flatMap_cons, Writes.run_append]

/-- The map of the table follows the table over the joins of a report. -/
theorem membershipOf_joins (joins : List Join) : ∀ groups : Groups,
    membershipOf (joins.foldl (joinTable now ifindex) groups)
      = joins.foldl (MemberMap.join now ifindex) (membershipOf groups) := by
  induction joins with
  | nil => exact fun groups => rfl
  | cons j joins ih =>
    intro groups
    rw [List.foldl_cons, List.foldl_cons, ih, membershipOf_joinTable]

/-- The map after writes on one interface. -/
theorem run_set_apply (m : MemberMap) (l : List ((In6Addr × In6Addr) × Nat)) (g src : In6Addr) :
    Writes.run (MemberMap.set now ifindex) m l g ifindex src
      = match Writes.last l (g, src) with
        | some mode => some ⟨src, mode, now⟩
        | none => m g ifindex src := by
  have hsame : ∀ (m : MemberMap) (c : In6Addr × In6Addr) (v : Nat),
      MemberMap.set now ifindex m c v c.1 ifindex c.2 = some ⟨c.2, v, now⟩ := fun _ _ _ =>
    if_pos ⟨rfl, rfl, rfl⟩
  have hother : ∀ (m : MemberMap) (c c' : In6Addr × In6Addr) (v : Nat), c ≠ c' →
      MemberMap.set now ifindex m c v c'.1 ifindex c'.2 = m c'.1 ifindex c'.2 :=
    fun _ _ _ _ hne => if_neg fun hc => hne (Prod.ext hc.1.symm hc.2.2.symm)
  refine (@Writes.get_run _ _ _ _ _ _ (fun m c => m c.1 ifindex c.2) _ hsame hother (g, src) l
    m).trans ?_
  cases Writes.last l (g, src) <;> rfl

/-- The other interfaces are left alone. -/
theorem run_set_other {k : Nat} (hk : k ≠ ifindex) (g src : In6Addr)
    (l : List ((In6Addr × In6Addr) × Nat)) : ∀ m : MemberMap,
    Writes.run (MemberMap.set now ifindex) m l g k src = m g k src := by
  induction l with
  | nil => exact fun m => rfl
  | cons c l ih =>
    intro m
    rw [Writes.run_cons, ih]
    exact if_neg fun hc => hk hc.2.1

/-- What a report leaves in the entries it writes. -/
theorem membershipOf_joins_last {groups : Groups} {joins : List Join} {g src : In6Addr} {mode : Nat}
    (hlast : Writes.last (joins.flatMap Join.cells) (g, src) = some mode) :
    membershipOf (joins.foldl (joinTable now ifindex) groups) g ifindex src
      = some ⟨src, mode, now⟩ := by
  rw [membershipOf_joins, joins_eq_run, run_set_apply, hlast]

/-! ### On the table -/

theorem setSubscr_key (mode : Nat) (s : SubscrNode) :
    ({ s with mode := mode, refreshtime := now } : SubscrNode).ipv6 = s.ipv6 := rfl

theorem setMode_ifindex (now : Nat) (src : In6Addr) (mode : Nat) (grpintn : GrpIntNode) :
    (setMode now src mode grpintn).ifindex = grpintn.ifindex := rfl

/-- Two writes to one cell are the second one, and writes to two cells may be exchanged. -/
theorem setCell_lawful (now ifindex : Nat) : Writes.Lawful (setCell now ifindex) := by
  refine ⟨fun groups c v w => ?_, fun groups c c' v w hne => ?_⟩
  · unfold setCell
    refine (setGroupint_setGroupint groups c.1 ifindex (setMode_ifindex now c.2 v)).trans
      (setGroupint_congr fun x _ => ?_)
    simp only [setMode, setSubscr, KeyedList.adjust_adjust (setSubscr_key v)]
  · unfold setCell
    by_cases hg : c.1 = c'.1
    · have hsrc : c.2 ≠ c'.2 := fun e => hne (Prod.ext hg e)
      rw [← hg]
      refine setGroupint_comm_same groups c.1 ifindex (setMode_ifindex now c.2 v)
        (setMode_ifindex now c'.2 w) fun x => ?_
      simp only [setMode, setSubscr, KeyedList.adjust_comm hsrc (setSubscr_key v) (setSubscr_key w)]
    · exact setGroupint_comm groups hg ifindex ifindex _ _

/-- A subscription that is already as it is written. -/
theorem setCell_eq_self {groups : Groups} {c : In6Addr × In6Addr} {mode : Nat}
    (h : membershipOf groups c.1 ifindex c.2 = some ⟨c.2, mode, now⟩) :
    setCell now ifindex groups c mode = groups := by
  rw [setCell, setGroupint_eq_self_iff]
  intro grpintn hg
  rw [membershipOf, hg, Option.bind_some] at h
  have hsame : setSubscr grpintn.subscriptions c.2
      (fun subscrn => { subscrn with mode := mode, refreshtime := now })
        = grpintn.subscriptions := by
    rw [setSubscr, KeyedList.adjust_eq_self_iff.mpr]
    intro s hs
    obtain rfl := Option.some.inj (hs.symm.trans h)
    rfl
  rw [setMode, hsame]

/-- A write to a subscription takes none out. -/
theorem membershipOf_setCell {groups : Groups} {g : In6Addr} {src : In6Addr}
    (h : (membershipOf groups g ifindex src).isSome) (c : In6Addr × In6Addr) (mode : Nat) :
    (membershipOf (setCell now ifindex groups c mode) g ifindex src).isSome := by
  unfold membershipOf setCell at *
  rw [groupintFind_setGroupint _ _ _ (setMode_ifindex now c.2 mode)]
  split
  · rename_i hc
    rw [hc.1] at h
    cases hg : groupintFind groups c.1 ifindex with
    | none =>
      rw [hg] at h
      cases h
    | some grpintn =>
      rw [hg, Option.bind_some] at h
      rw [Option.map_some, Option.bind_some]
      unfold setMode
      unfold subscrFind setSubscr at *
      by_cases hs : src = c.2
      · subst hs
        rw [KeyedList.find_adjust_same (setSubscr_key mode), Option.isSome_map]
        exact h
      · rw [KeyedList.find_adjust_of_ne (setSubscr_key mode) hs]
        exact h
  · exact h

/-- Everything that the report names is in the table. -/
structure Held (now ifindex : Nat) (groups : Groups) (joins : List Join) : Prop where
  stamped : ∀ j ∈ joins, Stamped now groups j.mca ifindex
  found : ∀ c ∈ joins.flatMap Join.cells, (membershipOf groups c.1.1 ifindex c.1.2).isSome

theorem Held.setCell {groups : Groups} {joins : List Join} (h : Held now ifindex groups joins)
    (c : In6Addr × In6Addr) (mode : Nat) :
    Held now ifindex (setCell now ifindex groups c mode) joins :=
  ⟨fun j hj => (h.stamped j hj).setGroupint _ _ (setMode_ifindex now c.2 mode),
    fun d hd => membershipOf_setCell (h.found d hd) c mode⟩

/-- Where the source has a subscription, its refresh is a write to the cell. -/
theorem grpintRefresh_of_found {grpintn : GrpIntNode} {src : In6Addr} {mode : Nat}
    (hr : ¬ rowIgnored src mode) (hfound : (subscrFind grpintn.subscriptions src).isSome) :
    grpintRefresh now grpintn src mode = setMode now src mode grpintn := by
  obtain ⟨s, hs⟩ := Option.isSome_iff_exists.mp hfound
  rw [grpintRefresh, if_neg fun hc => hr ⟨hc.1, in6IsAddrUnspecified_iff.mp hc.2⟩, subscrGet, hs]
  rfl

/-- The rows of a record, on a table that has all their cells, are writes to these cells. -/
theorem rows_eq_run (mca : In6Addr) : ∀ (rows : List (In6Addr × Nat)) (groups : Groups),
    Held now ifindex groups [⟨mca, rows⟩] →
    setGroupint groups mca ifindex (refreshRows now rows)
      = Writes.run (setCell now ifindex) groups (Join.cells ⟨mca, rows⟩) := by
  intro rows
  induction rows with
  | nil => exact fun groups _ => setGroupint_id groups mca ifindex
  | cons row rows ih =>
    intro groups hs
    have hsplit : setGroupint groups mca ifindex (refreshRows now (row :: rows))
        = setGroupint (setGroupint groups mca ifindex
            (fun x => grpintRefresh now x row.1 row.2)) mca ifindex (refreshRows now rows) :=
      (setGroupint_setGroupint groups mca ifindex (g := refreshRows now rows)
        fun x => grpintRefresh_ifindex now x row.1 row.2).symm
    rw [hsplit]
    by_cases hr : rowIgnored row.1 row.2
    · have hid : (fun x => grpintRefresh now x row.1 row.2) = id := by
        funext x
        exact grpintRefresh_ignored hr
      have hcells := Join.cells_cons_ignored mca rows hr
      rw [hid, setGroupint_id, hcells]
      refine ih groups ⟨fun j hj => ?_, ?_⟩
      · rw [List.mem_singleton.mp hj]
        exact hs.stamped ⟨mca, row :: rows⟩ (by simp)
      · have hfound := hs.found
        simp only [List.flatMap_singleton, hcells] at hfound ⊢
        exact hfound
    · have hcells := Join.cells_cons_stored mca rows hr
      have hfound := hs.found
      simp only [List.flatMap_singleton, hcells, List.forall_mem_cons] at hfound
      have hset : setGroupint groups mca ifindex (fun x => grpintRefresh now x row.1 row.2)
          = setCell now ifindex groups (mca, row.1) row.2 := by
        refine setGroupint_congr fun x hx => grpintRefresh_of_found hr ?_
        have := hfound.1
        rw [membershipOf, hx, Option.bind_some] at this
        exact this
      rw [hset, hcells, Writes.run_cons]
      refine ih _ ⟨fun j hj => ?_, fun c hc => ?_⟩
      · rw [List.mem_singleton.mp hj]
        exact (hs.setCell (mca, row.1) row.2).stamped ⟨mca, row :: rows⟩ (by simp)
      · rw [List.flatMap_singleton] at hc
        exact membershipOf_setCell (hfound.2 c hc) _ _

/-- A record that names nothing new is a sequence of writes. -/
theorem Held.joinTable_eq_run {groups : Groups} {joins : List Join} {j : Join}
    (hs : Held now ifindex groups joins) (hj : j ∈ joins) :
    joinTable now ifindex groups j = Writes.run (Ecmh.setCell now ifindex) groups j.cells := by
  have hone : Held now ifindex groups [j] := by
    refine ⟨fun k hk => ?_, fun c hc => hs.found c ?_⟩
    · rw [List.mem_singleton.mp hk]
      exact hs.stamped j hj
    · rw [List.flatMap_singleton] at hc
      exact List.mem_flatMap.mpr ⟨j, hj, hc⟩
  rw [joinTable, groupintGet_of_stamped (hs.stamped j hj)]
  exact rows_eq_run j.mca j.rows groups hone

/-- Writing takes no cell out of the table. -/
theorem Held.run {groups : Groups} {joins : List Join} (hs : Held now ifindex groups joins)
    (l : List ((In6Addr × In6Addr) × Nat)) :
    Held now ifindex (Writes.run (Ecmh.setCell now ifindex) groups l) joins :=
  Runs.foldl_invariant (P := fun gs => Held now ifindex gs joins)
    (fun _ c h => h.setCell c.1 c.2) l groups hs

/-- A report whose subscriptions are all there is a sequence of writes. -/
theorem joinTables_eq_run : ∀ (joins : List Join) (groups : Groups), Held now ifindex groups joins →
    joins.foldl (joinTable now ifindex) groups
      = Writes.run (setCell now ifindex) groups (joins.flatMap Join.cells) := by
  intro joins
  induction joins with
  | nil => exact fun groups _ => rfl
  | cons j joins ih =>
    intro groups hs
    have hrest : Held now ifindex groups joins := by
      refine ⟨fun k hk => hs.stamped k (List.mem_cons_of_mem _ hk), fun c hc => hs.found c ?_⟩
      rw [List.flatMap_cons]
      exact List.mem_append_right _ hc
    rw [List.foldl_cons, hs.joinTable_eq_run List.mem_cons_self, List.flatMap_cons,
      Writes.run_append]
    exact ih _ (hrest.run j.cells)

/-- A table that is up to date has the cells. -/
theorem Current.held {groups : Groups} {joins : List Join} (h : Current now ifindex groups joins) :
    Held now ifindex groups joins := by
  refine ⟨h.1, fun c hc => ?_⟩
  obtain ⟨mode, hm⟩ := Option.isSome_iff_exists.mp (Writes.last_isSome hc)
  rw [h.2 c.1.1 c.1.2 mode hm]
  rfl

/-- **When a report leaves the table as it is.** -/
theorem joinTables_eq_self_iff {groups : Groups} {joins : List Join} :
    joins.foldl (joinTable now ifindex) groups = groups ↔ Current now ifindex groups joins := by
  constructor
  · intro hsame
    refine ⟨fun j hj => ?_, fun g src mode hlast => ?_⟩
    · have hstamped := stamped_joins now ifindex joins groups j hj
      rw [hsame] at hstamped
      exact hstamped
    · have hentry := @membershipOf_joins_last now ifindex groups joins g src mode hlast
      rw [hsame] at hentry
      exact hentry
  · intro hcur
    rw [joinTables_eq_run joins groups hcur.held]
    exact Writes.run_eq_self (setCell_lawful now ifindex) fun c mode hlast =>
      setCell_eq_self (hcur.2 c.1 c.2 mode hlast)

end Cells

end Ecmh
