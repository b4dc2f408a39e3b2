/-
# Which groups are managed

Both report handlers test the scope of a group before they enter it into the table, but only the
MLDv1 handlers also test that the address is a multicast address.  `routable_iff_multicastReports`
is the exact account: all groups of the table stay beyond link-local multicast groups along a run
if and only if no MLDv2 report of the run asks for an address that is not multicast.
-/
import Ecmh.Invariant

namespace Ecmh

open ByteMem

/-! ## 1. The addresses in the table -/

/-- A multicast address that is neither node-local nor link-local. -/
def Routable (mca : In6Addr) : Prop :=
  in6IsAddrMulticast mca = true ∧ in6IsAddrMcNodelocal mca = false ∧
    in6IsAddrMcLinklocal mca = false

instance (mca : In6Addr) : Decidable (Routable mca) :=
  inferInstanceAs (Decidable (_ ∧ _ ∧ _))

/-- Every group of the table has such an address. -/
def RoutableGroups (groups : Groups) : Prop := ∀ groupn ∈ groups.nodes, Routable groupn.mca

instance (groups : Groups) : Decidable (RoutableGroups groups) :=
  inferInstanceAs (Decidable (∀ groupn ∈ groups.nodes, Routable groupn.mca))

theorem routableGroups_iff {groups : Groups} :
    RoutableGroups groups ↔ ∀ mca ∈ groups.nodes.map GroupNode.mca, Routable mca := by
  simp [RoutableGroups]

theorem setGroup_mcas (groups : Groups) (mca : In6Addr) {f : GroupNode → GroupNode}
    (hf : ∀ g, (f g).mca = g.mca) :
    (setGroup groups mca f).nodes.map GroupNode.mca = groups.nodes.map GroupNode.mca :=
  KeyedList.map_key_adjust hf groups.nodes

theorem setGroupint_mcas (groups : Groups) (mca : In6Addr) (ifindex : Nat)
    (f : GrpIntNode → GrpIntNode) :
    (setGroupint groups mca ifindex f).nodes.map GroupNode.mca
      = groups.nodes.map GroupNode.mca :=
  setGroup_mcas groups mca fun _ => rfl

/-- `groupint_get` leaves the group in the table, and adds no other one. -/
theorem mem_mcas_groupintGet (t : Nat) (groups : Groups) (mca : In6Addr) (ifindex : Nat)
    (x : In6Addr) : x ∈ (groupintGet t groups mca ifindex).1.nodes.map GroupNode.mca ↔
      x ∈ groups.nodes.map GroupNode.mca ∨ x = mca := by
  unfold groupintGet
  split
  · rw [setGroup_mcas _ mca (groupTouch_mca t ifindex)]
    simp [listnodeAdd, groupCreate]
  · rename_i groupn hf
    rw [setGroup_mcas _ mca (groupTouch_mca t ifindex)]
    constructor
    · exact Or.inl
    · rintro (hx | rfl)
      · exact hx
      · rw [← KeyedList.key_of_find hf]
        exact List.mem_map_of_mem (KeyedList.mem_of_find hf)

theorem mem_mcas_joins (now ifindex : Nat) (x : In6Addr) : ∀ (joins : List Join) (groups : Groups),
    x ∈ (joins.foldl (joinTable now ifindex) groups).nodes.map GroupNode.mca ↔
      x ∈ groups.nodes.map GroupNode.mca ∨ ∃ j ∈ joins, x = j.mca := by
  intro joins
  induction joins with
  | nil => exact fun groups => by simp
  | cons j joins ih =>
    intro groups
    rw [List.foldl_cons, ih, joinTable, setGroupint_mcas, mem_mcas_groupintGet]
    simp [or_assoc]

/-! ## 2. One operation -/

/-- The groups that an operation enters into the table if they are not there. -/
def TableOp.mcas : TableOp → List In6Addr
  | .refresh _ joins => joins.map Join.mca
  | _ => []

theorem routableGroups_apply {now : Nat} {op : TableOp} {groups : Groups}
    (h : RoutableGroups groups) :
    RoutableGroups (op.apply now groups) ↔ ∀ mca ∈ op.mcas, Routable mca := by
  rw [routableGroups_iff] at h ⊢
  cases op with
  | keep => simpa [TableOp.apply, TableOp.mcas] using h
  | count dst len =>
    rw [TableOp.apply, setGroup_mcas (f := countGroup len) _ dst fun _ => rfl]
    exact ⟨fun _ => by simp [TableOp.mcas], fun _ => h⟩
  | refresh ifindex joins =>
    simp only [TableOp.apply, TableOp.mcas]
    constructor
    · intro hx mca hm
      obtain ⟨j, hj, rfl⟩ := List.mem_map.mp hm
      exact hx j.mca ((mem_mcas_joins now ifindex _ joins groups).mpr (Or.inr ⟨j, hj, rfl⟩))
    · intro hx mca hm
      rcases (mem_mcas_joins now ifindex _ joins groups).mp hm with hm | ⟨j, hj, rfl⟩
      · exact h mca hm
      · exact hx j.mca (List.mem_map_of_mem hj)
  | reduce mca ifindex =>
    rw [TableOp.apply, setGroupint_mcas]
    exact ⟨fun _ => by simp [TableOp.mcas], fun _ => h⟩
  | sweep =>
    refine ⟨fun _ => by simp [TableOp.mcas], fun _ mca hm => h mca ?_⟩
    simp only [TableOp.apply, listLoop2_nodes] at hm
    exact (filterMap_sublist_of_key (timeoutGroup_mca now) groups.nodes).subset hm

/-! ## 3. One event -/

theorem mld1_routable {mca : In6Addr} (h : mld1Ignores mca = false) : Routable mca := by
  simp only [mld1Ignores, Bool.or_eq_false_iff, Bool.not_eq_false'] at h
  exact ⟨h.1.1, h.1.2, h.2⟩

/-- The scope test of the MLDv2 handler leaves the multicast test out. -/
theorem routable_iff_multicast {mca : In6Addr} (h : mld2Ignores mca = false) :
    Routable mca ↔ in6IsAddrMulticast mca = true := by
  simp only [mld2Ignores, Bool.or_eq_false_iff] at h
  exact ⟨fun hr => hr.1, fun hm => ⟨hm, h.1, h.2⟩⟩

theorem join_mca {r : GrecSeen} {j : Join} (h : r.join = some j) : mld2Ignores j.mca = false := by
  unfold GrecSeen.join at h
  split at h
  · simp at h
  · rename_i hc
    cases h
    exact (Bool.or_eq_false_iff.mp (Bool.eq_false_iff.mpr hc)).2

theorem OpShape.mcas {op : TableOp} (h : OpShape op) :
    ∀ mca ∈ op.mcas, mld2Ignores mca = false := by
  intro mca hm
  cases h with
  | mld1Report ifindex x hi =>
    rw [List.mem_singleton.mp hm]
    obtain ⟨-, hn, hl⟩ := mld1_routable hi
    simp [mld2Ignores, hn, hl]
  | mld2Report ifindex rs =>
    obtain ⟨j, hj, rfl⟩ := List.mem_map.mp hm
    obtain ⟨r, -, hr⟩ := List.mem_filterMap.mp hj
    exact join_mca hr
  | _ => simp [TableOp.mcas] at hm

theorem tableOp_mcas (h : Host) (st : Conf) (ev : Event) :
    ∀ mca ∈ (tableOp h st ev).mcas, mld2Ignores mca = false := by
  rcases tableOp_shape h st ev with hs | ⟨hs, -⟩
  · exact hs.mcas
  · simp [hs, TableOp.mcas]

/-- The groups that the reports in the event ask for are multicast groups. -/
def MulticastReports (h : Host) (st : Conf) (ev : Event) : Prop :=
  ∀ mca ∈ (tableOp h st ev).mcas, in6IsAddrMulticast mca = true

theorem step_routable {h : Host} {st : Conf} (ev : Event) (hr : RoutableGroups st.groups) :
    RoutableGroups (step h st ev).groups ↔ MulticastReports h st ev := by
  rw [step_groups, routableGroups_apply hr]
  have hscope := tableOp_mcas h st ev
  exact forall_congr' fun mca => imp_congr_right fun hm => routable_iff_multicast (hscope mca hm)

/-! ## 4. Runs -/

/-- **Only routable groups are managed, exactly as long as no MLDv2 report names a group that is
not multicast.** -/
theorem routable_iff_multicastReports (h : Host) (o : Options) (now : Nat)
    (ifap : Option (List IfAddr)) (es : List Event) :
    Runs.Always (step h) (fun st => RoutableGroups st.groups) (boot h o now ifap) es ↔
      Runs.StepsMeet (step h) (MulticastReports h) (boot h o now ifap) es := by
  refine Runs.always_iff_stepsMeet (I := fun _ => True)
    (P := fun st : Conf => RoutableGroups st.groups) (fun _ _ _ => trivial)
    (fun st ev _ hr => step_routable ev hr) es _ trivial ?_
  rw [boot_groups]
  intro groupn hg
  simp [listNew] at hg

/-- An MLDv2 report with one record, `MODE_IS_EXCLUDE` without sources, for `2001:db8::1`. -/
def unicastReport : List UInt8 :=
  [143, 0, 0, 0, 0, 0, 0, 1] ++ [2, 0, 0, 0] ++
    [0x20, 0x01, 0x0d, 0xb8, 0, 0, 0, 0, 0, 0, 0, 0, 0, 0, 0, 1]

/-- After this report the daemon manages a unicast address. -/
theorem unicast_group_managed : ¬ RoutableGroups
    (run (quietHost .little) (boot (quietHost .little) plainOptions 0 none)
      [.frame 0 (mldFrame 1 unicastReport)]).groups := by
  decide +kernel

end Ecmh
