/-
# When a report names nothing twice

The scan for repetitions never finds one, as it looks behind the last source, so every source that
two interfaces share is listed twice.  And once `src` is reset, by a `::` or by what the scan takes
for a repetition, the next subscription of the group starts another record for it, in the same
packet unless that is full.  `report_says_once_iff` is the exact account, in terms of what the loops
see at the subscriptions of each group.  It is about what a receiver decodes, and so about the calls
whose steps all write where they should; what a torn packet says is another matter.
-/
import Ecmh.ReportSilent
import Mathlib.Data.Prod.Basic

namespace Ecmh

open ByteMem

/-! ## 1. The sources that stay in the records of a group

A `::` removes the sources of the record that it comes to, and not those of the records before. -/

/-- A source in front of these subscriptions is removed by a `::` that comes before another record
is started. -/
def removed : List Look → Bool
  | [] => false
  | x :: xs => if x.ipv6 = In6Addr.any then true else if x.hit || x.full then false else removed xs

/-- The sources that are listed in the end: those that are neither taken for repetitions nor removed
by a `::`. -/
def kept : List Look → List In6Addr
  | [] => []
  | x :: xs =>
    if x.ipv6 = In6Addr.any ∨ x.hit = true ∨ removed xs = true then kept xs else x.ipv6 :: kept xs

/-- The sources that records list. -/
def listed (recs : List Grec) : List In6Addr := recs.flatMap Grec.srcs

@[simp] theorem listed_append (recs recs' : List Grec) :
    listed (recs ++ recs') = listed recs ++ listed recs' := List.flatMap_append

@[simp] theorem listed_singleton (r : Grec) : listed [r] = r.srcs := by simp [listed]

section Kept

variable {mca : In6Addr}

theorem kept_cons_any {x : Look} {xs : List Look} (hany : x.ipv6 = In6Addr.any) :
    kept (x :: xs) = kept xs := by
  rw [kept, if_pos (Or.inl hany)]

theorem kept_cons_hit {x : Look} {xs : List Look} (hhit : x.hit = true) :
    kept (x :: xs) = kept xs := by
  rw [kept, if_pos (Or.inr (Or.inl hhit))]

theorem kept_cons_source {x : Look} {xs : List Look} (hany : x.ipv6 ≠ In6Addr.any)
    (hhit : x.hit = false) : kept (x :: xs) = (if removed xs then [] else [x.ipv6]) ++ kept xs := by
  rw [kept]
  cases removed xs <;> simp [hany, hhit]

/-- What is listed behind these subscriptions, from a state in which a record has a source, or not.
The induction is on the subscriptions, and carries the record that a `::` would clear. -/
theorem run_listed : ∀ (xs : List Look) (pre : List Grec) (r : Grec),
    (HitsKnown mca ⟨pre, false⟩ xs →
      listed (Runs.run (Gather.look mca) ⟨pre, false⟩ xs).recs = listed pre ++ kept xs) ∧
    (HitsKnown mca ⟨pre ++ [r], true⟩ xs →
      listed (Runs.run (Gather.look mca) ⟨pre ++ [r], true⟩ xs).recs
        = listed pre ++ (if removed xs then [] else r.srcs) ++ kept xs) := by
  intro xs
  induction xs with
  | nil =>
    intro pre r
    refine ⟨fun _ => ?_, fun _ => ?_⟩
    · simp [kept]
    · simp [kept, removed]
  | cons x xs ih =>
    intro pre r
    have hopens : ∀ recs : List Grec, x.hit = false →
        HitsKnown mca (Gather.opens mca ⟨recs, false⟩ x.ipv6) xs →
        listed (Runs.run (Gather.look mca) (Gather.opens mca ⟨recs, false⟩ x.ipv6) xs).recs
          = listed recs ++ kept (x :: xs) := by
      intro recs hhit hknown
      by_cases hany : x.ipv6 = In6Addr.any
      · have hopen : Gather.opens mca ⟨recs, false⟩ x.ipv6 = ⟨recs ++ [allRecord mca], false⟩ := by
          simp [Gather.opens, firstRecord, hany]
        rw [hopen] at hknown ⊢
        rw [(ih _ r).1 hknown, kept_cons_any hany]
        simp [allRecord]
      · have hopen : Gather.opens mca ⟨recs, false⟩ x.ipv6
            = ⟨recs ++ [⟨mld2ModeIsInclude, mca, [x.ipv6]⟩], true⟩ := by
          simp [Gather.opens, firstRecord, hany]
        rw [hopen] at hknown ⊢
        rw [(ih recs _).2 hknown, kept_cons_source hany hhit, List.append_assoc]
    refine ⟨fun hknown => ?_, fun hknown => ?_⟩
    · obtain ⟨hhit, hknown⟩ := Runs.stepsMeet_cons.mp hknown
      have hmiss : x.hit = false := Bool.eq_false_iff.mpr fun ht => Bool.false_ne_true (hhit ht)
      rw [Gather.look_opens rfl] at hknown
      rw [Runs.run_cons, Gather.look_opens rfl]
      exact hopens pre hmiss hknown
    · obtain ⟨-, hknown⟩ := Runs.stepsMeet_cons.mp hknown
      rw [Runs.run_cons]
      by_cases hany : x.ipv6 = In6Addr.any
      · rw [Gather.look_collapse rfl hany rfl] at hknown ⊢
        rw [(ih _ r).1 hknown, kept_cons_any hany, removed, if_pos hany]
        simp
      · cases hhit : x.hit with
        | true =>
          rw [Gather.look_dropped rfl hany hhit] at hknown ⊢
          rw [(ih _ r).1 hknown, kept_cons_hit hhit, removed, if_neg hany, hhit]
          simp
        | false =>
          cases hfull : x.full with
          | true =>
            rw [Gather.look_split rfl hany hhit hfull] at hknown ⊢
            have hrun := hopens (pre ++ [r]) hhit hknown
            rw [removed, if_neg hany, hfull]
            simp only [Bool.or_true, if_true, Bool.false_eq_true, if_false]
            rw [← listed_singleton r, ← listed_append]
            exact hrun
          | false =>
            rw [Gather.look_adds rfl hany hhit hfull rfl] at hknown ⊢
            rw [(ih pre _).2 hknown, kept_cons_source hany hhit, removed, if_neg hany, hhit, hfull]
            cases removed xs <;> simp

/-- **What the records of a group list.** -/
theorem gather_listed {xs : List Look} (hknown : HitsKnown mca ⟨[], false⟩ xs) :
    listed (gather mca xs).recs = kept xs :=
  (run_listed xs [] (allRecord mca)).1 hknown

end Kept

/-! ## 2. What is named twice

A packet may name a group in two records, and a source of a group in two records or twice in one. -/

/-- The pairs of a group and a source that records name. -/
def named (recs : List Grec) : List (In6Addr × In6Addr) :=
  recs.flatMap fun r => r.srcs.map (Prod.mk r.grecMca)

theorem named_append (recs recs' : List Grec) : named (recs ++ recs') = named recs ++ named recs' :=
  List.flatMap_append

/-- The records of one group name what they list. -/
theorem named_of_mca {mca : In6Addr} {recs : List Grec} (hmca : ∀ r ∈ recs, r.grecMca = mca) :
    named recs = (listed recs).map (Prod.mk mca) := by
  rw [named, listed, List.map_flatMap]
  exact List.flatMap_congr fun r hr => by rw [hmca r hr]

theorem named_group {recs : List Grec} {p : In6Addr × In6Addr} (hp : p ∈ named recs) :
    ∃ r ∈ recs, r.grecMca = p.1 := by
  obtain ⟨r, hr, hp⟩ := List.mem_flatMap.mp hp
  obtain ⟨a, -, rfl⟩ := List.mem_map.mp hp
  exact ⟨r, hr, rfl⟩

/-- No packet has two records for a group, and all together name no source of a group twice. -/
structure SaysOnce (packets : List (List Grec)) : Prop where
  groups : ∀ recs ∈ packets, (recs.map Grec.grecMca).Nodup
  sources : (named packets.flatten).Nodup

theorem SaysOnce.front {packets packets' : List (List Grec)} (hs : SaysOnce (packets ++ packets')) :
    SaysOnce packets := by
  refine ⟨fun recs hr => hs.groups recs (List.mem_append_left _ hr), ?_⟩
  have hsources := hs.sources
  rw [List.flatten_append, named_append] at hsources
  exact hsources.of_append_left

/-- A packet without a record says nothing. -/
theorem saysOnce_append_nil {packets : List (List Grec)} :
    SaysOnce (packets ++ [[]]) ↔ SaysOnce packets := by
  refine ⟨SaysOnce.front, fun hs => ⟨?_, ?_⟩⟩
  · rw [List.forall_mem_append, List.forall_mem_singleton]
    exact ⟨hs.groups, List.nodup_nil⟩
  · rw [List.flatten_append, List.flatten_singleton, List.append_nil]
    exact hs.sources

/-- What a loop has said so far, the packet under construction included. -/
def ReportLoop.Once (s : ReportLoop) : Prop := SaysOnce (s.out ++ [s.cur])

/-- No packet has two records for a group, the one under construction included. -/
def GroupsOnce (s : ReportLoop) : Prop :=
  (∀ recs ∈ s.out, (recs.map Grec.grecMca).Nodup) ∧ (s.cur.map Grec.grecMca).Nodup

theorem ReportLoop.once_iff {s : ReportLoop} :
    s.Once ↔ GroupsOnce s ∧ (named s.records).Nodup := by
  have hflat : (s.out ++ [s.cur]).flatten = s.records := by simp [ReportLoop.records]
  constructor
  · intro hs
    have hgroups := hs.groups
    rw [List.forall_mem_append, List.forall_mem_singleton] at hgroups
    exact ⟨hgroups, hflat ▸ hs.sources⟩
  · rintro ⟨hgroups, hsources⟩
    refine ⟨?_, hflat ▸ hsources⟩
    rw [List.forall_mem_append, List.forall_mem_singleton]
    exact hgroups

/-! ## 3. The packets -/

/-- **What a subscription does to the groups that the packets name.** -/
inductive PacketStep (mca : In6Addr) (s : ReportLoop) (x : Look) (s' : ReportLoop) : Prop
  | opens (hsrc : s.src = none) (hfull : x.full = false) (hout : s'.out = s.out)
      (hcur : s'.cur.map Grec.grecMca = s.cur.map Grec.grecMca ++ [mca])
  | split (hfull : x.full = true) (hout : s'.out = s.out ++ [s.cur])
      (hcur : s'.cur.map Grec.grecMca = [mca])
  | keeps (hsrc : s.src.isSome) (hout : s'.out = s.out)
      (hcur : s'.cur.map Grec.grecMca = s.cur.map Grec.grecMca)

section Packets

variable {h : Host} {i : Nat} {mca : In6Addr}

theorem setLast_mcas {f : Grec → Grec} (hf : ∀ r, (f r).grecMca = r.grecMca) (cur : List Grec) :
    (ReportLoop.setLast f cur).map Grec.grecMca = cur.map Grec.grecMca := by
  rcases List.eq_nil_or_concat cur with rfl | ⟨pre, r, rfl⟩
  · rfl
  · rw [List.concat_eq_append, setLast_concat, List.map_append, List.map_append, List.map_singleton,
      List.map_singleton, hf]

theorem reportAppend_mcas (e : Endian) (s : ReportLoop) (ipv6 : In6Addr) :
    (reportAppend e s ipv6).cur.map Grec.grecMca = s.cur.map Grec.grecMca := by
  cases hgrec : s.grec with
  | none => simp [reportAppend, hgrec]
  | some grec =>
    by_cases hany : ipv6 = In6Addr.any
    · rw [reportAppend_any hgrec hany]
    · rw [reportAppend_source hgrec hany]
      refine setLast_mcas ?_ s.cur
      exact fun _ => rfl

theorem reportNewGrec_mcas (e : Endian) (s : ReportLoop) (mca : In6Addr) :
    (reportNewGrec e s mca).cur.map Grec.grecMca = s.cur.map Grec.grecMca ++ [mca] :=
  List.map_append

theorem subscr_packets {s : ReportLoop} (hs : Ready h i s) (ipv6 : In6Addr) :
    PacketStep mca s (lookAt h i s ipv6) (reportSubscr h i mca s ipv6) := by
  have hcases := reportSubscr_step h i mca s ipv6
  generalize reportSubscr h i mca s ipv6 = s' at hcases
  cases hcases with
  | returned hret => exact absurd (hs.returned.symm.trans hret) (by simp)
  | tooSmall _ hgrec hfull => exact absurd ((hs.first hgrec ipv6).symm.trans hfull) (by simp)
  | known _ _ hk =>
    generalize hb : false = b at hk
    cases hk with
    | noSource _ => cases hb
    | fresh _ _ _ _ _ _ => cases hb
    | noGrec hsrc hgrec => exact absurd (hs.pointer hsrc) (by simp [hgrec])
    | collapse grec hsrc _ _ =>
      refine .keeps hsrc rfl (setLast_mcas ?_ s.cur)
      exact fun _ => rfl
    | dropped _ hit =>
      obtain ⟨_, _, hsrc, _⟩ := hit
      exact .keeps hsrc rfl rfl
  | split src touched grec _ _ _ hfull =>
    refine .split hfull ?_ ?_
    · rw [reportAppend_out]
      rfl
    · rw [reportAppend_mcas, reportNewGrec_mcas]
      rfl
  | opens _ hsrc hfull =>
    refine .opens hsrc hfull ?_ ?_
    · rw [reportAppend_out]
      rfl
    · rw [reportAppend_mcas, reportNewGrec_mcas]
  | adds src touched grec _ _ hsrc _ _ _ =>
    refine .keeps hsrc ?_ ?_
    · rw [reportAppend_out]
    · rw [reportAppend_mcas]

/-- Behind this subscription `src` is not set, so that the next one starts a record. -/
def Look.Resets (x : Look) : Prop := x.ipv6 = In6Addr.any ∨ x.hit = true

instance (x : Look) : Decidable x.Resets := inferInstanceAs (Decidable (_ ∨ _))

theorem Gather.look_resets {g : Gather} {x : Look} (hhit : x.hit = true → g.source = true) :
    (g.look mca x).source = false ↔ x.Resets := by
  unfold look Look.Resets
  cases hs : g.source with
  | false =>
    have hmiss : x.hit = false := Bool.eq_false_iff.mpr fun ht =>
      Bool.false_ne_true (hs.symm.trans (hhit ht))
    simp [opens, hmiss]
  | true =>
    by_cases hany : x.ipv6 = In6Addr.any
    · simp [hany]
    · cases hx : x.hit with
      | true => simp [hany]
      | false => cases x.full <;> simp [opens, hany]

theorem subscr_resets {s : ReportLoop} (hs : Ready h i s) (ipv6 : In6Addr) :
    (reportSubscr h i mca s ipv6).src = none ↔ (lookAt h i s ipv6).Resets := by
  obtain ⟨hlook, -⟩ := subscr_gathers hs mca ipv6
  have hhit : (lookAt h i s ipv6).hit = true → s.gather.source = true := fun hhit => by
    obtain ⟨_, _, hsrc, _⟩ := of_decide_eq_true hhit
    exact hsrc
  rw [← Gather.look_resets hhit, ← hlook]
  exact Option.not_isSome_iff_eq_none.symm.trans (Bool.not_eq_true _).to_iff

/-- The subscription behind one that resets `src` starts a record, so it has to start a packet. -/
def Restarts (x y : Look) : Prop := x.Resets → y.full = true

instance : DecidableRel Restarts := fun x y =>
  inferInstanceAs (Decidable (x.Resets → y.full = true))

/-- One subscription of a group that the packet already names. -/
theorem subscr_groupsOnce {s : ReportLoop} (hs : Ready h i s)
    (hmca : mca ∈ s.cur.map Grec.grecMca) (ipv6 : In6Addr) :
    (GroupsOnce (reportSubscr h i mca s ipv6) ↔
      GroupsOnce s ∧ (s.src = none → (lookAt h i s ipv6).full = true)) ∧
    mca ∈ (reportSubscr h i mca s ipv6).cur.map Grec.grecMca := by
  have hstep : PacketStep mca s (lookAt h i s ipv6) (reportSubscr h i mca s ipv6) :=
    subscr_packets hs ipv6
  unfold GroupsOnce
  cases hstep with
  | opens hsrc hfull hout hcur =>
    rw [hout, hcur, hfull]
    refine ⟨iff_of_false ?_ ?_, by simp⟩
    · rintro ⟨-, hnodup⟩
      exact (List.nodup_append.mp hnodup).2.2 mca hmca mca (List.mem_singleton_self mca) rfl
    · rintro ⟨-, hfull⟩
      exact Bool.false_ne_true (hfull hsrc)
  | split hfull hout hcur =>
    rw [hout, hcur, hfull]
    simp [or_imp, forall_and]
  | keeps hsrc hout hcur =>
    rw [hout, hcur]
    refine ⟨(and_iff_left fun hnone => ?_).symm, hmca⟩
    rw [hnone] at hsrc
    cases hsrc

/-- The subscriptions of a group that the packet names.  The induction carries the look `x` in front
of them. -/
theorem subscrs_groupsOnce : ∀ (l : List In6Addr) {s : ReportLoop} (x : Look), Ready h i s →
    mca ∈ s.cur.map Grec.grecMca → (s.src = none ↔ x.Resets) →
    (GroupsOnce (Runs.run (reportStep h i) s (l.map (.subscr mca))) ↔
      GroupsOnce s ∧ (x :: looks h i mca s l).IsChain Restarts) := by
  intro l
  induction l with
  | nil => exact fun x _ _ _ => by simp [looks]
  | cons ipv6 next ih =>
    intro s x hs hmca hx
    obtain ⟨hone, hmca'⟩ := subscr_groupsOnce hs hmca ipv6
    have hs' : Ready h i (reportSubscr h i mca s ipv6) := (subscr_gathers hs mca ipv6).2
    rw [List.map_cons, Runs.run_cons, looks, List.isChain_cons_cons]
    show GroupsOnce (Runs.run _ (reportSubscr h i mca s ipv6) _) ↔ _
    rw [ih (lookAt h i s ipv6) hs' hmca' (subscr_resets hs ipv6), hone, hx, and_assoc]
    rfl

/-- The subscriptions of a group that the packet does not name yet. -/
theorem group_groupsOnce {s : ReportLoop} (hs : Ready h i s) (hsrc : s.src = none)
    (hmca : mca ∉ s.cur.map Grec.grecMca) (l : List In6Addr) :
    GroupsOnce (Runs.run (reportStep h i) s (l.map (.subscr mca))) ↔
      GroupsOnce s ∧ (looks h i mca s l).IsChain Restarts := by
  cases l with
  | nil => simp [looks]
  | cons ipv6 next =>
    have hs' : Ready h i (reportSubscr h i mca s ipv6) := (subscr_gathers hs mca ipv6).2
    have hstep : PacketStep mca s (lookAt h i s ipv6) (reportSubscr h i mca s ipv6) :=
      subscr_packets hs ipv6
    have hfirst : (GroupsOnce (reportSubscr h i mca s ipv6) ↔ GroupsOnce s) ∧
        mca ∈ (reportSubscr h i mca s ipv6).cur.map Grec.grecMca := by
      unfold GroupsOnce
      cases hstep with
      | opens _ _ hout hcur =>
        rw [hout, hcur]
        refine ⟨?_, by simp⟩
        rw [← List.concat_eq_append, List.nodup_concat, and_iff_right hmca]
      | split _ hout hcur =>
        rw [hout, hcur]
        simp [or_imp, forall_and]
      | keeps hsome _ _ =>
        rw [hsrc] at hsome
        cases hsome
    rw [List.map_cons, Runs.run_cons, looks]
    show GroupsOnce (Runs.run _ (reportSubscr h i mca s ipv6) _) ↔ _
    rw [subscrs_groupsOnce next _ hs' hfirst.2 (subscr_resets hs ipv6), hfirst.1]

end Packets

/-! ## 4. The groups of a call -/

/-- **When the subscriptions of a group say nothing twice**: whenever a record was to be started
again the packet was full, and no source is kept twice. -/
structure Once (xs : List Look) : Prop where
  restarts : xs.IsChain Restarts
  kept : (kept xs).Nodup

instance (xs : List Look) : Decidable (Once xs) :=
  decidable_of_iff (xs.IsChain Restarts ∧ (kept xs).Nodup)
    ⟨fun h => ⟨h.1, h.2⟩, fun h => ⟨h.restarts, h.kept⟩⟩

/-- The condition on a group that the loop reaches in state `s`. -/
def GroupOnce (h : Host) (i : Nat) (mca : Option In6Addr) (s : ReportLoop) (groupn : GroupNode) :
    Prop := reportsGroup mca groupn → Once (groupLooks h i s groupn)

instance (h : Host) (i : Nat) (mca : Option In6Addr) (s : ReportLoop) (groupn : GroupNode) :
    Decidable (GroupOnce h i mca s groupn) := inferInstanceAs (Decidable (_ → _))

section Groups

variable {h : Host} {i : Nat} {mca : Option In6Addr}

theorem groupRecords_named {s : ReportLoop} (hs : Ready h i s) (groupn : GroupNode)
    (hreports : reportsGroup mca groupn) : named (groupRecords h i mca s groupn)
      = (kept (groupLooks h i s groupn)).map (Prod.mk groupn.mca) := by
  have hknown : HitsKnown groupn.mca ⟨[], false⟩ (groupLooks h i s groupn) :=
    looks_known _ hs.group rfl
  rw [named_of_mca fun r hr => (groupRecords_mca s groupn r hr).1, groupRecords, if_pos hreports,
    gather_listed hknown]

/-- A group that was not named before. -/
theorem reportGroup_once {s : ReportLoop} (hs : Ready h i s) {groupn : GroupNode}
    (hnew : ∀ r ∈ s.records, r.grecMca ≠ groupn.mca) :
    (reportGroup h i mca s groupn).Once ↔ s.Once ∧ GroupOnce h i mca s groupn := by
  by_cases hreports : reportsGroup mca groupn
  · have hcur : groupn.mca ∉ s.cur.map Grec.grecMca := by
      rintro hmem
      obtain ⟨r, hr, hm⟩ := List.mem_map.mp hmem
      exact hnew r (List.mem_append_right _ hr) hm
    have hgroups : GroupsOnce (reportGroup h i mca s groupn) ↔
        GroupsOnce s ∧ (groupLooks h i s groupn).IsChain Restarts := by
      rw [reportGroup_eq h i mca rfl groupn, if_pos hreports, groupSteps, Runs.run_cons]
      exact group_groupsOnce hs.group rfl hcur _
    have hsources : (named (reportGroup h i mca s groupn).records).Nodup ↔
        (named s.records).Nodup ∧ (kept (groupLooks h i s groupn)).Nodup := by
      rw [(reportGroup_records hs groupn).1, named_append, groupRecords_named hs groupn hreports,
        List.nodup_append, List.nodup_map_iff (Prod.mk_right_injective groupn.mca)]
      refine and_congr_right fun _ => and_iff_left fun p hp q hq => ?_
      rintro rfl
      obtain ⟨r, hr, hm⟩ := named_group hp
      obtain ⟨a, -, rfl⟩ := List.mem_map.mp hq
      exact hnew r hr hm
    have honce : GroupOnce h i mca s groupn ↔ (groupLooks h i s groupn).IsChain Restarts ∧
        (kept (groupLooks h i s groupn)).Nodup :=
      ⟨fun ho => ⟨(ho hreports).restarts, (ho hreports).kept⟩, fun ho _ => ⟨ho.1, ho.2⟩⟩
    rw [ReportLoop.once_iff, ReportLoop.once_iff, honce]
    exact (and_congr hgroups hsources).trans and_and_and_comm
  · rw [reportGroup_eq h i mca rfl groupn, if_neg hreports]
    exact (and_iff_left fun hr => absurd hr hreports).symm

/-- **The groups of a call.** -/
theorem groups_once_iff : ∀ (groups : List GroupNode) {s : ReportLoop}, Ready h i s →
    KeyedList.Unique GroupNode.mca groups →
    (∀ groupn ∈ groups, ∀ r ∈ s.records, r.grecMca ≠ groupn.mca) →
    ((Runs.run (reportGroup h i mca) s groups).Once ↔
      s.Once ∧ Runs.StepsMeet (reportGroup h i mca) (GroupOnce h i mca) s groups) := by
  intro groups
  induction groups with
  | nil => exact fun _ _ _ => (and_iff_left (Runs.stepsMeet_nil _ _)).symm
  | cons groupn groups ih =>
    intro s hs hu hnew
    obtain ⟨hfresh, hu'⟩ := List.nodup_cons.mp hu
    obtain ⟨hrecs, hs'⟩ := @reportGroup_records h i mca s hs groupn
    have hnew' : ∀ g ∈ groups, ∀ r ∈ (reportGroup h i mca s groupn).records,
        r.grecMca ≠ g.mca := by
      intro g hg r hr he
      rw [hrecs] at hr
      rcases List.mem_append.mp hr with hr | hr
      · exact hnew g (List.mem_cons_of_mem _ hg) r hr he
      · rw [(groupRecords_mca s groupn r hr).1] at he
        exact hfresh (he ▸ List.mem_map_of_mem hg)
    rw [Runs.run_cons, ih hs' hu' hnew', reportGroup_once hs (hnew groupn List.mem_cons_self),
      and_assoc, Runs.stepsMeet_cons]

end Groups

/-! ## 5. The packets of a call -/

/-- The condition, on what the loops see at the subscriptions of each group. -/
def CallOnce (h : Host) (st : Conf) (i : Nat) (mca : Option In6Addr) : Prop :=
  Runs.StepsMeet (reportGroup h i mca) (GroupOnce h i mca) (reportInit h st i) st.groups.nodes

instance (h : Host) (st : Conf) (i : Nat) (mca : Option In6Addr) :
    Decidable (CallOnce h st i mca) := inferInstanceAs (Decidable (Runs.StepsMeet _ _ _ _))

/-- What a receiver decodes from the packets says nothing twice. -/
def PacketsSayOnce (packets : List (List UInt8)) : Prop :=
  ∃ rss, packets.mapM decodeReport = some rss ∧ SaysOnce (rss.map (List.map WireGrec.toGrec))

theorem packetsSayOnce_iff {recss : List (List Grec)} {packets : List (List UInt8)}
    (henc : List.Forall₂ Encodes recss packets) : PacketsSayOnce packets ↔ SaysOnce recss := by
  obtain ⟨rss, hrss, rfl⟩ := mapM_of_encodes henc
  constructor
  · rintro ⟨rss', hrss', hs⟩
    obtain rfl := Option.some.inj (hrss.symm.trans hrss')
    exact hs
  · intro hs
    exact ⟨rss, hrss, hs⟩

section Call

variable {h : Host} {st : Conf} {i : Nat} {mca : Option In6Addr}

/-- The loops say nothing twice exactly if the condition holds. -/
theorem reportLoops_once_iff (hok : TableOk ValidSubscr st.groups) (hmtu : 1280 ≤ (st.intn i).mtu) :
    (reportLoops h st i mca).Once ↔ CallOnce h st i mca := by
  have hstart : (reportInit h st i).Once :=
    ReportLoop.once_iff.mpr ⟨⟨fun _ hr => (by cases hr), List.nodup_nil⟩, List.nodup_nil⟩
  have hgroups := @groups_once_iff h i mca st.groups.nodes _ (reportInit_ready h st i hmtu)
    hok.unique fun _ _ _ hr => (by cases hr)
  exact hgroups.trans (and_iff_right hstart)

/-- The packets say nothing twice if the loops do, as what is left over after them is sent. -/
theorem callRecords_once_iff (hmtu : 1280 ≤ (st.intn i).mtu) (hlay : CallLaysOut h st i mca) :
    SaysOnce (callRecords h st i mca) ↔ (reportLoops h st i mca).Once := by
  rw [callRecords, ReportLoop.Once]
  rcases reportFinish_laid (reportLoops_ready hmtu) (hlay.loopOk (by omega)).1 with
    ⟨hout, hcur⟩ | hout
  · rw [hout, hcur, saysOnce_append_nil]
  · rw [hout]

/-- **When a report says nothing twice**, as long as all steps write where they should: whenever
whatever resets `src` comes last among the subscriptions of a group or meets a packet that is full,
and no source of a group is kept twice. -/
theorem report_says_once_iff (hr : Reachable h st) (hlive : (intFind st i).isSome)
    (hlay : CallLaysOut h st i mca) :
    PacketsSayOnce (callPackets h st i mca) ↔ CallOnce h st i mca := by
  obtain ⟨k, hk⟩ := Option.isSome_iff_exists.mp hlive
  have hmtu := (reachable_intsOk hr).mtu i (intFind_eq_some.mp hk).2.2
  have henc : ReportEncoded h st i mca := report_encoded (by omega) hlay
  rw [packetsSayOnce_iff henc, callRecords_once_iff hmtu hlay]
  exact reportLoops_once_iff (reachable_tableOk hr) hmtu

end Call

/-- The two groups of `stateTwoGroups`, each with its source. -/
theorem two_groups_once :
    PacketsSayOnce (callPackets (quietHost .big) (stateTwoGroups .big) 2 none) :=
  (report_says_once_iff ⟨plainOptions, 0, none, _, rfl⟩ (by decide +kernel)
    (by decide +kernel)).mpr (by decide +kernel)

/-- Two links ask for the same source of `ff05::1`, and the first of them has asked for everything
before; the third link is to be told. -/
def stateShared : Conf :=
  run (quietHost .little) (boot (quietHost .little) plainOptions 0 none)
    [.frame 0 (mldFrame 1 mld1JoinMessage),
      .frame 1 (mldFrame 1 (mld2ReportMessage [includeRecord 1 1])), .create 2 2 ethernetProbe,
      .frame 3 (mldFrame 2 (mld2ReportMessage [includeRecord 1 1])), .create 4 3 ethernetProbe]

/-- The packet has two records for the group, and the second one lists the source twice. -/
theorem shared_source_twice : Reachable (quietHost .little) stateShared ∧
    (intFind stateShared 3).isSome ∧ CallLaysOut (quietHost .little) stateShared 3 none ∧
    ¬ PacketsSayOnce (callPackets (quietHost .little) stateShared 3 none) := by
  have hlay : CallLaysOut (quietHost .little) stateShared 3 none := by decide +kernel
  have hrecs : callRecords (quietHost .little) stateShared 3 none
      = [[allRecord siteGroup, ⟨1, siteGroup, [globalHost 1, globalHost 1]⟩]] := by
    decide +kernel
  have henc : ReportEncoded (quietHost .little) stateShared 3 none :=
    report_encoded (by decide +kernel) hlay
  refine ⟨⟨plainOptions, 0, none, _, rfl⟩, by decide +kernel, hlay, ?_⟩
  rw [packetsSayOnce_iff henc, hrecs]
  exact fun hs => absurd hs.sources (by decide +kernel)

end Ecmh
