/-
# The loops of `mld2_send_report` as one run

The three nested loops only differ in what they skip.  `reportSteps` is the list of what they do
not skip, the groups and their subscriptions, and `reportLoops_eq_run` says that the loops are a
run over this list.  What one iteration can do is said once, in `SubscrStep`: every invariant of
the loop is a case analysis over it.
-/
import Ecmh.Effects

namespace Ecmh

open ByteMem

/-! ## 1. What the loops go through -/

/-- What the loops come to: the next group that is reported, or a subscription of it. -/
inductive ReportStep
  | group
  | subscr (mca ipv6 : In6Addr)
  deriving DecidableEq

/-- The sources that a group-interface wants; the sending interface is skipped. -/
def wantedOn (ifindex : Nat) (grpintn : GrpIntNode) : List In6Addr :=
  if grpintn.ifindex = ifindex then []
  else (grpintn.subscriptions.nodes.filter (fun s => s.mode ≠ mld2ModeIsExclude)).map
    SubscrNode.ipv6

/-- The sources of a group that interfaces other than `ifindex` want, in the order of the
loops. -/
def wanted (ifindex : Nat) (groupn : GroupNode) : List In6Addr :=
  groupn.interfaces.nodes.flatMap (wantedOn ifindex)

/-- The groups that are not skipped. -/
def reportsGroup (mca : Option In6Addr) (groupn : GroupNode) : Bool :=
  !((mca.isSome ∧ mca ≠ some groupn.mca) ∨ groupn.interfaces.count = 0)

def groupSteps (ifindex : Nat) (groupn : GroupNode) : List ReportStep :=
  .group :: (wanted ifindex groupn).map (.subscr groupn.mca)

def reportSteps (groups : Groups) (ifindex : Nat) (mca : Option In6Addr) : List ReportStep :=
  (groups.nodes.filter (reportsGroup mca)).flatMap (groupSteps ifindex)

/-- One iteration. -/
def reportStep (h : Host) (i : Nat) (s : ReportLoop) : ReportStep → ReportLoop
  | .group => { s with src := none }
  | .subscr mca ipv6 => reportSubscr h i mca s ipv6

theorem reportGrpint_eq {ifindex : Nat} (h : Host) (i : Nat) (mca : In6Addr) {s : ReportLoop}
    (hs : (s.st.intn i).ifindex = ifindex) (grpintn : GrpIntNode) :
    reportGrpint h i mca s grpintn
      = Runs.run (reportStep h i) s ((wantedOn ifindex grpintn).map (.subscr mca)) := by
  unfold reportGrpint wantedOn
  rw [hs]
  split
  · rfl
  · rw [Runs.run, List.foldl_map, List.foldl_map, List.foldl_filter]
    congr 1
    funext s subscrn
    by_cases hm : subscrn.mode = mld2ModeIsExclude
    · simp [hm]
    · simp [hm, reportStep]

theorem reportGroup_eq {ifindex : Nat} (h : Host) (i : Nat) (mca : Option In6Addr) {s : ReportLoop}
    (hs : (s.st.intn i).ifindex = ifindex) (groupn : GroupNode) :
    reportGroup h i mca s groupn
      = if reportsGroup mca groupn then Runs.run (reportStep h i) s (groupSteps ifindex groupn)
        else s := by
  unfold reportGroup reportsGroup
  by_cases hc : (mca.isSome ∧ mca ≠ some groupn.mca) ∨ groupn.interfaces.count = 0
  · simp [hc]
  · rw [if_neg hc, if_pos (by rw [decide_eq_false hc]; rfl), groupSteps, Runs.run_cons, wanted,
      List.map_flatMap, Runs.run, List.foldl_flatMap]
    exact Runs.foldl_congr (P := fun s : ReportLoop => (s.st.intn i).ifindex = ifindex)
      (fun s g hi => ⟨reportGrpint_eq h i groupn.mca hi g,
        ((reportGrpint_sendsOnly h i groupn.mca s g).ifindex i).trans hi⟩) _ _ hs

/-- **The loops are a run over what they do not skip.** -/
theorem reportLoops_eq_run (h : Host) (st : Conf) (i : Nat) (mca : Option In6Addr) :
    reportLoops h st i mca = Runs.run (reportStep h i) (reportInit h st i)
      (reportSteps st.groups (st.intn i).ifindex mca) := by
  unfold reportLoops reportSteps Runs.run
  rw [List.foldl_flatMap, List.foldl_filter]
  exact Runs.foldl_congr (P := fun s : ReportLoop => (s.st.intn i).ifindex = (st.intn i).ifindex)
    (fun s g hi => ⟨reportGroup_eq h i mca hi g,
      ((reportGroup_sendsOnly h i mca s g).ifindex i).trans hi⟩) _ _ rfl

/-! ## 2. What one iteration can do -/

theorem reportAppend_out (e : Endian) (s : ReportLoop) (ipv6 : In6Addr) :
    (reportAppend e s ipv6).out = s.out := by
  unfold reportAppend
  split
  · rfl
  · split <;> rfl

/-- The comparison in the loop "Don't add sources twice" succeeds.  The place it looks at is the
one behind the last source of the record, not a source. -/
def scanHits (e : Endian) (s : ReportLoop) (ipv6 : In6Addr) : Prop :=
  ∃ grec, s.grec = some grec ∧ s.src.isSome ∧ s.any = false ∧ s.nsrcs e grec ≠ 0 ∧
    ipv6 ≠ In6Addr.any ∧ s.packet.read (s.slot e grec) 16 = ipv6.s6Addr

instance (e : Endian) (s : ReportLoop) (ipv6 : In6Addr) : Decidable (scanHits e s ipv6) :=
  match hgrec : s.grec with
  | none => .isFalse fun ⟨grec, h, _⟩ => by
    rw [hgrec] at h
    cases h
  | some grec => decidable_of_iff (s.src.isSome ∧ s.any = false ∧ s.nsrcs e grec ≠ 0 ∧
      ipv6 ≠ In6Addr.any ∧ s.packet.read (s.slot e grec) 16 = ipv6.s6Addr) <| by
    constructor
    · exact fun h => ⟨grec, hgrec, h⟩
    · rintro ⟨g, hg, h⟩
      obtain rfl := Option.some.inj (hgrec.symm.trans hg)
      exact h

/-- The loop leaves `src` as it is where it makes no round. -/
theorem reportScan_eq (slot : Nat) (ipv6 : In6Addr) : ∀ (n : Nat) (s : ReportLoop), ∃ touched,
    reportScan s slot ipv6 n = { s with
      src := if s.any = true ∨ n = 0 ∨ s.src = none then s.src
        else if s.packet.read slot 16 = ipv6.s6Addr then none else some slot
      touched := touched }
  | 0, s => ⟨s.touched, by simp [reportScan]⟩
  | n + 1, s => by
    rw [reportScan]
    by_cases hany : s.any = true
    · exact ⟨s.touched, by rw [if_pos hany, if_pos (Or.inl hany)]⟩
    · rw [if_neg hany]
      cases hsrc : s.src with
      | none => exact ⟨s.touched, by simp [← hsrc]⟩
      | some src =>
        dsimp only
        by_cases hread : s.packet.read slot 16 = ipv6.s6Addr
        · rw [if_pos hread]
          exact ⟨s.touched ++ [(slot, 16)], by simp [hany, hread]⟩
        · rw [if_neg hread]
          -- the next rounds look at the same place
          obtain ⟨t, ht⟩ := reportScan_eq slot ipv6 n
            { s with touched := s.touched ++ [(slot, 16)], src := some slot }
          refine ⟨t, ?_⟩
          rw [ht]
          simp [hany, hread]

/-- What the part of the body under `if (src)` can do. -/
inductive KnownStep (e : Endian) (s : ReportLoop) (ipv6 : In6Addr) : ReportLoop → Bool → Prop
  | noSource (h : s.src = none) : KnownStep e s ipv6 s true
  | noGrec (h : s.src.isSome) (hgrec : s.grec = none) : KnownStep e s ipv6 s false
  | collapse (grec : Nat) (h : s.src.isSome) (hgrec : s.grec = some grec)
      (hany : ipv6 = In6Addr.any) : KnownStep e s ipv6 (reportCollapse e s grec) false
  | dropped (touched : List (Nat × Nat)) (hit : scanHits e s ipv6) :
      KnownStep e s ipv6 { s with src := none, touched := touched } false
  | fresh (src : Nat) (touched : List (Nat × Nat)) (h : s.src.isSome) (hgrec : s.grec.isSome)
      (hany : ipv6 ≠ In6Addr.any) (miss : ¬ scanHits e s ipv6) :
      KnownStep e s ipv6 { s with src := some src, touched := touched } true

theorem reportKnown_step (e : Endian) (s : ReportLoop) (ipv6 : In6Addr) :
    KnownStep e s ipv6 (reportKnown e s ipv6).1 (reportKnown e s ipv6).2 := by
  unfold reportKnown
  cases hsrc : s.src with
  | none => exact .noSource hsrc
  | some src =>
    have hsome : s.src.isSome := by rw [hsrc]; rfl
    cases hgrec : s.grec with
    | none => exact .noGrec hsome hgrec
    | some grec =>
      dsimp only
      by_cases hany : ipv6 = In6Addr.any
      · rw [if_pos (in6IsAddrUnspecified_iff.mpr hany)]
        have hscan : ∀ slot n, reportScan (reportCollapse e s grec) slot ipv6 n
            = reportCollapse e s grec := by
          intro slot n
          cases n <;> simp [reportScan, reportCollapse]
        rw [hscan]
        exact .collapse grec hsome hgrec hany
      · rw [if_neg (by simpa using hany)]
        obtain ⟨t, ht⟩ := reportScan_eq (s.slot e grec) ipv6 (s.nsrcs e grec) s
        rw [ht]
        by_cases hhit : scanHits e s ipv6
        · have hfound := hhit
          obtain ⟨g, hg, h1, h2, h3, h4, h5⟩ := hfound
          obtain rfl : grec = g := Option.some.inj (hgrec.symm.trans hg)
          rw [if_neg (by simp [h2, h3, hsrc]), if_pos h5]
          exact .dropped t hhit
        · by_cases hround : s.any = true ∨ s.nsrcs e grec = 0 ∨ s.src = none
          · rw [if_pos hround, hsrc]
            exact .fresh src t hsome (by rw [hgrec]; rfl) hany hhit
          · rw [if_neg hround, if_neg ?_]
            · exact .fresh _ t hsome (by rw [hgrec]; rfl) hany hhit
            · intro hread
              simp only [not_or, Bool.not_eq_true] at hround
              exact hhit ⟨grec, hgrec, hsome, hround.1, hround.2.1, hany, hread⟩

/-- The body goes on with the subscription: no source was written for the group yet, or this one is
neither `::` nor found again. -/
def goesOn (e : Endian) (s : ReportLoop) (ipv6 : In6Addr) : Prop :=
  s.src = none ∨ s.grec.isSome ∧ ipv6 ≠ In6Addr.any ∧ ¬ scanHits e s ipv6

instance (e : Endian) (s : ReportLoop) (ipv6 : In6Addr) : Decidable (goesOn e s ipv6) :=
  inferInstanceAs (Decidable (_ ∨ _))

theorem KnownStep.goesOn_iff {e : Endian} {s s' : ReportLoop} {ipv6 : In6Addr} {b : Bool}
    (hk : KnownStep e s ipv6 s' b) : b = true ↔ goesOn e s ipv6 := by
  cases hk with
  | noSource hsrc => exact ⟨fun _ => Or.inl hsrc, fun _ => rfl⟩
  | fresh src touched hsrc hgrec hany hmiss =>
    exact ⟨fun _ => Or.inr ⟨hgrec, hany, hmiss⟩, fun _ => rfl⟩
  | noGrec hsrc hgrec => simp [goesOn, hgrec, Option.isSome_iff_ne_none.mp hsrc]
  | collapse grec hsrc hgrec hany => simp [goesOn, hany, Option.isSome_iff_ne_none.mp hsrc]
  | dropped touched hit =>
    have ⟨_, _, hsrc, _⟩ := hit
    simp [goesOn, hit, Option.isSome_iff_ne_none.mp hsrc]

/-- **What the body of the innermost loop can do.** -/
inductive SubscrStep (h : Host) (i : Nat) (mca : In6Addr) (s : ReportLoop) (ipv6 : In6Addr) :
    ReportLoop → Prop
  | returned (hret : s.returned = true) : SubscrStep h i mca s ipv6 s
  | known (s' : ReportLoop) (hret : s.returned = false) (hk : KnownStep h.endian s ipv6 s' false) :
      SubscrStep h i mca s ipv6 s'
  | tooSmall (hret : s.returned = false) (hgrec : s.grec = none)
      (hfull : reportFull h.endian i s ipv6 = true) :
      SubscrStep h i mca s ipv6 { s with returned := true }
  | split (src : Option Nat) (touched : List (Nat × Nat)) (grec : Nat) (hret : s.returned = false)
      (hgo : goesOn h.endian s ipv6) (hgrec : s.grec = some grec)
      (hfull : reportFull h.endian i s ipv6 = true) :
      SubscrStep h i mca s ipv6 (reportAppend h.endian (reportNewGrec h.endian
        (reportReset h.endian (reportSend h i { s with src := src, touched := touched } grec)) mca)
        ipv6)
  | opens (hret : s.returned = false) (hsrc : s.src = none)
      (hfull : reportFull h.endian i s ipv6 = false) :
      SubscrStep h i mca s ipv6 (reportAppend h.endian (reportNewGrec h.endian s mca) ipv6)
  | adds (src : Nat) (touched : List (Nat × Nat)) (grec : Nat) (hret : s.returned = false)
      (hgo : goesOn h.endian s ipv6) (hsrc : s.src.isSome) (hgrec : s.grec = some grec)
      (hany : ipv6 ≠ In6Addr.any) (hfull : reportFull h.endian i s ipv6 = false) :
      SubscrStep h i mca s ipv6
        (reportAppend h.endian { s with src := some src, touched := touched } ipv6)

/-- The rest of the body, for a subscription that it goes on with. -/
theorem reportSubscr_step (h : Host) (i : Nat) (mca : In6Addr) (s : ReportLoop) (ipv6 : In6Addr) :
    SubscrStep h i mca s ipv6 (reportSubscr h i mca s ipv6) := by
  have hk := reportKnown_step h.endian s ipv6
  unfold reportSubscr
  split
  · rename_i hret
    exact .returned hret
  · rename_i hret
    rw [Bool.not_eq_true] at hret
    dsimp only
    generalize reportKnown h.endian s ipv6 = known at hk
    obtain ⟨s', go⟩ := known
    dsimp only at hk ⊢
    cases go with
    | false =>
      rw [if_pos (by rfl)]
      exact .known s' hret hk
    | true =>
      rw [if_neg (by simp)]
      have hgo := hk.goesOn_iff.mp rfl
      generalize hb : true = b at hk
      cases hk with
      | noGrec _ _ => cases hb
      | collapse _ _ _ _ => cases hb
      | dropped _ _ => cases hb
      | noSource hsrc =>
        split
        · rename_i hfull
          rcases Option.eq_none_or_eq_some s.grec with hgrec | ⟨grec, hgrec⟩
          · simp only [hgrec]
            rw [← hgrec]
            exact .tooSmall hret hgrec hfull
          · simp only [hgrec]
            exact .split s.src s.touched grec hret hgo hgrec hfull
        · rename_i hfull
          rw [Bool.not_eq_true] at hfull
          rw [if_pos (by rw [hsrc]; rfl)]
          exact .opens hret hsrc hfull
      | fresh src touched hsrc hgrec hany _ =>
        obtain ⟨grec, hgrec⟩ := Option.isSome_iff_exists.mp hgrec
        split
        · rename_i hfull
          simp only [hgrec]
          rw [← hgrec]
          exact .split (some src) touched grec hret hgo hgrec hfull
        · rename_i hfull
          rw [Bool.not_eq_true] at hfull
          dsimp only
          rw [if_neg (by simp)]
          exact .adds src touched grec hret hgo hsrc hgrec hany hfull

end Ecmh
