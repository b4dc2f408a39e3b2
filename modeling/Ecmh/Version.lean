/-
# The MLD version of an interface

`int_set_mld_version` is called for every MLD message, with the version of the message.  What the
version of an interface is to be follows from the messages alone: 1 while the last MLDv1 message is
no older than the subscription timeout, and 2 after a message that came later.  The function keeps
the time of one MLDv1 message only, and not of the last one.
-/
import Ecmh.Daemon

namespace Ecmh

/-! ## 1. Observations -/

/-- A call of `int_set_mld_version`: the clock value, and whether the version is 1 or 2. -/
structure Observation where
  now : Nat
  v1 : Bool
  deriving DecidableEq

/-- The state, and what was observed so far on an interface, the newest first. -/
structure Observed where
  st : Conf
  past : List Observation

/-- One more call, for the interface in slot `i`. -/
def observe (i : Nat) (s : Observed) (o : Observation) : Observed :=
  ⟨intSetMldVersion o.now s.st i (if o.v1 then 1 else 2), o :: s.past⟩

/-- The time of the most recent MLDv1 message. -/
def lastV1 (past : List Observation) : Option Nat := (past.find? Observation.v1).map Observation.now

/-- The clock values are positive and do not decrease. -/
def ObservedLater (s : Observed) (o : Observation) : Prop :=
  0 < o.now ∧ ∀ p ∈ s.past.head?, p.now ≤ o.now

/-- The version that an interface is to have after the observation `o`, the last of all. -/
structure VersionRight (past : List Observation) (o : Observation) (version : Nat) : Prop where
  downgraded : o.v1 = true → version = 1
  kept : ∀ t, lastV1 past = some t → o.now ≤ t + ecmhSubscriptionTimeout → version = 1
  upgraded : ∀ t, lastV1 past = some t → o.v1 = false → t + ecmhSubscriptionTimeout < o.now →
    version = 2

/-- The version of the interface is as the messages so far have it. -/
def Compatible (i : Nat) (s : Observed) : Prop :=
  ∀ o ∈ s.past.head?, VersionRight s.past o (s.st.intn i).mldVersion

/-- An interface as `int_create` leaves it. -/
structure FreshVersion (st : Conf) (i : Nat) : Prop where
  slot : i < st.maxinterfaces
  version : (st.intn i).mldVersion = 0
  last : (st.intn i).mldLastV1 = 0

/-! ## 2. One call -/

section Call

variable {st : Conf} {i : Nat} {now : Nat}

/-- A call with version 1, outside `mld2only`: only version 0 becomes 1. -/
theorem intSetMldVersion_v1 (h2 : st.mld2only = false) : intSetMldVersion now st i 1
    = if (st.intn i).mldVersion = 0 then
        st.setInt i (fun intn => { intn with mldVersion := 1, mldLastV1 := now })
      else st := by
  rw [intSetMldVersion, if_pos rfl, h2, if_neg (by simp)]
  by_cases hv : (st.intn i).mldVersion = 0
  · rw [if_pos ⟨hv, by rw [hv]; decide⟩, if_pos hv]
  · rw [if_neg (fun hc => hv hc.1), if_neg hv]

/-- A call with version 2, outside `mld1only`: the stored MLDv1 message is forgotten if it is too
old, and version 0 becomes 2. -/
theorem intSetMldVersion_v2 (h1 : st.mld1only = false) (hslot : i < st.maxinterfaces) :
    intSetMldVersion now st i 2
      = if (st.intn i).mldLastV1 ≠ 0 ∧ now > (st.intn i).mldLastV1 + ecmhSubscriptionTimeout then
          st.setInt i (fun intn => { intn with mldVersion := 2, mldLastV1 := 0 })
        else if (st.intn i).mldVersion = 0 then
          st.setInt i (fun intn => { intn with mldVersion := 2 })
        else st := by
  rw [intSetMldVersion, if_neg (by decide)]
  dsimp only
  by_cases hold : (st.intn i).mldLastV1 ≠ 0 ∧
      now > (st.intn i).mldLastV1 + ecmhSubscriptionTimeout
  · rw [if_pos hold, if_pos hold, setInt_mld1only, h1, if_neg (by simp), if_pos, setInt_setInt]
    · rfl
    · rw [setInt_intn, if_pos ⟨rfl, hslot⟩]
      simp
  · rw [if_neg hold, if_neg hold, h1, if_neg (by simp)]
    by_cases hv : (st.intn i).mldVersion = 0
    · rw [if_pos ⟨hv, by rw [hv]; decide, by rw [hv]; decide⟩, if_pos hv]
    · rw [if_neg (fun hc => hv hc.1), if_neg hv]

end Call

/-! ## 3. Sequences of calls -/

/-- What the two fields say about the messages so far, as long as the version was right: nothing
after MLDv2 messages only, a time not after the last MLDv1 message in MLDv1 mode, and in MLDv2 mode
that the last MLDv1 message was out of date by the last message of all. -/
structure FieldsAgree (i : Nat) (s : Observed) : Prop where
  slot : i < s.st.maxinterfaces
  mld1only : s.st.mld1only = false
  mld2only : s.st.mld2only = false
  unseen : lastV1 s.past = none →
    ((s.st.intn i).mldVersion = 0 ∨ (s.st.intn i).mldVersion = 2) ∧ (s.st.intn i).mldLastV1 = 0
  seen : ∀ t, lastV1 s.past = some t →
    (s.st.intn i).mldVersion = 1 ∧ 0 < (s.st.intn i).mldLastV1 ∧ (s.st.intn i).mldLastV1 ≤ t ∨
    (s.st.intn i).mldVersion = 2 ∧ (s.st.intn i).mldLastV1 = 0 ∧
      ∀ p ∈ s.past.head?, t + ecmhSubscriptionTimeout < p.now
  sorted : ∀ t, lastV1 s.past = some t → ∀ p ∈ s.past.head?, t ≤ p.now

/-- When a call leaves the version as it is to be: an MLDv1 message does not come in version 2, and
an MLDv2 message with which the stored time runs out does not come before that of the most recent
MLDv1 message does. -/
def TracksV1 (i : Nat) (s : Observed) (o : Observation) : Prop :=
  if o.v1 then (s.st.intn i).mldVersion ≠ 2
  else (s.st.intn i).mldVersion = 1 →
    (s.st.intn i).mldLastV1 + ecmhSubscriptionTimeout < o.now →
    ∀ t ∈ lastV1 s.past, t + ecmhSubscriptionTimeout < o.now

instance (i : Nat) (s : Observed) (o : Observation) : Decidable (TracksV1 i s o) := by
  unfold TracksV1
  infer_instance

section Observe

variable {i : Nat} {s : Observed} {o : Observation}

theorem lastV1_v1 (past : List Observation) (h : o.v1 = true) :
    lastV1 (o :: past) = some o.now := by
  simp [lastV1, h]

theorem lastV1_v2 (past : List Observation) (h : o.v1 = false) :
    lastV1 (o :: past) = lastV1 past := by
  simp [lastV1, h]

theorem compatible_observe : Compatible i (observe i s o) ↔
    VersionRight (o :: s.past) o ((observe i s o).st.intn i).mldVersion := by
  simp [Compatible, observe]

/-- The fields of the interface after a message. -/
inductive Observes (i : Nat) (s : Observed) (o : Observation) : Nat → Nat → Prop
  | downgrade (hv : o.v1 = true) (h0 : (s.st.intn i).mldVersion = 0) : Observes i s o 1 o.now
  | same (hv : o.v1 = true) (h0 : (s.st.intn i).mldVersion ≠ 0) :
      Observes i s o (s.st.intn i).mldVersion (s.st.intn i).mldLastV1
  | forget (hv : o.v1 = false) (hl : (s.st.intn i).mldLastV1 ≠ 0)
      (hold : (s.st.intn i).mldLastV1 + ecmhSubscriptionTimeout < o.now) : Observes i s o 2 0
  | upgrade (hv : o.v1 = false) (h0 : (s.st.intn i).mldVersion = 0)
      (hl : (s.st.intn i).mldLastV1 = 0 ∨
        o.now ≤ (s.st.intn i).mldLastV1 + ecmhSubscriptionTimeout) :
      Observes i s o 2 (s.st.intn i).mldLastV1
  | keep (hv : o.v1 = false) (h0 : (s.st.intn i).mldVersion ≠ 0)
      (hl : (s.st.intn i).mldLastV1 = 0 ∨
        o.now ≤ (s.st.intn i).mldLastV1 + ecmhSubscriptionTimeout) :
      Observes i s o (s.st.intn i).mldVersion (s.st.intn i).mldLastV1

theorem observe_fields (hs : FieldsAgree i s) (o : Observation) :
    Observes i s o ((observe i s o).st.intn i).mldVersion
      ((observe i s o).st.intn i).mldLastV1 := by
  have hwrite : ∀ f, (s.st.setInt i f).intn i = f (s.st.intn i) := by
    intro f
    rw [setInt_intn, if_pos ⟨rfl, hs.slot⟩]
  cases hv : o.v1 with
  | true =>
    rw [observe, hv, if_pos rfl, intSetMldVersion_v1 hs.mld2only]
    by_cases h0 : (s.st.intn i).mldVersion = 0
    · rw [if_pos h0, hwrite]
      exact .downgrade hv h0
    · rw [if_neg h0]
      exact .same hv h0
  | false =>
    rw [observe, hv, if_neg (by simp), intSetMldVersion_v2 hs.mld1only hs.slot]
    by_cases hold : (s.st.intn i).mldLastV1 ≠ 0 ∧
        o.now > (s.st.intn i).mldLastV1 + ecmhSubscriptionTimeout
    · rw [if_pos hold, hwrite]
      exact .forget hv hold.1 hold.2
    · rw [if_neg hold]
      have hl : (s.st.intn i).mldLastV1 = 0 ∨
          o.now ≤ (s.st.intn i).mldLastV1 + ecmhSubscriptionTimeout := by omega
      by_cases h0 : (s.st.intn i).mldVersion = 0
      · rw [if_pos h0, hwrite]
        exact .upgrade hv h0 hl
      · rw [if_neg h0]
        exact .keep hv h0 hl

theorem observe_frame (i : Nat) (s : Observed) (o : Observation) :
    (observe i s o).st.maxinterfaces = s.st.maxinterfaces ∧
    (observe i s o).st.mld1only = s.st.mld1only ∧ (observe i s o).st.mld2only = s.st.mld2only := by
  obtain ⟨f, hf, -⟩ := intSetMldVersion_eq o.now s.st i (if o.v1 then 1 else 2)
  rw [observe, hf]
  exact ⟨setInt_maxinterfaces s.st i f, rfl, rfl⟩

/-- **One call**: the version is right after it exactly if the condition holds before it. -/
theorem observe_compatible_iff (hs : FieldsAgree i s) (hnow : ObservedLater s o) :
    Compatible i (observe i s o) ↔ TracksV1 i s o := by
  rw [compatible_observe]
  obtain ⟨hpos, hlater⟩ := hnow
  have hfields := observe_fields hs o
  generalize ((observe i s o).st.intn i).mldVersion = v at hfields
  generalize ((observe i s o).st.intn i).mldLastV1 = l at hfields
  rw [TracksV1]
  have hseen := hs.seen
  cases hfields with
  | downgrade hone h0 =>
    rw [if_pos hone, h0]
    refine iff_of_true ⟨fun _ => rfl, fun _ _ _ => rfl, fun _ _ htwo => ?_⟩ (by decide)
    exact absurd (hone.symm.trans htwo) (by simp)
  | same hone h0 =>
    have hversion : (s.st.intn i).mldVersion = 1 ∨ (s.st.intn i).mldVersion = 2 := by
      cases hlast : lastV1 s.past with
      | none => exact Or.inr ((hs.unseen hlast).1.resolve_left h0)
      | some t => exact (hseen t hlast).imp And.left And.left
    rw [if_pos hone]
    constructor
    · intro hright
      rw [hright.downgraded hone]
      decide
    · intro hne
      have h1 := hversion.resolve_right hne
      exact ⟨fun _ => h1, fun _ _ _ => h1, fun _ _ htwo => absurd (hone.symm.trans htwo) (by simp)⟩
  | forget htwo hl hold =>
    rw [if_neg (by simp [htwo])]
    have hlast' := lastV1_v2 s.past htwo
    cases hlast : lastV1 s.past with
    | none => exact absurd (hs.unseen hlast).2 hl
    | some t =>
      rcases hseen t hlast with ⟨h1, -, -⟩ | ⟨-, h0, -⟩
      · constructor
        · intro hright _ _ u hu
          by_contra hlate
          exact absurd (hright.kept u (hlast'.trans (hlast.trans hu)) (by omega)) (by decide)
        · intro hlate
          refine ⟨by simp [htwo], fun u hu hle => ?_, fun _ _ _ _ => rfl⟩
          have := hlate h1 hold u (hlast.symm.trans (hlast'.symm.trans hu))
          omega
      · exact absurd h0 hl
  | upgrade htwo h0 hl =>
    rw [if_neg (by simp [htwo])]
    refine iff_of_true ⟨by simp [htwo], fun u hu => ?_, fun _ _ _ _ => rfl⟩ fun h1 => ?_
    · rw [lastV1_v2 _ htwo] at hu
      rcases hseen u hu with ⟨h1, -, -⟩ | ⟨h2, -, -⟩ <;> omega
    · omega
  | keep htwo h0 hl =>
    rw [if_neg (by simp [htwo])]
    refine iff_of_true ⟨by simp [htwo], fun u hu hle => ?_, fun u hu _ hlt => ?_⟩ fun h1 hlt => ?_
    · rw [lastV1_v2 _ htwo] at hu
      rcases hseen u hu with ⟨h1, -, -⟩ | ⟨-, -, hdate⟩
      · exact h1
      · cases hp : s.past with
        | nil => simp [hp, lastV1] at hu
        | cons p past =>
          have hd := hdate p (by simp [hp])
          have hp := hlater p (by simp [hp])
          omega
    · rw [lastV1_v2 _ htwo] at hu
      rcases hseen u hu with ⟨-, hpos, hle⟩ | ⟨h2, -, -⟩
      · omega
      · exact h2
    · cases hlast : lastV1 s.past with
      | none => exact fun t ht => by cases ht
      | some t => rcases hseen t hlast with ⟨-, hpos, -⟩ | ⟨h2, -, -⟩ <;> omega

/-- The fields go on agreeing with the messages. -/
theorem observe_agrees (hs : FieldsAgree i s) (hnow : ObservedLater s o) (hok : TracksV1 i s o) :
    FieldsAgree i (observe i s o) := by
  obtain ⟨hmax, h1, h2⟩ := observe_frame i s o
  have hright := compatible_observe.mp ((observe_compatible_iff hs hnow).mpr hok)
  obtain ⟨hpos, hlater⟩ := hnow
  have hpast : (observe i s o).past = o :: s.past := rfl
  have hfields := observe_fields hs o
  -- the most recent MLDv1 message is not newer than this one
  have hle : ∀ t, lastV1 s.past = some t → t ≤ o.now := by
    intro t ht
    cases hp : s.past with
    | nil => simp [hp, lastV1] at ht
    | cons p past =>
      exact Nat.le_trans (hs.sorted t ht p (by simp [hp])) (hlater p (by simp [hp]))
  refine ⟨hmax ▸ hs.slot, h1.trans hs.mld1only, h2.trans hs.mld2only, ?_, ?_, ?_⟩
  all_goals
    rw [hpast]
    generalize ((observe i s o).st.intn i).mldVersion = v at hfields hright ⊢
    generalize ((observe i s o).st.intn i).mldLastV1 = l at hfields ⊢
  · intro hnone
    cases hfields with
    | downgrade hone _ => simp [lastV1_v1 _ hone] at hnone
    | same hone _ => simp [lastV1_v1 _ hone] at hnone
    | forget htwo hl _ =>
      rw [lastV1_v2 _ htwo] at hnone
      exact absurd (hs.unseen hnone).2 hl
    | upgrade htwo _ _ =>
      rw [lastV1_v2 _ htwo] at hnone
      exact ⟨Or.inr rfl, (hs.unseen hnone).2⟩
    | keep htwo _ _ =>
      rw [lastV1_v2 _ htwo] at hnone
      exact hs.unseen hnone
  · intro t ht
    cases hfields with
    | downgrade hone _ =>
      rw [lastV1_v1 _ hone, Option.some.injEq] at ht
      exact Or.inl ⟨rfl, hpos, Nat.le_of_eq ht⟩
    | same hone h0 =>
      rw [lastV1_v1 _ hone, Option.some.injEq] at ht
      have hv := hright.downgraded hone
      cases hlast : lastV1 s.past with
      | none => rcases (hs.unseen hlast).1 with h | h <;> omega
      | some u =>
        rcases hs.seen u hlast with ⟨-, hpos, hlu⟩ | ⟨h2, -, -⟩
        · have hu := hle u hlast
          exact Or.inl ⟨hv, hpos, by omega⟩
        · omega
    | forget htwo hl hold =>
      refine Or.inr ⟨rfl, rfl, fun p hp => ?_⟩
      obtain rfl := Option.some.inj hp
      by_contra hlate
      exact absurd (hright.kept t ht (by omega)) (by decide)
    | upgrade htwo h0 hl =>
      rw [lastV1_v2 _ htwo] at ht
      rcases hs.seen t ht with ⟨h1, -, -⟩ | ⟨h2, -, -⟩ <;> omega
    | keep htwo h0 hl =>
      have ht' := ht
      rw [lastV1_v2 _ htwo] at ht
      refine (hs.seen t ht).imp id fun hseen => ⟨hseen.1, hseen.2.1, fun p hp => ?_⟩
      obtain rfl := Option.some.inj hp
      by_contra hlate
      have h1 := hright.kept t ht' (by omega)
      omega
  · intro t ht p hp
    obtain rfl := Option.some.inj hp
    cases hone : o.v1 with
    | true =>
      rw [lastV1_v1 _ hone, Option.some.injEq] at ht
      exact Nat.le_of_eq ht.symm
    | false =>
      rw [lastV1_v2 _ hone] at ht
      exact hle t ht

end Observe

/-- The clock values of a sequence of observations are positive and do not decrease. -/
def PositiveClock (os : List Observation) : Prop :=
  (∀ o ∈ os, 0 < o.now) ∧ (os.map Observation.now).Pairwise (· ≤ ·)

/-- The same, one observation after the other. -/
theorem PositiveClock.stepsMeet {i : Nat} : ∀ {os : List Observation} {s : Observed},
    PositiveClock os → (∀ p ∈ s.past.head?, ∀ o ∈ os, p.now ≤ o.now) →
    Runs.StepsMeet (observe i) ObservedLater s os := by
  intro os
  induction os with
  | nil => exact fun _ _ => Runs.stepsMeet_nil _ _
  | cons o os ih =>
    intro s hclock hpast
    obtain ⟨hpos, hsorted⟩ := hclock
    obtain ⟨hpos0, hpos⟩ := List.forall_mem_cons.mp hpos
    rw [List.map_cons, List.pairwise_cons] at hsorted
    refine Runs.stepsMeet_cons.mpr ⟨⟨hpos0, fun p hp => hpast p hp o List.mem_cons_self⟩, ?_⟩
    refine ih ⟨hpos, hsorted.2⟩ fun p hp o' ho' => ?_
    obtain rfl := Option.some.inj hp
    exact hsorted.1 _ (List.mem_map_of_mem ho')

theorem FreshVersion.agrees {st : Conf} {i : Nat} (hf : FreshVersion st i)
    (h1 : st.mld1only = false) (h2 : st.mld2only = false) : FieldsAgree i ⟨st, []⟩ where
  slot := hf.slot
  mld1only := h1
  mld2only := h2
  unseen := fun _ => ⟨Or.inl hf.version, hf.last⟩
  seen := fun t ht => by cases ht
  sorted := fun t ht => by cases ht

/-- **The compatibility mode of an interface follows the MLDv1 messages exactly as long as each
call finds it as the condition says.** -/
theorem compatible_iff_tracksV1 {st : Conf} {i : Nat} (hf : FreshVersion st i)
    (h1 : st.mld1only = false) (h2 : st.mld2only = false) {os : List Observation}
    (hclock : PositiveClock os) :
    Runs.Always (observe i) (Compatible i) ⟨st, []⟩ os ↔
      Runs.StepsMeet (observe i) (TracksV1 i) ⟨st, []⟩ os := by
  refine Runs.always_iff_stepsMeet_of (A := ObservedLater) (I := FieldsAgree i)
    (fun s o hs hnow hok => observe_agrees hs hnow hok)
    (fun s o hs hnow => observe_compatible_iff hs hnow) os _ (hf.agrees h1 h2) ?_
    (hclock.stepsMeet ?_)
  · intro o ho
    cases ho
  · intro p hp
    cases hp

/-! ## 4. An interface of its own -/

theorem FreshVersion.setInt {st : Conf} {i : Nat} (h : FreshVersion st i) {f : IntNode → IntNode}
    (hf : ∀ a, (f a).mldVersion = a.mldVersion ∧ (f a).mldLastV1 = a.mldLastV1) :
    FreshVersion (st.setInt i f) i := by
  have hint := setInt_intn st i i f
  rw [if_pos ⟨rfl, h.slot⟩] at hint
  refine ⟨by rw [setInt_maxinterfaces]; exact h.slot, ?_, ?_⟩
  · rw [hint, (hf _).1]
    exact h.version
  · rw [hint, (hf _).2]
    exact h.last

/-- An interface with nothing received on it yet. -/
def createdInt : Conf := (intCreate (init plainOptions) 1 ethernetProbe).1

/-- MLDv1 messages at 1 and 100, and an MLDv2 message when both are out of date. -/
theorem v1_then_late_v2 : Runs.Always (observe 1) (Compatible 1) ⟨createdInt, []⟩
    [⟨1, true⟩, ⟨100, true⟩, ⟨120, false⟩, ⟨226, false⟩] :=
  (compatible_iff_tracksV1 ⟨by decide +kernel, by decide +kernel, by decide +kernel⟩ rfl rfl
    ⟨by decide +kernel, by decide +kernel⟩).mpr (by decide +kernel)

/-- An interface in version 2 is not downgraded, and one in version 1 is upgraded 27 seconds after
an MLDv1 message because an older one is out of date. -/
theorem v1_not_tracked : FreshVersion createdInt 1 ∧
    ¬ Runs.Always (observe 1) (Compatible 1) ⟨createdInt, []⟩ [⟨1, false⟩, ⟨2, true⟩] ∧
    ¬ Runs.Always (observe 1) (Compatible 1) ⟨createdInt, []⟩
      [⟨1, true⟩, ⟨100, true⟩, ⟨127, false⟩] := by
  refine ⟨⟨by decide +kernel, by decide +kernel, by decide +kernel⟩, fun hall => ?_, fun hall => ?_⟩
  · have hright := compatible_observe.mp (hall [⟨1, false⟩, ⟨2, true⟩] [] rfl)
    exact absurd (hright.downgraded rfl) (by decide +kernel)
  · have hright := compatible_observe.mp
      (hall [⟨1, true⟩, ⟨100, true⟩, ⟨127, false⟩] [] rfl)
    exact absurd (hright.kept 100 rfl (by decide)) (by decide +kernel)

end Ecmh
