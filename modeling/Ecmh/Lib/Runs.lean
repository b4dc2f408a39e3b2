/-
# Runs of a deterministic step function

A system is a step function on a state and an event; a run is the fold of it over a list of
events.  `run_invariant` is the induction rule for a property that every step keeps.
`always_iff_stepsMeet` is its exact form: where one step keeps the property if and only if the
step meets a condition, a run keeps it in all the states it passes if and only if all its steps
meet the condition.

Loops over a list are runs too, so the same rules serve for them: `foldl_frame` is the frame
rule for a part of the state that no iteration touches.  A loop without a list is a relation that
has at most one next state: it ends if it reaches a state without one (`acc_of_reaches`).
-/
import Mathlib.Data.List.Induction
import Mathlib.Logic.Relation

namespace Runs

variable {σ ε τ : Type}

/-- The state after the events of a list. -/
def run (step : σ → ε → σ) (s : σ) (es : List ε) : σ := es.foldl step s

section

variable {step : σ → ε → σ}

@[simp] theorem run_nil (s : σ) : run step s [] = s := rfl

@[simp] theorem run_cons (s : σ) (e : ε) (es : List ε) :
    run step s (e :: es) = run step (step s e) es := rfl

theorem run_append (s : σ) (es fs : List ε) :
    run step s (es ++ fs) = run step (run step s es) fs := by
  simp [run]

theorem run_concat (s : σ) (es : List ε) (e : ε) :
    run step s (es ++ [e]) = step (run step s es) e := by
  simp [run]

/-- The property holds in every state that the run passes, the first and the last included. -/
def Always (step : σ → ε → σ) (P : σ → Prop) (s : σ) (es : List ε) : Prop :=
  ∀ pre post, es = pre ++ post → P (run step s pre)

/-- Every step of the run meets the condition, in the state it is taken from. -/
def StepsMeet (step : σ → ε → σ) (Q : σ → ε → Prop) (s : σ) (es : List ε) : Prop :=
  ∀ pre e post, es = pre ++ e :: post → Q (run step s pre) e

theorem always_nil {P : σ → Prop} {s : σ} (h : P s) : Always step P s [] := by
  intro pre post he
  have : pre = [] := (List.append_eq_nil_iff.mp he.symm).1
  simpa [this] using h

theorem always_cons {P : σ → Prop} {s : σ} {e : ε} {es : List ε} :
    Always step P s (e :: es) ↔ P s ∧ Always step P (step s e) es := by
  constructor
  · intro h
    refine ⟨h [] _ rfl, fun pre post he => ?_⟩
    exact h (e :: pre) post (by rw [he]; rfl)
  · rintro ⟨h0, h⟩ pre post he
    cases pre with
    | nil => exact h0
    | cons x pre =>
      rw [List.cons_append, List.cons.injEq] at he
      obtain ⟨rfl, he⟩ := he
      exact h pre post he

theorem stepsMeet_nil (Q : σ → ε → Prop) (s : σ) : StepsMeet step Q s [] := by
  intro pre e post he
  simp at he

theorem stepsMeet_cons {Q : σ → ε → Prop} {s : σ} {e : ε} {es : List ε} :
    StepsMeet step Q s (e :: es) ↔ Q s e ∧ StepsMeet step Q (step s e) es := by
  constructor
  · intro h
    refine ⟨h [] e es rfl, fun pre x post he => ?_⟩
    exact h (e :: pre) x post (by rw [he]; rfl)
  · rintro ⟨h0, h⟩ pre x post he
    cases pre with
    | nil =>
      rw [List.nil_append, List.cons.injEq] at he
      obtain ⟨rfl, rfl⟩ := he
      exact h0
    | cons y pre =>
      rw [List.cons_append, List.cons.injEq] at he
      obtain ⟨rfl, he⟩ := he
      exact h pre x post he

theorem stepsMeet_append {Q : σ → ε → Prop} {s : σ} {es fs : List ε} :
    StepsMeet step Q s (es ++ fs) ↔
      StepsMeet step Q s es ∧ StepsMeet step Q (run step s es) fs := by
  induction es generalizing s with
  | nil => exact ⟨fun h => ⟨stepsMeet_nil Q s, h⟩, fun h => h.2⟩
  | cons e es ih => rw [List.cons_append, stepsMeet_cons, stepsMeet_cons, ih, run_cons, and_assoc]

/-- The condition is evaluated along the run. -/
instance instDecidableStepsMeet {Q : σ → ε → Prop} [∀ s e, Decidable (Q s e)] :
    ∀ (s : σ) (es : List ε), Decidable (StepsMeet step Q s es)
  | s, [] => .isTrue (stepsMeet_nil Q s)
  | s, e :: es =>
    haveI : Decidable (StepsMeet step Q (step s e) es) := instDecidableStepsMeet (step s e) es
    decidable_of_iff _ stepsMeet_cons.symm

theorem Always.last {P : σ → Prop} {s : σ} {es : List ε} (h : Always step P s es) :
    P (run step s es) := h es [] (by simp)

theorem Always.mono {P Q : σ → Prop} {s : σ} {es : List ε} (h : Always step P s es)
    (hpq : ∀ s, P s → Q s) : Always step Q s es := fun pre post he => hpq _ (h pre post he)

theorem always_append {P : σ → Prop} {s : σ} {es fs : List ε} :
    Always step P s (es ++ fs) ↔ Always step P s es ∧ Always step P (run step s es) fs := by
  induction es generalizing s with
  | nil => exact ⟨fun h => ⟨always_nil (h [] fs rfl), h⟩, fun h => h.2⟩
  | cons e es ih => rw [List.cons_append, always_cons, always_cons, ih, run_cons, and_assoc]

/-- A property that every step keeps holds after every run. -/
theorem run_invariant {P : σ → Prop} (hstep : ∀ s e, P s → P (step s e)) :
    ∀ (es : List ε) (s : σ), P s → P (run step s es) := by
  intro es
  induction es with
  | nil => exact fun _ h => h
  | cons e es ih => exact fun s h => ih (step s e) (hstep s e h)

/-- A property that the steps meeting a condition keep holds all along a run of such steps. -/
theorem always_of_stepsMeet {P : σ → Prop} {Q : σ → ε → Prop}
    (hstep : ∀ s e, P s → Q s e → P (step s e)) :
    ∀ (es : List ε) (s : σ), P s → StepsMeet step Q s es → Always step P s es := by
  intro es
  induction es with
  | nil => exact fun _ h _ => always_nil h
  | cons e es ih =>
    intro s h hq
    obtain ⟨h0, hq⟩ := stepsMeet_cons.mp hq
    exact always_cons.mpr ⟨h, ih (step s e) (hstep s e h h0) hq⟩

/-- A property that no step can restore holds all along a run if it does in the end. -/
theorem always_iff_last {P : σ → Prop} (hback : ∀ s e, P (step s e) → P s) {s : σ} {es : List ε} :
    Always step P s es ↔ P (run step s es) := by
  refine ⟨Always.last, ?_⟩
  induction es generalizing s with
  | nil => exact always_nil
  | cons e es ih =>
    intro hlast
    have hrest : Always step P (step s e) es := ih hlast
    exact always_cons.mpr ⟨hback s e (hrest [] es rfl), hrest⟩

/-- The value of a part of the state is the one that the last event wrote that writes it. -/
theorem run_last_write (get : σ → τ) {W : ε → Prop}
    (hkeep : ∀ s e, ¬ W e → get (step s e) = get s) (s : σ) (es : List ε) :
    ((∀ e ∈ es, ¬ W e) ∧ get (run step s es) = get s) ∨
    ∃ pre e post, es = pre ++ e :: post ∧ W e ∧ (∀ x ∈ post, ¬ W x) ∧
      get (run step s es) = get (step (run step s pre) e) := by
  induction es using List.reverseRecOn with
  | nil => exact Or.inl ⟨fun _ he => absurd he List.not_mem_nil, rfl⟩
  | append_singleton es e ih =>
    by_cases he : W e
    · refine Or.inr ⟨es, e, [], rfl, he, fun _ hx => absurd hx List.not_mem_nil, ?_⟩
      rw [run_concat]
    · have hlast : ∀ post : List ε, (∀ x ∈ post, ¬ W x) → ∀ x ∈ post ++ [e], ¬ W x := by
        intro post hpost x hx
        rcases List.mem_append.mp hx with hx | hx
        · exact hpost x hx
        · rw [List.mem_singleton.mp hx]
          exact he
      rw [run_concat, hkeep _ _ he]
      rcases ih with ⟨hnone, hget⟩ | ⟨pre, w, post, rfl, hw, hpost, hget⟩
      · exact Or.inl ⟨hlast es hnone, hget⟩
      · exact Or.inr ⟨pre, w, post ++ [e], by simp, hw, hlast post hpost, hget⟩

/-- Where a step leads to the property exactly when it meets the condition, as long as the steps
before did and are allowed ones, a run has the property all along exactly when all its steps meet
the condition. -/
theorem always_iff_stepsMeet_of {A Q : σ → ε → Prop} {I P : σ → Prop}
    (hinv : ∀ s e, I s → A s e → Q s e → I (step s e))
    (hstep : ∀ s e, I s → A s e → (P (step s e) ↔ Q s e)) :
    ∀ (es : List ε) (s : σ), I s → P s → StepsMeet step A s es →
      (Always step P s es ↔ StepsMeet step Q s es) := by
  intro es
  induction es with
  | nil => exact fun s _ h _ => ⟨fun _ => stepsMeet_nil Q s, fun _ => always_nil h⟩
  | cons e es ih =>
    intro s hi h ha
    obtain ⟨ha0, ha⟩ := stepsMeet_cons.mp ha
    rw [always_cons, stepsMeet_cons]
    constructor
    · rintro ⟨-, hall⟩
      have h1 : P (step s e) := hall [] es rfl
      have h0 : Q s e := (hstep s e hi ha0).mp h1
      exact ⟨h0, (ih _ (hinv s e hi ha0 h0) h1 ha).mp hall⟩
    · rintro ⟨h0, hq⟩
      have h1 : P (step s e) := (hstep s e hi ha0).mpr h0
      exact ⟨h, (ih _ (hinv s e hi ha0 h0) h1 ha).mpr hq⟩

theorem stepsMeet_true (s : σ) (es : List ε) : StepsMeet step (fun _ _ => True) s es :=
  fun _ _ _ _ => trivial

/-- The same for an invariant that every step keeps. -/
theorem always_iff_stepsMeet {I P : σ → Prop} {Q : σ → ε → Prop}
    (hinv : ∀ s e, I s → I (step s e)) (hstep : ∀ s e, I s → P s → (P (step s e) ↔ Q s e))
    (es : List ε) (s : σ) (hi : I s) (h : P s) :
    Always step P s es ↔ StepsMeet step Q s es :=
  always_iff_stepsMeet_of (A := fun _ _ => True) (I := fun s => I s ∧ P s)
    (fun s e hs _ hq => ⟨hinv s e hs.1, (hstep s e hs.1 hs.2).mpr hq⟩)
    (fun s e hs _ => hstep s e hs.1 hs.2) es s ⟨hi, h⟩ h (stepsMeet_true s es)

end

/-! ## Loops -/

/-- The part `f` of the state that no iteration changes is the same after the loop. -/
theorem foldl_frame {step : σ → ε → σ} (f : σ → τ) (h : ∀ s e, f (step s e) = f s) :
    ∀ (es : List ε) (s : σ), f (es.foldl step s) = f s
  | [], _ => rfl
  | e :: es, s => (foldl_frame f h es (step s e)).trans (h s e)

/-- A property that every iteration keeps holds after the loop. -/
theorem foldl_invariant {step : σ → ε → σ} {P : σ → Prop} (h : ∀ s e, P s → P (step s e))
    (es : List ε) (s : σ) (hs : P s) : P (es.foldl step s) := run_invariant h es s hs

/-- A relation between the state before and after that is reflexive, transitive and holds of
every iteration holds of the loop. -/
theorem foldl_rel {step : σ → ε → σ} {R : σ → σ → Prop} (hr : ∀ s, R s s)
    (ht : ∀ a b c, R a b → R b c → R a c) (h : ∀ s e, R s (step s e)) :
    ∀ (es : List ε) (s : σ), R s (es.foldl step s)
  | [], s => hr s
  | e :: es, s => ht _ _ _ (h s e) (foldl_rel hr ht h es (step s e))

/-- A part of the state that only the items of one key change is what these items make of it. -/
theorem foldl_view {κ : Type} [DecidableEq κ] {step : σ → ε → σ} (key : ε → κ) (k : κ)
    (view : σ → τ) {g : τ → ε → τ}
    (h : ∀ s e, view (step s e) = if key e = k then g (view s) e else view s) :
    ∀ (es : List ε) (s : σ),
      view (es.foldl step s) = (es.filter (fun e => key e = k)).foldl g (view s)
  | [], _ => rfl
  | e :: es, s => by
    rw [List.foldl_cons, foldl_view key k view h es (step s e), h]
    by_cases hk : key e = k
    · rw [if_pos hk, List.filter_cons_of_pos (by simpa using hk), List.foldl_cons]
    · rw [if_neg hk, List.filter_cons_of_neg (by simpa using hk)]

/-- Two loops are the same where their bodies agree as long as an invariant of the first holds. -/
theorem foldl_congr {f g : σ → ε → σ} {P : σ → Prop}
    (h : ∀ s e, P s → f s e = g s e ∧ P (f s e)) :
    ∀ (es : List ε) (s : σ), P s → es.foldl f s = es.foldl g s
  | [], _, _ => rfl
  | e :: es, s, hs => by
    rw [List.foldl_cons, List.foldl_cons, ← (h s e hs).1]
    exact foldl_congr h es (f s e) (h s e hs).2

section

open Relation

variable {r : σ → σ → Prop}

/-- Where a state has at most one next state, all states that are passed lead to the last one. -/
theorem reaches_last (hr : Relator.RightUnique r) {a b c : σ} (hb : ReflTransGen r a b)
    (hc : ReflTransGen r a c) (hlast : ∀ d, ¬ r c d) : ReflTransGen r b c := by
  rcases ReflTransGen.total_of_right_unique hr hb hc with h | h
  · exact h
  · rcases ReflTransGen.cases_head h with rfl | ⟨d, hstep, -⟩
    · exact ReflTransGen.refl
    · exact absurd hstep (hlast d)

/-- There is no run without end from a state that leads to a last one. -/
theorem acc_of_reaches (hr : Relator.RightUnique r) {a c : σ} (hc : ReflTransGen r a c)
    (hlast : ∀ d, ¬ r c d) : Acc (fun t s => r s t) a := by
  induction hc using ReflTransGen.head_induction_on with
  | refl => exact ⟨_, fun d hd => absurd hd (hlast d)⟩
  | head hstep _ ih => exact ⟨_, fun d hd => hr hstep hd ▸ ih⟩

end

end Runs
