/-
# How something spreads over a run

Something is at places, and the events of a run take it from place to place.  `origin s e a` says
that the event brings it to the place `a` from outside, and `hop s e a b` that the event takes it
from `a` to `b`.  A place is `Reached` if a chain of such events leads there, each later than the
one before, but that the first hop may be the same event as the origin.

`reached_of_step` is the induction rule: if a step brings a thing to a place only by an origin or by
a hop from where it was or has just come to, all places where it ever is are reached.  A chain is a
path of hops that happened (`Reached.path`); what each of them left behind, if it is kept, is there
all along the path at the end of the run (`Happens.leaves`).
-/
import Ecmh.Lib.Runs

namespace Spread

open Runs

variable {σ ε κ : Type} {step : σ → ε → σ} {origin : σ → ε → κ → Prop} {hop : σ → ε → κ → κ → Prop}

/-- The event happened in the run, in a state with which it has the property. -/
def Happens (step : σ → ε → σ) (P : σ → ε → Prop) (s : σ) (es : List ε) : Prop :=
  ∃ pre e post, es = pre ++ e :: post ∧ P (run step s pre) e

section Happens

variable {P : σ → ε → Prop} {s : σ} {es : List ε}

theorem Happens.append (h : Happens step P s es) (fs : List ε) : Happens step P s (es ++ fs) := by
  obtain ⟨pre, e, post, rfl, hp⟩ := h
  exact ⟨pre, e, post ++ fs, by simp, hp⟩

theorem happens_concat {e : ε} :
    Happens step P s (es ++ [e]) ↔ Happens step P s es ∨ P (run step s es) e := by
  constructor
  · rintro ⟨pre, x, post, he, hp⟩
    rcases List.eq_nil_or_concat post with rfl | ⟨post, y, rfl⟩
    · obtain ⟨rfl, hx⟩ := List.append_inj' he rfl
      cases hx
      exact Or.inr hp
    · rw [List.concat_eq_append, ← List.cons_append, ← List.append_assoc] at he
      exact Or.inl ⟨pre, x, post, (List.append_inj' he rfl).1, hp⟩
  · rintro (h | h)
    · exact h.append [e]
    · exact ⟨es, e, [], rfl, h⟩

/-- What an event brings about, and the events after it keep, is there at the end of the run. -/
theorem Happens.leaves {I R : σ → Prop} {K : σ → ε → Prop} (h : Happens step P s es)
    (hmeet : StepsMeet step K s es) (hs : I s) (hinv : ∀ s e, I s → I (step s e))
    (hgives : ∀ s e, I s → K s e → P s e → R (step s e))
    (hkeeps : ∀ s e, I s → K s e → R s → R (step s e)) : R (run step s es) := by
  obtain ⟨pre, e, post, rfl, hp⟩ := h
  have hpre : I (run step s pre) := run_invariant hinv pre s hs
  have hafter : R (run step s (pre ++ [e])) := by
    rw [run_concat]
    exact hgives _ e hpre (hmeet pre e post rfl) hp
  have hpost : ∀ fs gs : List ε, post = fs ++ gs → R (run step s (pre ++ [e] ++ fs)) := by
    intro fs
    induction fs using List.reverseRecOn with
    | nil =>
      intro _ _
      rwa [List.append_nil]
    | append_singleton fs x ih =>
      intro gs he
      have hx := ih (x :: gs) (by rw [he, List.append_assoc, List.singleton_append])
      rw [← List.append_assoc, run_concat]
      refine hkeeps _ x (run_invariant hinv _ s hs) (hmeet _ x gs ?_) hx
      rw [he]
      simp
  have hend := hpost post [] (List.append_nil post).symm
  rwa [List.append_assoc] at hend

end Happens

/-- A chain of events leads to the place. -/
inductive Reached (step : σ → ε → σ) (origin : σ → ε → κ → Prop) (hop : σ → ε → κ → κ → Prop)
    (s : σ) : List ε → κ → Prop
  | origin {es : List ε} {e : ε} {a : κ} (h : origin (run step s es) e a) :
      Reached step origin hop s (es ++ [e]) a
  | originHop {es : List ε} {e : ε} {a b : κ} (ha : origin (run step s es) e a)
      (h : hop (run step s es) e a b) : Reached step origin hop s (es ++ [e]) b
  | hop {es : List ε} {e : ε} {a b : κ} (ha : Reached step origin hop s es a)
      (h : hop (run step s es) e a b) : Reached step origin hop s (es ++ [e]) b
  | later {es : List ε} {e : ε} {a : κ} (h : Reached step origin hop s es a) :
      Reached step origin hop s (es ++ [e]) a

/-- From one place to another in so many hops. -/
inductive Path (hop : κ → κ → Prop) (a : κ) : Nat → κ → Prop
  | here : Path hop a 0 a
  | next {n : Nat} {b c : κ} (hb : Path hop a n b) (h : hop b c) : Path hop a (n + 1) c

theorem Path.mono {r r' : κ → κ → Prop} (hr : ∀ a b, r a b → r' a b) {n : Nat} {a b : κ}
    (h : Path r a n b) : Path r' a n b := by
  induction h with
  | here => exact .here
  | next _ h ih => exact .next ih (hr _ _ h)

/-- A path with a hop before it. -/
theorem Path.cons {r : κ → κ → Prop} {n : Nat} {a b c : κ} (h : r a b) (hb : Path r b n c) :
    Path r a (n + 1) c := by
  induction hb with
  | here => exact .next .here h
  | next _ hlast ih => exact .next ih hlast

section Reached

variable {s : σ} {es : List ε} {a : κ}

/-- **What is at a place has been brought there**, if one step does not bring it anywhere else. -/
theorem reached_of_step {I : σ → Prop} {P : σ → κ → Prop} (hinv : ∀ s e, I s → I (step s e))
    (hstep : ∀ s e b, I s → P (step s e) b → P s b ∨ origin s e b ∨
      ∃ a, (P s a ∨ origin s e a) ∧ hop s e a b)
    (hs : I s) (hnone : ∀ b, ¬ P s b) :
    ∀ (es : List ε) (b : κ), P (run step s es) b → Reached step origin hop s es b := by
  intro es
  induction es using List.reverseRecOn with
  | nil => exact fun b hb => absurd hb (hnone b)
  | append_singleton es e ih =>
    intro b hb
    rw [run_concat] at hb
    rcases hstep _ e b (run_invariant hinv es s hs) hb with hold | horigin | ⟨a, ha, hhop⟩
    · exact .later (ih b hold)
    · exact .origin horigin
    · rcases ha with hold | horigin
      · exact .hop (ih a hold) hhop
      · exact .originHop horigin hhop

/-- A chain is a path from a place where there was an origin, with no more hops than events. -/
theorem Reached.path (h : Reached step origin hop s es a) : ∃ b n, n ≤ es.length ∧
    Happens step (fun s e => origin s e b) s es ∧
    Path (fun c d => Happens step (fun s e => hop s e c d) s es) b n a := by
  have hlater : ∀ (es : List ε) (e : ε) (c d : κ), Happens step (fun s e => hop s e c d) s es →
      Happens step (fun s e => hop s e c d) s (es ++ [e]) := fun _ _ _ _ h => h.append _
  induction h with
  | origin h => exact ⟨_, 0, Nat.zero_le _, happens_concat.mpr (Or.inr h), .here⟩
  | originHop ha h =>
    refine ⟨_, 1, ?_, happens_concat.mpr (Or.inr ha), .next .here (happens_concat.mpr (Or.inr h))⟩
    simp
  | hop _ h ih =>
    obtain ⟨b, n, hn, horigin, hpath⟩ := ih
    refine ⟨b, n + 1, ?_, horigin.append _, ?_⟩
    · rw [List.length_append]
      exact Nat.add_le_add_right hn 1
    · exact (hpath.mono (hlater _ _)).next (happens_concat.mpr (Or.inr h))
  | later _ ih =>
    obtain ⟨b, n, hn, horigin, hpath⟩ := ih
    refine ⟨b, n, ?_, horigin.append _, hpath.mono (hlater _ _)⟩
    rw [List.length_append]
    exact Nat.le_add_right_of_le hn

end Reached

end Spread
