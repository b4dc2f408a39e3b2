/-
# A rate limiter that is stamped at every call

A rate limiter lets a call through if nothing was let through for a time `d`.  One that keeps the
time of the last call instead, let through or not, only lets a call through after a pause of `d`:
the first call of a burst, and no other one.  `covered_iff` says for which call times that makes no
difference to somebody who waits for a call to be let through every `d`, and `stamped_iff` for
which the stamp is the time of the last call that was let through.
-/
import Mathlib.Data.List.Chain

namespace Limiter

variable {d : Nat}

/-! ## 1. The calls that are let through -/

/-- The call at time `t` is let through; `last` is the time of the call before. -/
def fires (d : Nat) (last : Option Nat) (t : Nat) : Bool :=
  match last with
  | none => true
  | some l => d ≤ t - l

/-- The calls with the decisions. -/
def log (d : Nat) : Option Nat → List Nat → List (Nat × Bool)
  | _, [] => []
  | last, t :: ts => (t, fires d last t) :: log d (some t) ts

theorem log_concat (t : Nat) : ∀ (ts : List Nat) (last : Option Nat),
    log d last (ts ++ [t]) = log d last ts ++ [(t, fires d (ts.getLast?.or last) t)]
  | [], _ => rfl
  | s :: ts, last => by
    have hlast : (s :: ts).getLast?.or last = ts.getLast?.or (some s) := by
      cases ts <;> rfl
    rw [List.cons_append, log, log, log_concat t ts, hlast, List.cons_append]

/-! ## 2. Every call is covered -/

/-- At every call of the log one was let through less than `d` ago; `before` are the calls before
it. -/
def Covered (d : Nat) (before log : List (Nat × Bool)) : Prop :=
  ∀ pre c post, log = pre ++ c :: post → ∃ x ∈ before ++ pre ++ [c], x.2 = true ∧ c.1 - x.1 < d

theorem covered_nil (before : List (Nat × Bool)) : Covered d before [] := by
  intro pre c post he
  simp at he

theorem covered_cons {before log : List (Nat × Bool)} {c : Nat × Bool} :
    Covered d before (c :: log) ↔
      (∃ x ∈ before ++ [c], x.2 = true ∧ c.1 - x.1 < d) ∧ Covered d (before ++ [c]) log := by
  constructor
  · intro h
    refine ⟨by simpa using h [] c log rfl, fun pre x post he => ?_⟩
    simpa using h (c :: pre) x post (by rw [he]; rfl)
  · rintro ⟨h0, h⟩ pre x post he
    cases pre with
    | nil =>
      rw [List.nil_append, List.cons.injEq] at he
      obtain ⟨rfl, -⟩ := he
      simpa using h0
    | cons y pre =>
      rw [List.cons_append, List.cons.injEq] at he
      obtain ⟨rfl, he⟩ := he
      simpa using h pre x post he

/-- No burst of calls, which follow each other at less than `d`, gets as long as `d`; `first` is the
first call of the burst and `last` the call before. -/
def ShortBursts (d : Nat) : (first last : Nat) → List Nat → Prop
  | _, _, [] => True
  | first, last, t :: ts =>
    if d ≤ t - last then ShortBursts d t t ts
    else t - first < d ∧ ShortBursts d first t ts

instance instDecidableShortBursts : ∀ (first last : Nat) (ts : List Nat),
    Decidable (ShortBursts d first last ts)
  | _, _, [] => .isTrue trivial
  | first, last, t :: ts =>
    haveI : Decidable (ShortBursts d t t ts) := instDecidableShortBursts t t ts
    haveI : Decidable (ShortBursts d first t ts) := instDecidableShortBursts first t ts
    decidable_of_iff (if d ≤ t - last then ShortBursts d t t ts
      else t - first < d ∧ ShortBursts d first t ts) Iff.rfl

/-- The calls behind a call at `last`, where `first` is the last one that was let through. -/
theorem covered_from_iff (hd : 0 < d) : ∀ (ts : List Nat) (before : List (Nat × Bool))
    (first last : Nat), (first, true) ∈ before → (∀ x ∈ before, x.2 = true → x.1 ≤ first) →
    first ≤ last → (last :: ts).Pairwise (· ≤ ·) →
    (Covered d before (log d (some last) ts) ↔ ShortBursts d first last ts) := by
  intro ts
  induction ts with
  | nil => exact fun before first last _ _ _ _ => ⟨fun _ => trivial, fun _ => covered_nil before⟩
  | cons t ts ih =>
    intro before first last hmem hmax hle hsorted
    obtain ⟨hlast, hsorted⟩ := List.pairwise_cons.mp hsorted
    have hlt : last ≤ t := hlast t List.mem_cons_self
    rw [log, covered_cons, ShortBursts]
    by_cases hf : d ≤ t - last
    · -- the call is let through, and covers itself
      have hfires : fires d (some last) t = true := decide_eq_true hf
      rw [hfires, if_pos hf, ih (before ++ [(t, true)]) t t (by simp) ?_ (Nat.le_refl t) hsorted]
      · exact and_iff_right ⟨(t, true), by simp, rfl, by simp [hd]⟩
      · intro x hx hx2
        rcases List.mem_append.mp hx with hx | hx
        · exact Nat.le_trans (hmax x hx hx2) (Nat.le_trans hle hlt)
        · rw [List.mem_singleton.mp hx]
    · have hfires : fires d (some last) t = false := decide_eq_false hf
      rw [hfires, if_neg hf, ih (before ++ [(t, false)]) first t (by simp [hmem]) ?_
        (Nat.le_trans hle hlt) hsorted]
      · refine and_congr_left fun _ => ⟨?_, fun h => ⟨(first, true), by simp [hmem], rfl, h⟩⟩
        rintro ⟨x, hx, hx2, hlt⟩
        rcases List.mem_append.mp hx with hx | hx
        · have := hmax x hx hx2
          omega
        · rw [List.mem_singleton.mp hx] at hx2
          cases hx2
      · intro x hx hx2
        rcases List.mem_append.mp hx with hx | hx
        · exact hmax x hx hx2
        · rw [List.mem_singleton.mp hx] at hx2
          cases hx2

/-- The condition for the whole run. -/
def Bursts (d : Nat) : List Nat → Prop
  | [] => True
  | t :: ts => ShortBursts d t t ts

instance instDecidableBursts : ∀ ts : List Nat, Decidable (Bursts d ts)
  | [] => .isTrue trivial
  | t :: ts => inferInstanceAs (Decidable (ShortBursts d t t ts))

/-- **When every call of a run is covered**: if no burst gets as long as `d`. -/
theorem covered_iff (hd : 0 < d) {ts : List Nat} (hsorted : ts.Pairwise (· ≤ ·)) :
    Covered d [] (log d none ts) ↔ Bursts d ts := by
  cases ts with
  | nil => exact ⟨fun _ => trivial, fun _ => covered_nil []⟩
  | cons t ts =>
    rw [log, covered_cons, Bursts, List.nil_append,
      covered_from_iff hd ts [(t, fires d none t)] t t (by simp [fires]) (by simp)
        (Nat.le_refl t) hsorted]
    exact and_iff_right ⟨(t, true), by simp [fires], rfl, by simp [hd]⟩

/-! ## 3. The stamp -/

/-- The time of the last call that was let through. -/
def lastFired (log : List (Nat × Bool)) : Option Nat :=
  ((log.filter Prod.snd).getLast?).map Prod.fst

theorem lastFired_concat (log : List (Nat × Bool)) (c : Nat × Bool) :
    lastFired (log ++ [c]) = if c.2 then some c.1 else lastFired log := by
  rw [lastFired, List.filter_append]
  cases h : c.2 with
  | true => simp [h]
  | false => simp [h, lastFired]

/-- **When the stamp is the time of the last call that was let through**, all along the run: if
every call comes at the time of the one before or after a pause. -/
theorem stamped_iff : ∀ ts : List Nat,
    (∀ pre post, ts = pre ++ post → pre.getLast? = lastFired (log d none pre)) ↔
      ts.IsChain (fun a b => b = a ∨ d ≤ b - a) := by
  intro ts
  induction ts using List.reverseRecOn with
  | nil =>
    refine ⟨fun _ => List.isChain_nil, fun _ pre post he => ?_⟩
    rw [(List.append_eq_nil_iff.mp he.symm).1]
    rfl
  | append_singleton ts t ih =>
    have hsplit :
        (∀ pre post, ts ++ [t] = pre ++ post → pre.getLast? = lastFired (log d none pre)) ↔
        (∀ pre post, ts = pre ++ post → pre.getLast? = lastFired (log d none pre)) ∧
        some t = lastFired (log d none (ts ++ [t])) := by
      constructor
      · intro h
        refine ⟨fun pre post he => h pre (post ++ [t]) (by rw [he, List.append_assoc]), ?_⟩
        have hall := h (ts ++ [t]) [] (by simp)
        rwa [List.getLast?_concat] at hall
      · rintro ⟨h, hall⟩ pre post he
        rcases List.eq_nil_or_concat post with rfl | ⟨post, x, rfl⟩
        · rw [List.append_nil] at he
          rw [← he, List.getLast?_concat]
          exact hall
        · rw [List.concat_eq_append, ← List.append_assoc] at he
          exact h pre post (List.append_inj_left' he rfl)
    rw [hsplit, List.isChain_append, ih, and_congr_right_iff]
    intro hchain
    have hts := ih.mpr hchain ts [] (by simp)
    rw [log_concat, lastFired_concat, ← hts, Option.or_none,
      and_iff_right (List.isChain_singleton t)]
    cases hlast : ts.getLast? with
    | none => simp [fires]
    | some l =>
      simp only [fires, decide_eq_true_eq, Option.mem_def, Option.some.injEq, forall_eq',
        List.head?]
      by_cases hf : d ≤ t - l
      · simp [hf]
      · simp [hf]

end Limiter
