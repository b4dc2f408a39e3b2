/-
# Sequences of writes

A store in which a write to a key is undone by the next write to it and does not interfere with
writes to other keys.  After a sequence of writes every key has the value that was written last
(`get_run`), and a sequence whose last writes find their values already there changes nothing, even
if earlier ones did (`run_eq_self`).
-/
import Mathlib.Data.List.Basic

namespace Writes

variable {σ κ ν β : Type} [DecidableEq κ]

/-- The value that is written to the key last. -/
def last : List (κ × ν) → κ → Option ν
  | [], _ => none
  | (a, v) :: l, k =>
    match last l k with
    | some w => some w
    | none => if a = k then some v else none

/-- The store after the writes. -/
def run (set : σ → κ → ν → σ) (s : σ) (l : List (κ × ν)) : σ := l.foldl (fun s c => set s c.1 c.2) s

/-- Writes to one key replace each other, and writes to two keys can be exchanged. -/
structure Lawful (set : σ → κ → ν → σ) : Prop where
  same : ∀ s k v w, set (set s k v) k w = set s k w
  other : ∀ s k k' v w, k ≠ k' → set (set s k v) k' w = set (set s k' w) k v

variable {set : σ → κ → ν → σ}

omit [DecidableEq κ] in
theorem run_cons (s : σ) (k : κ) (v : ν) (l : List (κ × ν)) :
    run set s ((k, v) :: l) = run set (set s k v) l := rfl

omit [DecidableEq κ] in
theorem run_append (s : σ) (l m : List (κ × ν)) : run set s (l ++ m) = run set (run set s l) m :=
  List.foldl_append

/-- A key that is written again later. -/
theorem last_cons_of_some {a k : κ} {v w : ν} {l : List (κ × ν)} (h : last l k = some w) :
    last ((a, v) :: l) k = some w := by
  rw [last, h]

theorem last_cons_self {k : κ} {v : ν} {l : List (κ × ν)} (h : last l k = none) :
    last ((k, v) :: l) k = some v := by
  rw [last, h, if_pos rfl]

theorem last_cons_ne {a k : κ} {v : ν} {l : List (κ × ν)} (h : a ≠ k) :
    last ((a, v) :: l) k = last l k := by
  rw [last, if_neg h]
  cases last l k <;> rfl

/-- What is written is written last, or overwritten. -/
theorem last_isSome {l : List (κ × ν)} {c : κ × ν} (hc : c ∈ l) : (last l c.1).isSome := by
  induction l with
  | nil => cases hc
  | cons d l ih =>
    obtain ⟨a, v⟩ := d
    rcases List.mem_cons.mp hc with rfl | hc
    · cases h : last l a with
      | none => rw [last_cons_self h]; rfl
      | some w => rw [last_cons_of_some h]; rfl
    · obtain ⟨w, hw⟩ := Option.isSome_iff_exists.mp (ih hc)
      rw [last_cons_of_some hw]
      rfl

/-- What is written last is written. -/
theorem mem_of_last {l : List (κ × ν)} {k : κ} {v : ν} (h : last l k = some v) : (k, v) ∈ l := by
  induction l with
  | nil => cases h
  | cons d l ih =>
    obtain ⟨a, w⟩ := d
    cases hl : last l k with
    | some u =>
      rw [last_cons_of_some hl] at h
      rw [← h] at ih
      exact List.mem_cons_of_mem _ (ih hl)
    | none =>
      by_cases ha : a = k
      · subst ha
        rw [last_cons_self hl] at h
        rw [Option.some.inj h]
        exact List.mem_cons_self
      · rw [last_cons_ne ha, hl] at h
        cases h

/-- What is read after the writes. -/
theorem get_run {get : σ → κ → β} {val : κ → ν → β} (hsame : ∀ s k v, get (set s k v) k = val k v)
    (hother : ∀ s k k' v, k ≠ k' → get (set s k v) k' = get s k') (k : κ) :
    ∀ (l : List (κ × ν)) (s : σ),
      get (run set s l) k = match last l k with
        | some v => val k v
        | none => get s k := by
  intro l
  induction l with
  | nil => exact fun s => rfl
  | cons c l ih =>
    obtain ⟨a, v⟩ := c
    intro s
    rw [run_cons, ih]
    cases h : last l k with
    | some w => rw [last_cons_of_some h]
    | none =>
      by_cases ha : a = k
      · subst ha
        rw [last_cons_self h]
        exact hsame s a v
      · rw [last_cons_ne ha, h]
        exact hother s a k v ha

/-- A write before others to the same key is lost. -/
theorem run_overwritten (hset : Lawful set) {k : κ} {v w : ν} {l : List (κ × ν)}
    (h : last l k = some w) : ∀ s, run set (set s k v) l = run set s l := by
  induction l with
  | nil => cases h
  | cons c l ih =>
    obtain ⟨a, u⟩ := c
    intro s
    rw [run_cons, run_cons]
    by_cases ha : a = k
    · subst ha
      rw [hset.same]
    · rw [hset.other s k a v u fun e => ha e.symm]
      rw [last_cons_ne ha] at h
      exact ih h (set s a u)

/-- **Writes of what is there already**: only the last write to each key counts. -/
theorem run_eq_self (hset : Lawful set) {l : List (κ × ν)} :
    ∀ {s : σ}, (∀ k v, last l k = some v → set s k v = s) → run set s l = s := by
  induction l with
  | nil => exact fun _ => rfl
  | cons c l ih =>
    obtain ⟨a, u⟩ := c
    intro s h
    have hrest : ∀ k v, last l k = some v → set s k v = s := fun k v hl =>
      h k v (last_cons_of_some hl)
    rw [run_cons]
    cases ha : last l a with
    | some w =>
      rw [run_overwritten hset ha s]
      exact ih hrest
    | none =>
      rw [h a u (last_cons_self ha)]
      exact ih hrest

end Writes
