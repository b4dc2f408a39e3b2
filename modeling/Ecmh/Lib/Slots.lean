/-
# Tables of slots

An array of records that only grows: a slot that is out of range reads as a default record, a write
changes one slot (`getD_modify`), and growing the array by default records changes what no slot
reads (`getD_grow`).

A `Pool` is such a table behind two operations, one that tries to put a slot into use and one that
takes it out of use again; what they may do to the table is `Pool.Lawful`.  A lawful pool is sound
after every run of the operations, and none of them touches another slot than its own
(`Pool.Lawful.run`).
-/
import Mathlib.Data.List.Basic
import Ecmh.Lib.Runs

namespace Slots

variable {α : Type} {d : α}

theorem getD_of_length_le {l : List α} {i : Nat} (h : l.length ≤ i) : l.getD i d = d := by
  rw [List.getD_eq_getElem?_getD, List.getElem?_eq_none h, Option.getD_none]

/-- A write to a slot, seen from any slot. -/
theorem getD_modify (l : List α) (i j : Nat) (f : α → α) :
    (l.modify i f).getD j d = if i = j ∧ j < l.length then f (l.getD j d) else l.getD j d := by
  simp only [List.getD_eq_getElem?_getD, List.getElem?_modify]
  rcases Nat.lt_or_ge j l.length with h | h
  · by_cases hij : i = j <;> simp [h, hij]
  · simp [Nat.not_lt.mpr h]

theorem getD_modify_ne (l : List α) {i j : Nat} (f : α → α) (h : i ≠ j) :
    (l.modify i f).getD j d = l.getD j d := by
  rw [getD_modify, if_neg fun hc => h hc.1]

/-- Growing the table is not seen from any slot. -/
theorem getD_grow (l : List α) (n k : Nat) :
    (l ++ List.replicate n d).getD k d = l.getD k d := by
  simp only [List.getD_eq_getElem?_getD]
  rcases Nat.lt_or_ge k l.length with hk | hk
  · rw [List.getElem?_append_left hk]
  · rw [List.getElem?_append_right hk, List.getElem?_eq_none hk, List.getElem?_replicate]
    split <;> rfl

/-- A table that is grown so that it has a slot `i`. -/
theorem length_grow (l : List α) (i : Nat) :
    (l ++ List.replicate (i + 1 - l.length) d).length = max l.length (i + 1) := by
  simp only [List.length_append, List.length_replicate]
  omega

/-! ## Pools -/

/-- A table of slots, of which some are in use: `find` gives the slot of an index if it is, and
`create` tries to put it into use, with answers from outside. -/
structure Pool (σ ν π : Type) where
  size : σ → Nat
  slot : σ → Nat → ν
  InUse : ν → Prop
  find : σ → Nat → Option Nat
  create : σ → Nat → π → σ × Option Nat
  destroy : σ → Nat → σ

/-- The calls of the two operations. -/
inductive PoolOp (π : Type)
  | create (i : Nat) (answers : π)
  | destroy (i : Nat)

/-- The slot that the call is for. -/
def PoolOp.index {π : Type} : PoolOp π → Nat
  | .create i _ => i
  | .destroy i => i

namespace Pool

variable {σ ν π : Type} (P : Pool σ ν π) (Good : Nat → ν → Prop)

/-- `create` is called for a slot that is not in use. -/
def step (s : σ) : PoolOp π → σ
  | .create i answers =>
    match P.find s i with
    | some _ => s
    | none => (P.create s i answers).1
  | .destroy i => P.destroy s i

/-- A slot in use is one of the table, and has what a slot in use should have. -/
def Sound (s : σ) : Prop := ∀ k, P.InUse (P.slot s k) → k < P.size s ∧ Good k (P.slot s k)

/-- What a call of `create` for a slot that is not in use may answer. -/
def Answered (s : σ) (i : Nat) (answers : π) : Prop :=
  ((P.create s i answers).2 = some i ∧ P.InUse (P.slot (P.create s i answers).1 i)) ∨
  ((P.create s i answers).2 = none ∧ ¬ P.InUse (P.slot (P.create s i answers).1 i))

/-- What a call may do: the table does not shrink, no other slot changes, slots that are new are not
in use, and `create` answers for its own slot. -/
structure StepOk (s : σ) (op : PoolOp π) : Prop where
  grows : P.size s ≤ P.size (P.step s op)
  others : ∀ k, k ≠ op.index → P.slot (P.step s op) k = P.slot s k
  gaps : ∀ k, k ≠ op.index → P.size s ≤ k → ¬ P.InUse (P.slot (P.step s op) k)
  answered : ∀ i answers, op = .create i answers → P.find s i = none → P.Answered s i answers

/-- The laws of the operations. -/
structure Lawful : Prop where
  find : ∀ s i, P.find s i = none → ¬ P.InUse (P.slot s i)
  beyond : ∀ s k, P.size s ≤ k → ¬ P.InUse (P.slot s k)
  create_size : ∀ s i answers, P.size s ≤ P.size (P.create s i answers).1
  create_other : ∀ s i answers k, k ≠ i → P.slot (P.create s i answers).1 k = P.slot s k
  create_answered : ∀ s i answers, ¬ P.InUse (P.slot s i) → P.Answered s i answers
  create_good : ∀ s i answers, (P.create s i answers).2 = some i →
    Good i (P.slot (P.create s i answers).1 i)
  destroy_size : ∀ s i, P.size (P.destroy s i) = P.size s
  destroy_other : ∀ s i k, k ≠ i → P.slot (P.destroy s i) k = P.slot s k
  destroy_self : ∀ s i, ¬ P.InUse (P.slot (P.destroy s i) i)

variable {P Good}

theorem Lawful.stepOk (h : P.Lawful Good) (s : σ) (op : PoolOp π) : P.StepOk s op := by
  have hothers : ∀ k, k ≠ op.index → P.slot (P.step s op) k = P.slot s k := by
    intro k hk
    cases op with
    | create i answers =>
      rw [step]
      split
      · rfl
      · exact h.create_other s i answers k hk
    | destroy i => exact h.destroy_other s i k hk
  refine ⟨?_, hothers, fun k hk hle => ?_, ?_⟩
  · cases op with
    | create i answers =>
      rw [step]
      split
      · exact Nat.le_refl _
      · exact h.create_size s i answers
    | destroy i => exact Nat.le_of_eq (h.destroy_size s i).symm
  · rw [hothers k hk]
    exact h.beyond s k hle
  · rintro i answers rfl hfind
    exact h.create_answered s i answers (h.find s i hfind)

theorem Lawful.sound_step (h : P.Lawful Good) {s : σ} (hs : P.Sound Good s) (op : PoolOp π) :
    P.Sound Good (P.step s op) := by
  have hok := h.stepOk s op
  intro k hk
  by_cases hop : k = op.index
  · refine ⟨Nat.lt_of_not_le fun hle => h.beyond _ k hle hk, ?_⟩
    cases op with
    | create i answers =>
      obtain rfl : k = i := hop
      rw [step] at hk ⊢
      split
      · rename_i hfind
        rw [hfind] at hk
        exact (hs k hk).2
      · rename_i hfind
        rw [hfind] at hk
        rcases h.create_answered s k answers (h.find s k hfind) with ⟨hsome, -⟩ | ⟨-, hnot⟩
        · exact h.create_good s k answers hsome
        · exact absurd hk hnot
    | destroy i =>
      obtain rfl : k = i := hop
      exact absurd hk (h.destroy_self s k)
  · rw [hok.others k hop] at hk ⊢
    exact ⟨Nat.lt_of_lt_of_le (hs k hk).1 hok.grows, (hs k hk).2⟩

/-- **Every run of a lawful pool** passes sound states only, by steps that do what they may. -/
theorem Lawful.run (h : P.Lawful Good) {s : σ} (hs : P.Sound Good s) (ops : List (PoolOp π)) :
    Runs.Always P.step (P.Sound Good) s ops ∧ Runs.StepsMeet P.step P.StepOk s ops :=
  ⟨fun pre _ _ =>
      Runs.run_invariant (P := P.Sound Good) (fun _ op hs => h.sound_step hs op) pre s hs,
    fun _ op _ _ => h.stepOk _ op⟩

end Pool

end Slots
