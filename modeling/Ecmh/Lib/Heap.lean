/-
# A heap of cells, and triples that frame

A heap has finitely many cells, each with an address.  A program reads, writes, allocates and frees
them, and has no result where it touches an address without a cell.

What a program is to find is a multiset of cells, `Cells`: the addresses in it are different, and
the sum of two is the separating conjunction.  `Triple P m Q` says that `m` comes to a result in
every heap that holds `P`, whatever else the heap holds, which is held after it as well.  So the
frame rule is `Triple.frame`, and a multiset that is not needed any more is forgotten
(`Triple.conseq`).

A program that walks over cells may take the number of addresses as fuel, `addresses`: it is never
less than the number of cells (`Triple.bind_addresses`).
-/
import Mathlib.Algebra.Order.Group.Multiset
import Mathlib.Data.Finset.Card
import Mathlib.Data.Multiset.UnionInter
import Mathlib.Tactic.Abel

namespace CellHeap

variable {C α β : Type}

/-! ## 1. Heaps -/

/-- A heap, whose addresses with a cell are below `bound`. -/
structure Heap (C : Type) where
  get : Nat → Option C
  bound : Nat
  get_of_ge : ∀ a, bound ≤ a → get a = none

/-- The heap without cells. -/
def Heap.empty : Heap C := ⟨fun _ => none, 0, fun _ _ => rfl⟩

/-- What is at one address is replaced. -/
def Heap.put (h : Heap C) (a : Nat) (c : Option C) : Heap C where
  get b := if b = a then c else h.get b
  bound := max h.bound (a + 1)
  get_of_ge b hb := by
    rw [if_neg (by omega)]
    exact h.get_of_ge b (by omega)

@[simp] theorem Heap.get_put_self (h : Heap C) (a : Nat) (c : Option C) :
    (h.put a c).get a = c := if_pos rfl

theorem Heap.get_put_ne (h : Heap C) {a b : Nat} (c : Option C) (hb : b ≠ a) :
    (h.put a c).get b = h.get b := if_neg hb

/-- An allocator, which knows an address without a cell in every heap. -/
structure Allocator (C : Type) where
  pick : Heap C → Nat
  fresh : ∀ h : Heap C, h.get (pick h) = none

/-- The allocator that takes the next address. -/
def Allocator.next : Allocator C := ⟨Heap.bound, fun h => h.get_of_ge h.bound (Nat.le_refl _)⟩

/-! ## 2. Programs -/

/-- A program on a heap. -/
abbrev HeapM (C α : Type) := StateT (Heap C) Option α

def read (a : Nat) : HeapM C C := fun h => (h.get a).map fun c => (c, h)

def write (a : Nat) (c : C) : HeapM C Unit := fun h =>
  (h.get a).map fun _ => ((), h.put a (some c))

def alloc (al : Allocator C) (c : C) : HeapM C Nat := fun h =>
  some (al.pick h, h.put (al.pick h) (some c))

def free (a : Nat) : HeapM C Unit := fun h => (h.get a).map fun _ => ((), h.put a none)

/-- A number of addresses above which there is no cell. -/
def addresses : HeapM C Nat := fun h => some (h.bound, h)

/-! ## 3. What a heap holds -/

/-- Cells, each with its address. -/
abbrev Cells (C : Type) := Multiset (Nat × C)

/-- The heap has these cells, at different addresses. -/
structure Holds (h : Heap C) (P : Cells C) : Prop where
  nodup : (P.map Prod.fst).Nodup
  get : ∀ p ∈ P, h.get p.1 = some p.2

theorem Holds.left {h : Heap C} {P R : Cells C} (hh : Holds h (P + R)) : Holds h P where
  nodup := by
    have hn := hh.nodup
    rw [Multiset.map_add] at hn
    exact (Multiset.nodup_add.mp hn).1
  get p hp := hh.get p (Multiset.mem_add.mpr (.inl hp))

theorem Holds.right {h : Heap C} {P R : Cells C} (hh : Holds h (P + R)) : Holds h R := by
  rw [add_comm] at hh
  exact hh.left

theorem Holds.zero (h : Heap C) : Holds h 0 :=
  ⟨by simp, fun p hp => absurd hp (Multiset.notMem_zero p)⟩

/-- One cell, and the others, which are elsewhere. -/
theorem holds_singleton_add_iff {h : Heap C} {a : Nat} {c : C} {R : Cells C} :
    Holds h ({(a, c)} + R) ↔ h.get a = some c ∧ a ∉ R.map Prod.fst ∧ Holds h R := by
  constructor
  · intro hh
    have hn := hh.nodup
    rw [Multiset.map_add, Multiset.map_singleton, Multiset.singleton_add,
      Multiset.nodup_cons] at hn
    exact ⟨hh.get (a, c) (by simp), hn.1, hh.right⟩
  · rintro ⟨ha, hout, hh⟩
    constructor
    · rw [Multiset.map_add, Multiset.map_singleton, Multiset.singleton_add]
      exact Multiset.nodup_cons.mpr ⟨hout, hh.nodup⟩
    · intro p hp
      rcases Multiset.mem_add.mp hp with hp | hp
      · rw [Multiset.mem_singleton.mp hp]
        exact ha
      · exact hh.get p hp

/-- A change elsewhere. -/
theorem Holds.put {h : Heap C} {R : Cells C} (hh : Holds h R) {a : Nat} (c : Option C)
    (ha : a ∉ R.map Prod.fst) : Holds (h.put a c) R where
  nodup := hh.nodup
  get p hp := by
    have hne : p.1 ≠ a := by
      rintro rfl
      exact ha (Multiset.mem_map_of_mem Prod.fst hp)
    rw [h.get_put_ne c hne]
    exact hh.get p hp

/-- There are no more cells than addresses. -/
theorem Holds.card_le {h : Heap C} {P : Cells C} (hh : Holds h P) :
    Multiset.card P ≤ h.bound := by
  have hsub : (⟨P.map Prod.fst, hh.nodup⟩ : Finset Nat) ⊆ Finset.range h.bound := by
    intro a ha
    obtain ⟨p, hp, rfl⟩ := Multiset.mem_map.mp ha
    rw [Finset.mem_range]
    by_contra hge
    have hget := hh.get p hp
    rw [h.get_of_ge p.1 (by omega)] at hget
    exact nomatch hget
  have hcard := Finset.card_le_card hsub
  rw [Finset.card_range, Finset.card_mk, Multiset.card_map] at hcard
  exact hcard

/-! ## 4. Triples -/

/-- In every heap that holds `P`, and whatever else, the program comes to a result, and the heap
then holds cells that `Q` says of the result, and what else it held. -/
def Triple (P : Cells C) (m : HeapM C α) (Q : α → Cells C → Prop) : Prop :=
  ∀ h R, Holds h (P + R) → ∃ r h' P', m h = some (r, h') ∧ Q r P' ∧ Holds h' (P' + R)

variable {P P' F : Cells C} {m : HeapM C α} {Q : α → Cells C → Prop}

theorem Triple.pure {r : α} (hq : Q r P) : Triple P (pure r) Q :=
  fun h _ hh => ⟨r, h, P, rfl, hq, hh⟩

theorem Triple.bind {k : α → HeapM C β} {Q' : β → Cells C → Prop} (hm : Triple P m Q)
    (hk : ∀ r P', Q r P' → Triple P' (k r) Q') : Triple P (m >>= k) Q' := by
  intro h R hh
  obtain ⟨r, h1, P1, hrun, hq, hh1⟩ := hm h R hh
  obtain ⟨r', h2, P2, hrun', hq', hh2⟩ := hk r P1 hq h1 R hh1
  refine ⟨r', h2, P2, ?_, hq', hh2⟩
  show (m h).bind (fun p => k p.1 p.2) = _
  rw [hrun]
  exact hrun'

/-- The frame rule. -/
theorem Triple.frame (hm : Triple P m Q) (F : Cells C) :
    Triple (P + F) m fun r P' => ∃ P1, P' = P1 + F ∧ Q r P1 := by
  intro h R hh
  rw [add_assoc] at hh
  obtain ⟨r, h', P', hrun, hq, hh'⟩ := hm h (F + R) hh
  exact ⟨r, h', P' + F, hrun, ⟨P', rfl, hq⟩, by rwa [add_assoc]⟩

theorem Triple.frame_eq {P0 P1 : Cells C} (hm : Triple P0 m fun _ P' => P' = P1) (F : Cells C) :
    Triple (P0 + F) m fun _ P' => P' = P1 + F := by
  intro h R hh
  obtain ⟨r, h', P', hrun, ⟨P2, rfl, rfl⟩, hh'⟩ := hm.frame F h R hh
  exact ⟨r, h', _, hrun, rfl, hh'⟩

/-- The rule of consequence, in which cells may be forgotten. -/
theorem Triple.conseq {Q' : α → Cells C → Prop} (hm : Triple P m Q)
    (hq : ∀ r P', Q r P' → ∃ P1 F, P' = P1 + F ∧ Q' r P1) : Triple P m Q' := by
  intro h R hh
  obtain ⟨r, h', P', hrun, hq', hh'⟩ := hm h R hh
  obtain ⟨P1, F, rfl, hq1⟩ := hq r P' hq'
  refine ⟨r, h', P1, hrun, hq1, ?_⟩
  rw [show P1 + F + R = P1 + R + F by abel] at hh'
  exact hh'.left

theorem Triple.imp {Q' : α → Cells C → Prop} (hm : Triple P m Q)
    (hq : ∀ r P', Q r P' → Q' r P') : Triple P m Q' :=
  hm.conseq fun r P' h => ⟨P', 0, by rw [add_zero], hq r P' h⟩

/-- A step after which the cells are known. -/
theorem Triple.seq {P0 P1 : Cells C} {k : α → HeapM C β} {Q' : β → Cells C → Prop}
    (hP : P = P0) (hm : Triple P0 m fun _ P' => P' = P1) (hk : ∀ r, Triple P1 (k r) Q') :
    Triple P (m >>= k) Q' := by
  rw [hP]
  exact hm.bind fun r _ he => he ▸ hk r

/-- A last step after which the cells are known. -/
theorem Triple.done {P0 P1 : Cells C} (hP : P = P0) (hm : Triple P0 m fun _ P' => P' = P1)
    (hq : ∀ r, Q r P1) : Triple P m Q := by
  rw [hP]
  exact hm.imp fun r _ he => he ▸ hq r

/-! ## 5. The programs step by step -/

section

variable {a : Nat} {c : C}

theorem Triple.bind_read {k : C → HeapM C α} (hP : P = {(a, c)} + F) (hk : Triple P (k c) Q) :
    Triple P (read a >>= k) Q := by
  have hread : Triple P (read a) fun r P' => r = c ∧ P' = P := by
    subst hP
    intro h R hh
    have hget := hh.get (a, c) (by simp)
    exact ⟨c, h, _, by rw [read, hget]; rfl, ⟨rfl, rfl⟩, hh⟩
  refine hread.bind ?_
  rintro r P' ⟨rfl, rfl⟩
  exact hk

/-- A cell that is read and taken apart. -/
theorem Triple.bind_readAs {f : C → HeapM C β} {r : β} {k : β → HeapM C α} (hf : f c = Pure.pure r)
    (hP : P = {(a, c)} + F) (hk : Triple P (k r) Q) : Triple P ((read a >>= f) >>= k) Q := by
  have hread : Triple P (read a >>= f) fun r' P' => r' = r ∧ P' = P :=
    Triple.bind_read hP (hf ▸ Triple.pure ⟨rfl, rfl⟩)
  refine hread.bind ?_
  rintro r' P' ⟨rfl, rfl⟩
  exact hk

theorem Triple.write (hP : P = {(a, c)} + F) (c' : C) :
    Triple P (write a c') fun _ P' => P' = {(a, c')} + F := by
  subst hP
  intro h R hh
  rw [add_assoc] at hh
  obtain ⟨hget, hout, hrest⟩ := holds_singleton_add_iff.mp hh
  refine ⟨(), h.put a (some c'), _, by rw [CellHeap.write, hget]; rfl, rfl, ?_⟩
  rw [add_assoc]
  exact holds_singleton_add_iff.mpr ⟨h.get_put_self a _, hout, hrest.put _ hout⟩

theorem Triple.bind_write {c' : C} {k : Unit → HeapM C α} (hP : P = {(a, c)} + F)
    (hk : Triple ({(a, c')} + F) (k ()) Q) : Triple P (CellHeap.write a c' >>= k) Q :=
  (Triple.write hP c').bind fun _ _ he => he ▸ hk

theorem Triple.free (hP : P = {(a, c)} + F) :
    Triple P (free a) fun _ P' => P' = F := by
  subst hP
  intro h R hh
  rw [add_assoc] at hh
  obtain ⟨hget, hout, hrest⟩ := holds_singleton_add_iff.mp hh
  exact ⟨(), h.put a none, F, by rw [CellHeap.free, hget]; rfl, rfl, hrest.put none hout⟩

theorem Triple.alloc (al : Allocator C) (c : C) :
    Triple P (alloc al c) fun a P' => P' = {(a, c)} + P := by
  intro h R hh
  have hout : al.pick h ∉ (P + R).map Prod.fst := by
    intro hmem
    obtain ⟨p, hp, he⟩ := Multiset.mem_map.mp hmem
    have hget := hh.get p hp
    rw [he, al.fresh h] at hget
    exact nomatch hget
  refine ⟨al.pick h, h.put (al.pick h) (some c), _, rfl, rfl, ?_⟩
  rw [add_assoc]
  exact holds_singleton_add_iff.mpr ⟨h.get_put_self _ _, hout, hh.put _ hout⟩

theorem Triple.bind_alloc {al : Allocator C} {k : Nat → HeapM C α}
    (hk : ∀ a, Triple ({(a, c)} + P) (k a) Q) : Triple P (CellHeap.alloc al c >>= k) Q :=
  (Triple.alloc al c).bind fun a _ he => he ▸ hk a

end

theorem Triple.bind_addresses {k : Nat → HeapM C α}
    (hk : ∀ n, Multiset.card P ≤ n → Triple P (k n) Q) : Triple P (addresses >>= k) Q := by
  intro h R hh
  have hcard := hh.card_le
  rw [Multiset.card_add] at hcard
  exact hk h.bound (by omega) h R hh

end CellHeap
