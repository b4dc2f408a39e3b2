/-
# Doubly linked nodes

Nodes in a heap that point to the next one, to the previous one and to an object.  `seg` is the
nodes of a part of a list, between what comes before it and what comes after it, and splits where
the list does (`seg_append`).  `objs` is the objects that the nodes point to.

`walk_next` and `walk_prev` are what a reader sees: the walk along `next` from the first node and
the walk along `prev` from the last one come to the same nodes, in opposite order.
-/
import Ecmh.Lib.Heap

namespace Linked

open CellHeap

variable {C X : Type}

/-! ## 1. Nodes -/

/-- The pointers in a node. -/
structure Link where
  next : Option Nat
  prev : Option Nat
  data : Option Nat
  deriving DecidableEq

/-- A node: its address, that of its object, and what the object is. -/
structure Node (X : Type) where
  node : Nat
  data : Nat
  val : X

/-- The address of the first node, or of what comes after. -/
def first : List (Node X) → Option Nat → Option Nat
  | [], after => after
  | n :: _, _ => some n.node

/-- The address of the last node, or of what comes before. -/
def last : Option Nat → List (Node X) → Option Nat
  | before, [] => before
  | _, n :: ns => last (some n.node) ns

theorem first_append (xs ys : List (Node X)) (after : Option Nat) :
    first (xs ++ ys) after = first xs (first ys after) := by
  cases xs <;> rfl

theorem last_append : ∀ (before : Option Nat) (xs ys : List (Node X)),
    last before (xs ++ ys) = last (last before xs) ys
  | _, [], _ => rfl
  | _, n :: xs, ys => last_append (some n.node) xs ys

/-! ## 2. Segments -/

section

variable (mk : Link → C)

/-- The nodes of a part of a list. -/
def seg : Option Nat → List (Node X) → Option Nat → Cells C
  | _, [], _ => 0
  | before, n :: ns, after =>
    {(n.node, mk ⟨first ns after, before, some n.data⟩)} + seg (some n.node) ns after

theorem seg_append : ∀ (before : Option Nat) (xs ys : List (Node X)) (after : Option Nat),
    seg mk before (xs ++ ys) after
      = seg mk before xs (first ys after) + seg mk (last before xs) ys after
  | _, [], _, _ => (zero_add _).symm
  | before, n :: xs, ys, after => by
    rw [List.cons_append, seg, seg, seg_append (some n.node) xs ys after, first_append, last,
      add_assoc]

theorem seg_concat (before : Option Nat) (xs : List (Node X)) (n : Node X) (after : Option Nat) :
    seg mk before (xs ++ [n]) after
      = seg mk before xs (some n.node) + {(n.node, mk ⟨after, last before xs, some n.data⟩)} := by
  rw [seg_append, seg, seg, add_zero]
  rfl

/-- A node in the middle. -/
theorem seg_middle (before : Option Nat) (pre : List (Node X)) (n : Node X) (post : List (Node X))
    (after : Option Nat) : seg mk before (pre ++ n :: post) after
      = {(n.node, mk ⟨first post after, last before pre, some n.data⟩)} +
        (seg mk before pre (some n.node) + seg mk (some n.node) post after) := by
  rw [seg_append, seg, first]
  abel

theorem card_seg : ∀ (before : Option Nat) (ns : List (Node X)) (after : Option Nat),
    Multiset.card (seg mk before ns after) = ns.length
  | _, [], _ => rfl
  | before, n :: ns, after => by
    rw [seg, Multiset.card_add, Multiset.card_singleton, card_seg, List.length_cons, Nat.add_comm]

/-- The nodes are at different addresses. -/
theorem map_fst_seg : ∀ (before : Option Nat) (ns : List (Node X)) (after : Option Nat),
    (seg mk before ns after).map Prod.fst = ↑(ns.map Node.node)
  | _, [], _ => rfl
  | before, n :: ns, after => by
    rw [seg, Multiset.map_add, Multiset.map_singleton, map_fst_seg, List.map_cons,
      Multiset.singleton_add, Multiset.cons_coe]

theorem nodup_of_holds_seg {h : Heap C} {before after : Option Nat} {ns : List (Node X)}
    (hh : Holds h (seg mk before ns after)) : (ns.map Node.node).Nodup := by
  have hn := hh.nodup
  rw [map_fst_seg] at hn
  exact Multiset.coe_nodup.mp hn

end

/-! ## 3. Objects -/

section

variable (obj : Nat → X → Cells C)

/-- The objects that nodes point to. -/
def objs (ns : List (Node X)) : Cells C := (ns.map fun n => obj n.data n.val).sum

@[simp] theorem objs_nil : objs obj [] = 0 := rfl

theorem objs_append (xs ys : List (Node X)) : objs obj (xs ++ ys) = objs obj xs + objs obj ys := by
  rw [objs, objs, objs, List.map_append, List.sum_append]

theorem objs_cons (n : Node X) (ns : List (Node X)) :
    objs obj (n :: ns) = obj n.data n.val + objs obj ns := by
  rw [objs, objs, List.map_cons, List.sum_cons]

theorem objs_middle (pre : List (Node X)) (n : Node X) (post : List (Node X)) :
    objs obj (pre ++ n :: post) = obj n.data n.val + (objs obj pre + objs obj post) := by
  rw [objs_append, objs_cons]
  abel

end

/-! ## 4. Walks -/

section

variable (mk : Link → C)

/-- The walk along one of the pointers, from an address on, comes to these nodes and then to the
end. -/
def Walk (h : Heap C) (step : Link → Option Nat) : Option Nat → List Nat → Prop
  | p, [] => p = none
  | p, a :: as => p = some a ∧ ∃ l, h.get a = some (mk l) ∧ Walk h step (step l) as

variable {mk} {h : Heap C}

theorem walk_next : ∀ {before : Option Nat} {ns : List (Node X)},
    Holds h (seg mk before ns none) → Walk mk h Link.next (first ns none) (ns.map Node.node)
  | _, [], _ => rfl
  | _, n :: _, hh => by
    obtain ⟨hget, -, hrest⟩ := holds_singleton_add_iff.mp hh
    exact ⟨rfl, _, hget, walk_next hrest⟩

theorem walk_prev (ns : List (Node X)) : ∀ {after : Option Nat}, Holds h (seg mk none ns after) →
    Walk mk h Link.prev (last none ns) (ns.map Node.node).reverse := by
  induction ns using List.reverseRecOn with
  | nil => exact fun _ => rfl
  | append_singleton ns n ih =>
    intro after hh
    rw [seg_concat, add_comm] at hh
    obtain ⟨hget, -, hrest⟩ := holds_singleton_add_iff.mp hh
    rw [List.map_append, List.map_singleton, List.reverse_append, List.reverse_singleton,
      List.singleton_append, last_append]
    exact ⟨rfl, _, hget, ih hrest⟩

end

end Linked
