/-
# `linklist.c` on a heap

In `Table.lean` a `struct list` is the data of its nodes.  Here it is what it is in memory: a header
with the first node, the last node and the counter, and nodes that point to each other.  The
functions and the two loops of `linklist.h` are written as the source has them, and have no result
where they would touch memory that is not theirs.

An `HList` is a list with the addresses it has in memory, `HList.cells` is the memory that it takes,
and `HList.toCList` forgets the addresses.  The triples say that each function does on memory what
its namesake in `Table.lean` does, and that it leaves the rest of the memory alone.
-/
import Ecmh.Lib.Linked
import Ecmh.Table

namespace Ecmh.OnHeap

open CellHeap Linked

variable {D X α : Type}

/-! ## 1. Memory -/

/-- `struct list`; `del` is an argument of the functions that call it. -/
structure ListHdr where
  head : Option Nat
  tail : Option Nat
  count : Int
  deriving DecidableEq

/-- What is allocated: nodes, lists, and the objects of the program. -/
inductive Cell (D : Type)
  | listnode (n : Link)
  | list (l : ListHdr)
  | data (d : D)

def readNode (node : Nat) : HeapM (Cell D) Link := do
  match ← read node with
  | .listnode n => pure n
  | _ => failure

def modifyNode (node : Nat) (f : Link → Link) : HeapM (Cell D) Unit := do
  let n ← readNode node
  write node (.listnode (f n))

def readList (list : Nat) : HeapM (Cell D) ListHdr := do
  match ← read list with
  | .list l => pure l
  | _ => failure

def modifyList (list : Nat) (f : ListHdr → ListHdr) : HeapM (Cell D) Unit := do
  let l ← readList list
  write list (.list (f l))

/-- A pointer that is followed. -/
def deref : Option Nat → HeapM (Cell D) Nat
  | some a => pure a
  | none => failure

/-- What is done with the data of a node, if it is not `NULL`. -/
def ifData (data : Option Nat) (body : Nat → HeapM (Cell D) Unit) : HeapM (Cell D) Unit :=
  match data with
  | some data => body data
  | none => pure ()

/-! ## 2. The functions -/

section

variable (al : Allocator (Cell D))

/-- `list_new`. -/
def listNew : HeapM (Cell D) Nat := alloc al (.list ⟨none, none, 0⟩)

/-- "`if (list->head == NULL) list->head = node; else list->tail->next = node;`" -/
def linkTail (list node : Nat) : HeapM (Cell D) Unit := do
  let l ← readList list
  match l.head with
  | none => modifyList list fun l => { l with head := some node }
  | some _ => do
    let tail ← deref l.tail
    modifyNode tail fun n => { n with next := some node }

/-- `listnode_add`. -/
def listnodeAdd (list val : Nat) : HeapM (Cell D) Unit := do
  let l ← readList list
  let node ← alloc al (.listnode ⟨none, l.tail, some val⟩)
  linkTail list node
  modifyList list fun l =>
    { l with tail := some node, count := (if l.count < 0 then 0 else l.count) + 1 }

end

/-- "`if (node->prev) node->prev->next = node->next; else list->head = node->next;`" -/
def linkNext (list : Nat) (prev next : Option Nat) : HeapM (Cell D) Unit :=
  match prev with
  | some prev => modifyNode prev fun n => { n with next := next }
  | none => modifyList list fun l => { l with head := next }

/-- "`if (node->next) node->next->prev = node->prev; else list->tail = node->prev;`" -/
def linkPrev (list : Nat) (next prev : Option Nat) : HeapM (Cell D) Unit :=
  match next with
  | some next => modifyNode next fun n => { n with prev := prev }
  | none => modifyList list fun l => { l with tail := prev }

/-- `list_delete_node`. -/
def listDeleteNode (list node : Nat) : HeapM (Cell D) Unit := do
  let n ← readNode node
  linkNext list n.prev n.next
  let n ← readNode node
  linkPrev list n.next n.prev
  modifyList list fun l => { l with count := l.count - 1 }
  free node

/-- The loop of `list_delete_all_node`. -/
def deleteFrom (del : Nat → HeapM (Cell D) Unit) : Nat → Option Nat → HeapM (Cell D) Unit
  | 0, _ => failure
  | _ + 1, none => pure ()
  | fuel + 1, some node => do
    let n ← readNode node
    ifData n.data del
    free node
    deleteFrom del fuel n.next

/-- `list_delete_all_node`. -/
def listDeleteAllNode (del : Nat → HeapM (Cell D) Unit) (list : Nat) : HeapM (Cell D) Unit := do
  let fuel ← addresses
  let l ← readList list
  deleteFrom del (fuel + 1) l.head
  modifyList list fun l => { l with head := none, tail := none, count := 0 }

/-- `LIST_LOOP` with a body that returns the first node whose data passes a test. -/
def findFrom (test : Nat → HeapM (Cell D) Bool) :
    Nat → Option Nat → HeapM (Cell D) (Option (Nat × Nat))
  | 0, _ => failure
  | _ + 1, none => pure none
  | fuel + 1, some node => do
    let n ← readNode node
    match n.data with
    | none => findFrom test fuel n.next
    | some data => do
      if ← test data then pure (some (node, data)) else findFrom test fuel n.next

/-- `LIST_LOOP` over a list, for the node and its data. -/
def listFind (test : Nat → HeapM (Cell D) Bool) (list : Nat) :
    HeapM (Cell D) (Option (Nat × Nat)) := do
  let fuel ← addresses
  let l ← readList list
  findFrom test (fuel + 1) l.head

/-- `LIST_LOOP2`: the next node is read before the body, which may delete the node it is at.  The
result is the nodes that the loop was at. -/
def loop2From (body : Nat → Nat → HeapM (Cell D) Unit) :
    Nat → Option Nat → HeapM (Cell D) (List Nat)
  | 0, _ => failure
  | _ + 1, none => pure []
  | fuel + 1, some node => do
    let n ← readNode node
    ifData n.data (body node)
    let seen ← loop2From body fuel n.next
    pure (node :: seen)

/-- `LIST_LOOP2` over a list. -/
def listLoop2 (body : Nat → Nat → HeapM (Cell D) Unit) (list : Nat) :
    HeapM (Cell D) (List Nat) := do
  let fuel ← addresses
  let l ← readList list
  loop2From body (fuel + 1) l.head

/-! ## 3. Reading and writing, as triples -/

section

variable {P F : Cells (Cell D)} {Q : α → Cells (Cell D) → Prop} {a : Nat}

theorem bind_readNode {n : Link} {k : Link → HeapM (Cell D) α} (hP : P = {(a, .listnode n)} + F)
    (hk : Triple P (k n) Q) : Triple P (readNode a >>= k) Q := Triple.bind_readAs rfl hP hk

theorem modifyNode_triple {n : Link} (hP : P = {(a, .listnode n)} + F) (f : Link → Link) :
    Triple P (modifyNode a f) fun _ P' => P' = {(a, .listnode (f n))} + F :=
  bind_readNode hP (Triple.write hP _)

theorem bind_readList {l : ListHdr} {k : ListHdr → HeapM (Cell D) α}
    (hP : P = {(a, .list l)} + F) (hk : Triple P (k l) Q) : Triple P (readList a >>= k) Q :=
  Triple.bind_readAs rfl hP hk

theorem bind_deref {k : Nat → HeapM (Cell D) α} (hk : Triple P (k a) Q) :
    Triple P (deref (some a) >>= k) Q := hk

theorem modifyList_triple {l : ListHdr} (hP : P = {(a, .list l)} + F) (f : ListHdr → ListHdr) :
    Triple P (modifyList a f) fun _ P' => P' = {(a, .list (f l))} + F :=
  bind_readList hP (Triple.write hP _)

end

/-! ## 4. Lists with their addresses -/

/-- A list as it is in memory. -/
structure HList (X : Type) where
  addr : Nat
  nodes : List (Node X)
  count : Int

/-- What is in its header. -/
def HList.hdr (l : HList X) : ListHdr := ⟨first l.nodes none, last none l.nodes, l.count⟩

/-- The memory that it takes, with its objects. -/
def HList.cells (obj : Nat → X → Cells (Cell D)) (l : HList X) : Cells (Cell D) :=
  {(l.addr, .list l.hdr)} + (seg .listnode none l.nodes none + objs obj l.nodes)

/-- The list without addresses. -/
def HList.toCList (er : X → α) (l : HList X) : CList α := ⟨l.nodes.map fun n => er n.val, l.count⟩

/-- The list after a node was put at its end. -/
def HList.add (l : HList X) (n : Node X) : HList X :=
  { l with nodes := l.nodes ++ [n], count := (if l.count < 0 then 0 else l.count) + 1 }

theorem HList.toCList_add (er : X → α) (l : HList X) (n : Node X) :
    (l.add n).toCList er = Ecmh.listnodeAdd (l.toCList er) (er n.val) := by
  rw [HList.toCList, HList.add, List.map_append]
  rfl

section

variable (obj : Nat → X → Cells (Cell D)) {F : Cells (Cell D)}

theorem linkNext_triple (list : Nat) (tail : Option Nat) (count : Int) (pre : List (Node X))
    (next next' : Option Nat) :
    Triple ({(list, .list ⟨first pre next, tail, count⟩)} + (seg .listnode none pre next + F))
      (linkNext list (last none pre) next') fun _ P' =>
        P' = {(list, .list ⟨first pre next', tail, count⟩)} +
          (seg .listnode none pre next' + F) := by
  rcases List.eq_nil_or_concat' pre with rfl | ⟨pre, p, rfl⟩
  · exact modifyList_triple rfl _
  · rw [last_append, seg_concat, seg_concat, first_append, first_append]
    refine (modifyNode_triple (n := ⟨next, last none pre, some p.data⟩)
      (F := {(list, .list ⟨first pre (some p.node), tail, count⟩)} +
        (seg .listnode none pre (some p.node) + F)) ?_ _).imp ?_
    · dsimp only [first]
      abel
    · rintro - P' rfl
      dsimp only [first]
      abel

theorem linkPrev_triple (list : Nat) (head : Option Nat) (count : Int) (post : List (Node X))
    (prev prev' : Option Nat) :
    Triple ({(list, .list ⟨head, last prev post, count⟩)} + (seg .listnode prev post none + F))
      (linkPrev list (first post none) prev') fun _ P' =>
        P' = {(list, .list ⟨head, last prev' post, count⟩)} +
          (seg .listnode prev' post none + F) := by
  cases post with
  | nil => exact modifyList_triple rfl _
  | cons p post =>
    refine (modifyNode_triple (n := ⟨first post none, prev, some p.data⟩)
      (F := {(list, .list ⟨head, last (some p.node) post, count⟩)} +
        (seg .listnode (some p.node) post none + F)) ?_ _).imp ?_
    · rw [seg, last]
      abel
    · rintro - P' rfl
      rw [seg, last]
      abel

theorem linkTail_triple (list node : Nat) (count : Int) (nodes : List (Node X)) :
    Triple ({(list, .list ⟨first nodes none, last none nodes, count⟩)} +
        (seg .listnode none nodes none + F)) (linkTail list node) fun _ P' =>
      P' = {(list, .list ⟨first nodes (some node), last none nodes, count⟩)} +
        (seg .listnode none nodes (some node) + F) := by
  refine bind_readList rfl ?_
  rcases List.eq_nil_or_concat' nodes with rfl | ⟨pre, p, rfl⟩
  · exact modifyList_triple rfl _
  · obtain ⟨head, hhead⟩ : ∃ head, first (pre ++ [p]) none = some head := by
      cases pre with
      | nil => exact ⟨_, rfl⟩
      | cons q pre => exact ⟨_, rfl⟩
    have hsame : first (pre ++ [p]) (some node) = first (pre ++ [p]) none := by
      rw [first_append, first_append]
      rfl
    rw [hsame, seg_concat, seg_concat, hhead, last_append]
    refine bind_deref (Triple.done rfl (modifyNode_triple (n := ⟨none, last none pre, some p.data⟩)
      (F := {(list, .list ⟨some head, some p.node, count⟩)} +
        (seg .listnode none pre (some p.node) + F)) ?_ _) fun _ => ?_)
    · dsimp only [last]
      abel
    · dsimp only [last]
      abel

/-- **`listnode_add`**: an object is put at the end, and a negative counter is repaired. -/
theorem listnodeAdd_triple (al : Allocator (Cell D)) (l : HList X) (d : Nat) (x : X) :
    Triple (l.cells obj + obj d x) (listnodeAdd al l.addr d) fun _ P' =>
      ∃ node, P' = (l.add ⟨node, d, x⟩).cells obj := by
  obtain ⟨addr, nodes, count⟩ := l
  refine bind_readList (l := ⟨first nodes none, last none nodes, count⟩)
    (F := seg .listnode none nodes none + (objs obj nodes + obj d x)) ?_ ?_
  · rw [HList.cells]
    dsimp only [HList.hdr]
    abel
  refine Triple.bind_alloc fun node => ?_
  refine Triple.seq ?_ (linkTail_triple addr node count nodes (F := objs obj nodes + obj d x +
    {(node, .listnode ⟨none, last none nodes, some d⟩)})) fun _ => ?_
  · rw [HList.cells]
    dsimp only [HList.hdr]
    abel
  refine Triple.done rfl (modifyList_triple rfl _) fun _ => ⟨node, ?_⟩
  rw [HList.cells]
  dsimp only [HList.hdr, HList.add]
  rw [first_append, last_append, seg_concat, objs_append, objs_cons, objs_nil]
  dsimp only [first, last]
  abel

/-- **`list_delete_node`**, of any node of the list: its object stays. -/
theorem listDeleteNode_triple {l : HList X} {pre post : List (Node X)} {n : Node X}
    (hn : l.nodes = pre ++ n :: post) :
    Triple (l.cells obj) (listDeleteNode l.addr n.node) fun _ P' =>
      P' = ({ l with nodes := pre ++ post, count := l.count - 1 } : HList X).cells obj +
        obj n.data n.val := by
  obtain ⟨addr, nodes, count⟩ := l
  dsimp only at hn
  subst hn
  have hcells : (HList.mk addr (pre ++ n :: post) count).cells obj
      = {(n.node, .listnode ⟨first post none, last none pre, some n.data⟩)} +
        ({(addr, .list ⟨first pre (some n.node), last (some n.node) post, count⟩)} +
          (seg .listnode none pre (some n.node) + (seg .listnode (some n.node) post none +
            (obj n.data n.val + (objs obj pre + objs obj post))))) := by
    rw [HList.cells, HList.hdr]
    dsimp only
    rw [first_append, last_append, seg_middle, objs_middle]
    dsimp only [first, last]
    abel
  rw [hcells]
  generalize hO : obj n.data n.val + (objs obj pre + objs obj post) = O
  refine bind_readNode rfl ?_
  refine Triple.seq ?_ (linkNext_triple addr (last (some n.node) post) count pre (some n.node)
    (first post none) (F := {(n.node, .listnode ⟨first post none, last none pre, some n.data⟩)} +
      (seg .listnode (some n.node) post none + O))) fun _ => ?_
  · abel
  refine bind_readNode (n := ⟨first post none, last none pre, some n.data⟩)
    (F := {(addr, .list ⟨first pre (first post none), last (some n.node) post, count⟩)} +
      (seg .listnode none pre (first post none) + (seg .listnode (some n.node) post none + O)))
    ?_ ?_
  · abel
  refine Triple.seq ?_ (linkPrev_triple addr (first pre (first post none)) count post (some n.node)
    (last none pre) (F := {(n.node, .listnode ⟨first post none, last none pre, some n.data⟩)} +
      (seg .listnode none pre (first post none) + O))) fun _ => ?_
  · abel
  refine Triple.seq rfl (modifyList_triple rfl _) fun _ => ?_
  refine (Triple.free (c := .listnode ⟨first post none, last none pre, some n.data⟩)
    (F := {(addr, .list ⟨first pre (first post none), last (last none pre) post, count - 1⟩)} +
      (seg .listnode none pre (first post none) + (seg .listnode (last none pre) post none + O)))
    ?_).imp ?_
  · dsimp only
    abel
  · rintro - P' rfl
    rw [HList.cells, HList.hdr]
    dsimp only
    rw [first_append, last_append, seg_append, objs_append, ← hO]
    abel

/-! ## 5. The loops -/

theorem deleteFrom_triple {del : Nat → HeapM (Cell D) Unit}
    (hdel : ∀ d x, Triple (obj d x) (del d) fun _ P' => P' = 0) :
    ∀ (ns : List (Node X)) (before : Option Nat) {fuel : Nat}, ns.length < fuel →
      Triple (seg .listnode before ns none + (objs obj ns + F))
        (deleteFrom del fuel (first ns none)) fun _ P' => P' = F := by
  intro ns
  induction ns with
  | nil =>
    intro before fuel hlt
    obtain ⟨fuel, rfl⟩ := Nat.exists_eq_succ_of_ne_zero (by omega : fuel ≠ 0)
    refine Triple.pure ?_
    rw [seg, objs_nil, zero_add, zero_add]
  | cons n ns ih =>
    intro before fuel hlt
    rw [List.length_cons] at hlt
    obtain ⟨fuel, rfl⟩ := Nat.exists_eq_succ_of_ne_zero (by omega : fuel ≠ 0)
    rw [seg, objs_cons]
    refine bind_readNode (n := ⟨first ns none, before, some n.data⟩)
      (F := seg .listnode (some n.node) ns none + (obj n.data n.val + objs obj ns + F)) ?_ ?_
    · abel
    refine Triple.seq ?_ ((hdel n.data n.val).frame_eq
      ({(n.node, .listnode ⟨first ns none, before, some n.data⟩)} +
        (seg .listnode (some n.node) ns none + (objs obj ns + F)))) fun _ => ?_
    · abel
    exact Triple.seq (zero_add _) (Triple.free rfl) fun _ => ih _ (by omega)

/-- There are enough addresses for a walk over the list. -/
theorem HList.length_le_card (l : HList X) : l.nodes.length ≤ Multiset.card (l.cells obj) := by
  rw [HList.cells, Multiset.card_add, Multiset.card_add, card_seg]
  omega

/-- **`list_delete_all_node`**: nothing is left but the header. -/
theorem listDeleteAllNode_triple {del : Nat → HeapM (Cell D) Unit}
    (hdel : ∀ d x, Triple (obj d x) (del d) fun _ P' => P' = 0) (l : HList X) :
    Triple (l.cells obj) (listDeleteAllNode del l.addr) fun _ P' =>
      P' = ({ l with nodes := [], count := 0 } : HList X).cells obj := by
  refine Triple.bind_addresses fun fuel hfuel => bind_readList rfl ?_
  have hlen := l.length_le_card obj
  refine Triple.seq ?_ (deleteFrom_triple obj hdel l.nodes none
    (F := {(l.addr, .list l.hdr)}) (by omega : l.nodes.length < fuel + 1)) fun _ => ?_
  · rw [HList.cells]
    abel
  refine (modifyList_triple (F := 0) (add_zero _).symm _).imp ?_
  rintro - P' rfl
  rfl

/-- The list after another value was stored in the object of a node. -/
def HList.put (l : HList X) (pre : List (Node X)) (n : Node X) (post : List (Node X)) (x : X) :
    HList X := { l with nodes := pre ++ { n with val := x } :: post }

/-- The object of a node, and the rest, which does not depend on what it is. -/
theorem HList.focus {l : HList X} {pre post : List (Node X)} {n : Node X}
    (hn : l.nodes = pre ++ n :: post) : ∃ F, l.cells obj = obj n.data n.val + F ∧
      ∀ x, (l.put pre n post x).cells obj = obj n.data x + F := by
  have hcells : ∀ x, (l.put pre n post x).cells obj = obj n.data x +
      ({(l.addr, .list ⟨first pre (some n.node), last (some n.node) post, l.count⟩)} +
        (seg .listnode none (pre ++ n :: post) none + (objs obj pre + objs obj post))) := by
    intro x
    rw [HList.put, HList.cells, HList.hdr]
    dsimp only
    rw [first_append, last_append, objs_middle, seg_middle, seg_middle]
    dsimp only [first, last]
    abel
  refine ⟨_, ?_, hcells⟩
  rw [← hcells n.val, HList.put, ← hn]

/-- What is done with the object of one node. -/
theorem HList.triple_at {m : HeapM (Cell D) α} {S : α → X → Prop} {l : HList X}
    {pre post : List (Node X)} {n : Node X} (hn : l.nodes = pre ++ n :: post)
    (hm : Triple (obj n.data n.val) m fun r P' => ∃ x, P' = obj n.data x ∧ S r x) :
    Triple (l.cells obj) m fun r P' => ∃ x, P' = (l.put pre n post x).cells obj ∧ S r x := by
  obtain ⟨F, hl, hput⟩ := HList.focus obj hn
  rw [hl]
  refine (hm.frame F).imp ?_
  rintro r P' ⟨P1, rfl, x, rfl, hs⟩
  exact ⟨x, (hput x).symm, hs⟩

/-- What only looks at the object of a node. -/
theorem HList.triple_look {m : HeapM (Cell D) α} {r : α} {l : HList X} {pre post : List (Node X)}
    {n : Node X} (hn : l.nodes = pre ++ n :: post)
    (hm : Triple (obj n.data n.val) m fun r' P' => r' = r ∧ P' = obj n.data n.val) :
    Triple (l.cells obj) m fun r' P' => r' = r ∧ P' = l.cells obj := by
  obtain ⟨F, hl, -⟩ := HList.focus obj hn
  rw [hl]
  refine (hm.frame F).imp ?_
  rintro r' P' ⟨P1, rfl, hr, rfl⟩
  exact ⟨hr, rfl⟩

theorem HList.seg_mem {l : HList X} {pre post : List (Node X)} {n : Node X}
    (hn : l.nodes = pre ++ n :: post) : ∃ before F, l.cells obj
      = {(n.node, .listnode ⟨first post none, before, some n.data⟩)} + F := by
  refine ⟨last none pre, {(l.addr, .list l.hdr)} + (seg .listnode none pre (some n.node) +
    seg .listnode (some n.node) post none + objs obj l.nodes), ?_⟩
  rw [HList.cells, hn, seg_middle]
  abel

theorem findFrom_triple {test : Nat → HeapM (Cell D) Bool} {p : X → Bool}
    (htest : ∀ d x, Triple (obj d x) (test d) fun b P' => b = p x ∧ P' = obj d x) (l : HList X) :
    ∀ (rest pre : List (Node X)) {fuel : Nat}, l.nodes = pre ++ rest → rest.length < fuel →
      Triple (l.cells obj) (findFrom test fuel (first rest none)) fun r P' =>
        r = (rest.find? fun n => p n.val).map (fun n => (n.node, n.data)) ∧ P' = l.cells obj := by
  intro rest
  induction rest with
  | nil =>
    intro pre fuel hl hlt
    obtain ⟨fuel, rfl⟩ := Nat.exists_eq_succ_of_ne_zero (by omega : fuel ≠ 0)
    exact Triple.pure ⟨rfl, rfl⟩
  | cons n rest ih =>
    intro pre fuel hl hlt
    rw [List.length_cons] at hlt
    obtain ⟨fuel, rfl⟩ := Nat.exists_eq_succ_of_ne_zero (by omega : fuel ≠ 0)
    obtain ⟨before, F, hcells⟩ := HList.seg_mem obj hl
    refine bind_readNode hcells ((HList.triple_look obj hl (htest n.data n.val)).bind ?_)
    rintro b P' ⟨rfl, rfl⟩
    rw [List.find?_cons]
    cases hp : p n.val with
    | true => exact Triple.pure ⟨rfl, rfl⟩
    | false => exact ih (pre ++ [n]) (by rw [hl, List.append_assoc]; rfl) (by omega)

/-- **`LIST_LOOP`** finds the first node whose object passes the test. -/
theorem listFind_triple {test : Nat → HeapM (Cell D) Bool} {p : X → Bool}
    (htest : ∀ d x, Triple (obj d x) (test d) fun b P' => b = p x ∧ P' = obj d x) (l : HList X) :
    Triple (l.cells obj) (listFind test l.addr) fun r P' =>
      r = (l.nodes.find? fun n => p n.val).map (fun n => (n.node, n.data)) ∧
        P' = l.cells obj := by
  refine Triple.bind_addresses fun fuel hfuel => bind_readList rfl ?_
  have hlen := l.length_le_card obj
  exact findFrom_triple obj htest l l.nodes [] rfl (by omega)

/-- The search for an object. -/
theorem listFind_data_triple {test : Nat → HeapM (Cell D) Bool} {p : X → Bool}
    (htest : ∀ d x, Triple (obj d x) (test d) fun b P' => b = p x ∧ P' = obj d x) (l : HList X) :
    Triple (l.cells obj) (do
        let found ← listFind test l.addr
        pure (found.map Prod.snd)) fun r P' =>
      r = (l.nodes.find? fun n => p n.val).map Node.data ∧ P' = l.cells obj := by
  refine (listFind_triple obj htest l).bind ?_
  rintro r P' ⟨rfl, rfl⟩
  exact Triple.pure ⟨by rw [Option.map_map]; rfl, rfl⟩

/-- The node is the first one whose object has the key. -/
structure HList.First {κ : Type} (key : X → κ) (k : κ) (l : HList X) (pre : List (Node X))
    (n : Node X) (post : List (Node X)) : Prop where
  nodes : l.nodes = pre ++ n :: post
  before : ∀ m ∈ pre, key m.val ≠ k
  key : key n.val = k

theorem HList.First.of_find {κ : Type} [DecidableEq κ] {key : X → κ} {k : κ} {l : HList X}
    {n : Node X} (h : l.nodes.find? (fun n => decide (key n.val = k)) = some n) :
    ∃ pre post, l.First key k pre n post := by
  obtain ⟨hn, pre, post, hl, hpre⟩ := List.find?_eq_some_iff_append.mp h
  exact ⟨pre, post, hl, fun m hm => by simpa using hpre m hm, by simpa using hn⟩

/-- The list after the body of `LIST_LOOP2` was at a node: deleted, or with another value. -/
def HList.after (l : HList X) (pre : List (Node X)) (n : Node X) (post : List (Node X)) :
    Option X → HList X
  | none => { l with nodes := pre ++ post, count := l.count - 1 }
  | some x => l.put pre n post x

/-- The nodes and the counter after the loop, where its body does what `S` allows at each node. -/
inductive Swept (S : X → Option X → Prop) : List (Node X) → Int → List (Node X) → Int → Prop
  | nil (count : Int) : Swept S [] count [] count
  | delete {n : Node X} {ns ns' : List (Node X)} {count count' : Int} (hn : S n.val none)
      (rest : Swept S ns (count - 1) ns' count') : Swept S (n :: ns) count ns' count'
  | keep {n : Node X} {ns ns' : List (Node X)} {count count' : Int} {x : X} (hn : S n.val (some x))
      (rest : Swept S ns count ns' count') :
      Swept S (n :: ns) count ({ n with val := x } :: ns') count'

/-- The counter goes down once for each deleted node. -/
theorem Swept.count {S : X → Option X → Prop} {ns ns' : List (Node X)} {count count' : Int}
    (h : Swept S ns count ns' count') : count' - ns'.length = count - ns.length := by
  induction h with
  | nil => rfl
  | delete hn rest ih =>
    rw [List.length_cons]
    omega
  | keep hn rest ih =>
    rw [List.length_cons, List.length_cons]
    omega

/-- The nodes that are left are nodes that were there, in their order. -/
theorem Swept.sublist {S : X → Option X → Prop} {ns ns' : List (Node X)} {count count' : Int}
    (h : Swept S ns count ns' count') :
    (ns'.map Node.node).Sublist (ns.map Node.node) := by
  induction h with
  | nil => exact .slnil
  | delete hn rest ih => exact ih.cons _
  | keep hn rest ih => exact ih.cons_cons _

/-- A body that does what the one of `Table.lean` does. -/
theorem Swept.loop2 {er : X → α} {g : α → Option α} {ns ns' : List (Node X)} {count count' : Int}
    (h : Swept (fun x r => r.map er = g (er x)) ns count ns' count') :
    (ns'.map (fun n => er n.val), count') = Ecmh.loop2 g (ns.map fun n => er n.val) count := by
  induction h with
  | nil => rfl
  | delete hn rest ih =>
    rw [List.map_cons, Ecmh.loop2, ← hn]
    exact ih
  | keep hn rest ih =>
    rw [List.map_cons, List.map_cons, Ecmh.loop2, ← hn, Option.map_some, ← ih]

/-- The loop at a node, with the nodes that were kept before it. -/
theorem loop2From_triple {body : Nat → Nat → HeapM (Cell D) Unit} {S : X → Option X → Prop}
    {list : Nat}
    (hbody : ∀ (l : HList X) (pre : List (Node X)) (n : Node X) (post : List (Node X)),
      l.addr = list → l.nodes = pre ++ n :: post →
      Triple (l.cells obj) (body n.node n.data) fun _ P' =>
        ∃ r, S n.val r ∧ P' = (l.after pre n post r).cells obj) :
    ∀ (rest pre : List (Node X)) (l : HList X) {fuel : Nat}, l.addr = list →
      l.nodes = pre ++ rest → rest.length < fuel →
      Triple (l.cells obj) (loop2From body fuel (first rest none)) fun seen P' =>
        seen = rest.map Node.node ∧ ∃ l' : HList X, P' = l'.cells obj ∧ l'.addr = list ∧
          ∃ rest', l'.nodes = pre ++ rest' ∧ Swept S rest l.count rest' l'.count := by
  intro rest
  induction rest with
  | nil =>
    intro pre l fuel haddr hl hlt
    obtain ⟨fuel, rfl⟩ := Nat.exists_eq_succ_of_ne_zero (by omega : fuel ≠ 0)
    exact Triple.pure ⟨rfl, l, rfl, haddr, [], hl, .nil _⟩
  | cons n rest ih =>
    intro pre l fuel haddr hl hlt
    rw [List.length_cons] at hlt
    obtain ⟨fuel, rfl⟩ := Nat.exists_eq_succ_of_ne_zero (by omega : fuel ≠ 0)
    obtain ⟨before, F, hcells⟩ := HList.seg_mem obj hl
    refine bind_readNode hcells ((hbody l pre n rest haddr hl).bind ?_)
    rintro - P' ⟨r, hr, rfl⟩
    cases r with
    | none =>
      refine (ih pre (l.after pre n rest none) haddr rfl (by omega)).bind ?_
      rintro seen P' ⟨rfl, l', hl', haddr', rest', hrest', hsw⟩
      exact Triple.pure ⟨rfl, l', hl', haddr', rest', hrest', .delete hr hsw⟩
    | some x =>
      refine (ih (pre ++ [{ n with val := x }]) (l.after pre n rest (some x)) haddr ?_
        (by omega)).bind ?_
      · rw [List.append_assoc]
        rfl
      · rintro seen P' ⟨rfl, l', hl', haddr', rest', hrest', hsw⟩
        refine Triple.pure ⟨rfl, l', hl', haddr', _, ?_, .keep hr hsw⟩
        rw [hrest', List.append_assoc]
        rfl

/-- **`LIST_LOOP2`** is at every node that was in the list, once, whatever its body deletes on the
way. -/
theorem listLoop2_swept {body : Nat → Nat → HeapM (Cell D) Unit} {S : X → Option X → Prop}
    (l : HList X)
    (hbody : ∀ (l' : HList X) (pre : List (Node X)) (n : Node X) (post : List (Node X)),
      l'.addr = l.addr → l'.nodes = pre ++ n :: post →
      Triple (l'.cells obj) (body n.node n.data) fun _ P' =>
        ∃ r, S n.val r ∧ P' = (l'.after pre n post r).cells obj) :
    Triple (l.cells obj) (listLoop2 body l.addr) fun seen P' =>
      seen = l.nodes.map Node.node ∧ ∃ l' : HList X, P' = l'.cells obj ∧ l'.addr = l.addr ∧
        Swept S l.nodes l.count l'.nodes l'.count := by
  refine Triple.bind_addresses fun fuel hfuel => bind_readList rfl ?_
  have hlen := l.length_le_card obj
  refine (loop2From_triple obj hbody l.nodes [] l rfl rfl (by omega)).imp ?_
  rintro seen P' ⟨hseen, l', hl', haddr, rest', hrest', hsw⟩
  rw [List.nil_append] at hrest'
  exact ⟨hseen, l', hl', haddr, hrest' ▸ hsw⟩

/-- It comes to the list of `Table.lean`. -/
theorem listLoop2_triple {body : Nat → Nat → HeapM (Cell D) Unit} (er : X → α) {g : α → Option α}
    (l : HList X)
    (hbody : ∀ (l' : HList X) (pre : List (Node X)) (n : Node X) (post : List (Node X)),
      l'.addr = l.addr → l'.nodes = pre ++ n :: post →
      Triple (l'.cells obj) (body n.node n.data) fun _ P' =>
        ∃ r : Option X, r.map er = g (er n.val) ∧ P' = (l'.after pre n post r).cells obj) :
    Triple (l.cells obj) (listLoop2 body l.addr) fun _ P' =>
      ∃ l' : HList X, P' = l'.cells obj ∧ l'.addr = l.addr ∧
        l'.toCList er = Ecmh.listLoop2 g (l.toCList er) := by
  refine (listLoop2_swept obj (S := fun x r => r.map er = g (er x)) l hbody).imp ?_
  rintro seen P' ⟨-, l', hl', haddr, hsw⟩
  refine ⟨l', hl', haddr, ?_⟩
  have hloop := hsw.loop2
  rw [HList.toCList, Ecmh.listLoop2, HList.toCList, ← hloop]

/-- The loop, and the counter that is read behind it. -/
theorem loop2_count_triple {body : Nat → Nat → HeapM (Cell D) Unit} (er : X → α) {g : α → Option α}
    (l : HList X)
    (hbody : ∀ (l' : HList X) (pre : List (Node X)) (n : Node X) (post : List (Node X)),
      l'.addr = l.addr → l'.nodes = pre ++ n :: post →
      Triple (l'.cells obj) (body n.node n.data) fun _ P' =>
        ∃ r : Option X, r.map er = g (er n.val) ∧ P' = (l'.after pre n post r).cells obj) :
    Triple (l.cells obj) (do
        let _ ← listLoop2 body l.addr
        let hdr ← readList l.addr
        pure hdr.count) fun count P' =>
      ∃ l' : HList X, P' = l'.cells obj ∧ l'.addr = l.addr ∧
        l'.toCList er = Ecmh.listLoop2 g (l.toCList er) ∧ count = (l'.toCList er).count := by
  refine (listLoop2_triple obj er l hbody).bind ?_
  rintro seen P' ⟨l', rfl, haddr, her⟩
  rw [← haddr]
  exact bind_readList rfl (Triple.pure ⟨l', rfl, rfl, her, rfl⟩)

/-- A body that works on the object, and then deletes its node and destroys it, depending on a
counter. -/
theorem sweep_triple {m : HeapM (Cell D) Int} {del : Nat → HeapM (Cell D) Unit}
    {drop : Int → Prop} [DecidablePred drop] {er : X → α} {r : Option α} {l : HList X}
    {pre post : List (Node X)} {n : Node X} (hn : l.nodes = pre ++ n :: post)
    (hm : Triple (obj n.data n.val) m fun count P' =>
      ∃ x, P' = obj n.data x ∧ r = if drop count then none else some (er x))
    (hdel : ∀ x, Triple (obj n.data x) (del n.data) fun _ P' => P' = 0) :
    Triple (l.cells obj) (do
        let count ← m
        if drop count then do
          listDeleteNode l.addr n.node
          del n.data
        else pure ()) fun _ P' =>
      ∃ r' : Option X, r'.map er = r ∧ P' = (l.after pre n post r').cells obj := by
  refine (HList.triple_at obj hn hm).bind ?_
  rintro count P' ⟨x, rfl, rfl⟩
  split
  · refine Triple.seq rfl (listDeleteNode_triple obj (l := l.put pre n post x)
      (n := ⟨n.node, n.data, x⟩) rfl) fun _ =>
      Triple.done (add_comm _ _) ((hdel x).frame_eq _) fun _ => ⟨none, rfl, ?_⟩
    rw [zero_add]
    rfl
  · exact Triple.pure ⟨some x, rfl, rfl⟩

/-! ## 6. Objects that have a list -/

/-- What is done with the list of an object. -/
theorem HList.field_triple {m : HeapM (Cell D) α} {S : α → HList X → Prop} {l : HList X}
    (hm : Triple (l.cells obj) m fun r P' =>
      ∃ l' : HList X, P' = l'.cells obj ∧ l'.addr = l.addr ∧ S r l') (d : Nat) (c : Cell D) :
    Triple ({(d, c)} + l.cells obj) m fun r P' =>
      ∃ l' : HList X, P' = {(d, c)} + l'.cells obj ∧ l'.addr = l.addr ∧ S r l' := by
  rw [add_comm]
  refine (hm.frame _).imp ?_
  rintro r P' ⟨P1, rfl, l', rfl, haddr, hs⟩
  exact ⟨l', add_comm _ _, haddr, hs⟩

/-- The object is allocated, and then its list, which is empty. -/
theorem create_triple (al : Allocator (Cell D)) (c : Cell D) (c' : Nat → Cell D) :
    Triple F (do
        let d ← alloc al c
        let list ← listNew al
        write d (c' list)
        pure d) fun d P' =>
      ∃ list, P' = F + ({(d, c' list)} + (⟨list, [], 0⟩ : HList X).cells obj) := by
  refine Triple.bind_alloc fun d => Triple.bind_alloc fun list => ?_
  refine Triple.bind_write (F := {(list, .list ⟨none, none, 0⟩)} + F) (by abel) ?_
  refine Triple.pure ⟨list, ?_⟩
  rw [HList.cells]
  dsimp only [HList.hdr, first, last, seg, objs_nil]
  abel

/-- The list is emptied and the object freed: nothing is left that anybody points to. -/
theorem destroy_triple {del : Nat → HeapM (Cell D) Unit}
    (hdel : ∀ d x, Triple (obj d x) (del d) fun _ P' => P' = 0) (d : Nat) (c : Cell D)
    (l : HList X) : Triple ({(d, c)} + l.cells obj) (do
        listDeleteAllNode del l.addr
        free d) fun _ P' => P' = 0 := by
  refine Triple.seq (add_comm _ _) ((listDeleteAllNode_triple obj hdel l).frame_eq _) fun _ => ?_
  refine (Triple.free (add_comm _ _)).conseq ?_
  rintro - P' rfl
  exact ⟨0, _, (zero_add _).symm, rfl⟩

end

end Ecmh.OnHeap
