/-
# The counters of the lists

A `struct list` counts its nodes, and the daemon decides on the counter.  For the subscriptions it
is a mark as well: the reduction handler stores `-ECMH_ROBUSTNESS_FACTOR` in the counter of an empty
list, past the list module, and `timeout` deletes what is marked.

`list_counters` says that the lists are well-formed all the same, seen from memory, with true
counters: what each operation does to any list, and what a reader of the heap finds in every state
that the daemon reaches.
-/
import Ecmh.HeapRefines

namespace Ecmh.OnHeap

open CellHeap Linked

variable {D X : Type}

/-! ## 1. What a reader of the heap finds -/

/-- A list at an address, with this header and these nodes, which are different: the walk along
`next` from the head and the walk along `prev` from the tail come to them, in opposite order, the
tail has no next node and the head no previous one. -/
structure WellFormed (h : Heap (Cell D)) (list : Nat) (hdr : ListHdr) (nodes : List Nat) :
    Prop where
  header : h.get list = some (.list hdr)
  nodup : nodes.Nodup
  forward : Walk .listnode h Link.next hdr.head nodes
  backward : Walk .listnode h Link.prev hdr.tail nodes.reverse
  tail : ∀ tail, hdr.tail = some tail → ∃ n, h.get tail = some (.listnode n) ∧ n.next = none
  head : ∀ head, hdr.head = some head → ∃ n, h.get head = some (.listnode n) ∧ n.prev = none

/-- The list at an address is well-formed, its counter fits the number of its nodes, and what the
nodes point to is what it should be. -/
def ListTrue (h : Heap (Cell D)) (Count : Int → Nat → Prop) (Object : Nat → Prop) (list : Nat) :
    Prop :=
  ∃ hdr nodes, WellFormed h list hdr nodes ∧ Count hdr.count nodes.length ∧
    ∀ node ∈ nodes, ∃ n d, h.get node = some (.listnode n) ∧ n.data = some d ∧ Object d

/-- The counter is the number of nodes. -/
def Counted (count : Int) (length : Nat) : Prop := count = length

/-- The counter of a list of subscriptions, which may be marked when the list is empty. -/
def CountedOrMarked (count : Int) (length : Nat) : Prop :=
  (0 < length → count = length) ∧ (length = 0 → count = 0 ∨ count = -ecmhRobustnessFactor)

theorem Counted.orMarked {count : Int} {length : Nat} (h : Counted count length) :
    CountedOrMarked count length := by
  unfold Counted at h
  exact ⟨fun _ => h, fun h0 => .inl (by omega)⟩

theorem HList.wellFormed {obj : Nat → X → Cells (Cell D)} {h : Heap (Cell D)} {l : HList X}
    {R : Cells (Cell D)} (hh : Holds h (l.cells obj + R)) :
    WellFormed h l.addr l.hdr (l.nodes.map Node.node) := by
  obtain ⟨hget, -, hrest⟩ := holds_singleton_add_iff.mp hh.left
  refine ⟨hget, nodup_of_holds_seg _ hrest.left, walk_next hrest.left,
    walk_prev l.nodes hrest.left, ?_, ?_⟩
  · intro tail htail
    rcases List.eq_nil_or_concat' l.nodes with hl | ⟨pre, n, hl⟩
    · rw [HList.hdr, hl] at htail
      cases htail
    · rw [HList.hdr, hl] at htail
      dsimp only at htail
      rw [last_append] at htail
      obtain rfl : n.node = tail := Option.some.inj htail
      obtain ⟨before, F, hcells⟩ := HList.seg_mem obj hl
      have hn := hh.left
      rw [hcells] at hn
      exact ⟨_, (holds_singleton_add_iff.mp hn).1, rfl⟩
  · intro head hhead
    cases hl : l.nodes with
    | nil =>
      rw [HList.hdr, hl] at hhead
      cases hhead
    | cons n post =>
      rw [HList.hdr, hl] at hhead
      obtain rfl : n.node = head := Option.some.inj hhead
      rw [hl] at hrest
      exact ⟨_, (holds_singleton_add_iff.mp hrest.left).1, rfl⟩

theorem HList.listTrue {obj : Nat → X → Cells (Cell D)} {h : Heap (Cell D)} {l : HList X}
    {R : Cells (Cell D)} (hh : Holds h (l.cells obj + R)) {Count : Int → Nat → Prop}
    {Object : Nat → Prop} (hcount : Count l.count l.nodes.length)
    (hobj : ∀ n ∈ l.nodes, ∀ R, Holds h (obj n.data n.val + R) → Object n.data) :
    ListTrue h Count Object l.addr := by
  refine ⟨l.hdr, l.nodes.map Node.node, HList.wellFormed hh, by rwa [List.length_map], ?_⟩
  intro node hnode
  obtain ⟨n, hn, rfl⟩ := List.mem_map.mp hnode
  obtain ⟨pre, post, hl⟩ := List.append_of_mem hn
  obtain ⟨before, F, hcells⟩ := HList.seg_mem obj hl
  obtain ⟨F', hfocus, -⟩ := HList.focus obj hl
  have hseg := hh.left
  have hat := hh.left
  rw [hcells] at hseg
  rw [hfocus] at hat
  exact ⟨_, n.data, (holds_singleton_add_iff.mp hseg).1, rfl, hobj n hn F' hat⟩

/-! ## 2. The operations on one list -/

/-- Each operation on a list ends with a list at the same address and a true counter:
`listnode_add`, also where the list was marked, `list_delete_node` of any of its nodes,
`list_delete_all_node`, and `LIST_LOOP2` with a body that may delete the node it is at, which is at
all nodes of the list, each once. -/
structure CountersKept (al : Allocator (Cell D)) (obj : Nat → X → Cells (Cell D)) : Prop where
  add : ∀ (l : HList X) (d : Nat) (x : X), CountedOrMarked l.count l.nodes.length →
    Triple (l.cells obj + obj d x) (listnodeAdd al l.addr d) fun _ P' =>
      ∃ (l' : HList X) (node : Nat), P' = l'.cells obj ∧ l'.addr = l.addr ∧
        l'.nodes = l.nodes ++ [⟨node, d, x⟩] ∧ Counted l'.count l'.nodes.length
  deleteNode : ∀ (l : HList X) (pre : List (Node X)) (n : Node X) (post : List (Node X)),
    CountedOrMarked l.count l.nodes.length → l.nodes = pre ++ n :: post →
    Triple (l.cells obj) (listDeleteNode l.addr n.node) fun _ P' =>
      ∃ l' : HList X, P' = l'.cells obj + obj n.data n.val ∧ l'.addr = l.addr ∧
        l'.nodes = pre ++ post ∧ Counted l'.count l'.nodes.length
  deleteAllNode : ∀ (del : Nat → HeapM (Cell D) Unit) (l : HList X),
    (∀ d x, Triple (obj d x) (del d) fun _ P' => P' = 0) →
    Triple (l.cells obj) (listDeleteAllNode del l.addr) fun _ P' =>
      ∃ l' : HList X, P' = l'.cells obj ∧ l'.addr = l.addr ∧ l'.nodes = [] ∧ l'.count = 0
  loop2 : ∀ (body : Nat → Nat → HeapM (Cell D) Unit) (l : HList X),
    CountedOrMarked l.count l.nodes.length →
    (∀ (l' : HList X) (pre : List (Node X)) (n : Node X) (post : List (Node X)),
      l'.addr = l.addr → l'.nodes = pre ++ n :: post →
      Triple (l'.cells obj) (body n.node n.data) fun _ P' =>
        ∃ r, P' = (l'.after pre n post r).cells obj) →
    Triple (l.cells obj) (listLoop2 body l.addr) fun seen P' =>
      seen = l.nodes.map Node.node ∧ ∃ l' : HList X, P' = l'.cells obj ∧ l'.addr = l.addr ∧
        (l'.nodes.map Node.node).Sublist (l.nodes.map Node.node) ∧
        CountedOrMarked l'.count l'.nodes.length

theorem countersKept (al : Allocator (Cell D)) (obj : Nat → X → Cells (Cell D)) :
    CountersKept al obj where
  add l d x hc := by
    refine (listnodeAdd_triple obj al l d x).imp ?_
    rintro - P' ⟨node, rfl⟩
    refine ⟨_, node, rfl, rfl, rfl, ?_⟩
    obtain ⟨hpos, hzero⟩ := hc
    rw [HList.add, Counted, List.length_append, List.length_singleton]
    dsimp only
    rcases Nat.eq_zero_or_pos l.nodes.length with h0 | h0
    · rcases hzero h0 with he | he
      · rw [he, h0]
        rfl
      · rw [he, h0]
        rfl
    · rw [hpos h0, if_neg (by omega)]
      omega
  deleteNode l pre n post hc hn := by
    refine (listDeleteNode_triple obj hn).imp ?_
    rintro - P' rfl
    refine ⟨_, rfl, rfl, rfl, ?_⟩
    have hlen : l.nodes.length = (pre ++ post).length + 1 := by
      rw [hn, List.length_append, List.length_append, List.length_cons]
      omega
    have hcount := hc.1 (by omega)
    rw [Counted]
    dsimp only
    omega
  deleteAllNode del l hdel := by
    refine (listDeleteAllNode_triple obj hdel l).imp ?_
    rintro - P' rfl
    exact ⟨_, rfl, rfl, rfl, rfl⟩
  loop2 body l hc hbody := by
    refine (listLoop2_swept obj (S := fun _ _ => True) l fun l' pre n post haddr hn =>
      (hbody l' pre n post haddr hn).imp ?_).imp ?_
    · rintro - P' ⟨r, hr⟩
      exact ⟨r, trivial, hr⟩
    · rintro seen P' ⟨hseen, l', hl', haddr, hsw⟩
      refine ⟨hseen, l', hl', haddr, hsw.sublist, ?_⟩
      have hcount := hsw.count
      rcases Nat.eq_zero_or_pos l.nodes.length with h0 | h0
      · -- nothing was there to delete
        have hlen := hsw.sublist.length_le
        rw [List.length_map, List.length_map] at hlen
        refine ⟨fun hpos => by omega, fun h0' => ?_⟩
        rw [show l'.count = l.count by omega]
        exact hc.2 h0
      · have hl := hc.1 h0
        exact Counted.orMarked (by unfold Counted; omega)

/-- An object is added to a list that is empty and marked. -/
example : ((do
    let list ← listNew .next
    markEmpty list
    listnodeAdd .next list 7
    let l ← readList list
    pure l.count : TableM Int) Heap.empty).map Prod.fst = some 1 := by decide +kernel

/-- The counters after a reduction, in the table of `Table.lean`. -/
theorem reduceGrpint_counted (grpintn : GrpIntNode)
    (h : CountedOrMarked grpintn.subscriptions.count grpintn.subscriptions.nodes.length) :
    CountedOrMarked (Ecmh.reduceGrpint grpintn).subscriptions.count
      (Ecmh.reduceGrpint grpintn).subscriptions.nodes.length := by
  unfold Ecmh.reduceGrpint
  dsimp only
  split
  · exact h
  · rename_i hu
    obtain ⟨hc, hl⟩ := subscrUnsub_found (by simpa using hu)
    have hcount := h.1 (by omega)
    split
    · exact ⟨fun hpos => by dsimp only at hpos; omega, fun _ => .inr rfl⟩
    · exact Counted.orMarked (by unfold Counted; dsimp only; omega)

/-- **The reduction handler**, which marks the list that it emptied. -/
theorem reduceSubscrs_counted (l : HList SubscrNode)
    (hc : CountedOrMarked l.count l.nodes.length) :
    Triple (l.cells subscrCells) (reduceSubscrs l.addr) fun _ P' =>
      ∃ l' : HList SubscrNode, P' = l'.cells subscrCells ∧ l'.addr = l.addr ∧
        CountedOrMarked l'.count l'.nodes.length := by
  refine (reduceSubscrs_triple l 0).imp ?_
  rintro - P' ⟨l', rfl, haddr, her⟩
  refine ⟨l', rfl, haddr, ?_⟩
  have hr := reduceGrpint_counted ⟨0, l.toCList id⟩
    (by simpa [HList.toCList] using hc)
  rw [← her] at hr
  simpa [HList.toCList] using hr

/-! ## 3. The table -/

/-- The list of groups has a true counter, and so have the list of interfaces of each group and the
list of subscriptions of each group-interface. -/
def SubscriptionsTrue (h : Heap (Cell Obj)) (list : Nat) : Prop :=
  ListTrue h CountedOrMarked (fun d => ∃ s, h.get d = some (.data (.subscr s))) list

def InterfacesTrue (h : Heap (Cell Obj)) (list : Nat) : Prop :=
  ListTrue h Counted (fun d => ∃ g subscriptions, h.get d = some (.data (.grpint g)) ∧
    g.subscriptions = some subscriptions ∧ SubscriptionsTrue h subscriptions) list

def GroupsTrue (h : Heap (Cell Obj)) (list : Nat) : Prop :=
  ListTrue h Counted (fun d => ∃ g interfaces, h.get d = some (.data (.group g)) ∧
    g.interfaces = some interfaces ∧ InterfacesTrue h interfaces) list

/-- The counter of the list of groups, which no decision depends on. -/
theorem apply_counted (now : Nat) (op : TableOp) {groups : Groups}
    (h : Counted groups.count groups.nodes.length) :
    Counted (op.apply now groups).count (op.apply now groups).nodes.length := by
  have hset : ∀ {groups : Groups} (mca : In6Addr) (f : GroupNode → GroupNode),
      Counted groups.count groups.nodes.length →
      Counted (setGroup groups mca f).count (setGroup groups mca f).nodes.length := by
    intro groups mca f hc
    rw [setGroup, KeyedList.length_adjust]
    exact hc
  cases op with
  | keep => exact h
  | count dst len => exact hset dst _ h
  | refresh ifindex joins =>
    refine Runs.run_invariant (P := fun groups : Groups => Counted groups.count groups.nodes.length)
      (fun groups j hc => ?_) joins groups h
    refine hset j.mca _ ?_
    unfold Ecmh.groupintGet
    split
    · refine hset j.mca _ ?_
      unfold Counted at hc
      rw [Ecmh.listnodeAdd, Counted, List.length_append, List.length_singleton]
      dsimp only
      rw [if_neg (by omega)]
      omega
    · exact hset j.mca _ hc
  | reduce mca ifindex => exact hset mca _ h
  | sweep =>
    rw [TableOp.apply, Counted, listLoop2_count, listLoop2_nodes, h]
    have hle := List.length_filterMap_le (Ecmh.timeoutGroup now) groups.nodes
    omega

theorem reachable_counted {h : Host} {st : Conf} (hr : Reachable h st) :
    Counted st.groups.count st.groups.nodes.length := by
  obtain ⟨o, now, ifap, es, rfl⟩ := hr
  refine Runs.run_invariant (P := fun st : Conf => Counted st.groups.count st.groups.nodes.length)
    (fun st ev hc => ?_) es _ ?_
  · rw [step_groups]
    exact apply_counted ev.now _ hc
  · rw [boot_groups]
    rfl

/-- The memory of a table with the invariant has true counters. -/
theorem groupsTrue {P : SubscrNode → Prop} {h : Heap (Cell Obj)} {t : HList HGroup}
    {R : Cells (Cell Obj)} (hh : Holds h (t.cells groupCells + R))
    (hok : TableOk P (t.toCList HGroup.toNode)) (hcount : Counted t.count t.nodes.length) :
    GroupsTrue h t.addr := by
  refine HList.listTrue hh hcount fun n hn R hg => ?_
  have hgroup := hok.all _ (List.mem_map_of_mem hn)
  rw [groupCells, add_assoc] at hg
  obtain ⟨hget, -, hint⟩ := holds_singleton_add_iff.mp hg
  refine ⟨_, _, hget, rfl, HList.listTrue hint ?_ fun n' hn' R' hi => ?_⟩
  · have hc := hgroup.count
    simpa [HGroup.toNode, HList.toCList, Counted] using hc
  have hsub := hgroup.all _ (List.mem_map_of_mem hn')
  rw [grpintCells, add_assoc] at hi
  obtain ⟨hget', -, hsubs⟩ := holds_singleton_add_iff.mp hi
  refine ⟨_, _, hget', rfl, HList.listTrue hsubs ?_ fun n'' _ R'' hs => ?_⟩
  · have hc := hsub.count
    simp only [HGrpInt.toNode, HList.toCList, List.length_map, List.map_eq_nil_iff] at hc
    rcases hc with hc | ⟨hnil, hc⟩
    · exact Counted.orMarked hc
    · rw [hnil, hc]
      exact ⟨fun hpos => absurd hpos (Nat.lt_irrefl 0), fun _ => .inr rfl⟩
  · exact ⟨n''.val, (holds_singleton_add_iff.mp hs).1⟩

/-! ## 4. Runs -/

/-- A step of the daemon, with the table in memory: the operation is that of the event in a state
whose table is empty, so that nothing but the heap is asked for what the table holds. -/
def stepOnHeap (al : Allocator (Cell Obj)) (h : Host) (groups : Nat) (s : Conf × Heap (Cell Obj))
    (ev : Event) : Option (Conf × Heap (Cell Obj)) :=
  (tableOpOnHeap al ev.now groups (tableOp h (s.1.setGroups Ecmh.listNew) ev) s.2).map fun r =>
    (step h s.1 ev, r.2)

/-- A run, in which no step may fail. -/
def runOnHeap (al : Allocator (Cell Obj)) (h : Host) (groups : Nat) (s : Conf × Heap (Cell Obj))
    (es : List Event) : Option (Conf × Heap (Cell Obj)) := es.foldlM (stepOnHeap al h groups) s

/-- The heap has the table of this state, at this address. -/
def Represents (groups : Nat) (R : Cells (Cell Obj)) (s : Conf × Heap (Cell Obj)) : Prop :=
  ∃ t : HList HGroup, t.addr = groups ∧ Holds s.2 (t.cells groupCells + R) ∧
    t.toCList HGroup.toNode = s.1.groups

/-- A step in memory succeeds, and is the step. -/
theorem stepOnHeap_represents (al : Allocator (Cell Obj)) (h : Host) {groups : Nat}
    {R : Cells (Cell Obj)} {s : Conf × Heap (Cell Obj)} (hs : Represents groups R s) (ev : Event) :
    ∃ heap, stepOnHeap al h groups s ev = some (step h s.1 ev, heap) ∧
      Represents groups R (step h s.1 ev, heap) := by
  obtain ⟨t, rfl, hheld, her⟩ := hs
  obtain ⟨r, heap, P', hrun, ⟨t', rfl, haddr, her'⟩, hheld'⟩ :=
    tableOp_triple al ev.now (tableOp h s.1 ev) t s.2 R hheld
  refine ⟨heap, ?_, t', haddr, hheld', ?_⟩
  · rw [stepOnHeap, tableOp_setGroups, hrun]
    rfl
  · rw [her', her, step_groups]

theorem runOnHeap_represents (al : Allocator (Cell Obj)) (h : Host) {groups : Nat}
    {R : Cells (Cell Obj)} : ∀ (es : List Event) {s : Conf × Heap (Cell Obj)},
    Represents groups R s → ∃ heap, runOnHeap al h groups s es = some (run h s.1 es, heap) ∧
      Represents groups R (run h s.1 es, heap)
  | [], s, hs => ⟨s.2, rfl, hs⟩
  | ev :: es, s, hs => by
    obtain ⟨heap, hstep, hs1⟩ := stepOnHeap_represents al h hs ev
    obtain ⟨heap', hrun, hs2⟩ := runOnHeap_represents al h es hs1
    refine ⟨heap', ?_, hs2⟩
    rw [runOnHeap, List.foldlM_cons, hstep]
    exact hrun

/-- `list_new` in `init`. -/
theorem listNew_represents (al : Allocator (Cell Obj)) (heap : Heap (Cell Obj)) (st : Conf)
    (hst : st.groups = Ecmh.listNew) :
    ∃ groups heap', listNew al heap = some (groups, heap') ∧ Represents groups 0 (st, heap') := by
  obtain ⟨groups, heap', P', hrun, rfl, hheld⟩ := Triple.alloc (P := 0) al
    (Cell.list ⟨none, none, 0⟩) heap 0 (Holds.zero heap)
  refine ⟨groups, heap', hrun, ⟨groups, [], 0⟩, rfl, ?_, hst.symm⟩
  simpa [HList.cells, HList.hdr, first, last, seg] using hheld

/-- **The counters of the lists tell the truth.**  Each operation on a list, in whatever heap, keeps
it well-formed with a true counter, and so does the reduction handler, which marks an empty list.
In every state that the daemon reaches, the table in memory is the one of the state, and all its
lists are well-formed with true counters: those of groups and of interfaces count their nodes, and
those of subscriptions do, or are empty and marked. -/
theorem list_counters :
    (∀ (D X : Type) (al : Allocator (Cell D)) (obj : Nat → X → Cells (Cell D)),
      CountersKept al obj ∧ ∀ (h : Heap (Cell D)) (l : HList X) (R : Cells (Cell D)),
        Holds h (l.cells obj + R) → WellFormed h l.addr l.hdr (l.nodes.map Node.node)) ∧
    (∀ l : HList SubscrNode, CountedOrMarked l.count l.nodes.length →
      Triple (l.cells subscrCells) (reduceSubscrs l.addr) fun _ P' =>
        ∃ l' : HList SubscrNode, P' = l'.cells subscrCells ∧ l'.addr = l.addr ∧
          CountedOrMarked l'.count l'.nodes.length) ∧
    ∀ (al : Allocator (Cell Obj)) (h : Host) (o : Options) (now : Nat)
      (ifap : Option (List IfAddr)) (es : List Event) (heap : Heap (Cell Obj)),
      ∃ groups heap0 heap', listNew al heap = some (groups, heap0) ∧
        runOnHeap al h groups (boot h o now ifap, heap0) es
          = some (run h (boot h o now ifap) es, heap') ∧
        (∃ t : HList HGroup, t.addr = groups ∧ Holds heap' (t.cells groupCells) ∧
          t.toCList HGroup.toNode = (run h (boot h o now ifap) es).groups) ∧
        GroupsTrue heap' groups := by
  refine ⟨fun D X al obj => ⟨countersKept al obj, fun _ _ _ hh => HList.wellFormed hh⟩,
    reduceSubscrs_counted, ?_⟩
  intro al h o now ifap es heap
  obtain ⟨groups, heap0, hnew, hrep⟩ := listNew_represents al heap (boot h o now ifap)
    (boot_groups h o now ifap)
  obtain ⟨heap', hrun, t, rfl, hheld, her⟩ := runOnHeap_represents al h es hrep
  have hreach : Reachable h (run h (boot h o now ifap) es) := ⟨o, now, ifap, es, rfl⟩
  refine ⟨t.addr, heap0, heap', hnew, hrun, ⟨t, rfl, hheld.left, her⟩, ?_⟩
  have hok := reachable_tableOk hreach
  have hcount := reachable_counted hreach
  rw [← her] at hok hcount
  refine groupsTrue hheld hok ?_
  simpa [HList.toCList] using hcount

/-- A list with the subscription that a report leaves. -/
def loneSubscription : HList SubscrNode :=
  ⟨0, [⟨1, 2, Ecmh.subscrCreate 0 In6Addr.any mld2ModeIsInclude⟩], 1⟩

theorem loneSubscription_counted :
    CountedOrMarked loneSubscription.count loneSubscription.nodes.length :=
  Counted.orMarked (show Counted 1 1 from rfl)

/-- The node of that list is taken out, by itself and by a reduction. -/
theorem lone_subscription_left :
    (Triple (loneSubscription.cells subscrCells)
      (listDeleteNode loneSubscription.addr 1) fun _ P' =>
      ∃ l' : HList SubscrNode, P' = l'.cells subscrCells +
        subscrCells 2 (Ecmh.subscrCreate 0 In6Addr.any mld2ModeIsInclude) ∧
        l'.addr = loneSubscription.addr ∧ l'.nodes = [] ∧ Counted l'.count l'.nodes.length) ∧
    Triple (loneSubscription.cells subscrCells) (reduceSubscrs loneSubscription.addr) fun _ P' =>
      ∃ l' : HList SubscrNode, P' = l'.cells subscrCells ∧ l'.addr = loneSubscription.addr ∧
        CountedOrMarked l'.count l'.nodes.length :=
  ⟨(list_counters.1 Obj SubscrNode .next subscrCells).1.deleteNode loneSubscription [] _ []
    loneSubscription_counted rfl, list_counters.2.1 loneSubscription loneSubscription_counted⟩

end Ecmh.OnHeap
