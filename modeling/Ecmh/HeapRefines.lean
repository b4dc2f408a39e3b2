/-
# The table in memory is the table

The functions of `HeapTable.lean` do on memory what the functions of `Table.lean`, `TableOp.lean`
and `Daemon.lean` do on the table.  Each triple begins with the memory of one object, or of the
whole table, and says which object or table it is the memory of afterwards; what else the heap holds
is left alone.

`tableOp_triple` puts them together: an operation on the heap always comes to an end, touches no
memory that is not the table's, and leaves the memory of the table that `TableOp.apply` gives.
-/
import Ecmh.HeapTable
import Ecmh.Invariant

namespace Ecmh.OnHeap

open CellHeap Linked

variable {α κ X : Type} {P F : Cells (Cell Obj)} {Q : α → Cells (Cell Obj) → Prop} {a : Nat}

/-! ## 1. Objects -/

/-- A read of an object that is held: the rest of the program runs with its value. -/
theorem bind_readSubscr {s : SubscrNode} {k : SubscrNode → TableM α}
    (hP : P = {(a, .data (.subscr s))} + F) (hk : Triple P (k s) Q) :
    Triple P (readSubscr a >>= k) Q := Triple.bind_readAs rfl hP hk

theorem bind_readGrpint {g : GrpIntObj} {k : GrpIntObj → TableM α}
    (hP : P = {(a, .data (.grpint g))} + F) (hk : Triple P (k g) Q) :
    Triple P (readGrpint a >>= k) Q := Triple.bind_readAs rfl hP hk

theorem bind_readGroup {g : GroupObj} {k : GroupObj → TableM α}
    (hP : P = {(a, .data (.group g))} + F) (hk : Triple P (k g) Q) :
    Triple P (readGroup a >>= k) Q := Triple.bind_readAs rfl hP hk

/-- A write to the fields of a group that is held. -/
theorem modifyGroup_triple {g : GroupObj} (hP : P = {(a, .data (.group g))} + F)
    (f : GroupObj → GroupObj) :
    Triple P (modifyGroup a f) fun _ P' => P' = {(a, .data (.group (f g)))} + F :=
  bind_readGroup hP (Triple.write hP _)

/-! ## 2. Searches -/

/-- What the search by a key finds in the list without addresses. -/
theorem HList.find_toCList [DecidableEq κ] {er : X → α} {key : α → κ} (l : HList X) (k : κ) :
    KeyedList.find key k (l.toCList er).nodes
      = (l.nodes.find? fun n => decide (key (er n.val) = k)).map fun n => er n.val :=
  List.find?_map

/-- The object of the first node with the key is changed. -/
theorem HList.First.toCList_put [DecidableEq κ] (er : X → α) (key : α → κ) {k : κ} {l : HList X}
    {pre post : List (Node X)} {n : Node X} (h : l.First (fun x => key (er x)) k pre n post)
    {f : α → α} {x : X} (hx : er x = f (er n.val)) : (l.put pre n post x).toCList er
      = { l.toCList er with nodes := KeyedList.adjust key k f (l.toCList er).nodes } := by
  have hpre : ∀ y ∈ pre.map (fun n => er n.val), key y ≠ k := by
    intro y hy
    obtain ⟨m, hm, rfl⟩ := List.mem_map.mp hy
    exact h.before m hm
  rw [HList.toCList, HList.toCList, HList.put, h.nodes, List.map_append, List.map_append,
    List.map_cons, List.map_cons, KeyedList.adjust_middle f h.key _ hpre]
  dsimp only
  rw [hx]

/-- The first node with the key is deleted. -/
theorem HList.First.toCList_delete [DecidableEq κ] (er : X → α) (key : α → κ) {k : κ} {l : HList X}
    {pre post : List (Node X)} {n : Node X} (h : l.First (fun x => key (er x)) k pre n post) :
    ({ l with nodes := pre ++ post, count := l.count - 1 } : HList X).toCList er
      = Ecmh.listDeleteNode (l.toCList er) (fun y => key y = k) := by
  have hpre : ∀ y ∈ pre.map (fun n => er n.val), ¬ decide (key y = k) = true := by
    intro y hy
    obtain ⟨m, hm, rfl⟩ := List.mem_map.mp hy
    simpa using h.before m hm
  rw [HList.toCList, HList.toCList, Ecmh.listDeleteNode, h.nodes, List.map_append, List.map_append,
    List.map_cons, List.eraseP_append_right _ hpre, List.eraseP_cons_of_pos (by simpa using h.key)]

/-- The loop of `subscr_unsub` finds the first node of the source, and frees nothing. -/
theorem subscrNode_triple (l : HList SubscrNode) (ipv6 : In6Addr) :
    Triple (l.cells subscrCells) (subscrNode l.addr ipv6) fun r P' =>
      r = (l.nodes.find? fun n => decide (n.val.ipv6 = ipv6)).map (fun n => (n.node, n.data)) ∧
        P' = l.cells subscrCells :=
  listFind_triple subscrCells (p := fun s => decide (s.ipv6 = ipv6))
    (fun _ _ => bind_readSubscr (add_zero _).symm (Triple.pure ⟨rfl, rfl⟩)) l

/-- `subscr_find` walks the list and leaves it as it was. -/
theorem subscrFind_triple (l : HList SubscrNode) (ipv6 : In6Addr) :
    Triple (l.cells subscrCells) (subscrFind l.addr ipv6) fun r P' =>
      r = (l.nodes.find? fun n => decide (n.val.ipv6 = ipv6)).map Node.data ∧
        P' = l.cells subscrCells :=
  listFind_data_triple subscrCells (p := fun s => decide (s.ipv6 = ipv6))
    (fun _ _ => bind_readSubscr (add_zero _).symm (Triple.pure ⟨rfl, rfl⟩)) l

/-- So does `grpint_find`. -/
theorem grpintFind_triple (l : HList HGrpInt) (ifindex : Nat) :
    Triple (l.cells grpintCells) (grpintFind l.addr ifindex) fun r P' =>
      r = (l.nodes.find? fun n => decide (n.val.ifindex = ifindex)).map Node.data ∧
        P' = l.cells grpintCells :=
  listFind_data_triple grpintCells (p := fun g => decide (g.ifindex = ifindex))
    (fun _ _ => bind_readGrpint rfl (Triple.pure ⟨rfl, rfl⟩)) l

/-- So does `group_find`, over the lists of the groups that it passes. -/
theorem groupFind_triple (t : HList HGroup) (mca : In6Addr) :
    Triple (t.cells groupCells) (groupFind t.addr mca) fun r P' =>
      r = (t.nodes.find? fun n => decide (n.val.mca = mca)).map Node.data ∧
        P' = t.cells groupCells :=
  listFind_data_triple groupCells (p := fun g => decide (g.mca = mca))
    (fun _ _ => bind_readGroup rfl (Triple.pure ⟨rfl, rfl⟩)) t

/-! ## 3. Subscriptions -/

/-- `subscr_unsub` unlinks the node, and frees it with its data. -/
theorem subscrUnsub_triple (l : HList SubscrNode) (ipv6 : In6Addr) :
    Triple (l.cells subscrCells) (subscrUnsub l.addr ipv6) fun r P' =>
      ∃ l' : HList SubscrNode, P' = l'.cells subscrCells ∧ l'.addr = l.addr ∧
        (l'.toCList id, r) = Ecmh.subscrUnsub (l.toCList id) ipv6 := by
  refine (subscrNode_triple l ipv6).bind ?_
  rintro r P' ⟨rfl, rfl⟩
  have hfind : Ecmh.subscrFind (l.toCList id) ipv6 = _ := l.find_toCList ipv6
  unfold Ecmh.subscrUnsub
  cases hf : l.nodes.find? fun n => decide (n.val.ipv6 = ipv6) with
  | none =>
    rw [show (l.nodes.find? fun n => decide ((id n.val).ipv6 = ipv6)) = none from hf] at hfind
    rw [hfind]
    exact Triple.pure ⟨l, rfl, rfl, rfl⟩
  | some n =>
    rw [show (l.nodes.find? fun n => decide ((id n.val).ipv6 = ipv6)) = some n from hf] at hfind
    rw [hfind]
    obtain ⟨pre, post, h⟩ := HList.First.of_find hf
    refine Triple.seq rfl (listDeleteNode_triple subscrCells h.nodes) fun _ =>
      Triple.seq rfl (Triple.free (add_comm _ _)) fun _ => Triple.pure ⟨_, rfl, rfl, ?_⟩
    rw [HList.First.toCList_delete id SubscrNode.ipv6 h]
    rfl

/-- A subscription that was found is written to in place. -/
theorem subscrStamp_triple {l : HList SubscrNode} {ipv6 : In6Addr}
    {pre post : List (Node SubscrNode)} {n : Node SubscrNode}
    (h : l.First SubscrNode.ipv6 ipv6 pre n post) (now mode : Nat) :
    Triple (l.cells subscrCells) (subscrStamp now n.data mode) fun _ P' =>
      ∃ l' : HList SubscrNode, P' = l'.cells subscrCells ∧ l'.addr = l.addr ∧
        l'.toCList id = setSubscr (l.toCList id) ipv6
          (fun s => { s with mode := mode, refreshtime := now }) := by
  have hstamp : Triple (subscrCells n.data n.val) (subscrStamp now n.data mode) fun _ P' =>
      ∃ s, P' = subscrCells n.data s ∧ s = { n.val with mode := mode, refreshtime := now } := by
    refine bind_readSubscr (add_zero _).symm (Triple.done rfl
      (Triple.write (add_zero _).symm _) fun _ => ⟨_, ?_, rfl⟩)
    rw [add_zero]
    rfl
  refine (HList.triple_at subscrCells h.nodes hstamp).imp ?_
  rintro - P' ⟨s, rfl, rfl⟩
  exact ⟨_, rfl, rfl, HList.First.toCList_put id SubscrNode.ipv6 h rfl⟩

/-- One that was not is allocated, and linked at the end. -/
theorem subscrAdd_triple (al : Allocator (Cell Obj)) (now : Nat) (l : HList SubscrNode)
    (ipv6 : In6Addr) (mode : Nat) :
    Triple (l.cells subscrCells) (subscrAdd al now l.addr ipv6 mode) fun subscrn P' =>
      ∃ node, P' = (l.add ⟨node, subscrn, Ecmh.subscrCreate now ipv6 mode⟩).cells subscrCells := by
  refine Triple.bind_alloc fun subscrn => ?_
  rw [add_comm]
  refine (listnodeAdd_triple subscrCells al l subscrn (Ecmh.subscrCreate now ipv6 mode)).bind ?_
  rintro - P' ⟨node, rfl⟩
  exact Triple.pure ⟨node, rfl⟩

/-- Either way the list is what `grpint_refresh` makes of it. -/
theorem subscrRefresh_triple (al : Allocator (Cell Obj)) (now : Nat) (l : HList SubscrNode)
    (ipv6 : In6Addr) (mode : Nat) :
    Triple (l.cells subscrCells) (subscrRefresh al now l.addr ipv6 mode) fun _ P' =>
      ∃ l' : HList SubscrNode, P' = l'.cells subscrCells ∧ l'.addr = l.addr ∧
        l'.toCList id = if mode = mld2ModeIsExclude ∧ in6IsAddrUnspecified ipv6 then l.toCList id
          else setSubscr (subscrGet now (l.toCList id) ipv6 mode) ipv6
            (fun s => { s with mode := mode, refreshtime := now }) := by
  refine (subscrFind_triple l ipv6).bind ?_
  rintro found P' ⟨rfl, rfl⟩
  split
  · exact Triple.pure ⟨l, rfl, rfl, rfl⟩
  have hfind : Ecmh.subscrFind (l.toCList id) ipv6
      = (l.nodes.find? fun n => decide (n.val.ipv6 = ipv6)).map fun n => n.val :=
    l.find_toCList ipv6
  unfold subscrGet
  rw [hfind]
  cases hf : l.nodes.find? fun n => decide (n.val.ipv6 = ipv6) with
  | some n =>
    obtain ⟨pre, post, h⟩ := HList.First.of_find hf
    exact subscrStamp_triple h now mode
  | none =>
    refine (subscrAdd_triple al now l ipv6 mode).bind ?_
    rintro subscrn P' ⟨node, rfl⟩
    -- the new subscription is the first one, for there is no other
    have h : (l.add ⟨node, subscrn, Ecmh.subscrCreate now ipv6 mode⟩).First SubscrNode.ipv6 ipv6
        l.nodes ⟨node, subscrn, Ecmh.subscrCreate now ipv6 mode⟩ [] :=
      ⟨rfl, fun m hm => by simpa using List.find?_eq_none.mp hf m hm, rfl⟩
    refine (subscrStamp_triple h now mode).imp ?_
    rintro - P' ⟨l', hl', haddr, her⟩
    refine ⟨l', hl', haddr, ?_⟩
    rw [her, HList.toCList_add]
    rfl

/-! ## 4. Group-interfaces -/

/-- What is done with the subscriptions of a group-interface. -/
theorem grpint_field {m : TableM α} {S : α → HList SubscrNode → Prop} {l : HList SubscrNode}
    (hm : Triple (l.cells subscrCells) m fun r P' =>
      ∃ l' : HList SubscrNode, P' = l'.cells subscrCells ∧ l'.addr = l.addr ∧ S r l')
    (d ifindex : Nat) : Triple (grpintCells d ⟨ifindex, l⟩) m fun r P' =>
      ∃ l' : HList SubscrNode, P' = grpintCells d ⟨ifindex, l'⟩ ∧ S r l' := by
  refine (HList.field_triple subscrCells hm d _).imp ?_
  rintro r P' ⟨l', rfl, haddr, hs⟩
  exact ⟨l', by rw [grpintCells, haddr], hs⟩

/-- **`grpint_refresh`** on the heap is `grpint_refresh` on the list. -/
theorem grpintRefresh_triple (al : Allocator (Cell Obj)) (now d : Nat) (g : HGrpInt)
    (ipv6 : In6Addr) (mode : Nat) :
    Triple (grpintCells d g) (grpintRefresh al now d ipv6 mode) fun _ P' =>
      ∃ g', P' = grpintCells d g' ∧
        g'.toNode = Ecmh.grpintRefresh now g.toNode ipv6 mode := by
  refine bind_readGrpint rfl (bind_deref ?_)
  refine (grpint_field (subscrRefresh_triple al now g.subscriptions ipv6 mode) d g.ifindex).imp ?_
  rintro - P' ⟨l', rfl, her⟩
  refine ⟨_, rfl, ?_⟩
  unfold Ecmh.grpintRefresh HGrpInt.toNode
  rw [her]
  split <;> rfl

/-- The calls of `grpint_refresh` for one group-interface. -/
theorem refreshRows_triple (al : Allocator (Cell Obj)) (now d : Nat) :
    ∀ (rows : List (In6Addr × Nat)) (g : HGrpInt),
      Triple (grpintCells d g) (rows.forM fun row => grpintRefresh al now d row.1 row.2)
        fun _ P' => ∃ g', P' = grpintCells d g' ∧ g'.toNode = refreshRows now rows g.toNode
  | [], g => Triple.pure ⟨g, rfl, rfl⟩
  | row :: rows, g => by
    rw [List.forM]
    refine (grpintRefresh_triple al now d g row.1 row.2).bind ?_
    rintro - P' ⟨g', rfl, her⟩
    refine (refreshRows_triple al now d rows g').imp ?_
    rintro - P' ⟨g'', rfl, her'⟩
    refine ⟨g'', rfl, ?_⟩
    rw [her', her]
    rfl

/-- Nothing is taken out where nothing is found. -/
theorem subscrUnsub_not_found {list list' : CList SubscrNode} {ipv6 : In6Addr}
    (h : (list', false) = Ecmh.subscrUnsub list ipv6) : list' = list := by
  unfold Ecmh.subscrUnsub at h
  split at h
  · exact nomatch h
  · exact congrArg Prod.fst h

/-- The counter is set to `-2` where the list has become empty. -/
theorem reduceSubscrs_triple (l : HList SubscrNode) (ifindex : Nat) :
    Triple (l.cells subscrCells) (reduceSubscrs l.addr) fun _ P' =>
      ∃ l' : HList SubscrNode, P' = l'.cells subscrCells ∧ l'.addr = l.addr ∧
        (⟨ifindex, l'.toCList id⟩ : GrpIntNode)
          = Ecmh.reduceGrpint ⟨ifindex, l.toCList id⟩ := by
  refine (subscrUnsub_triple l In6Addr.any).bind ?_
  rintro found P' ⟨l', rfl, haddr, her⟩
  unfold Ecmh.reduceGrpint
  dsimp only
  rw [← her, ← haddr]
  cases found with
  | false => exact Triple.pure ⟨l', rfl, rfl, by rw [subscrUnsub_not_found her]; rfl⟩
  | true =>
    refine bind_readList rfl ?_
    rw [show l'.hdr.count = (l'.toCList id).count from rfl, Bool.not_true,
      if_neg Bool.false_ne_true]
    split
    · exact Triple.done rfl (modifyList_triple rfl _) fun _ =>
        ⟨{ l' with count := -ecmhRobustnessFactor }, rfl, rfl, rfl⟩
    · exact Triple.pure ⟨l', rfl, rfl, rfl⟩

/-- **A reduction** on a group-interface. -/
theorem reduceGrpint_triple (d : Nat) (g : HGrpInt) :
    Triple (grpintCells d g) (reduceGrpint d) fun _ P' =>
      ∃ g', P' = grpintCells d g' ∧ g'.toNode = Ecmh.reduceGrpint g.toNode := by
  refine bind_readGrpint rfl (bind_deref ?_)
  refine (grpint_field (reduceSubscrs_triple g.subscriptions g.ifindex) d g.ifindex).imp ?_
  rintro - P' ⟨l', rfl, her⟩
  exact ⟨_, rfl, her⟩

/-- `grpint_create`, and its empty list. -/
theorem grpintCreate_triple (al : Allocator (Cell Obj)) (ifindex : Nat) :
    Triple P (grpintCreate al ifindex) fun d P' =>
      ∃ list, P' = P + grpintCells d ⟨ifindex, ⟨list, [], 0⟩⟩ :=
  create_triple subscrCells al _ fun list => .data (.grpint ⟨ifindex, some list⟩)

/-- `subscr_destroy`. -/
theorem subscrDestroy_triple (d : Nat) (s : SubscrNode) :
    Triple (subscrCells d s) (subscrDestroy d) fun _ P' => P' = 0 := Triple.free (add_zero _).symm

/-- `grpint_destroy`. -/
theorem grpintDestroy_triple (d : Nat) (g : HGrpInt) :
    Triple (grpintCells d g) (grpintDestroy d) fun _ P' => P' = 0 :=
  bind_readGrpint rfl (bind_deref (destroy_triple subscrCells subscrDestroy_triple d _
    g.subscriptions))

/-! ## 5. Groups -/

/-- What is done with the interfaces of a group. -/
theorem group_field {m : TableM α} {S : α → HList HGrpInt → Prop} {l : HList HGrpInt}
    (hm : Triple (l.cells grpintCells) m fun r P' =>
      ∃ l' : HList HGrpInt, P' = l'.cells grpintCells ∧ l'.addr = l.addr ∧ S r l')
    (d : Nat) (mca : In6Addr) (lastforward bytes packets : Nat) :
    Triple (groupCells d ⟨mca, l, lastforward, bytes, packets⟩) m fun r P' =>
      ∃ l' : HList HGrpInt, P' = groupCells d ⟨mca, l', lastforward, bytes, packets⟩ ∧
        S r l' := by
  refine (HList.field_triple grpintCells hm d _).imp ?_
  rintro r P' ⟨l', rfl, haddr, hs⟩
  exact ⟨l', by rw [groupCells, haddr], hs⟩

/-- The group-interface that is found. -/
theorem grpintFind_toCList (l : HList HGrpInt) (ifindex : Nat) :
    Ecmh.grpintFind (l.toCList HGrpInt.toNode) ifindex
      = (l.nodes.find? fun n => decide (n.val.ifindex = ifindex)).map fun n => n.val.toNode :=
  l.find_toCList ifindex

/-- `groupint_get` on the list of interfaces. -/
theorem grpintGet_triple (al : Allocator (Cell Obj)) (l : HList HGrpInt) (ifindex : Nat) :
    Triple (l.cells grpintCells) (grpintGet al l.addr ifindex) fun r P' =>
      ∃ l' : HList HGrpInt, P' = l'.cells grpintCells ∧ l'.addr = l.addr ∧
        (l'.toCList HGrpInt.toNode
          = match Ecmh.grpintFind (l.toCList HGrpInt.toNode) ifindex with
            | some _ => l.toCList HGrpInt.toNode
            | none => Ecmh.listnodeAdd (l.toCList HGrpInt.toNode) (Ecmh.grpintCreate ifindex)) ∧
        ∃ pre n post, l'.First HGrpInt.ifindex ifindex pre n post ∧ r = n.data := by
  refine (grpintFind_triple l ifindex).bind ?_
  rintro found P' ⟨rfl, rfl⟩
  rw [grpintFind_toCList]
  cases hf : l.nodes.find? fun n => decide (n.val.ifindex = ifindex) with
  | some n =>
    obtain ⟨pre, post, h⟩ := HList.First.of_find hf
    exact Triple.pure ⟨l, rfl, rfl, rfl, pre, n, post, h, rfl⟩
  | none =>
    refine (grpintCreate_triple al ifindex).bind ?_
    rintro d P' ⟨list, rfl⟩
    refine (listnodeAdd_triple grpintCells al l d ⟨ifindex, ⟨list, [], 0⟩⟩).bind ?_
    rintro - P' ⟨node, rfl⟩
    refine Triple.pure ⟨_, rfl, rfl, HList.toCList_add _ _ _, l.nodes,
      ⟨node, d, ⟨ifindex, ⟨list, [], 0⟩⟩⟩, [], ⟨rfl, fun m hm => ?_, rfl⟩, rfl⟩
    simpa using List.find?_eq_none.mp hf m hm

/-- The group-interface that is returned is one of the group, found or new. -/
theorem groupTouch_triple (al : Allocator (Cell Obj)) (t ifindex d : Nat) (g : HGroup) :
    Triple (groupCells d g) (groupTouch al t ifindex d) fun r P' =>
      ∃ g', P' = groupCells d g' ∧ g'.toNode = Ecmh.groupTouch t ifindex g.toNode ∧
        ∃ pre n post, g'.interfaces.First HGrpInt.ifindex ifindex pre n post ∧ r = n.data := by
  refine Triple.seq rfl (modifyGroup_triple rfl _) fun _ => bind_readGroup rfl (bind_deref ?_)
  refine (group_field (grpintGet_triple al g.interfaces ifindex) d g.mca t g.bytes
    g.packets).imp ?_
  rintro r P' ⟨l', rfl, her, hfirst⟩
  refine ⟨_, rfl, ?_, hfirst⟩
  unfold Ecmh.groupTouch HGroup.toNode
  dsimp only
  rw [her]
  rcases Ecmh.grpintFind (g.interfaces.toCList HGrpInt.toNode) ifindex with - | grpintn <;> rfl

/-- What is done with the first group-interface of an interface. -/
theorem HList.First.grpint_triple {m : TableM α} {f : GrpIntNode → GrpIntNode} {g : HGroup}
    {ifindex : Nat} {pre post : List (Node HGrpInt)} {n : Node HGrpInt}
    (h : g.interfaces.First HGrpInt.ifindex ifindex pre n post)
    (hm : Triple (grpintCells n.data n.val) m fun _ P' =>
      ∃ g', P' = grpintCells n.data g' ∧ g'.toNode = f n.val.toNode) (d : Nat) :
    Triple (groupCells d g) m fun _ P' =>
      ∃ g', P' = groupCells d g' ∧ g'.toNode = setGrpint g.toNode ifindex f := by
  have hput : Triple (g.interfaces.cells grpintCells) m fun _ P' =>
      ∃ l' : HList HGrpInt, P' = l'.cells grpintCells ∧ l'.addr = g.interfaces.addr ∧
        l'.toCList HGrpInt.toNode = (setGrpint g.toNode ifindex f).interfaces := by
    refine (HList.triple_at grpintCells h.nodes hm).imp ?_
    rintro - P' ⟨x, rfl, hx⟩
    exact ⟨_, rfl, rfl, HList.First.toCList_put HGrpInt.toNode GrpIntNode.ifindex h hx⟩
  refine (group_field hput d g.mca g.lastforward g.bytes g.packets).imp ?_
  rintro - P' ⟨l', rfl, her⟩
  refine ⟨_, rfl, ?_⟩
  rw [HGroup.toNode, her]
  rfl

/-- A reduction finds the group-interface first, and does nothing if there is none. -/
theorem reduceGroup_triple (ifindex d : Nat) (g : HGroup) :
    Triple (groupCells d g) (reduceGroup ifindex d) fun _ P' =>
      ∃ g', P' = groupCells d g' ∧
        g'.toNode = setGrpint g.toNode ifindex Ecmh.reduceGrpint := by
  refine bind_readGroup rfl (bind_deref ?_)
  refine ((group_field (S := fun r l' => l' = g.interfaces ∧
    r = (g.interfaces.nodes.find? fun n => decide (n.val.ifindex = ifindex)).map Node.data)
    ((grpintFind_triple g.interfaces ifindex).imp ?_) d g.mca g.lastforward g.bytes
    g.packets)).bind ?_
  · rintro r P' ⟨hr, rfl⟩
    exact ⟨g.interfaces, rfl, rfl, rfl, hr⟩
  rintro found P' ⟨l', rfl, rfl, rfl⟩
  cases hf : g.interfaces.nodes.find? fun n => decide (n.val.ifindex = ifindex) with
  | none =>
    refine Triple.pure ⟨g, rfl, ?_⟩
    have hnone : Ecmh.grpintFind g.toNode.interfaces ifindex = none :=
      (grpintFind_toCList g.interfaces ifindex).trans (by rw [hf]; rfl)
    rw [setGrpint, KeyedList.adjust_of_find_none _ hnone]
  | some n =>
    obtain ⟨pre, post, h⟩ := HList.First.of_find hf
    exact h.grpint_triple (reduceGrpint_triple n.data n.val) d

/-! ## 6. The table -/

/-- The group that is found. -/
theorem groupFind_toCList (t : HList HGroup) (mca : In6Addr) :
    Ecmh.groupFind (t.toCList HGroup.toNode) mca
      = (t.nodes.find? fun n => decide (n.val.mca = mca)).map fun n => n.val.toNode :=
  t.find_toCList mca

/-- What is done with the first group of an address. -/
theorem HList.First.group_triple {m : TableM α} {f : GroupNode → GroupNode} {t : HList HGroup}
    {mca : In6Addr} {pre post : List (Node HGroup)} {n : Node HGroup}
    (h : t.First HGroup.mca mca pre n post)
    (hm : Triple (groupCells n.data n.val) m fun _ P' =>
      ∃ g', P' = groupCells n.data g' ∧ g'.toNode = f n.val.toNode) :
    Triple (t.cells groupCells) m fun _ P' => ∃ t' : HList HGroup, P' = t'.cells groupCells ∧
      t'.addr = t.addr ∧
      t'.toCList HGroup.toNode = setGroup (t.toCList HGroup.toNode) mca f := by
  refine (HList.triple_at groupCells h.nodes hm).imp ?_
  rintro r P' ⟨x, rfl, hx⟩
  exact ⟨_, rfl, rfl, HList.First.toCList_put HGroup.toNode GroupNode.mca h hx⟩

/-- What is done with the group of an address, if there is one. -/
theorem groupFound_triple {m : Nat → TableM Unit} {f : GroupNode → GroupNode}
    (hm : ∀ d g, Triple (groupCells d g) (m d) fun _ P' =>
      ∃ g', P' = groupCells d g' ∧ g'.toNode = f g.toNode) (t : HList HGroup) (mca : In6Addr) :
    Triple (t.cells groupCells) (do
        match ← groupFind t.addr mca with
        | none => pure ()
        | some groupn => m groupn) fun _ P' =>
      ∃ t' : HList HGroup, P' = t'.cells groupCells ∧ t'.addr = t.addr ∧
        t'.toCList HGroup.toNode = setGroup (t.toCList HGroup.toNode) mca f := by
  refine (groupFind_triple t mca).bind ?_
  rintro found P' ⟨rfl, rfl⟩
  cases hf : t.nodes.find? fun n => decide (n.val.mca = mca) with
  | none =>
    refine Triple.pure ⟨t, rfl, rfl, ?_⟩
    rw [setGroup_of_find_none _ ((groupFind_toCList t mca).trans (by rw [hf]; rfl))]
  | some n =>
    obtain ⟨pre, post, h⟩ := HList.First.of_find hf
    exact h.group_triple (hm n.data n.val)

/-- **A reduction** on the table. -/
theorem mld1Reduction_triple (t : HList HGroup) (mca : In6Addr) (ifindex : Nat) :
    Triple (t.cells groupCells) (mld1Reduction t.addr mca ifindex) fun _ P' =>
      ∃ t' : HList HGroup, P' = t'.cells groupCells ∧ t'.addr = t.addr ∧
        t'.toCList HGroup.toNode
          = setGroupint (t.toCList HGroup.toNode) mca ifindex Ecmh.reduceGrpint :=
  groupFound_triple (reduceGroup_triple ifindex) t mca

/-- The counters of a group that a packet is forwarded for. -/
theorem multicastCount_triple (t : HList HGroup) (dst : In6Addr) (len : Nat) :
    Triple (t.cells groupCells) (multicastCount t.addr dst len) fun _ P' =>
      ∃ t' : HList HGroup, P' = t'.cells groupCells ∧ t'.addr = t.addr ∧
        t'.toCList HGroup.toNode = setGroup (t.toCList HGroup.toNode) dst (countGroup len) := by
  refine groupFound_triple (fun d g => Triple.done rfl (modifyGroup_triple rfl _) fun _ => ?_) t dst
  exact ⟨{ g with bytes := g.bytes + len, packets := g.packets + 1 }, rfl, rfl⟩

/-- The group-interface that is found is at this address. -/
def GroupintAt (t : HList HGroup) (mca : In6Addr) (ifindex grpintn : Nat) : Prop :=
  ∃ pre n post pre' n' post', t.First HGroup.mca mca pre n post ∧
    n.val.interfaces.First HGrpInt.ifindex ifindex pre' n' post' ∧ grpintn = n'.data

/-- What is done through the pointer that `groupint_get` returned. -/
theorem GroupintAt.triple {m : TableM α} {f : GrpIntNode → GrpIntNode} {t : HList HGroup}
    {mca : In6Addr} {ifindex d : Nat} (h : GroupintAt t mca ifindex d)
    (hm : ∀ g, Triple (grpintCells d g) m fun _ P' =>
      ∃ g', P' = grpintCells d g' ∧ g'.toNode = f g.toNode) :
    Triple (t.cells groupCells) m fun _ P' => ∃ t' : HList HGroup, P' = t'.cells groupCells ∧
      t'.addr = t.addr ∧ t'.toCList HGroup.toNode
        = setGroupint (t.toCList HGroup.toNode) mca ifindex f := by
  obtain ⟨pre, n, post, pre', n', post', hgroup, hgrpint, rfl⟩ := h
  exact hgroup.group_triple (hgrpint.grpint_triple (hm n'.val) n.data)

/-- The second half of `groupint_get`, on the table. -/
theorem HList.First.touch_triple {t : HList HGroup} {mca : In6Addr} {pre post : List (Node HGroup)}
    {n : Node HGroup} (h : t.First HGroup.mca mca pre n post) (al : Allocator (Cell Obj))
    (now ifindex : Nat) :
    Triple (t.cells groupCells) (groupTouch al now ifindex n.data) fun r P' =>
      ∃ t' : HList HGroup, P' = t'.cells groupCells ∧ t'.addr = t.addr ∧
        t'.toCList HGroup.toNode
          = setGroup (t.toCList HGroup.toNode) mca (Ecmh.groupTouch now ifindex) ∧
        GroupintAt t' mca ifindex r := by
  refine (HList.triple_at groupCells h.nodes
    (groupTouch_triple al now ifindex n.data n.val)).imp ?_
  rintro r P' ⟨x, rfl, hx, pre', n', post', hgrpint, rfl⟩
  refine ⟨_, rfl, rfl, HList.First.toCList_put HGroup.toNode GroupNode.mca h hx, pre, _, post, pre',
    n', post', ⟨rfl, h.before, ?_⟩, hgrpint, rfl⟩
  have hmca := congrArg GroupNode.mca hx
  rw [groupTouch_mca] at hmca
  exact hmca.trans h.key

/-- `group_create`, and its empty list. -/
theorem groupCreate_triple (al : Allocator (Cell Obj)) (mca : In6Addr) :
    Triple P (groupCreate al mca) fun d P' =>
      ∃ list, P' = P + groupCells d ⟨mca, ⟨list, [], 0⟩, 0, 0, 0⟩ :=
  create_triple grpintCells al _ fun list => .data (.group ⟨mca, some list, 0, 0, 0⟩)

/-- **`groupint_get`**: the pointer that it returns is that of the group-interface in the table that
it leaves. -/
theorem groupintGet_triple (al : Allocator (Cell Obj)) (now : Nat) (t : HList HGroup)
    (mca : In6Addr) (ifindex : Nat) :
    Triple (t.cells groupCells) (groupintGet al now t.addr mca ifindex) fun r P' =>
      ∃ t' : HList HGroup, P' = t'.cells groupCells ∧ t'.addr = t.addr ∧
        (t'.toCList HGroup.toNode, r.2)
          = Ecmh.groupintGet now (t.toCList HGroup.toNode) mca ifindex ∧
        GroupintAt t' mca ifindex r.1 := by
  refine (groupFind_triple t mca).bind ?_
  rintro found P' ⟨rfl, rfl⟩
  unfold Ecmh.groupintGet
  rw [groupFind_toCList]
  cases hf : t.nodes.find? fun n => decide (n.val.mca = mca) with
  | none =>
    refine (groupCreate_triple al mca).bind ?_
    rintro d P' ⟨list, rfl⟩
    refine (listnodeAdd_triple groupCells al t d ⟨mca, ⟨list, [], 0⟩, 0, 0, 0⟩).bind ?_
    rintro - P' ⟨node, rfl⟩
    have h : (t.add ⟨node, d, ⟨mca, ⟨list, [], 0⟩, 0, 0, 0⟩⟩).First HGroup.mca mca t.nodes
        ⟨node, d, ⟨mca, ⟨list, [], 0⟩, 0, 0, 0⟩⟩ [] :=
      ⟨rfl, fun m hm => by simpa using List.find?_eq_none.mp hf m hm, rfl⟩
    refine (h.touch_triple al now ifindex).bind ?_
    rintro grpintn P' ⟨t', rfl, haddr, her, hat⟩
    refine Triple.pure ⟨t', rfl, haddr, ?_, hat⟩
    rw [her, HList.toCList_add]
    rfl
  | some n =>
    obtain ⟨pre, post, h⟩ := HList.First.of_find hf
    obtain ⟨F, hcells, -⟩ := HList.focus groupCells h.nodes
    refine bind_readGroup (hcells.trans (add_assoc _ _ _)) ?_
    refine (h.touch_triple al now ifindex).bind ?_
    rintro grpintn P' ⟨t', rfl, haddr, her, hat⟩
    refine Triple.pure ⟨t', rfl, haddr, ?_, hat⟩
    rw [her]
    rfl

/-- **A join**: the rows are refreshed on the group-interface that `groupint_get` returned. -/
theorem joinTable_triple (al : Allocator (Cell Obj)) (now ifindex : Nat) (t : HList HGroup)
    (j : Join) :
    Triple (t.cells groupCells) (joinTable al now ifindex t.addr j) fun _ P' =>
      ∃ t' : HList HGroup, P' = t'.cells groupCells ∧ t'.addr = t.addr ∧
        t'.toCList HGroup.toNode = Ecmh.joinTable now ifindex (t.toCList HGroup.toNode) j := by
  refine (groupintGet_triple al now t j.mca ifindex).bind ?_
  rintro got P' ⟨t1, rfl, haddr, her, hat⟩
  refine (hat.triple fun g => refreshRows_triple al now got.1 j.rows g).imp ?_
  rintro - P' ⟨t2, rfl, haddr', her'⟩
  refine ⟨t2, rfl, haddr'.trans haddr, ?_⟩
  rw [her', Ecmh.joinTable, ← her]

/-! ## 7. The loops of `timeout` -/

/-- A value that is stored again. -/
theorem HList.put_self {l : HList X} {pre post : List (Node X)} {n : Node X}
    (hn : l.nodes = pre ++ n :: post) : l.put pre n post n.val = l := by
  rw [HList.put, ← hn]

/-- The body of the innermost loop: the node stays, or it is unlinked and freed. -/
theorem timeoutSubscr_triple (timeTee : Nat) {l : HList SubscrNode}
    {pre post : List (Node SubscrNode)} {n : Node SubscrNode} (hn : l.nodes = pre ++ n :: post) :
    Triple (l.cells subscrCells) (timeoutSubscr timeTee l.addr n.node n.data) fun _ P' =>
      ∃ r : Option SubscrNode,
        r.map id = (if deadTooLong timeTee n.val then none else some n.val) ∧
          P' = (l.after pre n post r).cells subscrCells := by
  obtain ⟨F, hcells, -⟩ := HList.focus subscrCells hn
  refine bind_readSubscr hcells ?_
  split
  · refine Triple.seq rfl (listDeleteNode_triple subscrCells hn) fun _ =>
      Triple.done rfl (Triple.free (add_comm _ _)) fun _ => ⟨none, rfl, rfl⟩
  · refine Triple.pure ⟨some n.val, rfl, ?_⟩
    rw [HList.after, HList.put_self hn]

/-- The innermost loop, and the counter that is read behind it. -/
theorem timeoutSubscrs_triple (timeTee d : Nat) (g : HGrpInt) :
    Triple (grpintCells d g) (timeoutSubscrs timeTee d) fun count P' =>
      ∃ g', P' = grpintCells d g' ∧
        (g'.toNode = ⟨g.ifindex, Ecmh.listLoop2
          (fun s => if deadTooLong timeTee s then none else some s) g.toNode.subscriptions⟩ ∧
        count = g'.toNode.subscriptions.count) := by
  have hbody : ∀ (l' : HList SubscrNode) (pre : List (Node SubscrNode)) (n : Node SubscrNode)
      (post : List (Node SubscrNode)), l'.addr = g.subscriptions.addr →
      l'.nodes = pre ++ n :: post →
      Triple (l'.cells subscrCells) (timeoutSubscr timeTee g.subscriptions.addr n.node n.data)
        fun _ P' => ∃ r : Option SubscrNode,
          r.map id = (if deadTooLong timeTee n.val then none else some n.val) ∧
            P' = (l'.after pre n post r).cells subscrCells := by
    rintro l' pre n post haddr hn
    rw [← haddr]
    exact timeoutSubscr_triple timeTee hn
  refine bind_readGrpint rfl (bind_deref ?_)
  refine (grpint_field (loop2_count_triple subscrCells id
    (g := fun s => if deadTooLong timeTee s then none else some s) g.subscriptions hbody) d
    g.ifindex).imp ?_
  rintro count P' ⟨l', rfl, her, hcount⟩
  refine ⟨⟨g.ifindex, l'⟩, rfl, ?_, hcount⟩
  rw [HGrpInt.toNode, her]
  rfl

/-- The body of the middle loop: where the group-interface goes, its list goes with it. -/
theorem timeoutGrpint_triple (timeTee : Nat) {l : HList HGrpInt} {pre post : List (Node HGrpInt)}
    {n : Node HGrpInt} (hn : l.nodes = pre ++ n :: post) :
    Triple (l.cells grpintCells) (timeoutGrpint timeTee l.addr n.node n.data) fun _ P' =>
      ∃ r : Option HGrpInt, r.map HGrpInt.toNode = Ecmh.timeoutGrpint timeTee n.val.toNode ∧
        P' = (l.after pre n post r).cells grpintCells := by
  refine sweep_triple grpintCells hn ((timeoutSubscrs_triple timeTee n.data n.val).imp ?_)
    (grpintDestroy_triple n.data)
  rintro count P' ⟨g', rfl, her, rfl⟩
  refine ⟨g', rfl, ?_⟩
  rw [Ecmh.timeoutGrpint, her]
  rfl

/-- The middle loop. -/
theorem timeoutGrpints_triple (timeTee d : Nat) (g : HGroup) :
    Triple (groupCells d g) (timeoutGrpints timeTee d) fun count P' =>
      ∃ g', P' = groupCells d g' ∧
        (g'.toNode = ⟨g.mca, Ecmh.listLoop2 (Ecmh.timeoutGrpint timeTee) g.toNode.interfaces,
          g.lastforward, g.bytes, g.packets⟩ ∧
        count = g'.toNode.interfaces.count) := by
  have hbody : ∀ (l' : HList HGrpInt) (pre : List (Node HGrpInt)) (n : Node HGrpInt)
      (post : List (Node HGrpInt)), l'.addr = g.interfaces.addr → l'.nodes = pre ++ n :: post →
      Triple (l'.cells grpintCells) (timeoutGrpint timeTee g.interfaces.addr n.node n.data)
        fun _ P' => ∃ r : Option HGrpInt,
          r.map HGrpInt.toNode = Ecmh.timeoutGrpint timeTee n.val.toNode ∧
            P' = (l'.after pre n post r).cells grpintCells := by
    rintro l' pre n post haddr hn
    rw [← haddr]
    exact timeoutGrpint_triple timeTee hn
  refine bind_readGroup rfl (bind_deref ?_)
  refine (group_field (loop2_count_triple grpintCells HGrpInt.toNode g.interfaces hbody) d g.mca
    g.lastforward g.bytes g.packets).imp ?_
  rintro count P' ⟨l', rfl, her, hcount⟩
  refine ⟨⟨g.mca, l', g.lastforward, g.bytes, g.packets⟩, rfl, ?_, hcount⟩
  rw [HGroup.toNode, her]
  rfl

/-- `group_destroy`. -/
theorem groupDestroy_triple (d : Nat) (g : HGroup) :
    Triple (groupCells d g) (groupDestroy d) fun _ P' => P' = 0 :=
  bind_readGroup rfl (bind_deref (destroy_triple grpintCells grpintDestroy_triple d _ g.interfaces))

/-- The body of the outer loop. -/
theorem timeoutGroup_triple (timeTee : Nat) {t : HList HGroup} {pre post : List (Node HGroup)}
    {n : Node HGroup} (hn : t.nodes = pre ++ n :: post) :
    Triple (t.cells groupCells) (timeoutGroup timeTee t.addr n.node n.data) fun _ P' =>
      ∃ r : Option HGroup, r.map HGroup.toNode = Ecmh.timeoutGroup timeTee n.val.toNode ∧
        P' = (t.after pre n post r).cells groupCells := by
  refine sweep_triple groupCells hn ((timeoutGrpints_triple timeTee n.data n.val).imp ?_)
    (groupDestroy_triple n.data)
  rintro count P' ⟨g', rfl, her, rfl⟩
  refine ⟨g', rfl, ?_⟩
  rw [Ecmh.timeoutGroup, her]
  rfl

/-- **The sweep** on the heap is the sweep of the table, and frees what it drops. -/
theorem timeoutGroups_triple (timeTee : Nat) (t : HList HGroup) :
    Triple (t.cells groupCells) (timeoutGroups timeTee t.addr) fun _ P' =>
      ∃ t' : HList HGroup, P' = t'.cells groupCells ∧ t'.addr = t.addr ∧
        t'.toCList HGroup.toNode
          = Ecmh.listLoop2 (Ecmh.timeoutGroup timeTee) (t.toCList HGroup.toNode) := by
  refine (listLoop2_triple groupCells HGroup.toNode (g := Ecmh.timeoutGroup timeTee) t ?_).bind ?_
  · rintro t' pre n post haddr hn
    rw [← haddr]
    exact timeoutGroup_triple timeTee hn
  · rintro seen P' ⟨t', rfl, haddr, her⟩
    exact Triple.pure ⟨t', rfl, haddr, her⟩

/-! ## 8. Operations -/

/-- The joins of a report, one after the other. -/
theorem refresh_triple (al : Allocator (Cell Obj)) (now ifindex : Nat) :
    ∀ (joins : List Join) (t : HList HGroup),
      Triple (t.cells groupCells) (joins.forM (joinTable al now ifindex t.addr)) fun _ P' =>
        ∃ t' : HList HGroup, P' = t'.cells groupCells ∧ t'.addr = t.addr ∧
          t'.toCList HGroup.toNode
            = joins.foldl (Ecmh.joinTable now ifindex) (t.toCList HGroup.toNode)
  | [], t => Triple.pure ⟨t, rfl, rfl, rfl⟩
  | j :: joins, t => by
    rw [List.forM]
    refine (joinTable_triple al now ifindex t j).bind ?_
    rintro - P' ⟨t1, rfl, haddr, her⟩
    rw [← haddr]
    refine (refresh_triple al now ifindex joins t1).imp ?_
    rintro - P' ⟨t2, rfl, haddr', her'⟩
    refine ⟨t2, rfl, haddr', ?_⟩
    rw [her', her, List.foldl_cons]

/-- **An operation on the table in memory** comes to an end, touches nothing but the table, and
leaves the table that the operation gives. -/
theorem tableOp_triple (al : Allocator (Cell Obj)) (now : Nat) (op : TableOp) (t : HList HGroup) :
    Triple (t.cells groupCells) (tableOpOnHeap al now t.addr op) fun _ P' =>
      ∃ t' : HList HGroup, P' = t'.cells groupCells ∧ t'.addr = t.addr ∧
        t'.toCList HGroup.toNode = op.apply now (t.toCList HGroup.toNode) := by
  cases op with
  | keep => exact Triple.pure ⟨t, rfl, rfl, rfl⟩
  | count dst len => exact multicastCount_triple t dst len
  | refresh ifindex joins => exact refresh_triple al now ifindex joins t
  | reduce mca ifindex => exact mld1Reduction_triple t mca ifindex
  | sweep => exact timeoutGroups_triple now t

end Ecmh.OnHeap
