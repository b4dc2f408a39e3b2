/-
# The invariant of the membership table

The membership table has unique keys on all three levels, and its counters tell the truth with
one exception: a list of subscriptions that a reduction has emptied carries `-2`, the mark that
`timeout` looks for.  `TableOk P` says this, and that every subscription has the property `P`;
it is kept by every operation of `TableOp` that stores subscriptions with the property
(`apply_ok`).  Two properties are used: `ValidSubscr`, on the mode, and the same with a bound on
the time of the last refresh.  Both are carried from `boot` over every run (`reachable_tableOk`,
`reachableAt_tableOk`).
-/
import Ecmh.TableOp

namespace Ecmh

open ByteMem
open KeyedList (Unique)

/-! ## 1. What is invariant -/

/-- A subscription that the daemon may hold. -/
def ValidSubscr (s : SubscrNode) : Prop :=
  (s.mode = mld2ModeIsInclude ∨ s.mode = mld2ModeIsExclude) ∧
    (s.ipv6 = In6Addr.any → s.mode = mld2ModeIsInclude)

variable (P : SubscrNode → Prop)

/-- A list of subscriptions: the counter is its length, or it is empty and marked. -/
structure SubscrsOk (list : CList SubscrNode) : Prop where
  unique : Unique SubscrNode.ipv6 list.nodes
  all : ∀ s ∈ list.nodes, P s
  count : list.count = list.nodes.length ∨ (list.nodes = [] ∧ list.count = -ecmhRobustnessFactor)

/-- A group. -/
structure GroupOk (groupn : GroupNode) : Prop where
  unique : Unique GrpIntNode.ifindex groupn.interfaces.nodes
  all : ∀ g ∈ groupn.interfaces.nodes, SubscrsOk P g.subscriptions
  count : groupn.interfaces.count = groupn.interfaces.nodes.length

/-- The table. -/
structure TableOk (groups : Groups) : Prop where
  unique : Unique GroupNode.mca groups.nodes
  all : ∀ g ∈ groups.nodes, GroupOk P g

variable {P}

/-- The property of the subscriptions may be weakened: time passes, and a refresh that was not in
the future still is not. -/
theorem SubscrsOk.imp {Q : SubscrNode → Prop} {list : CList SubscrNode} (h : SubscrsOk P list)
    (hpq : ∀ s, P s → Q s) : SubscrsOk Q list :=
  ⟨h.unique, fun s hs => hpq s (h.all s hs), h.count⟩

theorem TableOk.imp {Q : SubscrNode → Prop} {groups : Groups} (h : TableOk P groups)
    (hpq : ∀ s, P s → Q s) : TableOk Q groups :=
  ⟨h.unique, fun g hg =>
    ⟨(h.all g hg).unique, fun i hi => ((h.all g hg).all i hi).imp hpq, (h.all g hg).count⟩⟩

theorem subscrsOk_new : SubscrsOk P listNew :=
  ⟨KeyedList.unique_nil, fun s hs => by simp [listNew] at hs, Or.inl rfl⟩

/-- The table that the daemon starts with. -/
theorem tableOk_new : TableOk P listNew :=
  ⟨KeyedList.unique_nil, fun g hg => by simp [listNew] at hg⟩

/-! ## 2. Subscriptions

Only two functions of the code look at the counter of such a list: `listnode_add` makes a
negative one zero before it counts, and `timeout` compares it with the mark.  Everything else
adds and subtracts. -/

/-- `listnode_add` sets the counter to one on a list that carries a mark, so that a list which a
reduction emptied counts right again. -/
theorem subscrsOk_add {list : CList SubscrNode} (h : SubscrsOk P list) {s : SubscrNode}
    (hs : P s) (hnew : subscrFind list s.ipv6 = none) : SubscrsOk P (listnodeAdd list s) where
  unique := h.unique.append hnew
  all := by
    intro x hx
    rcases List.mem_append.mp hx with hx | hx
    · exact h.all x hx
    · rw [List.mem_singleton.mp hx]
      exact hs
  count := by
    left
    simp only [listnodeAdd, List.length_append, List.length_singleton]
    rcases h.count with hc | ⟨hn, hc⟩
    · rw [hc, if_neg (by omega)]
      omega
    · rw [hc, hn, if_pos (by decide)]
      rfl

/-- The rows that `grpint_refresh` does not store. -/
def rowIgnored (ipv6 : In6Addr) (mode : Nat) : Prop :=
  mode = mld2ModeIsExclude ∧ ipv6 = In6Addr.any

/-- An EXCLUDE of no source is not stored at all. -/
theorem grpintRefresh_ignored {now : Nat} {grpintn : GrpIntNode} {ipv6 : In6Addr} {mode : Nat}
    (h : rowIgnored ipv6 mode) : grpintRefresh now grpintn ipv6 mode = grpintn := by
  rw [grpintRefresh, if_pos ⟨h.1, in6IsAddrUnspecified_iff.mpr h.2⟩]

/-- Any other row is found or appended, and then gets the mode and the time. -/
theorem grpintRefresh_stored {now : Nat} {grpintn : GrpIntNode} {ipv6 : In6Addr} {mode : Nat}
    (h : ¬ rowIgnored ipv6 mode) : (grpintRefresh now grpintn ipv6 mode).subscriptions =
      setSubscr (subscrGet now grpintn.subscriptions ipv6 mode) ipv6
        (fun s => { s with mode := mode, refreshtime := now }) := by
  rw [grpintRefresh, if_neg (fun hc => h ⟨hc.1, in6IsAddrUnspecified_iff.mp hc.2⟩)]

theorem grpintRefresh_ifindex (now : Nat) (grpintn : GrpIntNode) (ipv6 : In6Addr) (mode : Nat) :
    (grpintRefresh now grpintn ipv6 mode).ifindex = grpintn.ifindex := by
  unfold grpintRefresh
  split <;> rfl

/-- A source that has no subscription gets one, which is new in the list. -/
theorem subscrGet_ok {now : Nat} {list : CList SubscrNode} (h : SubscrsOk P list) {ipv6 : In6Addr}
    {mode : Nat} (hP : P ⟨ipv6, mode, now⟩) : SubscrsOk P (subscrGet now list ipv6 mode) := by
  unfold subscrGet
  split
  · exact h
  · rename_i hf
    exact subscrsOk_add h hP hf

/-- A write to one subscription does not touch the counter, and so not the mark either. -/
theorem setSubscr_ok {list : CList SubscrNode} (h : SubscrsOk P list) {ipv6 : In6Addr}
    {f : SubscrNode → SubscrNode} (hkey : ∀ s, (f s).ipv6 = s.ipv6)
    (hf : ∀ s ∈ list.nodes, s.ipv6 = ipv6 → P (f s)) : SubscrsOk P (setSubscr list ipv6 f) where
  unique := h.unique.adjust hkey
  all := KeyedList.forall_mem_adjust h.all hf
  count := by
    rcases h.count with hc | ⟨hn, hc⟩
    · exact Or.inl (by simpa [setSubscr] using hc)
    · exact Or.inr ⟨by simp [setSubscr, hn, KeyedList.adjust], hc⟩

/-- **One row**: what it stores has the property, if the row is one that `grpint_refresh` stores. -/
theorem grpintRefresh_ok {now : Nat} {grpintn : GrpIntNode} (h : SubscrsOk P grpintn.subscriptions)
    {ipv6 : In6Addr} {mode : Nat} (hP : ¬ rowIgnored ipv6 mode → P ⟨ipv6, mode, now⟩) :
    SubscrsOk P (grpintRefresh now grpintn ipv6 mode).subscriptions := by
  by_cases hr : rowIgnored ipv6 mode
  · rw [grpintRefresh_ignored hr]
    exact h
  · rw [grpintRefresh_stored hr]
    refine setSubscr_ok (subscrGet_ok h (hP hr)) (fun _ => rfl) fun s _ hs => ?_
    rw [hs]
    exact hP hr

theorem refreshRows_ifindex (now : Nat) (rows : List (In6Addr × Nat)) (grpintn : GrpIntNode) :
    (refreshRows now rows grpintn).ifindex = grpintn.ifindex :=
  Runs.foldl_frame GrpIntNode.ifindex
    (fun g (row : In6Addr × Nat) => grpintRefresh_ifindex now g row.1 row.2) rows grpintn

/-- The rows of a record, one after the other; only those that are stored need the property. -/
theorem refreshRows_ok {now : Nat} : ∀ {rows : List (In6Addr × Nat)} {grpintn : GrpIntNode},
    SubscrsOk P grpintn.subscriptions →
    (∀ row ∈ rows, ¬ rowIgnored row.1 row.2 → P ⟨row.1, row.2, now⟩) →
    SubscrsOk P (refreshRows now rows grpintn).subscriptions := by
  intro rows
  induction rows with
  | nil => exact fun h _ => h
  | cons row rows ih =>
    intro grpintn h hP
    have h1 := grpintRefresh_ok h (hP row List.mem_cons_self)
    exact ih h1 fun r hr => hP r (List.mem_cons_of_mem _ hr)

/-- The first subscription of the source goes, if there is one. -/
theorem subscrUnsub_nodes (list : CList SubscrNode) (ipv6 : In6Addr) :
    (subscrUnsub list ipv6).1.nodes = list.nodes.eraseP (fun s => s.ipv6 = ipv6) := by
  unfold subscrUnsub
  split
  · rfl
  · rename_i hf
    rw [List.eraseP_of_forall_not]
    intro s hs
    simpa using KeyedList.find_eq_none.mp hf s hs

/-- A successful `subscr_unsub` takes one node out and counts it. -/
theorem subscrUnsub_found {list : CList SubscrNode} {ipv6 : In6Addr}
    (h : (subscrUnsub list ipv6).2 = true) :
    (subscrUnsub list ipv6).1.count = list.count - 1 ∧
      (subscrUnsub list ipv6).1.nodes.length + 1 = list.nodes.length := by
  unfold subscrUnsub at h ⊢
  split at h
  · rename_i s hf
    refine ⟨rfl, ?_⟩
    have hm := KeyedList.mem_of_find hf
    have hpos : 0 < list.nodes.length := List.length_pos_of_mem hm
    simp only [listDeleteNode]
    rw [List.length_eraseP_of_mem hm (by simpa using KeyedList.key_of_find hf)]
    omega
  · simp at h

/-- A reduction leaves a list that counts right, or one that is empty and carries the mark: it is
the only operation that sets it. -/
theorem reduceGrpint_ok {grpintn : GrpIntNode} (h : SubscrsOk P grpintn.subscriptions) :
    SubscrsOk P (reduceGrpint grpintn).subscriptions := by
  unfold reduceGrpint
  dsimp only
  split
  · exact h
  · rename_i hu
    obtain ⟨hc, hl⟩ := subscrUnsub_found (by simpa using hu)
    have hsub : (subscrUnsub grpintn.subscriptions In6Addr.any).1.nodes.Sublist
        grpintn.subscriptions.nodes := by
      rw [subscrUnsub_nodes]
      exact List.eraseP_sublist
    have hcount : (subscrUnsub grpintn.subscriptions In6Addr.any).1.count
        = (subscrUnsub grpintn.subscriptions In6Addr.any).1.nodes.length := by
      rcases h.count with hn | ⟨hn, -⟩
      · omega
      · rw [hn] at hl
        simp at hl
    have hall := fun s hs => h.all s (hsub.subset hs)
    split
    · rename_i hle
      have hnil := List.length_eq_zero_iff.mp (by omega :
        (subscrUnsub grpintn.subscriptions In6Addr.any).1.nodes.length = 0)
      exact ⟨h.unique.sublist hsub, hall, Or.inr ⟨hnil, rfl⟩⟩
    · exact ⟨h.unique.sublist hsub, hall, Or.inl hcount⟩

theorem reduceGrpint_ifindex (grpintn : GrpIntNode) :
    (reduceGrpint grpintn).ifindex = grpintn.ifindex := by
  unfold reduceGrpint
  dsimp only
  split
  · rfl
  · split <;> rfl

/-! ## 3. Groups

The lists of groups and of group-interfaces carry no mark, and their counters are the lengths.  A
node is appended only after the search for its key has failed, which keeps the keys unique. -/

/-- A write to one group that keeps its address. -/
theorem setGroup_ok {groups : Groups} (h : TableOk P groups) (mca : In6Addr)
    {f : GroupNode → GroupNode} (hkey : ∀ g, (f g).mca = g.mca)
    (hf : ∀ g ∈ groups.nodes, GroupOk P (f g)) : TableOk P (setGroup groups mca f) :=
  ⟨h.unique.adjust hkey, KeyedList.forall_mem_adjust h.all fun g hg _ => hf g hg⟩

/-- A write to one group-interface that keeps its index. -/
theorem setGrpint_ok {groupn : GroupNode} (h : GroupOk P groupn) (ifindex : Nat)
    {f : GrpIntNode → GrpIntNode} (hkey : ∀ g, (f g).ifindex = g.ifindex)
    (hf : ∀ g : GrpIntNode, SubscrsOk P g.subscriptions → SubscrsOk P (f g).subscriptions) :
    GroupOk P (setGrpint groupn ifindex f) where
  unique := h.unique.adjust hkey
  all := KeyedList.forall_mem_adjust h.all fun g hg _ => hf g (h.all g hg)
  count := by simpa [setGrpint] using h.count

/-- A write to one group-interface of one group. -/
theorem setGroupint_ok {groups : Groups} (h : TableOk P groups) (mca : In6Addr) (ifindex : Nat)
    {f : GrpIntNode → GrpIntNode} (hkey : ∀ g, (f g).ifindex = g.ifindex)
    (hf : ∀ g : GrpIntNode, SubscrsOk P g.subscriptions → SubscrsOk P (f g).subscriptions) :
    TableOk P (setGroupint groups mca ifindex f) :=
  setGroup_ok h mca (fun _ => rfl) fun g hg => setGrpint_ok (h.all g hg) ifindex hkey hf

theorem groupOk_create (mca : In6Addr) : GroupOk P (groupCreate mca) :=
  ⟨KeyedList.unique_nil, fun g hg => by simp [groupCreate, listNew] at hg, rfl⟩

theorem groupTouch_mca (t ifindex : Nat) (groupn : GroupNode) :
    (groupTouch t ifindex groupn).mca = groupn.mca := by
  unfold groupTouch
  dsimp only
  split <;> rfl

/-- The interface of the report gets an empty list, if the group does not have it yet. -/
theorem groupTouch_ok (t ifindex : Nat) {groupn : GroupNode} (h : GroupOk P groupn) :
    GroupOk P (groupTouch t ifindex groupn) := by
  unfold groupTouch
  dsimp only
  split
  · exact ⟨h.unique, h.all, h.count⟩
  · rename_i hf
    refine ⟨h.unique.append hf, fun g hg => ?_, ?_⟩
    · rcases List.mem_append.mp hg with hg | hg
      · exact h.all g hg
      · rw [List.mem_singleton.mp hg]
        exact subscrsOk_new
    · have hc := h.count
      simp only [listnodeAdd, List.length_append, List.length_singleton]
      rw [hc, if_neg (by omega)]
      omega

/-- `groupint_get` appends a group that is not in the table, and then the interface to it. -/
theorem groupintGet_ok (t : Nat) {groups : Groups} (h : TableOk P groups) (mca : In6Addr)
    (ifindex : Nat) : TableOk P (groupintGet t groups mca ifindex).1 := by
  unfold groupintGet
  split
  · rename_i hf
    have hadd : TableOk P (listnodeAdd groups (groupCreate mca)) := by
      refine ⟨h.unique.append hf, fun g hg => ?_⟩
      rcases List.mem_append.mp hg with hg | hg
      · exact h.all g hg
      · rw [List.mem_singleton.mp hg]
        exact groupOk_create mca
    exact setGroup_ok hadd mca (groupTouch_mca t ifindex)
      fun g hg => groupTouch_ok t ifindex (hadd.all g hg)
  · exact setGroup_ok h mca (groupTouch_mca t ifindex)
      fun g hg => groupTouch_ok t ifindex (h.all g hg)

/-- **A join** keeps the invariant, if the rows that it stores have the property. -/
theorem joinTable_ok {now ifindex : Nat} {groups : Groups} (h : TableOk P groups) {j : Join}
    (hP : ∀ row ∈ j.rows, ¬ rowIgnored row.1 row.2 → P ⟨row.1, row.2, now⟩) :
    TableOk P (joinTable now ifindex groups j) :=
  setGroupint_ok (groupintGet_ok now h j.mca ifindex) j.mca ifindex
    (refreshRows_ifindex now j.rows) fun _ hg => refreshRows_ok hg hP

/-! ## 4. The sweep

`LIST_LOOP2` goes on behind a node that it has deleted.  What survives is a part of the list in its
order, so that the keys stay unique, and every node that goes is counted. -/

/-- A loop that drops elements, and keeps the keys of those it changes, leaves the keys unique. -/
theorem filterMap_sublist_of_key {α κ : Type} {key : α → κ} {f : α → Option α}
    (hf : ∀ x y, f x = some y → key y = key x) : ∀ l : List α,
    ((l.filterMap f).map key).Sublist (l.map key)
  | [] => List.Sublist.slnil
  | x :: l => by
    cases h : f x with
    | none =>
      rw [List.filterMap_cons_none h]
      exact (filterMap_sublist_of_key hf l).cons _
    | some y =>
      rw [List.filterMap_cons_some h, List.map_cons, List.map_cons, hf x y h]
      exact (filterMap_sublist_of_key hf l).cons_cons _

/-- The subscriptions that survive the sweep. -/
theorem sweepSubscrs_nodes (now : Nat) (list : CList SubscrNode) :
    (listLoop2 (fun s => if deadTooLong now s then none else some s) list).nodes
      = list.nodes.filter (fun s => !deadTooLong now s) := by
  have hf : (fun s => if deadTooLong now s then none else some s)
      = Option.guard (fun s => !deadTooLong now s) := by
    funext s
    cases hs : deadTooLong now s <;> simp [Option.guard, hs]
  rw [listLoop2_nodes, hf, List.filterMap_eq_filter]

/-- The sweep counts every subscription that it drops, so that the counter stays right. On a list
that carries the mark there is nothing to drop, and the mark stays. -/
theorem sweepSubscrs_count (now : Nat) {list : CList SubscrNode} (h : SubscrsOk P list) :
    (listLoop2 (fun s => if deadTooLong now s then none else some s) list).count
      = (list.nodes.filter (fun s => !deadTooLong now s)).length ∨
    (list.nodes = [] ∧ (listLoop2 (fun s => if deadTooLong now s then none else some s) list).count
      = -ecmhRobustnessFactor) := by
  have hn := sweepSubscrs_nodes now list
  rw [listLoop2_nodes] at hn
  rw [listLoop2_count, hn]
  rcases h.count with hc | ⟨hnil, hc⟩
  · left
    omega
  · right
    simp [hnil, hc]

theorem timeoutGrpint_ifindex (now : Nat) (g g' : GrpIntNode) (h : timeoutGrpint now g = some g') :
    g'.ifindex = g.ifindex := by
  unfold timeoutGrpint at h
  dsimp only at h
  split at h
  · simp at h
  · cases h
    rfl

/-- A list that survives the sweep counts right: the mark is the one counter that makes `timeout`
destroy the group-interface. -/
theorem timeoutGrpint_ok {now : Nat} {g g' : GrpIntNode} (h : SubscrsOk P g.subscriptions)
    (hg : timeoutGrpint now g = some g') : SubscrsOk P g'.subscriptions := by
  unfold timeoutGrpint at hg
  dsimp only at hg
  split at hg
  · simp at hg
  · rename_i hkeep
    cases hg
    have hsub : (listLoop2 (fun s => if deadTooLong now s then none else some s)
        g.subscriptions).nodes.Sublist g.subscriptions.nodes := by
      rw [sweepSubscrs_nodes]
      exact List.filter_sublist
    refine ⟨h.unique.sublist hsub, fun s hs => h.all s (hsub.subset hs), Or.inl ?_⟩
    rcases sweepSubscrs_count now h with hc | ⟨-, hc⟩
    · rw [hc, ← sweepSubscrs_nodes]
    · omega

theorem timeoutGroup_mca (now : Nat) (g g' : GroupNode) (h : timeoutGroup now g = some g') :
    g'.mca = g.mca := by
  unfold timeoutGroup at h
  dsimp only at h
  split at h
  · simp at h
  · cases h
    rfl

/-- A group that survives the sweep is well-formed. -/
theorem timeoutGroup_ok {now : Nat} {g g' : GroupNode} (h : GroupOk P g)
    (hg : timeoutGroup now g = some g') : GroupOk P g' := by
  unfold timeoutGroup at hg
  dsimp only at hg
  split at hg
  · simp at hg
  · cases hg
    refine ⟨?_, fun x hx => ?_, ?_⟩
    · rw [listLoop2_nodes]
      exact List.Nodup.sublist (filterMap_sublist_of_key (timeoutGrpint_ifindex now) _) h.unique
    · rw [listLoop2_nodes] at hx
      obtain ⟨y, hy, hyx⟩ := List.mem_filterMap.mp hx
      exact timeoutGrpint_ok (h.all y hy) hyx
    · rw [listLoop2_count, listLoop2_nodes, h.count]
      have := List.length_filterMap_le (timeoutGrpint now) g.interfaces.nodes
      omega

/-- **The sweep** keeps the invariant. -/
theorem sweep_ok {now : Nat} {groups : Groups} (h : TableOk P groups) :
    TableOk P (listLoop2 (timeoutGroup now) groups) := by
  refine ⟨?_, fun g hg => ?_⟩
  · rw [listLoop2_nodes]
    exact List.Nodup.sublist (filterMap_sublist_of_key (timeoutGroup_mca now) _) h.unique
  · rw [listLoop2_nodes] at hg
    obtain ⟨y, hy, hyg⟩ := List.mem_filterMap.mp hg
    exact timeoutGroup_ok (h.all y hy) hyg

/-! ## 5. Operations and steps

An operation that stores subscriptions stores them with one of the two modes and the present time.
This is all that has to be known of the packet. -/

/-- The modes that an operation stores are the two modes. -/
def TableOp.ModesOk : TableOp → Prop
  | .refresh _ joins =>
    ∀ j ∈ joins, ∀ row ∈ j.rows, row.2 = mld2ModeIsInclude ∨ row.2 = mld2ModeIsExclude
  | _ => True

/-- The joins of one report, one after the other. -/
theorem joins_ok {now ifindex : Nat}
    (hP : ∀ s, ValidSubscr s → s.refreshtime = now → P s) : ∀ {joins : List Join} {groups : Groups},
    (TableOp.refresh ifindex joins).ModesOk → TableOk P groups →
    TableOk P (joins.foldl (joinTable now ifindex) groups) := by
  intro joins
  induction joins with
  | nil => exact fun _ h => h
  | cons j joins ih =>
    intro groups hop h
    have hj : TableOk P (joinTable now ifindex groups j) := by
      refine joinTable_ok h fun row hrow hni => hP _ ⟨hop j List.mem_cons_self row hrow, ?_⟩ rfl
      intro hany
      rcases hop j List.mem_cons_self row hrow with hm | hm
      · exact hm
      · exact absurd ⟨hm, hany⟩ hni
    have hops : (TableOp.refresh ifindex joins).ModesOk := fun j' hj' =>
      hop j' (List.mem_cons_of_mem _ hj')
    rw [List.foldl_cons]
    exact ih hops hj

/-- **Every operation keeps the table well-formed**, with any property of its subscriptions that
the valid ones refreshed just now have. -/
theorem apply_ok {now : Nat} {op : TableOp} (hop : op.ModesOk) {groups : Groups}
    (h : TableOk P groups) (hP : ∀ s, ValidSubscr s → s.refreshtime = now → P s) :
    TableOk P (op.apply now groups) := by
  cases op with
  | keep => exact h
  | count dst len =>
    exact setGroup_ok h dst (fun _ => rfl) fun g hg =>
      ⟨(h.all g hg).unique, (h.all g hg).all, (h.all g hg).count⟩
  | refresh ifindex joins => exact joins_ok hP hop h
  | reduce mca ifindex =>
    exact setGroupint_ok h mca ifindex reduceGrpint_ifindex fun _ hg => reduceGrpint_ok hg
  | sweep => exact sweep_ok h

/-- The rows of a record have one of the two modes, whatever its type is: a type that is none of
those that exclude counts as one that includes. -/
theorem grecRows_modes (grecType : Nat) (srcs : List In6Addr) :
    ∀ row ∈ grecRows grecType srcs, row.2 = mld2ModeIsInclude ∨ row.2 = mld2ModeIsExclude := by
  intro row hrow
  cases srcs with
  | nil =>
    rw [List.mem_singleton.mp hrow]
    show mld2AnyMode grecType = _ ∨ mld2AnyMode grecType = _
    unfold mld2AnyMode
    split
    · exact Or.inl rfl
    · exact Or.inr rfl
  | cons src srcs =>
    obtain ⟨x, -, rfl⟩ := List.mem_map.mp hrow
    show mld2SrcMode grecType = _ ∨ mld2SrcMode grecType = _
    unfold mld2SrcMode
    split
    · exact Or.inr rfl
    · exact Or.inl rfl

/-- What the packets of the daemon make of the table stores nothing but the two modes. -/
theorem OpShape.modesOk {op : TableOp} (h : OpShape op) : op.ModesOk := by
  cases h with
  | mld1Report ifindex mca hi =>
    intro j hj row hrow
    rw [List.mem_singleton.mp hj] at hrow
    rw [List.mem_singleton.mp hrow]
    exact Or.inl rfl
  | mld2Report ifindex rs =>
    intro j hj row hrow
    obtain ⟨r, -, hr⟩ := List.mem_filterMap.mp hj
    unfold GrecSeen.join at hr
    split at hr
    · simp at hr
    · cases hr
      cases hs : r.srcs with
      | none => simp [hs] at hrow
      | some srcs =>
        simp only [hs, Option.map_some, Option.getD_some] at hrow
        exact grecRows_modes r.grecType srcs row hrow
  | _ => trivial

theorem tableOp_modesOk (h : Host) (st : Conf) (ev : Event) : (tableOp h st ev).ModesOk := by
  rcases tableOp_shape h st ev with hs | ⟨hs, -⟩
  · exact hs.modesOk
  · rw [hs]
    trivial

/-- **One event** keeps the invariant. -/
theorem step_tableOk {h : Host} {st : Conf} (ev : Event) (hok : TableOk P st.groups)
    (hP : ∀ s, ValidSubscr s → s.refreshtime = ev.now → P s) :
    TableOk P (step h st ev).groups := by
  rw [step_groups]
  exact apply_ok (tableOp_modesOk h st ev) hok hP

/-! ## 6. Runs

The invariant is used with two properties.  `ValidSubscr` does not depend on the time.  `SubscrAt t`
does, and is carried over runs whose events do not go back in time. -/

/-- The daemon starts with no groups: neither the scan nor the first queries make one. -/
theorem boot_groups (h : Host) (o : Options) (now : Nat) (ifap : Option (List IfAddr)) :
    (boot h o now ifap).groups = listNew := by
  rw [boot, (sendMldQuerys_sendsOnly h _).groups, updateInterfaces_groups]
  rfl

/-- **A run** keeps the invariant. -/
theorem run_tableOk {h : Host} {st : Conf} (hok : TableOk ValidSubscr st.groups)
    (es : List Event) : TableOk ValidSubscr (run h st es).groups :=
  Runs.run_invariant (P := fun st => TableOk ValidSubscr st.groups)
    (fun _ ev hs => step_tableOk ev hs fun _ hv _ => hv) es st hok

/-- The table of a state that the daemon can reach is well-formed. -/
theorem reachable_tableOk {h : Host} {st : Conf} (hr : Reachable h st) :
    TableOk ValidSubscr st.groups := by
  obtain ⟨o, now, ifap, es, rfl⟩ := hr
  refine run_tableOk ?_ es
  rw [boot_groups]
  exact tableOk_new

/-- A subscription of a table at time `t`: no refresh of it is in the future. -/
def SubscrAt (t : Nat) (s : SubscrNode) : Prop := ValidSubscr s ∧ s.refreshtime ≤ t

theorem clocked_cons {t : Nat} {e : Event} {es : List Event} :
    Clocked t (e :: es) ↔ t ≤ e.now ∧ (∀ x ∈ es, t ≤ x.now) ∧ Clocked e.now es := by
  simp [Clocked, List.pairwise_cons, and_assoc]

/-- Over a run whose events do not go back in time, no refresh is ever in the future. -/
theorem run_tableAt {h : Host} : ∀ {es : List Event} {st : Conf} {t t' : Nat},
    TableOk (SubscrAt t) st.groups → Clocked t es → t ≤ t' → (∀ e ∈ es, e.now ≤ t') →
    TableOk (SubscrAt t') (run h st es).groups := by
  intro es
  induction es with
  | nil => exact fun hok _ ht _ => hok.imp fun _ hs => ⟨hs.1, Nat.le_trans hs.2 ht⟩
  | cons e es ih =>
    intro st t t' hok hc _ hle
    obtain ⟨hte, -, hc⟩ := clocked_cons.mp hc
    have hstep : TableOk (SubscrAt e.now) (step h st e).groups :=
      step_tableOk e (hok.imp fun _ hs => ⟨hs.1, Nat.le_trans hs.2 hte⟩)
        fun s hv hr => ⟨hv, Nat.le_of_eq hr⟩
    exact ih hstep hc (hle e List.mem_cons_self) fun x hx => hle x (List.mem_cons_of_mem _ hx)

/-- The same for a state that the daemon can reach by the time `t`. -/
theorem reachableAt_tableOk {h : Host} {st : Conf} {t : Nat} (hr : ReachableAt h st t) :
    TableOk (SubscrAt t) st.groups := by
  obtain ⟨o, now, ifap, es, hc, hle, hnow, rfl⟩ := hr
  refine run_tableAt (t := now) ?_ hc hnow hle
  rw [boot_groups]
  exact tableOk_new

/-- **The representation invariant of the membership table**, spelled out: in every state that
the daemon reaches, no two groups share an address, no two group-interfaces of a group an index,
no two subscriptions of a group-interface a source; every mode is one of the two, and a `::`
subscription includes. -/
theorem membership_table_representation (h : Host) (o : Options) (now : Nat)
    (ifap : Option (List IfAddr)) (es : List Event) :
    ((run h (boot h o now ifap) es).groups.nodes.map GroupNode.mca).Nodup ∧
    ∀ groupn ∈ (run h (boot h o now ifap) es).groups.nodes,
      (groupn.interfaces.nodes.map GrpIntNode.ifindex).Nodup ∧
      ∀ grpintn ∈ groupn.interfaces.nodes,
        (grpintn.subscriptions.nodes.map SubscrNode.ipv6).Nodup ∧
        ∀ subscrn ∈ grpintn.subscriptions.nodes,
          (subscrn.mode = mld2ModeIsInclude ∨ subscrn.mode = mld2ModeIsExclude) ∧
          (subscrn.ipv6 = In6Addr.any → subscrn.mode = mld2ModeIsInclude) := by
  have hok : TableOk ValidSubscr (run h (boot h o now ifap) es).groups :=
    reachable_tableOk ⟨o, now, ifap, es, rfl⟩
  refine ⟨hok.unique, fun groupn hg => ⟨(hok.all groupn hg).unique, fun grpintn hi => ?_⟩⟩
  have hs := (hok.all groupn hg).all grpintn hi
  exact ⟨hs.unique, hs.all⟩

end Ecmh
