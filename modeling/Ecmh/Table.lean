/-
# The membership table

`linklist.c`, `subscr.c`, `grpint.c` and `groups.c`.  The table is a list of groups; a group
holds a list of the interfaces that have listeners for it, and such a group-interface a list of
subscriptions, one for each source.

* A `struct list` is a `CList`: the data of its nodes in the order `LIST_LOOP` meets them, and
  the counter that the list module keeps beside them.  The counter is data of its own, since
  the daemon writes it directly and decides on it.
* A pointer to a node that a `find` returned stands for "the first node with this key", and the
  code writes through it without moving the node: `KeyedList.adjust`.
* `calloc` succeeds.  Times are seconds of a clock that starts at 0, as `gettimes()` returns
  them.
-/
import Ecmh.Addr
import Ecmh.Lib.Keyed

namespace Ecmh

/-- `ECMH_SUBSCRIPTION_TIMEOUT`, in seconds. -/
def ecmhSubscriptionTimeout : Nat := 125

/-- `ECMH_ROBUSTNESS_FACTOR`. -/
def ecmhRobustnessFactor : Nat := 2

/-! ## 1. `linklist.c` -/

/-- `struct list`. -/
structure CList (α : Type) where
  nodes : List α
  count : Int
  deriving DecidableEq

variable {α : Type}

/-- `list_new`. -/
def listNew : CList α := ⟨[], 0⟩

/-- `listnode_add`. -/
def listnodeAdd (list : CList α) (val : α) : CList α :=
  ⟨list.nodes ++ [val], (if list.count < 0 then 0 else list.count) + 1⟩

/-- `list_delete_node`, for the first node whose data passes the test. -/
def listDeleteNode (list : CList α) (node : α → Bool) : CList α :=
  ⟨list.nodes.eraseP node, list.count - 1⟩

/-- `LIST_LOOP2` with a body that may delete the node it is at (`none`): the walk over the nodes
that are left, and the counter. -/
def loop2 (body : α → Option α) : List α → Int → List α × Int
  | [], count => ([], count)
  | x :: next, count =>
    match body x with
    | none => loop2 body next (count - 1)
    | some y => (y :: (loop2 body next count).1, (loop2 body next count).2)

/-- `LIST_LOOP2` over a list. -/
def listLoop2 (body : α → Option α) (list : CList α) : CList α :=
  ⟨(loop2 body list.nodes list.count).1, (loop2 body list.nodes list.count).2⟩

theorem loop2_nodes (body : α → Option α) : ∀ (l : List α) (c : Int),
    (loop2 body l c).1 = l.filterMap body
  | [], _ => rfl
  | x :: t, c => by
    rw [loop2]
    cases h : body x with
    | none => simp [h, loop2_nodes body t]
    | some y => simp [h, loop2_nodes body t]

/-- The counter goes down once for each deleted node. -/
theorem loop2_count (body : α → Option α) : ∀ (l : List α) (c : Int),
    (loop2 body l c).2 = c - (l.length - (l.filterMap body).length)
  | [], c => by simp [loop2]
  | x :: t, c => by
    rw [loop2]
    cases h : body x with
    | none =>
      have ih := loop2_count body t (c - 1)
      rw [List.filterMap_cons_none h, List.length_cons]
      dsimp only
      omega
    | some y =>
      have ih := loop2_count body t c
      rw [List.filterMap_cons_some h, List.length_cons, List.length_cons]
      dsimp only
      omega

@[simp] theorem listLoop2_nodes (body : α → Option α) (list : CList α) :
    (listLoop2 body list).nodes = list.nodes.filterMap body := loop2_nodes body _ _

theorem listLoop2_count (body : α → Option α) (list : CList α) : (listLoop2 body list).count
    = list.count - (list.nodes.length - (list.nodes.filterMap body).length) := loop2_count body _ _

/-! ## 2. `subscr.c` -/

/-- `MLD2_MODE_IS_INCLUDE`. -/
def mld2ModeIsInclude : Nat := 1

/-- `MLD2_MODE_IS_EXCLUDE`. -/
def mld2ModeIsExclude : Nat := 2

/-- `struct subscrnode`. -/
structure SubscrNode where
  ipv6 : In6Addr
  mode : Nat
  refreshtime : Nat
  deriving DecidableEq

/-- `subscr_create`. -/
def subscrCreate (now : Nat) (ipv6 : In6Addr) (mode : Nat) : SubscrNode := ⟨ipv6, mode, now⟩

/-- `subscr_find`. -/
def subscrFind (list : CList SubscrNode) (ipv6 : In6Addr) : Option SubscrNode :=
  KeyedList.find SubscrNode.ipv6 ipv6 list.nodes

/-- `subscr_unsub`. -/
def subscrUnsub (list : CList SubscrNode) (ipv6 : In6Addr) : CList SubscrNode × Bool :=
  match subscrFind list ipv6 with
  | some _ => (listDeleteNode list (fun s => s.ipv6 = ipv6), true)
  | none => (list, false)

/-! ## 3. `grpint.c` -/

/-- `struct grpintnode`. -/
structure GrpIntNode where
  ifindex : Nat
  subscriptions : CList SubscrNode
  deriving DecidableEq

/-- `grpint_create`, of the interface with this `ifindex`. -/
def grpintCreate (ifindex : Nat) : GrpIntNode := ⟨ifindex, listNew⟩

/-- `grpint_find`. -/
def grpintFind (list : CList GrpIntNode) (ifindex : Nat) : Option GrpIntNode :=
  KeyedList.find GrpIntNode.ifindex ifindex list.nodes

/-- The first half of `grpint_refresh`: find the subscription or create it. -/
def subscrGet (now : Nat) (list : CList SubscrNode) (ipv6 : In6Addr) (mode : Nat) :
    CList SubscrNode :=
  match subscrFind list ipv6 with
  | some _ => list
  | none => listnodeAdd list (subscrCreate now ipv6 mode)

/-- Write through the pointer that `subscr_find` returned. -/
def setSubscr (list : CList SubscrNode) (ipv6 : In6Addr) (f : SubscrNode → SubscrNode) :
    CList SubscrNode :=
  { list with nodes := KeyedList.adjust SubscrNode.ipv6 ipv6 f list.nodes }

/-- `grpint_refresh`. -/
def grpintRefresh (now : Nat) (grpintn : GrpIntNode) (ipv6 : In6Addr) (mode : Nat) : GrpIntNode :=
  -- exclude all: the subscription is left alone and times out
  if mode = mld2ModeIsExclude ∧ in6IsAddrUnspecified ipv6 then grpintn
  else
    { grpintn with
      subscriptions := setSubscr (subscrGet now grpintn.subscriptions ipv6 mode) ipv6
        (fun subscrn => { subscrn with mode := mode, refreshtime := now }) }

/-! ## 4. `groups.c` -/

/-- `struct groupnode`. -/
structure GroupNode where
  mca : In6Addr
  interfaces : CList GrpIntNode
  lastforward : Nat
  bytes : Nat
  packets : Nat
  deriving DecidableEq

/-- The membership table, `g_conf->groups`. -/
abbrev Groups := CList GroupNode

/-- `group_create`. -/
def groupCreate (mca : In6Addr) : GroupNode := ⟨mca, listNew, 0, 0, 0⟩

/-- `group_find`. -/
def groupFind (groups : Groups) (mca : In6Addr) : Option GroupNode :=
  KeyedList.find GroupNode.mca mca groups.nodes

/-- Write through the pointer that `group_find` returned. -/
def setGroup (groups : Groups) (mca : In6Addr) (f : GroupNode → GroupNode) : Groups :=
  { groups with nodes := KeyedList.adjust GroupNode.mca mca f groups.nodes }

/-- Write through the pointer that `grpint_find` returned. -/
def setGrpint (groupn : GroupNode) (ifindex : Nat) (f : GrpIntNode → GrpIntNode) : GroupNode :=
  { groupn with interfaces := { groupn.interfaces with
      nodes := KeyedList.adjust GrpIntNode.ifindex ifindex f groupn.interfaces.nodes } }

/-- Write through the pointer that `groupint_get` returned. -/
def setGroupint (groups : Groups) (mca : In6Addr) (ifindex : Nat) (f : GrpIntNode → GrpIntNode) :
    Groups := setGroup groups mca (fun groupn => setGrpint groupn ifindex f)

/-- The subtraction of two `uint64_t`. -/
def sub64 (a b : Nat) : Nat := (a + (2 ^ 64 - b % 2 ^ 64)) % 2 ^ 64

/-- The part of `groupint_get` that works on the group node: stamp it and find or create the
group-interface. -/
def groupTouch (t ifindex : Nat) (groupn : GroupNode) : GroupNode :=
  let groupn := { groupn with lastforward := t }
  match grpintFind groupn.interfaces ifindex with
  | some _ => groupn
  | none => { groupn with interfaces := listnodeAdd groupn.interfaces (grpintCreate ifindex) }

/-- `groupint_get`: the table with the group and the group-interface in it, and `*isnew`.  The
node it returns is the one that `setGroupint` writes to.

The source tests the pointer `isnew`, not the flag, before it stamps `lastforward`, so the stamp
is unconditional. -/
def groupintGet (t : Nat) (groups : Groups) (mca : In6Addr) (ifindex : Nat) : Groups × Bool :=
  match groupFind groups mca with
  | none => (setGroup (listnodeAdd groups (groupCreate mca)) mca (groupTouch t ifindex), true)
  | some groupn =>
    (setGroup groups mca (groupTouch t ifindex),
      decide (sub64 t groupn.lastforward ≥ ecmhSubscriptionTimeout))

/-- The group-interface that `group_find` and then `grpint_find` find. -/
def groupintFind (groups : Groups) (mca : In6Addr) (ifindex : Nat) : Option GrpIntNode :=
  match groupFind groups mca with
  | none => none
  | some groupn => grpintFind groupn.interfaces ifindex

/-- The subscriptions of interface `ifindex` for group `mca`, as the code finds them. -/
def subscriptionsOf (groups : Groups) (mca : In6Addr) (ifindex : Nat) : List SubscrNode :=
  match groupintFind groups mca ifindex with
  | none => []
  | some grpintn => grpintn.subscriptions.nodes

/-! ## 5. Writing through the pointers -/

theorem setGrpint_mca (ifindex : Nat) (f : GrpIntNode → GrpIntNode) (groupn : GroupNode) :
    (setGrpint groupn ifindex f).mca = groupn.mca := rfl

theorem setGrpint_congr {groupn : GroupNode} {ifindex : Nat} {f g : GrpIntNode → GrpIntNode}
    (h : ∀ grpintn, grpintFind groupn.interfaces ifindex = some grpintn → f grpintn = g grpintn) :
    setGrpint groupn ifindex f = setGrpint groupn ifindex g := by
  rw [setGrpint, setGrpint, KeyedList.adjust_congr h]

/-- Only what is written to the group-interface that is found matters. -/
theorem setGroupint_congr {groups : Groups} {mca : In6Addr} {ifindex : Nat}
    {f g : GrpIntNode → GrpIntNode}
    (h : ∀ grpintn, groupintFind groups mca ifindex = some grpintn → f grpintn = g grpintn) :
    setGroupint groups mca ifindex f = setGroupint groups mca ifindex g := by
  have hg : ∀ groupn, groupFind groups mca = some groupn →
      setGrpint groupn ifindex f = setGrpint groupn ifindex g := fun groupn hf =>
    setGrpint_congr fun grpintn hi => h grpintn (by simp [groupintFind, hf, hi])
  rw [setGroupint, setGroupint, setGroup, setGroup, KeyedList.adjust_congr hg]

theorem setGroupint_id (groups : Groups) (mca : In6Addr) (ifindex : Nat) :
    setGroupint groups mca ifindex id = groups := by
  have h : (fun groupn => setGrpint groupn ifindex id) = id := by
    funext groupn
    simp [setGrpint]
  simp [setGroupint, setGroup, h]

/-- Nothing is written where nothing is found. -/
theorem setGroupint_of_find_none {groups : Groups} {mca : In6Addr} {ifindex : Nat}
    (f : GrpIntNode → GrpIntNode) (h : groupintFind groups mca ifindex = none) :
    setGroupint groups mca ifindex f = groups := by
  refine (setGroupint_congr fun grpintn hg => ?_).trans (setGroupint_id groups mca ifindex)
  simp [h] at hg

theorem setGrpint_setGrpint (groupn : GroupNode) (ifindex : Nat) {f g : GrpIntNode → GrpIntNode}
    (hf : ∀ x, (f x).ifindex = x.ifindex) :
    setGrpint (setGrpint groupn ifindex f) ifindex g
      = setGrpint groupn ifindex (fun x => g (f x)) := by
  simp only [setGrpint, KeyedList.adjust_adjust hf]

/-- Two writes to the same group-interface are one. -/
theorem setGroupint_setGroupint (groups : Groups) (mca : In6Addr) (ifindex : Nat)
    {f g : GrpIntNode → GrpIntNode} (hf : ∀ x, (f x).ifindex = x.ifindex) :
    setGroupint (setGroupint groups mca ifindex f) mca ifindex g
      = setGroupint groups mca ifindex (fun x => g (f x)) := by
  simp only [setGroupint, setGroup, KeyedList.adjust_adjust (setGrpint_mca ifindex f),
    setGrpint_setGrpint _ ifindex hf]

/-- A write changes nothing exactly if it does not change the group-interface that is found. -/
theorem setGroupint_eq_self_iff {groups : Groups} {mca : In6Addr} {ifindex : Nat}
    {f : GrpIntNode → GrpIntNode} : setGroupint groups mca ifindex f = groups ↔
      ∀ grpintn, groupintFind groups mca ifindex = some grpintn → f grpintn = grpintn := by
  have hgroup : ∀ groupn, setGrpint groupn ifindex f = groupn ↔
      ∀ grpintn, grpintFind groupn.interfaces ifindex = some grpintn → f grpintn = grpintn := by
    intro groupn
    refine Iff.trans ?_ KeyedList.adjust_eq_self_iff
    constructor
    · exact congrArg fun g : GroupNode => g.interfaces.nodes
    · intro h
      rw [setGrpint, h]
  have htable : setGroupint groups mca ifindex f = groups ↔
      ∀ groupn, groupFind groups mca = some groupn → setGrpint groupn ifindex f = groupn := by
    refine Iff.trans ?_ KeyedList.adjust_eq_self_iff
    constructor
    · exact congrArg CList.nodes
    · intro h
      rw [setGroupint, setGroup, h]
  rw [htable, groupintFind]
  cases groupFind groups mca with
  | none => simp
  | some groupn => simp [hgroup]

/-- Writes to group-interfaces of different groups can be exchanged. -/
theorem setGroupint_comm (groups : Groups) {mca mca' : In6Addr} (h : mca ≠ mca') (i i' : Nat)
    (f g : GrpIntNode → GrpIntNode) :
    setGroupint (setGroupint groups mca i f) mca' i' g
      = setGroupint (setGroupint groups mca' i' g) mca i f := by
  simp only [setGroupint, setGroup]
  rw [KeyedList.adjust_comm h (setGrpint_mca i f) (setGrpint_mca i' g)]

/-- Writes to one group-interface that can be exchanged. -/
theorem setGroupint_comm_same (groups : Groups) (mca : In6Addr) (ifindex : Nat)
    {f g : GrpIntNode → GrpIntNode} (hf : ∀ x, (f x).ifindex = x.ifindex)
    (hg : ∀ x, (g x).ifindex = x.ifindex) (h : ∀ x, g (f x) = f (g x)) :
    setGroupint (setGroupint groups mca ifindex f) mca ifindex g
      = setGroupint (setGroupint groups mca ifindex g) mca ifindex f := by
  rw [setGroupint_setGroupint _ _ _ hf, setGroupint_setGroupint _ _ _ hg]
  simp only [h]

end Ecmh
