/-
# The membership table in memory

`subscr.c`, `grpint.c` and `groups.c`, the end of the reduction handler and the loops of `timeout`,
on a heap: a group points to its list of interfaces, and a group-interface to its list of
subscriptions.  The objects are freed by hand, and the lists that belonged to them stay behind.

`tableOpOnHeap` is what an operation on the table does to the heap.
-/
import Ecmh.LinkList
import Ecmh.TableOp

namespace Ecmh.OnHeap

open CellHeap Linked

/-! ## 1. Objects -/

/-- `struct grpintnode`. -/
structure GrpIntObj where
  ifindex : Nat
  subscriptions : Option Nat
  deriving DecidableEq

/-- `struct groupnode`. -/
structure GroupObj where
  mca : In6Addr
  interfaces : Option Nat
  lastforward : Nat
  bytes : Nat
  packets : Nat
  deriving DecidableEq

/-- The objects that the nodes of the lists point to. -/
inductive Obj
  | subscr (s : SubscrNode)
  | grpint (g : GrpIntObj)
  | group (g : GroupObj)

/-- A program on the table. -/
abbrev TableM (α : Type) := HeapM (Cell Obj) α

def readSubscr (subscrn : Nat) : TableM SubscrNode := do
  match ← read subscrn with
  | .data (.subscr s) => pure s
  | _ => failure

def readGrpint (grpintn : Nat) : TableM GrpIntObj := do
  match ← read grpintn with
  | .data (.grpint g) => pure g
  | _ => failure

def readGroup (groupn : Nat) : TableM GroupObj := do
  match ← read groupn with
  | .data (.group g) => pure g
  | _ => failure

def modifyGroup (groupn : Nat) (f : GroupObj → GroupObj) : TableM Unit := do
  let g ← readGroup groupn
  write groupn (.data (.group (f g)))

/-! ## 2. `subscr.c` -/

section

variable (al : Allocator (Cell Obj))

/-- `subscr_create`. -/
def subscrCreate (now : Nat) (ipv6 : In6Addr) (mode : Nat) : TableM Nat :=
  alloc al (.data (.subscr (Ecmh.subscrCreate now ipv6 mode)))

/-- `subscr_destroy`. -/
def subscrDestroy (subscrn : Nat) : TableM Unit := free subscrn

/-- The loop of `subscr_find` and of `subscr_unsub`: the node, and the subscription. -/
def subscrNode (list : Nat) (ipv6 : In6Addr) : TableM (Option (Nat × Nat)) :=
  listFind (fun subscrn => do
    let s ← readSubscr subscrn
    pure (decide (s.ipv6 = ipv6))) list

/-- `subscr_find`. -/
def subscrFind (list : Nat) (ipv6 : In6Addr) : TableM (Option Nat) := do
  let found ← subscrNode list ipv6
  pure (found.map Prod.snd)

/-- `subscr_unsub`. -/
def subscrUnsub (list : Nat) (ipv6 : In6Addr) : TableM Bool := do
  match ← subscrNode list ipv6 with
  | none => pure false
  | some (ln, subscrn) => do
    listDeleteNode list ln
    subscrDestroy subscrn
    pure true

/-! ## 3. `grpint.c` -/

/-- `grpint_create`. -/
def grpintCreate (ifindex : Nat) : TableM Nat := do
  let grpintn ← alloc al (.data (.grpint ⟨ifindex, none⟩))
  let subscriptions ← listNew al
  write grpintn (.data (.grpint ⟨ifindex, some subscriptions⟩))
  pure grpintn

/-- `grpint_destroy`. -/
def grpintDestroy (grpintn : Nat) : TableM Unit := do
  let g ← readGrpint grpintn
  let subscriptions ← deref g.subscriptions
  listDeleteAllNode subscrDestroy subscriptions
  free grpintn

/-- `grpint_find`. -/
def grpintFind (list ifindex : Nat) : TableM (Option Nat) := do
  let found ← listFind (fun grpintn => do
    let g ← readGrpint grpintn
    pure (decide (g.ifindex = ifindex))) list
  pure (found.map Prod.snd)

/-- `grpint_refresh`, where the subscription was not found. -/
def subscrAdd (now : Nat) (subscriptions : Nat) (ipv6 : In6Addr) (mode : Nat) : TableM Nat := do
  let subscrn ← subscrCreate al now ipv6 mode
  listnodeAdd al subscriptions subscrn
  pure subscrn

/-- `grpint_refresh`, at the end: the mode and the time are stored. -/
def subscrStamp (now subscrn mode : Nat) : TableM Unit := do
  let s ← readSubscr subscrn
  write subscrn (.data (.subscr { s with mode := mode, refreshtime := now }))

/-- `grpint_refresh`, on the list of subscriptions. -/
def subscrRefresh (now subscriptions : Nat) (ipv6 : In6Addr) (mode : Nat) : TableM Unit := do
  let found ← subscrFind subscriptions ipv6
  -- exclude all: the subscription is left alone and times out
  if mode = mld2ModeIsExclude ∧ in6IsAddrUnspecified ipv6 then pure ()
  else match found with
    | some subscrn => subscrStamp now subscrn mode
    | none => do
      let subscrn ← subscrAdd al now subscriptions ipv6 mode
      subscrStamp now subscrn mode

/-- `grpint_refresh`. -/
def grpintRefresh (now grpintn : Nat) (ipv6 : In6Addr) (mode : Nat) : TableM Unit := do
  let g ← readGrpint grpintn
  let subscriptions ← deref g.subscriptions
  subscrRefresh al now subscriptions ipv6 mode

/-! ## 4. `groups.c` -/

/-- `group_create`. -/
def groupCreate (mca : In6Addr) : TableM Nat := do
  let groupn ← alloc al (.data (.group ⟨mca, none, 0, 0, 0⟩))
  let interfaces ← listNew al
  write groupn (.data (.group ⟨mca, some interfaces, 0, 0, 0⟩))
  pure groupn

/-- `group_destroy`. -/
def groupDestroy (groupn : Nat) : TableM Unit := do
  let g ← readGroup groupn
  let interfaces ← deref g.interfaces
  listDeleteAllNode grpintDestroy interfaces
  free groupn

/-- `group_find`. -/
def groupFind (groups : Nat) (mca : In6Addr) : TableM (Option Nat) := do
  let found ← listFind (fun groupn => do
    let g ← readGroup groupn
    pure (decide (g.mca = mca))) groups
  pure (found.map Prod.snd)

/-- The end of `groupint_get`: "Find the interface in this group", or create it. -/
def grpintGet (interfaces ifindex : Nat) : TableM Nat := do
  match ← grpintFind interfaces ifindex with
  | some grpintn => pure grpintn
  | none => do
    let grpintn ← grpintCreate al ifindex
    listnodeAdd al interfaces grpintn
    pure grpintn

/-- The second half of `groupint_get`: the group is stamped, and its group-interface is found or
created. -/
def groupTouch (t ifindex groupn : Nat) : TableM Nat := do
  modifyGroup groupn fun g => { g with lastforward := t }
  let g ← readGroup groupn
  let interfaces ← deref g.interfaces
  grpintGet al interfaces ifindex

/-- `groupint_get`: the group-interface, and `*isnew`. -/
def groupintGet (t groups : Nat) (mca : In6Addr) (ifindex : Nat) : TableM (Nat × Bool) := do
  match ← groupFind groups mca with
  | none => do
    let groupn ← groupCreate al mca
    listnodeAdd al groups groupn
    let grpintn ← groupTouch al t ifindex groupn
    pure (grpintn, true)
  | some groupn => do
    let g ← readGroup groupn
    let grpintn ← groupTouch al t ifindex groupn
    pure (grpintn, decide (sub64 t g.lastforward ≥ ecmhSubscriptionTimeout))

/-! ## 5. The handlers -/

/-- What a report does: `groupint_get`, and the calls of `grpint_refresh` on what it returned. -/
def joinTable (now ifindex groups : Nat) (j : Join) : TableM Unit := do
  let got ← groupintGet al now groups j.mca ifindex
  j.rows.forM fun row => grpintRefresh al now got.1 row.1 row.2

/-- "Skip Robustness": the counter is written past the list module. -/
def markEmpty (subscriptions : Nat) : TableM Unit :=
  modifyList subscriptions fun l => { l with count := -ecmhRobustnessFactor }

/-- The end of `l4_ipv6_icmpv6_mld1_reduction`, on the list of subscriptions. -/
def reduceSubscrs (subscriptions : Nat) : TableM Unit := do
  let found ← subscrUnsub subscriptions In6Addr.any
  if !found then pure ()
  else do
    let l ← readList subscriptions
    if l.count ≤ 0 then markEmpty subscriptions else pure ()

/-- The part of `l4_ipv6_icmpv6_mld1_reduction` that works on the group-interface. -/
def reduceGrpint (grpintn : Nat) : TableM Unit := do
  let g ← readGrpint grpintn
  let subscriptions ← deref g.subscriptions
  reduceSubscrs subscriptions

/-- The part of `l4_ipv6_icmpv6_mld1_reduction` that works on the group. -/
def reduceGroup (ifindex groupn : Nat) : TableM Unit := do
  let g ← readGroup groupn
  let interfaces ← deref g.interfaces
  match ← grpintFind interfaces ifindex with
  | none => pure ()
  | some grpintn => reduceGrpint grpintn

/-- `l4_ipv6_icmpv6_mld1_reduction`. -/
def mld1Reduction (groups : Nat) (mca : In6Addr) (ifindex : Nat) : TableM Unit := do
  match ← groupFind groups mca with
  | none => pure ()
  | some groupn => reduceGroup ifindex groupn

/-- The counters in `l4_ipv6_multicast`. -/
def multicastCount (groups : Nat) (dst : In6Addr) (len : Nat) : TableM Unit := do
  match ← groupFind groups dst with
  | none => pure ()
  | some groupn => modifyGroup groupn fun g =>
      { g with bytes := g.bytes + len, packets := g.packets + 1 }

/-- The body of the innermost loop of `timeout`. -/
def timeoutSubscr (timeTee subscriptions ssn subscrn : Nat) : TableM Unit := do
  let s ← readSubscr subscrn
  if deadTooLong timeTee s then do
    listDeleteNode subscriptions ssn
    subscrDestroy subscrn
  else pure ()

/-- The innermost loop of `timeout`, and the counter behind it. -/
def timeoutSubscrs (timeTee grpintn : Nat) : TableM Int := do
  let g ← readGrpint grpintn
  let subscriptions ← deref g.subscriptions
  let _ ← listLoop2 (timeoutSubscr timeTee subscriptions) subscriptions
  let l ← readList subscriptions
  pure l.count

/-- The body of the loop over the group-interfaces. -/
def timeoutGrpint (timeTee interfaces gn grpintn : Nat) : TableM Unit := do
  let count ← timeoutSubscrs timeTee grpintn
  if count ≤ -ecmhRobustnessFactor then do
    listDeleteNode interfaces gn
    grpintDestroy grpintn
  else pure ()

/-- The loop over the group-interfaces, and the counter behind it. -/
def timeoutGrpints (timeTee groupn : Nat) : TableM Int := do
  let g ← readGroup groupn
  let interfaces ← deref g.interfaces
  let _ ← listLoop2 (timeoutGrpint timeTee interfaces) interfaces
  let l ← readList interfaces
  pure l.count

/-- The body of the loop over the groups. -/
def timeoutGroup (timeTee groups ln groupn : Nat) : TableM Unit := do
  let count ← timeoutGrpints timeTee groupn
  if count = 0 then do
    listDeleteNode groups ln
    groupDestroy groupn
  else pure ()

/-- The loops of `timeout`. -/
def timeoutGroups (timeTee groups : Nat) : TableM Unit := do
  let _ ← listLoop2 (timeoutGroup timeTee groups) groups

/-- An operation on the table whose list of groups is at `groups`. -/
def tableOpOnHeap (now groups : Nat) : TableOp → TableM Unit
  | .keep => pure ()
  | .count dst len => multicastCount groups dst len
  | .refresh ifindex joins => joins.forM (joinTable al now ifindex groups)
  | .reduce mca ifindex => mld1Reduction groups mca ifindex
  | .sweep => timeoutGroups now groups

end

/-! ## 6. The table with its addresses -/

/-- A group-interface as it is in memory. -/
structure HGrpInt where
  ifindex : Nat
  subscriptions : HList SubscrNode

/-- A group as it is in memory. -/
structure HGroup where
  mca : In6Addr
  interfaces : HList HGrpInt
  lastforward : Nat
  bytes : Nat
  packets : Nat

/-- The memory of each object. -/
def subscrCells (d : Nat) (s : SubscrNode) : Cells (Cell Obj) := {(d, .data (.subscr s))}

def grpintCells (d : Nat) (g : HGrpInt) : Cells (Cell Obj) :=
  {(d, .data (.grpint ⟨g.ifindex, some g.subscriptions.addr⟩))} +
    g.subscriptions.cells subscrCells

def groupCells (d : Nat) (g : HGroup) : Cells (Cell Obj) :=
  {(d, .data (.group ⟨g.mca, some g.interfaces.addr, g.lastforward, g.bytes, g.packets⟩))} +
    g.interfaces.cells grpintCells

/-- The group-interface without addresses. -/
def HGrpInt.toNode (g : HGrpInt) : GrpIntNode := ⟨g.ifindex, g.subscriptions.toCList id⟩

/-- The group without addresses. -/
def HGroup.toNode (g : HGroup) : GroupNode :=
  ⟨g.mca, g.interfaces.toCList HGrpInt.toNode, g.lastforward, g.bytes, g.packets⟩

end Ecmh.OnHeap
