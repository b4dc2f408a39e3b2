/-
# The configuration and the interface table

`struct conf` and `struct intnode` (`ecmh.h`, `interfaces.h`), and the functions of
`interfaces.c`, as the default Linux build has them: `ECMH_SUPPORT_MLD2` and `ECMH_GETIFADDR`
set, `ECMH_BPF` not.

A `struct intnode *` is the index of its slot in `g_conf->ints`, which is also the length of
that array: `maxinterfaces`.  A slot with `mtu` 0 is not in use.

What the kernel decides is an input: `Host.sendto` answers the calls of `sendto` in the order
they are made, and an `IfProbe` holds the answers that one `int_create` gets.  Every packet
handed to the socket is appended to `Conf.sent`, with the function that built it and the
membership table at that time.
-/
import Ecmh.Table
import Ecmh.Lib.Slots

namespace Ecmh

open ByteMem

/-! ## 1. The machine -/

/-- What `sendto` returns: the packet was taken, or `errno` is `ENXIO`, or another error. -/
inductive SendRes
  | sent
  | enxio
  | failed
  deriving DecidableEq

/-- The machine the daemon runs on: its byte order, the answers of its `sendto`, and the bytes
that lie in memory behind a fresh buffer. -/
structure Host where
  endian : Endian
  sendto : Nat → SendRes
  junk : Nat → UInt8

/-- A buffer of `size` bytes, cleared by `calloc` or `memzero`, and what lies behind it. -/
def Host.calloc (h : Host) (size : Nat) : Mem := fun i => if i < size then 0 else h.junk i

/-- A group record, as data: `grec_type`, `grec_mca` and the sources. -/
structure Grec where
  grecType : Nat
  grecMca : In6Addr
  srcs : List In6Addr
  deriving DecidableEq

/-- The callers of `sendpacket6`; of the two that send reports, what the report is about. -/
inductive Sender
  | icmp6Send
  | mldSendQuery
  | mld1SendReport (mca : In6Addr)
  | mld2SendReport (recs : List Grec)
  | l4Ipv6Multicast
  deriving DecidableEq

/-- A packet handed to the socket: `sll_ifindex`, `sll_hatype` and `sll_addr` of the address it
goes to, and its bytes; and the membership table at that time. -/
structure Sent where
  sender : Sender
  ifindex : Nat
  hatype : Nat
  addr : List UInt8
  packet : List UInt8
  groups : Groups
  deriving DecidableEq

/-! ## 2. `struct intnode` and `struct conf` -/

/-- `struct intnode`; of `hwaddr` only the `sa_family` is ever read. -/
structure IntNode where
  ifindex : Nat
  name : String
  mtu : Nat
  mldVersion : Nat
  mldLastV1 : Nat
  hwaddr : Nat
  linklocal : In6Addr
  global : In6Addr
  statPacketsReceived : Nat
  statPacketsSent : Nat
  statBytesReceived : Nat
  statBytesSent : Nat
  statIcmpReceived : Nat
  statIcmpSent : Nat
  upstream : Bool
  deriving DecidableEq

/-- A slot after `memzero`. -/
def IntNode.zero : IntNode :=
  ⟨0, "", 0, 0, 0, 0, In6Addr.any, In6Addr.any, 0, 0, 0, 0, 0, 0, false⟩

/-- `struct conf`, with the `static last_update` of `update_interfaces` and the packets sent so
far. -/
structure Conf where
  ints : List IntNode
  groups : Groups
  upstream : Option String
  upstreamId : Nat
  mld1only : Bool
  mld2only : Bool
  lastUpdate : Nat
  statPacketsReceived : Nat
  statPacketsSent : Nat
  statBytesReceived : Nat
  statBytesSent : Nat
  statIcmpReceived : Nat
  statIcmpSent : Nat
  statHlimExceeded : Nat
  sent : List Sent
  deriving DecidableEq

namespace Conf

/-- `maxinterfaces`. -/
def maxinterfaces (st : Conf) : Nat := st.ints.length

/-- `&g_conf->ints[i]`. -/
def intn (st : Conf) (i : Nat) : IntNode := st.ints.getD i IntNode.zero

/-- Write to a slot of `g_conf->ints`. -/
def setInt (st : Conf) (i : Nat) (f : IntNode → IntNode) : Conf :=
  { st with ints := st.ints.modify i f }

/-- Write to the membership table. -/
def setGroups (st : Conf) (groups : Groups) : Conf := { st with groups := groups }

end Conf

/-! ## 3. `interfaces.c` -/

/-- `int_destroy`. -/
def intDestroy (st : Conf) (i : Nat) : Conf := st.setInt i (fun intn => { intn with mtu := 0 })

/-- `int_find`. -/
def intFind (st : Conf) (ifindex : Nat) : Option Nat :=
  if ifindex ≥ st.maxinterfaces ∨ (st.intn ifindex).mtu = 0 then none else some ifindex

/-- The answers of the system calls of one `int_create`: `socket`, `SIOCGIFNAME`, `SIOCGIFMTU`,
and the `sa_family` of `SIOCGIFHWADDR`. -/
structure IfProbe where
  socket : Bool
  name : Option String
  mtu : Option Int
  hwaddr : Option Nat
  deriving DecidableEq

/-- `ARPHRD_LOOPBACK`. -/
def arphrdLoopback : Nat := 772

/-- `strcasecmp(a, b) == 0`. -/
def strcasecmpEq (a b : String) : Bool := a.toList.map Char.toLower = b.toList.map Char.toLower

/-- The `realloc` and `memzero` of `int_create`: the array is grown to hold `ifindex`. -/
def intGrow (st : Conf) (ifindex : Nat) : Conf :=
  { st with ints := st.ints ++ List.replicate (ifindex + 1 - st.maxinterfaces) IntNode.zero }

/-- `int_create`. -/
def intCreate (st : Conf) (ifindex : Nat) (probe : IfProbe) : Conf × Option Nat :=
  let st := intGrow st ifindex
  if !probe.socket then (st, none)
  else
    let st := st.setInt ifindex (fun _ => { IntNode.zero with ifindex := ifindex })
    match probe.name with
    | none => (intDestroy st ifindex, none)
    | some name =>
      let st := st.setInt ifindex (fun intn => { intn with name := name })
      match probe.mtu with
      | none => (intDestroy st ifindex, none)
      | some mtu =>
        if mtu < 1280 then (intDestroy st ifindex, none)
        else
          let st := st.setInt ifindex (fun intn => { intn with mtu := mtu.toNat })
          match probe.hwaddr with
          | none => (intDestroy st ifindex, none)
          | some family =>
            let st := st.setInt ifindex (fun intn => { intn with hwaddr := family })
            if family = arphrdLoopback then (intDestroy st ifindex, none)
            else
              match st.upstream with
              | some upstream =>
                if strcasecmpEq name upstream then
                  ({ st.setInt ifindex (fun intn => { intn with upstream := true }) with
                      upstreamId := ifindex }, some ifindex)
                else (st.setInt ifindex (fun intn => { intn with upstream := false }), some ifindex)
              | none =>
                (st.setInt ifindex (fun intn => { intn with upstream := false }), some ifindex)

/-- `int_set_mld_version`, on the interface in slot `i`. -/
def intSetMldVersion (now : Nat) (st : Conf) (i : Nat) (newversion : Nat) : Conf :=
  if newversion = 1 then
    if st.mld2only then st
    else if (st.intn i).mldVersion = 0 ∧ (st.intn i).mldVersion ≠ 1 then
      st.setInt i (fun intn => { intn with mldVersion := 1, mldLastV1 := now })
    else st
  else
    let st :=
      if (st.intn i).mldLastV1 ≠ 0 ∧ now > (st.intn i).mldLastV1 + ecmhSubscriptionTimeout then
        st.setInt i (fun intn => { intn with mldVersion := 0, mldLastV1 := 0 })
      else st
    if st.mld1only then st
    else if (st.intn i).mldVersion = 0 ∧ (st.intn i).mldVersion ≠ 1 ∧
        (st.intn i).mldVersion ≠ 2 then
      st.setInt i (fun intn => { intn with mldVersion := newversion })
    else st

/-- `int_find` returns the slot of the index it is asked for, if an interface is in use there. -/
theorem intFind_eq_some {st : Conf} {ifindex i : Nat} : intFind st ifindex = some i ↔
    i = ifindex ∧ ifindex < st.maxinterfaces ∧ (st.intn ifindex).mtu ≠ 0 := by
  unfold intFind
  split
  · rename_i h
    constructor
    · simp
    · rintro ⟨-, h1, h2⟩
      rcases h with h | h
      · omega
      · exact absurd h h2
  · rename_i h
    simp only [not_or, Nat.not_le, ge_iff_le] at h
    simp [h, eq_comm]

/-! ## 4. What the writes leave alone -/

section Frame

variable (st : Conf) (i : Nat) (f : IntNode → IntNode)

@[simp] theorem setInt_groups : (st.setInt i f).groups = st.groups := rfl

@[simp] theorem setInt_sent : (st.setInt i f).sent = st.sent := rfl

@[simp] theorem setInt_mld1only : (st.setInt i f).mld1only = st.mld1only := rfl

@[simp] theorem setInt_mld2only : (st.setInt i f).mld2only = st.mld2only := rfl

@[simp] theorem setInt_maxinterfaces : (st.setInt i f).maxinterfaces = st.maxinterfaces := by
  simp [Conf.maxinterfaces, Conf.setInt]

@[simp] theorem setGroups_groups (groups : Groups) : (st.setGroups groups).groups = groups := rfl

@[simp] theorem setGroups_ints (groups : Groups) : (st.setGroups groups).ints = st.ints := rfl

@[simp] theorem setGroups_intn (groups : Groups) : (st.setGroups groups).intn i = st.intn i := rfl

@[simp] theorem setGroups_sent (groups : Groups) : (st.setGroups groups).sent = st.sent := rfl

@[simp] theorem intDestroy_groups : (intDestroy st i).groups = st.groups := rfl

@[simp] theorem intDestroy_sent : (intDestroy st i).sent = st.sent := rfl

@[simp] theorem intGrow_groups : (intGrow st i).groups = st.groups := rfl

@[simp] theorem intGrow_sent : (intGrow st i).sent = st.sent := rfl

end Frame

/-- A write to a slot, seen from any slot. -/
theorem setInt_intn (st : Conf) (i j : Nat) (f : IntNode → IntNode) :
    (st.setInt i f).intn j = if i = j ∧ j < st.maxinterfaces then f (st.intn j) else st.intn j :=
  Slots.getD_modify st.ints i j f

theorem setInt_intn_ne (st : Conf) {i j : Nat} (f : IntNode → IntNode) (h : i ≠ j) :
    (st.setInt i f).intn j = st.intn j := by
  rw [setInt_intn, if_neg (fun hc => h hc.1)]

/-- There is nothing behind the end of the table. -/
theorem intn_of_ge {st : Conf} {i : Nat} (h : st.maxinterfaces ≤ i) : st.intn i = IntNode.zero :=
  Slots.getD_of_length_le h

/-- What a write does not change in its slot, it changes in none. -/
theorem setInt_field {β : Type} (g : IntNode → β) {f : IntNode → IntNode}
    (hf : ∀ a, g (f a) = g a) (st : Conf) (i j : Nat) :
    g ((st.setInt i f).intn j) = g (st.intn j) := by
  rw [setInt_intn]
  split
  · exact hf _
  · rfl

theorem setInt_id (st : Conf) (i : Nat) : st.setInt i id = st := by
  simp [Conf.setInt, List.modify_id]

theorem setInt_setInt (st : Conf) (i : Nat) (f g : IntNode → IntNode) :
    (st.setInt i f).setInt i g = st.setInt i (g ∘ f) := by
  simp [Conf.setInt, List.modify_modify_eq]

/-- A write that changes the MLD version and the time of the last MLDv1 packet at most. -/
def VersionOnly (f : IntNode → IntNode) : Prop :=
  ∀ a, f a = { a with mldVersion := (f a).mldVersion, mldLastV1 := (f a).mldLastV1 }

/-- `int_set_mld_version` writes to the version fields of one slot. -/
theorem intSetMldVersion_eq (now : Nat) (st : Conf) (i newversion : Nat) :
    ∃ f, intSetMldVersion now st i newversion = st.setInt i f ∧ VersionOnly f := by
  have hid : ∃ f, st = st.setInt i f ∧ VersionOnly f := ⟨id, (setInt_id st i).symm, fun _ => rfl⟩
  unfold intSetMldVersion
  split
  · split
    · exact hid
    · split
      · exact ⟨_, rfl, fun _ => rfl⟩
      · exact hid
  · dsimp only
    split <;> split
    · exact ⟨_, rfl, fun _ => rfl⟩
    · split
      · exact ⟨_, setInt_setInt st i _ _, fun _ => rfl⟩
      · exact ⟨_, rfl, fun _ => rfl⟩
    · exact hid
    · split
      · exact ⟨_, rfl, fun _ => rfl⟩
      · exact hid

section Version

variable (now : Nat) (st : Conf) (i newversion : Nat)

@[simp] theorem intSetMldVersion_groups :
    (intSetMldVersion now st i newversion).groups = st.groups := by
  obtain ⟨f, hf, -⟩ := intSetMldVersion_eq now st i newversion
  rw [hf, setInt_groups]

@[simp] theorem intSetMldVersion_sent :
    (intSetMldVersion now st i newversion).sent = st.sent := by
  obtain ⟨f, hf, -⟩ := intSetMldVersion_eq now st i newversion
  rw [hf, setInt_sent]

/-- No slot changes but for the two version fields. -/
theorem intSetMldVersion_intn (j : Nat) : (intSetMldVersion now st i newversion).intn j
    = { st.intn j with
        mldVersion := ((intSetMldVersion now st i newversion).intn j).mldVersion
        mldLastV1 := ((intSetMldVersion now st i newversion).intn j).mldLastV1 } := by
  obtain ⟨f, hf, hv⟩ := intSetMldVersion_eq now st i newversion
  rw [hf, setInt_intn]
  split
  · exact hv _
  · rfl

@[simp] theorem intSetMldVersion_ifindex (j : Nat) :
    ((intSetMldVersion now st i newversion).intn j).ifindex = (st.intn j).ifindex := by
  rw [intSetMldVersion_intn]

end Version

end Ecmh
