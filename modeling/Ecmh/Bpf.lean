/-
# The interface table of the BPF build

`interfaces.c` and the interface scan as the build with `ECMH_BPF` has them.  An interface reads
and writes through a BPF device of its own, whose descriptor is in the set that `select` is given;
in tunnel mode a tunnel has no device but a master, the interface that carries its packets.
`g_conf->locals` lists the interfaces with IPv4 addresses of this host.

The master and the entries of that list are pointers into `g_conf->ints`, which `realloc` may move:
an `IntPtr` says which allocation it points into.  What is read through a pointer into an old one
is a parameter, `freed`.

The addresses of an interface are the bytes from `ipv4_local` on (`IntNode.addrs`), for the scan
copies more of them than one field holds.  `fds` are the BPF devices that are open.
-/
import Ecmh.OnLink
import Ecmh.Lib.Slots
import Mathlib.Data.Finset.Erase
import Mathlib.Data.Finset.Insert

namespace Ecmh.Bpf

open ByteMem

/-! ## 1. `struct intnode` and `struct conf` -/

/-- `INTNODE_MAXIPV4`. -/
def intnodeMaxipv4 : Nat := 4

/-- A `struct intnode *`: the allocation of `g_conf->ints` that it points into, and the slot. -/
structure IntPtr where
  block : Nat
  slot : Nat
  deriving DecidableEq

/-- `struct intnode`.  A `socket` of -1 is `none`; `addrs` starts with `ipv4_local`. -/
structure IntNode where
  ifindex : Nat
  name : String
  mtu : Nat
  mldVersion : Nat
  mldLastV1 : Nat
  socket : Option Nat
  dlt : Nat
  bufferlen : Nat
  master : Option IntPtr
  addrs : Mem
  statPacketsReceived : Nat
  statPacketsSent : Nat
  statBytesReceived : Nat
  statBytesSent : Nat
  statIcmpReceived : Nat
  statIcmpSent : Nat
  upstream : Bool

/-- The offsets of `ipv4_remote`, `linklocal` and `global` behind `ipv4_local`. -/
def ipv4RemoteOff : Nat := 16
def linklocalOff : Nat := 20
def globalOff : Nat := 36

namespace IntNode

/-- A slot after `memzero`: its `socket` is descriptor 0. -/
def zero : IntNode := ⟨0, "", 0, 0, 0, some 0, 0, 0, none, fun _ => 0, 0, 0, 0, 0, 0, 0, false⟩

/-- `ipv4_local[num]`, `ipv4_remote`, `linklocal` and `global`. -/
def ipv4Local (intn : IntNode) (num : Nat) : InAddr := intn.addrs.read (4 * num) 4
def ipv4Remote (intn : IntNode) : InAddr := intn.addrs.read ipv4RemoteOff 4
def linklocal (intn : IntNode) : In6Addr := readAddr intn.addrs linklocalOff
def global (intn : IntNode) : In6Addr := readAddr intn.addrs globalOff

end IntNode

/-- `struct conf`, of what the interfaces need; `block` is the allocation that `ints` stands in. -/
structure Conf where
  ints : List IntNode
  block : Nat
  upstream : Option String
  upstreamId : Nat
  promisc : Bool
  tunnelmode : Bool
  bufferlen : Nat
  locals : CList IntPtr
  selectset : Finset Nat
  hifd : Nat
  lastUpdate : Nat
  statPacketsSent : Nat
  statBytesSent : Nat
  fds : Finset Nat

namespace Conf

/-- `maxinterfaces`. -/
def maxinterfaces (st : Conf) : Nat := st.ints.length

/-- `&g_conf->ints[i]`. -/
def intn (st : Conf) (i : Nat) : IntNode := st.ints.getD i IntNode.zero

/-- Write to a slot of `g_conf->ints`. -/
def setInt (st : Conf) (i : Nat) (f : IntNode → IntNode) : Conf :=
  { st with ints := st.ints.modify i f }

end Conf

/-- `INADDR_ANY`. -/
def inAddrAny : InAddr := [0, 0, 0, 0]

/-! ## 2. `interfaces.c` -/

/-- `int_destroy`. -/
def intDestroy (st : Conf) (i : Nat) : Conf :=
  let st :=
    match (st.intn i).socket with
    | some fd =>
      { st.setInt i (fun intn => { intn with socket := none }) with fds := st.fds.erase fd }
    | none => st
  st.setInt i (fun intn => { intn with mtu := 0 })

/-- `int_find`. -/
def intFind (st : Conf) (ifindex : Nat) : Option Nat :=
  if ifindex ≥ st.maxinterfaces ∨ (st.intn ifindex).mtu = 0 then none else some ifindex

/-- The address is one of the local ones of the interface, or the one of its other end. -/
def hasIpv4 (isLocal : Bool) (intn : IntNode) (ipv4 : InAddr) : Bool :=
  if isLocal then (List.range intnodeMaxipv4).any (fun num => intn.ipv4Local num = ipv4)
  else intn.ipv4Remote = ipv4

/-- `int_find_ipv4`. -/
def intFindIpv4 (st : Conf) (isLocal : Bool) (ipv4 : InAddr) : Option Nat :=
  (List.range st.maxinterfaces).find?
    (fun i => (st.intn i).mtu ≠ 0 && hasIpv4 isLocal (st.intn i) ipv4)

/-- `DLT_NULL` and `DLT_EN10MB`. -/
def dltNull : Nat := 0
def dltEn10mb : Nat := 1

/-- The answers of the system calls of one `int_create` that the other build does not make: whether
`realloc` moves the array; the descriptor of the BPF device, the `ioctl`s on it and `fcntl`; the
socket for the question after the two ends of a tunnel, and its answer. -/
structure BpfProbe where
  moved : Bool
  opened : Option Nat
  setif : Bool
  promisc : Bool
  nonblock : Bool
  immediate : Bool
  dlt : Option Nat
  bufferlen : Option Nat
  socket : Bool
  phyaddr : Option (InAddr × InAddr)
  deriving DecidableEq

/-- `int_create_bpf`, and whether it succeeds. -/
def intCreateBpf (st : Conf) (i : Nat) (tunnel : Bool) (probe : BpfProbe) : Conf × Bool :=
  if !st.tunnelmode || !tunnel then
    match probe.opened with
    | none => (st, false)
    | some fd =>
      let st := { st.setInt i (fun intn => { intn with socket := some fd }) with
        fds := insert fd st.fds }
      if !probe.setif then (st, false)
      else if st.promisc && !probe.promisc then (st, false)
      else if !probe.nonblock then (st, false)
      else if !probe.immediate then (st, false)
      else
        match probe.dlt with
        | none => (st, false)
        | some dlt =>
          let st := st.setInt i (fun intn => { intn with dlt := dlt })
          if dlt ≠ dltNull ∧ dlt ≠ dltEn10mb then (st, false)
          else
            match probe.bufferlen with
            | none => (st, false)
            | some bufferlen =>
              let st := st.setInt i (fun intn => { intn with bufferlen := bufferlen })
              ({ st with
                  bufferlen := max bufferlen st.bufferlen
                  selectset := insert fd st.selectset
                  hifd := max fd st.hifd }, true)
  else if !probe.socket then (st, false)
  else
    match probe.phyaddr with
    | none => (st, false)
    | some (addr, dstaddr) =>
      match intFindIpv4 st true addr with
      | none => (st, false)
      | some master =>
        let st := st.setInt i (fun intn => { intn with master := some ⟨st.block, master⟩ })
        (st.setInt i (fun intn =>
          { intn with addrs := (intn.addrs.write 0 addr).write ipv4RemoteOff dstaddr }), true)

/-- The `realloc` and `memzero` of `int_create`: the array is grown to hold `ifindex`. -/
def intGrow (st : Conf) (ifindex : Nat) (moved : Bool) : Conf :=
  if ifindex + 1 > st.maxinterfaces then
    { st with
      ints := st.ints ++ List.replicate (ifindex + 1 - st.maxinterfaces) IntNode.zero
      block := if moved then st.block + 1 else st.block }
  else st

/-- The end of `int_create`: is the interface the upstream one? -/
def setUpstream (st : Conf) (ifindex : Nat) (name : String) : Conf :=
  match st.upstream with
  | some upstream =>
    if strcasecmpEq name upstream then
      { st.setInt ifindex (fun intn => { intn with upstream := true }) with upstreamId := ifindex }
    else st.setInt ifindex (fun intn => { intn with upstream := false })
  | none => st.setInt ifindex (fun intn => { intn with upstream := false })

/-- `int_create`; the hardware address is not asked for. -/
def intCreate (st : Conf) (ifindex : Nat) (tunnel : Bool) (probe : IfProbe) (bpf : BpfProbe) :
    Conf × Option Nat :=
  let st := intGrow st ifindex bpf.moved
  if !probe.socket then (st, none)
  else
    let st := st.setInt ifindex
      (fun _ => { IntNode.zero with ifindex := ifindex, socket := none })
    match probe.name with
    | none => (intDestroy st ifindex, none)
    | some name =>
      let st := st.setInt ifindex (fun intn => { intn with name := name })
      match probe.mtu with
      | none => (intDestroy st ifindex, none)
      | some mtu =>
        if mtu < 1280 then (intDestroy st ifindex, none)
        else
          let st := st.setInt ifindex (fun intn => { intn with mtu := mtu.toNat })
          match intCreateBpf st ifindex tunnel bpf with
          | (st, false) => (intDestroy st ifindex, none)
          | (st, true) => (setUpstream st ifindex name, some ifindex)

/-- What a `struct intnode *` points to: what lies in the old array, if it has been moved. -/
def deref (freed : IntPtr → IntNode) (st : Conf) (p : IntPtr) : IntNode :=
  if p.block = st.block then st.intn p.slot else freed p

/-- `local_find`. -/
def localFind (freed : IntPtr → IntNode) (st : Conf) (ipv4 : InAddr) : Option IntPtr :=
  st.locals.nodes.find? (fun localn => hasIpv4 true (deref freed st localn) ipv4)

/-- `local_update`. -/
def localUpdate (freed : IntPtr → IntNode) (st : Conf) (i : Nat) : Conf :=
  (List.range intnodeMaxipv4).foldl (fun st num =>
    if (st.intn i).ipv4Local num = inAddrAny then st
    else if (localFind freed st ((st.intn i).ipv4Local num)).isSome then st
    else { st with locals := listnodeAdd st.locals ⟨st.block, i⟩ }) st

/-! ## 3. `update_interfaces` -/

/-- An entry of the list that `getifaddrs` returns.  `addr` is the variable of that name: for an
IPv4 address its four bytes, and the twelve bytes that lie behind them in memory.  `AF_LINK` takes
the place of `AF_PACKET`. -/
structure IfAddr extends Ecmh.IfAddr where
  pointopoint : Bool
  bpf : BpfProbe
  deriving DecidableEq

/-- The search of a slot for an IPv4 address, from the slots of a list: the one to store it in.  The
address is compared as sixteen bytes. -/
def ipv4Slot (addrs : Mem) (addr : In6Addr) (pointopoint : Bool) : List Nat → Option Nat
  | [] => none
  | num :: next =>
    if addrs.read (4 * num) 4 = inAddrAny then some num
    else if addrs.read (4 * num) 16 = addr.s6Addr then none
    else if pointopoint then none
    else ipv4Slot addrs addr pointopoint next

/-- An IPv4 address is stored in slot `i`, as sixteen bytes, and whether it is. -/
def storeIpv4 (st : Conf) (i : Nat) (ifa : IfAddr) : Conf × Bool :=
  match ipv4Slot (st.intn i).addrs ifa.addr ifa.pointopoint (List.range intnodeMaxipv4) with
  | some num =>
    (st.setInt i (fun intn => { intn with addrs := intn.addrs.write (4 * num) ifa.addr.s6Addr }),
      true)
  | none => (st, false)

/-- The address of the entry is stored in slot `i`, and whether one of the flags is set by it. -/
def scanStore (freed : IntPtr → IntNode) (st : Conf) (i : Nat) (ifa : IfAddr) : Conf × Bool :=
  if ifa.family = some .inet6 then
    if in6IsAddrLinklocal ifa.addr then
      (st.setInt i (fun intn =>
        { intn with addrs := intn.addrs.write linklocalOff ifa.addr.s6Addr }), true)
    else
      (st.setInt i (fun intn => { intn with addrs := intn.addrs.write globalOff ifa.addr.s6Addr }),
        true)
  else if ifa.family = some .inet then
    match storeIpv4 st i ifa with
    | (st, gotipv4) =>
      (if gotipv4 && !ifa.pointopoint then localUpdate freed st i else st, gotipv4)
  else (st, false)

/-- The body of the loop; it is only ever run for all interfaces. -/
def scanEntry (freed : IntPtr → IntNode) (st : Conf) (ifa : IfAddr) : Conf :=
  if scanSkips ifa.toIfAddr then st
  else match intFind st ifa.ifindex with
    | some i => (scanStore freed st i ifa).1
    | none =>
      match intCreate st ifa.ifindex ifa.pointopoint ifa.probe ifa.bpf with
      | (st, none) => st
      | (st, some i) =>
        match scanStore freed st i ifa with
        | (st, true) => st
        | (st, false) => intDestroy st i

/-- `update_interfaces`. -/
def updateInterfaces (freed : IntPtr → IntNode) (now : Nat) (st : Conf)
    (ifap : Option (List IfAddr)) : Conf :=
  if st.lastUpdate + 5 * 60 > now then st
  else
    let st := { st with lastUpdate := now }
    match ifap with
    | none => st
    | some ifap => ifap.foldl (scanEntry freed) st

/-! ## 4. `sendpacket6` -/

/-- A call of `writev`: the descriptor, -1 where it is `none`, and the bytes. -/
structure Written where
  socket : Option Nat
  bytes : List UInt8
  deriving DecidableEq

/-- The Ethernet header, with the address of a multicast destination. -/
def etherHeader (iph : Mem) (etherType : Nat) : List UInt8 :=
  [0x33, 0x33, iph (ip6Dst + 12), iph (ip6Dst + 13), iph (ip6Dst + 14), iph (ip6Dst + 15)] ++
    List.replicate 6 0 ++ be16 etherType

/-- The IPv4 header in front of the `len` bytes that a tunnel sends. -/
def proto41Header (e : Endian) (intn : IntNode) (len : Nat) : Mem :=
  let hdrIp : Mem := Mem.write (fun _ => 0) 0 [0x45]
  let hdrIp := e.store16 hdrIp 2 (e.htons ((len + 20) % 65536))
  let hdrIp := e.store16 hdrIp 4 (e.htons 42)
  let hdrIp := hdrIp.write 8 [100, ipprotoIpv6]
  let hdrIp := hdrIp.write ipSrc (intn.ipv4Local 0)
  let hdrIp := hdrIp.write ipDst intn.ipv4Remote
  let chksum := inchksum e hdrIp 20
  let chksum := chksum / 65536 + chksum % 65536
  let chksum := chksum + chksum / 65536
  let chksum := 65535 - chksum % 65536
  e.store16 hdrIp 10 (if chksum = 0 then 65535 else chksum)

/-- What is written for the interface in slot `i`: the packet itself, or an IPv4 packet that carries
it through the device of the master. -/
def written (e : Endian) (freed : IntPtr → IntNode) (st : Conf) (i : Nat) (iph : Mem) (len : Nat) :
    Written :=
  match st.tunnelmode, (st.intn i).master with
  | true, some master =>
    ⟨(deref freed st master).socket,
      etherHeader iph ethPIp ++ (proto41Header e (st.intn i) len).read 0 20 ++ iph.read 0 len⟩
  | _, _ => ⟨(st.intn i).socket, etherHeader iph ethPIpv6 ++ iph.read 0 len⟩

/-- `sendpacket6`, where `writev` answers `res`; `len` is a `uint16_t`. -/
def sendpacket6 (e : Endian) (freed : IntPtr → IntNode) (st : Conf) (i : Nat) (res : SendRes)
    (iph : Mem) (len : Nat) : Conf × Written :=
  let len := len % 65536
  let call := written e freed st i iph len
  match res with
  | .enxio => (intDestroy st i, call)
  | .failed => (st, call)
  | .sent =>
    ({ st.setInt i (fun intn => { intn with
          statBytesSent := intn.statBytesSent + len
          statPacketsSent := intn.statPacketsSent + 1 }) with
      statPacketsSent := st.statPacketsSent + 1
      statBytesSent := st.statBytesSent + len }, call)

/-! ## 5. The start -/

/-- The options of the command line that concern the interfaces. -/
structure Options where
  upstream : Option String
  promisc : Bool
  tunnelmode : Bool

/-- `init`, and the options. -/
def init (o : Options) : Conf :=
  { ints := [], block := 0, upstream := o.upstream, upstreamId := 0, promisc := o.promisc
    tunnelmode := o.tunnelmode, bufferlen := bufferlen, locals := listNew, selectset := ∅, hifd := 0
    lastUpdate := 0, statPacketsSent := 0, statBytesSent := 0, fds := ∅ }

/-- The answers for an Ethernet interface, whose BPF device is descriptor `fd`. -/
def deviceProbe (fd : Nat) : BpfProbe :=
  ⟨false, some fd, true, true, true, true, some dltEn10mb, some 4096, true, none⟩

end Ecmh.Bpf
