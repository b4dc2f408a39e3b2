/-
# The daemon: interface scan, timeout, reception, and its runs

`update_interfaces`, `timeout`, `handleinterfaces`, `sigusr2` and the start of `main`, and over
them the daemon as a state machine: an `Event` is what happens next, with everything that the
kernel answers meanwhile, and `step` is the state after it.  The clock is read once in an event.
-/
import Ecmh.Recv
import Ecmh.Lib.Runs

namespace Ecmh

open ByteMem

/-! ## 1. `update_interfaces` -/

/-- The address family of an entry of `getifaddrs`. -/
inductive AddrFamily
  | inet
  | inet6
  | packet
  | other
  deriving DecidableEq

/-- An entry of the list that `getifaddrs` returns: the index of its interface, the flags that
are looked at, the family of its address (`none` where there is no address) and the IPv6
address, and the answers that `int_create` gets if this entry leads to it. -/
structure IfAddr where
  ifindex : Nat
  up : Bool
  running : Bool
  loopback : Bool
  family : Option AddrFamily
  addr : In6Addr
  probe : IfProbe
  deriving DecidableEq

/-- The local variables of the loop in `update_interfaces`. -/
structure ScanLoop where
  st : Conf
  gotlinkl : Bool
  gotglobal : Bool

/-- An entry that the loop passes over: no address, loopback, not up or running, `AF_PACKET`, or
an IPv6 address that is unspecified, loopback or multicast. -/
def scanSkips (ifa : IfAddr) : Bool :=
  match ifa.family with
  | none => true
  | some family =>
    ifa.loopback || !ifa.up || !ifa.running || family = .packet ||
      (family = .inet6 && !in6IsAddrLinklocal ifa.addr &&
        (in6IsAddrUnspecified ifa.addr || in6IsAddrLoopback ifa.addr ||
          in6IsAddrMulticast ifa.addr))

/-- The address of the entry is stored in slot `i`; IPv4 addresses are ignored. -/
def scanStore (s : ScanLoop) (i : Nat) (ifa : IfAddr) : ScanLoop :=
  if ifa.family = some .inet6 then
    if in6IsAddrLinklocal ifa.addr then
      { s with
        st := s.st.setInt i (fun intn => { intn with linklocal := ifa.addr })
        gotlinkl := true }
    else
      { s with
        st := s.st.setInt i (fun intn => { intn with global := ifa.addr })
        gotglobal := true }
  else s

/-- The loop for one interface, `specific`.  It goes over the entries of the *other* ones: the
source has `==` where it skips. -/
def scanSpecific (i : Nat) : ScanLoop → List IfAddr → Conf
  | s, [] => s.st
  | s, ifa :: next =>
    if scanSkips ifa then scanSpecific i s next
    else if (s.st.intn i).ifindex = ifa.ifindex then scanSpecific i s next
    else
      let s := scanStore s i ifa
      if s.gotlinkl && s.gotglobal then s.st else scanSpecific i s next

/-- The body of the loop for all interfaces. -/
def scanEntry (st : Conf) (ifa : IfAddr) : Conf :=
  if scanSkips ifa then st
  else match intFind st ifa.ifindex with
    | some i => (scanStore ⟨st, false, false⟩ i ifa).st
    | none =>
      match intCreate st ifa.ifindex ifa.probe with
      | (st, none) => st
      | (st, some i) =>
        let s := scanStore ⟨st, false, false⟩ i ifa
        if s.gotlinkl || s.gotglobal then s.st else intDestroy s.st i

/-- `update_interfaces`, for the interface in slot `specific`, or for all of them; `ifap` is
`none` where `getifaddrs` fails. -/
def updateInterfaces (now : Nat) (st : Conf) (specific : Option Nat) (ifap : Option (List IfAddr)) :
    Conf :=
  if st.lastUpdate + 5 * 60 > now then st
  else
    let st := { st with lastUpdate := now }
    match ifap with
    | none => st
    | some ifap =>
      match specific with
      | some i => scanSpecific i ⟨st, false, false⟩ ifap
      | none => ifap.foldl scanEntry st

/-! ## 2. `timeout` -/

/-- `send_mld_querys`. -/
def sendMldQuerys (h : Host) (st : Conf) : Conf :=
  (List.range st.maxinterfaces).foldl
    (fun st i => if (st.intn i).mtu = 0 then st else mldSendQuery h st i In6Addr.any) st

/-- "Dead too long?"  The difference is signed, and a negative one is negated. -/
def deadTooLong (timeTee : Nat) (subscrn : SubscrNode) : Bool :=
  let i : Int := (timeTee : Int) - subscrn.refreshtime
  let i := if i < 0 then -i else i
  i > (ecmhSubscriptionTimeout * ecmhRobustnessFactor : Nat)

/-- The body of the loop over the group-interfaces in `timeout`; `none` is `list_delete_node`. -/
def timeoutGrpint (timeTee : Nat) (grpintn : GrpIntNode) : Option GrpIntNode :=
  let subscriptions := listLoop2
    (fun subscrn => if deadTooLong timeTee subscrn then none else some subscrn)
    grpintn.subscriptions
  if subscriptions.count ≤ -ecmhRobustnessFactor then none
  else some { grpintn with subscriptions := subscriptions }

/-- The body of the loop over the groups in `timeout`. -/
def timeoutGroup (timeTee : Nat) (groupn : GroupNode) : Option GroupNode :=
  let interfaces := listLoop2 (timeoutGrpint timeTee) groupn.interfaces
  if interfaces.count = 0 then none else some { groupn with interfaces := interfaces }

/-- `timeout`. -/
def timeout (h : Host) (now : Nat) (st : Conf) (ifap : Option (List IfAddr)) : Conf :=
  let st := updateInterfaces now st none ifap
  let st := st.setGroups (listLoop2 (timeoutGroup now) st.groups)
  sendMldQuerys h st

/-! ## 3. `handleinterfaces` and `sigusr2` -/

/-- A frame that `recvfrom` returns: what it says about it (`sll_ifindex`, `sll_hatype`, whether
`sll_pkttype` is `PACKET_OUTGOING`, `sll_protocol`), the receive buffer and the length, and the
answers of the kernel if the interface is a new one. -/
structure Frame where
  ifindex : Nat
  hatype : Nat
  outgoing : Bool
  protocol : Nat
  buffer : Mem
  len : Nat
  probe : IfProbe
  ifap : Option (List IfAddr)

/-- `g_conf->bufferlen`. -/
def bufferlen : Nat := 32 * 1024

/-- "Find the interface, or create a new one and determine its addresses": the state and the
slot. -/
def frameInterface (now : Nat) (st : Conf) (f : Frame) : Conf × Option Nat :=
  match intFind st f.ifindex with
  | some i => (st, some i)
  | none =>
    match intCreate st f.ifindex f.probe with
    | (st, none) => (st, none)
    | (st, some i) => (updateInterfaces now st (some i) f.ifap, some i)

/-- The counters of received packets of the daemon, and those of an interface. -/
def countReceived (st : Conf) (len : Nat) : Conf :=
  { st with
    statPacketsReceived := st.statPacketsReceived + 1
    statBytesReceived := st.statBytesReceived + len }

def countIntReceived (st : Conf) (i len : Nat) : Conf :=
  st.setInt i (fun intn => { intn with
    statPacketsReceived := intn.statPacketsReceived + 1
    statBytesReceived := intn.statBytesReceived + len })

theorem countIntReceived_intn (st : Conf) (i len j : Nat) :
    ∃ p b, (countIntReceived st i len).intn j
      = { st.intn j with statPacketsReceived := p, statBytesReceived := b } := by
  have h := setInt_intn st i j (fun intn => { intn with
    statPacketsReceived := intn.statPacketsReceived + 1
    statBytesReceived := intn.statBytesReceived + len })
  split at h
  · exact ⟨_, _, h⟩
  · exact ⟨_, _, h⟩

/-- `handleinterfaces`, for one frame.  `recvfrom` never returns more than the buffer holds. -/
def handleinterfaces (h : Host) (now : Nat) (st : Conf) (f : Frame) : Conf :=
  let len := min f.len bufferlen
  if f.hatype = arphrdLoopback ∨ f.outgoing then st
  else
    match frameInterface now (countReceived st len) f with
    | (st, none) => st
    | (st, some i) => l2Ethtype h now (countIntReceived st i len) i f.buffer len f.protocol

/-- `sigusr2`. -/
def sigusr2 (h : Host) (st : Conf) : Conf :=
  match st.upstream with
  | none => st
  | some _ =>
    match intFind st st.upstreamId with
    | none => st
    | some i => mld2SendReport h st i none

/-! ## 4. The daemon as a state machine -/

/-- What can happen to the daemon, each at a clock value.  `create` and `destroy` are the two
operations on the interface table by themselves; `create` is only called for an interface that
`int_find` does not find. -/
inductive Event
  | frame (now : Nat) (f : Frame)
  | timeout (now : Nat) (ifap : Option (List IfAddr))
  | sigusr2 (now : Nat)
  | create (now : Nat) (ifindex : Nat) (probe : IfProbe)
  | destroy (now : Nat) (i : Nat)

/-- The clock value of an event. -/
def Event.now : Event → Nat
  | .frame now _ => now
  | .timeout now _ => now
  | .sigusr2 now => now
  | .create now _ _ => now
  | .destroy now _ => now

/-- The state after an event. -/
def step (h : Host) (st : Conf) : Event → Conf
  | .frame now f => handleinterfaces h now st f
  | .timeout now ifap => Ecmh.timeout h now st ifap
  | .sigusr2 _ => Ecmh.sigusr2 h st
  | .create _ ifindex probe =>
    match intFind st ifindex with
    | some _ => st
    | none => (intCreate st ifindex probe).1
  | .destroy _ i => intDestroy st i

/-- The command line options that the model depends on: `-i`, and `-1` or `-2`. -/
structure Options where
  upstream : Option String
  mld1only : Bool
  mld2only : Bool
  exclusive : ¬ (mld1only = true ∧ mld2only = true)

/-- `init`, and the options. -/
def init (o : Options) : Conf :=
  { ints := [], groups := listNew, upstream := o.upstream, upstreamId := 0, mld1only := o.mld1only
    mld2only := o.mld2only, lastUpdate := 0, statPacketsReceived := 0, statPacketsSent := 0
    statBytesReceived := 0, statBytesSent := 0, statIcmpReceived := 0, statIcmpSent := 0
    statHlimExceeded := 0, sent := [] }

/-- The state in which `main` enters its loop. -/
def boot (h : Host) (o : Options) (now : Nat) (ifap : Option (List IfAddr)) : Conf :=
  sendMldQuerys h (updateInterfaces now (init o) none ifap)

/-- The state after a list of events. -/
abbrev run (h : Host) (st : Conf) (es : List Event) : Conf := Runs.run (step h) st es

/-- A state that the daemon can reach, whatever its clock says in between. -/
def Reachable (h : Host) (st : Conf) : Prop :=
  ∃ (o : Options) (now : Nat) (ifap : Option (List IfAddr)) (es : List Event),
    st = run h (boot h o now ifap) es

/-- The clock does not run backwards over the events, and starts at `t`. -/
def Clocked (t : Nat) (es : List Event) : Prop := (t :: es.map Event.now).Pairwise (· ≤ ·)

instance (t : Nat) (es : List Event) : Decidable (Clocked t es) :=
  inferInstanceAs (Decidable (List.Pairwise _ _))

/-- A state that the daemon can reach with a clock that does not run backwards and that has not
passed `t`. -/
def ReachableAt (h : Host) (st : Conf) (t : Nat) : Prop :=
  ∃ (o : Options) (now : Nat) (ifap : Option (List IfAddr)) (es : List Event),
    Clocked now es ∧ (∀ e ∈ es, e.now ≤ t) ∧ now ≤ t ∧ st = run h (boot h o now ifap) es

/-! ## 5. Concrete packets

What the examples of the later modules run the daemon on. -/

/-- An IPv6 packet without extension headers. -/
def ipv6Packet (nxt hlim : UInt8) (src dst : In6Addr) (payload : List UInt8) : List UInt8 :=
  [0x60, 0, 0, 0] ++ be16 payload.length ++ [nxt, hlim] ++ src.s6Addr ++ dst.s6Addr ++ payload

/-- The answers for an Ethernet interface with the usual MTU. -/
def ethernetProbe : IfProbe := ⟨true, some "eth0", some 1500, some 1⟩

/-- The packet in a frame from an Ethernet interface. -/
def ethernetFrame (ifindex : Nat) (packet : List UInt8) : Frame where
  ifindex := ifindex
  hatype := 1
  outgoing := false
  protocol := ethPIpv6
  buffer := Mem.ofList packet
  len := packet.length
  probe := ethernetProbe
  ifap := none

/-- A machine whose `sendto` takes every packet. -/
def quietHost (e : Endian) : Host := ⟨e, fun _ => .sent, fun _ => 0⟩

/-- The daemon started without options. -/
def plainOptions : Options := ⟨none, false, false, by decide⟩

/-- The daemon without options, and an interface. -/
def oneLink : Conf :=
  run (quietHost .little) (boot (quietHost .little) plainOptions 0 none) [.create 0 1 ethernetProbe]

/-- `fe80::1`. -/
def linkLocalHost : In6Addr := ⟨0xfe :: 0x80 :: List.replicate 13 0 ++ [1], rfl⟩

/-- `2001:db8::x`. -/
def globalHost (x : UInt8) : In6Addr :=
  ⟨[0x20, 0x01, 0x0d, 0xb8] ++ List.replicate 11 0 ++ [x], rfl⟩

/-- An MLD message of a host on the link. -/
def mldFrame (ifindex : Nat) (message : List UInt8) : Frame :=
  ethernetFrame ifindex (ipv6Packet ipprotoIcmpv6 1 linkLocalHost (linkScope 0x16) message)

/-- `ff05::1`. -/
def siteGroup : In6Addr := ⟨0xff :: 0x05 :: List.replicate 13 0 ++ [1], rfl⟩

/-- An MLDv1 report for `ff05::1`, and the reduction for it. -/
def mld1JoinMessage : List UInt8 := [131, 0, 0, 0, 0, 0, 0, 0] ++ siteGroup.s6Addr
def mld1DoneMessage : List UInt8 := [132, 0, 0, 0, 0, 0, 0, 0] ++ siteGroup.s6Addr

end Ecmh
