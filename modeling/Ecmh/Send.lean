/-
# Checksums, and the packets the daemon sends

The sending half of `ecmh.c`: `inchksum` and `ipv6_checksum`, `sendpacket6`, and the functions
that build a packet and hand it over (`icmp6_send`, `mld_send_query`, `mld1_send_report`,
`mld2_send_report`) with the two that choose between them (`mld_send_report`,
`mld_send_report_all`).

Packets are bytes in a `Mem`, at the offsets of the C structures.  The buffers are flat memory:
`mld2_send_report` computes addresses from counts it finds in the buffer, and the model lets it
read and write wherever they point.  Three fields of its loop state record what it did and are
read by no step: the records it appended to the packet under construction (`cur`), those of the
packets it has sent (`out`), and the ranges it wrote or compared (`touched`).
-/
import Ecmh.Interfaces

namespace Ecmh

open ByteMem

/-! ## 1. Checksums -/

/-- The sum of the 16-bit words of `slen` bytes, and of the last byte alone.  The words are those
that lie in memory: what a compiler makes of the casts from structures to `uint16_t *` when it
optimises with strict aliasing is not in the model. -/
def inchksumWords (e : Endian) (data : Mem) (off : Nat) : Nat → Nat
  | 0 => 0
  | 1 => (data off).toNat
  | slen + 2 => e.load16 data off + inchksumWords e data (off + 2) slen

/-- `while (sum >> 16) sum = (sum & 0xffff) + (sum >> 16)`, at most `fuel` times. -/
def foldCarries : Nat → Nat → Nat
  | 0, sum => sum
  | fuel + 1, sum =>
    if sum / 65536 = 0 then sum else foldCarries fuel (sum % 65536 + sum / 65536)

/-- `inchksum`.  The sum of a 32-bit number of bytes is below `2 ^ 48`, and four rounds fold
that. -/
def inchksum (e : Endian) (data : Mem) (length : Nat) : Nat :=
  foldCarries 4 (inchksumWords e data 0 length) % 65536

/-- `struct ip6_hdr`: the offsets of `ip6_plen`, `ip6_nxt`, `ip6_hlim`, `ip6_src`, `ip6_dst`. -/
def ip6Plen : Nat := 4
def ip6Nxt : Nat := 6
def ip6Hlim : Nat := 7
def ip6Src : Nat := 8
def ip6Dst : Nat := 24

def ipprotoHopopts : UInt8 := 0
def ipprotoRouting : UInt8 := 43
def ipprotoAh : UInt8 := 51
def ipprotoIcmpv6 : UInt8 := 58
def ipprotoDstopts : UInt8 := 60

/-- `ipv6_checksum`; `length` is a `uint16_t`.  The pseudo header is summed up as the bytes that
were stored to it (see `inchksumWords`). -/
def ipv6Checksum (e : Endian) (ip6 : Mem) (protocol : UInt8) (data : Mem) (length : Nat) : Nat :=
  let length := length % 65536
  let pseudo := Mem.ofList (e.bytes16 (e.htons length) ++ [0, 0, 0, protocol])
  let chksum := inchksum e (ip6.shift ip6Src) 32 + inchksum e pseudo 6 + inchksum e data length
  let chksum := chksum / 65536 + chksum % 65536
  let chksum := chksum + chksum / 65536
  let chksum := 65535 - chksum % 65536
  if chksum = 0 then 65535 else chksum

/-! ## 2. `sendpacket6` -/

/-- What `sendpacket6` hands to `sendto`: the packet, and the link-layer address of its multicast
destination on the interface. -/
def sentOf (sender : Sender) (groups : Groups) (intn : IntNode) (iph : Mem) (len : Nat) : Sent where
  sender := sender
  ifindex := intn.ifindex
  hatype := intn.hwaddr
  addr := [0x33, 0x33, iph (ip6Dst + 12), iph (ip6Dst + 13), iph (ip6Dst + 14), iph (ip6Dst + 15)]
  packet := iph.read 0 len
  groups := groups

/-- `sendpacket6`, called by `sender` for the interface in slot `i`; `len` is a `uint16_t`. -/
def sendpacket6 (h : Host) (sender : Sender) (st : Conf) (i : Nat) (iph : Mem) (len : Nat) :
    Conf :=
  let len := len % 65536
  let res := h.sendto st.sent.length
  let st := { st with sent := st.sent ++ [sentOf sender st.groups (st.intn i) iph len] }
  match res with
  | .enxio => intDestroy st i
  | .failed => st
  | .sent =>
    { st.setInt i (fun intn => { intn with
          statBytesSent := intn.statBytesSent + len
          statPacketsSent := intn.statPacketsSent + 1 }) with
      statPacketsSent := st.statPacketsSent + 1
      statBytesSent := st.statBytesSent + len }

/-- The two counters that every sender of an ICMPv6 message increases. -/
def countIcmpSent (st : Conf) (i : Nat) : Conf :=
  { st.setInt i (fun intn => { intn with statIcmpSent := intn.statIcmpSent + 1 }) with
    statIcmpSent := st.statIcmpSent + 1 }

/-! ## 3. ICMPv6 types, and the packets with one message -/

def icmp6EchoRequest : UInt8 := 128
def icmp6EchoReply : UInt8 := 129
def icmp6MembershipQuery : UInt8 := 130
def icmp6MembershipReport : UInt8 := 131
def icmp6MembershipReduction : UInt8 := 132
def icmp6V2MembershipReport : UInt8 := 143
def icmp6V2MembershipReportExp : UInt8 := 206
def icmp6TimeExceedTransit : UInt8 := 0

/-- `icmp6_send`.  The packet structure has 40 + 8 + 1500 bytes; `data` goes behind the first
four bytes of the ICMPv6 header, and `dlen` is an `unsigned int`. -/
def icmp6Send (h : Host) (st : Conf) (i : Nat) (src : In6Addr) (type code : UInt8) (data : Mem)
    (dlen : Nat) : Conf :=
  let e := h.endian
  let packet := (h.calloc 1548).write 0 [0x60]
  let packet := e.store16 packet ip6Plen (e.htons ((dlen + 4) % 65536))
  let packet := packet.write ip6Nxt [ipprotoIcmpv6]
  let packet := packet.write ip6Hlim [64]
  let packet := packet.write ip6Src (st.intn i).global.s6Addr
  let packet := packet.write ip6Dst src.s6Addr
  let packet := packet.write 40 [type, code]
  let packet := packet.write 44 (data.read 0 (if 1500 > dlen then dlen else 1500))
  let packet := e.store16 packet 42
    (ipv6Checksum e packet ipprotoIcmpv6 (packet.shift 40) (dlen + 4))
  countIcmpSent (sendpacket6 h .icmp6Send st i packet (dlen + 44)) i

/-- The link-local multicast address `ff02::x`. -/
def linkScope (x : UInt8) : In6Addr := ⟨0xff :: 0x02 :: List.replicate 13 0 ++ [x], rfl⟩

/-- The IPv6 header, the hop-by-hop header and the router alert option (48 bytes) with which
`mld_send_query`, `mld1_send_report` and `mld2_send_report` all begin. -/
def mldHeader (e : Endian) (plen : Nat) (src dst : In6Addr) : List UInt8 :=
  [0x60, 0, 0, 0] ++ e.bytes16 (e.htons plen) ++ [ipprotoHopopts, 1] ++ src.s6Addr ++ dst.s6Addr ++
    [ipprotoIcmpv6, 0] ++ [5, 2, 0, 0, 1, 0]

/-- `mld_send_query`. -/
def mldSendQuery (h : Host) (st : Conf) (i : Nat) (mca : In6Addr) : Conf :=
  if (st.intn i).upstream then st
  else
    let e := h.endian
    -- without MLDv2 extras in mld1only mode, without the room for a source otherwise
    let packetlen := if st.mld1only then 72 else 76
    let packet := (h.calloc 92).write 0
      (mldHeader e (packetlen - 40) (st.intn i).linklocal (linkScope 1))
    let packet := packet.write 48 [icmp6MembershipQuery]
    let packet := e.store16 packet 52 (e.htons 2000)
    let packet := packet.write 56 mca.s6Addr
    let packet := if st.mld1only then packet
      else (packet.write 72 [UInt8.ofNat ecmhRobustnessFactor,
        UInt8.ofNat ecmhSubscriptionTimeout]).write 74 (e.bytes16 (e.htons 0))
    let packet := e.store16 packet 50
      (ipv6Checksum e packet ipprotoIcmpv6 (packet.shift 48) (packetlen - 48))
    countIcmpSent (sendpacket6 h .mldSendQuery st i packet packetlen) i

/-- `mld1_send_report`. -/
def mld1SendReport (h : Host) (st : Conf) (i : Nat) (mca : In6Addr) : Conf :=
  let e := h.endian
  let packet := (h.calloc 72).write 0 (mldHeader e 32 (st.intn i).linklocal mca)
  let packet := packet.write 48 [icmp6MembershipReport]
  let packet := packet.write 56 mca.s6Addr
  let packet := e.store16 packet 50
    (ipv6Checksum e packet ipprotoIcmpv6 (packet.shift 48) 24)
  countIcmpSent (sendpacket6 h (.mld1SendReport mca) st i packet 72) i

/-! ## 4. `mld2_send_report` -/

/-- The local variables of `mld2_send_report`: the packet, `grec` and `src` as offsets in it
(`none` for `NULL`), `any`, and whether the function has returned; then what it did. -/
structure ReportLoop where
  st : Conf
  packet : Mem
  grec : Option Nat
  src : Option Nat
  any : Bool
  returned : Bool
  cur : List Grec
  out : List (List Grec)
  touched : List (Nat × Nat)

/-- `sizeof(struct mld_report_packet)`, the offset of the first group record. -/
def sizeofReport : Nat := 56

/-- The offset of `packet->mld2r.ngrec`. -/
def reportNgrec : Nat := 54

namespace ReportLoop

/-- `grec->grec_nsrcs` of the record at `grec`. -/
def nsrcs (e : Endian) (s : ReportLoop) (grec : Nat) : Nat := e.load16 s.packet (grec + 2)

/-- The place behind the sources of the record at `grec`. -/
def slot (e : Endian) (s : ReportLoop) (grec : Nat) : Nat := grec + 20 + 16 * s.nsrcs e grec

/-- `length`: of the packet without its IPv6 header, or `sizeof(*packet)` without a record. -/
def length (e : Endian) (s : ReportLoop) : Nat :=
  match s.grec with
  | some grec => s.slot e grec - 40
  | none => sizeofReport

/-- Change the record that was appended last. -/
def setLast (f : Grec → Grec) (cur : List Grec) : List Grec :=
  cur.dropLast ++ (cur.getLast?.map f).toList

end ReportLoop

/-- "Remove former sources": the record becomes one that excludes nothing. -/
def reportCollapse (e : Endian) (s : ReportLoop) (grec : Nat) : ReportLoop :=
  { s with
    packet := (e.store16 s.packet (grec + 2) 0).write grec [UInt8.ofNat mld2ModeIsExclude]
    src := none
    any := true
    cur := ReportLoop.setLast (fun r => { r with grecType := mld2ModeIsExclude, srcs := [] }) s.cur
    touched := s.touched ++ [(grec, 4)] }

/-- The loop "Don't add sources twice", `n` rounds of it.  Every round looks at the same place,
the one behind the last source. -/
def reportScan (s : ReportLoop) (slot : Nat) (ipv6 : In6Addr) : Nat → ReportLoop
  | 0 => s
  | n + 1 =>
    if s.any then s
    else match s.src with
      | none => s
      | some _ =>
        let s := { s with touched := s.touched ++ [(slot, 16)] }
        if s.packet.read slot 16 = ipv6.s6Addr then { s with src := none }
        else reportScan { s with src := some slot } slot ipv6 n

/-- The part of the body under `if (src)`.  The body goes on with this subscription unless the
second component is `false`. -/
def reportKnown (e : Endian) (s : ReportLoop) (ipv6 : In6Addr) : ReportLoop × Bool :=
  match s.src with
  | none => (s, true)
  | some _ =>
    match s.grec with
    | none => (s, false)
    | some grec =>
      let s := if in6IsAddrUnspecified ipv6 then reportCollapse e s grec else s
      let s := reportScan s (s.slot e grec) ipv6 (s.nsrcs e grec)
      (s, s.src.isSome)

/-- Send the packet under construction, whose last record is at `grec`. -/
def reportSend (h : Host) (i : Nat) (s : ReportLoop) (grec : Nat) : ReportLoop :=
  let e := h.endian
  let length := s.length e
  let packet := e.store16 s.packet reportNgrec (e.htons (e.load16 s.packet reportNgrec))
  let packet := e.store16 packet (grec + 2) (e.htons (e.load16 packet (grec + 2)))
  let packet := e.store16 packet ip6Plen (e.htons (length % 65536))
  let packet := e.store16 packet 50 (e.htons 0)
  let packet := e.store16 packet 50
    (ipv6Checksum e packet ipprotoIcmpv6 (packet.shift 48) (length - 8))
  { s with
    st := countIcmpSent (sendpacket6 h (.mld2SendReport s.cur) s.st i packet (length + 40)) i
    packet := packet
    cur := []
    out := s.out ++ [s.cur] }

/-- "Would adding it not fit?" -/
def reportFull (e : Endian) (i : Nat) (s : ReportLoop) (ipv6 : In6Addr) : Bool :=
  s.length e + 40 + (if s.grec.isSome then 0 else 20) +
    (if s.any || in6IsAddrUnspecified ipv6 then 0 else 16) > (s.st.intn i).mtu

/-- The reset of the structure after a packet was sent because nothing more fits. -/
def reportReset (e : Endian) (s : ReportLoop) : ReportLoop :=
  { s with packet := e.store16 s.packet reportNgrec 0, grec := none, src := none }

/-- "First source to be added to this grec": start a record for the group. -/
def reportNewGrec (e : Endian) (s : ReportLoop) (mca : In6Addr) : ReportLoop :=
  let packet := e.store16 s.packet reportNgrec (e.load16 s.packet reportNgrec + 1)
  let (packet, grec) := match s.grec with
    | some grec =>
      -- the count is swapped first, and the swapped value is used to step over the sources
      let packet := e.store16 packet (grec + 2) (e.htons (e.load16 packet (grec + 2)))
      (packet, grec + 20 + 16 * e.load16 packet (grec + 2))
    | none => (packet, sizeofReport)
  let packet := packet.write (grec + 4) mca.s6Addr
  let packet := e.store16 packet (grec + 2) 0
  let packet := packet.write grec [UInt8.ofNat mld2ModeIsExclude]
  { s with
    packet := packet
    grec := some grec
    any := false
    cur := s.cur ++ [⟨mld2ModeIsExclude, mca, []⟩]
    touched := s.touched ++ [(grec, 20)] }

/-- "Only add non-`::` addresses". -/
def reportAppend (e : Endian) (s : ReportLoop) (ipv6 : In6Addr) : ReportLoop :=
  match s.grec with
  | none => s
  | some grec =>
    if in6IsAddrUnspecified ipv6 then { s with any := true }
    else
      let src := s.slot e grec
      let packet := e.store16 s.packet (grec + 2) (s.nsrcs e grec + 1)
      let packet := packet.write grec [UInt8.ofNat mld2ModeIsInclude]
      { s with
        packet := packet.write src ipv6.s6Addr
        src := some src
        cur := ReportLoop.setLast
          (fun r => { r with grecType := mld2ModeIsInclude, srcs := r.srcs ++ [ipv6] }) s.cur
        touched := s.touched ++ [(src, 16)] }

/-- The body of the innermost loop of `mld2_send_report`, for a subscription of the group that is
not an `EXCLUDE` one. -/
def reportSubscr (h : Host) (i : Nat) (mca : In6Addr) (s : ReportLoop) (ipv6 : In6Addr) :
    ReportLoop :=
  let e := h.endian
  if s.returned then s
  else
    let known := reportKnown e s ipv6
    if !known.2 then known.1
    else
      let s := known.1
      if reportFull e i s ipv6 then
        match s.grec with
        | none => { s with returned := true }
        | some grec =>
          let s := reportReset e (reportSend h i s grec)
          reportAppend e (reportNewGrec e s mca) ipv6
      else
        let s := if s.src.isNone then reportNewGrec e s mca else s
        reportAppend e s ipv6

/-- The loop over the subscriptions of a group-interface. -/
def reportGrpint (h : Host) (i : Nat) (mca : In6Addr) (s : ReportLoop) (grpintn : GrpIntNode) :
    ReportLoop :=
  if grpintn.ifindex = (s.st.intn i).ifindex then s
  else grpintn.subscriptions.nodes.foldl
    (fun s subscrn => if subscrn.mode = mld2ModeIsExclude then s
      else reportSubscr h i mca s subscrn.ipv6) s

/-- The body of the loop over the groups; `mca` is `none` for `NULL`. -/
def reportGroup (h : Host) (i : Nat) (mca : Option In6Addr) (s : ReportLoop) (groupn : GroupNode) :
    ReportLoop :=
  if (mca.isSome ∧ mca ≠ some groupn.mca) ∨ groupn.interfaces.count = 0 then s
  else groupn.interfaces.nodes.foldl (reportGrpint h i groupn.mca) { s with src := none }

/-- The packet and the local variables before the loops. -/
def reportInit (h : Host) (st : Conf) (i : Nat) : ReportLoop :=
  let e := h.endian
  let packet := (h.calloc (st.intn i).mtu).write 0
    (mldHeader e 16 (st.intn i).linklocal (linkScope 0x16) ++ [icmp6V2MembershipReport])
  { st := st, packet := e.store16 packet reportNgrec 0, grec := none, src := none, any := false
    returned := false, cur := [], out := [], touched := [] }

/-- The three loops of `mld2_send_report`. -/
def reportLoops (h : Host) (st : Conf) (i : Nat) (mca : Option In6Addr) : ReportLoop :=
  st.groups.nodes.foldl (reportGroup h i mca) (reportInit h st i)

/-- What follows the loops: "Any groups left to send?" -/
def reportFinish (h : Host) (i : Nat) (s : ReportLoop) : ReportLoop :=
  if s.returned ∨ h.endian.load16 s.packet reportNgrec = 0 then s
  else match s.grec with
    | none => s
    | some grec => reportSend h i s grec

/-- `mld2_send_report`; `mca` is `none` for `NULL`. -/
def mld2SendReport (h : Host) (st : Conf) (i : Nat) (mca : Option In6Addr) : Conf :=
  if (st.intn i).mtu < sizeofReport then st
  else (reportFinish h i (reportLoops h st i mca)).st

/-! ## 5. Choosing the version -/

/-- "MLDv1": the first test of `mld_send_report`. -/
def mld1Reports (st : Conf) (i : Nat) : Bool :=
  !st.mld2only && (st.mld1only || ((st.intn i).mldVersion = 0 && !(st.intn i).upstream) ||
    (st.intn i).mldVersion = 1)

/-- "MLDv2": the second test of `mld_send_report`. -/
def mld2Reports (st : Conf) (i : Nat) : Bool :=
  !st.mld1only && (st.mld2only || (st.intn i).mldVersion = 0 || (st.intn i).mldVersion = 2)

/-- `mld_send_report`. -/
def mldSendReport (h : Host) (st : Conf) (i : Nat) (mca : In6Addr) : Conf :=
  let st := if mld1Reports st i then mld1SendReport h st i mca else st
  if mld2Reports st i then mld2SendReport h st i (some mca) else st

/-- `mld_send_report_all`, for a report received on the interface in slot `interface`. -/
def mldSendReportAll (h : Host) (st : Conf) (interface : Nat) (mca : In6Addr) : Conf :=
  (List.range st.maxinterfaces).foldl
    (fun st i =>
      if (st.intn i).mtu = 0 ∨ (st.intn interface).ifindex = (st.intn i).ifindex then st
      else mldSendReport h st i mca) st

end Ecmh
