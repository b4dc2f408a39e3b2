/-
# The packets of one read in the BPF build

A read from a BPF device brings many packets, each of them behind a `struct bpf_hdr` and followed by
padding.  `handleinterfaces` walks over them, but takes the end of its walk from the header at the
beginning of the buffer, `bh_caplen` of the first packet, and not from the number of bytes read.

`handled_iff` says which reads are handled all the same: those of one packet, and of those without a
packet the ones that find a length of 0 where a former read left its header.
-/
import Ecmh.Decapsulation

namespace Ecmh

open ByteMem

/-! ## 1. What `l2_eth` leaves in the buffer -/

/-- `l4_ipv6_icmpv6`. -/
def l4Ipv6Icmpv6Leaves (e : Endian) (iph : Mem) (off plen : Nat) : Mem :=
  let type := iph off
  if !icmpv6Wanted type then iph
  else
    let iph := icmpv6Rechecksum e iph off plen
    if type = icmp6EchoRequest then decreaseHlim iph else iph

/-- `l3_ipv6`, on an interface with these addresses. -/
def l3Ipv6Leaves (e : Endian) (intn : IntNode) (iph : Mem) (len : Nat) : Mem :=
  let src := readAddr iph ip6Src
  let dst := readAddr iph ip6Dst
  if !in6IsAddrMulticast dst then iph
  else if src = intn.linklocal ∨ src = intn.global then iph
  else match headerWalk e iph len with
    | none => iph
    | some (type, off, plen) =>
      if type = ipprotoIcmpv6 then l4Ipv6Icmpv6Leaves e iph off plen
      else if in6IsAddrMulticast dst then decreaseHlim iph
      else iph

section

variable (h : Host) (now : Nat) (b : Tunnels) (replaces : Conf → Bool) (st : Conf)

/-- `l4_ipv4_proto41`.  The interface scan may find a device with a longer buffer, for which
`int_create_bpf` frees `g_conf->buffer`, where the packet is: then nothing is left. -/
def l4Ipv4Proto41Leaves (iph packet : Mem) (len : Nat) : Option Mem :=
  if !b.tunnelmode then some packet
  else if b.localFind st (iph.read ipSrc 4) then some packet
  else if b.intFindIpv4 st (iph.read ipSrc 4) = none ∧ replaces st then none
  else match tunnelFind b st (iph.read ipSrc 4) with
    | (_, none) => some packet
    | (st, some tun) => some (l3Ipv6Leaves h.endian (st.intn tun) packet (len % 65536))

/-- `l3_ipv4`. -/
def l3Ipv4Leaves (iph : Mem) (len : Nat) : Option Mem :=
  if ipV iph ≠ 4 then some iph
  else if ipHl iph < 5 then some iph
  else if iph.read ipSrc 4 = ipv46to4Relay ∨ iph.read ipDst 4 = ipv46to4Relay then some iph
  else if iph ipP = ipprotoIpv6 then
    (l4Ipv4Proto41Leaves h b replaces st iph (iph.shift (4 * ipHl iph))
      ((len + 65536 - 4 * ipHl iph) % 65536)).map (iph.splice (4 * ipHl iph))
  else some iph

/-- `l2_ethtype`. -/
def l2EthtypeLeaves (i : Nat) (packet : Mem) (len etherType : Nat) : Option Mem :=
  if etherType = ethPIp then l3Ipv4Leaves h b replaces st packet (len % 65536)
  else if etherType = ethPIpv6 then
    some (l3Ipv6Leaves h.endian (st.intn i) packet (len % 65536))
  else some packet

/-- `l2_eth`. -/
def l2EthLeaves (i : Nat) (eth : Mem) (len : Nat) : Option Mem :=
  (l2EthtypeLeaves h b replaces st i (eth.shift 14) ((len + 2 ^ 32 - 14) % 2 ^ 32)
    (h.endian.htons (h.endian.load16 eth 12))).map (eth.splice 14)

/-- A frame for which the interfaces are scanned: an encapsulated packet from the remote end of no
tunnel that is known. -/
structure Rescanned (eth : Mem) : Prop where
  ipv4 : h.endian.htons (h.endian.load16 eth 12) = ethPIp
  encapsulated : Encapsulated (eth.shift 14)
  tunnelmode : b.tunnelmode = true
  foreign : b.localFind st ((eth.shift 14).read ipSrc 4) = false
  unknown : b.intFindIpv4 st ((eth.shift 14).read ipSrc 4) = none

theorem l4Ipv4Proto41Leaves_eq_none_iff (iph packet : Mem) (len : Nat) :
    l4Ipv4Proto41Leaves h b replaces st iph packet len = none ↔
      b.tunnelmode = true ∧ b.localFind st (iph.read ipSrc 4) = false ∧
        b.intFindIpv4 st (iph.read ipSrc 4) = none ∧ replaces st = true := by
  unfold l4Ipv4Proto41Leaves
  split
  · simp_all
  split
  · simp_all
  split
  · simp_all
  · rename_i hmode hlocal hfree
    rcases tunnelFind b st (iph.read ipSrc 4) with ⟨st', - | tun⟩ <;>
      exact iff_of_false nofun fun hall => hfree ⟨hall.2.2.1, hall.2.2.2⟩

theorem l3Ipv4Leaves_eq_none_iff (iph : Mem) (len : Nat) :
    l3Ipv4Leaves h b replaces st iph len = none ↔ Encapsulated iph ∧ b.tunnelmode = true ∧
      b.localFind st (iph.read ipSrc 4) = false ∧ b.intFindIpv4 st (iph.read ipSrc 4) = none ∧
        replaces st = true := by
  unfold l3Ipv4Leaves
  split
  · rename_i hv
    exact iff_of_false nofun fun hall => hv hall.1.version
  split
  · rename_i hl
    exact iff_of_false nofun fun hall => absurd hall.1.headerLength (by omega)
  split
  · rename_i hr
    exact iff_of_false nofun fun hall => hall.1.relay hr
  split
  · rename_i hv hl hr hp
    have he : Encapsulated iph := ⟨Decidable.not_not.mp hv, by omega, hr, hp⟩
    rw [Option.map_eq_none_iff, l4Ipv4Proto41Leaves_eq_none_iff, and_iff_right he]
  · rename_i hp
    exact iff_of_false nofun fun hall => hp hall.1.proto

/-- The buffer is gone after a scan that found a device with a longer one. -/
theorem l2EthLeaves_eq_none_iff (i : Nat) (eth : Mem) (len : Nat) :
    l2EthLeaves h b replaces st i eth len = none ↔
      Rescanned h b st eth ∧ replaces st = true := by
  unfold l2EthLeaves l2EthtypeLeaves
  rw [Option.map_eq_none_iff]
  split
  · rename_i hip
    rw [l3Ipv4Leaves_eq_none_iff]
    exact ⟨fun ⟨he, hmode, hlocal, hfind, hrep⟩ => ⟨⟨hip, he, hmode, hlocal, hfind⟩, hrep⟩,
      fun ⟨hs, hrep⟩ => ⟨hs.encapsulated, hs.tunnelmode, hs.foreign, hs.unknown, hrep⟩⟩
  · rename_i hip
    refine iff_of_false ?_ fun hall => hip hall.1.ipv4
    split <;> nofun

end

/-! ## 2. The walk over the buffer -/

/-- `struct bpf_hdr` on a system: the offsets of `bh_caplen`, of 32 bits, and `bh_hdrlen`, of 16
bits, the length of the structure, and `BPF_ALIGNMENT`. -/
structure BpfHdr where
  caplen : Nat
  hdrlen : Nat
  size : Nat
  alignment : Nat
  caplen_le : caplen + 4 ≤ size
  hdrlen_le : hdrlen + 2 ≤ size
  alignment_pos : 0 < alignment

/-- `BPF_WORDALIGN`. -/
def BpfHdr.wordalign (l : BpfHdr) (x : Nat) : Nat :=
  (x + (l.alignment - 1)) / l.alignment * l.alignment

theorem BpfHdr.le_wordalign (l : BpfHdr) (x : Nat) : x ≤ l.wordalign x := by
  have hpos := l.alignment_pos
  have hdiv := Nat.div_add_mod (x + (l.alignment - 1)) l.alignment
  have hmod := Nat.mod_lt (x + (l.alignment - 1)) hpos
  rw [Nat.mul_comm] at hdiv
  unfold BpfHdr.wordalign
  omega

/-- A call of `l2_eth`: the bytes of the frame, and the length. -/
structure EthCall where
  bytes : List UInt8
  len : Nat
  deriving DecidableEq

section

variable (h : Host) (now : Nat) (b : Tunnels) (replaces : Conf → Bool) (l : BpfHdr)

/-- The loop over the packets, for the interface in slot `i`.  The header is read again when the
loop goes on, after `l2_eth`; the sum of its two lengths is an `unsigned int`.  There is no result
where the fuel is used up or the buffer was freed. -/
def packetLoop (i ep : Nat) : Nat → Conf → Mem → Nat → List EthCall →
    Option (Conf × Mem × List EthCall)
  | 0, _, _, _, _ => none
  | fuel + 1, st, buffer, bp, calls =>
    if bp < ep then
      let caplen := h.endian.load32 buffer (bp + l.caplen)
      let hdrlen := h.endian.load16 buffer (bp + l.hdrlen)
      let st := countIntReceived st i caplen
      let eth := buffer.shift (bp + hdrlen)
      match l2EthLeaves h b replaces st i eth caplen with
      | none => none
      | some left =>
        let buffer := buffer.splice (bp + hdrlen) left
        let step := l.wordalign ((h.endian.load32 buffer (bp + l.caplen) +
          h.endian.load16 buffer (bp + l.hdrlen)) % 2 ^ 32)
        packetLoop i ep fuel (l2Eth h now b st i eth caplen) buffer (bp + step)
          (calls ++ [⟨eth.read 0 caplen, caplen⟩])
    else some (st, buffer, calls)

/-- What `handleinterfaces` does with the bytes that it read from a device. -/
def handleRead (fuel : Nat) (st : Conf) (i : Nat) (buffer : Mem) (bytes : List UInt8) :
    Option (Conf × Mem × List EthCall) :=
  let buffer := buffer.write 0 bytes
  packetLoop h now b replaces l i (h.endian.load32 buffer l.caplen) fuel st buffer 0 []

/-- What `select` comes to: an error, with `EINTR` or another one, nothing in five seconds, or the
slots whose device is open and has something to read. -/
inductive Select
  | failed (eintr : Bool)
  | timeout
  | ready (isset : Nat → Bool)

/-- A read, as it was handled: the slot, the state and the buffer before it, the bytes that came,
and the calls of `l2_eth`. -/
structure Reading where
  slot : Nat
  st : Conf
  buffer : Mem
  bytes : List UInt8
  calls : List EthCall

/-- The loop over the interfaces, from slot `i` on: what `handleinterfaces` returns, the state and
the buffer, and the reads.  `read` is what each device has to read, or an error. -/
def deviceLoop (isset : Nat → Bool) (read : Nat → Option (List UInt8)) :
    Nat → Conf → Mem → Nat → List Reading → Option (Bool × Conf × Mem × List Reading)
  | 0, _, _, _, _ => none
  | fuel + 1, st, buffer, i, done =>
    if i < st.maxinterfaces then
      if (st.intn i).mtu = 0 then deviceLoop isset read fuel st buffer (i + 1) done
      else if !isset i then deviceLoop isset read fuel st buffer (i + 1) done
      else match read i with
        | none => some (false, st, buffer, done)
        | some bytes =>
          match handleRead h now b replaces l fuel st i buffer bytes with
          | none => none
          | some (st', buffer', calls) =>
            deviceLoop isset read fuel st' buffer' (i + 1)
              (done ++ [⟨i, st, buffer, bytes, calls⟩])
    else some (true, st, buffer, done)

/-- `handleinterfaces` of the BPF build. -/
def handleinterfacesBpf (fuel : Nat) (select : Select) (read : Nat → Option (List UInt8))
    (st : Conf) (buffer : Mem) : Option (Bool × Conf × Mem × List Reading) :=
  match select with
  | .failed eintr => some (eintr, st, buffer, [])
  | .timeout => some (true, st, buffer, [])
  | .ready isset => deviceLoop h now b replaces l isset read fuel st buffer 0 []

/-- `l2_eth` is called for the bytes that were read in these calls, and then the loop stops. -/
def HandledBy (st : Conf) (i : Nat) (buffer : Mem) (bytes : List UInt8) (calls : List EthCall) :
    Prop :=
  ∃ fuel st' buffer', handleRead h now b replaces l fuel st i buffer bytes
    = some (st', buffer', calls)

/-! ## 3. The loop does not depend on the fuel -/

/-- More fuel does not change a result. -/
theorem packetLoop_add {i ep : Nat} (more : Nat) {r : Conf × Mem × List EthCall} :
    ∀ {fuel : Nat} {st : Conf} {buffer : Mem} {bp : Nat} {calls : List EthCall},
      packetLoop h now b replaces l i ep fuel st buffer bp calls = some r →
      packetLoop h now b replaces l i ep (fuel + more) st buffer bp calls = some r := by
  intro fuel
  induction fuel with
  | zero => exact fun hr => absurd hr nofun
  | succ fuel ih =>
    intro st buffer bp calls hr
    rw [Nat.succ_add]
    unfold packetLoop at hr ⊢
    dsimp only at hr ⊢
    split at hr
    · rename_i hbp
      rw [if_pos hbp]
      split at hr
      · exact absurd hr nofun
      · exact ih hr
    · rename_i hbp
      rw [if_neg hbp]
      exact hr

/-- There is only one way to handle a read. -/
theorem HandledBy.unique {st : Conf} {i : Nat} {buffer : Mem} {bytes : List UInt8}
    {calls calls' : List EthCall} (hc : HandledBy h now b replaces l st i buffer bytes calls)
    (hc' : HandledBy h now b replaces l st i buffer bytes calls') : calls = calls' := by
  obtain ⟨fuel, st1, buffer1, hr⟩ := hc
  obtain ⟨fuel', st1', buffer1', hr'⟩ := hc'
  have h1 := packetLoop_add h now b replaces l fuel' hr
  have h2 := packetLoop_add h now b replaces l fuel hr'
  rw [Nat.add_comm, h2] at h1
  exact congrArg (fun r => r.2.2) (Option.some.inj h1).symm

/-- The loop adds its calls to the ones that were made. -/
theorem packetLoop_prefix {i ep : Nat} {r : Conf × Mem × List EthCall} :
    ∀ {fuel : Nat} {st : Conf} {buffer : Mem} {bp : Nat} {calls : List EthCall},
      packetLoop h now b replaces l i ep fuel st buffer bp calls = some r → calls <+: r.2.2 := by
  intro fuel
  induction fuel with
  | zero => exact fun hr => absurd hr nofun
  | succ fuel ih =>
    intro st buffer bp calls hr
    unfold packetLoop at hr
    dsimp only at hr
    split at hr
    · split at hr
      · exact absurd hr nofun
      · exact (List.prefix_append calls _).trans (ih hr)
    · obtain rfl := Option.some.inj hr
      exact List.prefix_refl calls

/-- A loop that begins makes a call. -/
theorem packetLoop_ne_nil {i ep fuel : Nat} {st : Conf} {buffer : Mem} {bp : Nat}
    {r : Conf × Mem × List EthCall} (hbp : bp < ep)
    (hr : packetLoop h now b replaces l i ep fuel st buffer bp [] = some r) : r.2.2 ≠ [] := by
  cases fuel with
  | zero => exact absurd hr nofun
  | succ fuel =>
    rw [packetLoop, if_pos hbp] at hr
    dsimp only at hr
    split at hr
    · exact absurd hr nofun
    · have hpre := packetLoop_prefix h now b replaces l hr
      intro hnil
      rw [hnil] at hpre
      exact absurd (List.prefix_nil.mp hpre) (by simp)

/-! ## 4. Packets that are laid out in a buffer -/

/-- A packet as the device captured it: the bytes of its header, as long as `bh_hdrlen` says, and
the bytes that were captured, as many as `bh_caplen` says. -/
structure Captured where
  header : List UInt8
  packet : List UInt8
  size_le : l.size ≤ header.length
  hdrlen : h.endian.load16 (Mem.ofList header) l.hdrlen = header.length
  caplen : h.endian.load32 (Mem.ofList header) l.caplen = packet.length

/-- The packets are laid out in these bytes.  There is padding behind each of them, which the last
one may lack. -/
inductive LaidOut : List (Captured h l) → List UInt8 → Prop
  | nil : LaidOut [] []
  | last (p : Captured h l) : LaidOut [p] (p.header ++ p.packet)
  | cons (p : Captured h l) {padding bytes : List UInt8} {ps : List (Captured h l)}
      (aligned : p.header.length + p.packet.length + padding.length
        = l.wordalign (p.header.length + p.packet.length))
      (rest : LaidOut ps bytes) : LaidOut (p :: ps) (p.header ++ p.packet ++ padding ++ bytes)

/-- The first packet is at the beginning. -/
theorem LaidOut.head {p : Captured h l} {ps : List (Captured h l)} {bytes : List UInt8}
    (hl : LaidOut h l (p :: ps) bytes) : ∃ behind, bytes = p.header ++ (p.packet ++ behind) := by
  cases hl with
  | last => exact ⟨[], by rw [List.append_nil]⟩
  | cons _ aligned rest => exact ⟨_, by rw [List.append_assoc, List.append_assoc]⟩

/-! ## 5. The first iteration -/

section

variable {h l}

/-- The call of `l2_eth` that a packet is to get. -/
def Captured.call (p : Captured h l) : EthCall := ⟨p.packet, p.packet.length⟩

/-- The header of the packet is at the beginning of the buffer. -/
def Captured.At (p : Captured h l) (buffer : Mem) : Prop :=
  ∀ k, k < p.header.length → buffer k = Mem.ofList p.header k

theorem Captured.At.hdrlen {p : Captured h l} {buffer : Mem} (hp : p.At buffer) :
    h.endian.load16 buffer l.hdrlen = p.header.length := by
  have hle := l.hdrlen_le
  have hsize := p.size_le
  rw [← p.hdrlen]
  exact h.endian.load16_congr fun k hk => hp _ (by omega)

theorem Captured.At.caplen {p : Captured h l} {buffer : Mem} (hp : p.At buffer) :
    h.endian.load32 buffer l.caplen = p.packet.length := by
  have hle := l.caplen_le
  have hsize := p.size_le
  rw [← p.caplen]
  exact h.endian.load32_congr fun k hk => hp _ (by omega)

/-- What happens behind the header does not touch it. -/
theorem Captured.At.splice {p : Captured h l} {buffer : Mem} (hp : p.At buffer) (left : Mem) :
    p.At (buffer.splice p.header.length left) := by
  intro k hk
  rw [Mem.splice_apply_of_lt buffer left hk, hp k hk]

theorem Captured.at_write (p : Captured h l) (buffer : Mem) (behind : List UInt8) :
    p.At (buffer.write 0 (p.header ++ behind)) := by
  intro k hk
  have hat := Mem.write_apply_at buffer 0 (i := k) (p.header ++ behind)
    (by rw [List.length_append]; omega)
  rw [Nat.zero_add] at hat
  rw [hat, Mem.ofList, List.getD_eq_getElem?_getD, List.getElem?_append_left hk,
    List.getD_eq_getElem?_getD]

/-- The frame that `l2_eth` gets has the bytes of the packet. -/
theorem Captured.read_write (p : Captured h l) (buffer : Mem) (behind : List UInt8) :
    ((buffer.write 0 (p.header ++ (p.packet ++ behind))).shift p.header.length).read 0
      p.packet.length = p.packet := by
  rw [Mem.read_shift]
  have hall := Mem.read_write_same buffer 0 (p.header ++ (p.packet ++ behind))
  rw [← Nat.zero_add p.header.length]
  exact (Mem.read_eq_append (Mem.read_eq_append hall).2).1

/-- The frame in the buffer, behind its header. -/
def Captured.frame (p : Captured h l) (buffer : Mem) (bytes : List UInt8) : Mem :=
  (buffer.write 0 bytes).shift p.header.length

/-- The loop comes to the first packet, and then behind what it takes for the end. -/
theorem packetLoop_first {p : Captured h l} {buffer : Mem} (hp : p.At buffer)
    (hpos : 0 < p.packet.length) (hlt : p.header.length + p.packet.length < 2 ^ 32) (st : Conf)
    (i fuel : Nat) :
    packetLoop h now b replaces l i p.packet.length (fuel + 2) st buffer 0 [] =
      (l2EthLeaves h b replaces (countIntReceived st i p.packet.length) i
        (buffer.shift p.header.length) p.packet.length).map fun left =>
          (l2Eth h now b (countIntReceived st i p.packet.length) i (buffer.shift p.header.length)
            p.packet.length, buffer.splice p.header.length left,
            [⟨(buffer.shift p.header.length).read 0 p.packet.length, p.packet.length⟩]) := by
  rw [packetLoop, if_pos hpos]
  simp only [Nat.zero_add, hp.caplen, hp.hdrlen, List.nil_append]
  rcases l2EthLeaves h b replaces (countIntReceived st i p.packet.length) i
    (buffer.shift p.header.length) p.packet.length with - | left
  · rfl
  · have hleft := hp.splice left
    have hstep := l.le_wordalign (p.packet.length + p.header.length)
    dsimp only
    rw [hleft.caplen, hleft.hdrlen, Nat.mod_eq_of_lt (by omega), packetLoop, if_neg (by omega)]
    rfl

/-- The packet has bytes that were captured, and the buffer is still there when it was handled. -/
structure Kept (st : Conf) (i : Nat) (buffer : Mem) (bytes : List UInt8) (p : Captured h l) :
    Prop where
  captured : 0 < p.packet.length
  kept : ¬ (Rescanned h b (countIntReceived st i p.packet.length) (p.frame buffer bytes) ∧
    replaces (countIntReceived st i p.packet.length) = true)

/-- A read that brings packets is handled by one call, for the first of them, or by none. -/
theorem handledBy_cons_iff {p : Captured h l} {ps : List (Captured h l)} {bytes : List UInt8}
    (hl : LaidOut h l (p :: ps) bytes) (hlen : bytes.length < 2 ^ 31) (st : Conf) (i : Nat)
    (buffer : Mem) (calls : List EthCall) :
    HandledBy h now b replaces l st i buffer bytes calls ↔
      (p.packet.length = 0 ∧ calls = []) ∨
        (Kept b replaces st i buffer bytes p ∧ calls = [p.call]) := by
  obtain ⟨behind, rfl⟩ := hl.head
  have hp := p.at_write buffer (p.packet ++ behind)
  have hread := p.read_write buffer behind
  have hlt : p.header.length + p.packet.length < 2 ^ 32 := by
    simp only [List.length_append] at hlen
    omega
  rcases Nat.eq_zero_or_pos p.packet.length with h0 | hpos
  · have hnone : HandledBy h now b replaces l st i buffer (p.header ++ (p.packet ++ behind)) [] :=
      ⟨1, st, _, by rw [handleRead, hp.caplen, h0, packetLoop, if_neg (Nat.lt_irrefl 0)]⟩
    refine ⟨fun hc => .inl ⟨h0, hc.unique _ _ _ _ _ hnone⟩, ?_⟩
    rintro (⟨-, rfl⟩ | ⟨hk, -⟩)
    · exact hnone
    · exact absurd hk.captured (by omega)
  · have hfirst := packetLoop_first now b replaces hp hpos hlt st i
    have hgone := l2EthLeaves_eq_none_iff h b replaces (countIntReceived st i p.packet.length) i
      (p.frame buffer (p.header ++ (p.packet ++ behind))) p.packet.length
    rw [show (buffer.write 0 (p.header ++ (p.packet ++ behind))).shift p.header.length
      = p.frame buffer (p.header ++ (p.packet ++ behind)) from rfl] at hread hfirst
    rw [hread] at hfirst
    rcases hleaves : l2EthLeaves h b replaces (countIntReceived st i p.packet.length) i
      (p.frame buffer (p.header ++ (p.packet ++ behind))) p.packet.length with - | left
    · -- the header is read again after the buffer was freed
      rw [hleaves] at hgone hfirst
      refine iff_of_false ?_ ?_
      · rintro ⟨fuel, st', buffer', hr⟩
        rw [handleRead, hp.caplen] at hr
        have hmore := packetLoop_add h now b replaces l 2 hr
        rw [hfirst fuel] at hmore
        exact nomatch hmore
      · rintro (⟨h0, -⟩ | ⟨hk, -⟩)
        · omega
        · exact hk.kept (hgone.mp rfl)
    · rw [hleaves] at hgone hfirst
      have hone : HandledBy h now b replaces l st i buffer (p.header ++ (p.packet ++ behind))
          [p.call] := ⟨2, _, _, by rw [handleRead, hp.caplen]; exact hfirst 0⟩
      have hkept : Kept b replaces st i buffer (p.header ++ (p.packet ++ behind)) p :=
        ⟨hpos, fun hall => nomatch hgone.mpr hall⟩
      refine ⟨fun hc => .inr ⟨hkept, hc.unique _ _ _ _ _ hone⟩, ?_⟩
      rintro (⟨h0, -⟩ | ⟨-, rfl⟩)
      · omega
      · exact hone

/-- A read that brings nothing is handled by no call if the buffer has a length of 0 in the header
at its beginning. -/
theorem handledBy_nil_iff (st : Conf) (i : Nat) (buffer : Mem) :
    HandledBy h now b replaces l st i buffer [] [] ↔ h.endian.load32 buffer l.caplen = 0 := by
  have hsame : buffer.write 0 [] = buffer :=
    funext fun k => Mem.write_apply_of_ge buffer [] (Nat.zero_le k)
  constructor
  · rintro ⟨fuel, st', buffer', hr⟩
    rw [handleRead, hsame] at hr
    by_contra hpos
    exact packetLoop_ne_nil h now b replaces l (Nat.pos_of_ne_zero hpos) hr rfl
  · intro h0
    exact ⟨1, st, buffer, by rw [handleRead, hsame, h0, packetLoop, if_neg (Nat.lt_irrefl 0)]⟩

/-- The reads for which the end of the loop is the right one: of one packet, or of none where the
buffer has a length of 0 in the header at its beginning. -/
inductive EndsRight (st : Conf) (i : Nat) (buffer : Mem) (bytes : List UInt8) :
    List (Captured h l) → Prop
  | one (p : Captured h l) (kept : Kept b replaces st i buffer bytes p) :
    EndsRight st i buffer bytes [p]
  | none (stale : h.endian.load32 buffer l.caplen = 0) : EndsRight st i buffer bytes []

/-- One read, whatever was in the buffer before it. -/
theorem handledBy_iff {ps : List (Captured h l)} {bytes : List UInt8} (hl : LaidOut h l ps bytes)
    (hlen : bytes.length < 2 ^ 31) (st : Conf) (i : Nat) (buffer : Mem) :
    HandledBy h now b replaces l st i buffer bytes (ps.map Captured.call) ↔
      EndsRight b replaces st i buffer bytes ps := by
  cases ps with
  | nil =>
    cases hl
    refine (handledBy_nil_iff now b replaces st i buffer).trans ⟨.none, ?_⟩
    rintro ⟨⟩
    assumption
  | cons p ps =>
    rw [handledBy_cons_iff now b replaces hl hlen]
    constructor
    · rintro (⟨-, hcalls⟩ | ⟨hk, hcalls⟩)
      · exact nomatch hcalls
      · rw [List.map_cons, List.cons.injEq, List.map_eq_nil_iff] at hcalls
        rw [hcalls.2]
        exact .one p hk
    · rintro (hk | -)
      rename_i hk
      exact .inr ⟨hk, rfl⟩

/-! ## 6. A pass over the interfaces -/

/-- Every read of a pass was handled by the calls that it is listed with. -/
theorem deviceLoop_handled {isset : Nat → Bool} {read : Nat → Option (List UInt8)}
    {ok : Bool} {st' : Conf} {buffer' : Mem} {done' : List Reading} :
    ∀ {fuel : Nat} {st : Conf} {buffer : Mem} {i : Nat} {done : List Reading},
      deviceLoop h now b replaces l isset read fuel st buffer i done
        = some (ok, st', buffer', done') →
      (∀ r ∈ done, HandledBy h now b replaces l r.st r.slot r.buffer r.bytes r.calls) →
      ∀ r ∈ done', HandledBy h now b replaces l r.st r.slot r.buffer r.bytes r.calls := by
  intro fuel
  induction fuel with
  | zero => exact fun hr => absurd hr nofun
  | succ fuel ih =>
    intro st buffer i done hr hdone
    unfold deviceLoop at hr
    split at hr
    · split at hr
      · exact ih hr hdone
      split at hr
      · exact ih hr hdone
      split at hr
      · rw [Option.some.injEq, Prod.mk.injEq, Prod.mk.injEq, Prod.mk.injEq] at hr
        rw [← hr.2.2.2]
        exact hdone
      · split at hr
        · exact absurd hr nofun
        · rename_i hread
          refine ih hr fun r hmem => ?_
          rcases List.mem_append.mp hmem with hmem | hmem
          · exact hdone r hmem
          · rw [List.mem_singleton.mp hmem]
            exact ⟨fuel, _, _, hread⟩
    · rw [Option.some.injEq, Prod.mk.injEq, Prod.mk.injEq, Prod.mk.injEq] at hr
      rw [← hr.2.2.2]
      exact hdone

theorem handleinterfacesBpf_handled {fuel : Nat} {select : Select}
    {read : Nat → Option (List UInt8)} {st st' : Conf} {buffer buffer' : Mem} {ok : Bool}
    {done : List Reading}
    (hpass : handleinterfacesBpf h now b replaces l fuel select read st buffer
      = some (ok, st', buffer', done)) :
    ∀ r ∈ done, HandledBy h now b replaces l r.st r.slot r.buffer r.bytes r.calls := by
  intro r hr
  unfold handleinterfacesBpf at hpass
  split at hpass
  · simp only [Option.some.injEq, Prod.mk.injEq] at hpass
    rw [← hpass.2.2.2] at hr
    exact nomatch hr
  · simp only [Option.some.injEq, Prod.mk.injEq] at hpass
    rw [← hpass.2.2.2] at hr
    exact nomatch hr
  · exact deviceLoop_handled now b replaces hpass (fun r hr => nomatch hr) r hr

/-- **Which reads are handled packet by packet.**  For every list of packets that is laid out in the
bytes of a read, whatever was in the buffer before it: `l2_eth` is called once for each packet, in
order, with its bytes and their number, and then the loop stops, exactly when there is one packet,
with bytes that were captured, and handling it does not replace the buffer, or no packet, and the
buffer has a length of 0 in the header at its beginning.  So it is for each read of a pass of
`handleinterfaces`. -/
theorem handled_iff {ps : List (Captured h l)} {bytes : List UInt8} (hl : LaidOut h l ps bytes)
    (hlen : bytes.length < 2 ^ 31) :
    (∀ (st : Conf) (i : Nat) (buffer : Mem),
      HandledBy h now b replaces l st i buffer bytes (ps.map Captured.call) ↔
        EndsRight b replaces st i buffer bytes ps) ∧
    ∀ (fuel : Nat) (select : Select) (read : Nat → Option (List UInt8)) (st st' : Conf)
      (buffer buffer' : Mem) (ok : Bool) (done : List Reading),
      handleinterfacesBpf h now b replaces l fuel select read st buffer
        = some (ok, st', buffer', done) →
      ∀ r ∈ done, r.bytes = bytes →
        (r.calls = ps.map Captured.call ↔
          EndsRight b replaces r.st r.slot r.buffer bytes ps) := by
  refine ⟨handledBy_iff now b replaces hl hlen, ?_⟩
  rintro fuel select read st st' buffer buffer' ok done hpass r hr rfl
  have hby := handleinterfacesBpf_handled now b replaces hpass r hr
  rw [← handledBy_iff now b replaces hl hlen]
  exact ⟨fun he => he ▸ hby, fun hc => hby.unique _ _ _ _ _ hc⟩

end
end

/-- `struct bpf_hdr` where `struct timeval` has sixteen bytes and `long` eight. -/
def bpfHdr64 : BpfHdr := ⟨16, 24, 26, 8, by decide, by decide, by decide⟩

/-- An ARP packet of zeros in a frame, behind its header. -/
def arpCaptured : Captured (quietHost .little) bpfHdr64 where
  header := List.replicate 16 0 ++ [42, 0, 0, 0, 42, 0, 0, 0, 26, 0]
  packet := List.replicate 12 0 ++ [0x08, 0x06] ++ List.replicate 28 0
  size_le := by decide
  hdrlen := by decide
  caplen := by decide

theorem arpCaptured_kept (bytes : List UInt8) :
    Kept anyTunnel (fun _ => false) oneLink 1 (Mem.ofList []) bytes arpCaptured :=
  ⟨by decide, fun hall => nomatch hall.2⟩

theorem arp_handled : HandledBy (quietHost .little) 0 anyTunnel (fun _ => false) bpfHdr64 oneLink 1
    (Mem.ofList []) (arpCaptured.header ++ arpCaptured.packet) [arpCaptured.call] :=
  ((handled_iff 0 anyTunnel (fun _ => false) (.last arpCaptured) (by decide)).1 oneLink 1
    (Mem.ofList [])).mpr (.one _ (arpCaptured_kept _))

/-- The same packet twice in one read. -/
def arpTwice : List UInt8 :=
  arpCaptured.header ++ arpCaptured.packet ++ List.replicate 4 0 ++
    (arpCaptured.header ++ arpCaptured.packet)

/-- The second packet is never looked at. -/
theorem second_packet_lost :
    LaidOut (quietHost .little) bpfHdr64 [arpCaptured, arpCaptured] arpTwice ∧
    HandledBy (quietHost .little) 0 anyTunnel (fun _ => false) bpfHdr64 oneLink 1 (Mem.ofList [])
      arpTwice [arpCaptured.call] ∧
    ¬ HandledBy (quietHost .little) 0 anyTunnel (fun _ => false) bpfHdr64 oneLink 1 (Mem.ofList [])
      arpTwice ([arpCaptured, arpCaptured].map Captured.call) := by
  have hl : LaidOut (quietHost .little) bpfHdr64 [arpCaptured, arpCaptured] arpTwice :=
    .cons arpCaptured (by decide) (.last arpCaptured)
  have hone := (handledBy_cons_iff 0 anyTunnel (fun _ => false) hl (by decide) oneLink 1
    (Mem.ofList []) [arpCaptured.call]).mpr (.inr ⟨arpCaptured_kept _, rfl⟩)
  exact ⟨hl, hone, fun htwo => nomatch hone.unique _ _ _ _ _ htwo⟩

end Ecmh
