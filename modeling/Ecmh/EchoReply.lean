/-
# The answer to an echo request whose hop limit ran out

`icmp6_send` builds its packet in a structure of 1548 bytes.  The length of the data is in four
places: in the `memcpy` into the structure, in the payload length, in the length that the checksum
covers, and in the length handed to `sendpacket6`.  Only the first is bounded, by the 1500 bytes of
`data`, so a longer request is answered with what lies behind the structure (`wholeReply_iff`).
-/
import Ecmh.Accepts
import Ecmh.InFrame
import Ecmh.Sends

namespace Ecmh

open ByteMem

/-! ## 1. The packet -/

/-- `sizeof(struct icmp6_hoplimit_packet)`. -/
def sizeofHoplimitPacket : Nat := 1548

/-- The bytes of its packet that `icmp6_send` reads, as offset and length: the addresses and the
message for the checksum, and what it hands to `sendpacket6`. -/
def icmp6SendReads (dlen : Nat) : List (Nat × Nat) :=
  [(ip6Src, 32), (40, (dlen + 4) % 65536), (0, (dlen + 44) % 65536)]

/-- How much of the data is copied. -/
def icmp6Copied (dlen : Nat) : Nat := if 1500 > dlen then dlen else 1500

/-- The packet before its checksum is stored. -/
def icmp6Unsummed (h : Host) (global src : In6Addr) (type code : UInt8) (data : Mem) (dlen : Nat) :
    Mem :=
  let e := h.endian
  let packet := (h.calloc sizeofHoplimitPacket).write 0 [0x60]
  let packet := e.store16 packet ip6Plen (e.htons ((dlen + 4) % 65536))
  let packet := packet.write ip6Nxt [ipprotoIcmpv6]
  let packet := packet.write ip6Hlim [64]
  let packet := packet.write ip6Src global.s6Addr
  let packet := packet.write ip6Dst src.s6Addr
  let packet := packet.write 40 [type, code]
  packet.write 44 (data.read 0 (icmp6Copied dlen))

section Packet

variable (h : Host) (global src : In6Addr) (type code : UInt8) (data : Mem) (dlen : Nat)

theorem icmp6Packet_eq : icmp6Packet h global src type code data dlen
    = h.endian.store16 (icmp6Unsummed h global src type code data dlen) 42
        (ipv6Checksum h.endian (icmp6Unsummed h global src type code data dlen) ipprotoIcmpv6
          ((icmp6Unsummed h global src type code data dlen).shift 40) (dlen + 4)) := rfl

/-- Behind the ICMPv6 header stands the data that was copied, then what `memzero` left of the
structure, then what is not part of it. -/
theorem icmp6Unsummed_data (k : Nat) : icmp6Unsummed h global src type code data dlen (44 + k)
    = if k < icmp6Copied dlen then data k
      else if 44 + k < sizeofHoplimitPacket then 0 else h.junk (44 + k) := by
  unfold icmp6Unsummed
  split
  · rename_i hk
    rw [Mem.write_apply_at _ 44 _ (by simpa using hk), Mem.getD_read _ hk, Nat.zero_add]
  · rename_i hk
    have hsrc : ip6Src + global.s6Addr.length = 24 := by rw [global.size]; rfl
    have hdst : ip6Dst + src.s6Addr.length = 40 := by rw [src.size]; rfl
    rw [Mem.write_apply_of_ge _ _ (by rw [Mem.length_read]; omega),
      Mem.write_apply_of_ge _ _ (by simp only [List.length_cons, List.length_nil]; omega),
      Mem.write_apply_of_ge _ _ (by omega), Mem.write_apply_of_ge _ _ (by omega),
      Mem.write_apply_of_ge _ _ (by simp only [ip6Hlim, List.length_singleton]; omega),
      Mem.write_apply_of_ge _ _ (by simp only [ip6Nxt, List.length_singleton]; omega),
      Endian.store16_apply_ne _ _ _ (Or.inr (by simp only [ip6Plen]; omega)),
      Mem.write_apply_of_ge _ _ (by simp only [List.length_singleton]; omega), Host.calloc]

/-- The checksum field is still zero. -/
theorem icmp6Unsummed_field :
    (icmp6Unsummed h global src type code data dlen).read 42 2 = [0, 0] := by
  have hsrc : ip6Src + global.s6Addr.length = 24 := by rw [global.size]; rfl
  have hdst : ip6Dst + src.s6Addr.length = 40 := by rw [src.size]; rfl
  unfold icmp6Unsummed
  rw [Mem.read_write_disjoint _ _ (Or.inl (by decide)),
    Mem.read_write_disjoint _ _ (Or.inr (by simp)), Mem.read_write_disjoint _ _ (Or.inr (by omega)),
    Mem.read_write_disjoint _ _ (Or.inr (by omega)),
    Mem.read_write_disjoint _ _ (Or.inr (by simp [ip6Hlim])),
    Mem.read_write_disjoint _ _ (Or.inr (by simp [ip6Nxt])),
    Endian.read_store16_disjoint _ _ _ (Or.inr (by decide)),
    Mem.read_write_disjoint _ _ (Or.inr (by simp))]
  rfl

/-- The payload length. -/
theorem icmp6Packet_plen : (icmp6Packet h global src type code data dlen).read ip6Plen 2
    = be16 ((dlen + 4) % 65536) := by
  rw [icmp6Packet_eq, Endian.read_store16_disjoint _ _ _ (Or.inl (by decide))]
  unfold icmp6Unsummed
  rw [Mem.read_write_disjoint _ _ (Or.inl (by decide)),
    Mem.read_write_disjoint _ _ (Or.inl (by decide)),
    Mem.read_write_disjoint _ _ (Or.inl (by decide)),
    Mem.read_write_disjoint _ _ (Or.inl (by decide)),
    Mem.read_write_disjoint _ _ (Or.inl (by decide)),
    Mem.read_write_disjoint _ _ (Or.inl (by decide)), Endian.read_store16_same,
    Endian.bytes16_htons]

theorem icmp6Packet_data (k : Nat) : icmp6Packet h global src type code data dlen (44 + k)
    = icmp6Unsummed h global src type code data dlen (44 + k) := by
  rw [icmp6Packet_eq, Endian.store16_apply_ne _ _ _ (Or.inr (by omega))]

/-- The checksum is the right one, as the machine adds the bytes. -/
theorem icmp6Packet_checksumOk :
    checksumOk h.endian (icmp6Packet h global src type code data dlen) 40 (dlen + 4) = true := by
  have hfield := icmp6Unsummed_field h global src type code data dlen
  have hcleared : h.endian.store16 (icmp6Packet h global src type code data dlen) 42 0
      = icmp6Unsummed h global src type code data dlen := by
    refine store16_same ?_ fun k hk => ?_
    · rw [hfield]
      cases h.endian <;> rfl
    · rw [icmp6Packet_eq, Endian.store16_apply_ne _ _ _ hk]
  rw [checksumOk, decide_eq_true_eq, hcleared, icmp6Packet_eq, Endian.load16_store16,
    Nat.mod_eq_of_lt (ipv6Checksum_lt _ _ _ _ _)]

/-- By the standard it is right unless the machine misplaces the last byte. -/
theorem icmp6Packet_verified_iff (hlt : dlen + 4 < 65536) :
    Verified (icmp6Packet h global src type code data dlen) 40 (dlen + 4) ↔
      ¬ Misplaced h.endian (icmp6Packet h global src type code data dlen) 40 (dlen + 4) := by
  have hok := icmp6Packet_checksumOk h global src type code data dlen
  have hsum := ((checksumOk_iff (by decide) (by omega) hlt).mp hok).1
  constructor
  · intro hv hmis
    rw [summedMessage, if_pos hmis.1] at hsum
    exact not_verifies_low hmis hv hsum
  · exact fun hplaced => (verifies_summed_iff hplaced).mp hsum

end Packet

/-! ## 2. What is asked of the answer -/

/-- The law, for the request with the ICMPv6 message of `plen` bytes at offset `off`: the lengths of
the answer agree, its checksum is right, its body is that of the request, and `icmp6_send` stayed
inside its structure. -/
structure WholeReply (iph : Mem) (off plen : Nat) (x : Sent) : Prop where
  sender : x.sender = .icmp6Send
  length : x.packet.length = 40 + plen
  payload : ofBe16 (x.packet.getD ip6Plen 0) (x.packet.getD (ip6Plen + 1) 0) = plen
  checksum : Verified (Mem.ofList x.packet) 40 plen
  body : x.packet.drop 44 = iph.read (off + 4) (plen - 4)
  inside : ∀ r ∈ icmp6SendReads (plen - 4), r.1 + r.2 ≤ sizeofHoplimitPacket

/-- What a request has to be like. -/
structure ReplyFits (e : Endian) (iph : Mem) (off plen : Nat) : Prop where
  /-- the answer fits into the structure -/
  room : plen ≤ 1508
  /-- what is not copied is zero -/
  zeros : ∀ k, 1504 ≤ k → k < plen → iph (off + k) = 0
  /-- a big-endian machine does not misplace the last byte -/
  placed : ¬ Misplaced e iph off plen

theorem verified_congr {m m' : Mem} {off plen : Nat}
    (haddrs : ∀ k, ip6Src ≤ k → k < 40 → m k = m' k)
    (hmessage : ∀ k, k < plen → m (off + k) = m' (off + k)) :
    Verified m off plen ↔ Verified m' off plen := by
  have hsrc : readAddr m ip6Src = readAddr m' ip6Src :=
    readAddr_congr fun k h1 h2 => haddrs k h1 (by simp only [ip6Src] at h2; omega)
  have hdst : readAddr m ip6Dst = readAddr m' ip6Dst :=
    readAddr_congr fun k h1 h2 => haddrs k (by simp only [ip6Src, ip6Dst] at h1 ⊢; omega)
      (by simp only [ip6Dst] at h2; omega)
  have hread : m.read off plen = m'.read off plen := by
    refine Mem.read_congr fun k h1 h2 => ?_
    obtain ⟨j, rfl⟩ := Nat.exists_eq_add_of_le h1
    exact hmessage j (by omega)
  rw [Verified, Verified, checkedBytes, checkedBytes, hsrc, hdst, hread]

theorem ofList_read_apply (m : Mem) {n k : Nat} (hk : k < n) :
    Mem.ofList (m.read 0 n) k = m k := by
  rw [Mem.ofList, Mem.getD_read _ hk, Nat.zero_add]

theorem misplaced_congr {e : Endian} {m m' : Mem} {off off' plen : Nat}
    (hlast : m (off + (plen - 1)) = m' (off' + (plen - 1))) :
    Misplaced e m off plen ↔ Misplaced e m' off' plen := by
  rw [Misplaced, Misplaced, hlast]

section Reply

variable (h : Host) (global src : In6Addr) {iph data : Mem} {off dlen : Nat}
  (hdata : ∀ k, data k = iph (off + 4 + k))

include hdata

/-- The body of the answer, where it fits: what is not copied has to be zero. -/
theorem body_iff (hroom : dlen ≤ 1504) :
    (∀ k, k < dlen → icmp6Packet h global src icmp6EchoReply icmp6TimeExceedTransit data dlen
      (44 + k) = iph (off + 4 + k)) ↔ ∀ k, 1504 ≤ k → k < dlen + 4 → iph (off + k) = 0 := by
  constructor
  · intro hall k h1 h2
    obtain ⟨j, rfl⟩ : ∃ j, k = 4 + j := ⟨k - 4, by omega⟩
    have hj := hall j (by omega)
    rw [icmp6Packet_data, icmp6Unsummed_data, icmp6Copied, if_neg (by split <;> omega),
      if_pos (by simp only [sizeofHoplimitPacket]; omega), Nat.add_assoc] at hj
    exact hj.symm
  · intro hzeros k hk
    rw [icmp6Packet_data, icmp6Unsummed_data]
    split
    · exact hdata k
    · rename_i hcopied
      have hk1500 : 1500 ≤ k := by
        unfold icmp6Copied at hcopied
        split at hcopied <;> omega
      rw [if_pos (by simp only [sizeofHoplimitPacket]; omega), Nat.add_assoc,
        hzeros (4 + k) (by omega) (by omega)]

/-- **An answer is whole if it fits.** -/
theorem wholeReply_iff (h4 : 4 ≤ dlen) (hlt : dlen ≤ 32724) {x : Sent}
    (hsender : x.sender = .icmp6Send)
    (hx : x.packet = (icmp6Packet h global src icmp6EchoReply icmp6TimeExceedTransit data
      dlen).read 0 (dlen + 44)) :
    WholeReply iph off (dlen + 4) x ↔ ReplyFits h.endian iph off (dlen + 4) := by
  have hplen := ofBe16_of_read (icmp6Packet_plen h global src icmp6EchoReply
    icmp6TimeExceedTransit data dlen)
  have hchecked := icmp6Packet_verified_iff h global src icmp6EchoReply icmp6TimeExceedTransit data
    dlen (by omega)
  have hbody : dlen ≤ 1504 → _ := body_iff h global src hdata
  generalize icmp6Packet h global src icmp6EchoReply icmp6TimeExceedTransit data dlen = p
    at hx hplen hchecked hbody
  have hdrop : x.packet.drop 44 = iph.read (off + 4) (dlen + 4 - 4) ↔
      ∀ k, k < dlen → p (44 + k) = iph (off + 4 + k) := by
    rw [hx, Mem.drop_read _ _ (by omega), Nat.zero_add, Nat.add_sub_cancel, Nat.add_sub_cancel,
      Mem.read_eq_read_iff]
  have hsame : Verified (Mem.ofList x.packet) 40 (dlen + 4) ↔ Verified p 40 (dlen + 4) := by
    rw [hx]
    exact verified_congr (fun k _ hk => ofList_read_apply p (by omega))
      fun k hk => ofList_read_apply p (by omega)
  -- the last byte of the answer is that of the request
  have hmis : (∀ k, k < dlen → p (44 + k) = iph (off + 4 + k)) →
      (Misplaced h.endian p 40 (dlen + 4) ↔ Misplaced h.endian iph off (dlen + 4)) := by
    intro hall
    refine misplaced_congr ?_
    have hlast := hall (dlen - 1) (by omega)
    rwa [show 44 + (dlen - 1) = 40 + (dlen + 4 - 1) by omega,
      show off + 4 + (dlen - 1) = off + (dlen + 4 - 1) by omega] at hlast
  constructor
  · intro hw
    have hroom : dlen + 4 ≤ 1508 := by
      have hlast := hw.inside (0, (dlen + 4 - 4 + 44) % 65536) (by simp [icmp6SendReads])
      simp only [sizeofHoplimitPacket] at hlast
      omega
    have hall := hdrop.mp hw.body
    refine ⟨hroom, (hbody (by omega)).mp hall, fun hm => ?_⟩
    exact hchecked.mp (hsame.mp hw.checksum) ((hmis hall).mpr hm)
  · intro hf
    have hroom := hf.room
    have hall := (hbody (by omega)).mpr hf.zeros
    refine ⟨hsender, ?_, ?_, ?_, hdrop.mpr hall, ?_⟩
    · rw [hx, Mem.length_read]
      omega
    · rw [hx, Mem.getD_read _ (by simp only [ip6Plen]; omega),
        Mem.getD_read _ (by simp only [ip6Plen]; omega), Nat.zero_add, Nat.zero_add, hplen]
      omega
    · exact hsame.mpr (hchecked.mpr fun hm => hf.placed ((hmis hall).mp hm))
    · intro r hr
      simp only [icmp6SendReads, List.mem_cons, List.not_mem_nil, or_false] at hr
      rcases hr with rfl | rfl | rfl <;> simp only [ip6Src, sizeofHoplimitPacket] <;> omega

end Reply

/-! ## 3. The request -/

theorem l3Message_of_layer4 {e : Endian} {intn : IntNode} {iph : Mem} {len off plen : Nat}
    (hl4 : l3Layer4 e intn iph len = some (ipprotoIcmpv6, off, plen)) :
    l3Message e intn iph len = icmpv6Message e iph off plen := by
  obtain ⟨⟨hdst, hown⟩, hwalk⟩ := l3Layer4_icmpv6 hl4
  unfold l3Message
  dsimp only
  rw [hdst, if_neg (by decide), if_neg hown, hwalk]
  rfl

/-- An echo request that has no hop left. -/
theorem icmpv6Message_echoExceeded (e : Endian) {iph : Mem} {off : Nat} (plen : Nat)
    (hoff : 40 ≤ off) (htype : iph off = icmp6EchoRequest) (hlim : (iph ip6Hlim).toNat ≤ 1) :
    icmpv6Message e iph off plen
      = .echoExceeded (decreaseHlim (icmpv6Rechecksum e iph off plen)) off plen := by
  have hkept : icmpv6Rechecksum e iph off plen ip6Hlim = iph ip6Hlim :=
    icmpv6Rechecksum_other e iph off plen (by simp only [ip6Hlim]; omega)
  have hzero : decreaseHlim (icmpv6Rechecksum e iph off plen) ip6Hlim = 0 := by
    apply UInt8.toNat_inj.mp
    rw [decreaseHlim_hlim, hkept, UInt8.toNat_zero]
    omega
  unfold icmpv6Message
  dsimp only
  rw [htype, if_neg (by decide), if_pos rfl, if_pos hzero]

/-- The data that `icmp6_send` is given: what stands behind the checksum has not been changed. -/
theorem echoData_apply (e : Endian) (iph : Mem) {off : Nat} (plen : Nat) (hoff : 40 ≤ off)
    (k : Nat) :
    (decreaseHlim (icmpv6Rechecksum e iph off plen)).shift (off + 4) k = iph (off + 4 + k) := by
  rw [Mem.shift, decreaseHlim_other _ (by simp only [ip6Hlim]; omega), icmpv6Rechecksum,
    Endian.store16_apply_ne _ _ _ (Or.inr (by omega)),
    Endian.store16_apply_ne _ _ _ (Or.inr (by omega))]

/-- The one packet that `icmp6_send` hands over. -/
theorem icmp6Send_sent (h : Host) (st : Conf) (i : Nat) (src : In6Addr) (type code : UInt8)
    (data : Mem) (dlen : Nat) : ∃ x, (icmp6Send h st i src type code data dlen).sent
        = st.sent ++ [x] ∧ x.sender = .icmp6Send ∧
      x.packet = (icmp6Packet h (st.intn i).global src type code data dlen).read 0
        ((dlen + 44) % 65536) := by
  rw [icmp6Send_eq, countIcmpSent_sent, sendpacket6_sent]
  exact ⟨_, rfl, rfl, rfl⟩

/-- **When the answer to an echo request is whole**: for every frame with a request whose hop limit
runs out here, if the request fits. -/
theorem hopLimitReply_iff {h : Host} {now : Nat} {st st1 : Conf} {f : Frame} {i off plen : Nat}
    (hin : f.Enters now st st1 i)
    (hl4 : l3Layer4 h.endian (st1.intn i) f.buffer (min f.len bufferlen)
      = some (ipprotoIcmpv6, off, plen))
    (htype : f.buffer off = icmp6EchoRequest)
    (hlim : f.buffer ip6Hlim = 0 ∨ f.buffer ip6Hlim = 1) (h8 : 8 ≤ plen)
    (hframe : off + plen ≤ min f.len bufferlen) :
    (∃ x, (handleinterfaces h now st f).sent = st.sent ++ [x] ∧ WholeReply f.buffer off plen x) ↔
      ReplyFits h.endian f.buffer off plen := by
  obtain ⟨-, hwalk⟩ := l3Layer4_icmpv6 hl4
  have hoff := headerWalk_off hwalk
  have hmax : plen ≤ 32728 := by
    simp only [bufferlen] at hframe
    omega
  have hmessage := icmpv6Message_echoExceeded h.endian plen hoff htype
    (by rcases hlim with hl | hl <;> rw [hl] <;> decide)
  rcases frame_cases h now st f with ⟨st2, j, hin2, heq⟩ | ⟨hnot, -, -⟩
  · obtain ⟨hst, hslot⟩ := hin.unique hin2
    rw [heq, hst, hslot, l3Message_of_layer4 hl4, hmessage]
    obtain ⟨dlen, rfl⟩ : ∃ dlen, plen = dlen + 4 := ⟨plen - 4, by omega⟩
    have hdlen : (dlen + 4 + (2 ^ 32 - 4)) % 2 ^ 32 = dlen := by
      omega
    have hlen : (dlen + 44) % 65536 = dlen + 44 := Nat.mod_eq_of_lt (by omega)
    obtain ⟨x, hsent, hsender, hpacket⟩ := icmp6Send_sent h
      (countHlimExceeded (countIcmpReceived (countIntReceived st1 i (min f.len bufferlen)) i)) i
      (readAddr (decreaseHlim (icmpv6Rechecksum h.endian f.buffer off (dlen + 4))) ip6Src)
      icmp6EchoReply icmp6TimeExceedTransit
      ((decreaseHlim (icmpv6Rechecksum h.endian f.buffer off (dlen + 4))).shift (off + 4)) dlen
    rw [hlen] at hpacket
    have hwhole := wholeReply_iff h _ _ (echoData_apply h.endian f.buffer (dlen + 4) hoff)
      (by omega) (by omega) hsender hpacket
    rw [← hwhole, Message.handle, hdlen, hsent]
    change (∃ y, st1.sent ++ [x] = st.sent ++ [y] ∧ _) ↔ _
    rw [hin.sent]
    constructor
    · rintro ⟨y, hy, hw⟩
      rwa [List.singleton_inj.mp (List.append_cancel_left hy)]
    · exact fun hw => ⟨x, rfl, hw⟩
  · exact absurd hin (hnot st1 i)

/-- An echo request for `ff05::1` with `n` bytes behind its type, which arrives with hop limit 1. -/
def echoFrame (n : Nat) : Frame := ethernetFrame 1
  (ipv6Packet ipprotoIcmpv6 1 (globalHost 1) siteGroup (icmp6EchoRequest :: List.replicate n 7))

/-- The echo request comes to `l4_ipv6_icmpv6` of a daemon with one interface. -/
theorem echoFrame_enters (n : Nat) : (echoFrame n).Enters 0 oneLink
    (countReceived oneLink (min (echoFrame n).len bufferlen)) 1 :=
  ⟨(by decide : 1 ≠ arphrdLoopback), rfl, rfl, rfl⟩

/-- An echo request of the usual size. -/
theorem echo_answered : ∃ x, (handleinterfaces (quietHost .little) 0 oneLink (echoFrame 63)).sent
    = oneLink.sent ++ [x] ∧ WholeReply (echoFrame 63).buffer 40 64 x :=
  (hopLimitReply_iff (echoFrame_enters 63) (by decide +kernel) (by decide) (by decide) (by decide)
    (by decide)).mpr ⟨by decide, fun k h1 h2 => absurd h1 (by omega), by decide⟩

/-- The answer to an echo request of 1600 bytes, not larger than what the buffer holds, is sent with
92 bytes that lie behind the structure. -/
theorem long_echo_leaks : (echoFrame 1599).len ≤ bufferlen ∧
    l3Layer4 .little ((countReceived oneLink (min (echoFrame 1599).len bufferlen)).intn 1)
      (echoFrame 1599).buffer (min (echoFrame 1599).len bufferlen)
        = some (ipprotoIcmpv6, 40, 1600) ∧
    ¬ ∃ x, (handleinterfaces (quietHost .little) 0 oneLink (echoFrame 1599)).sent
      = oneLink.sent ++ [x] ∧ WholeReply (echoFrame 1599).buffer 40 1600 x := by
  refine ⟨by decide +kernel, by decide +kernel, ?_⟩
  rintro ⟨x, -, hw⟩
  exact absurd (hw.inside (0, 1640) (by decide)) (by decide)

end Ecmh
