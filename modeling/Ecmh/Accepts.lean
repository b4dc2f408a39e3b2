/-
# Which checksums are accepted

A receiver that follows the standard sums up the pseudo-header and the whole message with its
checksum in it, and asks for 65535.  `l4_ipv6_icmpv6` clears the field, computes the checksum again
and compares.  The two differ in one message for each content that sums up to 65535 without its
checksum: its field may be 0 or 65535, and `ipv6_checksum` never gives 0.  On a big-endian machine
`inchksum` also puts the last byte of an odd length into the wrong half of its word.
-/
import Ecmh.Checksum
import Ecmh.Daemon

namespace Ecmh

open ByteMem
open OnesComplement

/-! ## 1. The sum of the standard -/

/-- The pseudo-header: the two addresses, the length in 32 bits, and the next header in 32 bits. -/
def pseudoHeader (src dst : In6Addr) (length : Nat) (next : UInt8) : List UInt8 :=
  src.s6Addr ++ dst.s6Addr ++ (be16 (length / 65536) ++ be16 length ++ [0, 0, 0, next])

/-- The bytes that the checksum of an ICMPv6 message is about. -/
def checkedBytes (iph : Mem) (message : List UInt8) : List UInt8 :=
  pseudoHeader (readAddr iph ip6Src) (readAddr iph ip6Dst) message.length ipprotoIcmpv6 ++ message

/-- The message of `plen` bytes at offset `off` is right by the standard. -/
def Verified (iph : Mem) (off plen : Nat) : Prop := Verifies (checkedBytes iph (iph.read off plen))

instance (iph : Mem) (off plen : Nat) : Decidable (Verified iph off plen) :=
  inferInstanceAs (Decidable (Verifies _))

/-- The machine adds the last byte of an odd length as the low half of a word. -/
def LastByteLow (e : Endian) (plen : Nat) : Prop := e = .big ∧ plen % 2 = 1

instance (e : Endian) (plen : Nat) : Decidable (LastByteLow e plen) :=
  inferInstanceAs (Decidable (_ ∧ _))

/-- The message with its last byte in the low half of a word. -/
def lastByteLow (iph : Mem) (off plen : Nat) : List UInt8 :=
  iph.read off (plen - 1) ++ [0, iph (off + (plen - 1))]

/-! ## 2. The sum of the machine -/

/-- A word of the machine, as a multiple of the word in network order. -/
def wordFactor : Endian → Nat
  | .little => 256
  | .big => 1

theorem norm_wordFactor_eq_top_iff (e : Endian) {n : Nat} :
    norm (wordFactor e * n) = 65535 ↔ norm n = 65535 := by
  cases e with
  | little => exact norm_swapped_eq_top_iff
  | big => rw [wordFactor, Nat.one_mul]

theorem inchksumWords_little (m : Mem) : ∀ off length,
    inchksumWords .little m off length = (littleWords (m.read off length)).sum
  | _, 0 => rfl
  | off, 1 => by
    rw [inchksumWords, Mem.read_succ, Mem.read_zero, littleWords, List.sum_singleton]
  | off, length + 2 => by
    rw [inchksumWords, Mem.read_succ, Mem.read_succ, littleWords, List.sum_cons,
      inchksumWords_little m (off + 2) length, Endian.load16, ofBe16, Nat.mul_comm]

/-- A message may be summed up in the words of a little-endian machine. -/
theorem norm_wordSum_little (m : Mem) (off length : Nat) :
    norm (inchksumWords .little m off length) = norm (256 * wordSum (m.read off length)) := by
  rw [inchksumWords_little, norm_sum_littleWords]

/-- Whole words are what they are in network order. -/
theorem inchksumWords_big (m : Mem) : ∀ off n,
    inchksumWords .big m off (2 * n) = wordSum (m.read off (2 * n))
  | _, 0 => rfl
  | off, n + 1 => by
    rw [Nat.mul_succ, inchksumWords, Mem.read_succ, Mem.read_succ, wordSum,
      inchksumWords_big m (off + 2) n, Endian.load16, ofBe16, Nat.mul_comm (m off).toNat]

theorem inchksumWords_big_odd (m : Mem) : ∀ off n,
    inchksumWords .big m off (2 * n + 1) = wordSum (m.read off (2 * n) ++ [0, m (off + 2 * n)])
  | off, 0 => by simp [inchksumWords, wordSum]
  | off, n + 1 => by
    have hoff : off + 2 * (n + 1) = off + 2 + 2 * n := by omega
    rw [hoff, Nat.mul_succ, Nat.add_right_comm, inchksumWords, Mem.read_succ, Mem.read_succ,
      List.cons_append, List.cons_append, wordSum, inchksumWords_big_odd m (off + 2) n,
      Endian.load16, ofBe16, Nat.mul_comm (m off).toNat]

/-- What the machine sums up of a message. -/
def summedMessage (e : Endian) (iph : Mem) (off plen : Nat) : List UInt8 :=
  if LastByteLow e plen then lastByteLow iph off plen else iph.read off plen

theorem norm_inchksumWords_eq (e : Endian) (m : Mem) (off plen : Nat) :
    norm (inchksumWords e m off plen)
      = norm (wordFactor e * wordSum (summedMessage e m off plen)) := by
  unfold summedMessage
  cases e with
  | little =>
    rw [if_neg (fun h => nomatch h.1)]
    exact norm_wordSum_little m off plen
  | big =>
    rw [wordFactor, Nat.one_mul]
    rcases Nat.mod_two_eq_zero_or_one plen with heven | hodd
    · obtain ⟨n, rfl⟩ : ∃ n, plen = 2 * n := ⟨plen / 2, by omega⟩
      rw [if_neg (fun h => by have := h.2; omega), inchksumWords_big]
    · obtain ⟨n, rfl⟩ : ∃ n, plen = 2 * n + 1 := ⟨plen / 2, by omega⟩
      rw [if_pos ⟨rfl, hodd⟩, inchksumWords_big_odd]
      rfl

theorem summedMessage_shift (e : Endian) (iph : Mem) (off plen : Nat) :
    summedMessage e (iph.shift off) 0 plen = summedMessage e iph off plen := by
  simp only [summedMessage, lastByteLow, Mem.read_shift, Nat.add_zero, Nat.zero_add, Mem.shift]

/-- The sum of the standard, in the parts that the daemon takes it in: the high half of the length
is zero, and so are the words around it. -/
theorem wordSum_pseudoHeader (src dst : In6Addr) (next : UInt8) (message : List UInt8) {plen : Nat}
    (hlt : plen < 65536) : wordSum (pseudoHeader src dst plen next ++ message)
      = wordSum (src.s6Addr ++ dst.s6Addr) + wordSum (be16 plen ++ [0, 0, 0, next]) +
        wordSum message := by
  have hhigh : wordSum (be16 (plen / 65536) ++ be16 plen ++ [0, 0, 0, next])
      = wordSum (be16 plen ++ [0, 0, 0, next]) := by
    rw [Nat.div_eq_of_lt hlt, List.append_assoc]
    exact Nat.zero_add _
  rw [pseudoHeader, wordSum_append _ (by simp [src.size, dst.size]),
    wordSum_append _ (by simp [src.size, dst.size]), hhigh]

/-- The sum that the checksum is the complement of, in the bytes that it is taken of. -/
theorem norm_checksumSum (e : Endian) (iph : Mem) (next : UInt8) (off : Nat) {plen : Nat}
    (hlt : plen < 65536) : norm (checksumSum e iph next (iph.shift off) plen)
      = norm (wordFactor e * wordSum (pseudoHeader (readAddr iph ip6Src) (readAddr iph ip6Dst) plen
          next ++ summedMessage e iph off plen)) := by
  have haddrs : summedMessage e (iph.shift ip6Src) 0 32
      = (readAddr iph ip6Src).s6Addr ++ (readAddr iph ip6Dst).s6Addr := by
    rw [summedMessage_shift, summedMessage, if_neg (fun h => by have := h.2; omega)]
    exact Mem.read_add iph ip6Src 16 16
  have hrest : summedMessage e (Mem.ofList (be16 plen ++ [0, 0, 0, next])) 0 6
      = be16 plen ++ [0, 0, 0, next] := by
    rw [summedMessage, if_neg (fun h => by have := h.2; omega)]
    rfl
  have h1 := norm_inchksumWords_eq e (iph.shift ip6Src) 0 32
  have h2 := norm_inchksumWords_eq e (Mem.ofList (be16 plen ++ [0, 0, 0, next])) 0 6
  have h3 := norm_inchksumWords_eq e (iph.shift off) 0 plen
  rw [haddrs] at h1
  rw [hrest] at h2
  rw [summedMessage_shift] at h3
  rw [wordSum_pseudoHeader _ _ _ _ hlt, Nat.mul_add, Nat.mul_add, checksumSum]
  exact norm_add_congr (norm_add_congr h1 h2) h3

/-! ## 3. The comparison -/

theorem load16_shift (e : Endian) (m : Mem) (a off : Nat) :
    e.load16 (m.shift a) off = e.load16 m (a + off) := by
  cases e <;> rfl

/-- The packet with the checksum field of the message at `off` cleared. -/
def clearedChecksum (e : Endian) (iph : Mem) (off : Nat) : Mem := e.store16 iph (off + 2) 0

/-- The field is a word of the sum. -/
theorem checksumSum_cleared (e : Endian) (iph : Mem) (next : UInt8) {off plen : Nat}
    (hoff : 40 ≤ off) (h4 : 4 ≤ plen) : checksumSum e iph next (iph.shift off) plen
      = checksumSum e (clearedChecksum e iph off) next ((clearedChecksum e iph off).shift off) plen
        + e.load16 iph (off + 2) := by
  have hother : ∀ k, k < off + 2 ∨ off + 2 + 2 ≤ k → clearedChecksum e iph off k = iph k :=
    fun k hk => Endian.store16_apply_ne e iph 0 hk
  have haddrs : inchksumWords e ((clearedChecksum e iph off).shift ip6Src) 0 32
      = inchksumWords e (iph.shift ip6Src) 0 32 := by
    refine inchksumWords_congr fun k _ hk => hother (ip6Src + k) (Or.inl ?_)
    simp only [ip6Src]
    omega
  obtain ⟨n, rfl⟩ := Nat.exists_eq_add_of_le' h4
  -- the first four bytes of the message are two words, and the second is the field
  have hwords : ∀ m : Mem, inchksumWords e (m.shift off) 0 (n + 4)
      = e.load16 m off + (e.load16 m (off + 2) + inchksumWords e (m.shift off) 4 n) := by
    intro m
    rw [inchksumWords, inchksumWords, load16_shift, load16_shift]
    rfl
  have hfirst : e.load16 (clearedChecksum e iph off) off = e.load16 iph off :=
    Endian.load16_eq_of_read (Mem.read_congr fun k _ hk => hother k (Or.inl (by omega)))
  have hfield : e.load16 (clearedChecksum e iph off) (off + 2) = 0 :=
    Endian.load16_store16 e iph (off + 2) 0
  have hlast : inchksumWords e ((clearedChecksum e iph off).shift off) 4 n
      = inchksumWords e (iph.shift off) 4 n :=
    inchksumWords_congr fun k hk _ => hother (off + k) (Or.inr (by omega))
  rw [checksumSum, checksumSum, haddrs, hwords, hwords, hfirst, hfield, hlast]
  omega

/-- The next header is not zero, so the sum is not. -/
theorem checksumSum_pos (e : Endian) (iph data : Mem) (length : Nat) :
    0 < checksumSum e iph ipprotoIcmpv6 data length := by
  have hnext : 0 < inchksumWords e (Mem.ofList (be16 length ++ [0, 0, 0, ipprotoIcmpv6])) 0 6 := by
    have hword : 0 < e.load16 (Mem.ofList (be16 length ++ [0, 0, 0, ipprotoIcmpv6]))
        (0 + 2 + 2) := by
      cases e with
      | little => exact (by decide : 0 < ofBe16 58 0)
      | big => exact (by decide : 0 < ofBe16 0 58)
    simp only [inchksumWords]
    omega
  unfold checksumSum
  omega

/-- **What the comparison accepts**: a message that sums up to 65535, as the machine adds its bytes,
and has something in its checksum field. -/
theorem checksumOk_iff {e : Endian} {iph : Mem} {off plen : Nat} (hoff : 40 ≤ off) (h4 : 4 ≤ plen)
    (hlt : plen < 65536) : checksumOk e iph off plen = true ↔
      Verifies (pseudoHeader (readAddr iph ip6Src) (readAddr iph ip6Dst) plen ipprotoIcmpv6 ++
        summedMessage e iph off plen) ∧ e.load16 iph (off + 2) ≠ 0 := by
  have hpos := checksumSum_pos e (clearedChecksum e iph off)
    ((clearedChecksum e iph off).shift off) plen
  have hfield := e.load16_lt iph (off + 2)
  rw [Verifies, ← norm_wordFactor_eq_top_iff e, ← norm_checksumSum e iph _ off hlt,
    checksumSum_cleared e iph _ hoff h4, norm_add_eq_top_iff hpos hfield]
  change decide (e.load16 iph (off + 2) = ipv6Checksum e (clearedChecksum e iph off) ipprotoIcmpv6
    ((clearedChecksum e iph off).shift off) plen) = true ↔ _
  rw [decide_eq_true_eq, ipv6Checksum_eq _ _ _ _ hlt]
  have htop := norm_lt (checksumSum e (clearedChecksum e iph off) ipprotoIcmpv6
    ((clearedChecksum e iph off).shift off) plen)
  unfold complement
  split <;> omega

/-! ## 4. The verdict of the standard -/

/-- The message ends in a byte that the machine adds in the wrong half of a word. -/
def Misplaced (e : Endian) (iph : Mem) (off plen : Nat) : Prop :=
  LastByteLow e plen ∧ iph (off + (plen - 1)) ≠ 0

instance (e : Endian) (iph : Mem) (off plen : Nat) : Decidable (Misplaced e iph off plen) :=
  inferInstanceAs (Decidable (_ ∧ _))

/-- The sums of a message of odd length, with its last byte at either place. -/
theorem wordSum_odd (iph : Mem) (off : Nat) {plen : Nat} (hodd : plen % 2 = 1)
    (front : List UInt8) (hfront : front.length % 2 = 0) : ∃ rest,
      wordSum (front ++ iph.read off plen) = rest + 256 * (iph (off + (plen - 1))).toNat ∧
      wordSum (front ++ lastByteLow iph off plen) = rest + (iph (off + (plen - 1))).toNat := by
  obtain ⟨n, rfl⟩ : ∃ n, plen = n + 1 := ⟨plen - 1, by omega⟩
  have hwhole : (front ++ iph.read off n).length % 2 = 0 := by
    rw [List.length_append, Mem.length_read]
    omega
  refine ⟨wordSum (front ++ iph.read off n), ?_, ?_⟩
  · rw [Mem.read_add, ← List.append_assoc, wordSum_append _ hwhole]
    rfl
  · rw [lastByteLow, ← List.append_assoc, Nat.add_sub_cancel, wordSum_append _ hwhole]
    simp [wordSum]

theorem length_pseudoHeader (src dst : In6Addr) (length : Nat) (next : UInt8) :
    (pseudoHeader src dst length next).length = 40 := by
  simp [pseudoHeader, In6Addr.size]

theorem verified_eq (iph : Mem) (off plen : Nat) : Verified iph off plen
    = Verifies (pseudoHeader (readAddr iph ip6Src) (readAddr iph ip6Dst) plen ipprotoIcmpv6 ++
        iph.read off plen) := by
  rw [Verified, checkedBytes, Mem.length_read]

section Verdict

variable {e : Endian} {iph : Mem} {off plen : Nat}

/-- A message that is added as it should be. -/
theorem verifies_summed_iff (hplaced : ¬ Misplaced e iph off plen) :
    Verifies (pseudoHeader (readAddr iph ip6Src) (readAddr iph ip6Dst) plen ipprotoIcmpv6 ++
      summedMessage e iph off plen) ↔ Verified iph off plen := by
  rw [verified_eq, summedMessage]
  split
  · rename_i hlow
    have hzero : iph (off + (plen - 1)) = 0 := by
      by_contra hne
      exact hplaced ⟨hlow, hne⟩
    obtain ⟨rest, h1, h2⟩ := wordSum_odd iph off hlow.2
      (pseudoHeader (readAddr iph ip6Src) (readAddr iph ip6Dst) plen ipprotoIcmpv6)
      (by rw [length_pseudoHeader])
    rw [Verifies, Verifies, h1, h2, hzero]
    rfl
  · exact Iff.rfl

/-- The two places of the last byte do not come to the same. -/
theorem not_verifies_low (hmis : Misplaced e iph off plen) (hv : Verified iph off plen) :
    ¬ Verifies (pseudoHeader (readAddr iph ip6Src) (readAddr iph ip6Dst) plen ipprotoIcmpv6 ++
      lastByteLow iph off plen) := by
  obtain ⟨rest, h1, h2⟩ := wordSum_odd iph off hmis.1.2
    (pseudoHeader (readAddr iph ip6Src) (readAddr iph ip6Dst) plen ipprotoIcmpv6)
    (by rw [length_pseudoHeader])
  have hlt := (iph (off + (plen - 1))).toNat_lt
  have hne : (iph (off + (plen - 1))).toNat ≠ 0 := fun hz =>
    hmis.2 (UInt8.toNat_inj.mp (hz.trans UInt8.toNat_zero.symm))
  rw [verified_eq, Verifies, h1, norm_eq_top_iff] at hv
  rw [Verifies, h2, norm_eq_top_iff]
  omega

/-- What a message has to be like for the two verdicts to be the same. -/
structure SameVerdict (e : Endian) (iph : Mem) (off plen : Nat) : Prop where
  /-- a right message does not have 0 in its checksum field -/
  placed : ¬ Misplaced e iph off plen → Verified iph off plen → e.load16 iph (off + 2) ≠ 0
  /-- a message whose last byte is misplaced is wrong with this byte in either place -/
  misplaced : Misplaced e iph off plen → ¬ Verified iph off plen ∧
    (Verifies (pseudoHeader (readAddr iph ip6Src) (readAddr iph ip6Dst) plen ipprotoIcmpv6 ++
      lastByteLow iph off plen) → e.load16 iph (off + 2) = 0)

/-- **When the comparison of `l4_ipv6_icmpv6` is the check of the standard.** -/
theorem checksumOk_verified_iff (e : Endian) (iph : Mem) {off plen : Nat} (hoff : 40 ≤ off)
    (h4 : 4 ≤ plen) (hlt : plen < 65536) :
    (checksumOk e iph off plen = true ↔ Verified iph off plen) ↔ SameVerdict e iph off plen := by
  rw [checksumOk_iff hoff h4 hlt]
  by_cases hmis : Misplaced e iph off plen
  · have hnot := not_verifies_low hmis
    rw [summedMessage, if_pos hmis.1]
    constructor
    · intro hiff
      refine ⟨fun hplaced => absurd hmis hplaced, fun _ => ⟨fun hv => ?_, fun hlow => ?_⟩⟩
      · exact hnot hv (hiff.mpr hv).1
      · by_contra hne
        exact hnot (hiff.mp ⟨hlow, hne⟩) hlow
    · intro h
      obtain ⟨hwrong, hlow⟩ := h.misplaced hmis
      exact iff_of_false (fun hc => hc.2 (hlow hc.1)) hwrong
  · rw [verifies_summed_iff hmis]
    constructor
    · exact fun hiff => ⟨fun _ hv => (hiff.mpr hv).2, fun h => absurd h hmis⟩
    · exact fun h => ⟨And.left, fun hv => ⟨hv, h.placed hmis hv⟩⟩

end Verdict

/-- A packet with the MLDv1 report for `ff05::w`, and these bytes in the checksum field. -/
def reportPacket (field w : List UInt8) : Mem :=
  Mem.ofList (ipv6Packet ipprotoIcmpv6 1 linkLocalHost (linkScope 0x16)
    ([131, 0] ++ field ++ [0, 0, 0, 0, 0xff, 0x05] ++ List.replicate 12 0 ++ w))

/-- A report as it usually is. -/
theorem common_report_same : checksumOk .little (reportPacket [0x80, 0x0b] [0, 1]) 40 24 = true ↔
    Verified (reportPacket [0x80, 0x0b] [0, 1]) 40 24 := by
  refine (checksumOk_verified_iff .little _ (by decide) (by decide) (by decide)).mpr
    ⟨fun _ _ => by decide +kernel, fun h => absurd h (by decide)⟩

/-- The report for `ff05::800c` sums up to 65535 without a checksum: a sender that follows the
standard stores 0, and the comparison is with 65535. -/
theorem zero_checksum_rejected :
    ¬ (checksumOk .little (reportPacket [0, 0] [0x80, 0x0c]) 40 24 = true ↔
      Verified (reportPacket [0, 0] [0x80, 0x0c]) 40 24) := by
  decide +kernel

end Ecmh
