/-
# The checksum

`inchksum` is a sum in ones' complement arithmetic, and `ipv6_checksum` the complement of the sum of
three of them.  The words are added as the machine loads them; over an even number of bytes a
machine of the other byte order gets the same checksum with its bytes swapped, which are the same
bytes in memory (`bytes16_ipv6Checksum`).  So a receiver finds the checksum that the sender stored,
whatever the byte orders of the two are.
-/
import Ecmh.Recv
import Ecmh.Lib.OnesComplement

namespace Ecmh

open ByteMem
open OnesComplement

/-! ## 1. The sum -/

theorem inchksumWords_le (e : Endian) (data : Mem) : ∀ (off length : Nat),
    inchksumWords e data off length ≤ 65535 * length
  | _, 0 => Nat.le_refl 0
  | off, 1 => by
    have := (data off).toNat_lt
    simp only [inchksumWords]
    omega
  | off, length + 2 => by
    have hword := e.load16_lt data off
    have ih := inchksumWords_le e data (off + 2) length
    simp only [inchksumWords]
    omega

/-- A round of the loop does not change the value of the sum. -/
theorem norm_foldCarries : ∀ fuel sum, norm (foldCarries fuel sum) = norm sum := by
  intro fuel
  induction fuel with
  | zero => exact fun _ => rfl
  | succ fuel ih =>
    intro sum
    rw [foldCarries]
    split
    · rfl
    · rw [ih, norm_carry]

/-- Four rounds are enough. -/
theorem foldCarries_lt {sum : Nat} (h : sum < 2 ^ 48) : foldCarries 4 sum < 65536 := by
  simp only [foldCarries]
  split
  · omega
  · split
    · omega
    · split
      · omega
      · split <;> omega

theorem inchksum_lt (e : Endian) (data : Mem) (length : Nat) : inchksum e data length < 65536 :=
  Nat.mod_lt _ (by decide)

theorem inchksum_eq (e : Endian) (data : Mem) {length : Nat} (h : length < 2 ^ 32) :
    inchksum e data length = norm (inchksumWords e data 0 length) := by
  have hle := inchksumWords_le e data 0 length
  have hlt : foldCarries 4 (inchksumWords e data 0 length) < 65536 := foldCarries_lt (by omega)
  rw [inchksum, Nat.mod_eq_of_lt hlt, ← norm_foldCarries 4, norm_of_lt hlt]

/-- The sum that the checksum is the complement of. -/
def checksumSum (e : Endian) (ip6 : Mem) (protocol : UInt8) (data : Mem) (length : Nat) : Nat :=
  inchksumWords e (ip6.shift ip6Src) 0 32 +
    inchksumWords e (Mem.ofList (be16 length ++ [0, 0, 0, protocol])) 0 6 +
    inchksumWords e data 0 length

/-- The complement, where 0 is written as 65535. -/
def complement (r : Nat) : Nat := if 65535 - r = 0 then 65535 else 65535 - r

/-- A sum and its complement. -/
theorem norm_add_complement (n : Nat) : norm (n + complement (norm n)) = 65535 := by
  rw [norm_eq_top_iff]
  unfold complement OnesComplement.norm
  split <;> split <;> omega

theorem ipv6Checksum_eq (e : Endian) (ip6 : Mem) (protocol : UInt8) (data : Mem) {length : Nat}
    (h : length < 65536) : ipv6Checksum e ip6 protocol data length
      = complement (norm (checksumSum e ip6 protocol data length)) := by
  have hfold : ∀ n, n < 3 * 65536 →
      (n / 65536 + n % 65536 + (n / 65536 + n % 65536) / 65536) % 65536 = norm n := by
    intro n hn
    have hlt : n / 65536 + n % 65536 < 2 * 65536 - 1 := by omega
    rw [← norm_carry n, Nat.add_comm (n % 65536)]
    generalize n / 65536 + n % 65536 = a at hlt
    rw [← norm_carry a, norm_of_lt (by omega)]
    omega
  unfold ipv6Checksum
  dsimp only
  rw [Nat.mod_eq_of_lt h, Endian.bytes16_htons, inchksum_eq e _ (by decide),
    inchksum_eq e _ (by decide), inchksum_eq e _ (by omega), hfold]
  · rw [checksumSum, complement]
    have hsum := norm_add_congr (norm_add_congr
      (norm_norm (inchksumWords e (ip6.shift ip6Src) 0 32))
      (norm_norm (inchksumWords e (Mem.ofList (be16 length ++ [0, 0, 0, protocol])) 0 6)))
      (norm_norm (inchksumWords e data 0 length))
    rw [hsum]
  · have h1 := norm_lt (inchksumWords e (ip6.shift ip6Src) 0 32)
    have h2 := norm_lt (inchksumWords e (Mem.ofList (be16 length ++ [0, 0, 0, protocol])) 0 6)
    have h3 := norm_lt (inchksumWords e data 0 length)
    omega

/-! ## 2. The other byte order -/

theorem norm_load16 (m : Mem) (off : Nat) :
    norm (Endian.little.load16 m off) = norm (256 * Endian.big.load16 m off) := by
  have hswap : swap (Endian.big.load16 m off) = Endian.little.load16 m off := by
    have h1 := (m off).toNat_lt
    have h2 := (m (off + 1)).toNat_lt
    simp only [swap, Endian.load16, ofBe16]
    omega
  rw [norm_swap (Endian.big.load16_lt m off), hswap,
    norm_of_lt (Endian.little.load16_lt m off)]

/-- The sum over an even number of bytes. -/
theorem norm_inchksumWords (data : Mem) : ∀ (off n : Nat),
    norm (inchksumWords .little data off (2 * n))
      = norm (256 * inchksumWords .big data off (2 * n)) := by
  intro off n
  induction n generalizing off with
  | zero => rfl
  | succ n ih =>
    rw [Nat.mul_succ, inchksumWords, inchksumWords, Nat.mul_add]
    exact norm_add_congr (norm_load16 data off) (ih (off + 2))

theorem ipv6Checksum_swap (ip6 : Mem) (protocol : UInt8) (data : Mem) {length : Nat}
    (heven : length % 2 = 0) (h : length < 65536) : ipv6Checksum .little ip6 protocol data length
      = swap (ipv6Checksum .big ip6 protocol data length) := by
  obtain ⟨n, rfl⟩ : ∃ n, length = 2 * n := ⟨length / 2, by omega⟩
  have hsum : norm (checksumSum .little ip6 protocol data (2 * n))
      = swap (norm (checksumSum .big ip6 protocol data (2 * n))) := by
    rw [← norm_swap (norm_lt _), norm_mul_congr (norm_norm _) 256, checksumSum, checksumSum,
      Nat.mul_add, Nat.mul_add]
    exact norm_add_congr (norm_add_congr (norm_inchksumWords _ 0 16) (norm_inchksumWords _ 0 3))
      (norm_inchksumWords data 0 n)
  rw [ipv6Checksum_eq _ _ _ _ h, ipv6Checksum_eq _ _ _ _ h, hsum]
  have hlt := norm_lt (checksumSum .big ip6 protocol data (2 * n))
  generalize norm (checksumSum .big ip6 protocol data (2 * n)) = r at hlt
  have hcompl := swap_complement hlt
  have hzero : swap (65535 - r) = 0 ↔ 65535 - r = 0 := by
    unfold swap
    omega
  unfold complement
  by_cases hr : 65535 - r = 0
  · rw [if_pos (by rw [← hcompl]; exact hzero.mpr hr), if_pos hr]
    rfl
  · rw [if_neg (by rw [← hcompl]; exact fun hc => hr (hzero.mp hc)), if_neg hr, hcompl]

/-- **The bytes of the checksum are the same on every machine**, where the number of bytes that it
covers is even. -/
theorem bytes16_ipv6Checksum (e e' : Endian) (ip6 : Mem) (protocol : UInt8) (data : Mem)
    {length : Nat} (heven : length % 2 = 0) (h : length < 65536) :
    e.bytes16 (ipv6Checksum e ip6 protocol data length)
      = e'.bytes16 (ipv6Checksum e' ip6 protocol data length) := by
  have hlittle : Endian.little.bytes16 (ipv6Checksum .little ip6 protocol data length)
      = Endian.big.bytes16 (ipv6Checksum .big ip6 protocol data length) := by
    rw [ipv6Checksum_swap ip6 protocol data heven h]
    exact Endian.bytes16_htons .little _
  cases e <;> cases e'
  · rfl
  · exact hlittle
  · exact hlittle.symm
  · rfl

/-! ## 3. What the checksum depends on -/

theorem inchksumWords_congr {e : Endian} {m m' : Mem} : ∀ {off length : Nat},
    (∀ k, off ≤ k → k < off + length → m k = m' k) →
    inchksumWords e m off length = inchksumWords e m' off length
  | _, 0, _ => rfl
  | off, 1, h => by
    simp only [inchksumWords]
    rw [h off (Nat.le_refl off) (by omega)]
  | off, length + 2, h => by
    have hword : e.load16 m off = e.load16 m' off := by
      refine Endian.load16_eq_of_read (Mem.read_congr ?_)
      intro k h1 h2
      exact h k h1 (by omega)
    have hrest : inchksumWords e m (off + 2) length = inchksumWords e m' (off + 2) length := by
      refine inchksumWords_congr ?_
      intro k h1 h2
      exact h k (by omega) (by omega)
    simp only [inchksumWords]
    rw [hword, hrest]

/-- The two addresses, and the bytes that it covers. -/
theorem ipv6Checksum_congr {e : Endian} {ip6 ip6' data data' : Mem} (protocol : UInt8)
    {length : Nat} (hip6 : ∀ k, ip6Src ≤ k → k < 40 → ip6 k = ip6' k)
    (hdata : ∀ k, k < length → data k = data' k) :
    ipv6Checksum e ip6 protocol data length = ipv6Checksum e ip6' protocol data' length := by
  have haddrs : inchksumWords e (ip6.shift ip6Src) 0 32
      = inchksumWords e (ip6'.shift ip6Src) 0 32 := by
    refine inchksumWords_congr ?_
    intro k _ hk
    exact hip6 (ip6Src + k) (by omega) (by simp only [ip6Src]; omega)
  have hbytes : inchksumWords e data 0 (length % 65536)
      = inchksumWords e data' 0 (length % 65536) := by
    refine inchksumWords_congr ?_
    intro k _ hk
    exact hdata k (by omega)
  unfold ipv6Checksum inchksum
  dsimp only
  rw [haddrs, hbytes]

/-! ## 4. The check of the receiver -/

/-- The checksum of the ICMPv6 message of `plen` bytes at offset `off` is the one that is computed
with the field cleared. -/
def checksumOk (e : Endian) (iph : Mem) (off plen : Nat) : Bool :=
  e.load16 iph (off + 2) = ipv6Checksum e (e.store16 iph (off + 2) 0) ipprotoIcmpv6
    ((e.store16 iph (off + 2) 0).shift off) plen

theorem Endian_bytes16_load16 (e : Endian) (m : Mem) (off : Nat) :
    e.bytes16 (e.load16 m off) = m.read off 2 := by
  cases e with
  | big => exact be16_ofBe16 _ _
  | little =>
    have hbe := be16_ofBe16 (m (off + 1)) (m off)
    simp only [be16, List.cons.injEq, and_true] at hbe
    simp only [Endian.bytes16, Endian.load16, Mem.read_succ, Mem.read_zero, hbe.1, hbe.2]

/-- What is stored over its own bytes changes nothing. -/
theorem store16_same {e : Endian} {m m' : Mem} {off v : Nat} (hv : e.bytes16 v = m.read off 2)
    (hm : ∀ k, k < off ∨ off + 2 ≤ k → m' k = m k) : e.store16 m' off v = m := by
  funext k
  rcases Nat.lt_or_ge k off with hk | hk
  · rw [Endian.store16_apply_ne e m' v (Or.inl hk), hm k (Or.inl hk)]
  · rcases Nat.lt_or_ge k (off + 2) with hk2 | hk2
    · obtain ⟨j, rfl⟩ := Nat.exists_eq_add_of_le hk
      have hj : j < 2 := by omega
      rw [Endian.store16, Mem.write_apply_at m' off _ (by simpa using hj), hv, Mem.getD_read m hj]
    · rw [Endian.store16_apply_ne e m' v (Or.inr hk2), hm k (Or.inr hk2)]

/-- A packet with the right checksum is left as it is. -/
theorem icmpv6Rechecksum_of_ok {e : Endian} {iph : Mem} {off plen : Nat}
    (h : checksumOk e iph off plen = true) : icmpv6Rechecksum e iph off plen = iph := by
  rw [checksumOk, decide_eq_true_eq] at h
  unfold icmpv6Rechecksum
  dsimp only
  rw [← h]
  exact store16_same (Endian_bytes16_load16 e iph (off + 2))
    fun k hk => Endian.store16_apply_ne e iph 0 hk

theorem ipv6Checksum_lt (e : Endian) (ip6 : Mem) (protocol : UInt8) (data : Mem) (length : Nat) :
    ipv6Checksum e ip6 protocol data length < 65536 := by
  unfold ipv6Checksum
  dsimp only
  split <;> omega

/-- **The receiver finds the checksum right**: where `p` is the packet without its checksum, and the
receiver has the bytes of the packet with it. -/
theorem checksumOk_of_sent {e e' : Endian} {p m : Mem} {off plen : Nat} (hoff : 40 ≤ off)
    (hplen : 4 ≤ plen) (heven : plen % 2 = 0) (hlt : plen < 65536)
    (hzero : p.read (off + 2) 2 = [0, 0])
    (hm : ∀ k, k < off + plen → m k = e.store16 p (off + 2)
      (ipv6Checksum e p ipprotoIcmpv6 (p.shift off) plen) k) :
    checksumOk e' m off plen = true := by
  -- with the field cleared the receiver has the packet that the sender took the checksum of
  have hcleared : ∀ k, k < off + plen → e'.store16 m (off + 2) 0 k = p k := by
    intro k hk
    by_cases hfield : k < off + 2 ∨ off + 2 + 2 ≤ k
    · rw [Endian.store16_apply_ne e' m 0 hfield, hm k hk, Endian.store16_apply_ne e p _ hfield]
    · obtain ⟨j, rfl⟩ : ∃ j, k = off + 2 + j := ⟨k - (off + 2), by omega⟩
      have hj : j < 2 := by omega
      have hp : p (off + 2 + j) = [0, 0].getD j 0 := Mem.apply_of_read hzero hj
      have hz : e'.bytes16 0 = [0, 0] := by cases e' <;> rfl
      rw [Endian.store16, Mem.write_apply_at m (off + 2) _ (by simpa using hj), hp, hz]
  have hsame : ipv6Checksum e' (e'.store16 m (off + 2) 0) ipprotoIcmpv6
      ((e'.store16 m (off + 2) 0).shift off) plen
      = ipv6Checksum e' p ipprotoIcmpv6 (p.shift off) plen := by
    refine ipv6Checksum_congr ipprotoIcmpv6 ?_ ?_
    · intro k _ hk
      exact hcleared k (by omega)
    · intro k hk
      exact hcleared (off + k) (by omega)
  have hfield : m.read (off + 2) 2
      = e'.bytes16 (ipv6Checksum e' p ipprotoIcmpv6 (p.shift off) plen) := by
    rw [bytes16_ipv6Checksum e' e p ipprotoIcmpv6 (p.shift off) heven hlt,
      ← Endian.read_store16_same e p (off + 2)]
    refine Mem.read_congr ?_
    intro k _ hk
    exact hm k (by omega)
  have hload := Endian.load16_eq_of_read (e := e')
    (hfield.trans (Endian.read_store16_same e' m (off + 2) _).symm)
  rw [checksumOk, decide_eq_true_eq, hsame, hload, Endian.load16_store16,
    Nat.mod_eq_of_lt (ipv6Checksum_lt _ _ _ _ _)]

end Ecmh
