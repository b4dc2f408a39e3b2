/-
# The checksum, one addition after the other

`inchksum` adds up words until none is left, and then adds carries back until there is none.  Here
it runs step by step (`InchksumStep`): it always returns, and what it returns is the plain sum of
the words, reduced (`SummedUp`).  `chksumSteps` are the assignments of `ipv6_checksum`, which sums
up the addresses, the pseudo-header and the data apart.

`checksum_plainSum` says that nothing is lost by that: with its result in the checksum field, the
plain sum of all the words comes to `0xffff`, and no value on the way needs more than 32 bits.
-/
import Ecmh.Accepts
import Mathlib.Logic.Relation

namespace Ecmh

open ByteMem
open OnesComplement

/-! ## 1. The steps of `inchksum` -/

/-- Where a call is: at "`while (slen >= 2)`", at "`if (slen > 0)`", at "`while (sum >> 16)`", or
back with a value.  `wrd` is an offset. -/
inductive InchksumAt
  | words (sum wrd slen : Nat)
  | last (sum wrd slen : Nat)
  | carries (sum : Nat)
  | returned (value : Nat)

/-- The values of its variables that are numbers. -/
def InchksumAt.values : InchksumAt → List Nat
  | .words sum _ slen => [sum, slen]
  | .last sum _ slen => [sum, slen]
  | .carries sum => [sum]
  | .returned value => [value]

/-- What it does next, with no bound on the values. -/
def inchksumNext (e : Endian) (data : Mem) : InchksumAt → Option InchksumAt
  | .words sum wrd slen =>
    if slen ≥ 2 then some (.words (sum + e.load16 data wrd) (wrd + 2) (slen - 2))
    else some (.last sum wrd slen)
  | .last sum wrd slen =>
    if slen > 0 then some (.carries (sum + (data wrd).toNat)) else some (.carries sum)
  | .carries sum =>
    if sum / 65536 = 0 then some (.returned (sum % 65536))
    else some (.carries (sum % 65536 + sum / 65536))
  | .returned _ => none

/-- One step of a call. -/
def InchksumStep (e : Endian) (data : Mem) (s t : InchksumAt) : Prop :=
  inchksumNext e data s = some t

/-- Some steps of a call. -/
def InchksumSteps (e : Endian) (data : Mem) : InchksumAt → InchksumAt → Prop :=
  Relation.ReflTransGen (InchksumStep e data)

section

variable {e : Endian} {data : Mem}

theorem inchksumStep_rightUnique : Relator.RightUnique (InchksumStep e data) := by
  intro s t t' ht ht'
  exact Option.some.inj (ht.symm.trans ht')

/-- The carries are added back until there is none. -/
theorem carries_returned (sum : Nat) :
    InchksumSteps e data (.carries sum) (.returned (norm sum)) := by
  induction sum using Nat.strong_induction_on with
  | _ sum ih =>
    by_cases hcarry : sum / 65536 = 0
    · have hlt : sum < 65536 := by omega
      refine Relation.ReflTransGen.single ?_
      rw [InchksumStep, inchksumNext, if_pos hcarry, Nat.mod_eq_of_lt hlt, norm_of_lt hlt]
    · have hless : sum % 65536 + sum / 65536 < sum := by omega
      have hrest := ih _ hless
      rw [norm_carry] at hrest
      refine Relation.ReflTransGen.head ?_ hrest
      rw [InchksumStep, inchksumNext, if_neg hcarry]

/-- The words are added until none is left. -/
theorem words_returned : ∀ (slen sum wrd : Nat), InchksumSteps e data (.words sum wrd slen)
    (.returned (norm (sum + inchksumWords e data wrd slen)))
  | 0, sum, wrd => by
    have hwords : InchksumStep e data (.words sum wrd 0) (.last sum wrd 0) := rfl
    have hlast : InchksumStep e data (.last sum wrd 0) (.carries sum) := rfl
    exact .head hwords (.head hlast (carries_returned sum))
  | 1, sum, wrd => by
    have hwords : InchksumStep e data (.words sum wrd 1) (.last sum wrd 1) := rfl
    have hlast : InchksumStep e data (.last sum wrd 1) (.carries (sum + (data wrd).toNat)) := rfl
    exact .head hwords (.head hlast (carries_returned _))
  | slen + 2, sum, wrd => by
    have hrest := words_returned slen (sum + e.load16 data wrd) (wrd + 2)
    rw [Nat.add_assoc] at hrest
    refine Relation.ReflTransGen.head ?_ hrest
    rw [InchksumStep, inchksumNext, if_pos (by omega), Nat.add_sub_cancel]

/-- What has been added up is no more than what the bytes so far can be. -/
inductive InchksumAt.Bounded (length : Nat) : InchksumAt → Prop
  | words {sum wrd slen : Nat} (h : 2 * sum + 65535 * slen ≤ 65535 * length) :
    Bounded length (.words sum wrd slen)
  | last {sum wrd slen : Nat} (hslen : slen < 2) (h : 2 * sum + 65535 * slen ≤ 65535 * length) :
    Bounded length (.last sum wrd slen)
  | carries {sum : Nat} (h : 2 * sum ≤ 65535 * length) : Bounded length (.carries sum)
  | returned {value : Nat} (h : value < 65536) : Bounded length (.returned value)

theorem InchksumStep.bounded {length : Nat} {s t : InchksumAt} (h : InchksumStep e data s t)
    (hs : s.Bounded length) : t.Bounded length := by
  unfold InchksumStep at h
  cases hs with
  | @words sum wrd slen hsum =>
    rw [inchksumNext] at h
    split at h
    · obtain rfl := Option.some.inj h
      have hword := e.load16_lt data wrd
      exact .words (by omega)
    · obtain rfl := Option.some.inj h
      exact .last (by omega) hsum
  | @last sum wrd slen hslen hsum =>
    rw [inchksumNext] at h
    have hbyte := (data wrd).toNat_lt
    split at h
    · obtain rfl := Option.some.inj h
      exact .carries (by omega)
    · obtain rfl := Option.some.inj h
      exact .carries (by omega)
  | @carries sum hsum =>
    rw [inchksumNext] at h
    split at h
    · obtain rfl := Option.some.inj h
      exact .returned (Nat.mod_lt _ (by decide))
    · obtain rfl := Option.some.inj h
      exact .carries (by omega)
  | returned hvalue => exact nomatch h

theorem InchksumSteps.bounded {length : Nat} {s : InchksumAt}
    (h : InchksumSteps e data (.words 0 0 length) s) : s.Bounded length := by
  induction h with
  | refl => exact .words (by omega)
  | tail _ hstep ih => exact hstep.bounded ih

theorem InchksumAt.Bounded.values_lt {length : Nat} (hlt : length < 65536) {s : InchksumAt}
    (hs : s.Bounded length) : ∀ v ∈ s.values, v < 2 ^ 32 := by
  intro v hv
  cases hs with
  | words hsum =>
    rcases List.mem_pair.mp hv with rfl | rfl <;> omega
  | last hslen hsum =>
    rcases List.mem_pair.mp hv with rfl | rfl <;> omega
  | carries hsum =>
    obtain rfl := List.mem_singleton.mp hv
    omega
  | returned hvalue =>
    obtain rfl := List.mem_singleton.mp hv
    omega

end

/-! ## 2. What `inchksum` comes to -/

theorem inchksum_little (data : Mem) {length : Nat} (h : length < 2 ^ 32) :
    inchksum .little data length = norm (littleWords (data.read 0 length)).sum := by
  rw [inchksum_eq _ _ h, inchksumWords_little]

/-- A call of `inchksum` returns, with the plain sum of the words as a value of sixteen bits that is
zero for zeros only, and no value on the way needs more than 32 bits. -/
structure SummedUp (data : Mem) (length : Nat) : Prop where
  terminates : Acc (fun t s => InchksumStep .little data s t) (.words 0 0 length)
  returns : ∀ s, InchksumSteps .little data (.words 0 0 length) s →
    InchksumSteps .little data s (.returned (inchksum .little data length))
  lt : inchksum .little data length < 2 ^ 16
  modEq : inchksum .little data length ≡ (littleWords (data.read 0 length)).sum [MOD 65535]
  zero : inchksum .little data length = 0 → ∀ w ∈ littleWords (data.read 0 length), w = 0
  values_lt : ∀ s, InchksumSteps .little data (.words 0 0 length) s → ∀ v ∈ s.values, v < 2 ^ 32

theorem summedUp (data : Mem) {length : Nat} (hlt : length < 65536) : SummedUp data length := by
  have hsum := inchksum_little data (show length < 2 ^ 32 by omega)
  have hreturned : InchksumSteps .little data (.words 0 0 length)
      (.returned (inchksum .little data length)) := by
    rw [inchksum_eq _ _ (show length < 2 ^ 32 by omega),
      ← Nat.zero_add (inchksumWords .little data 0 length)]
    exact words_returned length 0 0
  have hlast : ∀ t, ¬ InchksumStep .little data (.returned (inchksum .little data length)) t :=
    fun _ ht => nomatch ht
  refine ⟨Runs.acc_of_reaches inchksumStep_rightUnique hreturned hlast,
    fun s hs => Runs.reaches_last inchksumStep_rightUnique hs hreturned hlast, ?_, ?_, ?_,
    fun s hs => hs.bounded.values_lt hlt⟩
  · rw [hsum]
    exact norm_lt _
  · rw [hsum]
    exact norm_modEq _
  · intro h0 w hw
    rw [hsum, norm_eq_zero_iff] at h0
    exact List.sum_eq_zero_iff_forall_eq_nat.mp h0 w hw

/-! ## 3. The assignments of `ipv6_checksum` -/

/-- The pseudo-header of `ipv6_checksum`. -/
def pseudoBytes (protocol : UInt8) (length : Nat) : List UInt8 :=
  be16 length ++ [0, 0, 0, protocol]

@[simp] theorem length_pseudoBytes (protocol : UInt8) (length : Nat) :
    (pseudoBytes protocol length).length = 6 := rfl

/-- What each assignment makes of `chksum`, with no bound on the values. -/
def chksumSteps (e : Endian) (ip6 : Mem) (protocol : UInt8) (data : Mem) (length : Nat) :
    List (Nat → Nat) :=
  let length := length % 65536
  let pseudo := Mem.ofList (e.bytes16 (e.htons length) ++ [0, 0, 0, protocol])
  [fun _ => inchksum e (ip6.shift ip6Src) 32,
    fun chksum => chksum + inchksum e pseudo 6,
    fun chksum => chksum + inchksum e data length,
    fun chksum => chksum / 65536 + chksum % 65536,
    fun chksum => chksum + chksum / 65536,
    -- `~chksum`, and then the cast
    fun chksum => 2 ^ 32 - 1 - chksum,
    fun chksum => chksum % 65536,
    fun chksum => if chksum = 0 then 65535 else chksum]

/-- The values that `chksum` has, one after the other. -/
def chksumValues (e : Endian) (ip6 : Mem) (protocol : UInt8) (data : Mem) (length : Nat) :
    List Nat :=
  (chksumSteps e ip6 protocol data length).scanl (fun chksum step => step chksum) 0

/-- The three sums are of sixteen bits, so `chksum` never wraps. -/
theorem chksumValues_lt (e : Endian) (ip6 : Mem) (protocol : UInt8) (data : Mem) (length : Nat) :
    ∀ v ∈ chksumValues e ip6 protocol data length, v < 2 ^ 32 := by
  have h1 := inchksum_lt e (ip6.shift ip6Src) 32
  have h2 := inchksum_lt e
    (Mem.ofList (e.bytes16 (e.htons (length % 65536)) ++ [0, 0, 0, protocol])) 6
  have h3 := inchksum_lt e data (length % 65536)
  unfold chksumValues chksumSteps
  simp only [List.scanl_cons, List.scanl_nil, List.forall_mem_cons]
  generalize inchksum e (ip6.shift ip6Src) 32 = a at h1
  generalize inchksum e _ 6 = b at h2
  generalize inchksum e data (length % 65536) = c at h3
  refine ⟨by decide, by omega, by omega, by omega, by omega, by omega, by omega, by omega, ?_,
    fun v hv => nomatch hv⟩
  split <;> omega

/-- And the last value is the result. -/
theorem chksumValues_last (e : Endian) (ip6 : Mem) (protocol : UInt8) (data : Mem) (length : Nat) :
    (chksumValues e ip6 protocol data length).getLast? =
      some (ipv6Checksum e ip6 protocol data length) := by
  have h1 := inchksum_lt e (ip6.shift ip6Src) 32
  have h2 := inchksum_lt e
    (Mem.ofList (e.bytes16 (e.htons (length % 65536)) ++ [0, 0, 0, protocol])) 6
  have h3 := inchksum_lt e data (length % 65536)
  unfold chksumValues chksumSteps ipv6Checksum
  simp only [List.scanl_cons, List.scanl_nil]
  generalize inchksum e (ip6.shift ip6Src) 32 = a at h1
  generalize inchksum e _ 6 = b at h2
  generalize inchksum e data (length % 65536) = c at h3
  have hcompl : ∀ n, n < 2 ^ 32 → (2 ^ 32 - 1 - n) % 65536 = 65535 - n % 65536 := by omega
  rw [hcompl _ (by omega)]
  rfl

/-! ## 4. The plain sum -/

/-- All that `ipv6_checksum` sums up, one after the other: the addresses, the pseudo-header and the
data. -/
def summedBytes (ip6 : Mem) (protocol : UInt8) (data : Mem) (length : Nat) : List UInt8 :=
  ip6.read ip6Src 32 ++ pseudoBytes protocol length ++ data.read 0 length

section

variable {ip6 : Mem} {protocol : UInt8} {data : Mem} {length : Nat}

theorem length_summedBytes : (summedBytes ip6 protocol data length).length = 38 + length := by
  rw [summedBytes, List.length_append, List.length_append, Mem.length_read, Mem.length_read,
    length_pseudoBytes]

theorem checksumSum_little : checksumSum .little ip6 protocol data length
    = (littleWords (summedBytes ip6 protocol data length)).sum := by
  have hpseudo : (Mem.ofList (be16 length ++ [0, 0, 0, protocol])).read 0 6
      = pseudoBytes protocol length := Mem.read_ofList _
  rw [checksumSum, inchksumWords_little, inchksumWords_little, inchksumWords_little, hpseudo,
    Mem.read_shift, Nat.add_zero, summedBytes, sum_littleWords_append _ (by simp),
    sum_littleWords_append _ (by simp)]

/-- A single call of `inchksum` for all of the bytes. -/
theorem inchksum_summedBytes (hlt : length < 65536) :
    inchksum .little (Mem.ofList (summedBytes ip6 protocol data length)) (38 + length)
      = norm (checksumSum .little ip6 protocol data length) := by
  have hread := Mem.read_ofList (summedBytes ip6 protocol data length)
  rw [length_summedBytes] at hread
  rw [inchksum_little _ (by omega), hread, checksumSum_little]

/-- What is stored in an empty field is added to the sum. -/
theorem checksumSum_store {field : Nat} (heven : field % 2 = 0) (hroom : field + 2 ≤ length)
    (hzero : data.read field 2 = [0, 0]) {v : Nat} (hv : v < 65536) :
    checksumSum .little ip6 protocol (Endian.little.store16 data field v) length
      = checksumSum .little ip6 protocol data length + v := by
  obtain ⟨rest, rfl⟩ := Nat.exists_eq_add_of_le hroom
  have hsplit : ∀ m : Mem, inchksumWords .little m 0 (field + 2 + rest)
      = (littleWords (m.read 0 field)).sum + (littleWords (m.read field 2)).sum +
        (littleWords (m.read (field + 2) rest)).sum := by
    intro m
    rw [inchksumWords_little, Mem.read_add, Mem.read_add, Nat.zero_add, Nat.zero_add,
      sum_littleWords_append _ (by simp; omega), sum_littleWords_append _ (by simpa using heven)]
  have hfield : (littleWords (Endian.little.bytes16 v)).sum = v := by
    simp only [Endian.bytes16, littleWords, List.sum_singleton, toNat_ofNat8]
    omega
  rw [checksumSum, checksumSum, hsplit, hsplit, Endian.read_store16_same, hfield, hzero,
    Endian.read_store16_disjoint _ _ _ (Or.inl (by omega)),
    Endian.read_store16_disjoint _ _ _ (Or.inr (Nat.le_refl _))]
  have hempty : (littleWords [0, 0]).sum = 0 := rfl
  omega

/-- The sum of the standard, with its pseudo-header, comes to 65535 when this one does. -/
theorem verifies_iff_checksumSum (hlt : length < 65536) :
    Verifies (pseudoHeader (readAddr ip6 ip6Src) (readAddr ip6 ip6Dst) length protocol ++
        data.read 0 length)
      ↔ norm (checksumSum .little ip6 protocol data length) = 65535 := by
  have haddrs : (readAddr ip6 ip6Src).s6Addr ++ (readAddr ip6 ip6Dst).s6Addr = ip6.read ip6Src 32 :=
    (Mem.read_add ip6 ip6Src 16 16).symm
  have hplain : wordSum (summedBytes ip6 protocol data length) = wordSum (ip6.read ip6Src 32) +
      wordSum (pseudoBytes protocol length) + wordSum (data.read 0 length) := by
    rw [summedBytes, wordSum_append _ (by simp), wordSum_append _ (by simp)]
  have hsame : wordSum (pseudoHeader (readAddr ip6 ip6Src) (readAddr ip6 ip6Dst) length protocol ++
      data.read 0 length) = wordSum (summedBytes ip6 protocol data length) := by
    rw [wordSum_pseudoHeader _ _ _ _ hlt, haddrs, hplain, pseudoBytes]
  rw [checksumSum_little, ← verifies_iff_littleWords, Verifies, Verifies, hsame]

end

/-- The data with its checksum in the field at this offset. -/
def withChecksum (ip6 : Mem) (protocol : UInt8) (data : Mem) (length field : Nat) : Mem :=
  Endian.little.store16 data field (ipv6Checksum .little ip6 protocol data length)

/-- The field makes the sum 65535. -/
theorem norm_withChecksum (ip6 : Mem) (protocol : UInt8) {data : Mem} {length field : Nat}
    (hlt : length < 65536) (heven : field % 2 = 0) (hroom : field + 2 ≤ length)
    (hzero : data.read field 2 = [0, 0]) :
    norm (checksumSum .little ip6 protocol (withChecksum ip6 protocol data length field) length)
      = 65535 := by
  rw [withChecksum, checksumSum_store heven hroom hzero (ipv6Checksum_lt _ _ _ _ _),
    ipv6Checksum_eq _ _ _ _ hlt, norm_add_complement]

/-- **The split sums are the plain sum.**  On a little-endian machine, for all addresses, next
headers and data of up to 65535 bytes: the three calls of `inchksum` return the plain sums of their
words, reduced, and `ipv6_checksum` the complement of what one call for all the bytes returns, with
no value of more than 32 bits on the way.  With the checksum in a field of the data that was zero,
all the words together come to `0xffff`, also in network order and with the pseudo-header of the
standard. -/
theorem checksum_plainSum (ip6 : Mem) (protocol : UInt8) (data : Mem) {length : Nat}
    (hlt : length < 65536) :
    (SummedUp (ip6.shift ip6Src) 32 ∧ SummedUp (Mem.ofList (pseudoBytes protocol length)) 6 ∧
      SummedUp data length) ∧
    ((∀ v ∈ chksumValues .little ip6 protocol data length, v < 2 ^ 32) ∧
      (chksumValues .little ip6 protocol data length).getLast? =
        some (ipv6Checksum .little ip6 protocol data length)) ∧
    ipv6Checksum .little ip6 protocol data length = complement
      (inchksum .little (Mem.ofList (summedBytes ip6 protocol data length)) (38 + length)) ∧
    ∀ field, field % 2 = 0 → field + 2 ≤ length → data.read field 2 = [0, 0] →
      inchksum .little (Mem.ofList (summedBytes ip6 protocol
        (withChecksum ip6 protocol data length field) length)) (38 + length) = 0xffff ∧
      Verifies (pseudoHeader (readAddr ip6 ip6Src) (readAddr ip6 ip6Dst) length protocol ++
        (withChecksum ip6 protocol data length field).read 0 length) := by
  refine ⟨⟨summedUp _ (by decide), summedUp _ (by decide), summedUp data hlt⟩,
    ⟨chksumValues_lt _ _ _ _ _, chksumValues_last _ _ _ _ _⟩, ?_, ?_⟩
  · rw [inchksum_summedBytes hlt, ipv6Checksum_eq _ _ _ _ hlt]
  · intro field heven hroom hzero
    have hsum := norm_withChecksum ip6 protocol hlt heven hroom hzero
    rw [inchksum_summedBytes hlt, verifies_iff_checksumSum hlt]
    exact ⟨hsum, hsum⟩

/-- A message of seven bytes. -/
def oddMessage : Mem := Mem.ofList [131, 0, 0, 0, 1, 2, 255]

theorem odd_message_verifies :
    inchksum .little (Mem.ofList (summedBytes (Mem.ofList []) ipprotoIcmpv6
      (withChecksum (Mem.ofList []) ipprotoIcmpv6 oddMessage 7 2) 7)) (38 + 7) = 0xffff ∧
    Verifies (pseudoHeader (readAddr (Mem.ofList []) ip6Src) (readAddr (Mem.ofList []) ip6Dst) 7
      ipprotoIcmpv6 ++ (withChecksum (Mem.ofList []) ipprotoIcmpv6 oddMessage 7 2).read 0 7) :=
  (checksum_plainSum (Mem.ofList []) ipprotoIcmpv6 oddMessage (by decide)).2.2.2 2 (by decide)
    (by decide) (by decide)

end Ecmh
