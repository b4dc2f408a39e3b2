/-
# Sixteen-bit ones' complement arithmetic

The Internet checksum adds 16-bit words and adds every carry out of the top back in at the bottom.
`norm n` is what that makes of a sum `n`: its residue modulo `2 ^ 16 - 1`, from 1 to 65535, and 0
for the sum 0 only.  Adding carries back does not change it (`norm_carry`), and swapping the bytes
of every word swaps the bytes of the result (`norm_swap`), so that the sum can be taken in either
byte order.  A message that carries its checksum is right if its sum is 65535 (`Verifies`).
-/
import Mathlib.Algebra.GroupWithZero.Nat
import Mathlib.Data.Nat.Basic
import Mathlib.Data.Nat.ModEq

namespace OnesComplement

/-- The value of a sum. -/
def norm (n : Nat) : Nat := if n = 0 then 0 else (n - 1) % 65535 + 1

theorem norm_lt (n : Nat) : norm n < 65536 := by
  unfold norm
  split <;> omega

/-- A sum of sixteen bits is its own value. -/
theorem norm_of_lt {n : Nat} (h : n < 65536) : norm n = n := by
  unfold norm
  split <;> omega

theorem norm_modEq (n : Nat) : norm n ≡ n [MOD 65535] := by
  unfold norm Nat.ModEq
  split <;> omega

theorem norm_eq_zero_iff {n : Nat} : norm n = 0 ↔ n = 0 := by
  unfold norm
  split <;> omega

/-- The carries may be added back. -/
theorem norm_carry (n : Nat) : norm (n % 65536 + n / 65536) = norm n := by
  unfold norm
  split <;> split <;> omega

/-- Summands may be replaced by others of the same value. -/
theorem norm_add_congr {a a' b b' : Nat} (ha : norm a = norm a') (hb : norm b = norm b') :
    norm (a + b) = norm (a' + b') := by
  unfold norm at ha hb ⊢
  split at ha <;> split at ha <;> split at hb <;> split at hb <;> split <;> split <;> omega

theorem norm_norm (n : Nat) : norm (norm n) = norm n := norm_of_lt (norm_lt n)

/-- A multiple may be taken before or after. -/
theorem norm_mul_congr {a a' : Nat} (ha : norm a = norm a') : ∀ k, norm (k * a) = norm (k * a')
  | 0 => by rw [Nat.zero_mul, Nat.zero_mul]
  | k + 1 => by
    rw [Nat.succ_mul, Nat.succ_mul]
    exact norm_add_congr (norm_mul_congr ha k) ha

/-- The two bytes of a word, swapped. -/
def swap (v : Nat) : Nat := v % 256 * 256 + v / 256 % 256

theorem swap_lt (v : Nat) : swap v < 65536 := by
  unfold swap
  omega

/-- A swap is a multiplication by 256, since the byte that leaves at the top is added back at the
bottom. -/
theorem norm_swap {v : Nat} (h : v < 65536) : norm (256 * v) = swap v := by
  have hcarry : 256 * v % 65536 + 256 * v / 65536 = swap v := by
    unfold swap
    omega
  rw [← norm_carry, hcarry, norm_of_lt (swap_lt v)]

/-- The complement of a swapped word is the swapped complement. -/
theorem swap_complement {v : Nat} (h : v < 65536) : swap (65535 - v) = 65535 - swap v := by
  unfold swap
  omega

/-! ## Sums of bytes -/

/-- The sum of the words of a message in network order.  A last byte alone is the first of its
word. -/
def wordSum : List UInt8 → Nat
  | [] => 0
  | [hi] => 256 * hi.toNat
  | hi :: lo :: rest => 256 * hi.toNat + lo.toNat + wordSum rest

/-- The sum of a message that carries its checksum comes to 65535. -/
def Verifies (bytes : List UInt8) : Prop := norm (wordSum bytes) = 65535

instance (bytes : List UInt8) : Decidable (Verifies bytes) :=
  inferInstanceAs (Decidable (_ = _))

/-- Whole words may be summed apart. -/
theorem wordSum_append : ∀ {a : List UInt8} (b : List UInt8), a.length % 2 = 0 →
    wordSum (a ++ b) = wordSum a + wordSum b
  | [], b, _ => (Nat.zero_add _).symm
  | [_], _, h => by simp at h
  | hi :: lo :: rest, b, h => by
    have hrest : rest.length % 2 = 0 := by
      simp only [List.length_cons] at h
      omega
    rw [List.cons_append, List.cons_append, wordSum, wordSum, wordSum_append b hrest]
    omega

theorem norm_eq_top_iff {n : Nat} : norm n = 65535 ↔ 0 < n ∧ n % 65535 = 0 := by
  unfold norm
  split <;> omega

/-- The bytes of all words may be swapped. -/
theorem norm_swapped_eq_top_iff {n : Nat} : norm (256 * n) = 65535 ↔ norm n = 65535 := by
  rw [norm_eq_top_iff, norm_eq_top_iff]
  omega

/-- What completes a sum to 65535: its complement, and where that is zero, 65535 as well. -/
theorem norm_add_eq_top_iff {n v : Nat} (hn : 0 < n) (hv : v < 65536) :
    norm (n + v) = 65535 ↔ v = 65535 - norm n ∨ (norm n = 65535 ∧ v = 65535) := by
  rw [norm_eq_top_iff]
  unfold norm
  rw [if_neg (by omega)]
  omega

/-! ## Words of the other byte order -/

/-- The words of a message as a little-endian machine loads them.  A last byte alone is padded with
a zero byte. -/
def littleWords : List UInt8 → List Nat
  | [] => []
  | [lo] => [lo.toNat]
  | lo :: hi :: rest => (256 * hi.toNat + lo.toNat) :: littleWords rest

theorem sum_littleWords_append : ∀ {a : List UInt8} (b : List UInt8), a.length % 2 = 0 →
    (littleWords (a ++ b)).sum = (littleWords a).sum + (littleWords b).sum
  | [], b, _ => (Nat.zero_add _).symm
  | [_], _, h => by simp at h
  | lo :: hi :: rest, b, h => by
    have hrest : rest.length % 2 = 0 := by
      simp only [List.length_cons] at h
      omega
    rw [List.cons_append, List.cons_append, littleWords, littleWords, List.sum_cons, List.sum_cons,
      sum_littleWords_append b hrest, ← Nat.add_assoc]

/-- The sum of these words is the one in network order, with the bytes of all words swapped. -/
theorem norm_sum_littleWords : ∀ bytes : List UInt8,
    norm (littleWords bytes).sum = norm (256 * wordSum bytes)
  | [] => rfl
  | [lo] => by
    have hlt := lo.toNat_lt
    rw [littleWords, wordSum, List.sum_singleton]
    unfold norm
    split <;> split <;> omega
  | lo :: hi :: rest => by
    have hlo := lo.toNat_lt
    have hhi := hi.toNat_lt
    have hword : norm (256 * hi.toNat + lo.toNat) = norm (256 * (256 * lo.toNat + hi.toNat)) := by
      unfold norm
      split <;> split <;> omega
    rw [littleWords, wordSum, List.sum_cons, Nat.mul_add]
    exact norm_add_congr hword (norm_sum_littleWords rest)

/-- So the check of a message may be made in either byte order. -/
theorem verifies_iff_littleWords (bytes : List UInt8) :
    Verifies bytes ↔ norm (littleWords bytes).sum = 65535 := by
  rw [Verifies, norm_sum_littleWords, norm_swapped_eq_top_iff]

end OnesComplement
