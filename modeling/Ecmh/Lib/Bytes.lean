/-
# Byte memory: what a C program sees behind a pointer

`Mem` is the memory behind one pointer, offset by offset.  A read and a write are lists of
bytes; the lemmas say how a read sees a write: the bytes just written (`read_write_same`), or
the old ones when the two ranges are disjoint (`read_write_disjoint`), and how a read splits
(`read_add`).

Sixteen-bit fields are stored in the byte order of the machine (`Endian`), and `htons` is the
swap that a little-endian machine needs to put one into network order: `bytes16_htons` says
that storing a swapped value always leaves the big-endian bytes.
-/
import Mathlib.Algebra.GroupWithZero.Nat
import Mathlib.Data.List.Basic

namespace ByteMem

/-- The memory behind a pointer: the byte at every offset. -/
abbrev Mem := Nat → UInt8

namespace Mem

/-- The `n` bytes from offset `off` on. -/
def read (m : Mem) (off : Nat) : Nat → List UInt8
  | 0 => []
  | n + 1 => m off :: read m (off + 1) n

/-- The memory after the bytes `bs` were stored at `off`. -/
def write (m : Mem) (off : Nat) (bs : List UInt8) : Mem := fun i =>
  if off ≤ i ∧ i < off + bs.length then bs.getD (i - off) 0 else m i

/-- The memory seen from a pointer `off` bytes further. -/
def shift (m : Mem) (off : Nat) : Mem := fun i => m (off + i)

/-- The memory with everything from `off` on replaced by what another pointer sees. -/
def splice (m : Mem) (off : Nat) (m' : Mem) : Mem := fun i => if i < off then m i else m' (i - off)

/-- A memory that starts with the bytes of a list. -/
def ofList (bs : List UInt8) : Mem := fun i => bs.getD i 0

/-! ## 1. Reads -/

@[simp] theorem read_zero (m : Mem) (off : Nat) : m.read off 0 = [] := rfl

theorem read_succ (m : Mem) (off n : Nat) :
    m.read off (n + 1) = m off :: m.read (off + 1) n := rfl

@[simp] theorem length_read (m : Mem) : ∀ (off n : Nat), (m.read off n).length = n
  | _, 0 => rfl
  | off, n + 1 => by simp [read_succ, length_read m (off + 1) n]

/-- A read splits at any point. -/
theorem read_add (m : Mem) : ∀ (off a b : Nat),
    m.read off (a + b) = m.read off a ++ m.read (off + a) b
  | off, 0, b => by simp
  | off, a + 1, b => by
    rw [show a + 1 + b = (a + b) + 1 by omega, read_succ, read_succ, read_add m (off + 1) a b]
    simp [show off + 1 + a = off + (a + 1) by omega]

theorem getElem?_read (m : Mem) : ∀ (off n i : Nat), i < n → (m.read off n)[i]? = some (m (off + i))
  | _, 0, _, h => absurd h (by omega)
  | off, n + 1, 0, _ => by simp [read_succ]
  | off, n + 1, i + 1, h => by
    rw [read_succ, List.getElem?_cons_succ, getElem?_read m (off + 1) n i (by omega)]
    simp [show off + 1 + i = off + (i + 1) by omega]

theorem getD_read (m : Mem) {off n i : Nat} (h : i < n) :
    (m.read off n).getD i 0 = m (off + i) := by
  rw [List.getD_eq_getElem?_getD, getElem?_read m off n i h, Option.getD_some]

/-- A byte of what was read. -/
theorem apply_of_read {m : Mem} {off : Nat} {l : List UInt8} (h : m.read off l.length = l) {k : Nat}
    (hk : k < l.length) : m (off + k) = l.getD k 0 := by
  rw [← getD_read m hk, h]

/-- A list is read back. -/
theorem read_ofList (bs : List UInt8) : (ofList bs).read 0 bs.length = bs := by
  refine List.ext_getElem? fun i => ?_
  rcases Nat.lt_or_ge i bs.length with hi | hi
  · rw [getElem?_read _ 0 _ i hi, ofList, Nat.zero_add, List.getD_eq_getElem?_getD,
      List.getElem?_eq_getElem hi, Option.getD_some]
  · rw [List.getElem?_eq_none (by simpa using hi), List.getElem?_eq_none hi]

/-- The end of a read is a read. -/
theorem drop_read (m : Mem) (off : Nat) {n a : Nat} (h : a ≤ n) :
    (m.read off n).drop a = m.read (off + a) (n - a) := by
  obtain ⟨b, rfl⟩ := Nat.exists_eq_add_of_le h
  rw [read_add, List.drop_left' (length_read m off a), Nat.add_sub_cancel_left]

/-- A read that is known splits as the list it gives does. -/
theorem read_eq_append {m : Mem} {off n : Nat} {l r : List UInt8} (h : m.read off n = l ++ r) :
    m.read off l.length = l ∧ m.read (off + l.length) r.length = r := by
  have hn : n = l.length + r.length := by
    have := congrArg List.length h
    rwa [length_read, List.length_append] at this
  rw [hn, read_add] at h
  exact List.append_inj h (length_read m off l.length)

/-- A read only depends on the bytes it reads. -/
theorem read_congr {m m' : Mem} : ∀ {off n : Nat},
    (∀ i, off ≤ i → i < off + n → m i = m' i) → m.read off n = m'.read off n
  | _, 0, _ => rfl
  | off, n + 1, h => by
    rw [read_succ, read_succ, h off (Nat.le_refl _) (by omega),
      read_congr (fun i h1 h2 => h i (by omega) (by omega))]

/-- Two equal reads agree byte by byte. -/
theorem eq_of_read_eq {m m' : Mem} {off off' n : Nat} (h : m.read off n = m'.read off' n)
    {i : Nat} (hi : i < n) : m (off + i) = m' (off' + i) := by
  have h1 := getElem?_read m off n i hi
  rw [h, getElem?_read m' off' n i hi] at h1
  exact (Option.some.inj h1).symm

/-- Two reads are equal where the memories agree byte by byte. -/
theorem read_eq_read_iff {m m' : Mem} {off off' n : Nat} :
    m.read off n = m'.read off' n ↔ ∀ i, i < n → m (off + i) = m' (off' + i) := by
  refine ⟨fun h i hi => eq_of_read_eq h hi, fun h => List.ext_getElem? fun i => ?_⟩
  rcases Nat.lt_or_ge i n with hi | hi
  · rw [getElem?_read m off n i hi, getElem?_read m' off' n i hi, h i hi]
  · rw [List.getElem?_eq_none (by simpa using hi), List.getElem?_eq_none (by simpa using hi)]

theorem splice_apply_of_lt (m : Mem) {off i : Nat} (m' : Mem) (h : i < off) :
    m.splice off m' i = m i := by
  rw [splice, if_pos h]

/-- A pointer into the memory is read from where it points. -/
theorem read_shift (m : Mem) : ∀ (a off n : Nat), (m.shift a).read off n = m.read (a + off) n
  | _, _, 0 => rfl
  | a, off, n + 1 => by
    rw [read_succ, read_succ, read_shift m a (off + 1) n]
    rfl

/-! ## 2. Writes, and the reads that see them -/

/-- The bytes before a write stay. -/
theorem write_apply_of_lt (m : Mem) {off i : Nat} (bs : List UInt8) (h : i < off) :
    m.write off bs i = m i := by
  simp [write, show ¬ off ≤ i by omega]

/-- Those behind it stay too. -/
theorem write_apply_of_ge (m : Mem) {off i : Nat} (bs : List UInt8) (h : off + bs.length ≤ i) :
    m.write off bs i = m i := by
  simp [write, show ¬ i < off + bs.length by omega]

/-- The bytes of the write. -/
theorem write_apply_at (m : Mem) (off : Nat) {i : Nat} (bs : List UInt8) (h : i < bs.length) :
    m.write off bs (off + i) = bs.getD i 0 := by
  simp [write, h]

/-- A read behind or before a write does not see it. -/
theorem read_write_disjoint (m : Mem) {off off' n : Nat} (bs : List UInt8)
    (h : off' + n ≤ off ∨ off + bs.length ≤ off') :
    (m.write off bs).read off' n = m.read off' n := by
  refine read_congr fun i h1 h2 => ?_
  rcases h with h | h
  · exact write_apply_of_lt m bs (by omega)
  · exact write_apply_of_ge m bs (by omega)

/-- A read of the range just written gives the bytes written. -/
theorem read_write_same (m : Mem) (off : Nat) (bs : List UInt8) :
    (m.write off bs).read off bs.length = bs := by
  refine List.ext_getElem? fun i => ?_
  rcases Nat.lt_or_ge i bs.length with h | h
  · rw [getElem?_read _ _ _ _ h, write_apply_at m off bs h]
    simp [h]
  · rw [List.getElem?_eq_none (by simpa using h), List.getElem?_eq_none h]

theorem read_write_same' (m : Mem) (off n : Nat) (bs : List UInt8) (h : bs.length = n) :
    (m.write off bs).read off n = bs := by
  subst h
  exact read_write_same m off bs

end Mem

/-! ## 3. Sixteen-bit fields -/

/-- The byte order of the machine. -/
inductive Endian
  | little
  | big
  deriving DecidableEq, Repr

/-- The two bytes of a 16-bit value in network order. -/
def be16 (v : Nat) : List UInt8 := [UInt8.ofNat (v / 256), UInt8.ofNat v]

/-- The value of two bytes in network order. -/
def ofBe16 (hi lo : UInt8) : Nat := hi.toNat * 256 + lo.toNat

namespace Endian

/-- The two bytes of a 16-bit variable, as the machine stores it. -/
def bytes16 : Endian → Nat → List UInt8
  | .big, v => be16 v
  | .little, v => [UInt8.ofNat v, UInt8.ofNat (v / 256)]

/-- `htons`, and also `ntohs`: swap the two bytes on a little-endian machine. -/
def htons : Endian → Nat → Nat
  | .big, v => v % 65536
  | .little, v => v % 256 * 256 + v / 256 % 256

/-- A 16-bit variable read from memory. -/
def load16 (e : Endian) (m : Mem) (off : Nat) : Nat :=
  match e with
  | .big => ofBe16 (m off) (m (off + 1))
  | .little => ofBe16 (m (off + 1)) (m off)

/-- A 32-bit variable read from memory. -/
def load32 (e : Endian) (m : Mem) (off : Nat) : Nat :=
  match e with
  | .big => e.load16 m off * 65536 + e.load16 m (off + 2)
  | .little => e.load16 m (off + 2) * 65536 + e.load16 m off

/-- A 16-bit variable stored to memory. -/
def store16 (e : Endian) (m : Mem) (off v : Nat) : Mem := m.write off (e.bytes16 v)

end Endian

@[simp] theorem length_be16 (v : Nat) : (be16 v).length = 2 := rfl

@[simp] theorem Endian.length_bytes16 (e : Endian) (v : Nat) : (e.bytes16 v).length = 2 := by
  cases e <;> rfl

theorem toNat_ofNat8 (v : Nat) : (UInt8.ofNat v).toNat = v % 256 := by simp

theorem ofBe16_lt (hi lo : UInt8) : ofBe16 hi lo < 65536 := by
  have h1 := hi.toNat_lt
  have h2 := lo.toNat_lt
  unfold ofBe16
  omega

/-- Writing a 16-bit value in network order and reading it back. -/
theorem ofBe16_be16 (v : Nat) :
    ofBe16 (UInt8.ofNat (v / 256)) (UInt8.ofNat v) = v % 65536 := by
  unfold ofBe16
  rw [toNat_ofNat8, toNat_ofNat8]
  omega

/-- Two bytes are the network order of the value they make. -/
theorem be16_ofBe16 (hi lo : UInt8) : be16 (ofBe16 hi lo) = [hi, lo] := by
  have h2 := lo.toNat_lt
  have h3 : ofBe16 hi lo / 256 = hi.toNat := by unfold ofBe16; omega
  have h4 : UInt8.ofNat (ofBe16 hi lo) = lo := by
    apply UInt8.toNat_inj.mp
    rw [toNat_ofNat8]
    unfold ofBe16
    omega
  simp [be16, h3, h4]

/-- Two bytes in network order, read back. -/
theorem ofBe16_of_read {m : Mem} {off v : Nat} (h : m.read off 2 = be16 v) :
    ofBe16 (m off) (m (off + 1)) = v % 65536 := by
  simp only [Mem.read_succ, Mem.read_zero, be16, List.cons.injEq, and_true] at h
  rw [h.1, h.2, ofBe16_be16]

namespace Endian

/-- A swapped field is a field. -/
theorem htons_lt (e : Endian) (v : Nat) : e.htons v < 65536 := by
  cases e <;> simp only [htons] <;> omega

@[simp] theorem htons_zero (e : Endian) : e.htons 0 = 0 := by cases e <;> rfl

/-- A swapped value, stored by the machine, is in network order. -/
theorem bytes16_htons (e : Endian) (v : Nat) : e.bytes16 (e.htons v) = be16 v := by
  cases e with
  | big =>
    have h : (v % 65536) / 256 = v / 256 % 256 := by omega
    have h1 : UInt8.ofNat (v / 256 % 256) = UInt8.ofNat (v / 256) := by
      apply UInt8.toNat_inj.mp; simp
    have h2 : UInt8.ofNat (v % 65536) = UInt8.ofNat v := by
      apply UInt8.toNat_inj.mp; rw [toNat_ofNat8, toNat_ofNat8]; omega
    simp [bytes16, htons, be16, h, h1, h2]
  | little =>
    have h : (v % 256 * 256 + v / 256 % 256) / 256 = v % 256 := by omega
    have h1 : UInt8.ofNat (v % 256) = UInt8.ofNat v := by
      apply UInt8.toNat_inj.mp; simp
    have h2 : UInt8.ofNat (v % 256 * 256 + v / 256 % 256) = UInt8.ofNat (v / 256) := by
      apply UInt8.toNat_inj.mp; rw [toNat_ofNat8, toNat_ofNat8]; omega
    simp [bytes16, htons, be16, h, h1, h2]

/-- Sixteen bits are below 2¹⁶. -/
theorem load16_lt (e : Endian) (m : Mem) (off : Nat) : e.load16 m off < 65536 := by
  cases e <;> exact ofBe16_lt _ _

/-- `ntohs` of a field gives the value its bytes have in network order. -/
theorem htons_load16 (e : Endian) (m : Mem) (off : Nat) :
    e.htons (e.load16 m off) = ofBe16 (m off) (m (off + 1)) := by
  have h1 := (m off).toNat_lt
  have h2 := (m (off + 1)).toNat_lt
  cases e <;> simp only [htons, load16, ofBe16] <;> omega

/-- A field is told by its two bytes. -/
theorem load16_eq_of_read {e : Endian} {m m' : Mem} {off off' : Nat}
    (h : m.read off 2 = m'.read off' 2) : e.load16 m off = e.load16 m' off' := by
  simp only [Mem.read_succ, Mem.read_zero, List.cons.injEq, and_true] at h
  cases e <;> simp [load16, h.1, h.2]

/-- Variables only depend on the bytes they are stored in. -/
theorem load16_congr (e : Endian) {m m' : Mem} {off off' : Nat}
    (h : ∀ k, k < 2 → m (off + k) = m' (off' + k)) : e.load16 m off = e.load16 m' off' :=
  load16_eq_of_read (Mem.read_eq_read_iff.mpr h)

/-- A field of four bytes is told by them. -/
theorem load32_congr (e : Endian) {m m' : Mem} {off off' : Nat}
    (h : ∀ k, k < 4 → m (off + k) = m' (off' + k)) : e.load32 m off = e.load32 m' off' := by
  have hlow : e.load16 m off = e.load16 m' off' :=
    e.load16_congr fun k hk => h k (by omega)
  have hhigh : e.load16 m (off + 2) = e.load16 m' (off' + 2) :=
    e.load16_congr fun k hk => by
      rw [Nat.add_assoc, Nat.add_assoc]
      exact h (2 + k) (by omega)
  unfold load32
  rw [hlow, hhigh]

/-- A variable just stored is read back, truncated to sixteen bits. -/
theorem load16_store16 (e : Endian) (m : Mem) (off v : Nat) :
    e.load16 (e.store16 m off v) off = v % 65536 := by
  have h0 : (e.store16 m off v) off = (e.bytes16 v).getD 0 0 :=
    Mem.write_apply_at m off (i := 0) _ (by simp)
  have h1 : (e.store16 m off v) (off + 1) = (e.bytes16 v).getD 1 0 :=
    Mem.write_apply_at m off (i := 1) _ (by simp)
  cases e <;> simp only [load16, h0, h1, bytes16, be16] <;> exact ofBe16_be16 v

/-- A store writes two bytes. -/
theorem store16_apply_ne (e : Endian) (m : Mem) {off i : Nat} (v : Nat)
    (h : i < off ∨ off + 2 ≤ i) : e.store16 m off v i = m i := by
  rcases h with h | h
  · exact Mem.write_apply_of_lt m _ h
  · exact Mem.write_apply_of_ge m _ (by simpa using h)

/-- What was stored is read back. -/
theorem read_store16_same (e : Endian) (m : Mem) (off v : Nat) :
    (e.store16 m off v).read off 2 = e.bytes16 v :=
  Mem.read_write_same' m off 2 _ (by simp)

/-- A read beside the store does not see it. -/
theorem read_store16_disjoint (e : Endian) (m : Mem) {off off' n : Nat} (v : Nat)
    (h : off' + n ≤ off ∨ off + 2 ≤ off') : (e.store16 m off v).read off' n = m.read off' n :=
  Mem.read_write_disjoint m _ (by simpa using h)

end Endian

end ByteMem
