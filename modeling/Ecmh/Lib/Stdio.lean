/-
# Reading text: what `fgets` and `sscanf` do

The parts of `<stdio.h>` by which a C program reads a text file: the lines that `fgets` returns one
after the other, and the directives `%x`, `%Ns` and white space of `sscanf`.  Text is a list of
bytes.  A file of whole lines that fit the buffer comes back line by line (`fgetsAll_flatten`), and
a number that was printed with `%0wx` is read back by `%x` (`scanX_printX`).
-/
import Mathlib.Data.List.DropRight
import Mathlib.Data.Nat.Digits.Lemmas

namespace Stdio

/-! ## 1. Hexadecimal digits -/

/-- A lower-case digit. -/
def digit (d : Nat) : UInt8 := UInt8.ofNat (if d < 10 then 48 + d else 87 + d)

/-- The value of a digit of either case. -/
def digitValue (c : UInt8) : Option Nat :=
  if 48 ≤ c.toNat ∧ c.toNat ≤ 57 then some (c.toNat - 48)
  else if 97 ≤ c.toNat ∧ c.toNat ≤ 102 then some (c.toNat - 87)
  else if 65 ≤ c.toNat ∧ c.toNat ≤ 70 then some (c.toNat - 55)
  else none

/-- `isxdigit`. -/
def isDigit (c : UInt8) : Bool := (digitValue c).isSome

theorem digitValue_digit : ∀ {d : Nat}, d < 16 → digitValue (digit d) = some d := by decide

theorem isDigit_digit {d : Nat} (h : d < 16) : isDigit (digit d) = true := by
  rw [isDigit, digitValue_digit h]
  rfl

/-- The number that the digits stand for. -/
def number (l : List UInt8) : Nat := l.foldl (fun n c => 16 * n + (digitValue c).getD 0) 0

/-- `%0wx`. -/
def printX (width n : Nat) : List UInt8 :=
  let digits := ((Nat.digits 16 n).map digit).reverse
  List.replicate (width - digits.length) 48 ++ digits

theorem number_append_digits (l : List UInt8) : ∀ ds : List Nat, (∀ d ∈ ds, d < 16) →
    number (l ++ (ds.map digit).reverse) = number l * 16 ^ ds.length + Nat.ofDigits 16 ds := by
  intro ds
  induction ds with
  | nil => simp
  | cons d ds ih =>
    intro hds
    obtain ⟨hd, hrest⟩ := List.forall_mem_cons.mp hds
    have hstep : number (l ++ (ds.map digit).reverse ++ [digit d])
        = 16 * number (l ++ (ds.map digit).reverse) + d := by
      rw [number, List.foldl_append, List.foldl_cons, List.foldl_nil, digitValue_digit hd]
      rfl
    rw [List.map_cons, List.reverse_cons, ← List.append_assoc, hstep, ih hrest, Nat.ofDigits_cons,
      List.length_cons]
    ring

theorem number_zeros : ∀ n : Nat, number (List.replicate n 48) = 0 := by
  intro n
  induction n with
  | zero => rfl
  | succ n ih =>
    rw [List.replicate_succ', number, List.foldl_append]
    rw [number] at ih
    rw [ih]
    rfl

/-- What is printed stands for the number. -/
theorem number_printX (width n : Nat) : number (printX width n) = n := by
  have h := number_append_digits
    (List.replicate (width - ((Nat.digits 16 n).map digit).reverse.length) 48)
    (Nat.digits 16 n) fun d hd => Nat.digits_lt_base (by decide) hd
  rwa [number_zeros, Nat.zero_mul, Nat.zero_add, Nat.ofDigits_digits] at h

theorem isDigit_of_mem_printX {width n : Nat} {c : UInt8} (hc : c ∈ printX width n) :
    isDigit c = true := by
  rcases List.mem_append.mp hc with hc | hc
  · rw [List.eq_of_mem_replicate hc]
    rfl
  · rw [List.mem_reverse, List.mem_map] at hc
    obtain ⟨d, hd, rfl⟩ := hc
    exact isDigit_digit (Nat.digits_lt_base (by decide) hd)

theorem printX_ne_nil {width : Nat} (hw : 0 < width) (n : Nat) : printX width n ≠ [] := by
  intro h
  have hlen := congrArg List.length h
  rw [printX, List.length_append, List.length_replicate] at hlen
  simp only [List.length_nil] at hlen
  omega

/-- A number below `16 ^ k` takes no more than `k` digits, or the width. -/
theorem length_printX_le {width k n : Nat} (hn : n < 16 ^ k) (hw : width ≤ k) :
    (printX width n).length ≤ k := by
  have hle : (Nat.digits 16 n).length ≤ k := (Nat.digits_length_le_iff (by decide) n).mpr hn
  rw [printX, List.length_append, List.length_replicate, List.length_reverse, List.length_map]
  omega

/-! ## 2. `sscanf` -/

/-- `isspace`, in the C locale. -/
def isSpace (c : UInt8) : Bool := c = 32 || (9 ≤ c.toNat && c.toNat ≤ 13)

/-- White space in the format. -/
def skipSpace (s : List UInt8) : List UInt8 := s.dropWhile isSpace

/-- A sign in front of a number, and the text behind it. -/
def sign : List UInt8 → Bool × List UInt8
  | 43 :: s => (false, s)
  | 45 :: s => (true, s)
  | s => (false, s)

/-- `0x` in front of a number is passed over. -/
def skipBase : List UInt8 → List UInt8
  | 48 :: 120 :: s => s
  | 48 :: 88 :: s => s
  | s => s

/-- `%x` into an `unsigned int`: the number and the text behind it, `none` where there is none.  The
standard does not say what becomes of a number that does not fit, which is `big`. -/
def scanX (big : Nat → Nat) (s : List UInt8) : Option (Nat × List UInt8) :=
  let (negative, s) := sign (skipSpace s)
  let s := skipBase s
  let digits := s.takeWhile isDigit
  let n := number digits
  if digits = [] then none
  else if 2 ^ 32 ≤ n then some (big n, s.dropWhile isDigit)
  else some (if negative then (2 ^ 32 - n) % 2 ^ 32 else n, s.dropWhile isDigit)

/-- `%Ns`: a word of `width` characters at most. -/
def scanS (width : Nat) (s : List UInt8) : Option (List UInt8 × List UInt8) :=
  let s := skipSpace s
  let word := (s.takeWhile (!isSpace ·)).take width
  if word = [] then none else some (word, s.drop word.length)

theorem skipSpace_spaces (n : Nat) {s : List UInt8} (hs : ∀ c ∈ s.head?, isSpace c = false) :
    skipSpace (List.replicate n 32 ++ s) = s := by
  have hspace : ∀ c ∈ List.replicate n (32 : UInt8), isSpace c = true := by
    intro c hc
    rw [List.eq_of_mem_replicate hc]
    rfl
  rw [skipSpace, List.dropWhile_append_of_pos hspace]
  cases s with
  | nil => rfl
  | cons c s => exact List.dropWhile_cons_of_neg (by simp [hs c rfl])

theorem le_of_isDigit {c : UInt8} (hc : isDigit c = true) :
    48 ≤ c.toNat ∧ c ≠ 120 ∧ c ≠ 88 := by
  refine ⟨?_, ?_, ?_⟩
  · unfold isDigit digitValue at hc
    split at hc
    · omega
    · split at hc
      · omega
      · split at hc
        · omega
        · cases hc
  · rintro rfl
    cases hc
  · rintro rfl
    cases hc

theorem le_of_isSpace {c : UInt8} (hc : isSpace c = true) : c.toNat ≤ 32 := by
  unfold isSpace at hc
  rw [Bool.or_eq_true, decide_eq_true_eq, Bool.and_eq_true, decide_eq_true_eq,
    decide_eq_true_eq] at hc
  rcases hc with rfl | hc
  · exact le_refl 32
  · omega

theorem not_isSpace_of_isDigit {c : UInt8} (hc : isDigit c = true) : isSpace c = false := by
  rw [← Bool.not_eq_true]
  intro hs
  have h1 := (le_of_isDigit hc).1
  have h2 := le_of_isSpace hs
  omega

theorem not_isDigit_of_isSpace {c : UInt8} (hc : isSpace c = true) : isDigit c = false := by
  rw [← Bool.not_eq_true]
  intro hd
  rw [not_isSpace_of_isDigit hd] at hc
  cases hc

/-- Text that begins with a digit has no sign in front of it. -/
theorem sign_of_digit {c : UInt8} (hc : isDigit c = true) (s : List UInt8) :
    sign (c :: s) = (false, c :: s) := by
  have hle := (le_of_isDigit hc).1
  unfold sign
  split
  · rename_i h
    rw [List.cons.injEq] at h
    rw [h.1] at hle
    exact absurd hle (by decide)
  · rename_i h
    rw [List.cons.injEq] at h
    rw [h.1] at hle
    exact absurd hle (by decide)
  · rfl

theorem skipBase_of_ne {a b : UInt8} (h1 : b ≠ 120) (h2 : b ≠ 88) (s : List UInt8) :
    skipBase (a :: b :: s) = a :: b :: s := by
  unfold skipBase
  split
  · rename_i h
    rw [List.cons.injEq, List.cons.injEq] at h
    exact absurd h.2.1 h1
  · rename_i h
    rw [List.cons.injEq, List.cons.injEq] at h
    exact absurd h.2.1 h2
  · rfl

/-- What begins with a digit, and has only digits and then white space or nothing, has no `0x`. -/
theorem skipBase_digits {c : UInt8} {l rest : List UInt8} (hl : ∀ c ∈ l, isDigit c = true)
    (hrest : ∀ c ∈ rest.head?, isSpace c = true) : skipBase (c :: l ++ rest) = c :: l ++ rest := by
  cases l with
  | cons b l =>
    obtain ⟨-, h1, h2⟩ := le_of_isDigit (hl b List.mem_cons_self)
    exact skipBase_of_ne h1 h2 (l ++ rest)
  | nil =>
    cases rest with
    | nil => simp [skipBase]
    | cons b rest =>
      have hb := hrest b rfl
      refine skipBase_of_ne ?_ ?_ rest
      · rintro rfl
        cases hb
      · rintro rfl
        cases hb

theorem takeWhile_digits {l rest : List UInt8} (hl : ∀ c ∈ l, isDigit c = true)
    (hrest : ∀ c ∈ rest.head?, isSpace c = true) :
    (l ++ rest).takeWhile isDigit = l ∧ (l ++ rest).dropWhile isDigit = rest := by
  rw [List.takeWhile_append_of_pos hl, List.dropWhile_append_of_pos hl]
  cases rest with
  | nil => exact ⟨List.append_nil l, rfl⟩
  | cons b rest =>
    have hb : isDigit b = false := not_isDigit_of_isSpace (hrest b rfl)
    rw [List.takeWhile_cons_of_neg (by simp [hb]), List.dropWhile_cons_of_neg (by simp [hb])]
    exact ⟨List.append_nil l, rfl⟩

/-- **A printed number is read back** up to what follows it. -/
theorem scanX_printX (big : Nat → Nat) {width n : Nat} (hw : 0 < width) (hn : n < 2 ^ 32)
    {rest : List UInt8} (hrest : ∀ c ∈ rest.head?, isSpace c = true) :
    scanX big (printX width n ++ rest) = some (n, rest) := by
  have hdigits : ∀ c ∈ printX width n, isDigit c = true := fun _ hc => isDigit_of_mem_printX hc
  have hnumber := number_printX width n
  have hne := printX_ne_nil hw n
  generalize printX width n = l at hdigits hnumber hne
  obtain ⟨c, s, rfl⟩ := List.exists_cons_of_ne_nil hne
  have hc : isDigit c = true := hdigits c List.mem_cons_self
  have hskip : skipSpace (c :: s ++ rest) = c :: s ++ rest :=
    List.dropWhile_cons_of_neg (by simp [not_isSpace_of_isDigit hc])
  obtain ⟨htake, hdrop⟩ := takeWhile_digits hdigits hrest
  unfold scanX
  rw [hskip, List.cons_append, sign_of_digit hc, ← List.cons_append]
  dsimp only
  rw [skipBase_digits (fun b hb => hdigits b (List.mem_cons_of_mem c hb)) hrest, htake, hdrop,
    if_neg hne, hnumber, if_neg (by omega)]
  rfl

/-- A word is read behind blanks, in part at least. -/
theorem scanS_isSome {width : Nat} (hw : 0 < width) (n : Nat) {c : UInt8} (hc : isSpace c = false)
    (s : List UInt8) : (scanS width (List.replicate n 32 ++ c :: s)).isSome := by
  have hskip : skipSpace (List.replicate n 32 ++ c :: s) = c :: s :=
    skipSpace_spaces n fun b hb => by
      rw [← Option.some.inj hb]
      exact hc
  have hword : ((c :: s).takeWhile (!isSpace ·)).take width ≠ [] := by
    rw [List.takeWhile_cons_of_pos (by simp [hc])]
    obtain ⟨k, rfl⟩ := Nat.exists_eq_succ_of_ne_zero (Nat.pos_iff_ne_zero.mp hw)
    exact List.cons_ne_nil _ _
  unfold scanS
  rw [hskip]
  dsimp only
  rw [if_neg hword]
  rfl

/-- A directive skips white space by itself. -/
theorem skipSpace_twice (s : List UInt8) : skipSpace (skipSpace s) = skipSpace s :=
  List.dropWhile_idempotent isSpace s

theorem scanX_skipSpace (big : Nat → Nat) (s : List UInt8) :
    scanX big (skipSpace (32 :: s)) = scanX big s := by
  unfold scanX
  rw [skipSpace_twice, show skipSpace (32 :: s) = skipSpace s from rfl]

theorem scanS_skipSpace (width : Nat) (s : List UInt8) :
    scanS width (skipSpace (32 :: s)) = scanS width s := by
  unfold scanS
  rw [skipSpace_twice, show skipSpace (32 :: s) = skipSpace s from rfl]

/-! ## 3. `fgets` -/

/-- The lines that `fgets` returns one after the other into a buffer of `size` bytes, where it has
read `line` of the current one. -/
def fgetsFrom (size : Nat) : List UInt8 → List UInt8 → List (List UInt8)
  | line, [] => if line = [] then [] else [line]
  | line, c :: s =>
    -- the last byte of the buffer is for the NUL
    if c = 10 ∨ size ≤ line.length + 2 then (line ++ [c]) :: fgetsFrom size [] s
    else fgetsFrom size (line ++ [c]) s

/-- All lines of a file. -/
def fgetsAll (size : Nat) (s : List UInt8) : List (List UInt8) := fgetsFrom size [] s

/-- A line with its newline, and room for it in the buffer. -/
structure WholeLine (size : Nat) (line : List UInt8) : Prop where
  ends : ∃ body, line = body ++ [10] ∧ 10 ∉ body
  fits : line.length < size

theorem fgetsFrom_body (size : Nat) (s : List UInt8) : ∀ (body line : List UInt8), 10 ∉ body →
    line.length + body.length + 1 < size →
    fgetsFrom size line (body ++ 10 :: s) = (line ++ body ++ [10]) :: fgetsAll size s := by
  intro body
  induction body with
  | nil =>
    intro line _ _
    rw [List.nil_append, fgetsFrom, if_pos (Or.inl rfl), List.append_nil]
    rfl
  | cons c body ih =>
    intro line hbody hlen
    rw [List.mem_cons, not_or] at hbody
    obtain ⟨hc, hbody⟩ := hbody
    rw [List.length_cons] at hlen
    rw [List.cons_append, fgetsFrom, if_neg (by rintro (rfl | h) <;> [exact hc rfl; omega]),
      ih (line ++ [c]) hbody (by rw [List.length_append, List.length_singleton]; omega),
      List.append_assoc line]
    rfl

/-- **A file of whole lines** comes back line by line. -/
theorem fgetsAll_flatten (size : Nat) : ∀ lines : List (List UInt8),
    (∀ line ∈ lines, WholeLine size line) → fgetsAll size lines.flatten = lines := by
  intro lines
  induction lines with
  | nil => exact fun _ => rfl
  | cons line lines ih =>
    intro hlines
    obtain ⟨⟨⟨body, rfl, hbody⟩, hfits⟩, hrest⟩ := List.forall_mem_cons.mp hlines
    rw [List.length_append, List.length_singleton] at hfits
    have hone := fgetsFrom_body size lines.flatten body [] hbody (by simpa using hfits)
    rw [List.flatten_cons, List.append_assoc, List.singleton_append, fgetsAll, hone, ih hrest,
      List.nil_append]

end Stdio
