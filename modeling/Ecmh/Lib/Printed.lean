/-
# Text that tells what was printed

A program prints a value, and other text comes behind it.  `Readable D K print` says that for the
values in `D`, and with text in `K` behind them, the whole text tells the value and the text behind
it: no two values look alike.  What `printf` makes of words and numbers is such a text where a
character follows that they do not have in them (`readable_word`, `readable_printU`,
`readable_printD`), and this goes over to texts one behind the other (`Readable.append`), to a list
of texts that begin in the same way (`Readable.flatMap`) and to lines with a label each
(`readable_labelled`).
-/
import Mathlib.Data.List.Basic

namespace Printed

variable {σ α β : Type}

/-- A printed value and the text behind it can be told from the whole. -/
def Readable (D : α → Prop) (K : List σ → Prop) (print : α → List σ) : Prop :=
  ∀ a b, D a → D b → ∀ x y, K x → K y → print a ++ x = print b ++ y → a = b ∧ x = y

section Readable

variable {D : α → Prop} {E : β → Prop} {K L : List σ → Prop} {f : α → List σ} {g : β → List σ}

theorem Readable.mono {D' : α → Prop} (h : Readable D K f) (hd : ∀ a, D' a → D a)
    (hk : ∀ x, L x → K x) : Readable D' L f :=
  fun a b ha hb x y hx hy => h a b (hd a ha) (hd b hb) x y (hk x hx) (hk y hy)

theorem Readable.congr {f' : α → List σ} (h : Readable D K f) (hf : ∀ a, f' a = f a) :
    Readable D K f' := by
  intro a b ha hb x y hx hy he
  rw [hf, hf] at he
  exact h a b ha hb x y hx hy he

/-- With text of its own in front. -/
theorem Readable.after (h : Readable D K f) (s : List σ) : Readable D K fun a => s ++ f a := by
  intro a b ha hb x y hx hy he
  rw [List.append_assoc, List.append_assoc] at he
  exact h a b ha hb x y hx hy (List.append_cancel_left he)

/-- With text of its own behind it. -/
theorem Readable.before (h : Readable D K f) (s : List σ) (hs : ∀ x, L x → K (s ++ x)) :
    Readable D L fun a => f a ++ s := by
  intro a b ha hb x y hx hy he
  rw [List.append_assoc, List.append_assoc] at he
  obtain ⟨rfl, hrest⟩ := h a b ha hb _ _ (hs x hx) (hs y hy) he
  exact ⟨rfl, List.append_cancel_left hrest⟩

/-- One behind the other. -/
theorem Readable.append (hf : Readable D K f) (hg : Readable E L g)
    (hk : ∀ b x, E b → L x → K (g b ++ x)) :
    Readable (fun p : α × β => D p.1 ∧ E p.2) L fun p => f p.1 ++ g p.2 := by
  rintro ⟨a, b⟩ ⟨a', b'⟩ ⟨ha, hb⟩ ⟨ha', hb'⟩ x y hx hy he
  rw [List.append_assoc, List.append_assoc] at he
  obtain ⟨rfl, hrest⟩ := hf a a' ha ha' _ _ (hk b x hb hx) (hk b' y hb' hy) he
  obtain ⟨rfl, hxy⟩ := hg b b' hb hb' x y hx hy hrest
  exact ⟨rfl, hxy⟩

/-- Of a value that something else is printed of. -/
theorem Readable.comap (h : Readable E K g) {e : α → β} (hd : ∀ a, D a → E (e a))
    (hinj : ∀ a b, D a → D b → e a = e b → a = b) : Readable D K fun a => g (e a) := by
  intro a b ha hb x y hx hy he
  obtain ⟨hab, hxy⟩ := h (e a) (e b) (hd a ha) (hd b hb) x y hx hy he
  exact ⟨hinj a b ha hb hab, hxy⟩

/-- A list of values, each of which begins in a way in which the text behind the list does not. -/
theorem Readable.flatMap (h : Readable D K f) {B : List σ → Prop}
    (hbegin : ∀ a x, D a → B (f a ++ x)) (hk : ∀ x, B x → K x) :
    Readable (fun l : List α => ∀ a ∈ l, D a) (fun x => K x ∧ ¬ B x) fun l => l.flatMap f := by
  have hrest : ∀ (l : List α) (x : List σ), (∀ a ∈ l, D a) → K x → K (l.flatMap f ++ x) := by
    intro l x hl hx
    cases l with
    | nil => exact hx
    | cons a l =>
      rw [List.flatMap_cons, List.append_assoc]
      exact hk _ (hbegin a _ (hl a List.mem_cons_self))
  intro l
  induction l with
  | nil =>
    intro l' _ hl' x y hx hy he
    dsimp only at he
    cases l' with
    | nil => exact ⟨rfl, he⟩
    | cons b l' =>
      rw [List.flatMap_nil, List.nil_append, List.flatMap_cons, List.append_assoc] at he
      exact absurd (he ▸ hbegin b _ (hl' b List.mem_cons_self)) hx.2
  | cons a l ih =>
    intro l' hl hl' x y hx hy he
    obtain ⟨ha, hl⟩ := List.forall_mem_cons.mp hl
    dsimp only at he
    cases l' with
    | nil =>
      rw [List.flatMap_nil, List.nil_append, List.flatMap_cons, List.append_assoc] at he
      exact absurd (he ▸ hbegin a _ ha) hy.2
    | cons b l' =>
      obtain ⟨hb, hbs⟩ := List.forall_mem_cons.mp hl'
      rw [List.flatMap_cons, List.flatMap_cons, List.append_assoc, List.append_assoc] at he
      obtain ⟨rfl, htail⟩ := h a b ha hb _ _ (hrest l x hl hx.1) (hrest l' y hbs hy.1) he
      obtain ⟨rfl, hxy⟩ := ih l' hl hbs x y hx hy htail
      exact ⟨rfl, hxy⟩

end Readable

/-! ## 1. Words -/

/-- A word ends where the text behind it begins, if that begins with a character that no word
has. -/
theorem readable_word (P : σ → Prop) :
    Readable (fun w : List σ => ∀ c ∈ w, ¬ P c) (fun x => ∀ c ∈ x.head?, P c) fun w => w := by
  intro w
  induction w with
  | nil =>
    intro w' _ hw' x y hx _ he
    cases w' with
    | nil => exact ⟨rfl, he⟩
    | cons c w' =>
      rw [List.nil_append] at he
      exact absurd (hx c (he ▸ rfl)) (hw' c List.mem_cons_self)
  | cons c w ih =>
    intro w' hw hw' x y hx hy he
    cases w' with
    | nil =>
      rw [List.nil_append] at he
      exact absurd (hy c (he ▸ rfl)) (hw c List.mem_cons_self)
    | cons c' w' =>
      obtain ⟨rfl, htail⟩ := List.cons.inj he
      obtain ⟨rfl, hxy⟩ := ih w' (fun c hc => hw c (List.mem_cons_of_mem _ hc))
        (fun c hc => hw' c (List.mem_cons_of_mem _ hc)) x y hx hy htail
      exact ⟨rfl, hxy⟩

/-! ## 2. Numbers -/

/-- `%u`. -/
def printU (n : Nat) : List Char := Nat.toDigits 10 n

/-- `%d`. -/
def printD (i : Int) : List Char := if i < 0 then '-' :: printU i.natAbs else printU i.natAbs

theorem isDigit_of_mem_printU {n : Nat} {c : Char} (hc : c ∈ printU n) : c.isDigit = true :=
  Nat.isDigit_of_mem_toDigits (by decide) (by decide) hc

theorem printU_injective : Function.Injective printU :=
  Function.LeftInverse.injective (g := fun l => Nat.ofDigitChars 10 l 0) fun _ =>
    Nat.ofDigitChars_ten_toDigits

/-- What the characters of a number are. -/
def isNumeral (c : Char) : Prop := c.isDigit = true ∨ c = '-'

theorem isNumeral_of_mem_printD {i : Int} {c : Char} (hc : c ∈ printD i) : isNumeral c := by
  unfold printD at hc
  split at hc
  · rcases List.mem_cons.mp hc with rfl | hc
    · exact Or.inr rfl
    · exact Or.inl (isDigit_of_mem_printU hc)
  · exact Or.inl (isDigit_of_mem_printU hc)

theorem printD_injective : Function.Injective printD := by
  have hsign : ∀ {n : Nat} {l : List Char}, printU n ≠ '-' :: l := fun {n l} he => by
    have hc : '-' ∈ printU n := by
      rw [he]
      exact List.mem_cons_self
    exact absurd (isDigit_of_mem_printU hc) (by decide)
  intro i j he
  unfold printD at he
  split at he <;> split at he
  · have := printU_injective (List.cons.inj he).2
    omega
  · exact absurd he.symm hsign
  · exact absurd he hsign
  · have := printU_injective he
    omega

theorem readable_printD : Readable (fun _ => True) (fun x => ∀ c ∈ x.head?, ¬ isNumeral c) printD :=
  (readable_word fun c => ¬ isNumeral c).comap
    (fun _ _ _ hc => not_not.mpr (isNumeral_of_mem_printD hc)) fun _ _ _ _ he => printD_injective he

theorem readable_printU :
    Readable (fun _ => True) (fun x => ∀ c ∈ x.head?, ¬ c.isDigit = true) printU :=
  (readable_word fun c => ¬ c.isDigit = true).comap
    (fun _ _ _ hc => not_not.mpr (isDigit_of_mem_printU hc)) fun _ _ _ _ he => printU_injective he

/-! ## 3. Lines -/

/-- Lines with a label and a word each, which end with `nl`. -/
def labelled (nl : σ) (labels words : List (List σ)) : List σ :=
  (labels.zip words).flatMap fun p => p.1 ++ p.2 ++ [nl]

theorem labelled_cons_append (nl : σ) (label word : List σ) (labels words : List (List σ))
    (x : List σ) : labelled nl (label :: labels) (word :: words) ++ x
      = label ++ (word ++ (nl :: (labelled nl labels words ++ x))) := by
  simp [labelled]

theorem readable_labelled (nl : σ) : ∀ labels : List (List σ),
    Readable (fun words : List (List σ) => words.length = labels.length ∧ ∀ w ∈ words, nl ∉ w)
      (fun _ => True) (labelled nl labels) := by
  intro labels
  induction labels with
  | nil =>
    rintro w w' ⟨hw, -⟩ ⟨hw', -⟩ x y - - he
    rw [List.length_eq_zero_iff.mp hw, List.length_eq_zero_iff.mp hw'] at *
    exact ⟨rfl, he⟩
  | cons label labels ih =>
    rintro w w' ⟨hlen, hw⟩ ⟨hlen', hw'⟩ x y - - he
    obtain ⟨a, w, rfl⟩ := List.exists_cons_of_length_eq_add_one hlen
    obtain ⟨b, w', rfl⟩ := List.exists_cons_of_length_eq_add_one hlen'
    obtain ⟨ha, has⟩ := List.forall_mem_cons.mp hw
    obtain ⟨hb, hbs⟩ := List.forall_mem_cons.mp hw'
    rw [labelled_cons_append, labelled_cons_append] at he
    obtain ⟨rfl, htail⟩ := readable_word (· = nl) a b (fun c hc hn => ha (hn ▸ hc))
      (fun c hc hn => hb (hn ▸ hc)) _ _ (by simp) (by simp) (List.append_cancel_left he)
    obtain ⟨rfl, hxy⟩ := ih w w' ⟨Nat.succ.inj hlen, has⟩ ⟨Nat.succ.inj hlen', hbs⟩ x y trivial
      trivial (List.cons.inj htail).2
    exact ⟨rfl, hxy⟩

end Printed
