/-
# Lists searched by a key

A table that is kept as a list and searched from the front: `find` returns the first element
with the key, `adjust` changes that element where it stands, `List.eraseP` takes it out.
`Unique` says that no key occurs twice; under it the first element with a key is the only one
(`find_of_mem`), and each of the three ways to change the list keeps it
(`Unique.adjust`, `Unique.append`, `Unique.sublist`).
-/
import Mathlib.Data.List.Basic
import Mathlib.Data.List.Nodup

namespace KeyedList

variable {α κ β : Type} [DecidableEq κ] (key : α → κ)

/-- The first element with the key. -/
def find (k : κ) (l : List α) : Option α := l.find? (fun x => key x = k)

/-- Change the first element with the key, in place. -/
def adjust (k : κ) (f : α → α) : List α → List α
  | [] => []
  | x :: next => if key x = k then f x :: next else x :: adjust k f next

/-- No two elements have the same key. -/
def Unique (l : List α) : Prop := (l.map key).Nodup

variable {key}

/-! ## 1. What `find` finds -/

@[simp] theorem find_nil (k : κ) : find key k [] = none := rfl

theorem find_cons_eq {k : κ} {x : α} (l : List α) (h : key x = k) :
    find key k (x :: l) = some x := by
  simp [find, h]

theorem find_cons_ne {k : κ} {x : α} (l : List α) (h : key x ≠ k) :
    find key k (x :: l) = find key k l := by
  simp [find, h]

theorem mem_of_find {k : κ} {l : List α} {x : α} (h : find key k l = some x) : x ∈ l :=
  List.mem_of_find?_eq_some h

theorem key_of_find {k : κ} {l : List α} {x : α} (h : find key k l = some x) : key x = k := by
  simpa using List.find?_some h

theorem find_eq_none {k : κ} {l : List α} : find key k l = none ↔ ∀ x ∈ l, key x ≠ k := by
  simp [find]

/-- Under unique keys, an element is what the search for its key finds. -/
theorem find_of_mem {l : List α} (hu : Unique key l) {x : α} (hx : x ∈ l) :
    find key (key x) l = some x := by
  induction l with
  | nil => simp at hx
  | cons y t ih =>
    have hnd := List.nodup_cons.mp hu
    rcases List.mem_cons.mp hx with rfl | hx
    · exact find_cons_eq t rfl
    · have hne : key y ≠ key x := fun e => hnd.1 (e ▸ List.mem_map_of_mem hx)
      rw [find_cons_ne t hne]
      exact ih hnd.2 hx

theorem find_append (k : κ) (l m : List α) :
    find key k (l ++ m) = (find key k l).or (find key k m) := by
  simp [find, List.find?_append]

/-- The search in a list of images that keep the key. -/
theorem find_map {key' : β → κ} {s : α → β} (hs : ∀ x, key' (s x) = key x) (k : κ) (l : List α) :
    find key' k (l.map s) = (find key k l).map s := by
  have hkey : (fun y => decide (key' y = k)) ∘ s = fun x => decide (key x = k) := by
    funext x
    show decide (key' (s x) = k) = decide (key x = k)
    rw [hs]
  rw [find, find, List.find?_map, hkey]

/-- An element at the end is found where no other one is. -/
theorem find_concat_eq {k : κ} {l : List α} {x : α} (hl : find key k l = none) (hx : key x = k) :
    find key k (l ++ [x]) = some x := by
  rw [find_append, hl, find_cons_eq [] hx, Option.none_or]

theorem find_concat_ne {k : κ} (l : List α) {x : α} (hx : key x ≠ k) :
    find key k (l ++ [x]) = find key k l := by
  rw [find_append, find_cons_ne [] hx, find_nil, Option.or_none]

/-! ## 2. What `adjust` does -/

/-- Nothing has the key: nothing changes. -/
theorem adjust_of_find_none {k : κ} (f : α → α) : ∀ {l : List α}, find key k l = none →
    adjust key k f l = l
  | [], _ => rfl
  | x :: t, h => by
    have hx : key x ≠ k := find_eq_none.mp h x List.mem_cons_self
    rw [find_cons_ne t hx] at h
    rw [adjust, if_neg hx, adjust_of_find_none f h]

/-- What the change keeps of every element, it keeps of the list. -/
theorem map_adjust {k : κ} {f : α → α} {g : α → β} (hg : ∀ x, g (f x) = g x) : ∀ l : List α,
    (adjust key k f l).map g = l.map g
  | [] => rfl
  | x :: t => by
    rw [adjust]
    split
    · simp [hg]
    · simp [map_adjust hg t]

/-- The element with the key was just put at the end. -/
theorem adjust_concat {k : κ} (f : α → α) {x : α} (hx : key x = k) : ∀ {l : List α},
    find key k l = none → adjust key k f (l ++ [x]) = l ++ [f x]
  | [], _ => if_pos hx
  | y :: t, h => by
    have hy : key y ≠ k := find_eq_none.mp h y List.mem_cons_self
    rw [find_cons_ne t hy] at h
    rw [List.cons_append, adjust, if_neg hy, adjust_concat f hx h, List.cons_append]

/-- The first element with the key is somewhere in the middle. -/
theorem adjust_middle {k : κ} (f : α → α) {x : α} (hx : key x = k) (post : List α) :
    ∀ {pre : List α}, (∀ y ∈ pre, key y ≠ k) →
      adjust key k f (pre ++ x :: post) = pre ++ f x :: post
  | [], _ => if_pos hx
  | y :: pre, h => by
    rw [List.cons_append, adjust, if_neg (h y List.mem_cons_self),
      adjust_middle f hx post fun z hz => h z (List.mem_cons_of_mem y hz), List.cons_append]

section Keep

variable {k : κ} {f : α → α} (hf : ∀ x, key (f x) = key x)

include hf

theorem map_key_adjust (l : List α) : (adjust key k f l).map key = l.map key := map_adjust hf l

theorem Unique.adjust {l : List α} (h : Unique key l) : Unique key (adjust key k f l) := by
  rw [Unique, map_key_adjust hf]
  exact h

theorem find_adjust_same : ∀ l : List α,
    find key k (KeyedList.adjust key k f l) = (find key k l).map f
  | [] => rfl
  | x :: t => by
    rw [KeyedList.adjust]
    split
    · rename_i h
      rw [find_cons_eq _ (by rw [hf, h]), find_cons_eq t h]
      rfl
    · rename_i h
      rw [find_cons_ne _ h, find_cons_ne t h, find_adjust_same t]

theorem find_adjust_of_ne {k' : κ} (hk : k' ≠ k) : ∀ l : List α,
    find key k' (KeyedList.adjust key k f l) = find key k' l
  | [] => rfl
  | x :: t => by
    rw [KeyedList.adjust]
    split
    · rename_i h
      have hx : key x ≠ k' := fun e => hk (e.symm.trans h)
      rw [find_cons_ne _ (by rw [hf]; exact hx), find_cons_ne t hx]
    · rename_i h
      by_cases hx : key x = k'
      · rw [find_cons_eq _ hx, find_cons_eq t hx]
      · rw [find_cons_ne _ hx, find_cons_ne t hx, find_adjust_of_ne hk t]

end Keep

@[simp] theorem adjust_id (k : κ) : ∀ l : List α, adjust key k id l = l
  | [] => rfl
  | x :: t => by
    rw [adjust]
    split
    · rfl
    · rw [adjust_id k t]

/-- Only the value at the element that is found matters. -/
theorem adjust_congr {k : κ} {f g : α → α} : ∀ {l : List α},
    (∀ x, find key k l = some x → f x = g x) → adjust key k f l = adjust key k g l
  | [], _ => rfl
  | x :: t, h => by
    rw [adjust, adjust]
    split
    · rename_i hx
      rw [h x (find_cons_eq t hx)]
    · rename_i hx
      rw [adjust_congr (fun y hy => h y ((find_cons_ne t hx).trans hy))]

/-- Two changes to the same element are one. -/
theorem adjust_adjust {k : κ} {f g : α → α} (hf : ∀ x, key (f x) = key x) : ∀ l : List α,
    adjust key k g (adjust key k f l) = adjust key k (fun x => g (f x)) l
  | [] => rfl
  | x :: t => by
    rw [adjust, adjust]
    split
    · rename_i hx
      rw [adjust, if_pos (by rw [hf, hx])]
    · rename_i hx
      rw [adjust, if_neg hx, adjust_adjust hf t]

/-- An adjustment and the images of a map that commute can be exchanged. -/
theorem map_adjust_comm {key' : β → κ} {s : α → β} (hs : ∀ x, key' (s x) = key x) {k : κ}
    {f : α → α} {f' : β → β} (hf : ∀ x, s (f x) = f' (s x)) : ∀ l : List α,
    (adjust key k f l).map s = adjust key' k f' (l.map s)
  | [] => rfl
  | x :: t => by
    rw [adjust, List.map_cons, adjust, hs]
    split
    · rw [List.map_cons, hf]
    · rw [List.map_cons, map_adjust_comm hs hf t]

/-- An adjustment changes nothing exactly if it does not change what it finds. -/
theorem adjust_eq_self_iff {k : κ} {f : α → α} : ∀ {l : List α},
    adjust key k f l = l ↔ ∀ x, find key k l = some x → f x = x
  | [] => by simp [adjust]
  | x :: t => by
    rw [adjust]
    split
    · rename_i hx
      rw [find_cons_eq t hx]
      simp
    · rename_i hx
      rw [find_cons_ne t hx, ← adjust_eq_self_iff, List.cons.injEq]
      exact and_iff_right rfl

/-- Changes to elements with different keys can be exchanged. -/
theorem adjust_comm {k k' : κ} (hk : k ≠ k') {f g : α → α} (hf : ∀ x, key (f x) = key x)
    (hg : ∀ x, key (g x) = key x) : ∀ l : List α,
    adjust key k' g (adjust key k f l) = adjust key k f (adjust key k' g l)
  | [] => rfl
  | x :: t => by
    by_cases hx : key x = k
    · have hx' : key x ≠ k' := fun e => hk (hx.symm.trans e)
      rw [adjust, if_pos hx, adjust, if_neg (by rwa [hf]), adjust, if_neg hx', adjust, if_pos hx]
    · by_cases hx' : key x = k'
      · rw [adjust, if_neg hx, adjust, if_pos hx', adjust, if_pos hx', adjust, if_neg (by rwa [hg])]
      · rw [adjust, if_neg hx, adjust, if_neg hx', adjust, if_neg hx', adjust, if_neg hx,
          adjust_comm hk hf hg t]

/-- An element of the adjusted list is an old one, or the new value of one with the key. -/
theorem mem_adjust {k : κ} {f : α → α} {y : α} : ∀ {l : List α}, y ∈ adjust key k f l →
    y ∈ l ∨ ∃ x ∈ l, key x = k ∧ y = f x
  | [], h => by simp [adjust] at h
  | x :: t, h => by
    rw [adjust] at h
    split at h
    · rename_i hx
      rcases List.mem_cons.mp h with rfl | h
      · exact Or.inr ⟨x, List.mem_cons_self, hx, rfl⟩
      · exact Or.inl (List.mem_cons_of_mem _ h)
    · rcases List.mem_cons.mp h with rfl | h
      · exact Or.inl List.mem_cons_self
      · rcases mem_adjust h with h | ⟨z, hz, hk, rfl⟩
        · exact Or.inl (List.mem_cons_of_mem _ h)
        · exact Or.inr ⟨z, List.mem_cons_of_mem _ hz, hk, rfl⟩

/-- A property of all elements survives an adjustment that keeps it. -/
theorem forall_mem_adjust {k : κ} {f : α → α} {P : α → Prop} {l : List α}
    (h : ∀ x ∈ l, P x) (hf : ∀ x ∈ l, key x = k → P (f x)) : ∀ y ∈ adjust key k f l, P y := by
  intro y hy
  rcases mem_adjust hy with hy | ⟨x, hx, hk, rfl⟩
  · exact h y hy
  · exact hf x hx hk

@[simp] theorem length_adjust (k : κ) (f : α → α) : ∀ l : List α,
    (adjust key k f l).length = l.length
  | [] => rfl
  | x :: t => by
    rw [adjust]
    split
    · rfl
    · simp [length_adjust k f t]

/-- Under unique keys `adjust` is a map over the whole list. -/
theorem adjust_eq_map {k : κ} {f : α → α} : ∀ {l : List α}, Unique key l →
    adjust key k f l = l.map (fun x => if key x = k then f x else x)
  | [], _ => rfl
  | x :: t, hu => by
    have hnd := List.nodup_cons.mp hu
    rw [adjust, List.map_cons]
    split
    · rename_i hx
      have : t.map (fun y => if key y = k then f y else y) = t := by
        refine (List.map_congr_left fun y hy => ?_).trans (List.map_id t)
        have hne : key y ≠ k := fun e => hnd.1 (by rw [hx, ← e]; exact List.mem_map_of_mem hy)
        rw [if_neg hne, id]
      rw [this]
    · rw [adjust_eq_map hnd.2]

/-! ## 3. Unique keys -/

omit [DecidableEq κ] in
@[simp] theorem unique_nil : Unique key [] := List.nodup_nil

omit [DecidableEq κ] in
theorem Unique.sublist {l m : List α} (h : Unique key m) (hs : l.Sublist m) : Unique key l :=
  List.Nodup.sublist (hs.map key) h

/-- A new element goes to the end once the search for its key has failed. -/
theorem Unique.append {l : List α} (h : Unique key l) {x : α} (hx : find key (key x) l = none) :
    Unique key (l ++ [x]) := by
  rw [Unique, List.map_append, List.map_singleton]
  refine List.Nodup.append h (List.nodup_singleton _) ?_
  rw [List.disjoint_singleton]
  intro hm
  obtain ⟨y, hy, hyk⟩ := List.mem_map.mp hm
  exact find_eq_none.mp hx y hy hyk

/-! ## 4. Searching what is left after elements were taken out -/

/-- A sweep that changes or drops elements: what is found is what becomes of what was found. -/
theorem find_filterMap {f : α → Option α} (hf : ∀ x y, f x = some y → key y = key x) (k : κ) :
    ∀ {l : List α}, Unique key l → find key k (l.filterMap f) = (find key k l).bind f
  | [], _ => rfl
  | x :: t, hu => by
    have hnd := List.nodup_cons.mp hu
    have ih := find_filterMap hf k (l := t) hnd.2
    by_cases hx : key x = k
    · rw [find_cons_eq t hx, Option.bind_some]
      cases h : f x with
      | none =>
        -- no other element has the key
        have ht : find key k t = none := find_eq_none.mpr fun y hy hk =>
          hnd.1 (by rw [hx, ← hk]; exact List.mem_map_of_mem hy)
        rw [List.filterMap_cons_none h, ih, ht, Option.bind_none]
      | some y =>
        rw [List.filterMap_cons_some h, find_cons_eq _ ((hf x y h).trans hx)]
    · rw [find_cons_ne t hx]
      cases h : f x with
      | none => rw [List.filterMap_cons_none h, ih]
      | some y =>
        rw [List.filterMap_cons_some h, find_cons_ne _ (fun e => hx ((hf x y h).symm.trans e)), ih]

theorem find_filter (p : α → Bool) (k : κ) {l : List α} (hu : Unique key l) :
    find key k (l.filter p) = (find key k l).filter p := by
  have h := find_filterMap (f := Option.guard p)
    (fun x y h => by rw [(Option.guard_eq_some_iff.mp h).1]) k hu
  rw [List.filterMap_eq_filter] at h
  rw [h]
  cases find key k l <;> simp [Option.guard, Option.filter]

/-- The element with the key is taken out: it is gone, the others are found as before. -/
theorem find_eraseP (k k' : κ) : ∀ {l : List α}, Unique key l →
    find key k' (l.eraseP (fun x => key x = k)) = if k' = k then none else find key k' l
  | [], _ => by simp
  | x :: t, hu => by
    have hnd := List.nodup_cons.mp hu
    by_cases hx : key x = k
    · rw [List.eraseP_cons_of_pos (by simpa using hx)]
      split
      · rename_i hk
        exact find_eq_none.mpr fun y hy hy' =>
          hnd.1 (by rw [hx, ← hk, ← hy']; exact List.mem_map_of_mem hy)
      · rename_i hk
        rw [find_cons_ne t (fun e => hk (e.symm.trans hx))]
    · rw [List.eraseP_cons_of_neg (by simpa using hx)]
      by_cases hx' : key x = k'
      · rw [find_cons_eq _ hx', find_cons_eq _ hx', if_neg (fun e => hx (hx'.trans e))]
      · rw [find_cons_ne _ hx', find_cons_ne _ hx', find_eraseP k k' hnd.2]

/-! ## 5. What is made of the elements -/

omit [DecidableEq κ] in
/-- What is made of elements with different keys is different, if it tells the keys. -/
theorem Unique.nodup_flatMap {l : List α} (hu : Unique key l) {f : α → List β} (key' : β → κ)
    (hkey : ∀ x ∈ l, ∀ y ∈ f x, key' y = key x) (hf : ∀ x ∈ l, (f x).Nodup) :
    (l.flatMap f).Nodup := by
  refine List.nodup_flatMap.mpr ⟨hf, (List.pairwise_map.mp hu).imp_of_mem ?_⟩
  intro x x' hx hx' hne y hy hy'
  exact hne ((hkey x hx y hy).symm.trans (hkey x' hx' y hy'))

omit [DecidableEq κ] in
/-- Keys of what is made of some of the elements, if they tell the elements' keys. -/
theorem Unique.filterMap {κ' : Type} {l : List α} (hu : Unique key l) {f : α → Option β}
    {key' : β → κ'} (hkey : ∀ x x' y y', f x = some y → f x' = some y' → key' y = key' y' →
      key x = key x') : Unique key' (l.filterMap f) := by
  refine List.pairwise_map.mpr (List.pairwise_filterMap.mpr ?_)
  refine (List.pairwise_map.mp hu).imp fun hne y hy y' hy' he => ?_
  exact hne (hkey _ _ y y' hy hy' he)

end KeyedList
