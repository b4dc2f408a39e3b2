/-
# What the records of a group tell

The body of the innermost loop of `mld2_send_report`, without its buffer.  Of the buffer it only
sees two things, whether the source stands in the place that the scan looks at and whether the
packet is full (`Look`); the records of a group are a run over what it sees (`gather`).

The records tell what the group wants exactly if `Tells` holds of what was seen: `::` comes last,
a group that wants `::` is neither split nor interrupted by the scan, and in the other groups every
source is looked at once without being taken for a repetition.
-/
import Ecmh.ReportBuffer
import Ecmh.Lib.Runs

namespace Ecmh

/-! ## 1. The loop for a group, without its buffer -/

/-- What the body sees at a subscription: its source, whether the scan takes it for a repetition,
and whether the packet is full. -/
structure Look where
  ipv6 : In6Addr
  hit : Bool
  full : Bool
  deriving DecidableEq

/-- The records so far, and whether `src` is set. -/
structure Gather where
  recs : List Grec
  source : Bool
  deriving DecidableEq

/-- The record of a group that wants everything. -/
def allRecord (mca : In6Addr) : Grec := ⟨mld2ModeIsExclude, mca, []⟩

/-- The record that is opened for a source. -/
def firstRecord (mca ipv6 : In6Addr) : Grec :=
  if ipv6 = In6Addr.any then allRecord mca else ⟨mld2ModeIsInclude, mca, [ipv6]⟩

/-- A record is opened. -/
def Gather.opens (mca : In6Addr) (g : Gather) (ipv6 : In6Addr) : Gather :=
  ⟨g.recs ++ [firstRecord mca ipv6], ipv6 ≠ In6Addr.any⟩

/-- One subscription. -/
def Gather.look (mca : In6Addr) (g : Gather) (x : Look) : Gather :=
  if g.source = false then g.opens mca x.ipv6
  else if x.ipv6 = In6Addr.any then
    ⟨ReportLoop.setLast (fun r => { r with grecType := mld2ModeIsExclude, srcs := [] }) g.recs,
      false⟩
  else if x.hit = true then { g with source := false }
  else if x.full = true then g.opens mca x.ipv6
  else
    ⟨ReportLoop.setLast
      (fun r => { r with grecType := mld2ModeIsInclude, srcs := r.srcs ++ [x.ipv6] }) g.recs, true⟩

/-- The subscriptions of a group. -/
def gather (mca : In6Addr) (xs : List Look) : Gather := Runs.run (Gather.look mca) ⟨[], false⟩ xs

section Look

variable {mca : In6Addr} {g : Gather} {x : Look}

theorem Gather.look_opens (h : g.source = false) : g.look mca x = g.opens mca x.ipv6 := if_pos h

theorem Gather.look_collapse {p : List Grec} {r : Grec} (h : g.source = true)
    (hany : x.ipv6 = In6Addr.any) (hr : g.recs = p ++ [r]) :
    g.look mca x = ⟨p ++ [{ r with grecType := mld2ModeIsExclude, srcs := [] }], false⟩ := by
  rw [look, if_neg (by simp [h]), if_pos hany, hr, setLast_concat]

theorem Gather.look_dropped (h : g.source = true) (hany : x.ipv6 ≠ In6Addr.any)
    (hhit : x.hit = true) : g.look mca x = { g with source := false } := by
  rw [look, if_neg (by simp [h]), if_neg hany, if_pos hhit]

theorem Gather.look_split (h : g.source = true) (hany : x.ipv6 ≠ In6Addr.any)
    (hhit : x.hit = false) (hfull : x.full = true) : g.look mca x = g.opens mca x.ipv6 := by
  rw [look, if_neg (by simp [h]), if_neg hany, if_neg (by simp [hhit]), if_pos hfull]

theorem Gather.look_adds {p : List Grec} {r : Grec} (h : g.source = true)
    (hany : x.ipv6 ≠ In6Addr.any) (hhit : x.hit = false) (hfull : x.full = false)
    (hr : g.recs = p ++ [r]) : g.look mca x
      = ⟨p ++ [{ r with grecType := mld2ModeIsInclude, srcs := r.srcs ++ [x.ipv6] }], true⟩ := by
  rw [look, if_neg (by simp [h]), if_neg hany, if_neg (by simp [hhit]), if_neg (by simp [hfull]),
    hr, setLast_concat]

/-- What is seen of the buffer decides on `src`, whatever the records are. -/
theorem Gather.look_source {g' : Gather} (h : g.source = g'.source) :
    (g.look mca x).source = (g'.look mca x).source := by
  unfold look
  rw [h]
  split
  · rfl
  · split
    · rfl
    · split
      · rfl
      · split <;> rfl

/-- While `src` is set there is a record that it belongs to. -/
def Gather.Ok (g : Gather) : Prop := g.source = true → g.recs ≠ []

/-- **What a subscription can do to the records.** -/
inductive Gather.LookStep (mca : In6Addr) (g : Gather) (x : Look) : Gather → Prop
  | opens (h : g.source = true → x.ipv6 ≠ In6Addr.any ∧ x.hit = false) :
      LookStep mca g x (g.opens mca x.ipv6)
  | collapse (pre : List Grec) (r : Grec) (hany : x.ipv6 = In6Addr.any)
      (hr : g.recs = pre ++ [r]) :
      LookStep mca g x ⟨pre ++ [{ r with grecType := mld2ModeIsExclude, srcs := [] }], false⟩
  | dropped (hany : x.ipv6 ≠ In6Addr.any) (hhit : x.hit = true) :
      LookStep mca g x { g with source := false }
  | adds (pre : List Grec) (r : Grec) (hany : x.ipv6 ≠ In6Addr.any) (hhit : x.hit = false)
      (hr : g.recs = pre ++ [r]) :
      LookStep mca g x
        ⟨pre ++ [{ r with grecType := mld2ModeIsInclude, srcs := r.srcs ++ [x.ipv6] }], true⟩

theorem Gather.look_step (hok : g.Ok) : LookStep mca g x (g.look mca x) := by
  cases hs : g.source with
  | false =>
    rw [look_opens hs]
    exact .opens fun h => absurd (hs.symm.trans h) (by simp)
  | true =>
    obtain ⟨pre, r, hr⟩ : ∃ pre r, g.recs = pre ++ [r] := by
      rcases List.eq_nil_or_concat g.recs with hnil | ⟨pre, r, hr⟩
      · exact absurd hnil (hok hs)
      · exact ⟨pre, r, by rw [hr, List.concat_eq_append]⟩
    by_cases hany : x.ipv6 = In6Addr.any
    · rw [look_collapse hs hany hr]
      exact .collapse pre r hany hr
    · cases hhit : x.hit with
      | true =>
        rw [look_dropped hs hany hhit]
        exact .dropped hany hhit
      | false =>
        cases hfull : x.full with
        | true =>
          rw [look_split hs hany hhit hfull]
          exact .opens fun _ => ⟨hany, hhit⟩
        | false =>
          rw [look_adds hs hany hhit hfull hr]
          exact .adds pre r hany hhit hr

theorem Gather.look_ok (hok : g.Ok) : (g.look mca x).Ok := by
  have hstep : LookStep mca g x (g.look mca x) := look_step hok
  generalize g.look mca x = g' at hstep
  cases hstep with
  | opens _ => exact fun _ => by simp [opens]
  | collapse pre r _ _ => exact fun _ => by simp
  | dropped _ _ => exact fun hs => by cases hs
  | adds pre r _ _ _ => exact fun _ => by simp

/-- The number of records does not go down. -/
theorem Gather.look_length (hok : g.Ok) : g.recs.length ≤ (g.look mca x).recs.length := by
  have hstep : LookStep mca g x (g.look mca x) := look_step hok
  generalize g.look mca x = g' at hstep
  cases hstep with
  | opens _ => simp [opens]
  | collapse pre r _ hr => simp [hr]
  | dropped _ _ => exact Nat.le_refl _
  | adds pre r _ _ hr => simp [hr]

theorem Gather.look_mca (hok : g.Ok) (hm : ∀ r ∈ g.recs, r.grecMca = mca) :
    ∀ r ∈ (g.look mca x).recs, r.grecMca = mca := by
  have hstep : LookStep mca g x (g.look mca x) := look_step hok
  generalize g.look mca x = g' at hstep
  cases hstep with
  | opens _ =>
    simp only [opens, List.forall_mem_append, List.forall_mem_singleton]
    refine ⟨hm, ?_⟩
    unfold firstRecord
    split <;> rfl
  | collapse pre r _ hr =>
    rw [hr] at hm
    simpa only [List.forall_mem_append, List.forall_mem_singleton] using hm
  | dropped _ _ => exact hm
  | adds pre r _ _ hr =>
    rw [hr] at hm
    simpa only [List.forall_mem_append, List.forall_mem_singleton] using hm

/-- The records of the groups before are not touched. -/
theorem Gather.look_frame (hok : g.Ok) (pre : List Grec) :
    (⟨pre ++ g.recs, g.source⟩ : Gather).look mca x
      = ⟨pre ++ (g.look mca x).recs, (g.look mca x).source⟩ := by
  have hset : ∀ f, g.source = true →
      ReportLoop.setLast f (pre ++ g.recs) = pre ++ ReportLoop.setLast f g.recs := by
    intro f hs
    rcases List.eq_nil_or_concat g.recs with hnil | ⟨l, r, hr⟩
    · exact absurd hnil (hok hs)
    · rw [hr, List.concat_eq_append, ← List.append_assoc, setLast_concat, setLast_concat,
        List.append_assoc]
  unfold look opens
  by_cases hs : g.source = false
  · simp [hs]
  · rw [Bool.not_eq_false] at hs
    simp only [hs, Bool.true_eq_false, if_false, hset _ hs]
    split
    · rfl
    · split
      · rfl
      · split
        · simp
        · rfl

end Look

/-! ## 2. Runs -/

section Run

variable {mca : In6Addr}

theorem Gather.run_length {g : Gather} (hok : g.Ok) (xs : List Look) :
    g.recs.length ≤ (Runs.run (look mca) g xs).recs.length :=
  (Runs.run_invariant (P := fun g' : Gather => g'.Ok ∧ g.recs.length ≤ g'.recs.length)
    (fun _ _ h => ⟨look_ok h.1, Nat.le_trans h.2 (look_length h.1)⟩) xs g
    ⟨hok, Nat.le_refl _⟩).2

theorem Gather.run_frame {pre : List Grec} : ∀ (xs : List Look) {g : Gather}, g.Ok →
    Runs.run (look mca) ⟨pre ++ g.recs, g.source⟩ xs
      = ⟨pre ++ (Runs.run (look mca) g xs).recs, (Runs.run (look mca) g xs).source⟩ := by
  intro xs
  induction xs with
  | nil => exact fun _ => rfl
  | cons x xs ih =>
    intro g hok
    rw [Runs.run_cons, look_frame hok, ih (look_ok hok), Runs.run_cons]

theorem gather_ok : (⟨[], false⟩ : Gather).Ok := fun h => by cases h

theorem gather_mca (xs : List Look) : ∀ r ∈ (gather mca xs).recs, r.grecMca = mca :=
  (Runs.run_invariant (P := fun g : Gather => g.Ok ∧ ∀ r ∈ g.recs, r.grecMca = mca)
    (fun _ _ h => ⟨Gather.look_ok h.1, Gather.look_mca h.1 h.2⟩) xs ⟨[], false⟩
    ⟨gather_ok, by simp⟩).2

theorem gather_cons (x : Look) (xs : List Look) : gather mca (x :: xs)
    = Runs.run (Gather.look mca) ⟨[firstRecord mca x.ipv6], x.ipv6 ≠ In6Addr.any⟩ xs := rfl

/-- Every group that is looked at gets a record. -/
theorem gather_eq_nil {xs : List Look} : (gather mca xs).recs = [] ↔ xs = [] := by
  cases xs with
  | nil => exact ⟨fun _ => rfl, fun _ => rfl⟩
  | cons x xs =>
    have h : 1 ≤ (gather mca (x :: xs)).recs.length :=
      Gather.run_length (g := ⟨[firstRecord mca x.ipv6], x.ipv6 ≠ In6Addr.any⟩)
        (by simp [Gather.Ok]) xs
    constructor
    · intro hnil
      rw [hnil] at h
      exact absurd h (by simp)
    · intro hnil
      cases hnil

/-! ## 3. Groups that want everything -/

/-- Behind a record that is not added to, one more is opened. -/
theorem Gather.run_not_single {g : Gather} (hs : g.source = false) (hne : g.recs ≠ []) {x : Look}
    {xs : List Look} (r : Grec) : (Runs.run (look mca) g (x :: xs)).recs ≠ [r] := by
  intro h
  have hok : g.Ok := fun ht => absurd (hs.symm.trans ht) (by simp)
  have hlen : (g.look mca x).recs.length ≤ (Runs.run (look mca) (g.look mca x) xs).recs.length :=
    run_length (look_ok hok) xs
  rw [← Runs.run_cons, h, look_opens hs] at hlen
  simp only [opens, List.length_append, List.length_singleton] at hlen
  have := List.length_pos_iff.mpr hne
  omega

/-- `x` lets the record of a group grow. -/
def Look.grows (x : Look) : Prop := x.ipv6 ≠ In6Addr.any ∧ x.hit = false ∧ x.full = false

/-- From a single record with a source on, a `::` leaves the record of everything only if it comes
last and all in front of it let the record grow. -/
theorem Gather.run_all_iff : ∀ (xs : List Look) {g : Gather} {r : Grec}, g.source = true →
    g.recs = [r] → r.grecMca = mca → (∃ x ∈ xs, x.ipv6 = In6Addr.any) →
    ((Runs.run (look mca) g xs).recs = [allRecord mca] ↔ ∀ x ∈ xs.dropLast, x.grows) := by
  intro xs
  induction xs with
  | nil => exact fun _ _ _ hex => absurd hex (by simp)
  | cons x xs ih =>
    intro g r hs hr hm hex
    by_cases hany : x.ipv6 = In6Addr.any
    · have hlook : g.look mca x = _ := look_collapse (p := []) hs hany hr
      cases xs with
      | nil =>
        rw [Runs.run_cons, hlook]
        simp [allRecord, hm]
      | cons y ys =>
        refine iff_of_false ?_ fun hall => absurd hany (hall x (by simp)).1
        rw [Runs.run_cons, hlook]
        exact run_not_single rfl (by simp) _
    · obtain ⟨y, hy, hyany⟩ := hex
      have hyxs : y ∈ xs := (List.mem_cons.mp hy).resolve_left fun h => hany (h ▸ hyany)
      have hdrop : (x :: xs).dropLast = x :: xs.dropLast :=
        List.dropLast_cons_of_ne_nil (List.ne_nil_of_mem hyxs)
      obtain ⟨z, zs, rfl⟩ := List.exists_cons_of_ne_nil (List.ne_nil_of_mem hyxs)
      rw [hdrop, List.forall_mem_cons, Runs.run_cons]
      by_cases hhit : x.hit = true
      · refine iff_of_false ?_ fun hall => absurd (hhit.symm.trans hall.1.2.1) (by simp)
        rw [look_dropped hs hany hhit]
        exact run_not_single rfl (by simp [hr]) _
      · rw [Bool.not_eq_true] at hhit
        by_cases hfull : x.full = true
        · refine iff_of_false (fun hall => ?_) fun hall =>
            absurd (hfull.symm.trans hall.1.2.2) (by simp)
          have hlen : _ ≤ (Runs.run (look mca) (g.opens mca x.ipv6) (z :: zs)).recs.length :=
            run_length (by simp [Ok, opens]) (z :: zs)
          rw [← look_split hs hany hhit hfull, hall, look_split hs hany hhit hfull, opens,
            hr] at hlen
          simp at hlen
        · rw [Bool.not_eq_true] at hfull
          have hlook : g.look mca x = _ := look_adds (p := []) hs hany hhit hfull hr
          rw [hlook, ih rfl rfl (r := ⟨mld2ModeIsInclude, r.grecMca, r.srcs ++ [x.ipv6]⟩) hm
            ⟨y, hyxs, hyany⟩]
          exact ⟨fun hall => ⟨⟨hany, hhit, hfull⟩, hall⟩, fun hall => hall.2⟩

/-- **When a group that wants everything gets the one record that says so.** -/
theorem gather_all_iff {xs : List Look} (hex : ∃ x ∈ xs, x.ipv6 = In6Addr.any) :
    (gather mca xs).recs = [allRecord mca] ↔
      (∀ x ∈ xs.dropLast, x.ipv6 ≠ In6Addr.any) ∧ ∀ x ∈ xs.tail.dropLast, x.grows := by
  cases xs with
  | nil => simp at hex
  | cons x xs =>
    rw [gather_cons, List.tail_cons, firstRecord]
    by_cases hany : x.ipv6 = In6Addr.any
    · rw [if_pos hany]
      cases xs with
      | nil => simp
      | cons y ys =>
        refine iff_of_false ?_ fun hall => absurd hany (hall.1 x (by simp))
        exact Gather.run_not_single (by simp [hany]) (by simp) _
    · rw [if_neg hany]
      obtain ⟨y, hy, hyany⟩ := hex
      have hyxs : y ∈ xs := (List.mem_cons.mp hy).resolve_left fun h => hany (h ▸ hyany)
      have hrest : _ = [allRecord mca] ↔ _ := Gather.run_all_iff
        (r := ⟨mld2ModeIsInclude, mca, [x.ipv6]⟩)
        (g := ⟨[⟨mld2ModeIsInclude, mca, [x.ipv6]⟩], x.ipv6 ≠ In6Addr.any⟩) xs
        (by simp [hany]) rfl rfl ⟨y, hyxs, hyany⟩
      rw [List.dropLast_cons_of_ne_nil (List.ne_nil_of_mem hyxs), List.forall_mem_cons, hrest]
      exact ⟨fun hall => ⟨⟨hany, fun z hz => (hall z hz).1⟩, hall⟩, fun hall => hall.2⟩

/-! ## 4. Groups that want sources -/

/-- The scan only takes something for a repetition while `src` is set. -/
def HitsKnown (mca : In6Addr) (g : Gather) (xs : List Look) : Prop :=
  Runs.StepsMeet (Gather.look mca) (fun g x => x.hit = true → g.source = true) g xs

theorem Gather.look_includes {g : Gather} (hok : g.Ok) {x : Look} (hany : x.ipv6 ≠ In6Addr.any)
    (h : ∀ r ∈ g.recs, r.grecType = mld2ModeIsInclude) :
    ∀ r ∈ (g.look mca x).recs, r.grecType = mld2ModeIsInclude := by
  have hstep : LookStep mca g x (g.look mca x) := look_step hok
  generalize g.look mca x = g' at hstep
  cases hstep with
  | opens _ =>
    simp only [opens, List.forall_mem_append, List.forall_mem_singleton, firstRecord, if_neg hany]
    exact ⟨h, trivial⟩
  | collapse pre r hall _ => exact absurd hall hany
  | dropped _ _ => exact h
  | adds pre r _ _ hr =>
    rw [hr] at h
    simp only [List.forall_mem_append, List.forall_mem_singleton] at h ⊢
    exact ⟨h.1, trivial⟩

theorem Gather.look_srcs {g : Gather} (hok : g.Ok) {x : Look} (hany : x.ipv6 ≠ In6Addr.any)
    (hhit : x.hit = true → g.source = true) (a : In6Addr) :
    (∃ r ∈ (g.look mca x).recs, a ∈ r.srcs) ↔
      (∃ r ∈ g.recs, a ∈ r.srcs) ∨ x.ipv6 = a ∧ x.hit = false := by
  have hstep : LookStep mca g x (g.look mca x) := look_step hok
  generalize g.look mca x = g' at hstep
  cases hstep with
  | opens hmiss =>
    have hmiss : x.hit = false := Bool.eq_false_iff.mpr fun ht =>
      absurd (ht.symm.trans (hmiss (hhit ht)).2) (by simp)
    simp [opens, firstRecord, hany, hmiss, or_and_right, exists_or, eq_comm]
  | collapse pre r hall _ => exact absurd hall hany
  | dropped _ ht => simp [ht]
  | adds pre r _ hmiss hr =>
    simp [hr, hmiss, or_and_right, exists_or, or_assoc, eq_comm]

/-- What the records of a group without `::` say. -/
theorem Gather.run_srcs : ∀ (xs : List Look) {g : Gather}, g.Ok → HitsKnown mca g xs →
    (∀ x ∈ xs, x.ipv6 ≠ In6Addr.any) → (∀ r ∈ g.recs, r.grecType = mld2ModeIsInclude) →
    (∀ r ∈ (Runs.run (look mca) g xs).recs, r.grecType = mld2ModeIsInclude) ∧
    ∀ a, (∃ r ∈ (Runs.run (look mca) g xs).recs, a ∈ r.srcs) ↔
      (∃ r ∈ g.recs, a ∈ r.srcs) ∨ ∃ x ∈ xs, x.ipv6 = a ∧ x.hit = false := by
  intro xs
  induction xs with
  | nil => exact fun _ _ _ hincl => ⟨hincl, fun a => by simp⟩
  | cons x xs ih =>
    intro g hok hknown hany hincl
    obtain ⟨hhit, hknown⟩ := Runs.stepsMeet_cons.mp hknown
    obtain ⟨hx, hany⟩ := List.forall_mem_cons.mp hany
    obtain ⟨hrun, hsrcs⟩ := ih (look_ok hok) hknown hany (look_includes hok hx hincl)
    refine ⟨hrun, fun a => ?_⟩
    rw [Runs.run_cons, hsrcs a, look_srcs hok hx hhit a, or_assoc]
    simp [or_and_right, exists_or]

/-! ## 5. What was seen, and what the records tell -/

/-- The records of a group are what they are to be. -/
structure GroupStated (mca : In6Addr) (wanted : List In6Addr) (recs : List Grec) : Prop where
  appears : recs = [] ↔ wanted = []
  all : In6Addr.any ∈ wanted → recs = [allRecord mca]
  includes : In6Addr.any ∉ wanted → ∀ r ∈ recs, r.grecType = mld2ModeIsInclude
  sources : In6Addr.any ∉ wanted → ∀ a, (∃ r ∈ recs, a ∈ r.srcs) ↔ a ∈ wanted

/-- What must be seen for it. -/
structure Tells (xs : List Look) : Prop where
  last : ∀ x ∈ xs.dropLast, x.ipv6 ≠ In6Addr.any
  whole : (∃ x ∈ xs, x.ipv6 = In6Addr.any) → ∀ x ∈ xs.tail.dropLast, x.hit = false ∧ x.full = false
  kept : (∀ x ∈ xs, x.ipv6 ≠ In6Addr.any) → ∀ x ∈ xs, ∃ y ∈ xs, y.ipv6 = x.ipv6 ∧ y.hit = false

instance (xs : List Look) : Decidable (Tells xs) :=
  decidable_of_iff ((∀ x ∈ xs.dropLast, x.ipv6 ≠ In6Addr.any) ∧
      ((∃ x ∈ xs, x.ipv6 = In6Addr.any) → ∀ x ∈ xs.tail.dropLast, x.hit = false ∧ x.full = false) ∧
      ((∀ x ∈ xs, x.ipv6 ≠ In6Addr.any) → ∀ x ∈ xs, ∃ y ∈ xs, y.ipv6 = x.ipv6 ∧ y.hit = false))
    ⟨fun h => ⟨h.1, h.2.1, h.2.2⟩, fun h => ⟨h.last, h.whole, h.kept⟩⟩

/-- **The records of a group tell what it wants exactly if `Tells` holds of what was seen.** -/
theorem groupStated_iff_tells {xs : List Look} (hknown : HitsKnown mca ⟨[], false⟩ xs) :
    GroupStated mca (xs.map Look.ipv6) (gather mca xs).recs ↔ Tells xs := by
  have hmem : In6Addr.any ∈ xs.map Look.ipv6 ↔ ∃ x ∈ xs, x.ipv6 = In6Addr.any := List.mem_map
  have happears : (gather mca xs).recs = [] ↔ xs.map Look.ipv6 = [] := by
    rw [gather_eq_nil, List.map_eq_nil_iff]
  by_cases hex : ∃ x ∈ xs, x.ipv6 = In6Addr.any
  · have hall : _ = [allRecord mca] ↔ _ := gather_all_iff hex
    have hwant := hmem.mpr hex
    constructor
    · intro hs
      obtain ⟨hlast, hgrows⟩ := hall.mp (hs.all hwant)
      obtain ⟨y, hy, hyany⟩ := hex
      exact ⟨hlast, fun _ x hx => (hgrows x hx).2, fun hno => absurd hyany (hno y hy)⟩
    · intro ht
      refine ⟨happears, fun _ => hall.mpr ⟨ht.last, fun x hx => ⟨?_, ht.whole hex x hx⟩⟩,
        fun hno => absurd hwant hno, fun hno => absurd hwant hno⟩
      exact ht.last x (List.mem_of_mem_tail (by rwa [← List.tail_dropLast] at hx))
  · have hno : ∀ x ∈ xs, x.ipv6 ≠ In6Addr.any := fun x hx hany => hex ⟨x, hx, hany⟩
    obtain ⟨hincl, hsrcs⟩ := Gather.run_srcs xs gather_ok hknown hno (by simp)
    have hsrcs : ∀ a, (∃ r ∈ (gather mca xs).recs, a ∈ r.srcs) ↔
        ∃ x ∈ xs, x.ipv6 = a ∧ x.hit = false := by
      intro a
      rw [gather, hsrcs a]
      simp
    have hwant : In6Addr.any ∉ xs.map Look.ipv6 := fun h => hex (hmem.mp h)
    constructor
    · intro hs
      refine ⟨fun x hx => hno x (List.dropLast_subset xs hx), fun h => absurd h hex,
        fun _ x hx => ?_⟩
      exact (hsrcs x.ipv6).mp ((hs.sources hwant x.ipv6).mpr (List.mem_map_of_mem hx))
    · intro ht
      refine ⟨happears, fun h => absurd h hwant, fun _ => hincl, fun _ a => ?_⟩
      rw [hsrcs a, List.mem_map]
      constructor
      · rintro ⟨x, hx, hxa, -⟩
        exact ⟨x, hx, hxa⟩
      · rintro ⟨x, hx, rfl⟩
        exact ht.kept hno x hx

end Run

end Ecmh
