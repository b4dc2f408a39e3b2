/-
# Which records of a report are announced

The flag `isnew` lives across the loop of the MLDv2 handler, and a record whose scope is ignored
does not come to the call that writes it.  So such a record is announced when the last one that did
come to it had made its group new, and a record that is given up behind that call is not announced
although it did.  `announcedIffNew_iff` is the exact account.
-/
import Ecmh.ReportParser
import Ecmh.Swallowed

namespace Ecmh

open ByteMem

/-! ## 1. When every record is announced that made its group new -/

/-- The law of the announcements: a record is announced if and only if the call of `groupint_get`
for it returned `isnew`, and so never where its scope is ignored. -/
structure AnnouncedIffNew (v : Visit) : Prop where
  isnew : v.announced = true ↔ v.isnew = some true
  scope : mld2Ignores v.mca = true → v.announced = false

/-- The group is new to a record behind these: it is new in the table, and none of them is for
it. -/
def NewBehind (now : Nat) (groups : Groups) (pre : List GrecSeen) (g : In6Addr) : Prop :=
  GroupNew now groups g ∧ ∀ r ∈ pre, ∀ j, r.join = some j → j.mca ≠ g

/-- What the report has to be like. -/
structure KeepsApart (now : Nat) (groups : Groups) (rs : List GrecSeen) : Prop where
  /-- no record of an ignored scope stands behind a record for a new group, with nothing but records
  of an ignored scope between them -/
  ignored : ∀ pre q mid r post j, rs = pre ++ q :: (mid ++ r :: post) → q.join = some j →
    (∀ x ∈ mid, x.join = none) → r.join = none → r.srcs.isSome = true →
      ¬ NewBehind now groups pre j.mca
  /-- a record whose sources do not fit into the message is not for a new group -/
  complete : ∀ pre r post j, rs = pre ++ r :: post → r.join = some j → r.srcs = none →
    ¬ NewBehind now groups pre j.mca

section Law

variable {h : Host} {now i : Nat}

theorem grecVisit_isnew {s : Conf × Bool} {r : GrecSeen} :
    (grecVisit now i s r).isnew = some true ↔
      ∃ j, r.join = some j ∧ GroupNew now s.1.groups j.mca := by
  simp only [grecVisit, Option.map_eq_some_iff, groupintGet_isnew]

/-- One record obeys the law unless the flag is left from another one, or it is given up. -/
theorem announcedIffNew_step {s : Conf × Bool} {r : GrecSeen} :
    AnnouncedIffNew (grecVisit now i s r) ↔
      (r.join = none → r.srcs.isSome = true → s.2 = false) ∧
      (∀ j, r.join = some j → r.srcs = none → ¬ GroupNew now s.1.groups j.mca) := by
  have hscope : mld2Ignores r.mca = true → r.join = none := by
    intro hign
    simp [GrecSeen.join, hign]
  cases hj : r.join with
  | none =>
    have hvisit : (grecVisit now i s r).isnew = none := by rw [grecVisit, hj, Option.map_none]
    have hannounced : (grecVisit now i s r).announced = (r.srcs.isSome && s.2) := by
      simp only [grecVisit, grecIsnew, hj]
    constructor
    · intro hlaw
      refine ⟨fun _ hsome => ?_, fun j hc => by cases hc⟩
      have hfalse : (grecVisit now i s r).announced ≠ true := by
        intro hc
        have := hlaw.isnew.mp hc
        rw [hvisit] at this
        cases this
      rw [hannounced, hsome, Bool.true_and] at hfalse
      exact Bool.eq_false_iff.mpr hfalse
    · rintro ⟨hflag, -⟩
      have hfalse : (grecVisit now i s r).announced = false := by
        rw [hannounced, Bool.and_eq_false_imp]
        exact hflag rfl
      refine ⟨?_, fun _ => hfalse⟩
      rw [hfalse, hvisit]
      simp
  | some j =>
    have hisnew := @grecVisit_isnew now i s r
    rw [hj] at hisnew
    simp only [Option.some.injEq, exists_eq_left'] at hisnew
    have hannounced : (grecVisit now i s r).announced = true ↔
        r.srcs.isSome = true ∧ GroupNew now s.1.groups j.mca := by
      simp only [grecVisit, grecIsnew, hj, Bool.and_eq_true, groupintGet_isnew]
    constructor
    · intro hlaw
      refine ⟨fun hc => absurd hc (Option.some_ne_none j), fun j' hj' hnone hnew => ?_⟩
      cases hj'
      have hsome := (hannounced.mp (hlaw.isnew.mpr (hisnew.mpr hnew))).1
      rw [hnone] at hsome
      cases hsome
    · rintro ⟨-, hcut⟩
      refine ⟨?_, fun hign => ?_⟩
      · rw [hannounced, hisnew]
        refine ⟨And.right, fun hnew => ⟨?_, hnew⟩⟩
        cases hsrcs : r.srcs with
        | none => exact absurd hnew (hcut j rfl hsrcs)
        | some srcs => rfl
      · rw [hscope hign] at hj
        cases hj

/-- The group is new when the handler comes to the record. -/
theorem groupNew_run_iff {pre : List GrecSeen} {s : Conf × Bool} {g : In6Addr} :
    GroupNew now (Runs.run (grecStep h now i) s pre).1.groups g ↔
      NewBehind now s.1.groups pre g := by
  by_cases hpre : ∃ r ∈ pre, ∃ j, r.join = some j ∧ j.mca = g
  · obtain ⟨r, hr, j, hj, rfl⟩ := hpre
    exact iff_of_false (run_not_new hr hj s) (fun hnew => hnew.2 r hr j hj rfl)
  · have hother : ∀ r ∈ pre, ∀ j, r.join = some j → j.mca ≠ g :=
      fun r hr j hj hmca => hpre ⟨r, hr, j, hj, hmca⟩
    rw [NewBehind, groupNew_congr (run_untouched pre s hother)]
    exact (and_iff_left hother).symm

/-- The flag at a record is left by the last one before it that came to `groupint_get`. -/
theorem run_flag_iff {pre : List GrecSeen} {st : Conf} :
    (Runs.run (grecStep h now i) (st, false) pre).2 = true ↔
      ∃ p q mid j, pre = p ++ q :: mid ∧ q.join = some j ∧ (∀ x ∈ mid, x.join = none) ∧
        NewBehind now st.groups p j.mca := by
  have hkeep : ∀ (s : Conf × Bool) (r : GrecSeen), ¬ r.join.isSome = true →
      (grecStep h now i s r).2 = s.2 := by
    intro s r hr
    rw [grecStep_of_ignored (Option.not_isSome_iff_eq_none.mp hr)]
  have hwrite : ∀ (p : List GrecSeen) (q : GrecSeen) (j : Join), q.join = some j →
      ((grecStep h now i (Runs.run (grecStep h now i) (st, false) p) q).2 = true ↔
        NewBehind now st.groups p j.mca) := by
    intro p q j hj
    rw [grecStep_of_join hj, groupintGet_isnew, groupNew_run_iff]
  constructor
  · intro hflag
    rcases Runs.run_last_write Prod.snd hkeep (st, false) pre with
      ⟨-, hget⟩ | ⟨p, q, mid, rfl, hq, hmid, hget⟩
    · rw [hget] at hflag
      cases hflag
    · obtain ⟨j, hj⟩ := Option.isSome_iff_exists.mp hq
      rw [hget] at hflag
      exact ⟨p, q, mid, j, rfl, hj,
        fun x hx => Option.not_isSome_iff_eq_none.mp (hmid x hx), (hwrite p q j hj).mp hflag⟩
  · rintro ⟨p, q, mid, j, rfl, hj, hmid, hnew⟩
    rw [Runs.run_append, Runs.run_cons]
    have hsame : ∀ (mid : List GrecSeen) (s : Conf × Bool), (∀ x ∈ mid, x.join = none) →
        (Runs.run (grecStep h now i) s mid).2 = s.2 := by
      intro mid
      induction mid with
      | nil => exact fun s _ => rfl
      | cons x mid ih =>
        intro s hall
        obtain ⟨hx, hall⟩ := List.forall_mem_cons.mp hall
        rw [Runs.run_cons, ih _ hall, hkeep s x (by simp [hx])]
    rw [hsame mid _ hmid]
    exact (hwrite p q j hj).mpr hnew

/-- **When each record of a report is announced that made its group new, and no other**: if no
record of an ignored scope follows one for a new group, and the record at which the handler gives up
for its sources is not for a new group. -/
theorem announcedIffNew_iff (h : Host) (now : Nat) (st : Conf) (i : Nat) (mld2r : Mem)
    (plen : Nat) :
    (∀ v ∈ (l4Ipv6Icmpv6Mld2Report h now st i mld2r plen).visits, AnnouncedIffNew v) ↔
      KeepsApart now st.groups (mld2Records h.endian mld2r plen) := by
  rw [forall_mld2Visits]
  have hgroups : (intSetMldVersion now st i 2).groups = st.groups := intSetMldVersion_groups ..
  constructor
  · intro hall
    refine ⟨fun pre q mid r post j he hj hmid hr hsome hnew => ?_,
      fun pre r post j he hj hnone hnew => ?_⟩
    · have he' : mld2Records h.endian mld2r plen = (pre ++ q :: mid) ++ r :: post := by
        rw [he, List.append_assoc, List.cons_append]
      have hflag := (announcedIffNew_step.mp (hall _ r post he')).1 hr hsome
      rw [Bool.eq_false_iff, Ne, run_flag_iff, hgroups] at hflag
      exact hflag ⟨pre, q, mid, j, rfl, hj, hmid, hnew⟩
    · have hcut := (announcedIffNew_step.mp (hall pre r post he)).2 j hj hnone
      rw [groupNew_run_iff, hgroups] at hcut
      exact hcut hnew
  · intro hcond pre r post he
    refine announcedIffNew_step.mpr ⟨fun hr hsome => ?_,
      fun j hj hnone => ?_⟩
    · rw [Bool.eq_false_iff, Ne, run_flag_iff, hgroups]
      rintro ⟨p, q, mid, j, rfl, hj, hmid, hnew⟩
      refine hcond.ignored p q mid r post j ?_ hj hmid hr hsome hnew
      rw [he, List.append_assoc, List.cons_append]
    · rw [groupNew_run_iff, hgroups]
      exact hcond.complete pre r post j he hj hnone

end Law

/-- A listener of `ff02::1`. -/
def linkRecord : WireGrec :=
  ⟨4, linkScope 1, [], [], WireGrec.noSrcs_lt, WireGrec.noAux_words⟩

/-- A record for `ff02::1` is announced behind one that makes `ff05::1` a new group. -/
theorem link_local_announced : ¬ ∀ v ∈ (l4Ipv6Icmpv6Mld2Report (quietHost .little) 7 oneLink 1
      (twoRecords (auxRecord [] (by decide)) linkRecord) 48).visits, AnnouncedIffNew v := by
  intro hall
  have hlaw := hall ⟨28, 4, linkScope 1, [], none, true⟩ (by decide +kernel)
  exact absurd (hlaw.scope (by decide +kernel)) (by decide)

end Ecmh
