/-
# How often a group is announced

`groupint_get` says of a group that it is new when it creates the node, and again when
`lastforward` is 125 seconds old, for the sake of listeners that keep reporting.  But it writes
`lastforward` at every call, so it is a limiter that is stamped at every call: a group that is
reported more often than every 125 seconds is announced once and never again.
-/
import Ecmh.Lib.Limiter
import Ecmh.Unchanged

namespace Ecmh

/-! ## 1. One call -/

/-- `lastforward` of the group. -/
def lastforwardOf (mca : In6Addr) (groups : Groups) : Option Nat :=
  (groupFind groups mca).map GroupNode.lastforward

theorem lastforwardOf_groupintGet (t : Nat) (groups : Groups) (mca : In6Addr) (ifindex : Nat) :
    lastforwardOf mca (groupintGet t groups mca ifindex).1 = some t := by
  obtain ⟨groupn, hfind, hlast, -⟩ := stamped_groupintGet t groups mca ifindex
  rw [lastforwardOf, hfind, Option.map_some, hlast]

/-- The flag is the decision of a limiter that is stamped at every call. -/
theorem groupintGet_fires {t : Nat} {groups : Groups} {mca : In6Addr} (ifindex : Nat)
    (hle : ∀ l ∈ lastforwardOf mca groups, l ≤ t) (h64 : t < 2 ^ 64) :
    (groupintGet t groups mca ifindex).2
      = Limiter.fires ecmhSubscriptionTimeout (lastforwardOf mca groups) t := by
  unfold groupintGet lastforwardOf at *
  cases hfind : groupFind groups mca with
  | none => rfl
  | some groupn =>
    have hlast : groupn.lastforward ≤ t := hle groupn.lastforward (by rw [hfind]; rfl)
    have hsub : sub64 t groupn.lastforward = t - groupn.lastforward := by
      unfold sub64
      omega
    simp only [Option.map_some, Limiter.fires, hsub, ge_iff_le]

/-! ## 2. Runs of calls -/

/-- A call of `groupint_get` for the group: the interface and the clock, and what happened to the
table since the call before. -/
structure GroupCall where
  ifindex : Nat
  time : Nat
  since : Groups → Groups

/-- The table, and for every call so far its time and what it returned in `isnew`. -/
structure GroupCalls where
  groups : Groups
  log : List (Nat × Bool)

def callStep (mca : In6Addr) (s : GroupCalls) (c : GroupCall) : GroupCalls where
  groups := (groupintGet c.time (c.since s.groups) mca c.ifindex).1
  log := s.log ++ [(c.time, (groupintGet c.time (c.since s.groups) mca c.ifindex).2)]

/-- The calls, from a table without the group. -/
def callRun (mca : In6Addr) (groups : Groups) (cs : List GroupCall) : GroupCalls :=
  Runs.run (callStep mca) ⟨groups, []⟩ cs

/-- Since the call before the group was neither deleted nor stamped by anything else. -/
def GroupKept (mca : In6Addr) (s : GroupCalls) (c : GroupCall) : Prop :=
  lastforwardOf mca (c.since s.groups) = lastforwardOf mca s.groups

/-- The calls of a group from its creation on, by a clock that does not go back. -/
structure LifeOf (mca : In6Addr) (groups : Groups) (cs : List GroupCall) : Prop where
  absent : groupFind groups mca = none
  kept : Runs.StepsMeet (callStep mca) (GroupKept mca) ⟨groups, []⟩ cs
  clock : (cs.map GroupCall.time).Pairwise (· ≤ ·)
  word : ∀ c ∈ cs, c.time < 2 ^ 64

section Life

variable {mca : In6Addr} {groups : Groups}

theorem LifeOf.earlier {pre post : List GroupCall} (h : LifeOf mca groups (pre ++ post)) :
    LifeOf mca groups pre where
  absent := h.absent
  kept := fun a c b he => h.kept a c (b ++ post) (by rw [he, List.append_assoc]; rfl)
  clock := by
    have hclock := h.clock
    rw [List.map_append] at hclock
    exact (List.pairwise_append.mp hclock).1
  word := fun c hc => h.word c (List.mem_append_left _ hc)

/-- **The calls are a limiter that is stamped at every call.** -/
theorem callRun_log : ∀ {cs : List GroupCall}, LifeOf mca groups cs →
    (callRun mca groups cs).log
      = Limiter.log ecmhSubscriptionTimeout none (cs.map GroupCall.time) ∧
    lastforwardOf mca (callRun mca groups cs).groups = (cs.map GroupCall.time).getLast? := by
  intro cs
  induction cs using List.reverseRecOn with
  | nil =>
    intro h
    refine ⟨rfl, ?_⟩
    show (groupFind groups mca).map _ = none
    rw [h.absent]
    rfl
  | append_singleton cs c ih =>
    intro h
    obtain ⟨hlog, hlast⟩ := ih h.earlier
    have hkept : GroupKept mca (callRun mca groups cs) c := h.kept cs c [] rfl
    have hclock := h.clock
    rw [List.map_append, List.pairwise_append] at hclock
    have hle : ∀ l ∈ lastforwardOf mca (c.since (callRun mca groups cs).groups), l ≤ c.time := by
      rw [hkept, hlast]
      intro l hl
      exact hclock.2.2 l (List.mem_of_getLast? hl) c.time (by simp)
    have hfires := groupintGet_fires c.ifindex hle (h.word c (by simp))
    rw [hkept, hlast] at hfires
    rw [callRun, Runs.run_concat, ← callRun, List.map_append, List.map_singleton,
      Limiter.log_concat, List.getLast?_concat, ← hlog, Option.or_none, ← hfires]
    exact ⟨rfl, lastforwardOf_groupintGet _ _ _ _⟩

/-- The table says when the group was announced last. -/
def StampedAtForward (mca : In6Addr) (s : GroupCalls) : Prop :=
  lastforwardOf mca s.groups = Limiter.lastFired s.log

/-- **When a group that keeps being reported is announced again**: at every call there was one less
than 125 seconds before that returned `isnew` if no burst of calls, which follow each other at less
than that, gets as long; and `lastforward` is the time of the last such call, at all times, if each
call comes in the same second as the one before or after a pause of 125 seconds. -/
theorem reannounced_iff {cs : List GroupCall} (h : LifeOf mca groups cs) :
    (Limiter.Covered ecmhSubscriptionTimeout [] (callRun mca groups cs).log ↔
      Limiter.Bursts ecmhSubscriptionTimeout (cs.map GroupCall.time)) ∧
    (Runs.Always (callStep mca) (StampedAtForward mca) ⟨groups, []⟩ cs ↔
      (cs.map GroupCall.time).IsChain (fun a b => b = a ∨ ecmhSubscriptionTimeout ≤ b - a)) := by
  constructor
  · rw [(callRun_log h).1]
    exact Limiter.covered_iff (by decide) h.clock
  · rw [← Limiter.stamped_iff]
    -- the states that the run passes are those after the first calls
    have hstate : ∀ pre post, cs = pre ++ post →
        (StampedAtForward mca (callRun mca groups pre) ↔ (pre.map GroupCall.time).getLast?
          = Limiter.lastFired (Limiter.log ecmhSubscriptionTimeout none
              (pre.map GroupCall.time))) := by
      rintro pre post rfl
      obtain ⟨hlog, hlast⟩ := callRun_log h.earlier
      rw [StampedAtForward, hlog, hlast]
    constructor
    · intro hall pre post he
      obtain ⟨cs1, cs2, hcs, rfl, -⟩ := List.map_eq_append_iff.mp he
      exact (hstate cs1 cs2 hcs).mp (hall cs1 cs2 hcs)
    · intro hall pre post he
      exact (hstate pre post he).mpr
        (hall _ (post.map GroupCall.time) (by rw [he, List.map_append]))

end Life

/-- The call of a report for `ff05::1` on the interface, after the subscription of the report before
was refreshed. -/
def siteCall (ifindex time : Nat) : GroupCall where
  ifindex := ifindex
  time := time
  since := fun groups => setGroupint groups siteGroup ifindex
    (fun grpintn => grpintRefresh time grpintn In6Addr.any mld2ModeIsInclude)

theorem siteCalls_life {cs : List GroupCall} (hcs : ∀ c ∈ cs, ∃ i t, c = siteCall i t)
    (hclock : (cs.map GroupCall.time).Pairwise (· ≤ ·)) (hword : ∀ c ∈ cs, c.time < 2 ^ 64) :
    LifeOf siteGroup listNew cs where
  absent := rfl
  kept := by
    intro pre c post he
    obtain ⟨i, t, rfl⟩ := hcs c (by rw [he]; simp)
    unfold GroupKept lastforwardOf siteCall setGroupint
    rw [groupFind_setGroup _ _ (setGrpint_mca i _), if_pos rfl, Option.map_map]
    rfl
  clock := hclock
  word := hword

/-- Two reports in one second, and one much later. -/
theorem late_report_announced :
    Limiter.Covered ecmhSubscriptionTimeout []
      (callRun siteGroup listNew [siteCall 1 0, siteCall 2 0, siteCall 1 200]).log ∧
    Runs.Always (callStep siteGroup) (StampedAtForward siteGroup) ⟨listNew, []⟩
      [siteCall 1 0, siteCall 2 0, siteCall 1 200] := by
  have hlife := @siteCalls_life [siteCall 1 0, siteCall 2 0, siteCall 1 200] (by simp) (by decide)
    (by decide)
  exact ⟨(reannounced_iff hlife).1.mpr (by decide), (reannounced_iff hlife).2.mpr (by decide)⟩

/-- A listener that reports every 100 seconds: the third report is not announced. -/
theorem steady_report_silent :
    LifeOf siteGroup listNew [siteCall 1 0, siteCall 1 100, siteCall 1 200] ∧
    ¬ Limiter.Covered ecmhSubscriptionTimeout []
      (callRun siteGroup listNew [siteCall 1 0, siteCall 1 100, siteCall 1 200]).log ∧
    ¬ Runs.Always (callStep siteGroup) (StampedAtForward siteGroup) ⟨listNew, []⟩
      [siteCall 1 0, siteCall 1 100, siteCall 1 200] := by
  refine ⟨siteCalls_life (by simp) (by decide) (by decide), ?_, ?_⟩
  · intro h
    have hlast := h [(0, true), (100, false)] (200, false) [] (by decide +kernel)
    exact absurd hlast (by decide)
  · intro h
    have hstamp := h [siteCall 1 0, siteCall 1 100] [siteCall 1 200] rfl
    unfold StampedAtForward at hstamp
    exact absurd hstamp (by decide +kernel)

end Ecmh
