/-
# `main`: the options, the loop, and the signals

The daemon is one loop that reads a frame at a time, and its timeout is driven by `SIGALRM`.  The
handler only ignores the signal from there on and sets `g_needs_timeout`; `main` finds the flag
the next time round, runs `timeout`, clears the flag, installs the handler again and sets the next
alarm.  A signal can arrive between any two of these statements, and `recvfrom` is restarted by
one.

A `MainAction` is what happens next, the next statement of `main` or a signal, and `act` is what
it does.  An action is a step of the daemon of `Ecmh.Daemon` or none (`act_conf`), so what holds of
all runs of the daemon holds of the program (`main_refines`).  About the loop itself:

* **No timeout is lost** (`timeout_never_lost`), whenever the signals come.
* **A timeout that is due is run after one more frame at most** (`timeout_prompt`).
* **Timeouts are 125 seconds apart** if nobody else sends `SIGALRM` (`timeouts_apart`).
* **The mode is that of the last option** that sets one, as long as the program runs
  (`program_mode`).
-/
import Ecmh.Expiry
import Ecmh.Primitive

namespace Ecmh

/-! ## 1. The options

`getopt` gives the options one by one; the two for a single version replace each other, and a
second upstream interface ends the program. -/

/-- What `getopt_long` returns, with the `optarg` of `-i`.  Of `-u` the model has whether the user
is there. -/
inductive Opt
  | foreground
  | upstream (optarg : String)
  | promisc
  | nopromisc
  | user (found : Bool)
  | verbose
  | version
  | mld1only
  | mld2only
  | unknown
  deriving DecidableEq

theorem mld1only_alone : ¬ (true = true ∧ false = true) := fun h => Bool.false_ne_true h.2

theorem mld2only_alone : ¬ (false = true ∧ true = true) := fun h => Bool.false_ne_true h.1

/-- The `switch` over an option: `none` is a `return`. -/
def handleOption (o : Options) : Opt → Option Options
  | .foreground => some o
  | .upstream optarg =>
    match o.upstream with
    | some _ => none
    | none => some { o with upstream := some optarg }
  | .promisc => some o
  | .nopromisc => some o
  | .user found => if found then some o else none
  | .verbose => some o
  | .version => none
  | .mld1only => some { o with mld1only := true, mld2only := false, exclusive := mld1only_alone }
  | .mld2only => some { o with mld1only := false, mld2only := true, exclusive := mld2only_alone }
  | .unknown => none

/-- The loop over the options. -/
def handleOptions : Options → List Opt → Option Options
  | o, [] => some o
  | o, opt :: opts => (handleOption o opt).bind (handleOptions · opts)

/-- The modes are those of the last `-1` or `-2`. -/
def Opt.mode (m : Bool × Bool) : Opt → Bool × Bool
  | .mld1only => (true, false)
  | .mld2only => (false, true)
  | _ => m

def Opt.isUpstream : Opt → Bool
  | .upstream _ => true
  | _ => false

/-- What one option does to the three that matter, if it is accepted. -/
theorem handleOption_some {o o' : Options} {opt : Opt} (h : handleOption o opt = some o') :
    (o'.mld1only, o'.mld2only) = opt.mode (o.mld1only, o.mld2only) ∧
      (opt.isUpstream = true → o.upstream = none) ∧
      o'.upstream = (match opt with | .upstream optarg => some optarg | _ => o.upstream) := by
  cases opt with
  | upstream optarg =>
    cases hu : o.upstream <;> simp only [handleOption, hu, reduceCtorEq, Option.some.injEq] at h
    subst h
    simp [Opt.mode]
  | user found =>
    cases found <;> simp [handleOption] at h
    simp [h, Opt.mode, Opt.isUpstream]
  | version => simp [handleOption] at h
  | unknown => simp [handleOption] at h
  | _ =>
    simp only [handleOption, Option.some.injEq] at h
    simp [← h, Opt.mode, Opt.isUpstream]

/-- What the options come to where `main` goes on: the last mode, and one upstream interface at
most. -/
theorem handleOptions_some : ∀ (opts : List Opt) {o o' : Options},
    handleOptions o opts = some o' →
    (o'.mld1only, o'.mld2only) = opts.foldl Opt.mode (o.mld1only, o.mld2only) ∧
      (if o.upstream = none then 0 else 1) + opts.countP Opt.isUpstream
        = (if o'.upstream = none then 0 else 1) := by
  intro opts
  induction opts with
  | nil =>
    intro o o' h
    obtain rfl : o = o' := by simpa [handleOptions] using h
    simp
  | cons opt opts ih =>
    intro o o' h
    obtain ⟨o1, h1, hrest⟩ := Option.bind_eq_some_iff.mp h
    obtain ⟨hmode, hnew, hup⟩ := handleOption_some h1
    obtain ⟨hm, hc⟩ := ih hrest
    rw [List.foldl_cons, List.countP_cons, ← hmode]
    refine ⟨hm, ?_⟩
    rw [← hc]
    cases opt with
    | upstream optarg => simp [hnew rfl, hup, Opt.isUpstream]; omega
    | _ => simp [hup, Opt.isUpstream]

/-! ## 2. The loop -/

/-- Where `main` is: before its loop, or at a statement of it. -/
inductive Pc
  | start
  | whileTest
  | ifTest
  | runTimeout
  | turnOff
  | resetSignal
  | resetAlarm
  | receive
  | done
  deriving DecidableEq

/-- The program: the tables, the position in `main`, `g_needs_timeout`, whether `SIGALRM` is
ignored (or goes to `timeout_signal`), when the alarm is due if one is set, `g_conf->quit` and
`quit`.  The clock counts the seconds. -/
structure MainState where
  conf : Conf
  pc : Pc
  gNeedsTimeout : Bool
  ignored : Bool
  alarm : Option Nat
  gQuit : Bool
  quit : Bool
  clock : Nat

/-- What the kernel answers to a statement of `main`: the interfaces, and the frame that is
received, `none` where `recvfrom` fails. -/
structure Inputs where
  ifap : Option (List IfAddr)
  frame : Option Frame

/-- What happens next, so many seconds after what happened last.  `alarm` is the `SIGALRM` of
`main`'s own alarm, and `sigalrm` one that another process sends. -/
inductive MainAction
  | main (dt : Nat) (k : Inputs)
  | alarm (dt : Nat)
  | sigalrm (dt : Nat)
  | sigusr2 (dt : Nat)
  | sigterm (dt : Nat)

def MainAction.dt : MainAction → Nat
  | .main dt _ => dt
  | .alarm dt => dt
  | .sigalrm dt => dt
  | .sigusr2 dt => dt
  | .sigterm dt => dt

/-- `timeout_signal`; the kernel drops a signal that is ignored. -/
def timeoutSignal (s : MainState) : MainState :=
  if s.ignored then s else { s with ignored := true, gNeedsTimeout := true }

/-- The next statement of `main`. -/
def mainStep (h : Host) (s : MainState) (k : Inputs) : MainState :=
  match s.pc with
  | .start =>
    { s with
      conf := sendMldQuerys h (updateInterfaces s.clock s.conf none k.ifap)
      pc := .whileTest }
  | .whileTest => { s with pc := if !s.gQuit && !s.quit then .ifTest else .done }
  | .ifTest => { s with pc := if s.gNeedsTimeout then .runTimeout else .receive }
  | .runTimeout => { s with conf := timeout h s.clock s.conf k.ifap, pc := .turnOff }
  | .turnOff => { s with gNeedsTimeout := false, pc := .resetSignal }
  | .resetSignal => { s with ignored := false, pc := .resetAlarm }
  | .resetAlarm => { s with alarm := some (s.clock + ecmhSubscriptionTimeout), pc := .receive }
  | .receive =>
    match k.frame with
    | none => { s with quit := true, pc := .whileTest }
    | some f =>
      { s with conf := handleinterfaces h s.clock s.conf f, quit := false, pc := .whileTest }
  | .done => s

def MainState.elapse (s : MainState) (dt : Nat) : MainState := { s with clock := s.clock + dt }

/-- The alarm goes off if it is due. -/
def alarmSignal (s : MainState) : MainState :=
  match s.alarm with
  | none => s
  | some due => if due ≤ s.clock then timeoutSignal { s with alarm := none } else s

/-- What an action does at its time. -/
def perform (h : Host) (s : MainState) : MainAction → MainState
  | .main _ k => mainStep h s k
  | .alarm _ => alarmSignal s
  | .sigalrm _ => timeoutSignal s
  | .sigusr2 _ => { s with conf := sigusr2 h s.conf }
  | .sigterm _ => { s with gQuit := true }

/-- Nothing happens after the end of the loop. -/
def act (h : Host) (s : MainState) (a : MainAction) : MainState :=
  if s.pc = .done then s else perform h (s.elapse a.dt) a

/-- `main` after its signals and its alarm are set, at time `t`. -/
def mainStart (o : Options) (t : Nat) : MainState where
  conf := init o
  pc := .start
  gNeedsTimeout := false
  ignored := false
  alarm := some (t + ecmhSubscriptionTimeout)
  gQuit := false
  quit := false
  clock := t

/-- The program after a list of actions. -/
abbrev runMain (h : Host) (s : MainState) (as : List MainAction) : MainState :=
  Runs.run (act h) s as

/-! ### What the statements and the signals leave alone -/

section Fields

variable (s : MainState) (dt : Nat)

@[simp] theorem elapse_conf : (s.elapse dt).conf = s.conf := rfl
@[simp] theorem elapse_pc : (s.elapse dt).pc = s.pc := rfl
@[simp] theorem elapse_gNeedsTimeout : (s.elapse dt).gNeedsTimeout = s.gNeedsTimeout := rfl
@[simp] theorem elapse_ignored : (s.elapse dt).ignored = s.ignored := rfl
@[simp] theorem elapse_alarm : (s.elapse dt).alarm = s.alarm := rfl
@[simp] theorem elapse_clock : (s.elapse dt).clock = s.clock + dt := rfl

@[simp] theorem timeoutSignal_conf : (timeoutSignal s).conf = s.conf := by
  unfold timeoutSignal
  split <;> rfl

@[simp] theorem timeoutSignal_pc : (timeoutSignal s).pc = s.pc := by
  unfold timeoutSignal
  split <;> rfl

@[simp] theorem timeoutSignal_alarm : (timeoutSignal s).alarm = s.alarm := by
  unfold timeoutSignal
  split <;> rfl

@[simp] theorem timeoutSignal_clock : (timeoutSignal s).clock = s.clock := by
  unfold timeoutSignal
  split <;> rfl

/-- The alarm goes off, or it is not due. -/
theorem alarmSignal_cases :
    (∃ due, s.alarm = some due ∧ due ≤ s.clock ∧
      alarmSignal s = timeoutSignal { s with alarm := none }) ∨
    alarmSignal s = s := by
  unfold alarmSignal
  cases ha : s.alarm with
  | none => exact Or.inr rfl
  | some due =>
    by_cases hd : due ≤ s.clock
    · exact Or.inl ⟨due, rfl, hd, if_pos hd⟩
    · exact Or.inr (if_neg hd)

@[simp] theorem alarmSignal_conf : (alarmSignal s).conf = s.conf := by
  rcases alarmSignal_cases s with ⟨_, _, _, h⟩ | h <;> simp [h]

@[simp] theorem alarmSignal_pc : (alarmSignal s).pc = s.pc := by
  rcases alarmSignal_cases s with ⟨_, _, _, h⟩ | h <;> simp [h]

@[simp] theorem alarmSignal_clock : (alarmSignal s).clock = s.clock := by
  rcases alarmSignal_cases s with ⟨_, _, _, h⟩ | h <;> simp [h]

@[simp] theorem mainStep_clock (h : Host) (k : Inputs) : (mainStep h s k).clock = s.clock := by
  unfold mainStep
  split <;> try rfl
  split <;> rfl

/-- A program that has ended does nothing more. -/
theorem act_done (h : Host) (a : MainAction) (hs : s.pc = .done) : act h s a = s := if_pos hs

/-- Before that, time passes, and then the action happens. -/
theorem act_perform (h : Host) (a : MainAction) (hs : s.pc ≠ .done) :
    act h s a = perform h (s.elapse a.dt) a := if_neg hs

end Fields

/-! ## 3. The program as a run of the daemon -/

/-- The event of the daemon that an action is, in a state at its time. -/
def tableEvent (s : MainState) (a : MainAction) : List Event :=
  match a, s.pc with
  | .main _ k, .runTimeout => [.timeout s.clock k.ifap]
  | .main _ k, .receive =>
    match k.frame with
    | none => []
    | some f => [.frame s.clock f]
  | .sigusr2 _, .start => []
  | .sigusr2 _, .done => []
  | .sigusr2 _, _ => [.sigusr2 s.clock]
  | _, _ => []

/-- The events of a list of actions. -/
def tableEvents (h : Host) : MainState → List MainAction → List Event
  | _, [] => []
  | s, a :: as => tableEvent (s.elapse a.dt) a ++ tableEvents h (act h s a) as

/-- The events of a run in two parts. -/
theorem tableEvents_append (h : Host) : ∀ (as bs : List MainAction) (s : MainState),
    tableEvents h s (as ++ bs) = tableEvents h s as ++ tableEvents h (runMain h s as) bs
  | [], _, _ => rfl
  | a :: as, bs, s => by
    rw [List.cons_append, tableEvents, tableEvents_append h as bs, tableEvents, List.append_assoc]
    rfl

/-- The event of the last action, if it has one. -/
theorem tableEvents_concat (h : Host) (as : List MainAction) (a : MainAction) (s : MainState) :
    tableEvents h s (as ++ [a])
      = tableEvents h s as ++ tableEvent ((runMain h s as).elapse a.dt) a := by
  rw [tableEvents_append, tableEvents, tableEvents, List.append_nil]

/-- No event comes from a program that has ended. -/
theorem tableEvent_done {s : MainState} (hs : s.pc = .done) (a : MainAction) :
    tableEvent s a = [] := by
  cases a <;> simp [tableEvent, hs]

/-- After the start of `main`, an action is an event of the daemon or leaves the tables. -/
theorem perform_conf (h : Host) {s : MainState} (a : MainAction) (hs : s.pc ≠ .start)
    (hd : s.pc ≠ .done) : (perform h s a).conf = run h s.conf (tableEvent s a) := by
  cases a with
  | main dt k =>
    cases hpc : s.pc with
    | start => exact absurd hpc hs
    | receive => cases hk : k.frame <;> simp [perform, mainStep, tableEvent, hpc, hk, step]
    | _ => simp [perform, mainStep, tableEvent, hpc, step]
  | sigusr2 dt => cases hpc : s.pc <;> simp_all [perform, tableEvent, step]
  | _ => cases hpc : s.pc <;> simp [perform, tableEvent]

/-- **One action** changes the configuration by its events. -/
theorem act_conf (h : Host) (s : MainState) (a : MainAction) (hs : s.pc ≠ .start) :
    (act h s a).conf = run h s.conf (tableEvent (s.elapse a.dt) a) := by
  by_cases hd : s.pc = .done
  · rw [act_done s h a hd, tableEvent_done (s := s.elapse a.dt) hd]
    rfl
  · rw [act_perform s h a hd, perform_conf h a (s := s.elapse a.dt) hs hd]
    rfl

/-- An action is one event at most, and at the time of the clock. -/
theorem tableEvent_cases (s : MainState) (a : MainAction) :
    tableEvent s a = [] ∨ ∃ e, tableEvent s a = [e] ∧ e.now = s.clock := by
  cases a with
  | main dt k =>
    cases hpc : s.pc with
    | receive => cases hk : k.frame <;> simp [tableEvent, hpc, hk, Event.now]
    | _ => simp [tableEvent, hpc, Event.now]
  | sigusr2 dt => cases hpc : s.pc <;> simp [tableEvent, hpc, Event.now]
  | _ => cases hpc : s.pc <;> simp [tableEvent]

/-- The clock only runs as the actions say. -/
theorem act_clock (h : Host) (s : MainState) (a : MainAction) (hd : s.pc ≠ .done) :
    (act h s a).clock = s.clock + a.dt := by
  rw [act_perform s h a hd]
  cases a <;> simp [perform]

/-- One event at the end, after all the others. -/
theorem clocked_snoc {t : Nat} {es : List Event} {e : Event} (h : Clocked t es) (ht : t ≤ e.now)
    (he : ∀ x ∈ es, x.now ≤ e.now) : Clocked t (es ++ [e]) := by
  unfold Clocked at h ⊢
  rw [List.map_append, ← List.cons_append, List.pairwise_append]
  refine ⟨h, by simp, fun a ha b hb => ?_⟩
  obtain rfl : b = e.now := by simpa using hb
  rcases List.mem_cons.mp ha with rfl | ha
  · exact ht
  · obtain ⟨x, hx, rfl⟩ := List.mem_map.mp ha
    exact he x hx

/-- The program as a run of the daemon: it has not started, or it has done the events. -/
def Refines (h : Host) (o : Options) (t : Nat) (s : MainState) (es : List Event) : Prop :=
  (s.pc = .start ∧ s.conf = init o ∧ t ≤ s.clock ∧ es = []) ∨
  (s.pc ≠ .start ∧ ∃ now ifap, t ≤ now ∧ now ≤ s.clock ∧ Clocked now es ∧
    (∀ e ∈ es, e.now ≤ s.clock) ∧ s.conf = run h (boot h o now ifap) es)

/-- `SIGUSR2` before the interfaces are known finds no upstream interface. -/
theorem sigusr2_init (h : Host) (o : Options) : sigusr2 h (init o) = init o := by
  unfold sigusr2
  split
  · rfl
  · rfl

/-- The program does not come back to its start. -/
theorem perform_pc_start (h : Host) {s : MainState} {a : MainAction}
    (hs : (perform h s a).pc = .start) : s.pc = .start := by
  cases a with
  | main dt k =>
    cases hpc : s.pc with
    | start => rfl
    | whileTest => cases hg : s.gQuit <;> cases hq : s.quit <;> simp_all [perform, mainStep]
    | ifTest => cases hn : s.gNeedsTimeout <;> simp_all [perform, mainStep]
    | receive => cases hk : k.frame <;> simp_all [perform, mainStep]
    | _ => simp_all [perform, mainStep]
  | _ => simpa [perform] using hs

/-- An action before the interfaces are scanned, and the scan. -/
theorem refines_start {h : Host} {o : Options} {t : Nat} {s : MainState} (a : MainAction)
    (hpc : s.pc = .start) (hconf : s.conf = init o) (ht : t ≤ s.clock) :
    Refines h o t (perform h s a) [] := by
  cases a with
  | main dt k =>
    refine Or.inr ⟨by simp [perform, mainStep, hpc], s.clock, k.ifap, ht, ?_, ?_, by simp, ?_⟩
    · simp [perform]
    · simp [Clocked]
    · simp [perform, mainStep, hpc, hconf, boot]
  | sigusr2 dt => exact Or.inl ⟨hpc, by simp [perform, hconf, sigusr2_init], ht, rfl⟩
  | _ => exact Or.inl ⟨by simpa [perform] using hpc, by simpa [perform] using hconf,
      by simpa [perform] using ht, rfl⟩

/-- **One action** keeps the simulation. -/
theorem refines_act {h : Host} {o : Options} {t : Nat} {s : MainState} {es : List Event}
    (hr : Refines h o t s es) (a : MainAction) :
    Refines h o t (act h s a) (es ++ tableEvent (s.elapse a.dt) a) := by
  by_cases hd : s.pc = .done
  · rw [act_done s h a hd, tableEvent_done (s := s.elapse a.dt) hd, List.append_nil]
    exact hr
  rcases hr with ⟨hpc, hconf, ht, rfl⟩ | ⟨hpc, now, ifap, ht, hnow, hc, hle, hconf⟩
  · have hnone : tableEvent (s.elapse a.dt) a = [] := by
      cases a <;> simp [tableEvent, hpc]
    rw [act_perform s h a hd, hnone]
    exact refines_start a hpc hconf (Nat.le_trans ht (Nat.le_add_right _ _))
  · have hclock := act_clock h s a hd
    have hlast : (s.elapse a.dt).clock = (act h s a).clock := hclock.symm
    have hold : ∀ e ∈ es, e.now ≤ (act h s a).clock := fun e he => by
      have := hle e he
      omega
    refine Or.inr ⟨?_, now, ifap, ht, by omega, ?_, ?_, ?_⟩
    · rw [act_perform s h a hd]
      exact fun hs => hpc (perform_pc_start h (s := s.elapse a.dt) hs)
    · rcases tableEvent_cases (s.elapse a.dt) a with hev | ⟨e, hev, hnow'⟩
      · rwa [hev, List.append_nil]
      · rw [hev]
        rw [hlast] at hnow'
        exact clocked_snoc hc (by omega) fun x hx => by have := hold x hx; omega
    · intro e he
      rcases List.mem_append.mp he with he | he
      · exact hold e he
      · rcases tableEvent_cases (s.elapse a.dt) a with hev | ⟨x, hev, hnow'⟩
        · simp [hev] at he
        · rw [hev, List.mem_singleton] at he
          exact Nat.le_of_eq (he ▸ hnow'.trans hlast)
    · rw [act_conf h s a hpc, hconf]
      exact (Runs.run_append _ _ _).symm

/-- Every interleaving of the loop and the signals is a run of the daemon. -/
theorem refines_run (h : Host) (o : Options) (t : Nat) (as : List MainAction) :
    Refines h o t (runMain h (mainStart o t) as) (tableEvents h (mainStart o t) as) := by
  induction as using List.reverseRecOn with
  | nil => exact Or.inl ⟨rfl, rfl, Nat.le_refl t, rfl⟩
  | append_singleton as a ih =>
    rw [tableEvents_concat, runMain, Runs.run_concat]
    exact refines_act ih a

/-- **The program refines the daemon.**  In whatever order frames, alarms and signals come, the
tables that `main` has once it is started are those of a run of the daemon, over the events that
the actions are and with a clock that does not run backwards; a signal before that changes no
table. -/
theorem main_refines (h : Host) (o : Options) (t : Nat) (as : List MainAction) :
    ((runMain h (mainStart o t) as).pc = .start ∧ (runMain h (mainStart o t) as).conf = init o ∧
      tableEvents h (mainStart o t) as = []) ∨
    ∃ now ifap, t ≤ now ∧ Clocked now (tableEvents h (mainStart o t) as) ∧
      (runMain h (mainStart o t) as).conf
        = run h (boot h o now ifap) (tableEvents h (mainStart o t) as) ∧
      ReachableAt h (runMain h (mainStart o t) as).conf (runMain h (mainStart o t) as).clock := by
  rcases refines_run h o t as with ⟨hpc, hconf, -, hes⟩ | ⟨-, now, ifap, ht, hnow, hc, hle, hconf⟩
  · exact Or.inl ⟨hpc, hconf, hes⟩
  · exact Or.inr ⟨now, ifap, ht, hc, hconf, o, now, ifap, _, hc, hle, hnow, hconf⟩

/-- The mode of a daemon: `mld1only` and `mld2only`. -/
def Conf.mode (st : Conf) : Bool × Bool := (st.mld1only, st.mld2only)

/-- No primitive operation touches the two options. -/
theorem prim_mode {h : Host} {m : Bool × Bool} (a b : Conf) (hp : Prim h a b) (ha : a.mode = m) :
    b.mode = m := by
  cases hp with
  | icmp sender i packet len _ =>
    have hs := sendpacket6_sendsOnly h sender a i packet len
    exact (congrArg₂ Prod.mk hs.mld1only hs.mld2only).trans ha
  | forward i packet len =>
    have hs := sendpacket6_sendsOnly h .l4Ipv6Multicast a i packet len
    exact (congrArg₂ Prod.mk hs.mld1only hs.mld2only).trans ha
  | table groups => exact ha
  | write i f _ => exact ha
  | create ifindex probe _ =>
    have hi := intCreate_interfacesOnly a ifindex probe
    exact (congrArg₂ Prod.mk hi.mld1only hi.mld2only).trans ha
  | undone ifindex probe _ =>
    have hi := intCreate_interfacesOnly a ifindex probe
    exact (congrArg₂ Prod.mk hi.mld1only hi.mld2only).trans ha
  | updated now => exact ha

/-- No event changes it. -/
theorem step_mode (h : Host) {m : Bool × Bool} (st : Conf) (ev : Event) (hm : st.mode = m) :
    (step h st ev).mode = m := by
  refine step_keeps (P := fun st => st.mode = m) (Q := fun _ st => st.mode = m) prim_mode
    (fun _ _ h => h) (fun _ => prim_mode) (fun _ _ h => h) (fun _ _ h => h)
    (fun st i len s hst hl => ?_) st ev hm
  cases hl <;> exact hst

/-- **The mode of the program** is that of the last `-1` or `-2`, from its start to its end. -/
theorem program_mode (h : Host) {o o' : Options} {opts : List Opt}
    (ho : handleOptions o opts = some o') (t : Nat) (as : List MainAction) :
    (runMain h (mainStart o' t) as).conf.mode = opts.foldl Opt.mode (o.mld1only, o.mld2only) := by
  rw [← (handleOptions_some opts ho).1]
  rcases refines_run h o' t as with ⟨-, hconf, -⟩ | ⟨-, now, ifap, -, -, -, -, hconf⟩
  · rw [hconf]
    rfl
  · rw [hconf]
    exact Runs.run_invariant (step_mode h) _ _ ((boot_does h now o' ifap).keeps prim_mode rfl)

/-! ## 4. No timeout is lost

The invariant speaks of the signal, the flag and the alarm together: whenever one of them cannot
bring about the next timeout, another one can. -/

/-- `SIGALRM` is only ignored while a timeout is due or has just been run, and there is a timeout
due, or one has just been run, or the alarm is set. -/
structure Sound (s : MainState) : Prop where
  flagged : s.ignored = true → s.gNeedsTimeout = true ∨ s.pc = .resetSignal
  pending : s.gNeedsTimeout = true ∨ s.pc = .resetSignal ∨ s.pc = .resetAlarm ∨
    ∃ due, s.alarm = some due ∧ due ≤ s.clock + ecmhSubscriptionTimeout

/-- At the start the signal has its handler. -/
theorem sound_start (o : Options) (t : Nat) : Sound (mainStart o t) where
  flagged h := by simp [mainStart] at h
  pending := Or.inr (Or.inr (Or.inr ⟨_, rfl, Nat.le_refl _⟩))

/-- Time does nothing but pass. -/
theorem sound_elapse {s : MainState} (hs : Sound s) (dt : Nat) : Sound (s.elapse dt) where
  flagged := hs.flagged
  pending := by
    rcases hs.pending with h | h | h | ⟨due, ha, hd⟩
    · exact Or.inl h
    · exact Or.inr (Or.inl h)
    · exact Or.inr (Or.inr (Or.inl h))
    · exact Or.inr (Or.inr (Or.inr ⟨due, ha, Nat.le_trans hd (by simp)⟩))

/-- A signal that is not ignored makes the timeout due. -/
theorem timeoutSignal_due {s : MainState} (hi : s.ignored = false) :
    (timeoutSignal s).gNeedsTimeout = true := by
  simp [timeoutSignal, hi]

/-- The handler sets the flag before it gives the signal up. -/
theorem sound_timeoutSignal {s : MainState}
    (hf : s.ignored = true → s.gNeedsTimeout = true ∨ s.pc = .resetSignal) :
    Sound (timeoutSignal s) := by
  cases hi : s.ignored with
  | false => exact ⟨fun _ => Or.inl (timeoutSignal_due hi), Or.inl (timeoutSignal_due hi)⟩
  | true =>
    have heq : timeoutSignal s = s := if_pos hi
    rw [heq]
    refine ⟨hf, ?_⟩
    rcases hf hi with h | h
    · exact Or.inl h
    · exact Or.inr (Or.inl h)

/-- A statement of `main`: only `turnOff` clears the flag, and what follows it sets the alarm. -/
theorem sound_mainStep (h : Host) {s : MainState} (hs : Sound s) (k : Inputs) :
    Sound (mainStep h s k) := by
  have hf := hs.flagged
  have hp := hs.pending
  unfold mainStep
  cases hpc : s.pc with
  | turnOff => exact ⟨fun _ => Or.inr rfl, Or.inr (Or.inl rfl)⟩
  | resetSignal => exact ⟨fun h => (by simp at h), Or.inr (Or.inr (Or.inl rfl))⟩
  | resetAlarm =>
    refine ⟨fun hi => ?_, Or.inr (Or.inr (Or.inr ⟨_, rfl, Nat.le_refl _⟩))⟩
    rcases hf hi with h | h
    · exact Or.inl h
    · simp [hpc] at h
  | receive =>
    simp only [hpc, reduceCtorEq, or_false, false_or] at hf hp
    cases k.frame <;> exact ⟨fun hi => Or.inl (hf hi), hp.imp_right fun h => Or.inr (Or.inr h)⟩
  | _ =>
    simp only [hpc, reduceCtorEq, or_false, false_or] at hf hp
    exact ⟨fun hi => Or.inl (hf hi), hp.imp_right fun h => Or.inr (Or.inr h)⟩

/-- **One action** keeps it: where the signal is given up, the flag is set or the program is about
to take the signal again. -/
theorem sound_act (h : Host) {s : MainState} (hs : Sound s) (a : MainAction) :
    Sound (act h s a) := by
  by_cases hd : s.pc = .done
  · rwa [act_done s h a hd]
  rw [act_perform s h a hd]
  have he := sound_elapse hs a.dt
  cases a with
  | main dt k => exact sound_mainStep h he k
  | alarm dt =>
    rcases alarmSignal_cases (s.elapse dt) with ⟨_, _, _, heq⟩ | heq
    · simp only [perform, MainAction.dt, heq]
      exact sound_timeoutSignal he.flagged
    · simp only [perform, MainAction.dt, heq]
      exact he
  | sigalrm dt => exact sound_timeoutSignal he.flagged
  | sigusr2 dt => exact ⟨he.flagged, he.pending⟩
  | sigterm dt => exact ⟨he.flagged, he.pending⟩

/-- It holds throughout. -/
theorem sound_run (h : Host) (as : List MainAction) {s : MainState} (hs : Sound s) :
    Sound (runMain h s as) :=
  Runs.run_invariant (P := Sound) (fun _ a hs => sound_act h hs a) as s hs

/-- Where the alarm goes off in time and the handler is there, the timeout is due. -/
theorem alarm_due (h : Host) {s : MainState} {due dt : Nat} (ha : s.alarm = some due)
    (hi : s.ignored = false) (hdt : due ≤ s.clock + dt) (hlive : s.pc ≠ .done) :
    (act h s (.alarm dt)).gNeedsTimeout = true := by
  have hgo : alarmSignal (s.elapse dt) = timeoutSignal { s.elapse dt with alarm := none } := by
    rw [alarmSignal, elapse_alarm, ha]
    exact if_pos hdt
  rw [act_perform s h _ hlive]
  simp only [perform, MainAction.dt, hgo]
  exact timeoutSignal_due hi

/-- **No timeout is lost.**  Whenever the signals come, a timeout is due, or `main` is about to
set the next alarm after one, or the alarm is set, for 125 seconds from now at the latest, and
the handler is there for it: once it is due and goes off, the timeout is due. -/
theorem timeout_never_lost (h : Host) (o : Options) (t : Nat) (as : List MainAction) :
    (runMain h (mainStart o t) as).gNeedsTimeout = true ∨
    (runMain h (mainStart o t) as).pc = .resetSignal ∨
    (runMain h (mainStart o t) as).pc = .resetAlarm ∨
    ∃ due, (runMain h (mainStart o t) as).alarm = some due ∧
      due ≤ (runMain h (mainStart o t) as).clock + ecmhSubscriptionTimeout ∧
      ∀ dt, due ≤ (runMain h (mainStart o t) as).clock + dt →
        (runMain h (mainStart o t) as).pc ≠ .done →
        (act h (runMain h (mainStart o t) as) (.alarm dt)).gNeedsTimeout = true := by
  have hs := sound_run h as (sound_start o t)
  rcases hs.pending with hn | hp | hp | ⟨due, ha, hd⟩
  · exact Or.inl hn
  · exact Or.inr (Or.inl hp)
  · exact Or.inr (Or.inr (Or.inl hp))
  cases hi : (runMain h (mainStart o t) as).ignored with
  | true =>
    rcases hs.flagged hi with hn | hp
    · exact Or.inl hn
    · exact Or.inr (Or.inl hp)
  | false =>
    exact Or.inr (Or.inr (Or.inr ⟨due, ha, hd, fun dt hdt hlive => alarm_due h ha hi hdt hlive⟩))

/-! ## 5. A timeout that is due is run soon

A measure goes down with each statement of `main`, and signals do not raise it. -/

/-- How many statements `main` is from the call of `timeout`, with the flag set. -/
def Pc.toTimeout : Pc → Nat
  | .resetSignal => 5
  | .resetAlarm => 4
  | .receive => 3
  | .start => 3
  | .whileTest => 2
  | .ifTest => 1
  | .runTimeout => 0
  | .turnOff => 0
  | .done => 0

/-- How many frames it takes on the way. -/
def Pc.framesBefore : Pc → Nat
  | .resetSignal => 1
  | .resetAlarm => 1
  | .receive => 1
  | _ => 0

def MainAction.isMain : MainAction → Bool
  | .main _ _ => true
  | _ => false

def Event.isFrame : Event → Bool
  | .frame _ _ => true
  | _ => false

/-- The timeout is due, and not the one that has just been run. -/
def Due (s : MainState) : Prop := s.gNeedsTimeout = true ∧ s.pc ≠ .turnOff

instance (s : MainState) : Decidable (Due s) := inferInstanceAs (Decidable (_ ∧ _))

/-- An action with a timeout due that is not the timeout leaves it due.  A statement of `main`
comes closer to it, or ends the loop; a frame uses up the one that is allowed. -/
structure Closer (h : Host) (s : MainState) (a : MainAction) : Prop where
  none : ∀ e ∈ tableEvent s a, e.isTimeout = false
  due : Due (perform h s a)
  frames : (tableEvent s a).countP Event.isFrame + (perform h s a).pc.framesBefore
    ≤ s.pc.framesBefore
  steps : (perform h s a).pc = .done ∨
    (perform h s a).pc.toTimeout + (if a.isMain then 1 else 0) ≤ s.pc.toTimeout

/-- **One statement** of the loop comes closer to the timeout, or runs it. -/
theorem closer_main (h : Host) {s : MainState} (hs : Due s) (hlive : s.pc ≠ .done) (dt : Nat)
    (k : Inputs) : s.pc = .runTimeout ∨ Closer h s (.main dt k) := by
  obtain ⟨hn, hpc'⟩ := hs
  cases hpc : s.pc with
  | runTimeout => exact Or.inl rfl
  | turnOff => exact absurd hpc hpc'
  | done => exact absurd hpc hlive
  | whileTest =>
    right
    by_cases hq : (!s.gQuit && !s.quit) = true
    · constructor <;>
        simp [tableEvent, perform, mainStep, hpc, hq, Due, hn, Pc.framesBefore, Pc.toTimeout,
          MainAction.isMain]
    · constructor <;>
        simp [tableEvent, perform, mainStep, hpc, hq, Due, hn, Pc.framesBefore, Pc.toTimeout,
          MainAction.isMain]
  | receive =>
    right
    cases hk : k.frame <;> constructor <;>
      simp [tableEvent, perform, mainStep, hpc, hk, Due, hn, Pc.framesBefore, Pc.toTimeout,
        Event.isTimeout, Event.isFrame, MainAction.isMain]
  | _ =>
    right
    constructor <;>
      simp [tableEvent, perform, mainStep, hpc, Due, hn, Pc.framesBefore, Pc.toTimeout,
        MainAction.isMain]

/-- A second signal leaves the flag set. -/
theorem timeoutSignal_keeps {s : MainState} (hn : s.gNeedsTimeout = true) :
    (timeoutSignal s).gNeedsTimeout = true := by
  unfold timeoutSignal
  split
  · exact hn
  · rfl

/-- So does the alarm. -/
theorem alarmSignal_keeps {s : MainState} (hn : s.gNeedsTimeout = true) :
    (alarmSignal s).gNeedsTimeout = true := by
  rcases alarmSignal_cases s with ⟨_, _, _, heq⟩ | heq
  · rw [heq]
    exact timeoutSignal_keeps hn
  · rwa [heq]

/-- A signal leaves `main` where it is. -/
theorem closer_signal (h : Host) {s : MainState} (hs : Due s) {a : MainAction}
    (ha : a.isMain = false) : Closer h s a := by
  have hev : ∀ e ∈ tableEvent s a, e.isTimeout = false ∧ e.isFrame = false := by
    cases a with
    | main dt k => simp [MainAction.isMain] at ha
    | sigusr2 dt => cases hpc : s.pc <;> simp [tableEvent, hpc, Event.isTimeout, Event.isFrame]
    | _ => cases hpc : s.pc <;> simp [tableEvent]
  have hpc : (perform h s a).pc = s.pc := by
    cases a with
    | main dt k => simp [MainAction.isMain] at ha
    | _ => simp [perform]
  have hn : (perform h s a).gNeedsTimeout = true := by
    cases a with
    | main dt k => simp [MainAction.isMain] at ha
    | alarm dt => exact alarmSignal_keeps hs.1
    | sigalrm dt => exact timeoutSignal_keeps hs.1
    | _ => exact hs.1
  have hcount : (tableEvent s a).countP Event.isFrame = 0 :=
    List.countP_eq_zero.mpr fun e he => by simp [(hev e he).2]
  exact
    { none := fun e he => (hev e he).1
      due := ⟨hn, hpc.symm ▸ hs.2⟩
      frames := by rw [hcount, hpc]; omega
      steps := Or.inr (by rw [hpc, ha]; simp) }

/-- **One action with a timeout due**: it is the timeout, or it comes closer to it. -/
theorem due_act (h : Host) {s : MainState} (hs : Due s) (hlive : s.pc ≠ .done) (a : MainAction) :
    (∃ e, tableEvent s a = [e] ∧ e.isTimeout = true) ∨ Closer h s a := by
  cases a with
  | main dt k =>
    rcases closer_main h hs hlive dt k with hpc | hc
    · exact Or.inl ⟨.timeout s.clock k.ifap, by simp [tableEvent, hpc], rfl⟩
    · exact Or.inr hc
  | _ => exact Or.inr (closer_signal h hs rfl)

/-- Nothing happens any more once the program has ended. -/
theorem run_done (h : Host) : ∀ (as : List MainAction) {s : MainState}, s.pc = .done →
    runMain h s as = s ∧ tableEvents h s as = [] := by
  intro as
  induction as with
  | nil => exact fun _ => ⟨rfl, rfl⟩
  | cons a as ih =>
    intro s hs
    have hev := tableEvent_done (s := s.elapse a.dt) hs a
    have hact := act_done s h a hs
    rw [runMain, Runs.run_cons, tableEvents, hev, hact]
    exact ih hs

/-- Actions without a timeout among them, with one due: few statements, fewer frames. -/
theorem due_run (h : Host) : ∀ (as : List MainAction) {s : MainState}, Due s → s.pc ≠ .done →
    (∀ e ∈ tableEvents h s as, e.isTimeout = false) →
    (tableEvents h s as).countP Event.isFrame ≤ s.pc.framesBefore ∧
      ((runMain h s as).pc = .done ∨ as.countP MainAction.isMain ≤ s.pc.toTimeout) := by
  intro as
  induction as with
  | nil => exact fun _ _ _ => ⟨Nat.zero_le _, Or.inr (Nat.zero_le _)⟩
  | cons a as ih =>
    intro s hs hlive hnone
    rw [tableEvents, List.forall_mem_append] at hnone
    rw [tableEvents, List.countP_append, List.countP_cons, runMain, Runs.run_cons]
    rcases due_act h (s := s.elapse a.dt) hs hlive a with ⟨e, he, ht⟩ | ⟨-, hdue, hframes, hsteps⟩
    · rw [hnone.1 e (by simp [he])] at ht
      cases ht
    rw [← act_perform s h a hlive] at hdue hframes hsteps
    by_cases hd : (act h s a).pc = .done
    · obtain ⟨hrun, hev⟩ := run_done h as hd
      rw [hev]
      exact ⟨Nat.le_trans (Nat.le_add_right _ _) hframes,
        Or.inl ((congrArg MainState.pc hrun).trans hd)⟩
    · obtain ⟨hf, hm⟩ := ih hdue hd hnone.2
      rw [elapse_pc] at hframes hsteps
      exact ⟨by omega, hm.imp_right fun hm => by have := hsteps.resolve_left hd; omega⟩

/-- The times of the timeouts. -/
def timeoutTimes (es : List Event) : List Nat := (es.filter Event.isTimeout).map Event.now

def MainAction.isSigalrm : MainAction → Bool
  | .sigalrm _ => true
  | _ => false

/-- `main` is between a timeout and the alarm after it. -/
def Pc.afterTimeout : Pc → Bool
  | .turnOff => true
  | .resetSignal => true
  | .resetAlarm => true
  | _ => false

/-- The last timeout was at time `last`: the alarm is set for 125 seconds later, or it went off
then. -/
structure Spaced (last : Nat) (s : MainState) : Prop where
  running : s.pc = .runTimeout → s.gNeedsTimeout = true
  off : s.pc.afterTimeout = true → s.alarm = none ∧ (s.gNeedsTimeout = true → s.pc = .turnOff)
  once : s.gNeedsTimeout = true → s.alarm = none
  late : s.gNeedsTimeout = true → s.pc ≠ .turnOff → last + ecmhSubscriptionTimeout ≤ s.clock
  next : ∀ due, s.alarm = some due → last + ecmhSubscriptionTimeout ≤ due
  past : last ≤ s.clock

/-- The first alarm is a whole interval away. -/
theorem spaced_start (o : Options) (t : Nat) : Spaced t (mainStart o t) := by
  constructor <;> simp [mainStart, Pc.afterTimeout]

/-- The alarm does not come closer to the last timeout while time passes. -/
theorem spaced_elapse {last : Nat} {s : MainState} (hs : Spaced last s) (dt : Nat) :
    Spaced last (s.elapse dt) :=
  { hs with
    late := fun hn hp => Nat.le_trans (hs.late hn hp) (Nat.le_add_right _ _)
    past := Nat.le_trans hs.past (Nat.le_add_right _ _) }

/-- The alarm that goes off was a whole interval away from the last timeout. -/
theorem spaced_alarmSignal {last : Nat} {s : MainState} (hs : Spaced last s) :
    Spaced last (alarmSignal s) := by
  rcases alarmSignal_cases s with ⟨due, ha, hdue, heq⟩ | heq
  · have hlate : last + ecmhSubscriptionTimeout ≤ s.clock := Nat.le_trans (hs.next due ha) hdue
    have hpc : s.pc.afterTimeout ≠ true := fun hpc => by simp [(hs.off hpc).1] at ha
    rw [heq]
    constructor
    · exact fun hp => timeoutSignal_keeps (hs.running (by simpa using hp))
    · exact fun hp => absurd (by simpa using hp) hpc
    · exact fun _ => by simp
    · exact fun _ _ => by simpa using hlate
    · simp
    · simpa using hs.past
  · rwa [heq]

/-- A statement that is not after a timeout, nor is the next one. -/
theorem spaced_goto {last : Nat} {s : MainState} (hs : Spaced last s) {conf : Conf} {quit : Bool}
    {pc : Pc} (hp : s.pc.afterTimeout = false) (hpc : pc.afterTimeout = false)
    (hrun : pc = .runTimeout → s.gNeedsTimeout = true) :
    Spaced last { s with conf := conf, quit := quit, pc := pc } where
  running := hrun
  off h := by simp [hpc] at h
  once := hs.once
  late hn _ := hs.late hn fun h => by simp [h, Pc.afterTimeout] at hp
  next := hs.next
  past := hs.past

/-- A statement of `main` that is not the timeout. -/
theorem spaced_mainStep (h : Host) {last : Nat} {s : MainState} (hs : Spaced last s)
    (k : Inputs) (hne : s.pc ≠ .runTimeout) : Spaced last (mainStep h s k) := by
  have hoff := hs.off
  unfold mainStep
  cases hpc : s.pc with
  | runTimeout => exact absurd hpc hne
  | turnOff =>
    rw [hpc] at hoff
    have hnone := (hoff rfl).1
    constructor <;> simp [hnone, hs.past]
  | resetSignal =>
    rw [hpc] at hoff
    obtain ⟨hnone, hn⟩ := hoff rfl
    constructor <;> simp_all [hs.past]
  | resetAlarm =>
    rw [hpc] at hoff
    obtain ⟨-, hn⟩ := hoff rfl
    constructor <;> simp_all [hs.past, Pc.afterTimeout]
  | ifTest =>
    have hcur : s.pc.afterTimeout = false := by rw [hpc]; rfl
    dsimp only
    split
    · exact spaced_goto hs hcur rfl fun _ => ‹_›
    · exact spaced_goto hs hcur rfl (fun h => by simp at h)
  | whileTest =>
    have hcur : s.pc.afterTimeout = false := by rw [hpc]; rfl
    dsimp only
    split
    · exact spaced_goto hs hcur rfl (fun h => by simp at h)
    · exact spaced_goto hs hcur rfl (fun h => by simp at h)
  | receive =>
    have hcur : s.pc.afterTimeout = false := by rw [hpc]; rfl
    cases k.frame with
    | none => exact spaced_goto hs hcur rfl (fun h => by simp at h)
    | some f => exact spaced_goto hs hcur rfl (fun h => by simp at h)
  | start =>
    exact spaced_goto hs (by rw [hpc]; rfl) rfl (fun h => by simp at h)
  | done => exact hs

/-- The timeout is late enough, and is the last one from then on. -/
theorem spaced_timeout (h : Host) {last : Nat} {s : MainState} (hs : Spaced last s)
    (k : Inputs) (hpc : s.pc = .runTimeout) :
    last + ecmhSubscriptionTimeout ≤ s.clock ∧ Spaced s.clock (mainStep h s k) := by
  have hn := hs.running hpc
  have hnone := hs.once hn
  refine ⟨hs.late hn (by simp [hpc]), ?_⟩
  unfold mainStep
  rw [hpc]
  constructor <;> simp [hnone]

/-- **One action**: it is no timeout, or one that is late enough. -/
theorem spaced_act (h : Host) {last : Nat} {s : MainState} (hs : Spaced last s) {a : MainAction}
    (ha : a.isSigalrm = false) :
    (timeoutTimes (tableEvent s a) = [] ∧ Spaced last (perform h s a)) ∨
    (timeoutTimes (tableEvent s a) = [s.clock] ∧ last + ecmhSubscriptionTimeout ≤ s.clock ∧
      Spaced s.clock (perform h s a)) := by
  cases a with
  | main dt k =>
    by_cases hpc : s.pc = .runTimeout
    · have hev : tableEvent s (.main dt k) = [.timeout s.clock k.ifap] := by
        simp [tableEvent, hpc]
      exact Or.inr ⟨by rw [hev]; rfl, spaced_timeout h hs k hpc⟩
    · refine Or.inl ⟨?_, spaced_mainStep h hs k hpc⟩
      cases hp : s.pc with
      | runTimeout => exact absurd hp hpc
      | receive => cases hk : k.frame <;> simp [timeoutTimes, tableEvent, hp, hk, Event.isTimeout]
      | _ => simp [timeoutTimes, tableEvent, hp]
  | alarm dt =>
    exact Or.inl ⟨by cases hp : s.pc <;> simp [timeoutTimes, tableEvent], spaced_alarmSignal hs⟩
  | sigalrm dt => simp [MainAction.isSigalrm] at ha
  | sigusr2 dt =>
    refine Or.inl ⟨?_, ⟨hs.running, hs.off, hs.once, hs.late, hs.next, hs.past⟩⟩
    cases hp : s.pc <;> simp [timeoutTimes, tableEvent, hp, Event.isTimeout]
  | sigterm dt =>
    exact Or.inl ⟨by cases hp : s.pc <;> simp [timeoutTimes, tableEvent],
      ⟨hs.running, hs.off, hs.once, hs.late, hs.next, hs.past⟩⟩

/-- Over a run in which nobody else sends the signal, the timeouts are apart. -/
theorem spaced_run (h : Host) : ∀ (as : List MainAction) {last : Nat} {s : MainState},
    Spaced last s → (∀ a ∈ as, a.isSigalrm = false) →
    (last :: timeoutTimes (tableEvents h s as)).Pairwise
      fun a b => a + ecmhSubscriptionTimeout ≤ b := by
  intro as
  induction as with
  | nil => exact fun _ _ => by simp [tableEvents, timeoutTimes]
  | cons a as ih =>
    intro last s hs has
    rw [List.forall_mem_cons] at has
    by_cases hd : s.pc = .done
    · simp [(run_done h (a :: as) hd).2, timeoutTimes]
    have hsplit : timeoutTimes (tableEvents h s (a :: as))
        = timeoutTimes (tableEvent (s.elapse a.dt) a)
          ++ timeoutTimes (tableEvents h (perform h (s.elapse a.dt) a) as) := by
      rw [← act_perform s h a hd]
      simp [timeoutTimes, tableEvents]
    rw [hsplit]
    rcases spaced_act h (spaced_elapse hs a.dt) has.1 with ⟨hev, hnext⟩ | ⟨hev, hlate, hnext⟩
    · rw [hev]
      exact ih hnext has.2
    · rw [hev]
      have hrest := ih hnext has.2
      refine List.pairwise_cons.mpr ⟨fun b hb => ?_, hrest⟩
      rcases List.mem_cons.mp hb with rfl | hb
      · exact hlate
      · have := (List.pairwise_cons.mp hrest).1 b hb
        omega

/-- **Timeouts are 125 seconds apart**, and the first is 125 seconds after the start of `main`, if
nobody else sends `SIGALRM`: an alarm that goes off while a timeout is due or being run does not
lead to another one. -/
theorem timeouts_apart (h : Host) (o : Options) (t : Nat) (as : List MainAction)
    (hown : ∀ a ∈ as, a.isSigalrm = false) :
    (t :: timeoutTimes (tableEvents h (mainStart o t) as)).Pairwise
      fun a b => a + ecmhSubscriptionTimeout ≤ b :=
  spaced_run h as (spaced_start o t) hown

/-! ## 7. A run of the program -/

/-- The program is started, asks for reports, and waits for a frame; the alarm goes off, and the
frame comes.  `main` takes it, and then runs the timeout. -/
def oneRound : List MainAction :=
  let k : Inputs := ⟨none, some (mldFrame 1 mld1JoinMessage)⟩
  [.main 0 k, .main 0 k, .main 0 k, .alarm 125, .main 5 k, .main 0 k, .main 0 k, .main 0 k]

/-- The next alarm is set and goes off, and there is another frame and another timeout. -/
def twoRounds : List MainAction :=
  let k : Inputs := ⟨none, some (mldFrame 1 mld1JoinMessage)⟩
  oneRound ++ [.main 0 k, .main 0 k, .main 0 k, .main 0 k, .main 0 k, .alarm 125, .main 5 k,
    .main 0 k, .main 0 k, .main 0 k]

theorem twoRounds_apart : timeoutTimes (tableEvents (quietHost .little) (mainStart plainOptions 0)
      twoRounds) = [130, 260] ∧
    (0 :: timeoutTimes (tableEvents (quietHost .little) (mainStart plainOptions 0)
      twoRounds)).Pairwise fun a b => a + ecmhSubscriptionTimeout ≤ b :=
  ⟨by decide +kernel, timeouts_apart (quietHost .little) plainOptions 0 twoRounds (by decide)⟩

end Ecmh
