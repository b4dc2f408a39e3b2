/-
# What the only-modes let out

In `mld1only` mode no MLDv2 report and no query in MLDv2 format is to be sent, and in `mld2only`
mode no MLDv1 report and no query in MLDv1 format.  Every sender asks for the mode but one: the
handler of `SIGUSR2` calls `mld2_send_report` in either mode.
-/
import Ecmh.ReportSilent
import Ecmh.IntTable

namespace Ecmh

open ByteMem

/-! ## 1. The formats -/

/-- The version of MLD in whose format a packet of the daemon's own is; of a query it is told by
the length. -/
def Sent.mldFormat (x : Sent) : Option Nat :=
  match x.sender with
  | .mldSendQuery => some (if x.packet.length = 72 then 1 else 2)
  | .mld1SendReport _ => some 1
  | .mld2SendReport _ => some 2
  | .icmp6Send => none
  | .l4Ipv6Multicast => none

/-- The packet is none that the modes keep in. -/
structure LetOut (mld1only mld2only : Bool) (x : Sent) : Prop where
  mld1only : mld1only = true → x.mldFormat ≠ some 2
  mld2only : mld2only = true → x.mldFormat ≠ some 1

/-- The modes have restricted all output so far. -/
def RestrictsOutput (st : Conf) : Prop := ∀ x ∈ st.sent, LetOut st.mld1only st.mld2only x

/-- What `SIGUSR2` finds in `mld1only` mode: an upstream interface on which there is nothing to
report. -/
def SilentSignal (st : Conf) : Event → Prop
  | .sigusr2 _ => st.mld1only = true → st.upstream.isSome = true →
    ∀ i, intFind st st.upstreamId = some i →
      ∀ g a, ¬ WantedElsewhere st.groups (st.intn i).ifindex g a
  | _ => True

/-! ## 2. One event -/

/-- The two modes exclude each other. -/
def OneMode (st : Conf) : Prop := ¬ (st.mld1only = true ∧ st.mld2only = true)

theorem MldSent.letOut {m1 m2 : Bool} (hone : ¬ (m1 = true ∧ m2 = true)) {x : Sent}
    (hx : MldSent m1 m2 x) : LetOut m1 m2 x := by
  constructor
  · intro h1 hformat
    unfold Sent.mldFormat at hformat
    split at hformat
    · rename_i hs
      rw [hx.query hs, if_pos h1] at hformat
      cases hformat
    · cases hformat
    · rename_i recs hs
      exact absurd (h1.symm.trans (hx.mld2 recs hs)) (by decide)
    · cases hformat
    · cases hformat
  · intro h2 hformat
    unfold Sent.mldFormat at hformat
    split at hformat
    · rename_i hs
      rw [hx.query hs, if_neg fun h1 => hone ⟨h1, h2⟩] at hformat
      cases hformat
    · rename_i mca hs
      exact absurd (h2.symm.trans (hx.mld1 mca hs)) (by decide)
    · cases hformat
    · cases hformat
    · cases hformat

theorem letOut_of_format_none {m1 m2 : Bool} {x : Sent} (hx : x.mldFormat = none) :
    LetOut m1 m2 x := by
  constructor
  · intro _ hc
    rw [hx] at hc
    cases hc
  · intro _ hc
    rw [hx] at hc
    cases hc

theorem Message.Sends.letOut {h : Host} {st : Conf} (hone : OneMode st) {i len : Nat} {x : Sent}
    {m : Message} (hx : m.Sends h st i len x) : LetOut st.mld1only st.mld2only x := by
  cases m with
  | data iph => exact letOut_of_format_none (by rw [Sent.mldFormat, hx.1])
  | echo iph => exact letOut_of_format_none (by rw [Sent.mldFormat, hx.1])
  | echoExceeded iph off plen => exact letOut_of_format_none (by rw [Sent.mldFormat, hx.1])
  | dropped => exact MldSent.letOut hone hx
  | ignored => exact MldSent.letOut hone hx
  | exceeded => exact MldSent.letOut hone hx
  | mld1Report mld1 => exact MldSent.letOut hone hx
  | mld1Reduction mld1 => exact MldSent.letOut hone hx
  | mld2Report mld2r plen => exact MldSent.letOut hone hx
  | query plen => exact MldSent.letOut hone hx

/-- What an event may do to the modes and to the packets sent. -/
structure LetsOut (st st' : Conf) : Prop where
  mld1only : st'.mld1only = st.mld1only
  mld2only : st'.mld2only = st.mld2only
  sent : AllSent (LetOut st.mld1only st.mld2only) st st'

section LetsOut

variable {a b c : Conf}

theorem LetsOut.refl (st : Conf) : LetsOut st st := ⟨rfl, rfl, .refl st⟩

theorem LetsOut.trans (h1 : LetsOut a b) (h2 : LetsOut b c) : LetsOut a c := by
  refine ⟨h2.mld1only.trans h1.mld1only, h2.mld2only.trans h1.mld2only, h1.sent.trans ?_⟩
  rw [← h1.mld1only, ← h1.mld2only]
  exact h2.sent

theorem InterfacesOnly.letsOut (h : InterfacesOnly a b) : LetsOut a b :=
  ⟨h.mld1only, h.mld2only, .of_eq h.sent⟩

theorem LetsOut.oneMode (h : LetsOut a b) (hone : OneMode a) : OneMode b := by
  rw [OneMode, h.mld1only, h.mld2only]
  exact hone

theorem LetsOut.restricts (h : LetsOut a b) (ha : RestrictsOutput a) : RestrictsOutput b := by
  obtain ⟨new, hnew, hall⟩ := h.sent
  intro x hx
  rw [h.mld1only, h.mld2only]
  rw [hnew] at hx
  exact (List.mem_append.mp hx).elim (ha x) (hall x)

end LetsOut

theorem l3_letsOut (h : Host) (now : Nat) {st : Conf} (hone : OneMode st) (i : Nat) (iph : Mem)
    (len : Nat) : LetsOut st (l3Ipv6 h now st i iph len) := by
  have hh := l3_handles h now st i iph len
  exact ⟨hh.mld1only, hh.mld2only, (l3_sends h now st i iph len).mono fun x hx => hx.letOut hone⟩

theorem frame_letsOut (h : Host) (now : Nat) {st : Conf} (hone : OneMode st) (f : Frame) :
    LetsOut st (handleinterfaces h now st f) := by
  unfold handleinterfaces
  dsimp only
  split
  · exact .refl st
  · have hcount : LetsOut st (countReceived st (min f.len bufferlen)) := ⟨rfl, rfl, .of_eq rfl⟩
    have hfr :=
      (frameInterface_interfacesOnly now (countReceived st (min f.len bufferlen)) f).letsOut
    split
    · rename_i st1 he
      rw [he] at hfr
      exact hcount.trans hfr
    · rename_i st1 i he
      rw [he] at hfr
      have hst1 : LetsOut st (countIntReceived st1 i (min f.len bufferlen)) :=
        (hcount.trans hfr).trans (setInt_interfacesOnly st1 i _).letsOut
      unfold l2Ethtype
      split
      · exact hst1.trans (l3_letsOut h now (hst1.oneMode hone) i _ _)
      · exact hst1

theorem sendMldQuerys_letsOut (h : Host) {st : Conf} (hone : OneMode st) :
    LetsOut st (sendMldQuerys h st) := by
  have hs := sendMldQuerys_sendsOnly h st
  exact ⟨hs.mld1only, hs.mld2only, (sendMldQuerys_sendsMld h st).mono fun x hx => hx.letOut hone⟩

/-- `SIGUSR2` lets out what it may where there is nothing to report. -/
theorem sigusr2_letsOut (h : Host) {st : Conf} (hok : TableOk ValidSubscr st.groups) {now : Nat}
    (hsilent : SilentSignal st (.sigusr2 now)) : LetsOut st (sigusr2 h st) := by
  have hs := sigusr2_sendsOnly h st
  refine ⟨hs.mld1only, hs.mld2only, ?_⟩
  unfold sigusr2
  split
  · exact .refl st
  · rename_i upstream hup
    split
    · exact .refl st
    · rename_i i hi
      by_cases h1 : st.mld1only = true
      · have hquiet : mld2SendReport h st i none = st := by
          refine mld2SendReport_quiet hok fun g _ => ?_
          rintro ⟨a, ha⟩
          exact hsilent h1 (by rw [hup]; rfl) i hi g a ha
        rw [hquiet]
        exact .refl st
      · obtain ⟨new, hnew, -, hall⟩ := mld2SendReport_sent h st i none
        refine ⟨new, hnew, ?_⟩
        intro x hx
        obtain ⟨⟨recs, -, hsender⟩, -⟩ := hall x hx
        refine ⟨fun hc => absurd hc h1, fun _ hformat => ?_⟩
        rw [Sent.mldFormat, hsender] at hformat
        cases hformat

/-- **One event**: it lets out what the modes let out, if it is no `SIGUSR2` with something to
report. -/
theorem step_letsOut (h : Host) {st : Conf} (hok : TableOk ValidSubscr st.groups)
    (hone : OneMode st) {ev : Event} (hsilent : SilentSignal st ev) :
    LetsOut st (step h st ev) := by
  cases ev with
  | frame now f => exact frame_letsOut h now hone f
  | timeout now ifap =>
    have hupdate := (updateInterfaces_interfacesOnly now st none ifap).letsOut
    have hsweep : LetsOut (updateInterfaces now st none ifap)
        ((updateInterfaces now st none ifap).setGroups
          (listLoop2 (timeoutGroup now) (updateInterfaces now st none ifap).groups)) :=
      ⟨rfl, rfl, .of_eq rfl⟩
    have hboth := hupdate.trans hsweep
    exact hboth.trans (sendMldQuerys_letsOut h (hboth.oneMode hone))
  | sigusr2 now => exact sigusr2_letsOut h hok hsilent
  | create now ifindex probe =>
    simp only [step]
    split
    · exact .refl st
    · exact (intCreate_interfacesOnly st ifindex probe).letsOut
  | destroy now i => exact (setInt_interfacesOnly st i _).letsOut

/-! ## 3. Runs -/

theorem boot_letsOut (h : Host) (o : Options) (now : Nat) (ifap : Option (List IfAddr)) :
    LetsOut (init o) (boot h o now ifap) := by
  have hupdate := (updateInterfaces_interfacesOnly now (init o) none ifap).letsOut
  exact hupdate.trans (sendMldQuerys_letsOut h (hupdate.oneMode o.exclusive))

/-- What holds in every state of a run. -/
structure ModesOk (st : Conf) : Prop where
  one : OneMode st
  table : TableOk ValidSubscr st.groups
  ints : IntsOk st

theorem boot_modesOk (h : Host) (o : Options) (now : Nat) (ifap : Option (List IfAddr)) :
    ModesOk (boot h o now ifap) := by
  refine ⟨(boot_letsOut h o now ifap).oneMode o.exclusive, ?_, boot_intsOk h o now ifap⟩
  rw [boot_groups]
  exact tableOk_new

theorem step_modesOk (h : Host) {st : Conf} (hs : ModesOk st) {ev : Event}
    (hsilent : SilentSignal st ev) : ModesOk (step h st ev) :=
  ⟨(step_letsOut h hs.table hs.one hsilent).oneMode hs.one,
    step_tableOk ev hs.table fun _ hv _ => hv, step_intsOk h hs.ints ev⟩

/-- An MTU for which the count of records in a report does not wrap around. -/
def MtuBelow (st : Conf) (_ : Event) : Prop := ∀ i, (st.intn i).mtu < 2 ^ 20

/-- Where the modes restrict the output, a signal had nothing to report. -/
theorem silentSignal_of_restricts (h : Host) {st : Conf} (hs : ModesOk st) {ev : Event}
    (hmtu : MtuBelow st ev) (hr : RestrictsOutput (step h st ev)) : SilentSignal st ev := by
  cases ev with
  | frame now f => trivial
  | timeout now ifap => trivial
  | create now ifindex probe => trivial
  | destroy now i => trivial
  | sigusr2 now =>
    intro h1 hup i hi g a hw
    obtain ⟨upstream, hup⟩ := Option.isSome_iff_exists.mp hup
    have hstep : step h st (.sigusr2 now) = mld2SendReport h st i none := by
      simp only [step, sigusr2, hup, hi]
    have hused := (intFind_eq_some.mp hi).2.2
    rw [← (intFind_eq_some.mp hi).1] at hused
    obtain ⟨x, hx, -, -, recs, hsender, -⟩ := @mld2SendReport_tells h st i none hs.table
      (hs.ints.mtu i hused) (hmtu i) g (Or.inl rfl) ⟨a, hw⟩
    have hlet := hr x (by rw [hstep]; exact List.mem_of_mem_drop hx)
    rw [hstep, (mld2SendReport_sendsOnly h st i none).mld1only] at hlet
    exact hlet.mld1only h1 (by rw [Sent.mldFormat, hsender])

/-- **The modes restrict the output of every run** whose signals in `mld1only` mode come when there
is nothing to report; and of no other run, where all MTUs are below `2 ^ 20`. -/
theorem only_modes_restrict_output (h : Host) (o : Options) (now : Nat)
    (ifap : Option (List IfAddr)) (es : List Event) :
    (Runs.StepsMeet (step h) SilentSignal (boot h o now ifap) es →
      Runs.Always (step h) RestrictsOutput (boot h o now ifap) es) ∧
    (Runs.StepsMeet (step h) MtuBelow (boot h o now ifap) es →
      Runs.Always (step h) RestrictsOutput (boot h o now ifap) es →
      Runs.StepsMeet (step h) SilentSignal (boot h o now ifap) es) := by
  have hboot := boot_letsOut h o now ifap
  have hstart : RestrictsOutput (boot h o now ifap) := hboot.restricts fun x hx => by cases hx
  have hmodes := boot_modesOk h o now ifap
  constructor
  · intro hsilent
    have hall := Runs.always_of_stepsMeet (P := fun st => RestrictsOutput st ∧ ModesOk st)
      (fun st ev hs hq => ⟨(step_letsOut h hs.2.table hs.2.one hq).restricts hs.1,
        step_modesOk h hs.2 hq⟩) es _ ⟨hstart, hmodes⟩ hsilent
    exact fun pre post he => (hall pre post he).1
  · intro hmtu hall
    refine (Runs.always_iff_stepsMeet_of (A := MtuBelow)
      (I := fun st => RestrictsOutput st ∧ ModesOk st) ?_ ?_ es _ ⟨hstart, hmodes⟩ hstart
      hmtu).mp hall
    · intro st ev hs _ hq
      exact ⟨(step_letsOut h hs.2.table hs.2.one hq).restricts hs.1, step_modesOk h hs.2 hq⟩
    · intro st ev hs hbelow
      exact ⟨silentSignal_of_restricts h hs.2 hbelow,
        fun hq => (step_letsOut h hs.2.table hs.2.one hq).restricts hs.1⟩

/-- The daemon with `-1`, and an upstream interface. -/
def mld1Options : Options := ⟨some "eth0", true, false, by decide⟩

/-- The upstream interface, a downstream one, and a join there. -/
def upstreamEvents : List Event :=
  [.create 0 1 ethernetProbe, .create 0 2 ⟨true, some "eth1", some 1500, some 1⟩,
    .frame 1 (mldFrame 2 mld1JoinMessage)]

/-- A signal before anybody listens lets out what it may. -/
theorem only_modes_restrict_mld1 : Runs.Always (step (quietHost .little)) RestrictsOutput
    (boot (quietHost .little) mld1Options 0 none) [.create 0 1 ethernetProbe, .sigusr2 0] := by
  refine (only_modes_restrict_output (quietHost .little) mld1Options 0 none _).1 ?_
  refine Runs.stepsMeet_cons.mpr ⟨trivial, Runs.stepsMeet_cons.mpr ⟨?_, Runs.stepsMeet_nil _ _⟩⟩
  rintro - - i - g a ⟨j, -, s, hs, -⟩
  have hgroups : (step (quietHost .little) (boot (quietHost .little) mld1Options 0 none)
      (.create 0 1 ethernetProbe)).groups = listNew := by decide +kernel
  rw [hgroups] at hs
  cases hs

/-- A signal after the join sends an MLDv2 report in `mld1only` mode. -/
theorem sigusr2_lets_mld2_out : ¬ Runs.Always (step (quietHost .little)) RestrictsOutput
    (boot (quietHost .little) mld1Options 0 none) (upstreamEvents ++ [.sigusr2 2]) := by
  intro hall
  have hlast := hall.last
  have hmode : (run (quietHost .little) (boot (quietHost .little) mld1Options 0 none)
      (upstreamEvents ++ [.sigusr2 2])).mld1only = true := by decide +kernel
  have hsent : ∃ x ∈ (run (quietHost .little) (boot (quietHost .little) mld1Options 0 none)
      (upstreamEvents ++ [.sigusr2 2])).sent, x.mldFormat = some 2 := by decide +kernel
  obtain ⟨x, hx, hformat⟩ := hsent
  exact (hlast x hx).mld1only hmode hformat

end Ecmh
