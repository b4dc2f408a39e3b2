/-
# The calls of `mld2_send_report`

An event can lead to many calls of `mld2_send_report`: one for each interface that a report is
passed on to, for each record of an MLDv2 report, one that answers a query, and one for SIGUSR2.
`EventCalls C` says that each of them meets the condition `C` in the state in which it comes.  All
that an event sends has a property if every call that meets the condition only sends what has it,
and all other functions do (`step_calls`).
-/
import Ecmh.Announce
import Ecmh.Dissect
import Ecmh.Grecs
import Ecmh.IntTable

namespace Ecmh

open ByteMem

variable {C : Conf → Nat → Option In6Addr → Prop} {P : Sent → Prop} {h : Host}

/-- What is no MLDv2 report has the property, and all that a call that meets the condition sends. -/
structure CallRule (C : Conf → Nat → Option In6Addr → Prop) (P : Sent → Prop) (h : Host) :
    Prop where
  quiet : ∀ x : Sent, (∀ recs, x.sender ≠ .mld2SendReport recs) → P x
  call : ∀ st i mca, IntsOk st → (st.intn i).mtu ≠ 0 → C st i mca →
    AllSent P st (mld2SendReport h st i mca)

/-! ## 1. Reports -/

/-- The call of `mld_send_report`: the MLDv1 report goes first, and may find that the interface has
gone. -/
def ReportCalls (C : Conf → Nat → Option In6Addr → Prop) (h : Host) (st : Conf) (i : Nat)
    (mca : In6Addr) : Prop :=
  let st := if mld1Reports st i then mld1SendReport h st i mca else st
  mld2Reports st i = true → (st.intn i).mtu ≠ 0 → C st i (some mca)

/-- All calls of `mld_send_report` by `mld_send_report_all`. -/
def AllCalls (C : Conf → Nat → Option In6Addr → Prop) (h : Host) (st : Conf) (interface : Nat)
    (mca : In6Addr) : Prop :=
  Runs.StepsMeet (reportTo h interface mca)
    (fun st j => passedOn st interface j → ReportCalls C h st j mca) st
    (List.range st.maxinterfaces)

/-- The answer to a query, if it is one in MLDv2. -/
def QueryCalls (C : Conf → Nat → Option In6Addr → Prop) (st : Conf) (i : Nat) : Prop :=
  ¬ answersMld1 st i → answersMld2 st i → C st i none

section Decidable

variable [∀ st i mca, Decidable (C st i mca)]

instance (st : Conf) (i : Nat) (mca : In6Addr) : Decidable (ReportCalls C h st i mca) :=
  inferInstanceAs (Decidable (_ → _ → _))

instance (st : Conf) (interface : Nat) (mca : In6Addr) :
    Decidable (AllCalls C h st interface mca) :=
  inferInstanceAs (Decidable (Runs.StepsMeet _ _ _ _))

end Decidable

section Reports

variable {st : Conf} {i : Nat}

/-- An interface that is not in use is sent nothing in MLDv2. -/
theorem mld2SendReport_dead (hmtu : (st.intn i).mtu = 0) (mca : Option In6Addr) :
    mld2SendReport h st i mca = st :=
  if_pos (by rw [hmtu]; decide)

theorem mld2SendReport_calls (hrule : CallRule C P h) (hints : IntsOk st) {mca : Option In6Addr}
    (hcall : (st.intn i).mtu ≠ 0 → C st i mca) : AllSent P st (mld2SendReport h st i mca) := by
  by_cases hmtu : (st.intn i).mtu = 0
  · rw [mld2SendReport_dead hmtu]
    exact .refl st
  · exact hrule.call st i mca hints hmtu (hcall hmtu)

theorem mldSendReport_calls (hrule : CallRule C P h) (hints : IntsOk st) {mca : In6Addr}
    (hcall : ReportCalls C h st i mca) : AllSent P st (mldSendReport h st i mca) := by
  have hfirst : ∃ st1, (if mld1Reports st i then mld1SendReport h st i mca else st) = st1 ∧
      IntsOk st1 ∧ AllSent P st st1 := by
    refine ⟨_, rfl, ?_⟩
    split
    · obtain ⟨x, hx, hs, -, -⟩ := mld1SendReport_sent h st i mca
      refine ⟨(mld1SendReport_sendsOnly h st i mca).keepsInts.intsOk hints, [x], hx, ?_⟩
      exact List.forall_mem_singleton.mpr (hrule.quiet x fun recs hc => by simp [hs] at hc)
    · exact ⟨hints, .refl st⟩
  obtain ⟨st1, hst1, hints1, hall⟩ := hfirst
  unfold ReportCalls at hcall
  unfold mldSendReport
  rw [hst1] at hcall ⊢
  dsimp only at hcall ⊢
  split
  · rename_i h2
    exact hall.trans (mld2SendReport_calls hrule hints1 (hcall h2))
  · exact hall

theorem mldSendReportAll_calls (hrule : CallRule C P h) (hints : IntsOk st) {interface : Nat}
    {mca : In6Addr} (hcall : AllCalls C h st interface mca) :
    AllSent P st (mldSendReportAll h st interface mca) := by
  rw [mldSendReportAll_eq]
  refine (allSent_run_of id (I := IntsOk) (Q := fun st j => passedOn st interface j →
    ReportCalls C h st j mca) (fun s j hs hj => ?_) _ st hints hcall)
  unfold reportTo
  split
  · exact ⟨hs, .refl s⟩
  · rename_i hp
    rw [not_or] at hp
    exact ⟨(mldSendReport_sendsOnly h s j mca).keepsInts.intsOk hs,
      mldSendReport_calls hrule hs (hj hp)⟩

/-- In the loops for MLDv1 there is no call. -/
theorem mld1Answer_calls (hrule : CallRule C P h) (hints : IntsOk st)
    (hno : mld2Reports st i = true → (st.intn i).mtu = 0) : AllSent P st (mld1Answer h st i) := by
  have hcalls : ∀ s mca, Answering st i s → ReportCalls C h s i mca := by
    intro s mca hs h2 hmtu
    have hsends : SendsOnly (· = i) st
        (if mld1Reports s i then mld1SendReport h s i mca else s) := by
      split
      · exact hs.trans (mld1SendReport_sendsOnly h s i mca)
      · exact hs
    rw [mld2Reports_of_sendsOnly hsends] at h2
    rcases (hsends.intn i).1 with hsame | hzero
    · exact absurd (hsame.trans (hno h2)) hmtu
    · exact absurd hzero hmtu
  unfold mld1Answer
  refine (AllSent.foldl (I := Answering st i) (fun s groupn hs => ?_) _ st (.refl st)).2
  refine AllSent.foldl (I := Answering st i) (fun s grpintn hs => ?_) _ s hs
  split
  · exact ⟨hs, .refl s⟩
  · exact ⟨hs.trans (mldSendReport_sendsOnly h s i groupn.mca),
      mldSendReport_calls hrule (hs.keepsInts.intsOk hints) (hcalls s groupn.mca hs)⟩

theorem queryAnswer_calls (hrule : CallRule C P h) (hints : IntsOk st) (hcall : QueryCalls C st i)
    (hno : answersMld1 st i → mld2Reports st i = true → (st.intn i).mtu = 0) :
    AllSent P st (queryAnswer h st i) := by
  unfold queryAnswer
  split
  · rename_i h1
    exact mld1Answer_calls hrule hints (hno h1)
  · rename_i h1
    split
    · rename_i h2
      exact mld2SendReport_calls hrule hints fun _ => hcall h1 h2
    · exact .refl st

end Reports

/-! ## 2. Events -/

/-- The calls for one record of an MLDv2 report. -/
def RecordCalls (C : Conf → Nat → Option In6Addr → Prop) (h : Host) (now i : Nat)
    (s : Conf × Bool) (r : GrecSeen) : Prop :=
  r.srcs.isSome = true → grecIsnew now (s.1.intn i).ifindex s.1.groups s.2 r = true →
    AllCalls C h (s.1.setGroups (grecTable now (s.1.intn i).ifindex s.1.groups r)) i r.mca

/-- The calls for a message that was received in slot `i`. -/
def Message.Calls (C : Conf → Nat → Option In6Addr → Prop) (h : Host) (now : Nat) (st : Conf)
    (i : Nat) : Message → Prop
  | .mld1Report mld1 =>
    let st := intSetMldVersion now (countIcmpReceived st i) i 1
    let ifindex := (st.intn i).ifindex
    let mca := mld1Mca mld1
    mld1Ignores mca = false → (groupintGet now st.groups mca ifindex).2 = true →
      AllCalls C h (st.setGroups (joinTable now ifindex st.groups (mld1Join mca))) i mca
  | .mld2Report mld2r plen => Runs.StepsMeet (grecStep h now i) (RecordCalls C h now i)
      (intSetMldVersion now (countIcmpReceived st i) i 2, false) (mld2Records h.endian mld2r plen)
  | .query plen =>
    QueryCalls C (intSetMldVersion now (countIcmpReceived st i) i (queryVersion plen)) i
  | _ => True

/-- **All calls of `mld2_send_report` that an event leads to.** -/
def EventCalls (C : Conf → Nat → Option In6Addr → Prop) (h : Host) (st : Conf) : Event → Prop
  | .frame now f => ∀ st1 i, f.Enters now st st1 i →
    (l3Message h.endian (st1.intn i) f.buffer (min f.len bufferlen)).Calls C h now
      (countIntReceived st1 i (min f.len bufferlen)) i
  | .sigusr2 _ => ∀ i, st.upstream.isSome = true → intFind st st.upstreamId = some i → C st i none
  | _ => True

section Events

variable {now : Nat} {st : Conf} {i : Nat}

theorem mld1Report_calls (hrule : CallRule C P h) (hints : IntsOk st) {mld1 : Mem}
    (hcall : (Message.mld1Report mld1).Calls C h now st i) :
    AllSent P (countIcmpReceived st i)
      (l4Ipv6Icmpv6Mld1Report h now (countIcmpReceived st i) i mld1) := by
  have hhandles := (countIcmpReceived_handles st i).trans
    (intSetMldVersion_handles now (countIcmpReceived st i) i 1)
  have hsent : (intSetMldVersion now (countIcmpReceived st i) i 1).sent
      = (countIcmpReceived st i).sent := intSetMldVersion_sent ..
  unfold Message.Calls at hcall
  unfold l4Ipv6Icmpv6Mld1Report
  dsimp only at hcall ⊢
  have hints1 := hhandles.keepsInts.intsOk hints
  generalize intSetMldVersion now (countIcmpReceived st i) i 1 = st1 at hsent hcall hints1 ⊢
  split
  · exact .of_eq hsent
  · rename_i hg
    split
    · rename_i hnew
      have hall := mldSendReportAll_calls hrule (setGroups_keepsInts st1 _ |>.intsOk hints1)
        (hcall (Bool.eq_false_iff.mpr hg) hnew)
      exact hall.congr hsent.symm rfl
    · exact .of_eq hsent

theorem grecStep_calls {s : Conf × Bool} (hrule : CallRule C P h) (hints : IntsOk s.1)
    {r : GrecSeen} (hcall : RecordCalls C h now i s r) :
    IntsOk (grecStep h now i s r).1 ∧ AllSent P s.1 (grecStep h now i s r).1 := by
  have hints1 := (setGroups_keepsInts s.1
    (grecTable now (s.1.intn i).ifindex s.1.groups r)).intsOk hints
  refine ⟨(grecStep_sendsOnly h now i s r).keepsInts.intsOk hints1, ?_⟩
  unfold grecStep
  dsimp only
  split
  · rename_i hc
    exact (mldSendReportAll_calls hrule hints1 (hcall hc.1 hc.2)).congr rfl rfl
  · exact .of_eq rfl

theorem mld2Report_calls (hrule : CallRule C P h) (hints : IntsOk st) {mld2r : Mem} {plen : Nat}
    (hcall : (Message.mld2Report mld2r plen).Calls C h now st i) :
    AllSent P (countIcmpReceived st i)
      (l4Ipv6Icmpv6Mld2Report h now (countIcmpReceived st i) i mld2r plen).st := by
  have hhandles := (countIcmpReceived_handles st i).trans
    (intSetMldVersion_handles now (countIcmpReceived st i) i 2)
  have hsent : (intSetMldVersion now (countIcmpReceived st i) i 2).sent
      = (countIcmpReceived st i).sent := intSetMldVersion_sent ..
  rw [mld2Report_run]
  exact (allSent_run_of Prod.fst (I := fun s => IntsOk s.1)
    (fun s r hs => grecStep_calls hrule hs) _ _ (hhandles.keepsInts.intsOk hints) hcall).congr
    hsent.symm rfl

/-- In the loops for MLDv1 the interface gets no MLDv2 reports, as its version is known then. -/
theorem mld2Reports_of_answersMld1 {plen : Nat}
    (ha : answersMld1 (intSetMldVersion now st i (queryVersion plen)) i)
    (h2 : mld2Reports (intSetMldVersion now st i (queryVersion plen)) i = true) :
    ((intSetMldVersion now st i (queryVersion plen)).intn i).mtu = 0 := by
  obtain ⟨hm1, hm2, hmax⟩ := intSetMldVersion_modes now st i (queryVersion plen)
  obtain ⟨hnot2, hv⟩ := ha
  simp only [mld2Reports, Bool.and_eq_true, Bool.or_eq_true, Bool.not_eq_true',
    decide_eq_true_eq] at h2 hnot2
  obtain ⟨hnot1, hv2⟩ := h2
  by_contra hmtu
  have hslot : i < st.maxinterfaces := by
    by_contra hge
    refine hmtu ?_
    rw [intn_of_ge (by rw [hmax]; exact Nat.le_of_not_lt hge)]
    rfl
  have hknown := @intSetMldVersion_known st i now (hm1.symm.trans hnot1) (hm2.symm.trans hnot2)
    hslot plen
  rcases hv with hv | hv | hv
  · exact absurd (hnot1.symm.trans hv) Bool.false_ne_true
  · exact hknown hv
  · rcases hv2 with (hv2 | hv2) | hv2
    · exact absurd (hnot2.symm.trans hv2) Bool.false_ne_true
    · exact hknown hv2
    · exact absurd (hv.symm.trans hv2) (by decide)

theorem query_calls (hrule : CallRule C P h) (hints : IntsOk st) {plen : Nat}
    (hcall : (Message.query plen).Calls C h now st i) :
    AllSent P (countIcmpReceived st i)
      (l4Ipv6Icmpv6MldQuery h now (countIcmpReceived st i) i plen) := by
  have hhandles := (countIcmpReceived_handles st i).trans
    (intSetMldVersion_handles now (countIcmpReceived st i) i (queryVersion plen))
  have hsent := intSetMldVersion_sent now (countIcmpReceived st i) i (queryVersion plen)
  rw [mldQuery_eq]
  exact (queryAnswer_calls hrule (hhandles.keepsInts.intsOk hints) hcall
    mld2Reports_of_answersMld1).congr hsent.symm rfl

/-- What is sent for a message. -/
theorem handle_calls (hrule : CallRule C P h) (hints : IntsOk st) {m : Message}
    (hcall : m.Calls C h now st i) (len : Nat) : AllSent P st (m.handle h now st i len) := by
  have hsent : (countIcmpReceived st i).sent = st.sent := rfl
  have hsends := handle_sends h now st i len m
  cases m with
  | dropped => exact .refl st
  | ignored => exact .of_eq hsent
  | exceeded => exact .of_eq rfl
  | data iph =>
    exact hsends.mono fun x hx => hrule.quiet x fun recs hc => by simp [hx.1] at hc
  | echo iph =>
    exact hsends.mono fun x hx => hrule.quiet x fun recs hc => by simp [hx.1] at hc
  | echoExceeded iph off plen =>
    exact hsends.mono fun x hx => hrule.quiet x fun recs hc => by simp [hx.1] at hc
  | mld1Report mld1 => exact (mld1Report_calls hrule hints hcall).congr hsent.symm rfl
  | mld1Reduction mld1 =>
    refine ((mld1Reduction_asks h now (countIcmpReceived st i) i mld1).congr hsent.symm rfl).mono ?_
    exact fun x hx => hrule.quiet x fun recs hc => by simp [hx] at hc
  | mld2Report mld2r plen => exact (mld2Report_calls hrule hints hcall).congr hsent.symm rfl
  | query plen => exact (query_calls hrule hints hcall).congr hsent.symm rfl

/-- **All that an event sends has the property** if its calls of `mld2_send_report` meet the
condition. -/
theorem step_calls (hrule : CallRule C P h) (hints : IntsOk st) {ev : Event}
    (hcall : EventCalls C h st ev) : AllSent P st (step h st ev) := by
  cases ev with
  | frame now f =>
    rcases frame_cases h now st f with ⟨st1, k, hin, he⟩ | ⟨-, hsent, -⟩
    · have hints1 : IntsOk (countIntReceived st1 k (min f.len bufferlen)) := by
        have hcreated := frameInterface_intsOk now
          (show IntsOk (countReceived st (min f.len bufferlen)) from ⟨hints.slot, hints.mtu⟩) f
        rw [hin.interface] at hcreated
        exact (countIntReceived_keepsInts st1 k _).intsOk hcreated
      have hsent : (countIntReceived st1 k (min f.len bufferlen)).sent = st.sent := hin.sent
      simp only [step, he]
      exact (handle_calls hrule hints1 (hcall st1 k hin) _).congr hsent.symm rfl
    · exact .of_eq hsent
  | timeout now ifap =>
    have hsent := (updateInterfaces_interfacesOnly now st none ifap).sent
    refine (AllSent.of_eq hsent).trans ((sendMldQuerys_asks h
      ((updateInterfaces now st none ifap).setGroups _)).mono fun x hx => ?_)
    exact hrule.quiet x fun recs hc => by simp [hx] at hc
  | sigusr2 now =>
    simp only [step, sigusr2]
    split
    · exact .refl st
    · rename_i name hname
      split
      · exact .refl st
      · rename_i k hk
        exact mld2SendReport_calls hrule hints fun _ => hcall k (Option.isSome_of_eq_some hname) hk
  | create now ifindex probe =>
    simp only [step]
    split
    · exact .refl st
    · exact .of_eq (intCreate_interfacesOnly st ifindex probe).sent
  | destroy now k => exact .of_eq (setInt_interfacesOnly st k _).sent

end Events

end Ecmh
