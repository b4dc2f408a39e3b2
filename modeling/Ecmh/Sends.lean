/-
# What is sent

Every function of the daemon appends to the list of packets sent.  `AllSent P` says that what a
function appends has the property `P`; it composes along sequences and loops, so that a property of
everything the daemon sends is proved once for each of the five senders.
-/
import Ecmh.ReportAggregate
import Ecmh.Handling

namespace Ecmh

open ByteMem

/-! ## 1. Everything that is sent -/

/-- What was sent between two states. -/
def newSent (st st' : Conf) : List Sent := st'.sent.drop st.sent.length

/-- What is new is told by what was there before. -/
theorem newSent_of_append {st st' : Conf} {new : List Sent} (h : st'.sent = st.sent ++ new) :
    newSent st st' = new := by
  rw [newSent, h, List.drop_left]

/-- Everything that was sent between two states has the property. -/
def AllSent (P : Sent → Prop) (st st' : Conf) : Prop :=
  ∃ new, st'.sent = st.sent ++ new ∧ ∀ x ∈ new, P x

section AllSent

variable {P Q : Sent → Prop} {a b c : Conf}

/-- Where nothing is sent, everything that is sent has any property. -/
theorem AllSent.of_eq (h : b.sent = a.sent) : AllSent P a b := ⟨[], by simp [h], by simp⟩

theorem AllSent.refl (a : Conf) : AllSent P a a := .of_eq rfl

/-- Two operations, one after the other. -/
theorem AllSent.trans (h1 : AllSent P a b) (h2 : AllSent P b c) : AllSent P a c := by
  obtain ⟨x, hx, hpx⟩ := h1
  obtain ⟨y, hy, hpy⟩ := h2
  refine ⟨x ++ y, by rw [hy, hx, List.append_assoc], fun s hs => ?_⟩
  exact (List.mem_append.mp hs).elim (hpx s) (hpy s)

theorem AllSent.mono (h : AllSent P a b) (hpq : ∀ x, P x → Q x) : AllSent Q a b := by
  obtain ⟨x, hx, hp⟩ := h
  exact ⟨x, hx, fun s hs => hpq s (hp s hs)⟩

/-- Two properties are one: both speak of the same new packets. -/
theorem AllSent.and (h : AllSent P a b) (h' : AllSent Q a b) :
    AllSent (fun x => P x ∧ Q x) a b := by
  obtain ⟨x, hx, hp⟩ := h
  obtain ⟨y, hy, hq⟩ := h'
  obtain rfl : x = y := List.append_cancel_left (hx.symm.trans hy)
  exact ⟨x, hx, fun s hs => ⟨hp s hs, hq s hs⟩⟩

/-- What is sent does not depend on anything else of the state. -/
theorem AllSent.congr {a' b' : Conf} (h : AllSent P a b) (ha : a'.sent = a.sent)
    (hb : b'.sent = b.sent) : AllSent P a' b' := by
  obtain ⟨x, hx, hp⟩ := h
  exact ⟨x, by rw [hb, ha, hx], hp⟩

theorem AllSent.setGroups (h : AllSent P a b) (groups : Groups) :
    AllSent P a (b.setGroups groups) := h.congr rfl rfl

theorem AllSent.forall (h : AllSent P a b) : ∀ x ∈ newSent a b, P x := by
  obtain ⟨x, hx, hp⟩ := h
  rw [newSent_of_append hx]
  exact hp

/-- A loop whose iterations keep an invariant, under which they send what has the property. -/
theorem AllSent.foldl {α : Type} {f : Conf → α → Conf} {I : Conf → Prop}
    (h : ∀ s e, I s → I (f s e) ∧ AllSent P s (f s e)) :
    ∀ (es : List α) (s : Conf), I s → I (es.foldl f s) ∧ AllSent P s (es.foldl f s) := by
  intro es
  induction es with
  | nil => exact fun s hs => ⟨hs, .refl s⟩
  | cons e es ih =>
    intro s hs
    obtain ⟨hi, hall⟩ := h s e hs
    obtain ⟨hi', hall'⟩ := ih (f s e) hi
    exact ⟨hi', hall.trans hall'⟩

end AllSent

/-- A packet is sent. -/
theorem sendpacket6_allSent {P : Sent → Prop} (h : Host) (sender : Sender) (st : Conf) (i : Nat)
    (iph : Mem) (len : Nat) (hp : P (sentOf sender st.groups (st.intn i) iph (len % 65536))) :
    AllSent P st (sendpacket6 h sender st i iph len) :=
  ⟨_, sendpacket6_sent h sender st i iph len, by simpa using hp⟩

theorem countIcmpSent_sent (st : Conf) (i : Nat) : (countIcmpSent st i).sent = st.sent := rfl

/-! ## 2. MLDv2 reports

The packets are looked at from the outside here: each goes out with the list of records that were
meant, while the table is still that of the call. -/

/-- What `mld2_send_report` has sent so far: a packet for each list of records, while the table was
the one of the call. -/
def SentAs (st : Conf) (i : Nat) (s : ReportLoop) : Prop :=
  ∃ new, s.st.sent = st.sent ++ new ∧ new.map Sent.sender = s.out.map .mld2SendReport ∧
    ∀ x ∈ new, x.groups = st.groups ∧ x.ifindex = (st.intn i).ifindex

/-- The loop state is read only for what was sent, and for the records that were noted with it. -/
theorem SentAs.congr {st : Conf} {i : Nat} {s s' : ReportLoop} (hs : SentAs st i s)
    (hst : s'.st = s.st) (hout : s'.out = s.out) : SentAs st i s' := by
  rw [SentAs, hst, hout]
  exact hs

/-- A packet goes out, and the records in the buffer are noted with it. -/
theorem SentAs.send {h : Host} {st : Conf} {i : Nat} {s : ReportLoop} (hs : SentAs st i s)
    (hg : s.st.groups = st.groups) (hi : (s.st.intn i).ifindex = (st.intn i).ifindex)
    (grec : Nat) : SentAs st i (reportSend h i s grec) := by
  obtain ⟨new, hnew, hsender, hall⟩ := hs
  obtain ⟨x, hx, hxs, hxg, hxi⟩ : ∃ x : Sent, (reportSend h i s grec).st.sent = s.st.sent ++ [x] ∧
      x.sender = .mld2SendReport s.cur ∧ x.groups = s.st.groups ∧
      x.ifindex = (s.st.intn i).ifindex :=
    ⟨_, sendpacket6_sent h (.mld2SendReport s.cur) s.st i _ _, rfl, rfl, rfl⟩
  refine ⟨new ++ [x], by rw [hx, hnew, List.append_assoc], ?_, ?_⟩
  · rw [show (reportSend h i s grec).out = s.out ++ [s.cur] from rfl]
    simp only [List.map_append, hsender, List.map_cons, List.map_nil, hxs]
  · intro y hy
    rcases List.mem_append.mp hy with hy | hy
    · exact hall y hy
    · rw [List.mem_singleton.mp hy]
      exact ⟨hxg.trans hg, hxi.trans hi⟩

/-- The table and the index of the interface stay as they are, and the packets are those of the
lists of records. -/
structure CallOk (st : Conf) (i : Nat) (s : ReportLoop) : Prop where
  groups : s.st.groups = st.groups
  ifindex : (s.st.intn i).ifindex = (st.intn i).ifindex
  sent : SentAs st i s

/-- **One step** of the loops keeps it. -/
theorem reportStep_callOk {h : Host} {st : Conf} {i : Nat} {s : ReportLoop} (hs : CallOk st i s)
    (x : ReportStep) : CallOk st i (reportStep h i s x) := by
  cases x with
  | group => exact ⟨hs.groups, hs.ifindex, hs.sent.congr rfl rfl⟩
  | subscr mca ipv6 =>
    have hsends := reportSubscr_sendsOnly h i mca s ipv6
    refine ⟨hsends.groups.trans hs.groups, (hsends.ifindex i).trans hs.ifindex, ?_⟩
    have hcases := reportSubscr_step h i mca s ipv6
    simp only [reportStep]
    generalize reportSubscr h i mca s ipv6 = s' at hcases
    cases hcases with
    | returned _ => exact hs.sent
    | known _ _ hk =>
      generalize hb : false = b at hk
      cases hk with
      | noSource _ => exact hs.sent
      | noGrec _ _ => exact hs.sent
      | collapse _ _ _ _ => exact hs.sent.congr rfl rfl
      | dropped _ _ => exact hs.sent.congr rfl rfl
      | fresh _ _ _ _ _ _ => exact hs.sent.congr rfl rfl
    | tooSmall _ _ _ => exact hs.sent.congr rfl rfl
    | split src touched grec _ _ _ _ =>
      have hsent : SentAs st i { s with src := src, touched := touched } := hs.sent.congr rfl rfl
      exact (hsent.send (h := h) hs.groups hs.ifindex grec).congr (reportAppend_st _ _ _)
        (reportAppend_out _ _ _)
    | opens _ _ _ => exact hs.sent.congr (reportAppend_st _ _ _) (reportAppend_out _ _ _)
    | adds _ _ _ _ _ _ _ _ _ => exact hs.sent.congr (reportAppend_st _ _ _) (reportAppend_out _ _ _)

/-- What is left in the buffer is sent at the end. -/
theorem reportFinish_sentAs {h : Host} {st : Conf} {i : Nat} {s : ReportLoop} (hs : CallOk st i s) :
    SentAs st i (reportFinish h i s) := by
  unfold reportFinish
  split
  · exact hs.sent
  · split
    · exact hs.sent
    · exact hs.sent.send hs.groups hs.ifindex _

/-- **The packets of a call**: one for each list of records. -/
theorem mld2SendReport_sent (h : Host) (st : Conf) (i : Nat) (mca : Option In6Addr) : ∃ new,
    (mld2SendReport h st i mca).sent = st.sent ++ new ∧
    (sizeofReport ≤ (st.intn i).mtu →
      new.map Sent.sender = (callRecords h st i mca).map .mld2SendReport) ∧
    ∀ x ∈ new, (∃ recs ∈ callRecords h st i mca, x.sender = .mld2SendReport recs) ∧
      x.groups = st.groups ∧ x.ifindex = (st.intn i).ifindex := by
  unfold mld2SendReport
  by_cases hmtu : (st.intn i).mtu < sizeofReport
  · rw [if_pos hmtu]
    exact ⟨[], by simp, fun hc => by omega, by simp⟩
  · rw [if_neg hmtu]
    have hloops : CallOk st i (reportLoops h st i mca) := by
      rw [reportLoops_eq_run]
      exact Runs.run_invariant (P := CallOk st i) (fun s x hs => reportStep_callOk hs x) _ _
        ⟨rfl, rfl, [], by simp [reportInit], rfl, by simp⟩
    obtain ⟨new, hnew, hsender, hall⟩ := reportFinish_sentAs (h := h) hloops
    refine ⟨new, hnew, fun _ => hsender, fun x hx => ⟨?_, hall x hx⟩⟩
    have hmem : x.sender ∈ (reportFinish h i (reportLoops h st i mca)).out.map
        Sender.mld2SendReport := by
      rw [← hsender]
      exact List.mem_map_of_mem hx
    obtain ⟨recs, hrecs, he⟩ := List.mem_map.mp hmem
    exact ⟨recs, hrecs, he.symm⟩

/-! ### The records are those of groups that other interfaces want -/

/-- A write to the last record leaves the others. -/
theorem mem_setLast {f : Grec → Grec} {cur : List Grec} {r : Grec}
    (h : r ∈ ReportLoop.setLast f cur) : ∃ r' ∈ cur, r = r' ∨ r = f r' := by
  rcases List.eq_nil_or_concat cur with rfl | ⟨l, x, rfl⟩
  · cases h
  · rw [List.concat_eq_append, setLast_concat] at h
    rcases List.mem_append.mp h with h | h
    · exact ⟨r, by simp [h], Or.inl rfl⟩
    · exact ⟨x, by simp, Or.inr (List.mem_singleton.mp h)⟩

/-- The record asks for traffic. -/
def Grec.Asks (r : Grec) : Prop := r.grecType = mld2ModeIsExclude ∨ r.srcs ≠ []

/-- A record for one of some groups, that asks for traffic as soon as the step is over. -/
def GoodRecords (P : In6Addr → Prop) (s : ReportLoop) : Prop :=
  ∀ r ∈ s.records, P r.grecMca ∧ r.Asks

theorem GoodRecords.congr {P : In6Addr → Prop} {s s' : ReportLoop} (hs : GoodRecords P s)
    (hout : s'.out = s.out) (hcur : s'.cur = s.cur) : GoodRecords P s' := by
  rw [GoodRecords, ReportLoop.records, hout, hcur]
  exact hs

/-- A source that is added does not change the group of its record. -/
theorem GoodRecords.append {P : In6Addr → Prop} {s : ReportLoop} (hs : GoodRecords P s)
    (e : Endian) (ipv6 : In6Addr) : GoodRecords P (reportAppend e s ipv6) := by
  unfold reportAppend
  split
  · exact hs
  · split
    · exact hs
    · intro r hr
      rcases List.mem_append.mp hr with hr | hr
      · exact hs r (List.mem_append_left _ hr)
      · obtain ⟨r', hr', rfl | rfl⟩ := mem_setLast hr
        · exact hs _ (List.mem_append_right _ hr')
        · exact ⟨(hs r' (List.mem_append_right _ hr')).1, Or.inr (by simp)⟩

/-- A record is opened for a group that the property holds of. -/
theorem GoodRecords.opens {P : In6Addr → Prop} {s : ReportLoop} (hs : GoodRecords P s) (e : Endian)
    {mca : In6Addr} (hp : P mca) (ipv6 : In6Addr) :
    GoodRecords P (reportAppend e (reportNewGrec e s mca) ipv6) := by
  refine GoodRecords.append (fun r hr => ?_) e ipv6
  rcases List.mem_append.mp hr with hr | hr
  · exact hs r (List.mem_append_left _ hr)
  · rcases List.mem_append.mp (show r ∈ s.cur ++ [allRecord mca] from hr) with hr | hr
    · exact hs r (List.mem_append_right _ hr)
    · rw [List.mem_singleton.mp hr]
      exact ⟨hp, Or.inl rfl⟩

/-- **One step** keeps it, if the group of the step has the property. -/
theorem reportStep_goodRecords {P : In6Addr → Prop} {h : Host} {i : Nat} {s : ReportLoop}
    (hs : GoodRecords P s) {x : ReportStep} (hx : ∀ mca ipv6, x = .subscr mca ipv6 → P mca) :
    GoodRecords P (reportStep h i s x) := by
  cases x with
  | group => exact hs.congr rfl rfl
  | subscr mca ipv6 =>
    have hp := hx mca ipv6 rfl
    have hcases := reportSubscr_step h i mca s ipv6
    simp only [reportStep]
    generalize reportSubscr h i mca s ipv6 = s' at hcases
    cases hcases with
    | returned _ => exact hs
    | known _ _ hk =>
      generalize hb : false = b at hk
      cases hk with
      | noSource _ => exact hs
      | noGrec _ _ => exact hs
      | collapse grec _ _ _ =>
        intro r hr
        rcases List.mem_append.mp hr with hr | hr
        · exact hs r (List.mem_append_left _ hr)
        · obtain ⟨r', hr', rfl | rfl⟩ := mem_setLast hr
          · exact hs _ (List.mem_append_right _ hr')
          · exact ⟨(hs r' (List.mem_append_right _ hr')).1, Or.inl rfl⟩
      | dropped _ _ => exact hs.congr rfl rfl
      | fresh _ _ _ _ _ _ => exact hs.congr rfl rfl
    | tooSmall _ _ _ => exact hs.congr rfl rfl
    | split src touched grec _ _ _ _ =>
      refine GoodRecords.opens (s := reportReset h.endian (reportSend h i { s with
        src := src, touched := touched } grec)) (fun r hr => hs r ?_) _ hp ipv6
      simpa [ReportLoop.records, reportReset, reportSend] using hr
    | opens _ _ _ => exact hs.opens h.endian hp ipv6
    | adds src touched _ _ _ _ _ _ _ =>
      exact GoodRecords.append (s := { s with src := src, touched := touched })
        (hs.congr rfl rfl) _ ipv6

/-- Every record of a call is for a group that its steps look at, and asks for it. -/
theorem callRecords_good {P : In6Addr → Prop} (h : Host) {st : Conf} {i : Nat}
    {mca : Option In6Addr} (hsteps : ∀ x ∈ callSteps st i mca, ∀ g a, x = .subscr g a → P g) :
    ∀ recs ∈ callRecords h st i mca, ∀ r ∈ recs, P r.grecMca ∧ r.Asks := by
  have hrun : ∀ (xs : List ReportStep) (s : ReportLoop), (∀ x ∈ xs, x ∈ callSteps st i mca) →
      GoodRecords P s → GoodRecords P (Runs.run (reportStep h i) s xs) := by
    intro xs
    induction xs with
    | nil => exact fun s _ hs => hs
    | cons x xs ih =>
      intro s hxs hs
      obtain ⟨hx, hxs⟩ := List.forall_mem_cons.mp hxs
      exact ih _ hxs (reportStep_goodRecords hs (hsteps x hx))
  have hloops := hrun (callSteps st i mca) (reportInit h st i) (fun _ hx => hx)
    (fun r hr => by cases hr)
  rw [callSteps, ← reportLoops_eq_run] at hloops
  intro recs hrecs r hr
  refine hloops r ?_
  simp only [callRecords, reportFinish] at hrecs
  split at hrecs
  · exact List.mem_append_left _ (List.mem_flatten_of_mem hrecs hr)
  · split at hrecs
    · exact List.mem_append_left _ (List.mem_flatten_of_mem hrecs hr)
    · rcases List.mem_append.mp hrecs with hrecs | hrecs
      · exact List.mem_append_left _ (List.mem_flatten_of_mem hrecs hr)
      · rw [List.mem_singleton.mp hrecs] at hr
        exact List.mem_append_right _ hr

/-- A subscription that is looked at belongs to a group that the call is about, and is wanted on
another interface. -/
theorem mem_callSteps {st : Conf} {i : Nat} {mca : Option In6Addr} {g a : In6Addr}
    (hx : .subscr g a ∈ callSteps st i mca) : ∃ groupn ∈ st.groups.nodes, groupn.mca = g ∧
      AskedFor mca g ∧ a ∈ wanted (st.intn i).ifindex groupn := by
  obtain ⟨groupn, hgroupn, hx⟩ := List.mem_flatMap.mp hx
  obtain ⟨hmem, hreports⟩ := List.mem_filter.mp hgroupn
  rcases List.mem_cons.mp hx with hx | hx
  · cases hx
  · obtain ⟨b, hb, he⟩ := List.mem_map.mp hx
    cases he
    exact ⟨groupn, hmem, rfl, askedFor_of_reportsGroup hreports, hb⟩

/-- Every record of a call asks for a group that the call is about and that is wanted on another
interface. -/
theorem callRecords_wanted (h : Host) {st : Conf} (hok : TableOk ValidSubscr st.groups) (i : Nat)
    (mca : Option In6Addr) : ∀ recs ∈ callRecords h st i mca, ∀ r ∈ recs,
      (AskedFor mca r.grecMca ∧ ∃ a, WantedElsewhere st.groups (st.intn i).ifindex r.grecMca a) ∧
        r.Asks := by
  refine callRecords_good h (P := fun g => AskedFor mca g ∧
    ∃ a, WantedElsewhere st.groups (st.intn i).ifindex g a) fun x hx g a he => ?_
  subst he
  obtain ⟨groupn, hmem, rfl, hask, ha⟩ := mem_callSteps hx
  exact ⟨hask, a, (mem_wanted_iff hok hmem _).mp ha⟩

/-! ## 3. Queries and MLDv1 reports -/

/-- The length of a query: in MLDv1 format in `mld1only` mode, in MLDv2 format otherwise. -/
def queryLength (st : Conf) : Nat := if st.mld1only then 72 else 76

/-- The packet that `mld_send_query` builds. -/
def queryPacket (h : Host) (st : Conf) (i : Nat) (mca : In6Addr) : Mem :=
  let e := h.endian
  let packet := (h.calloc 92).write 0
    (mldHeader e (queryLength st - 40) (st.intn i).linklocal (linkScope 1))
  let packet := packet.write 48 [icmp6MembershipQuery]
  let packet := e.store16 packet 52 (e.htons 2000)
  let packet := packet.write 56 mca.s6Addr
  let packet := if st.mld1only then packet
    else (packet.write 72 [UInt8.ofNat ecmhRobustnessFactor,
      UInt8.ofNat ecmhSubscriptionTimeout]).write 74 (e.bytes16 (e.htons 0))
  e.store16 packet 50 (ipv6Checksum e packet ipprotoIcmpv6 (packet.shift 48) (queryLength st - 48))

/-- The packet that `mld1_send_report` builds. -/
def mld1ReportPacket (h : Host) (st : Conf) (i : Nat) (mca : In6Addr) : Mem :=
  let e := h.endian
  let packet := (h.calloc 72).write 0 (mldHeader e 32 (st.intn i).linklocal mca)
  let packet := packet.write 48 [icmp6MembershipReport]
  let packet := packet.write 56 mca.s6Addr
  e.store16 packet 50 (ipv6Checksum e packet ipprotoIcmpv6 (packet.shift 48) 24)

/-- A query, without the steps in which the packet is put together. -/
theorem mldSendQuery_eq (h : Host) (st : Conf) (i : Nat) (mca : In6Addr) : mldSendQuery h st i mca
    = if (st.intn i).upstream then st
      else countIcmpSent (sendpacket6 h .mldSendQuery st i (queryPacket h st i mca)
        (queryLength st)) i := rfl

/-- The same for an MLDv1 report. -/
theorem mld1SendReport_eq (h : Host) (st : Conf) (i : Nat) (mca : In6Addr) :
    mld1SendReport h st i mca = countIcmpSent (sendpacket6 h (.mld1SendReport mca) st i
      (mld1ReportPacket h st i mca) 72) i := rfl

/-- A query says that it is one. -/
theorem mldSendQuery_sent (h : Host) (st : Conf) (i : Nat) (mca : In6Addr) :
    AllSent (fun x => x.sender = .mldSendQuery ∧ x.packet.length = queryLength st) st
      (mldSendQuery h st i mca) := by
  rw [mldSendQuery_eq]
  split
  · exact .refl st
  · refine AllSent.congr (sendpacket6_allSent h .mldSendQuery st i _ _ ⟨rfl, ?_⟩) rfl
      (countIcmpSent_sent _ i)
    simp only [sentOf, Mem.length_read, queryLength]
    split <;> rfl

/-- An MLDv1 report is sent, whatever the state. -/
theorem mld1SendReport_sent (h : Host) (st : Conf) (i : Nat) (mca : In6Addr) : ∃ x : Sent,
    (mld1SendReport h st i mca).sent = st.sent ++ [x] ∧ x.sender = .mld1SendReport mca ∧
      x.ifindex = (st.intn i).ifindex ∧ x.groups = st.groups :=
  ⟨_, sendpacket6_sent h (.mld1SendReport mca) st i _ _, rfl, rfl, rfl⟩

/-! ## 4. Reports for a group

`mld_send_report` sends in version 1, in version 2, or in both.  Either way the packets are for
the group, and an MLDv2 one says so only where another interface wants it. -/

/-- A report for the group, sent on the interface in slot `i` while the table was that of `st`. -/
structure ReportFor (st : Conf) (i : Nat) (mca : In6Addr) (x : Sent) : Prop where
  ifindex : x.ifindex = (st.intn i).ifindex
  groups : x.groups = st.groups
  sender : x.sender = .mld1SendReport mca ∧ mld1Reports st i = true ∨
    ∃ recs, x.sender = .mld2SendReport recs ∧ mld2Reports st i = true ∧
      ∀ r ∈ recs, r.grecMca = mca ∧ r.Asks ∧
        ∃ a, WantedElsewhere st.groups (st.intn i).ifindex mca a

/-- An MLDv1 report that went out before does not decide on the MLDv2 one. -/
theorem mld2Reports_of_sendsOnly {on : Nat → Prop} {st st' : Conf} (hs : SendsOnly on st st')
    (i : Nat) : mld2Reports st' i = mld2Reports st i := by
  rw [mld2Reports, mld2Reports, hs.mld1only, hs.mld2only, hs.mldVersion]

/-- The packets of a call for one group. -/
theorem mld2SendReport_for (h : Host) {st : Conf} (hok : TableOk ValidSubscr st.groups) (i : Nat)
    (mca : In6Addr) : AllSent (fun x => x.ifindex = (st.intn i).ifindex ∧ x.groups = st.groups ∧
      ∃ recs, x.sender = .mld2SendReport recs ∧ ∀ r ∈ recs, r.grecMca = mca ∧ r.Asks ∧
        ∃ a, WantedElsewhere st.groups (st.intn i).ifindex mca a) st
      (mld2SendReport h st i (some mca)) := by
  obtain ⟨new, hnew, -, hall⟩ := mld2SendReport_sent h st i (some mca)
  refine ⟨new, hnew, ?_⟩
  intro x hx
  obtain ⟨⟨recs, hrecs, hsender⟩, hgroups, hidx⟩ := hall x hx
  refine ⟨hidx, hgroups, recs, hsender, ?_⟩
  intro r hr
  obtain ⟨⟨hask, hwant⟩, hasks⟩ := callRecords_wanted h hok i (some mca) recs hrecs r hr
  have hmca : r.grecMca = mca := by
    rcases hask with hask | hask
    · cases hask
    · exact (Option.some.inj hask).symm
  exact ⟨hmca, hasks, hmca ▸ hwant⟩

/-- What `mld_send_report` sends are reports for the group, as the version has them. -/
theorem mldSendReport_for (h : Host) {st : Conf} (hok : TableOk ValidSubscr st.groups) (i : Nat)
    (mca : In6Addr) : AllSent (ReportFor st i mca) st (mldSendReport h st i mca) := by
  have hfirst : ∃ st1, (if mld1Reports st i then mld1SendReport h st i mca else st) = st1 ∧
      SendsOnly (· = i) st st1 ∧ AllSent (ReportFor st i mca) st st1 := by
    refine ⟨_, rfl, ?_⟩
    split
    · rename_i h1
      obtain ⟨x, hx, hsender, hidx, hgroups⟩ := mld1SendReport_sent h st i mca
      refine ⟨mld1SendReport_sendsOnly h st i mca, [x], hx, ?_⟩
      intro y hy
      rw [List.mem_singleton.mp hy]
      exact ⟨hidx, hgroups, Or.inl ⟨hsender, h1⟩⟩
    · exact ⟨.refl st, .refl st⟩
  obtain ⟨st1, hst1, hsends, hall⟩ := hfirst
  unfold mldSendReport
  rw [hst1]
  dsimp only
  split
  · rename_i h2
    have hok1 : TableOk ValidSubscr st1.groups := by
      rw [hsends.groups]
      exact hok
    refine hall.trans ((mld2SendReport_for h hok1 i mca).mono ?_)
    rintro x ⟨hidx, hgroups, recs, hsender, hrecs⟩
    rw [hsends.ifindex, hsends.groups] at hrecs
    rw [hsends.ifindex] at hidx
    rw [hsends.groups] at hgroups
    rw [mld2Reports_of_sendsOnly hsends] at h2
    exact ⟨hidx, hgroups, Or.inr ⟨recs, hsender, h2, hrecs⟩⟩
  · exact hall

/-! ## 5. Reports on all other interfaces

The loop of `mld_send_report_all` may lose an interface on the way, when `sendto` answers `ENXIO`.
The slots it has not come to yet are still as they were. -/

/-- The slots that a report received in slot `interface` is passed on to. -/
def passedOn (st : Conf) (interface j : Nat) : Prop :=
  (st.intn j).mtu ≠ 0 ∧ (st.intn interface).ifindex ≠ (st.intn j).ifindex

instance (st : Conf) (interface j : Nat) : Decidable (passedOn st interface j) :=
  inferInstanceAs (Decidable (_ ∧ _))

/-- The state when the loop of `mld_send_report_all` is at the slots `l`: these slots are as they
were, and nothing else changed but what sending changes. -/
structure AllLoop (st : Conf) (l : List Nat) (s : Conf) : Prop where
  sends : SendsOnly (fun _ => True) st s
  left : ∀ j ∈ l, s.intn j = st.intn j

/-- What the loop sends at a slot is a report for the slot as it was before the loop. -/
theorem ReportFor.of_loop {st s : Conf} {l : List Nat} (hs : AllLoop st l s) {j : Nat}
    (hj : j ∈ l) {mca : In6Addr} {x : Sent} (hx : ReportFor s j mca x) : ReportFor st j mca x := by
  have h1 : mld1Reports s j = mld1Reports st j := by
    rw [mld1Reports, mld1Reports, hs.sends.mld1only, hs.sends.mld2only, hs.left j hj]
  refine ⟨by rw [hx.ifindex, hs.left j hj], by rw [hx.groups, hs.sends.groups], ?_⟩
  refine hx.sender.imp (fun hv1 => ⟨hv1.1, h1 ▸ hv1.2⟩) ?_
  rintro ⟨recs, hsender, h2, hrecs⟩
  rw [hs.left j hj, hs.sends.groups] at hrecs
  rw [mld2Reports_of_sendsOnly hs.sends] at h2
  exact ⟨recs, hsender, h2, hrecs⟩

/-- The body of the loop. -/
def reportTo (h : Host) (interface : Nat) (mca : In6Addr) (st : Conf) (i : Nat) : Conf :=
  if (st.intn i).mtu = 0 ∨ (st.intn interface).ifindex = (st.intn i).ifindex then st
  else mldSendReport h st i mca

/-- **One slot** of the loop: the slots behind it are as they were. -/
theorem reportTo_loop {h : Host} {st s : Conf} {interface j : Nat} {l : List Nat}
    (hs : AllLoop st (j :: l) s) (hj : j ∉ l) (mca : In6Addr) :
    AllLoop st l (reportTo h interface mca s j) := by
  have hsends : SendsOnly (· = j) s (reportTo h interface mca s j) := by
    unfold reportTo
    split
    · exact .refl s
    · exact mldSendReport_sendsOnly h s j mca
  refine ⟨hs.sends.trans (hsends.mono fun _ _ => trivial), ?_⟩
  intro k hk
  have hne : k ≠ j := by
    rintro rfl
    exact hj hk
  exact (hsends.other k hne).trans (hs.left k (List.mem_cons_of_mem _ hk))

/-- Whether a slot is passed over is decided by the state before the loop. -/
theorem reportTo_eq {h : Host} {st s : Conf} {interface j : Nat} {l : List Nat}
    (hs : AllLoop st l s) (hj : j ∈ l) (mca : In6Addr) : reportTo h interface mca s j
      = if passedOn st interface j then mldSendReport h s j mca else s := by
  have hleft := hs.left j hj
  have hidx := hs.sends.ifindex interface
  unfold reportTo
  rw [hleft, hidx]
  by_cases hp : passedOn st interface j
  · rw [if_pos hp, if_neg]
    rintro (hc | hc)
    · exact hp.1 hc
    · exact hp.2 hc
  · rw [if_neg hp, if_pos]
    by_contra hc
    rw [not_or] at hc
    exact hp hc

/-- What the loop sends on each interface, and that it does. -/
theorem reportTo_sent {h : Host} {st : Conf} (hok : TableOk ValidSubscr st.groups)
    (interface : Nat) (mca : In6Addr) : ∀ (l : List Nat) {s : Conf}, l.Nodup → AllLoop st l s →
    AllSent (fun x => ∃ j ∈ l, passedOn st interface j ∧ ReportFor st j mca x) s
      (l.foldl (reportTo h interface mca) s) ∧
    ∀ j ∈ l, passedOn st interface j → ∃ s', AllLoop st [j] s' ∧ AllSent (fun _ => True) s s' ∧
      AllSent (fun _ => True) (mldSendReport h s' j mca)
        (l.foldl (reportTo h interface mca) s) := by
  intro l
  induction l with
  | nil =>
    intro s _ _
    exact ⟨.refl s, fun j hj => absurd hj (by simp)⟩
  | cons j l ih =>
    intro s hnd hs
    obtain ⟨hj, hnd⟩ := List.nodup_cons.mp hnd
    have hs' : AllLoop st l (reportTo h interface mca s j) := reportTo_loop hs hj mca
    obtain ⟨hall, heach⟩ := ih hnd hs'
    have hone : AllSent (fun x => ∃ k ∈ j :: l, passedOn st interface k ∧ ReportFor st k mca x) s
        (reportTo h interface mca s j) := by
      rw [reportTo_eq hs List.mem_cons_self]
      split
      · rename_i hp
        have hoks : TableOk ValidSubscr s.groups := by
          rw [hs.sends.groups]
          exact hok
        refine (mldSendReport_for h hoks j mca).mono fun x hx => ?_
        exact ⟨j, List.mem_cons_self, hp, hx.of_loop hs List.mem_cons_self⟩
      · exact .refl s
    refine ⟨hone.trans (hall.mono ?_), ?_⟩
    · rintro x ⟨k, hk, hx⟩
      exact ⟨k, List.mem_cons_of_mem _ hk, hx⟩
    · intro k hk hp
      rcases List.mem_cons.mp hk with rfl | hk
      · refine ⟨s, ⟨hs.sends, fun i hi => ?_⟩, .refl s, ?_⟩
        · rw [List.mem_singleton.mp hi]
          exact hs.left k List.mem_cons_self
        · rw [List.foldl_cons, reportTo_eq hs List.mem_cons_self, if_pos hp] at *
          exact hall.mono fun _ _ => trivial
      · obtain ⟨s', hloop, hbefore, hafter⟩ := heach k hk hp
        exact ⟨s', hloop, (hone.mono fun _ _ => trivial).trans hbefore, hafter⟩

/-- `mld_send_report_all` is a loop over the slots. -/
theorem mldSendReportAll_eq (h : Host) (st : Conf) (interface : Nat) (mca : In6Addr) :
    mldSendReportAll h st interface mca
      = (List.range st.maxinterfaces).foldl (reportTo h interface mca) st := rfl

/-- **What `mld_send_report_all` sends**: reports for the group, on the interfaces in use other than
the one that the report came from. -/
theorem mldSendReportAll_for (h : Host) {st : Conf} (hok : TableOk ValidSubscr st.groups)
    (interface : Nat) (mca : In6Addr) :
    AllSent (fun x => ∃ j, passedOn st interface j ∧ ReportFor st j mca x) st
      (mldSendReportAll h st interface mca) := by
  rw [mldSendReportAll_eq]
  have hloop := (reportTo_sent (h := h) hok interface mca (List.range st.maxinterfaces)
    List.nodup_range ⟨.refl st, fun _ _ => rfl⟩).1
  exact hloop.mono fun x ⟨j, _, hx⟩ => ⟨j, hx⟩

/-- Every other interface in use gets its reports, made while the table is that of `st`. -/
theorem mldSendReportAll_each (h : Host) {st : Conf} (hok : TableOk ValidSubscr st.groups)
    {interface j : Nat} (hj : j < st.maxinterfaces) (hp : passedOn st interface j) (mca : In6Addr) :
    ∃ s, AllLoop st [j] s ∧ AllSent (fun _ => True) st s ∧
      AllSent (fun _ => True) (mldSendReport h s j mca) (mldSendReportAll h st interface mca) := by
  rw [mldSendReportAll_eq]
  exact (reportTo_sent hok interface mca (List.range st.maxinterfaces) List.nodup_range
    ⟨.refl st, fun _ _ => rfl⟩).2 j (List.mem_range.mpr hj) hp

/-! ## 6. What the handlers send

A packet of the daemon is a query or a report in a version that the mode allows (`SendsMld`), a
copy, or an ICMPv6 error. -/

/-- An MLD message that may be sent with these settings of `mld1only` and `mld2only`. -/
structure MldSent (mld1only mld2only : Bool) (x : Sent) : Prop where
  query : x.sender = .mldSendQuery → x.packet.length = if mld1only then 72 else 76
  mld1 : ∀ mca, x.sender = .mld1SendReport mca → mld2only = false
  mld2 : ∀ recs, x.sender = .mld2SendReport recs → mld1only = false
  icmp6 : x.sender ≠ .icmp6Send
  multicast : x.sender ≠ .l4Ipv6Multicast

/-- The same between two states, with the settings of the first. -/
abbrev SendsMld (st st' : Conf) : Prop := AllSent (MldSent st.mld1only st.mld2only) st st'

/-- The second of two parts may be proved with its own settings, which are those of the first. -/
theorem SendsMld.then {a b c : Conf} (h1 : SendsMld a b) (hab : Handles a b) (h2 : SendsMld b c) :
    SendsMld a c := by
  rw [SendsMld, hab.mld1only, hab.mld2only] at h2
  exact AllSent.trans h1 h2

/-- The same where nothing is sent before. -/
theorem SendsMld.after {a b c : Conf} (hab : Handles a b) (hsent : b.sent = a.sent)
    (h : SendsMld b c) : SendsMld a c := SendsMld.then (.of_eq hsent) hab h

/-- A loop of functions that only send. -/
theorem sendsMld_foldl {α : Type} {f : Conf → α → Conf} (on : Nat → Prop)
    (hsends : ∀ st x, SendsOnly on st (f st x)) (hf : ∀ st x, SendsMld st (f st x)) :
    ∀ (l : List α) (st : Conf), SendsMld st (l.foldl f st) := by
  intro l
  induction l with
  | nil => exact fun st => .refl st
  | cons x l ih => exact fun st => (hf st x).then (hsends st x).handles (ih (f st x))

/-- A query may go out in any mode. -/
theorem mldSendQuery_sendsMld (h : Host) (st : Conf) (i : Nat) (mca : In6Addr) :
    SendsMld st (mldSendQuery h st i mca) := by
  refine (mldSendQuery_sent h st i mca).mono ?_
  rintro x ⟨hs, hlen⟩
  exact ⟨fun _ => hlen, fun mca hc => by simp [hs] at hc, fun recs hc => by simp [hs] at hc,
    by simp [hs], by simp [hs]⟩

/-- An MLDv1 report may not in the MLDv2-only mode. -/
theorem mld1SendReport_sendsMld (h : Host) {st : Conf} (h2 : st.mld2only = false) (i : Nat)
    (mca : In6Addr) : SendsMld st (mld1SendReport h st i mca) := by
  obtain ⟨x, hx, hs, -, -⟩ := mld1SendReport_sent h st i mca
  refine ⟨[x], hx, ?_⟩
  intro y hy
  rw [List.mem_singleton.mp hy]
  exact ⟨fun hc => by simp [hs] at hc, fun _ _ => h2, fun recs hc => by simp [hs] at hc,
    by simp [hs], by simp [hs]⟩

/-- An MLDv2 report may not in the MLDv1-only mode. -/
theorem mld2SendReport_sendsMld (h : Host) {st : Conf} (h1 : st.mld1only = false) (i : Nat)
    (mca : Option In6Addr) : SendsMld st (mld2SendReport h st i mca) := by
  obtain ⟨new, hnew, -, hall⟩ := mld2SendReport_sent h st i mca
  refine ⟨new, hnew, ?_⟩
  intro x hx
  obtain ⟨⟨recs, -, hs⟩, -⟩ := hall x hx
  exact ⟨fun hc => by simp [hs] at hc, fun mca hc => by simp [hs] at hc, fun _ _ => h1,
    by simp [hs], by simp [hs]⟩

/-- `mld_send_report` asks for the mode before it sends either. -/
theorem mldSendReport_sendsMld (h : Host) (st : Conf) (i : Nat) (mca : In6Addr) :
    SendsMld st (mldSendReport h st i mca) := by
  have hfirst : ∃ st1, (if mld1Reports st i then mld1SendReport h st i mca else st) = st1 ∧
      SendsOnly (· = i) st st1 ∧ SendsMld st st1 := by
    refine ⟨_, rfl, ?_⟩
    split
    · rename_i hv1
      have h2 : st.mld2only = false := by
        simp only [mld1Reports, Bool.and_eq_true, Bool.not_eq_true'] at hv1
        exact hv1.1
      exact ⟨mld1SendReport_sendsOnly h st i mca, mld1SendReport_sendsMld h h2 i mca⟩
    · exact ⟨.refl st, .refl st⟩
  obtain ⟨st1, hst1, hsends, hall⟩ := hfirst
  unfold mldSendReport
  rw [hst1]
  dsimp only
  split
  · rename_i hv2
    have h1 : st1.mld1only = false := by
      simp only [mld2Reports, Bool.and_eq_true, Bool.not_eq_true'] at hv2
      exact hv2.1
    exact hall.then hsends.handles (mld2SendReport_sendsMld h h1 i (some mca))
  · exact hall

/-- Sending does not change the mode, so that the loop is asked on every interface as at the first.
-/
theorem mldSendReportAll_sendsMld (h : Host) (st : Conf) (interface : Nat) (mca : In6Addr) :
    SendsMld st (mldSendReportAll h st interface mca) := by
  rw [mldSendReportAll_eq]
  refine sendsMld_foldl (fun _ => True) (fun st i => ?_) (fun st i => ?_) _ st
  · unfold reportTo
    split
    · exact .refl st
    · exact (mldSendReport_sendsOnly h st i mca).mono fun _ _ => trivial
  · unfold reportTo
    split
    · exact .refl st
    · exact mldSendReport_sendsMld h st i mca

theorem announce_sendsMld (h : Host) (st : Conf) (i : Nat) (mca : In6Addr) (isnew : Bool) :
    SendsMld st (if isnew then mldSendReportAll h st i mca else st) := by
  split
  · exact mldSendReportAll_sendsMld h st i mca
  · exact .refl st

/-- **An MLDv1 report** is answered by what its announcement sends. -/
theorem mld1Report_sendsMld (h : Host) (now : Nat) (st : Conf) (i : Nat) (mld1 : Mem) :
    SendsMld st (l4Ipv6Icmpv6Mld1Report h now st i mld1) := by
  have hset := intSetMldVersion_handles now st i 1
  have hsent := intSetMldVersion_sent now st i 1
  unfold l4Ipv6Icmpv6Mld1Report
  dsimp only
  split
  · exact .of_eq hsent
  · exact .after (hset.trans (setGroups_handles _ _)) hsent (announce_sendsMld h _ i _ _)

/-- A reduction is answered by a query. -/
theorem mld1Reduction_sendsMld (h : Host) (now : Nat) (st : Conf) (i : Nat) (mld1 : Mem) :
    SendsMld st (l4Ipv6Icmpv6Mld1Reduction h now st i mld1) := by
  have hset := intSetMldVersion_handles now st i 1
  have hsent := intSetMldVersion_sent now st i 1
  unfold l4Ipv6Icmpv6Mld1Reduction
  dsimp only
  split
  · exact .of_eq hsent
  · split
    · exact .of_eq hsent
    · split
      · exact .of_eq hsent
      · split
        · exact .of_eq hsent
        · split
          · refine SendsMld.after (hset.trans (setGroups_handles _ _)) hsent ?_
            exact AllSent.setGroups (mldSendQuery_sendsMld h _ i _) _
          · exact .of_eq hsent

theorem grecStep_sendsMld (h : Host) (now i : Nat) (s : Conf × Bool) (r : GrecSeen) :
    SendsMld s.1 (grecStep h now i s r).1 := by
  simp only [grecStep]
  split
  · exact .after (setGroups_handles s.1 _) rfl (mldSendReportAll_sendsMld h _ i r.mca)
  · exact .of_eq rfl

/-- An MLDv2 report is answered by the announcements of its records. -/
theorem mld2Report_sendsMld (h : Host) (now : Nat) (st : Conf) (i : Nat) (mld2r : Mem)
    (plen : Nat) : SendsMld st (l4Ipv6Icmpv6Mld2Report h now st i mld2r plen).st := by
  rw [mld2Report_run]
  refine (Runs.run_invariant (P := fun s : Conf × Bool => Handles st s.1 ∧ SendsMld st s.1)
    (fun s r hs => ⟨?_, hs.2.then hs.1 (grecStep_sendsMld h now i s r)⟩) _ _
    ⟨intSetMldVersion_handles now st i 2, .of_eq (intSetMldVersion_sent now st i 2)⟩).2
  exact (hs.1.trans (setGroups_handles _ _)).trans (grecStep_sendsOnly h now i s r).handles

/-- In the answer to an MLDv1 query each group is reported by itself. -/
theorem queryGroup_sendsMld (h : Host) (i : Nat) (st : Conf) (groupn : GroupNode) :
    SendsMld st (queryGroup h i st groupn) := by
  refine sendsMld_foldl (· = i) (fun st grpintn => ?_) (fun st grpintn => ?_) _ st
  · split
    · exact .refl st
    · exact mldSendReport_sendsOnly h st i groupn.mca
  · split
    · exact .refl st
    · exact mldSendReport_sendsMld h st i groupn.mca

/-- **A query** is answered in the versions that the mode allows. -/
theorem mldQuery_sendsMld (h : Host) (now : Nat) (st : Conf) (i plen : Nat) :
    SendsMld st (l4Ipv6Icmpv6MldQuery h now st i plen) := by
  unfold l4Ipv6Icmpv6MldQuery
  dsimp only
  generalize (if plen = 24 then 1 else 2) = version
  have hset := intSetMldVersion_handles now st i version
  have hsent := intSetMldVersion_sent now st i version
  split
  · exact .after hset hsent
      (sendsMld_foldl (· = i) (queryGroup_sendsOnly h i) (queryGroup_sendsMld h i) _ _)
  · split
    · rename_i h2
      refine .after hset hsent (mld2SendReport_sendsMld h ?_ i none)
      simpa using h2.1
    · exact .of_eq hsent

/-- The alarm sends queries. -/
theorem sendMldQuerys_sendsMld (h : Host) (st : Conf) : SendsMld st (sendMldQuerys h st) := by
  refine sendsMld_foldl (fun _ => True) (fun st i => ?_) (fun st i => ?_) _ st
  · split
    · exact .refl st
    · exact (mldSendQuery_sendsOnly h st i In6Addr.any).mono fun _ _ => trivial
  · split
    · exact .refl st
    · exact mldSendQuery_sendsMld h st i In6Addr.any

/-- All that a reduction sends is a query. -/
theorem mld1Reduction_asks (h : Host) (now : Nat) (st : Conf) (i : Nat) (mld1 : Mem) :
    AllSent (fun x => x.sender = .mldSendQuery) st
      (l4Ipv6Icmpv6Mld1Reduction h now st i mld1) := by
  have hsent := intSetMldVersion_sent now st i 1
  have hquery : ∀ (st : Conf) (mca : In6Addr),
      AllSent (fun x => x.sender = .mldSendQuery) st (mldSendQuery h st i mca) :=
    fun st mca => (mldSendQuery_sent h st i mca).mono fun _ hx => hx.1
  unfold l4Ipv6Icmpv6Mld1Reduction
  dsimp only
  split
  · exact .of_eq hsent
  · split
    · exact .of_eq hsent
    · split
      · exact .of_eq hsent
      · split
        · exact .of_eq hsent
        · split
          · exact (AllSent.of_eq hsent).trans ((hquery _ _).setGroups _)
          · exact .of_eq hsent

/-- All that is sent after the sweep are queries. -/
theorem sendMldQuerys_asks (h : Host) (st : Conf) :
    AllSent (fun x => x.sender = .mldSendQuery) st (sendMldQuerys h st) := by
  refine (AllSent.foldl (I := fun _ => True) (fun s i _ => ⟨trivial, ?_⟩) _ st trivial).2
  split
  · exact .refl s
  · exact (mldSendQuery_sent h s i In6Addr.any).mono fun _ hx => hx.1

/-! ## 7. What is sent for a packet -/

/-- The packet that `icmp6_send` builds, from an interface with the global address `global`. -/
def icmp6Packet (h : Host) (global src : In6Addr) (type code : UInt8) (data : Mem) (dlen : Nat) :
    Mem :=
  let e := h.endian
  let packet := (h.calloc 1548).write 0 [0x60]
  let packet := e.store16 packet ip6Plen (e.htons ((dlen + 4) % 65536))
  let packet := packet.write ip6Nxt [ipprotoIcmpv6]
  let packet := packet.write ip6Hlim [64]
  let packet := packet.write ip6Src global.s6Addr
  let packet := packet.write ip6Dst src.s6Addr
  let packet := packet.write 40 [type, code]
  let packet := packet.write 44 (data.read 0 (if 1500 > dlen then dlen else 1500))
  e.store16 packet 42 (ipv6Checksum e packet ipprotoIcmpv6 (packet.shift 40) (dlen + 4))

/-- An ICMPv6 error, without the steps in which it is put together. -/
theorem icmp6Send_eq (h : Host) (st : Conf) (i : Nat) (src : In6Addr) (type code : UInt8)
    (data : Mem) (dlen : Nat) : icmp6Send h st i src type code data dlen
      = countIcmpSent (sendpacket6 h .icmp6Send st i
          (icmp6Packet h (st.intn i).global src type code data dlen) (dlen + 44)) i := rfl

/-- The length of the data in the answer to an echo request whose hop limit ran out. -/
def echoLength (plen : Nat) : Nat := (plen + (2 ^ 32 - 4)) % 2 ^ 32

/-- A packet that is sent for this message, of `len` bytes, received in slot `i`. -/
def Message.Sends (h : Host) (st : Conf) (i len : Nat) (x : Sent) : Message → Prop
  | .data iph => x.sender = .l4Ipv6Multicast ∧ x.packet = iph.read 0 (len % 65536)
  | .echo iph => x.sender = .l4Ipv6Multicast ∧ x.packet = iph.read 0 (len % 65536)
  | .echoExceeded iph off plen => x.sender = .icmp6Send ∧
    x.packet = (icmp6Packet h (st.intn i).global (readAddr iph ip6Src) icmp6EchoReply
      icmp6TimeExceedTransit (iph.shift (off + 4)) (echoLength plen)).read 0
        ((echoLength plen + 44) % 65536)
  | _ => MldSent st.mld1only st.mld2only x

/-- A copy is the packet itself. -/
theorem multicastSubscrs_allSent (h : Host) (iph : Mem) (len : Nat) (src : In6Addr)
    (ifindex : Nat) (st : Conf) (l : List SubscrNode) :
    AllSent (fun x => x.sender = .l4Ipv6Multicast ∧ x.packet = iph.read 0 (len % 65536)) st
      (multicastSubscrs h iph len src ifindex st l) := by
  induction l with
  | nil => exact .refl st
  | cons s l ih =>
    rw [multicastSubscrs]
    split
    · exact ih
    · split
      · exact ih
      · split
        · exact ih
        · exact sendpacket6_allSent h _ st _ iph len ⟨rfl, rfl⟩

/-- What `l4_ipv6_multicast` sends are copies of the packet. -/
theorem multicast_allSent (h : Host) (st : Conf) (i : Nat) (iph : Mem) (len : Nat) :
    AllSent (fun x => x.sender = .l4Ipv6Multicast ∧ x.packet = iph.read 0 (len % 65536)) st
      (l4Ipv6Multicast h st i iph len) := by
  unfold l4Ipv6Multicast
  dsimp only
  split
  · exact .refl st
  · split
    · exact .refl st
    · refine AllSent.trans (AllSent.of_eq rfl)
        (AllSent.foldl (I := fun _ => True) (fun s g _ => ⟨trivial, ?_⟩) _ _ trivial).2
      unfold multicastGrpint
      split
      · exact .refl s
      · exact multicastSubscrs_allSent h iph len _ _ s _

/-- **What is sent for a message.** -/
theorem handle_sends (h : Host) (now : Nat) (st : Conf) (i len : Nat) (m : Message) :
    AllSent (fun x => m.Sends h st i len x) st (m.handle h now st i len) := by
  have hcount := countIcmpReceived_handles st i
  have hsent : (countIcmpReceived st i).sent = st.sent := rfl
  cases m with
  | dropped => exact .refl st
  | ignored => exact .of_eq hsent
  | exceeded => exact .of_eq rfl
  | data iph => exact multicast_allSent h st i iph len
  | echoExceeded iph off plen =>
    have hglobal : ((countHlimExceeded (countIcmpReceived st i)).intn i).global
        = (st.intn i).global := hcount.global i
    simp only [Message.handle, Message.Sends, echoLength, icmp6Send_eq, hglobal]
    generalize (plen + (2 ^ 32 - 4)) % 2 ^ 32 = dlen
    exact AllSent.congr (a := countHlimExceeded (countIcmpReceived st i))
      (sendpacket6_allSent h .icmp6Send _ i _ _ ⟨rfl, rfl⟩) rfl (countIcmpSent_sent _ i)
  | echo iph => exact (multicast_allSent h (countIcmpReceived st i) i iph len).congr hsent rfl
  | mld1Report mld1 => exact SendsMld.after hcount hsent (mld1Report_sendsMld h now _ i mld1)
  | mld1Reduction mld1 => exact SendsMld.after hcount hsent (mld1Reduction_sendsMld h now _ i mld1)
  | mld2Report mld2r plen =>
    exact SendsMld.after hcount hsent (mld2Report_sendsMld h now _ i mld2r plen)
  | query plen => exact SendsMld.after hcount hsent (mldQuery_sendsMld h now _ i plen)

/-- **A packet** makes the daemon send what its message stands for. -/
theorem l3_sends (h : Host) (now : Nat) (st : Conf) (i : Nat) (iph : Mem) (len : Nat) :
    AllSent (fun x => (l3Message h.endian (st.intn i) iph len).Sends h st i len x) st
      (l3Ipv6 h now st i iph len) := by
  rw [l3Ipv6_eq]
  exact handle_sends h now st i len _

end Ecmh
