/-
# Announcements, and the answer to a query

An announcement tells the routers on a link that somebody listens: an MLDv1 report, or an MLDv2
record that asks for traffic.  `Sent.Announces` is about what the sender meant; what the bytes of a
packet announce is in `Ecmh.OnWire`.  `SomeSent P` says that a packet with the property `P` was
sent, as `AllSent P` says it of every packet.

A query is answered by one of two loops.  The one for MLDv1 reports the groups in which the
interface of the query has listeners of its own, the one for MLDv2 those in which the others have.
-/
import Ecmh.ReportSilent
import Ecmh.Version

namespace Ecmh

open ByteMem

/-! ## 1. Something that is sent -/

/-- Something that was sent between two states has the property. -/
def SomeSent (P : Sent → Prop) (st st' : Conf) : Prop :=
  ∃ new, st'.sent = st.sent ++ new ∧ ∃ x ∈ new, P x

section SomeSent

variable {P Q : Sent → Prop} {a b c : Conf}

theorem SomeSent.then (h : SomeSent P a b) (hbc : AllSent Q b c) : SomeSent P a c := by
  obtain ⟨new, hnew, x, hx, hp⟩ := h
  obtain ⟨more, hmore, -⟩ := hbc
  exact ⟨new ++ more, by rw [hmore, hnew, List.append_assoc], x, List.mem_append_left _ hx, hp⟩

theorem SomeSent.after (hab : AllSent Q a b) (h : SomeSent P b c) : SomeSent P a c := by
  obtain ⟨more, hmore, -⟩ := hab
  obtain ⟨new, hnew, x, hx, hp⟩ := h
  exact ⟨more ++ new, by rw [hnew, hmore, List.append_assoc], x, List.mem_append_right _ hx, hp⟩

theorem SomeSent.mono (h : SomeSent P a b) (hpq : ∀ x, P x → Q x) : SomeSent Q a b := by
  obtain ⟨new, hnew, x, hx, hp⟩ := h
  exact ⟨new, hnew, x, hx, hpq x hp⟩

/-- What is sent does not depend on anything else of the state. -/
theorem SomeSent.congr {a' b' : Conf} (h : SomeSent P a b) (ha : a'.sent = a.sent)
    (hb : b'.sent = b.sent) : SomeSent P a' b' := by
  obtain ⟨new, hnew, hx⟩ := h
  exact ⟨new, by rw [hb, ha, hnew], hx⟩

theorem SomeSent.of_mem (h : AllSent Q a b) {x : Sent} (hx : x ∈ newSent a b) (hp : P x) :
    SomeSent P a b := by
  obtain ⟨new, hnew, -⟩ := h
  rw [newSent_of_append hnew] at hx
  exact ⟨new, hnew, x, hx, hp⟩

theorem SomeSent.exists (h : SomeSent P a b) : ∃ x ∈ newSent a b, P x := by
  obtain ⟨new, hnew, x, hx, hp⟩ := h
  rw [newSent_of_append hnew]
  exact ⟨x, hx, hp⟩

/-- Both at once: the packet is one of those that have the other property. -/
theorem SomeSent.and (h : SomeSent P a b) (hall : AllSent Q a b) :
    SomeSent (fun x => P x ∧ Q x) a b := by
  obtain ⟨new, hnew, x, hx, hp⟩ := h
  obtain ⟨new', hnew', hq⟩ := hall
  have hsame : new = new' := List.append_cancel_left (hnew.symm.trans hnew')
  exact ⟨new, hnew, x, hx, hp, hq x (hsame ▸ hx)⟩

theorem SomeSent.ne (h : SomeSent P a b) : b.sent ≠ a.sent := by
  obtain ⟨new, hnew, x, hx, -⟩ := h
  intro hc
  rw [hnew] at hc
  rw [List.append_right_eq_self.mp hc] at hx
  cases hx

theorem SendsOnly.allSent {on : Nat → Prop} (h : SendsOnly on a b) :
    AllSent (fun _ => True) a b := by
  obtain ⟨new, hnew⟩ := h.sent
  exact ⟨new, hnew, fun _ _ => trivial⟩

/-- Of two parts, each must send what has the property. -/
theorem AllSent.trans_iff {R : Sent → Prop} (hab : AllSent Q a b) (hbc : AllSent R b c) :
    AllSent P a c ↔ AllSent P a b ∧ AllSent P b c := by
  refine ⟨fun hac => ?_, fun h => h.1.trans h.2⟩
  obtain ⟨x, hx, -⟩ := hab
  obtain ⟨y, hy, -⟩ := hbc
  obtain ⟨z, hz, hp⟩ := hac
  have hsplit : z = x ++ y := by
    rw [hy, hx, List.append_assoc] at hz
    exact (List.append_cancel_left hz).symm
  rw [hsplit] at hp
  exact ⟨⟨x, hx, fun s hs => hp s (List.mem_append_left _ hs)⟩,
    y, hy, fun s hs => hp s (List.mem_append_right _ hs)⟩

/-- Of two parts, one must send it. -/
theorem SomeSent.trans_iff {R : Sent → Prop} (hab : AllSent Q a b) (hbc : AllSent R b c) :
    SomeSent P a c ↔ SomeSent P a b ∨ SomeSent P b c := by
  constructor
  · intro hac
    obtain ⟨x, hx, -⟩ := hab
    obtain ⟨y, hy, -⟩ := hbc
    obtain ⟨z, hz, e, he, hp⟩ := hac
    have hsplit : z = x ++ y := by
      rw [hy, hx, List.append_assoc] at hz
      exact (List.append_cancel_left hz).symm
    rw [hsplit] at he
    rcases List.mem_append.mp he with he | he
    · exact Or.inl ⟨x, hx, e, he, hp⟩
    · exact Or.inr ⟨y, hy, e, he, hp⟩
  · rintro (h | h)
    · exact h.then hbc
    · exact .after hab h

section Run

variable {σ ε : Type} (conf : σ → Conf) {step : σ → ε → σ} {I : σ → Prop}

/-- What every step sends that meets a condition, a run of such steps sends. -/
theorem allSent_run_of {Q : σ → ε → Prop} (hstep : ∀ s e, I s → Q s e → I (step s e) ∧
    AllSent P (conf s) (conf (step s e))) (es : List ε) (s : σ) (hs : I s)
    (hq : Runs.StepsMeet step Q s es) : AllSent P (conf s) (conf (Runs.run step s es)) := by
  induction es generalizing s with
  | nil => exact .refl _
  | cons e es ih =>
    obtain ⟨hq0, hq⟩ := Runs.stepsMeet_cons.mp hq
    obtain ⟨hi, hall⟩ := hstep s e hs hq0
    exact hall.trans (ih (step s e) hi hq)

theorem allSent_run (hstep : ∀ s e, I s → I (step s e) ∧ AllSent P (conf s) (conf (step s e)))
    (es : List ε) (s : σ) (hs : I s) : AllSent P (conf s) (conf (Runs.run step s es)) :=
  allSent_run_of conf (Q := fun _ _ => True) (fun s e hs _ => hstep s e hs) es s hs
    (Runs.stepsMeet_true s es)

/-- **All that a run sends has the property if all that each step sends has it**, and only then. -/
theorem allSent_run_iff {Q : σ → ε → Prop} (hstep : ∀ s e, I s → I (step s e) ∧
      AllSent (fun _ => True) (conf s) (conf (step s e)))
    (hq : ∀ s e, I s → (AllSent P (conf s) (conf (step s e)) ↔ Q s e)) :
    ∀ (es : List ε) (s : σ), I s →
      (AllSent P (conf s) (conf (Runs.run step s es)) ↔ Runs.StepsMeet step Q s es) := by
  intro es
  induction es with
  | nil => exact fun s _ => iff_of_true (.refl _) (Runs.stepsMeet_nil _ _)
  | cons e es ih =>
    intro s hs
    obtain ⟨hi, hall⟩ := hstep s e hs
    rw [Runs.run_cons, hall.trans_iff (allSent_run conf hstep es _ hi), hq s e hs, ih _ hi,
      Runs.stepsMeet_cons]

/-- **A run sends something with the property if one of its steps does**, and only then. -/
theorem someSent_run_iff (hstep : ∀ s e, I s → I (step s e) ∧
      AllSent (fun _ => True) (conf s) (conf (step s e))) :
    ∀ (es : List ε) (s : σ), I s → (SomeSent P (conf s) (conf (Runs.run step s es)) ↔
      ∃ pre e post, es = pre ++ e :: post ∧
        SomeSent P (conf (Runs.run step s pre)) (conf (step (Runs.run step s pre) e))) := by
  intro es
  induction es with
  | nil =>
    refine fun s _ => iff_of_false (fun h => h.ne rfl) ?_
    rintro ⟨pre, e, post, he, -⟩
    exact absurd he.symm (by simp)
  | cons e es ih =>
    intro s hs
    obtain ⟨hi, hall⟩ := hstep s e hs
    rw [Runs.run_cons, SomeSent.trans_iff hall (allSent_run conf hstep es _ hi), ih _ hi]
    constructor
    · rintro (h | ⟨pre, x, post, rfl, h⟩)
      · exact ⟨[], e, es, rfl, h⟩
      · exact ⟨e :: pre, x, post, rfl, h⟩
    · rintro ⟨pre, x, post, he, h⟩
      cases pre with
      | nil =>
        rw [List.nil_append, List.cons.injEq] at he
        obtain ⟨rfl, rfl⟩ := he
        exact Or.inl h
      | cons y pre =>
        rw [List.cons_append, List.cons.injEq] at he
        obtain ⟨rfl, rfl⟩ := he
        exact Or.inr ⟨pre, x, post, rfl, h⟩

end Run

/-- A loop in which one round sends the packet, in every state that it may come to. -/
theorem SomeSent.foldl {α : Type} {f : Conf → α → Conf} {I : Conf → Prop}
    (h : ∀ s e, I s → I (f s e) ∧ AllSent (fun _ => True) s (f s e)) {e : α}
    (he : ∀ s, I s → SomeSent P s (f s e)) : ∀ (es : List α) (s : Conf), e ∈ es → I s →
    SomeSent P s (es.foldl f s) := by
  intro es
  induction es with
  | nil =>
    intro s hmem
    cases hmem
  | cons d es ih =>
    intro s hmem hs
    obtain ⟨hi, hall⟩ := h s d hs
    rw [List.foldl_cons]
    rcases List.mem_cons.mp hmem with rfl | hmem
    · exact (he s hs).then (AllSent.foldl h es (f s e) hi).2
    · exact SomeSent.after hall (ih (f s d) hmem hi)

end SomeSent

/-! ## 2. Announcements -/

/-- The packet is meant to say that there are listeners for the group.  Its records may have been
written elsewhere than they were meant to be. -/
def Sent.Announces (x : Sent) (g : In6Addr) : Prop :=
  x.sender = .mld1SendReport g ∨
    ∃ recs, x.sender = .mld2SendReport recs ∧ ∃ r ∈ recs, r.grecMca = g ∧ r.Asks

theorem Sent.announces_mld1 {x : Sent} {mca : In6Addr} (hs : x.sender = .mld1SendReport mca)
    {g : In6Addr} : x.Announces g ↔ g = mca := by
  constructor
  · rintro (hc | ⟨recs, hc, -⟩)
    · rw [hs] at hc
      cases hc
      rfl
    · rw [hs] at hc
      cases hc
  · rintro rfl
    exact Or.inl hs

theorem Sent.announces_mld2 {x : Sent} {recs : List Grec} (hs : x.sender = .mld2SendReport recs)
    {g : In6Addr} : x.Announces g ↔ ∃ r ∈ recs, r.grecMca = g ∧ r.Asks := by
  constructor
  · rintro (hc | ⟨recs', hc, hr⟩)
    · rw [hs] at hc
      cases hc
    · rw [hs] at hc
      cases hc
      exact hr
  · intro hr
    exact Or.inr ⟨recs, hs, hr⟩

theorem mld1Reports_of_sendsOnly {on : Nat → Prop} {st st' : Conf} (hs : SendsOnly on st st')
    (i : Nat) : mld1Reports st' i = mld1Reports st i := by
  rw [mld1Reports, mld1Reports, hs.mld1only, hs.mld2only, (hs.intn i).2]

/-- An interface that gets MLDv1 reports gets one for the group. -/
theorem mldSendReport_mld1 (h : Host) {st : Conf} {i : Nat} (hv : mld1Reports st i = true)
    (mca : In6Addr) : SomeSent (fun x => x.sender = .mld1SendReport mca ∧
      x.ifindex = (st.intn i).ifindex ∧ x.groups = st.groups) st (mldSendReport h st i mca) := by
  obtain ⟨x, hx, hsender, hidx, hgroups⟩ := mld1SendReport_sent h st i mca
  have hfirst : SomeSent (fun x => x.sender = .mld1SendReport mca ∧
      x.ifindex = (st.intn i).ifindex ∧ x.groups = st.groups) st (mld1SendReport h st i mca) :=
    ⟨[x], hx, x, List.mem_singleton_self x, hsender, hidx, hgroups⟩
  unfold mldSendReport
  rw [if_pos hv]
  dsimp only
  split
  · exact hfirst.then (mld2SendReport_sendsOnly h _ i _).allSent
  · exact hfirst

/-! ## 3. The answer in MLDv1 -/

/-- The interface is one of the group-interfaces of the group. -/
def HasGrpint (groups : Groups) (ifindex : Nat) (g : In6Addr) : Prop :=
  ∃ groupn ∈ groups.nodes, groupn.mca = g ∧
    ∃ grpintn ∈ groupn.interfaces.nodes, grpintn.ifindex = ifindex

/-- The state in the loops that answer a query: all that changed is what sending changes. -/
abbrev Answering (st : Conf) (i : Nat) (s : Conf) : Prop := SendsOnly (· = i) st s

/-- A group of which the interface is no group-interface is passed over. -/
theorem queryGroup_passes (h : Host) {i : Nat} {st : Conf} {groupn : GroupNode}
    (hno : ∀ grpintn ∈ groupn.interfaces.nodes, grpintn.ifindex ≠ (st.intn i).ifindex) :
    queryGroup h i st groupn = st := by
  unfold queryGroup
  generalize groupn.interfaces.nodes = l at hno ⊢
  induction l with
  | nil => rfl
  | cons grpintn l ih =>
    rw [List.foldl_cons, if_pos (hno grpintn List.mem_cons_self)]
    exact ih fun x hx => hno x (List.mem_cons_of_mem _ hx)

section Answer

variable {h : Host} {st : Conf} {i : Nat}

/-- A group of which it is one is reported. -/
theorem queryGroup_sends (hv : mld1Reports st i = true) {groupn : GroupNode} {s : Conf}
    (hs : Answering st i s)
    (hhas : ∃ grpintn ∈ groupn.interfaces.nodes, grpintn.ifindex = (st.intn i).ifindex) :
    SomeSent (fun x => x.sender = .mld1SendReport groupn.mca ∧
      x.ifindex = (st.intn i).ifindex ∧ x.groups = st.groups) s (queryGroup h i s groupn) := by
  obtain ⟨grpintn, hmem, hidx⟩ := hhas
  refine SomeSent.foldl (I := Answering st i) (fun s x hs => ?_) (fun s hs => ?_) _ s hmem hs
  · split
    · exact ⟨hs, .refl s⟩
    · have hsend := mldSendReport_sendsOnly h s i groupn.mca
      exact ⟨hs.trans hsend, hsend.allSent⟩
  · rw [if_neg (by rw [hs.ifindex]; exact not_not_intro hidx)]
    have hsend := mldSendReport_mld1 h ((mld1Reports_of_sendsOnly hs i).trans hv) groupn.mca
    rw [hs.ifindex, hs.groups] at hsend
    exact hsend

/-- What is said about a group in which the interface has a group-interface. -/
theorem queryGroup_for (hok : TableOk ValidSubscr st.groups) {s : Conf} (hs : Answering st i s)
    (groupn : GroupNode) : AllSent (fun x =>
      (∃ grpintn ∈ groupn.interfaces.nodes, grpintn.ifindex = (st.intn i).ifindex) ∧
        ReportFor st i groupn.mca x) s (queryGroup h i s groupn) := by
  by_cases hhas : ∃ grpintn ∈ groupn.interfaces.nodes, grpintn.ifindex = (st.intn i).ifindex
  · refine (AllSent.foldl (I := Answering st i) (P := ReportFor st i groupn.mca)
      (fun s x hs => ?_) _ s hs).2.mono fun x hx => ⟨hhas, hx⟩
    split
    · exact ⟨hs, .refl s⟩
    · refine ⟨hs.trans (mldSendReport_sendsOnly h s i groupn.mca), ?_⟩
      have hoks : TableOk ValidSubscr s.groups := by
        rw [hs.groups]
        exact hok
      refine (mldSendReport_for h hoks i groupn.mca).mono fun x hx => ?_
      have hx' := hx.sender
      rw [mld1Reports_of_sendsOnly hs, mld2Reports_of_sendsOnly hs, hs.groups, hs.ifindex] at hx'
      exact ⟨by rw [hx.ifindex, hs.ifindex], by rw [hx.groups, hs.groups], hx'⟩
  · rw [queryGroup_passes h fun x hx hc => hhas ⟨x, hx, hc.trans (hs.ifindex i)⟩]
    exact .refl s

/-- The loops of the answer in MLDv1. -/
def mld1Answer (h : Host) (st : Conf) (i : Nat) : Conf := st.groups.nodes.foldl (queryGroup h i) st

theorem mld1Answer_sendsOnly : SendsOnly (· = i) st (mld1Answer h st i) :=
  sendsOnly_foldl_conf (queryGroup_sendsOnly h i) _ st

/-- The groups that are answered for. -/
theorem mld1Answer_tells (hv : mld1Reports st i = true) {g : In6Addr}
    (hg : HasGrpint st.groups (st.intn i).ifindex g) :
    SomeSent (fun x => x.sender = .mld1SendReport g ∧ x.ifindex = (st.intn i).ifindex ∧
      x.groups = st.groups) st (mld1Answer h st i) := by
  obtain ⟨groupn, hmem, rfl, hhas⟩ := hg
  refine SomeSent.foldl (I := Answering st i) (fun s x hs => ?_)
    (fun s hs => queryGroup_sends hv hs hhas) st.groups.nodes st hmem (.refl st)
  have hsend := queryGroup_sendsOnly h i s x
  exact ⟨hs.trans hsend, hsend.allSent⟩

/-- What the answer consists of. -/
theorem mld1Answer_for (hok : TableOk ValidSubscr st.groups) : AllSent (fun x =>
    ∃ g, HasGrpint st.groups (st.intn i).ifindex g ∧ ReportFor st i g x) st
      (mld1Answer h st i) := by
  suffices hloop : ∀ (l : List GroupNode) (s : Conf), (∀ g ∈ l, g ∈ st.groups.nodes) →
      Answering st i s → AllSent (fun x => ∃ g, HasGrpint st.groups (st.intn i).ifindex g ∧
        ReportFor st i g x) s (l.foldl (queryGroup h i) s) from
    hloop _ st (fun _ hg => hg) (.refl st)
  intro l
  induction l with
  | nil => exact fun s _ _ => .refl s
  | cons groupn l ih =>
    intro s hl hs
    obtain ⟨hmem, hl⟩ := List.forall_mem_cons.mp hl
    have hone : AllSent (fun x => ∃ g, HasGrpint st.groups (st.intn i).ifindex g ∧
        ReportFor st i g x) s (queryGroup h i s groupn) :=
      (queryGroup_for hok hs groupn).mono fun x hx => ⟨groupn.mca, ⟨groupn, hmem, rfl, hx.1⟩, hx.2⟩
    exact hone.trans (ih _ hl (hs.trans (queryGroup_sendsOnly h i s groupn)))

/-- Where the interface is no group-interface, nothing is answered. -/
theorem mld1Answer_quiet (hno : ∀ g, ¬ HasGrpint st.groups (st.intn i).ifindex g) :
    mld1Answer h st i = st := by
  have hpass : ∀ groupn ∈ st.groups.nodes, queryGroup h i st groupn = st := by
    intro groupn hmem
    refine queryGroup_passes h ?_
    intro grpintn hg hidx
    exact hno groupn.mca ⟨groupn, hmem, rfl, grpintn, hg, hidx⟩
  unfold mld1Answer
  generalize st.groups.nodes = l at hpass
  induction l with
  | nil => rfl
  | cons groupn l ih =>
    rw [List.foldl_cons, hpass groupn List.mem_cons_self]
    exact ih fun g hg => hpass g (List.mem_cons_of_mem _ hg)

end Answer

/-! ## 4. The answer to a query -/

/-- The version of MLD that a query of this length stands for. -/
def queryVersion (plen : Nat) : Nat := if plen = 24 then 1 else 2

/-- "MLDv1 sends reports one group at a time": the first test of the query handler. -/
def answersMld1 (st : Conf) (i : Nat) : Prop := !st.mld2only ∧
  (st.mld1only ∨ (st.intn i).mldVersion = 0 ∨ (st.intn i).mldVersion = 1)

/-- "Send all the groups to this interface": the second one. -/
def answersMld2 (st : Conf) (i : Nat) : Prop :=
  !st.mld1only ∧ (st.mld2only ∨ (st.intn i).mldVersion = 2)

instance (st : Conf) (i : Nat) : Decidable (answersMld1 st i) :=
  inferInstanceAs (Decidable (_ ∧ _))

instance (st : Conf) (i : Nat) : Decidable (answersMld2 st i) :=
  inferInstanceAs (Decidable (_ ∧ _))

/-- The query handler after it has set the version. -/
def queryAnswer (h : Host) (st : Conf) (i : Nat) : Conf :=
  if answersMld1 st i then mld1Answer h st i
  else if answersMld2 st i then mld2SendReport h st i none
  else st

theorem mldQuery_eq (h : Host) (now : Nat) (st : Conf) (i plen : Nat) :
    l4Ipv6Icmpv6MldQuery h now st i plen
      = queryAnswer h (intSetMldVersion now st i (queryVersion plen)) i := rfl

theorem queryAnswer_sendsOnly (h : Host) (st : Conf) (i : Nat) :
    SendsOnly (· = i) st (queryAnswer h st i) := by
  unfold queryAnswer
  split
  · exact mld1Answer_sendsOnly
  · split
    · exact mld2SendReport_sendsOnly h st i none
    · exact .refl st

section Version

variable {st : Conf} {i : Nat} {now : Nat}

/-- After the call of `int_set_mld_version` the version is known, outside the two modes. -/
theorem intSetMldVersion_known (h1 : st.mld1only = false) (h2 : st.mld2only = false)
    (hslot : i < st.maxinterfaces) (plen : Nat) :
    ((intSetMldVersion now st i (queryVersion plen)).intn i).mldVersion ≠ 0 := by
  have hwrite : ∀ f, (st.setInt i f).intn i = f (st.intn i) := by
    intro f
    rw [setInt_intn, if_pos ⟨rfl, hslot⟩]
  unfold queryVersion
  split
  · rw [intSetMldVersion_v1 h2]
    split
    · rw [hwrite]
      exact Nat.one_ne_zero
    · assumption
  · rw [intSetMldVersion_v2 h1 hslot]
    split
    · rw [hwrite]
      exact Nat.succ_ne_zero 1
    · split
      · rw [hwrite]
        exact Nat.succ_ne_zero 1
      · assumption

theorem intSetMldVersion_modes (now : Nat) (st : Conf) (i newversion : Nat) :
    (intSetMldVersion now st i newversion).mld1only = st.mld1only ∧
    (intSetMldVersion now st i newversion).mld2only = st.mld2only ∧
    (intSetMldVersion now st i newversion).maxinterfaces = st.maxinterfaces := by
  obtain ⟨f, hf, -⟩ := intSetMldVersion_eq now st i newversion
  rw [hf]
  exact ⟨rfl, rfl, setInt_maxinterfaces st i f⟩

/-- Where the loops for MLDv1 are entered, the interface gets MLDv1 reports. -/
theorem mld1Reports_of_answersMld1 {plen : Nat}
    (ha : answersMld1 (intSetMldVersion now st i (queryVersion plen)) i) :
    mld1Reports (intSetMldVersion now st i (queryVersion plen)) i = true := by
  obtain ⟨hm1, hm2, hmax⟩ := intSetMldVersion_modes now st i (queryVersion plen)
  obtain ⟨h2, hv⟩ := ha
  simp only [mld1Reports, Bool.and_eq_true, Bool.or_eq_true, decide_eq_true_eq]
  refine ⟨h2, ?_⟩
  rw [Bool.not_eq_true', hm2] at h2
  rcases hv with hv | hv | hv
  · exact Or.inl (Or.inl hv)
  · by_cases h1 : st.mld1only = true
    · exact Or.inl (Or.inl (hm1.trans h1))
    · rcases Nat.lt_or_ge i st.maxinterfaces with hslot | hslot
      · exact absurd hv (intSetMldVersion_known (Bool.eq_false_iff.mpr h1) h2 hslot plen)
      · -- there is no such slot, and what is read is no upstream interface
        refine Or.inl (Or.inr ⟨hv, ?_⟩)
        rw [intn_of_ge (by rw [hmax]; exact hslot)]
        rfl
  · exact Or.inr hv

end Version

end Ecmh
