/-
# The two answers to a query

A query is to be answered with the groups that are wanted on the other interfaces, whatever the
version of MLD.  The MLDv1 answer walks over the group-interfaces and takes the one that the MLDv2
answer leaves out.  The answers are compared as the asker reads them off the packets, so that the
MLDv2 answer has to write its records where they belong.
-/
import Ecmh.OnWire

namespace Ecmh

open ByteMem

/-- An interface in use that is asked at this version, while the table is `groups`. -/
structure Asked (st : Conf) (i : Nat) (groups : Groups) (ifindex version : Nat) : Prop where
  slot : i < st.maxinterfaces
  mtu : 1280 ≤ (st.intn i).mtu
  groups : st.groups = groups
  ifindex : (st.intn i).ifindex = ifindex
  version : (st.intn i).mldVersion = version
  mld1only : st.mld1only = false
  mld2only : st.mld2only = false

/-- A packet that was sent on the interface between the two states announces the group. -/
def Answered (st st' : Conf) (ifindex : Nat) (g : In6Addr) : Prop :=
  ∃ x ∈ newSent st st', x.ifindex = ifindex ∧ Announced x.packet g

/-- The answers in the two versions report the same groups, those that are wanted elsewhere. -/
structure AnswersAgree (groups : Groups) (ifindex : Nat) (st1 st1' st2 st2' : Conf) : Prop where
  same : ∀ g, Answered st1 st1' ifindex g ↔ Answered st2 st2' ifindex g
  wanted : ∀ g, Answered st2 st2' ifindex g ↔ ∃ a, WantedElsewhere groups ifindex g a

/-- The interface has a group-interface in exactly the groups that are wanted elsewhere. -/
def OwnGroupsWanted (groups : Groups) (ifindex : Nat) : Prop :=
  ∀ g, HasGrpint groups ifindex g ↔ ∃ a, WantedElsewhere groups ifindex g a

section Answers

variable {h : Host} {groups : Groups} {ifindex : Nat} {st : Conf} {i : Nat}

/-- The answer in version 1. -/
theorem reported_mld1 (hok : TableOk ValidSubscr groups) (ha : Asked st i groups ifindex 1)
    (now : Nat) (g : In6Addr) :
    Answered st (l4Ipv6Icmpv6MldQuery h now st i 24) ifindex g ↔ HasGrpint groups ifindex g := by
  obtain ⟨hslot, -, rfl, rfl, hversion, h1, h2⟩ := ha
  have hset : intSetMldVersion now st i (queryVersion 24) = st := by
    rw [queryVersion, if_pos rfl, intSetMldVersion_v1 h2, if_neg (by rw [hversion]; decide)]
  have hanswer : queryAnswer h st i = mld1Answer h st i :=
    if_pos ⟨by rw [h2]; rfl, Or.inr (Or.inr hversion)⟩
  have hv : mld1Reports st i = true := by simp [mld1Reports, h2, hversion]
  have hon := @mldQuery_onWire h now st i 24
  rw [mldQuery_eq, hset, hanswer] at hon ⊢
  constructor
  · rintro ⟨x, hx, -, hannounce⟩
    obtain ⟨⟨g', hg', hfor⟩, hwire⟩ := ((mld1Answer_for hok).and hon).forall x hx
    rcases hfor.sender with ⟨hs, -⟩ | ⟨recs, hs, hv2, -⟩
    · rw [(hwire.mld1 hs g).mp hannounce]
      exact hg'
    · simp [mld2Reports, h1, h2, hversion] at hv2
  · intro hg
    obtain ⟨x, hx, ⟨hs, hidx, -⟩, hwire⟩ := ((mld1Answer_tells (h := h) hv hg).and hon).exists
    exact ⟨x, hx, hidx, (hwire.mld1 hs g).mpr rfl⟩

/-- What the handler goes on with when it is asked in version 2: it has noted the time at most. -/
theorem intSetMldVersion_asked (ha : Asked st i groups ifindex 2) (now : Nat) {plen : Nat}
    (hplen : plen ≠ 24) : Asked (intSetMldVersion now st i (queryVersion plen)) i groups ifindex 2 ∧
      (intSetMldVersion now st i (queryVersion plen)).sent = st.sent := by
  obtain ⟨hslot, hmtu, rfl, rfl, hversion, h1, h2⟩ := ha
  obtain ⟨hm1, hm2, hmax⟩ := intSetMldVersion_modes now st i (queryVersion plen)
  refine ⟨⟨hmax ▸ hslot, ?_, intSetMldVersion_groups .., intSetMldVersion_ifindex .., ?_,
    hm1.trans h1, hm2.trans h2⟩, intSetMldVersion_sent ..⟩
  · rw [intSetMldVersion_intn]
    exact hmtu
  · rw [queryVersion, if_neg hplen, intSetMldVersion_v2 h1 hslot]
    split
    · rw [setInt_intn, if_pos ⟨rfl, hslot⟩]
    · rw [if_neg (by rw [hversion]; decide)]
      exact hversion

theorem queryAnswer_mld2 (ha : Asked st i groups ifindex 2) :
    queryAnswer h st i = mld2SendReport h st i none := by
  obtain ⟨-, -, -, -, hversion, h1, -⟩ := ha
  rw [queryAnswer, if_neg, if_pos ⟨by rw [h1]; rfl, Or.inr hversion⟩]
  rintro ⟨-, hc | hc | hc⟩
  · rw [h1] at hc
    cases hc
  · rw [hversion] at hc
    cases hc
  · rw [hversion] at hc
    cases hc

/-- The packets of the answer announce the groups that are wanted elsewhere. -/
theorem mld2Answer_announces (hok : TableOk ValidSubscr st.groups) (hmtu : 1280 ≤ (st.intn i).mtu)
    (hlay : CallLaysOut h st i none) (g : In6Addr) :
    Answered st (mld2SendReport h st i none) (st.intn i).ifindex g ↔
      ∃ a, WantedElsewhere st.groups (st.intn i).ifindex g a := by
  have hrecs := callRecords_iff_of hok hmtu (callRecords_laid hmtu hlay) g
  have henc : AllSent Sent.Encoded st (mld2SendReport h st i none) :=
    mld2SendReport_encodes (by omega) hlay
  obtain ⟨new, hnew, hsender, hall⟩ := mld2SendReport_sent h st i none
  have henc := henc.forall
  rw [newSent_of_append hnew] at henc
  rw [Answered, newSent_of_append hnew]
  constructor
  · rintro ⟨x, hx, -, hannounce⟩
    obtain ⟨⟨recs, hr, hs⟩, -⟩ := hall x hx
    obtain ⟨r, hr', hg, -⟩ := ((henc x hx recs hs).announced_iff g).mp hannounce
    exact (hrecs.mp ⟨r, List.mem_flatten_of_mem hr hr', hg⟩).2
  · intro hw
    obtain ⟨r, hr, hg⟩ := hrecs.mpr ⟨Or.inl rfl, hw⟩
    obtain ⟨recs, hrecs, hr⟩ := List.mem_flatten.mp hr
    have hmem : Sender.mld2SendReport recs ∈ new.map Sent.sender := by
      rw [hsender (by simp only [sizeofReport]; omega)]
      exact List.mem_map_of_mem hrecs
    obtain ⟨x, hx, hs⟩ := List.mem_map.mp hmem
    have hasks := (callRecords_wanted h hok i none recs hrecs r hr).2
    exact ⟨x, hx, (hall x hx).2.2, ((henc x hx recs hs).announced_iff g).mpr ⟨r, hr, hg, hasks⟩⟩

/-- The answer in version 2. -/
theorem reported_mld2 (hok : TableOk ValidSubscr groups) (ha : Asked st i groups ifindex 2)
    (now : Nat) {plen : Nat} (hplen : plen ≠ 24)
    (hlay : CallLaysOut h (intSetMldVersion now st i (queryVersion plen)) i none) (g : In6Addr) :
    Answered st (l4Ipv6Icmpv6MldQuery h now st i plen) ifindex g ↔
      ∃ a, WantedElsewhere groups ifindex g a := by
  obtain ⟨ha', hsent⟩ := intSetMldVersion_asked ha now hplen
  rw [mldQuery_eq]
  generalize intSetMldVersion now st i (queryVersion plen) = st' at hlay ha' hsent
  obtain rfl := ha'.groups
  obtain rfl := ha'.ifindex
  rw [queryAnswer_mld2 ha', ← mld2Answer_announces hok ha'.mtu hlay g, Answered, Answered, newSent,
    newSent, hsent]

end Answers

/-- **When the two answers agree**: only when the interface has a group-interface in exactly the
groups that are wanted elsewhere, and then if the MLDv2 answer writes where it should. -/
theorem answers_agree_iff {h : Host} {st : Conf} (hr : Reachable h st) {st1 st2 : Conf}
    {i j ifindex : Nat} (h1 : Asked st1 i st.groups ifindex 1)
    (h2 : Asked st2 j st.groups ifindex 2) (now1 now2 : Nat) {plen : Nat} (hplen : plen ≠ 24) :
    (AnswersAgree st.groups ifindex st1 (l4Ipv6Icmpv6MldQuery h now1 st1 i 24) st2
        (l4Ipv6Icmpv6MldQuery h now2 st2 j plen) → OwnGroupsWanted st.groups ifindex) ∧
    (CallLaysOut h (intSetMldVersion now2 st2 j (queryVersion plen)) j none →
      OwnGroupsWanted st.groups ifindex →
      AnswersAgree st.groups ifindex st1 (l4Ipv6Icmpv6MldQuery h now1 st1 i 24) st2
        (l4Ipv6Icmpv6MldQuery h now2 st2 j plen)) := by
  have hok := reachable_tableOk hr
  constructor
  · intro hagree g
    rw [← reported_mld1 (h := h) hok h1 now1 g, hagree.same g]
    exact hagree.wanted g
  · intro hlay hown
    have hwanted := reported_mld2 hok h2 now2 hplen hlay
    refine ⟨fun g => ?_, hwanted⟩
    rw [reported_mld1 hok h1 now1 g, hwanted g]
    exact hown g

/-- An MLDv2 report with which a host joins `ff05::1`. -/
def mld2JoinMessage : List UInt8 := mld2ReportMessage [.plain 2 siteGroup none]

/-- Hosts on the first `n` links have joined, with this message. -/
def stateJoined (message : List UInt8) (n : Nat) : Conf :=
  run (quietHost .little) (boot (quietHost .little) plainOptions 0 none)
    ((List.range n).map fun k => .frame 1 (mldFrame (k + 1) message))

theorem stateJoined_asked (n : Nat) (hn : n = 1 ∨ n = 2) :
    Asked (stateJoined mld1JoinMessage n) 1 (stateJoined mld1JoinMessage n).groups 1 1 ∧
    Asked (stateJoined mld2JoinMessage n) 1 (stateJoined mld1JoinMessage n).groups 1 2 := by
  rcases hn with rfl | rfl
  · exact ⟨⟨by decide +kernel, by decide +kernel, rfl, by decide +kernel, by decide +kernel,
      by decide +kernel, by decide +kernel⟩, by decide +kernel, by decide +kernel,
      by decide +kernel, by decide +kernel, by decide +kernel, by decide +kernel,
      by decide +kernel⟩
  · exact ⟨⟨by decide +kernel, by decide +kernel, rfl, by decide +kernel, by decide +kernel,
      by decide +kernel, by decide +kernel⟩, by decide +kernel, by decide +kernel,
      by decide +kernel, by decide +kernel, by decide +kernel, by decide +kernel,
      by decide +kernel⟩

/-- Listeners on the first two links: both answers report the group. -/
theorem two_listeners_answered : AnswersAgree (stateJoined mld1JoinMessage 2).groups 1
    (stateJoined mld1JoinMessage 2)
    (l4Ipv6Icmpv6MldQuery (quietHost .little) 2 (stateJoined mld1JoinMessage 2) 1 24)
    (stateJoined mld2JoinMessage 2)
    (l4Ipv6Icmpv6MldQuery (quietHost .little) 2 (stateJoined mld2JoinMessage 2) 1 28) := by
  have hasked := stateJoined_asked 2 (Or.inr rfl)
  have hreach : Reachable (quietHost .little) (stateJoined mld1JoinMessage 2) :=
    ⟨plainOptions, 0, none, _, rfl⟩
  refine (answers_agree_iff hreach hasked.1 hasked.2 2 2 (by decide)).2 (by decide +kernel)
    fun g => ?_
  have hgroups : (stateJoined mld1JoinMessage 2).groups = ⟨[⟨siteGroup,
      ⟨[⟨1, ⟨[⟨In6Addr.any, 1, 1⟩], 1⟩⟩, ⟨2, ⟨[⟨In6Addr.any, 1, 1⟩], 1⟩⟩], 2⟩, 1, 0, 0⟩], 1⟩ := by
    decide +kernel
  rw [hgroups]
  by_cases hg : siteGroup = g
  · subst hg
    exact iff_of_true ⟨_, List.mem_singleton_self _, rfl, _, List.mem_cons_self, rfl⟩
      ⟨In6Addr.any, 2, by decide, ⟨In6Addr.any, 1, 1⟩, by decide, rfl, rfl⟩
  · refine iff_of_false ?_ ?_
    · rintro ⟨groupn, hmem, hc, -⟩
      rw [List.mem_singleton.mp hmem] at hc
      exact hg hc
    · rintro ⟨a, j, -, s, hs, -⟩
      simp [subscriptionsOf, groupintFind, groupFind, KeyedList.find, hg] at hs

/-- A listener on the link of the query only: the MLDv1 answer reports the group, the MLDv2 answer
does not. -/
theorem own_listener_answered : Reachable (quietHost .little) (stateJoined mld1JoinMessage 1) ∧
    Asked (stateJoined mld1JoinMessage 1) 1 (stateJoined mld1JoinMessage 1).groups 1 1 ∧
    Asked (stateJoined mld2JoinMessage 1) 1 (stateJoined mld1JoinMessage 1).groups 1 2 ∧
    ¬ AnswersAgree (stateJoined mld1JoinMessage 1).groups 1 (stateJoined mld1JoinMessage 1)
      (l4Ipv6Icmpv6MldQuery (quietHost .little) 2 (stateJoined mld1JoinMessage 1) 1 24)
      (stateJoined mld2JoinMessage 1)
      (l4Ipv6Icmpv6MldQuery (quietHost .little) 2 (stateJoined mld2JoinMessage 1) 1 28) := by
  refine ⟨⟨plainOptions, 0, none, _, rfl⟩, (stateJoined_asked 1 (Or.inl rfl)).1,
    (stateJoined_asked 1 (Or.inl rfl)).2, ?_⟩
  intro hagree
  have hone : ∃ x ∈ newSent (stateJoined mld1JoinMessage 1)
      (l4Ipv6Icmpv6MldQuery (quietHost .little) 2 (stateJoined mld1JoinMessage 1) 1 24),
      x.ifindex = 1 ∧ decodeMld1Report x.packet = some siteGroup := by decide +kernel
  have hnone : newSent (stateJoined mld2JoinMessage 1)
      (l4Ipv6Icmpv6MldQuery (quietHost .little) 2 (stateJoined mld2JoinMessage 1) 1 28) = [] := by
    decide +kernel
  obtain ⟨x, hx, hidx, hd⟩ := hone
  obtain ⟨y, hy, -⟩ := (hagree.same siteGroup).mp ⟨x, hx, hidx, Or.inl hd⟩
  rw [hnone] at hy
  cases hy

end Ecmh
