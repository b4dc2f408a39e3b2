/-
# Announcements without a listener

An announcement on an interface is backed if some other interface wants the group.  What
`mld2_send_report` means to say is backed whenever it is sent.  An MLDv1 report is sent for every
group that `groupint_get` calls new and for every group in which the interface of a query is found,
so that leaving a group, or asking for it, can announce it.

Who gets a packet reads the announcements off its bytes.  They are what was meant (`MeantBacked`)
where all MLDv2 reports are written as they should be (`EventLaysOut`).
-/
import Ecmh.Unchanged
import Ecmh.Dropped
import Ecmh.OnWire

namespace Ecmh

open ByteMem

/-! ## 1. Backed packets -/

/-- For everything that the packet announces there is a listener on another link. -/
def Sent.Backed (x : Sent) : Prop :=
  ∀ g, Announced x.packet g → ∃ a, WantedElsewhere x.groups x.ifindex g a

/-- The same for what it was meant to announce. -/
def Sent.MeantBacked (x : Sent) : Prop :=
  ∀ g, x.Announces g → ∃ a, WantedElsewhere x.groups x.ifindex g a

/-- No join was invented so far. -/
def NoneInvented (st : Conf) : Prop := ∀ x ∈ st.sent, x.Backed

/-- Where what was meant is on the wire, the two are one. -/
theorem Sent.backed_iff_meant {x : Sent} (hon : x.OnWire) (henc : x.Encoded) :
    x.Backed ↔ x.MeantBacked :=
  forall_congr' fun g => by rw [Sent.announced_iff hon henc]

/-- A packet that is no report announces nothing. -/
theorem Sent.backed_of_quiet {x : Sent} (h1 : ∀ mca, x.sender ≠ .mld1SendReport mca)
    (h2 : ∀ recs, x.sender ≠ .mld2SendReport recs) : x.MeantBacked := by
  rintro g (hs | ⟨recs, hs, -⟩)
  · exact absurd hs (h1 g)
  · exact absurd hs (h2 recs)

/-- An MLDv1 report announces one group. -/
theorem Sent.backed_mld1 {x : Sent} {mca : In6Addr} (hs : x.sender = .mld1SendReport mca) :
    x.MeantBacked ↔ ∃ a, WantedElsewhere x.groups x.ifindex mca a := by
  constructor
  · intro hb
    exact hb mca ((Sent.announces_mld1 hs).mpr rfl)
  · intro hw g hg
    rw [(Sent.announces_mld1 hs).mp hg]
    exact hw

/-- An MLDv2 report is backed if each of its records is. -/
theorem Sent.backed_mld2 {x : Sent} {recs : List Grec} (hs : x.sender = .mld2SendReport recs)
    (hr : ∀ r ∈ recs, ∃ a, WantedElsewhere x.groups x.ifindex r.grecMca a) : x.MeantBacked := by
  intro g hg
  obtain ⟨r, hmem, rfl, -⟩ := (Sent.announces_mld2 hs).mp hg
  exact hr r hmem

section Reports

variable {h : Host} {st : Conf} {i : Nat} {mca : In6Addr}

/-- Of the reports for a group, the MLDv1 report is the one to be backed. -/
theorem ReportFor.backed {x : Sent} (hx : ReportFor st i mca x)
    (hw : mld1Reports st i = true → ∃ a, WantedElsewhere st.groups (st.intn i).ifindex mca a) :
    x.MeantBacked := by
  rcases hx.sender with ⟨hs, hv⟩ | ⟨recs, hs, -, hrecs⟩
  · rw [Sent.backed_mld1 hs, hx.groups, hx.ifindex]
    exact hw hv
  · refine Sent.backed_mld2 hs fun r hr => ?_
    obtain ⟨rfl, -, hwanted⟩ := hrecs r hr
    rw [hx.groups, hx.ifindex]
    exact hwanted

/-- The aggregated report is always backed. -/
theorem mld2SendReport_backed (hok : TableOk ValidSubscr st.groups) (asked : Option In6Addr) :
    AllSent Sent.MeantBacked st (mld2SendReport h st i asked) := by
  obtain ⟨new, hnew, -, hall⟩ := mld2SendReport_sent h st i asked
  refine ⟨new, hnew, ?_⟩
  intro x hx
  obtain ⟨⟨recs, hrecs, hs⟩, hgroups, hidx⟩ := hall x hx
  refine Sent.backed_mld2 hs fun r hr => ?_
  rw [hgroups, hidx]
  exact (callRecords_wanted h hok i asked recs hrecs r hr).1.2

/-- A packet that is not backed and that is sent on the way. -/
theorem SomeSent.wanted {b : Conf} {groups : Groups} {ifindex : Nat}
    (hsome : SomeSent (fun x => x.sender = .mld1SendReport mca ∧ x.ifindex = ifindex ∧
      x.groups = groups) st b) (hall : AllSent Sent.MeantBacked st b) :
    ∃ a, WantedElsewhere groups ifindex mca a := by
  obtain ⟨x, -, ⟨hs, rfl, rfl⟩, hb⟩ := (hsome.and hall).exists
  exact (Sent.backed_mld1 hs).mp hb

/-- **When `mld_send_report_all` invents nothing**: when everywhere an MLDv1 report is sent somebody
else wants the group. -/
theorem mldSendReportAll_backed_iff (hok : TableOk ValidSubscr st.groups) :
    AllSent Sent.MeantBacked st (mldSendReportAll h st i mca) ↔
      ∀ j, passedOn st i j → mld1Reports st j = true →
        ∃ a, WantedElsewhere st.groups (st.intn j).ifindex mca a := by
  constructor
  · intro hall j hp hv
    have hslot : j < st.maxinterfaces := by
      by_contra hge
      refine hp.1 ?_
      rw [intn_of_ge (Nat.le_of_not_lt hge)]
      rfl
    obtain ⟨s, hs, hbefore, hafter⟩ := mldSendReportAll_each h hok hslot hp mca
    have hv' : mld1Reports s j = true := (mld1Reports_of_sendsOnly hs.sends j).trans hv
    have hone := mldSendReport_mld1 h hv' mca
    rw [hs.sends.ifindex, hs.sends.groups] at hone
    exact ((SomeSent.after hbefore hone).then hafter).wanted hall
  · intro hw
    refine (mldSendReportAll_for h hok i mca).mono ?_
    rintro x ⟨j, hp, hx⟩
    exact hx.backed (hw j hp)

end Reports

/-! ## 2. Who wants a group after a record -/

section Joins

variable {now ifindex : Nat} {groups : Groups} {j : Join}

/-- A group is wanted elsewhere exactly if the map has an INCLUDE for it on another interface. -/
theorem wantedElsewhere_iff {P : SubscrNode → Prop} (hok : TableOk P groups) {J : Nat}
    {g a : In6Addr} : WantedElsewhere groups J g a ↔
      ∃ k ≠ J, ∃ s, membershipOf groups g k a = some s ∧ s.mode = mld2ModeIsInclude := by
  constructor
  · rintro ⟨k, hk, s, hs, hm, ha⟩
    exact ⟨k, hk, s, (membershipOf_eq_some hok).mpr ⟨hs, ha⟩, hm⟩
  · rintro ⟨k, hk, s, hs, hm⟩
    obtain ⟨hs, ha⟩ := (membershipOf_eq_some hok).mp hs
    exact ⟨k, hk, s, hs, hm, ha⟩

/-- What a report for one group leaves in the entries of the interface. -/
theorem membershipOf_join_written {g src : In6Addr} {mode : Nat}
    (hlast : Writes.last j.cells (g, src) = some mode) :
    membershipOf (joinTable now ifindex groups j) g ifindex src = some ⟨src, mode, now⟩ := by
  rw [membershipOf_joinTable, join_eq_run, run_set_apply, hlast]

/-- A cell that the join does not write stays. -/
theorem membershipOf_join_kept {g src : In6Addr} (hlast : Writes.last j.cells (g, src) = none) :
    membershipOf (joinTable now ifindex groups j) g ifindex src
      = membershipOf groups g ifindex src := by
  rw [membershipOf_joinTable, join_eq_run, run_set_apply, hlast]

/-- The other interfaces keep theirs. -/
theorem membershipOf_join_other {k : Nat} (hk : k ≠ ifindex) (g src : In6Addr) :
    membershipOf (joinTable now ifindex groups j) g k src = membershipOf groups g k src := by
  rw [membershipOf_joinTable, join_eq_run, run_set_other hk]

/-- **Who wants the group after a report for it**: the interface that it came from, if it wrote an
`INCLUDE`, and whoever wanted it before and was not written over. -/
theorem wanted_joinTable_iff (hok : TableOk ValidSubscr groups)
    (hok' : TableOk ValidSubscr (joinTable now ifindex groups j)) {J : Nat} (hJ : J ≠ ifindex) :
    (∃ a, WantedElsewhere (joinTable now ifindex groups j) J j.mca a) ↔
      (∃ a, Writes.last j.cells (j.mca, a) = some mld2ModeIsInclude) ∨
      ∃ k ≠ J, ∃ s ∈ subscriptionsOf groups j.mca k, s.mode = mld2ModeIsInclude ∧
        ¬ (k = ifindex ∧ (Writes.last j.cells (j.mca, s.ipv6)).isSome) := by
  constructor
  · rintro ⟨a, hw⟩
    obtain ⟨k, hk, s, hs, hm⟩ := (wantedElsewhere_iff hok').mp hw
    by_cases hki : k = ifindex
    · subst hki
      cases hlast : Writes.last j.cells (j.mca, a) with
      | some mode =>
        rw [membershipOf_join_written hlast] at hs
        obtain rfl := Option.some.inj hs
        exact Or.inl ⟨a, hlast.trans (congrArg some hm)⟩
      | none =>
        rw [membershipOf_join_kept hlast] at hs
        obtain ⟨hmem, rfl⟩ := (membershipOf_eq_some hok).mp hs
        refine Or.inr ⟨k, hk, s, hmem, hm, fun hc => ?_⟩
        rw [hlast] at hc
        exact absurd hc.2 Bool.false_ne_true
    · rw [membershipOf_join_other hki] at hs
      obtain ⟨hs, -⟩ := (membershipOf_eq_some hok).mp hs
      exact Or.inr ⟨k, hk, s, hs, hm, fun hc => hki hc.1⟩
  · rintro (⟨a, hlast⟩ | ⟨k, hk, s, hs, hm, hkept⟩)
    · exact ⟨a, (wantedElsewhere_iff hok').mpr
        ⟨ifindex, hJ.symm, ⟨a, mld2ModeIsInclude, now⟩, membershipOf_join_written hlast, rfl⟩⟩
    · refine ⟨s.ipv6, (wantedElsewhere_iff hok').mpr ⟨k, hk, s, ?_, hm⟩⟩
      have hbefore := (membershipOf_eq_some hok).mpr ⟨hs, rfl⟩
      by_cases hki : k = ifindex
      · subst hki
        have hnone : Writes.last j.cells (j.mca, s.ipv6) = none := by
          cases hlast : Writes.last j.cells (j.mca, s.ipv6) with
          | none => rfl
          | some mode => exact absurd ⟨rfl, by rw [hlast]; rfl⟩ hkept
        rw [membershipOf_join_kept hnone]
        exact hbefore
      · rw [membershipOf_join_other hki]
        exact hbefore

/-! ### Records -/

/-- The cells of a join are those of its rows that are stored. -/
theorem mem_cells {c : (In6Addr × In6Addr) × Nat} : c ∈ j.cells ↔
    c.1.1 = j.mca ∧ (c.1.2, c.2) ∈ j.rows ∧ ¬ rowIgnored c.1.2 c.2 := by
  obtain ⟨⟨g, src⟩, mode⟩ := c
  simp only [Join.cells, List.mem_map, List.mem_filter, decide_eq_true_eq, Prod.mk.injEq]
  constructor
  · rintro ⟨row, ⟨hrow, hkept⟩, ⟨rfl, rfl⟩, rfl⟩
    exact ⟨rfl, hrow, hkept⟩
  · rintro ⟨rfl, hrow, hkept⟩
    exact ⟨(src, mode), ⟨hrow, hkept⟩, ⟨rfl, rfl⟩, rfl⟩

/-- The mode of a record without sources is one of the two. -/
theorem mld2AnyMode_eq (t : Nat) :
    mld2AnyMode t = mld2ModeIsInclude ∨ mld2AnyMode t = mld2ModeIsExclude := by
  unfold mld2AnyMode
  split
  · exact Or.inl rfl
  · exact Or.inr rfl

/-- So is the one of a record with sources. -/
theorem mld2SrcMode_eq (t : Nat) :
    mld2SrcMode t = mld2ModeIsInclude ∨ mld2SrcMode t = mld2ModeIsExclude := by
  unfold mld2SrcMode
  split
  · exact Or.inr rfl
  · exact Or.inl rfl

/-- A record writes in one mode. -/
theorem grecRows_mode (grecType : Nat) (srcs : List In6Addr) : ∃ mode,
    (mode = mld2ModeIsInclude ∨ mode = mld2ModeIsExclude) ∧
      ∀ row ∈ grecRows grecType srcs, row.2 = mode := by
  cases srcs with
  | nil =>
    refine ⟨mld2AnyMode grecType, mld2AnyMode_eq grecType, ?_⟩
    intro row hrow
    rw [List.mem_singleton.mp hrow]
  | cons src srcs =>
    refine ⟨mld2SrcMode grecType, mld2SrcMode_eq grecType, ?_⟩
    intro row hrow
    obtain ⟨a, -, rfl⟩ := List.mem_map.mp hrow
    rfl

/-- All rows of a record have one mode. -/
theorem GrecSeen.join_rows {r : GrecSeen} (hj : r.join = some j) : j.mca = r.mca ∧ ∃ mode,
    (mode = mld2ModeIsInclude ∨ mode = mld2ModeIsExclude) ∧ ∀ row ∈ j.rows, row.2 = mode := by
  unfold GrecSeen.join at hj
  split at hj
  · cases hj
  · obtain rfl := Option.some.inj hj
    refine ⟨rfl, ?_⟩
    cases r.srcs with
    | none => exact ⟨mld2ModeIsInclude, Or.inl rfl, fun row hrow => by cases hrow⟩
    | some srcs => exact grecRows_mode r.grecType srcs

/-- The record makes its interface one that wants the group. -/
def GrecSeen.Includes (r : GrecSeen) : Prop :=
  ∃ j, r.join = some j ∧ ∃ row ∈ j.rows, row.2 = mld2ModeIsInclude

/-- The record writes over the source, which its interface does not want any more. -/
def GrecSeen.Excludes (r : GrecSeen) (a : In6Addr) : Prop :=
  a ≠ In6Addr.any ∧ ∃ j, r.join = some j ∧ (a, mld2ModeIsExclude) ∈ j.rows

/-- An interface other than `J` wants the group, and will do so after the record from the interface
`ifindex`. -/
def WantedStill (groups : Groups) (ifindex J : Nat) (r : GrecSeen) : Prop :=
  ∃ k ≠ J, ∃ s ∈ subscriptionsOf groups r.mca k, s.mode = mld2ModeIsInclude ∧
    ¬ (k = ifindex ∧ r.Excludes s.ipv6)

/-- So a record includes exactly if a cell that it wrote last does. -/
theorem GrecSeen.includes_iff {r : GrecSeen} (hj : r.join = some j) :
    r.Includes ↔ ∃ a, Writes.last j.cells (j.mca, a) = some mld2ModeIsInclude := by
  obtain ⟨-, mode, -, hmode⟩ := r.join_rows hj
  constructor
  · rintro ⟨j', hj', row, hrow, hinc⟩
    obtain rfl := Option.some.inj (hj'.symm.trans hj)
    have hcell : ((j'.mca, row.1), row.2) ∈ j'.cells := by
      refine mem_cells.mpr ⟨rfl, hrow, fun hc => ?_⟩
      exact absurd (hinc.symm.trans hc.1) (by decide)
    obtain ⟨v, hv⟩ := Option.isSome_iff_exists.mp (Writes.last_isSome hcell)
    have hv' : v = row.2 :=
      (hmode _ (mem_cells.mp (Writes.mem_of_last hv)).2.1).trans (hmode _ hrow).symm
    exact ⟨row.1, hv.trans (congrArg some (hv'.trans hinc))⟩
  · rintro ⟨a, hlast⟩
    exact ⟨j, hj, _, (mem_cells.mp (Writes.mem_of_last hlast)).2.1, rfl⟩

/-- Where the record includes nothing it writes over what it excludes. -/
theorem GrecSeen.excludes_iff {r : GrecSeen} (hj : r.join = some j) (hinc : ¬ r.Includes)
    (a : In6Addr) : r.Excludes a ↔ (Writes.last j.cells (j.mca, a)).isSome := by
  obtain ⟨-, mode, hone, hmode⟩ := r.join_rows hj
  constructor
  · rintro ⟨hany, j', hj', hrow⟩
    obtain rfl := Option.some.inj (hj'.symm.trans hj)
    have hcell : ((j'.mca, a), mld2ModeIsExclude) ∈ j'.cells :=
      mem_cells.mpr ⟨rfl, hrow, fun hc => hany hc.2⟩
    exact Writes.last_isSome hcell
  · intro hsome
    obtain ⟨v, hv⟩ := Option.isSome_iff_exists.mp hsome
    obtain ⟨-, hrow, hkept⟩ := mem_cells.mp (Writes.mem_of_last hv)
    have hv' : v = mld2ModeIsExclude := by
      refine ((hmode _ hrow).trans ?_ : v = _)
      refine hone.resolve_left fun hm => ?_
      exact hinc ⟨j, hj, _, hrow, (hmode _ hrow).trans hm⟩
    subst hv'
    exact ⟨fun hc => hkept ⟨rfl, hc⟩, j, hj, hrow⟩

/-- A record keeps the table well-formed. -/
theorem grecTable_ok {now ifindex : Nat} {groups : Groups} (hok : TableOk ValidSubscr groups)
    (r : GrecSeen) : TableOk ValidSubscr (grecTable now ifindex groups r) := by
  have hmodes := (OpShape.mld2Report ifindex [r]).modesOk
  unfold grecTable
  split
  · exact hok
  · rename_i j hj
    have hjoins : [r].filterMap GrecSeen.join = [j] := by simp [hj]
    rw [hjoins] at hmodes
    exact apply_ok hmodes hok fun _ hv _ => hv

/-- **Who wants the group after a record for it.** -/
theorem wanted_grecTable_iff (hok : TableOk ValidSubscr groups) {J : Nat} (hJ : J ≠ ifindex)
    (r : GrecSeen) : (∃ a, WantedElsewhere (grecTable now ifindex groups r) J r.mca a) ↔
      r.Includes ∨ WantedStill groups ifindex J r := by
  have hok' := @grecTable_ok now ifindex groups hok r
  cases hj : r.join with
  | none =>
    have hinc : ¬ r.Includes := by
      rintro ⟨j, hc, -⟩
      rw [hj] at hc
      cases hc
    have hexc : ∀ a, ¬ r.Excludes a := by
      rintro a ⟨-, j, hc, -⟩
      rw [hj] at hc
      cases hc
    simp only [grecTable, hj, WantedStill, hexc, and_false, not_false_eq_true, and_true, hinc,
      false_or]
    constructor
    · rintro ⟨a, k, hk, s, hs, hm, -⟩
      exact ⟨k, hk, s, hs, hm⟩
    · rintro ⟨k, hk, s, hs, hm⟩
      exact ⟨s.ipv6, k, hk, s, hs, hm, rfl⟩
  | some j =>
    have htable : grecTable now ifindex groups r = joinTable now ifindex groups j := by
      rw [grecTable, hj]
    rw [htable] at hok' ⊢
    obtain ⟨hmca, -⟩ := r.join_rows hj
    rw [WantedStill, ← hmca, wanted_joinTable_iff hok hok' hJ, ← r.includes_iff hj]
    by_cases hinc : r.Includes
    · exact iff_of_true (Or.inl hinc) (Or.inl hinc)
    · simp only [r.excludes_iff hj hinc]

end Joins

/-! ## 3. Messages -/

/-- The record is announced where somebody else wants the group. -/
def RecordBacked (now i : Nat) (s : Conf × Bool) (r : GrecSeen) : Prop :=
  r.srcs.isSome = true → grecIsnew now (s.1.intn i).ifindex s.1.groups s.2 r = true →
    r.Includes ∨ ∀ j, passedOn s.1 i j → mld1Reports s.1 j = true →
      WantedStill s.1.groups (s.1.intn i).ifindex (s.1.intn j).ifindex r

/-- The interface of the query has a group-interface only in groups that are wanted elsewhere. -/
def QueryBacked (st : Conf) (i : Nat) : Prop :=
  answersMld1 st i → ∀ g, HasGrpint st.groups (st.intn i).ifindex g →
    ∃ a, WantedElsewhere st.groups (st.intn i).ifindex g a

/-- The messages for which nothing is announced that nobody wants. -/
def Message.Backed (h : Host) (now : Nat) (st : Conf) (i : Nat) : Message → Prop
  | .mld2Report mld2r plen => Runs.StepsMeet (grecStep h now i) (RecordBacked now i)
      (intSetMldVersion now (countIcmpReceived st i) i 2, false) (mld2Records h.endian mld2r plen)
  | .query plen =>
    QueryBacked (intSetMldVersion now (countIcmpReceived st i) i (queryVersion plen)) i
  | _ => True

section Messages

variable {h : Host} {now : Nat} {st : Conf} {i : Nat}

/-- **A record** announces nothing unbacked exactly if it meets the condition. -/
theorem grecStep_backed_iff {s : Conf × Bool} (hok : TableOk ValidSubscr s.1.groups)
    (r : GrecSeen) :
    AllSent Sent.MeantBacked s.1 (grecStep h now i s r).1 ↔ RecordBacked now i s r := by
  have hok' := @grecTable_ok now (s.1.intn i).ifindex _ hok r
  by_cases hsend : r.srcs.isSome = true ∧
      grecIsnew now (s.1.intn i).ifindex s.1.groups s.2 r = true
  · have hstep : (grecStep h now i s r).1 = mldSendReportAll h
        (s.1.setGroups (grecTable now (s.1.intn i).ifindex s.1.groups r)) i r.mca := if_pos hsend
    have hcongr : AllSent Sent.MeantBacked s.1 (grecStep h now i s r).1 ↔
        AllSent Sent.MeantBacked (s.1.setGroups (grecTable now (s.1.intn i).ifindex s.1.groups r))
          (grecStep h now i s r).1 := ⟨fun ha => ha.congr rfl rfl, fun ha => ha.congr rfl rfl⟩
    have hwanted : ∀ j, passedOn s.1 i j →
        ((∃ a, WantedElsewhere (grecTable now (s.1.intn i).ifindex s.1.groups r)
          (s.1.intn j).ifindex r.mca a) ↔ r.Includes ∨
            WantedStill s.1.groups (s.1.intn i).ifindex (s.1.intn j).ifindex r) := fun j hp =>
      wanted_grecTable_iff hok hp.2.symm r
    rw [hcongr, hstep, mldSendReportAll_backed_iff hok']
    constructor
    · intro hall _ _
      by_cases hinc : r.Includes
      · exact Or.inl hinc
      · exact Or.inr fun j hp hv => ((hwanted j hp).mp (hall j hp hv)).resolve_left hinc
    · intro hb j hp hv
      refine (hwanted j hp).mpr ?_
      exact (hb hsend.1 hsend.2).imp_right fun hstill => hstill j hp hv
  · have hstep : (grecStep h now i s r).1
        = s.1.setGroups (grecTable now (s.1.intn i).ifindex s.1.groups r) := if_neg hsend
    rw [hstep]
    exact iff_of_true (.of_eq rfl) fun h1 h2 => absurd ⟨h1, h2⟩ hsend

/-- An MLDv2 report invents nothing if none of its records does. -/
theorem mld2Report_backed_iff (hok : TableOk ValidSubscr st.groups) (mld2r : Mem) (plen : Nat) :
    AllSent Sent.MeantBacked st (l4Ipv6Icmpv6Mld2Report h now st i mld2r plen).st ↔
      Runs.StepsMeet (grecStep h now i) (RecordBacked now i) (intSetMldVersion now st i 2, false)
        (mld2Records h.endian mld2r plen) := by
  have hok2 : TableOk ValidSubscr (intSetMldVersion now st i 2).groups := by
    rw [intSetMldVersion_groups]
    exact hok
  have hsent : (intSetMldVersion now st i 2).sent = st.sent := intSetMldVersion_sent ..
  have hstep : ∀ (s : Conf × Bool) (r : GrecSeen), TableOk ValidSubscr s.1.groups →
      TableOk ValidSubscr (grecStep h now i s r).1.groups ∧
      AllSent (fun _ => True) s.1 (grecStep h now i s r).1 := by
    intro s r hs
    refine ⟨?_, (grecStep_sendsOnly h now i s r).allSent.congr rfl rfl⟩
    rw [grecStep_groups]
    exact grecTable_ok hs r
  rw [mld2Report_run, ← allSent_run_iff Prod.fst hstep (fun s r hs => grecStep_backed_iff hs r) _
    (intSetMldVersion now st i 2, false) hok2]
  exact ⟨fun ha => ha.congr hsent rfl, fun ha => ha.congr hsent.symm rfl⟩

/-- So does the join of an MLDv1 report. -/
theorem mld1Join_ok {groups : Groups} (hok : TableOk ValidSubscr groups) (ifindex : Nat)
    (mca : In6Addr) : TableOk ValidSubscr (joinTable now ifindex groups (mld1Join mca)) := by
  refine joinTable_ok hok fun row hrow _ => ?_
  rw [List.mem_singleton.mp hrow]
  exact ⟨Or.inl rfl, fun _ => rfl⟩

/-- An MLDv1 report makes its own interface one that wants the group. -/
theorem mld1Report_backed (hok : TableOk ValidSubscr st.groups) (mld1 : Mem) :
    AllSent Sent.MeantBacked st (l4Ipv6Icmpv6Mld1Report h now st i mld1) := by
  have hsent : (intSetMldVersion now st i 1).sent = st.sent := intSetMldVersion_sent ..
  have hgroups : (intSetMldVersion now st i 1).groups = st.groups := intSetMldVersion_groups ..
  unfold l4Ipv6Icmpv6Mld1Report
  dsimp only
  generalize intSetMldVersion now st i 1 = st' at hsent hgroups ⊢
  have hok1 : TableOk ValidSubscr st'.groups := hgroups ▸ hok
  have hok2 : TableOk ValidSubscr
      (joinTable now (st'.intn i).ifindex st'.groups (mld1Join (mld1Mca mld1))) :=
    mld1Join_ok hok1 _ _
  split
  · exact .of_eq hsent
  · split
    · have hall : AllSent Sent.MeantBacked (st'.setGroups
          (joinTable now (st'.intn i).ifindex st'.groups (mld1Join (mld1Mca mld1))))
          (mldSendReportAll h (st'.setGroups (joinTable now (st'.intn i).ifindex st'.groups
            (mld1Join (mld1Mca mld1)))) i (mld1Mca mld1)) := by
        refine (mldSendReportAll_backed_iff hok2).mpr fun j hp _ => ?_
        refine (wanted_joinTable_iff hok1 hok2 hp.2.symm).mpr (Or.inl ⟨In6Addr.any, ?_⟩)
        simp [mld1Join, Join.cells, rowIgnored, Writes.last, mld2ModeIsInclude, mld2ModeIsExclude]
      exact hall.congr hsent.symm rfl
    · exact .of_eq hsent

/-- A query announces nothing. -/
theorem AllSent.backed_of_asks {a b : Conf}
    (hasks : AllSent (fun x => x.sender = .mldSendQuery) a b) : AllSent Sent.MeantBacked a b :=
  hasks.mono fun _ hx =>
    Sent.backed_of_quiet (fun _ hc => by simp [hx] at hc) fun _ hc => by simp [hx] at hc

/-- **The answer to a query** is backed exactly if every group that it names is wanted elsewhere. -/
theorem queryAnswer_backed_iff (hok : TableOk ValidSubscr st.groups)
    (hv : answersMld1 st i → mld1Reports st i = true) :
    AllSent Sent.MeantBacked st (queryAnswer h st i) ↔ QueryBacked st i := by
  by_cases ha : answersMld1 st i
  · have hanswer : queryAnswer h st i = mld1Answer h st i := if_pos ha
    rw [hanswer]
    constructor
    · intro hall _ g hg
      exact (mld1Answer_tells (hv ha) hg).wanted hall
    · intro hb
      refine (mld1Answer_for hok).mono ?_
      rintro x ⟨g, hg, hx⟩
      exact hx.backed fun _ => hb ha g hg
  · refine iff_of_true ?_ fun hc => absurd hc ha
    rw [queryAnswer, if_neg ha]
    split
    · exact mld2SendReport_backed hok none
    · exact .refl st

/-- What is forwarded announces nothing. -/
theorem forwarded_backed (iph : Mem) (len : Nat) :
    AllSent Sent.MeantBacked st (l4Ipv6Multicast h st i iph len) := by
  refine (multicast_allSent h st i iph len).mono fun x hx => ?_
  exact Sent.backed_of_quiet (fun _ hc => by simp [hx.1] at hc) fun _ hc => by simp [hx.1] at hc

/-- **When the handling of a message invents nothing.** -/
theorem handle_backed_iff (hok : TableOk ValidSubscr st.groups) (m : Message) (len : Nat) :
    AllSent Sent.MeantBacked st (m.handle h now st i len) ↔ m.Backed h now st i := by
  have hsent : (countIcmpReceived st i).sent = st.sent := rfl
  have hok1 : TableOk ValidSubscr (countIcmpReceived st i).groups := hok
  have hstart : ∀ {st' : Conf}, AllSent Sent.MeantBacked st st' ↔
      AllSent Sent.MeantBacked (countIcmpReceived st i) st' :=
    ⟨fun ha => ha.congr hsent rfl, fun ha => ha.congr hsent.symm rfl⟩
  have hsends := handle_sends h now st i len m
  cases m with
  | dropped => exact iff_of_true (.refl st) trivial
  | ignored => exact iff_of_true (.of_eq hsent) trivial
  | exceeded => exact iff_of_true (.of_eq rfl) trivial
  | data iph => exact iff_of_true (forwarded_backed iph len) trivial
  | echo iph => exact iff_of_true (hstart.mpr (forwarded_backed iph len)) trivial
  | echoExceeded iph off plen =>
    refine iff_of_true (hsends.mono fun x hx => ?_) trivial
    exact Sent.backed_of_quiet (fun _ hc => by simp [hx.1] at hc) fun _ hc => by simp [hx.1] at hc
  | mld1Report mld1 => exact iff_of_true (hstart.mpr (mld1Report_backed hok1 mld1)) trivial
  | mld1Reduction mld1 =>
    exact iff_of_true (hstart.mpr (mld1Reduction_asks h now _ i mld1).backed_of_asks) trivial
  | mld2Report mld2r plen => exact hstart.trans (mld2Report_backed_iff hok1 mld2r plen)
  | query plen =>
    have hset := intSetMldVersion_sent now (countIcmpReceived st i) i (queryVersion plen)
    have hok2 : TableOk ValidSubscr
        (intSetMldVersion now (countIcmpReceived st i) i (queryVersion plen)).groups := by
      rw [intSetMldVersion_groups]
      exact hok1
    have hanswer := queryAnswer_backed_iff (h := h) hok2 mld1Reports_of_answersMld1
    rw [hstart, Message.handle, mldQuery_eq, Message.Backed, ← hanswer]
    exact ⟨fun ha => ha.congr hset rfl, fun ha => ha.congr hset.symm rfl⟩

end Messages

/-! ## 4. Runs -/

/-- The events in which nothing is announced that nobody wants. -/
def EventBacked (h : Host) (st : Conf) : Event → Prop
  | .frame now f => ∀ st1 i, f.Enters now st st1 i →
    (l3Message h.endian (st1.intn i) f.buffer (min f.len bufferlen)).Backed h now
      (countIntReceived st1 i (min f.len bufferlen)) i
  | _ => True

section Events

variable {h : Host} {st : Conf}

/-- Every event adds packets to those sent, and takes none away. -/
theorem step_allSent (ev : Event) : AllSent (fun _ => True) st (step h st ev) := by
  cases ev with
  | frame now f => exact (frame_sends h now st f).mono fun _ _ => trivial
  | timeout now ifap =>
    have hsent := (updateInterfaces_interfacesOnly now st none ifap).sent
    exact (AllSent.of_eq (P := fun _ => True) hsent).trans (sendMldQuerys_sendsOnly h _).allSent
  | sigusr2 now => exact (sigusr2_sendsOnly h st).allSent
  | create now ifindex probe =>
    simp only [step]
    split
    · exact .refl st
    · exact .of_eq (intCreate_interfacesOnly st ifindex probe).sent
  | destroy now i => exact .of_eq (setInt_interfacesOnly st i _).sent

/-- **When an event means to invent nothing.** -/
theorem step_meantBacked_iff (hok : TableOk ValidSubscr st.groups) (ev : Event) :
    AllSent Sent.MeantBacked st (step h st ev) ↔ EventBacked h st ev := by
  cases ev with
  | frame now f =>
    rcases frame_cases h now st f with ⟨st1, i, hin, he⟩ | ⟨hout, hsent, -⟩
    · have hsent : (countIntReceived st1 i (min f.len bufferlen)).sent = st.sent := hin.sent
      have hok1 : TableOk ValidSubscr (countIntReceived st1 i (min f.len bufferlen)).groups := by
        have hgroups : (countIntReceived st1 i (min f.len bufferlen)).groups = st.groups :=
          hin.groups
        rw [hgroups]
        exact hok
      have hone := @handle_backed_iff h now _ i hok1
        (l3Message h.endian (st1.intn i) f.buffer (min f.len bufferlen)) (min f.len bufferlen)
      simp only [step, he, EventBacked]
      constructor
      · intro hall st2 j hin2
        obtain ⟨rfl, rfl⟩ := hin.unique hin2
        exact hone.mp (hall.congr hsent rfl)
      · intro hb
        exact (hone.mpr (hb st1 i hin)).congr hsent.symm rfl
    · exact iff_of_true (.of_eq hsent) fun st1 i hin => absurd hin (hout st1 i)
  | timeout now ifap =>
    have hsent := (updateInterfaces_interfacesOnly now st none ifap).sent
    exact iff_of_true ((AllSent.of_eq hsent).trans (sendMldQuerys_asks h _).backed_of_asks) trivial
  | sigusr2 now =>
    refine iff_of_true ?_ trivial
    simp only [step, sigusr2]
    split
    · exact .refl st
    · split
      · exact .refl st
      · exact mld2SendReport_backed hok none
  | create now ifindex probe =>
    refine iff_of_true ?_ trivial
    simp only [step]
    split
    · exact .refl st
    · exact .of_eq (intCreate_interfacesOnly st ifindex probe).sent
  | destroy now i => exact iff_of_true (.of_eq (setInt_interfacesOnly st i _).sent) trivial

/-- **When an event invents nothing**, if its MLDv2 reports are written as they should be. -/
theorem step_backed_iff (hok : TableOk ValidSubscr st.groups) (hints : IntsOk st) {ev : Event}
    (hlay : EventLaysOut h st ev) :
    AllSent Sent.Backed st (step h st ev) ↔ EventBacked h st ev := by
  have hread : AllSent (fun x => x.OnWire ∧ x.Encoded) st (step h st ev) :=
    (step_onWire ev).and (step_encoded hints hlay)
  rw [← step_meantBacked_iff hok ev]
  constructor
  · intro hall
    exact (hall.and hread).mono fun x hx => (Sent.backed_iff_meant hx.2.1 hx.2.2).mp hx.1
  · intro hall
    exact (hall.and hread).mono fun x hx => (Sent.backed_iff_meant hx.2.1 hx.2.2).mpr hx.1

end Events

/-- Nothing was invented up to a state, and nothing since: the packets that came on are backed. -/
theorem noneInvented_iff {st st' : Conf} (hs : NoneInvented st)
    (hall : AllSent (fun _ => True) st st') : NoneInvented st' ↔ AllSent Sent.Backed st st' := by
  obtain ⟨new, hnew, -⟩ := hall
  constructor
  · intro hs'
    exact ⟨new, hnew, fun x hx => hs' x (by rw [hnew]; exact List.mem_append_right _ hx)⟩
  · rintro ⟨new', hnew', hb⟩ x hx
    rw [hnew'] at hx
    exact (List.mem_append.mp hx).elim (hs x) (hb x)

/-- At the start only queries are sent. -/
theorem boot_noneInvented (h : Host) (o : Options) (now : Nat) (ifap : Option (List IfAddr)) :
    NoneInvented (boot h o now ifap) := by
  have hsent := (updateInterfaces_interfacesOnly now (init o) none ifap).sent
  obtain ⟨new, hnew, hall⟩ :=
    (@sendMldQuerys_onWire h (updateInterfaces now (init o) none ifap)).and
    (sendMldQuerys_asks h (updateInterfaces now (init o) none ifap))
  intro x hx g hg
  rw [boot, hnew, hsent] at hx
  obtain ⟨hon, hs⟩ := hall x hx
  unfold Sent.OnWire at hon
  rw [hs] at hon
  exact absurd hg (hon g)

/-- **No join is invented** in exactly the runs whose events are backed, among those in which the
MLDv2 reports are written as they should be. -/
theorem none_invented_iff (h : Host) (o : Options) (now : Nat) (ifap : Option (List IfAddr))
    (es : List Event) (hlay : Runs.StepsMeet (step h) (EventLaysOut h) (boot h o now ifap) es) :
    Runs.Always (step h) NoneInvented (boot h o now ifap) es ↔
      Runs.StepsMeet (step h) (EventBacked h) (boot h o now ifap) es := by
  refine Runs.always_iff_stepsMeet_of
    (I := fun st => (TableOk ValidSubscr st.groups ∧ IntsOk st) ∧ NoneInvented st)
    (fun st ev hst hev hq => ?_) (fun st ev hst hev => ?_) es _ ?_
    (boot_noneInvented h o now ifap) hlay
  · refine ⟨⟨step_tableOk ev hst.1.1 fun _ hv _ => hv, step_intsOk h hst.1.2 ev⟩, ?_⟩
    exact (noneInvented_iff hst.2 (step_allSent ev)).mpr
      ((step_backed_iff hst.1.1 hst.1.2 hev).mpr hq)
  · rw [noneInvented_iff hst.2 (step_allSent ev), step_backed_iff hst.1.1 hst.1.2 hev]
  · refine ⟨⟨?_, boot_intsOk h o now ifap⟩, boot_noneInvented h o now ifap⟩
    rw [boot_groups]
    exact tableOk_new

/-- Two interfaces, and a host on the second that joins `ff05::1` or does not. -/
def stateTwo (joined : Bool) : Conf :=
  run (quietHost .little) (boot (quietHost .little) plainOptions 0 none)
    ([.create 0 1 ethernetProbe, .create 0 2 ⟨true, some "eth1", some 1500, some 1⟩] ++
      if joined then [.frame 1 (mldFrame 2 mld1JoinMessage)] else [])

/-- A host on the first link joins in an MLDv1 report. -/
def firstJoins : Frame := mldFrame 1 mld1JoinMessage

theorem stateTwo_enters (joined : Bool) : firstJoins.Enters 2 (stateTwo joined)
    (countReceived (stateTwo joined) (min firstJoins.len bufferlen)) 1 := by
  have hfind : intFind (countReceived (stateTwo joined) (min firstJoins.len bufferlen)) 1
      = some 1 := by
    cases joined <;> decide +kernel
  refine ⟨by decide, rfl, ?_, rfl⟩
  have hidx : firstJoins.ifindex = 1 := rfl
  rw [frameInterface, hidx, hfind]

theorem stateTwo_message (joined : Bool) : l3Message .little
    ((countReceived (stateTwo joined) (min firstJoins.len bufferlen)).intn 1) firstJoins.buffer
      (min firstJoins.len bufferlen)
      = .mld1Report ((icmpv6Rechecksum .little firstJoins.buffer 40 24).shift 40) := by
  have hwalk : headerWalk .little firstJoins.buffer (min firstJoins.len bufferlen)
      = some (ipprotoIcmpv6, 40, 24) := by decide +kernel
  rw [l3Message]
  dsimp only
  rw [if_neg (by decide +kernel), if_neg (by cases joined <;> decide +kernel), hwalk]
  dsimp only
  rw [if_pos rfl, icmpv6Message]
  dsimp only
  rw [if_neg (by decide +kernel), if_neg (by decide +kernel), if_neg (by decide +kernel),
    if_pos (by decide +kernel)]

/-- The events in which a host on the first of two links joins. -/
def joinEvents : List Event :=
  [.create 0 1 ethernetProbe, .create 0 2 ⟨true, some "eth1", some 1500, some 1⟩,
    .frame 2 firstJoins]

/-- Its last event is the only one that leads to reports. -/
theorem joinEvents_meet {Q : Conf → Event → Prop}
    (hcreate : ∀ st now ifindex probe, Q st (.create now ifindex probe))
    (hframe : Q (stateTwo false) (.frame 2 firstJoins)) :
    Runs.StepsMeet (step (quietHost .little)) Q (boot (quietHost .little) plainOptions 0 none)
      joinEvents := by
  have hstate : stateTwo false = run (quietHost .little)
      (boot (quietHost .little) plainOptions 0 none)
      [.create 0 1 ethernetProbe, .create 0 2 ⟨true, some "eth1", some 1500, some 1⟩] := by
    rw [stateTwo, if_neg Bool.false_ne_true, List.append_nil]
  rw [hstate, run, Runs.run_cons, Runs.run_cons, Runs.run_nil] at hframe
  rw [joinEvents, Runs.stepsMeet_cons, Runs.stepsMeet_cons, Runs.stepsMeet_cons]
  exact ⟨hcreate _ _ _ _, hcreate _ _ _ _, hframe, Runs.stepsMeet_nil _ _⟩

/-- A join is announced in both versions on the second interface, and is no invention. -/
theorem first_join_backed : Runs.Always (step (quietHost .little)) NoneInvented
    (boot (quietHost .little) plainOptions 0 none) joinEvents := by
  refine (none_invented_iff _ plainOptions 0 none joinEvents ?_).mpr ?_
  · refine joinEvents_meet (fun _ _ _ _ => trivial) fun st1 i hin => ?_
    obtain ⟨rfl, rfl⟩ := (stateTwo_enters false).unique hin
    change Message.Calls _ _ _ _ _ (l3Message .little _ _ _)
    rw [stateTwo_message]
    intro _ _
    decide +kernel
  · refine joinEvents_meet (fun _ _ _ _ => trivial) fun st1 i hin => ?_
    obtain ⟨rfl, rfl⟩ := (stateTwo_enters false).unique hin
    change Message.Backed _ _ _ _ (l3Message .little _ _ _)
    rw [stateTwo_message]
    trivial

/-- Two interfaces, and a host on the first that leaves `ff05::1` in which nobody ever was. -/
def leaveEvents : List Event :=
  [.create 0 1 ethernetProbe, .create 0 2 ⟨true, some "eth1", some 1500, some 1⟩,
    .frame 1 (mldFrame 1 (mld2ReportMessage [.plain 3 siteGroup none]))]

/-- The leave is announced on the second interface as a join. -/
theorem leave_announced : ¬ Runs.Always (step (quietHost .little)) NoneInvented
    (boot (quietHost .little) plainOptions 0 none) leaveEvents := by
  intro hall
  have hsent : ∃ x ∈ (run (quietHost .little) (boot (quietHost .little) plainOptions 0 none)
      leaveEvents).sent, decodeMld1Report x.packet = some siteGroup ∧
      x.groups = ⟨[⟨siteGroup, ⟨[⟨1, listNew⟩], 1⟩, 1, 0, 0⟩], 1⟩ := by decide +kernel
  obtain ⟨x, hx, hd, hgroups⟩ := hsent
  obtain ⟨a, k, -, s, hs, -⟩ := hall.last x hx siteGroup (Or.inl hd)
  rw [hgroups] at hs
  by_cases hk : 1 = k
  · subst hk
    simp [subscriptionsOf, groupintFind, groupFind, grpintFind, KeyedList.find, listNew] at hs
  · simp [subscriptionsOf, groupintFind, groupFind, grpintFind, KeyedList.find, hk] at hs

end Ecmh
