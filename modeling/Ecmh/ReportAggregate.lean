/-
# What a call of `mld2_send_report` tells

The loop, seen through its records and the pointer `src`, does at every subscription what
`Gather.look` says (`subscr_gathers`), so the records of a group are what `gather` makes of what
the loop saw.  From there on it is a matter of lists: the groups of the table have different
addresses, and `callTells_iff` carries the exact condition for one group over all of them.
`report_states_interest_iff` is the statement about the packets.
-/
import Ecmh.ReportEncoded
import Ecmh.ReportGather
import Ecmh.Membership
import Ecmh.IntTable

namespace Ecmh

open ByteMem

/-! ## 1. The loop gathers -/

namespace ReportLoop

/-- All records of the call so far. -/
def records (s : ReportLoop) : List Grec := s.out.flatten ++ s.cur

/-- The loop without its buffer. -/
def gather (s : ReportLoop) : Gather := ⟨s.records, s.src.isSome⟩

end ReportLoop

/-- What the body sees at a subscription. -/
def lookAt (h : Host) (i : Nat) (s : ReportLoop) (ipv6 : In6Addr) : Look :=
  ⟨ipv6, scanHits h.endian s ipv6, reportFull h.endian i s ipv6⟩

/-- What the loop sees at the subscriptions of a group. -/
def looks (h : Host) (i : Nat) (mca : In6Addr) : ReportLoop → List In6Addr → List Look
  | _, [] => []
  | s, ipv6 :: next => lookAt h i s ipv6 :: looks h i mca (reportSubscr h i mca s ipv6) next

theorem looks_ipv6 (h : Host) (i : Nat) (mca : In6Addr) : ∀ (s : ReportLoop) (l : List In6Addr),
    (looks h i mca s l).map Look.ipv6 = l
  | _, [] => rfl
  | s, ipv6 :: next => by
    rw [looks, List.map_cons, looks_ipv6 h i mca _ next]
    rfl

/-- The pointers of the loop, on an interface whose MTU is large enough for a record. -/
structure Ready (h : Host) (i : Nat) (s : ReportLoop) : Prop where
  returned : s.returned = false
  pointer : s.src.isSome → s.grec.isSome
  opened : s.grec.isSome → s.cur ≠ []
  first : s.grec = none → ∀ ipv6, reportFull h.endian i s ipv6 = false

theorem reportInit_ready (h : Host) (st : Conf) (i : Nat) (hmtu : 1280 ≤ (st.intn i).mtu) :
    Ready h i (reportInit h st i) := by
  refine ⟨rfl, fun hc => (by cases hc), fun hc => (by cases hc), fun _ ipv6 => ?_⟩
  simp only [reportFull, decide_eq_false_iff_not]
  show ¬ (56 + 40 + 20 + _ > (st.intn i).mtu)
  split <;> omega

theorem Ready.group {h : Host} {i : Nat} {s : ReportLoop} (hs : Ready h i s) :
    Ready h i { s with src := none } :=
  ⟨hs.returned, fun hc => (by cases hc), hs.opened, hs.first⟩

section Open

variable {h : Host} {i : Nat} {s : ReportLoop}

theorem Ready.gather_ok (hs : Ready h i s) : s.gather.Ok := fun hsrc =>
  List.append_ne_nil_of_right_ne_nil _ (hs.opened (hs.pointer hsrc))

/-- A record under construction is the last one of all. -/
theorem Ready.records_eq (hs : Ready h i s) (hgrec : s.grec.isSome) : ∃ pre r,
    s.records = s.out.flatten ++ pre ++ [r] ∧ s.cur = pre ++ [r] := by
  rcases List.eq_nil_or_concat s.cur with hnil | ⟨pre, r, hr⟩
  · exact absurd hnil (hs.opened hgrec)
  · rw [List.concat_eq_append] at hr
    exact ⟨pre, r, by rw [ReportLoop.records, hr, List.append_assoc], hr⟩

theorem Ready.of_opened {s' : ReportLoop} (hret : s'.returned = false) (hgrec : s'.grec.isSome)
    (hcur : s'.cur ≠ []) : Ready h i s' :=
  ⟨hret, fun _ => hgrec, fun _ => hcur, fun hc => by rw [hc] at hgrec; cases hgrec⟩

/-- A record is started for the group, with its first source. -/
theorem opens_gathers (hret : s.returned = false) (hsrc : s.src = none) (mca ipv6 : In6Addr) :
    (reportAppend h.endian (reportNewGrec h.endian s mca) ipv6).gather = s.gather.opens mca ipv6 ∧
      Ready h i (reportAppend h.endian (reportNewGrec h.endian s mca) ipv6) := by
  obtain ⟨grec, hgrec⟩ : ∃ grec, (reportNewGrec h.endian s mca).grec = some grec := ⟨_, rfl⟩
  have hcur : (reportNewGrec h.endian s mca).cur = s.cur ++ [allRecord mca] := rfl
  have hout : (reportNewGrec h.endian s mca).out = s.out := rfl
  have hsrc' : (reportNewGrec h.endian s mca).src = none := hsrc
  have hret' : (reportNewGrec h.endian s mca).returned = false := hret
  by_cases hany : ipv6 = In6Addr.any
  · rw [reportAppend_any hgrec hany]
    refine ⟨?_, .of_opened hret' (by rw [hgrec]; rfl) (by rw [hcur]; simp)⟩
    simp [ReportLoop.gather, ReportLoop.records, Gather.opens, firstRecord, hany, hcur, hout, hsrc']
  · rw [reportAppend_source hgrec hany]
    have hlast : ReportLoop.setLast (fun r => { r with
          grecType := mld2ModeIsInclude, srcs := r.srcs ++ [ipv6] })
        (reportNewGrec h.endian s mca).cur = s.cur ++ [firstRecord mca ipv6] := by
      rw [hcur, setLast_concat, firstRecord, if_neg hany]
      rfl
    refine ⟨?_, .of_opened hret' (by rfl) (by dsimp only; rw [hlast]; simp)⟩
    simp [ReportLoop.gather, ReportLoop.records, Gather.opens, hany, hlast, hout]

end Open

/-- **One subscription**: the loop does with its records what `Gather.look` says. -/
theorem subscr_gathers {h : Host} {i : Nat} {s : ReportLoop} (hs : Ready h i s)
    (mca ipv6 : In6Addr) :
    (reportSubscr h i mca s ipv6).gather = s.gather.look mca (lookAt h i s ipv6) ∧
      Ready h i (reportSubscr h i mca s ipv6) := by
  have hcases := reportSubscr_step h i mca s ipv6
  generalize reportSubscr h i mca s ipv6 = s' at hcases
  cases hcases with
  | returned hret => exact absurd (hs.returned.symm.trans hret) (by simp)
  | tooSmall _ hgrec hfull => exact absurd ((hs.first hgrec ipv6).symm.trans hfull) (by simp)
  | known _ hret hk =>
    generalize hb : false = b at hk
    cases hk with
    | noSource _ => cases hb
    | fresh _ _ _ _ _ _ => cases hb
    | noGrec hsrc hgrec => exact absurd (hs.pointer hsrc) (by simp [hgrec])
    | collapse grec hsrc hgrec hany =>
      obtain ⟨pre, r, hrecs, hcur⟩ := hs.records_eq (hs.pointer hsrc)
      rw [Gather.look_collapse (x := lookAt h i s ipv6) hsrc hany hrecs]
      refine ⟨?_, .of_opened hret (by show s.grec.isSome; rw [hgrec]; rfl) ?_⟩
      · show (⟨s.out.flatten ++ ReportLoop.setLast _ s.cur, false⟩ : Gather) = _
        rw [hcur, setLast_concat, List.append_assoc]
      · show ReportLoop.setLast _ s.cur ≠ []
        rw [hcur, setLast_concat]
        simp
    | dropped touched hit =>
      have ⟨_, _, hsrc, _, _, hany, _⟩ := hit
      rw [Gather.look_dropped (x := lookAt h i s ipv6) hsrc hany (decide_eq_true hit)]
      exact ⟨rfl, hs.returned, fun hc => (by cases hc), hs.opened, hs.first⟩
  | split src touched grec hret hgo hgrec hfull =>
    have hlook : s.gather.look mca (lookAt h i s ipv6) = s.gather.opens mca ipv6 := by
      rcases hgo with hsrc | ⟨-, hany, hmiss⟩
      · exact Gather.look_opens (by rw [ReportLoop.gather, hsrc]; rfl)
      · cases hsrc : s.gather.source with
        | false => exact Gather.look_opens hsrc
        | true => exact Gather.look_split hsrc hany (decide_eq_false hmiss) hfull
    rw [hlook]
    have hopens := opens_gathers (h := h) (i := i) (s := reportReset h.endian
      (reportSend h i { s with src := src, touched := touched } grec)) hret rfl mca ipv6
    refine ⟨hopens.1.trans ?_, hopens.2⟩
    simp [ReportLoop.gather, ReportLoop.records, Gather.opens, reportReset, reportSend]
  | opens hret hsrc hfull =>
    rw [Gather.look_opens (by rw [ReportLoop.gather, hsrc]; rfl)]
    exact opens_gathers hret hsrc mca ipv6
  | adds src touched grec hret hgo hsrc hgrec hany hfull =>
    have hmiss : ¬ scanHits h.endian s ipv6 := by
      rcases hgo with hnone | ⟨-, -, hmiss⟩
      · rw [hnone] at hsrc
        cases hsrc
      · exact hmiss
    obtain ⟨pre, r, hrecs, hcur⟩ := hs.records_eq (hs.pointer hsrc)
    rw [Gather.look_adds (x := lookAt h i s ipv6) hsrc hany (decide_eq_false hmiss) hfull hrecs,
      reportAppend_source (s := { s with src := some src, touched := touched }) hgrec hany]
    refine ⟨?_, .of_opened hret (by show s.grec.isSome; rw [hgrec]; rfl) ?_⟩
    · show (⟨s.out.flatten ++ ReportLoop.setLast _ s.cur, true⟩ : Gather) = _
      rw [hcur, setLast_concat, List.append_assoc]
      rfl
    · show ReportLoop.setLast _ s.cur ≠ []
      rw [hcur, setLast_concat]
      simp

/-! ## 2. The subscriptions of a group -/

section Subscrs

variable {h : Host} {i : Nat} {mca : In6Addr}

theorem subscrs_gather : ∀ (l : List In6Addr) {s : ReportLoop}, Ready h i s →
    (Runs.run (reportStep h i) s (l.map (.subscr mca))).gather
      = Runs.run (Gather.look mca) s.gather (looks h i mca s l) ∧
    Ready h i (Runs.run (reportStep h i) s (l.map (.subscr mca))) := by
  intro l
  induction l with
  | nil => exact fun hs => ⟨rfl, hs⟩
  | cons ipv6 next ih =>
    intro s hs
    obtain ⟨hlook, hs'⟩ := subscr_gathers hs mca ipv6
    rw [List.map_cons, Runs.run_cons, looks, Runs.run_cons, ← hlook]
    exact ih hs'

/-- The scan does not look before a source was written. -/
theorem looks_known : ∀ (l : List In6Addr) {s : ReportLoop} {g : Gather}, Ready h i s →
    g.source = s.src.isSome → HitsKnown mca g (looks h i mca s l) := by
  intro l
  induction l with
  | nil => exact fun _ _ => Runs.stepsMeet_nil _ _
  | cons ipv6 next ih =>
    intro s g hs hg
    obtain ⟨hlook, hs'⟩ := subscr_gathers hs mca ipv6
    refine Runs.stepsMeet_cons.mpr ⟨fun hhit => ?_, ih hs' ?_⟩
    · obtain ⟨_, _, hsrc, _⟩ := of_decide_eq_true hhit
      exact hg.trans hsrc
    · rw [Gather.look_source (show g.source = s.gather.source from hg), ← hlook]
      rfl

end Subscrs

/-! ## 3. The groups -/

/-- What the loop sees at the subscriptions of a group that it reaches in state `s`. -/
def groupLooks (h : Host) (i : Nat) (s : ReportLoop) (groupn : GroupNode) : List Look :=
  looks h i groupn.mca { s with src := none } (wanted (s.st.intn i).ifindex groupn)

/-- The records of a group that the loop reaches in state `s`. -/
def groupRecords (h : Host) (i : Nat) (mca : Option In6Addr) (s : ReportLoop)
    (groupn : GroupNode) : List Grec :=
  if reportsGroup mca groupn then (gather groupn.mca (groupLooks h i s groupn)).recs else []

section Groups

variable {h : Host} {i : Nat} {mca : Option In6Addr}

theorem reportGroup_records {s : ReportLoop} (hs : Ready h i s) (groupn : GroupNode) :
    (reportGroup h i mca s groupn).records = s.records ++ groupRecords h i mca s groupn ∧
      Ready h i (reportGroup h i mca s groupn) := by
  rw [reportGroup_eq h i mca rfl groupn, groupRecords]
  split
  · obtain ⟨hgather, hready⟩ :=
      @subscrs_gather h i groupn.mca (wanted (s.st.intn i).ifindex groupn) _ hs.group
    have hframe := @Gather.run_frame groupn.mca s.records (groupLooks h i s groupn) _ gather_ok
    rw [List.append_nil] at hframe
    refine ⟨?_, hready⟩
    exact congrArg Gather.recs (hgather.trans hframe)
  · exact ⟨(List.append_nil _).symm, hs⟩

theorem groupRecords_mca (s : ReportLoop) (groupn : GroupNode) :
    ∀ r ∈ groupRecords h i mca s groupn, r.grecMca = groupn.mca ∧ reportsGroup mca groupn := by
  unfold groupRecords
  split
  · rename_i hreports
    exact fun r hr => ⟨gather_mca _ r hr, hreports⟩
  · exact fun r hr => (by cases hr)

/-- The records of a call are records of groups that are reported. -/
theorem groups_records : ∀ (groups : List GroupNode) {s : ReportLoop}, Ready h i s → ∃ new,
    (Runs.run (reportGroup h i mca) s groups).records = s.records ++ new ∧
    ∀ r ∈ new, ∃ groupn ∈ groups, reportsGroup mca groupn ∧ r.grecMca = groupn.mca := by
  intro groups
  induction groups with
  | nil => exact fun _ => ⟨[], (List.append_nil _).symm, fun r hr => (by cases hr)⟩
  | cons groupn next ih =>
    intro s hs
    obtain ⟨hrecs, hs'⟩ := @reportGroup_records h i mca s hs groupn
    obtain ⟨new, hnew, hall⟩ := ih hs'
    refine ⟨groupRecords h i mca s groupn ++ new, ?_, ?_⟩
    · rw [Runs.run_cons, hnew, hrecs, List.append_assoc]
    · simp only [List.forall_mem_append, List.exists_mem_cons_iff]
      refine ⟨fun r hr => Or.inl ?_, fun r hr => Or.inr (hall r hr)⟩
      exact (groupRecords_mca s groupn r hr).symm

/-- The condition on a group that the loop reaches in state `s`. -/
def GroupTells (h : Host) (i : Nat) (mca : Option In6Addr) (s : ReportLoop) (groupn : GroupNode) :
    Prop := reportsGroup mca groupn → Tells (groupLooks h i s groupn)

instance (h : Host) (i : Nat) (mca : Option In6Addr) (s : ReportLoop) (groupn : GroupNode) :
    Decidable (GroupTells h i mca s groupn) := inferInstanceAs (Decidable (_ → _))

/-- The records for a group. -/
def recordsFor (mca : In6Addr) (recs : List Grec) : List Grec :=
  recs.filter (fun r => r.grecMca = mca)

theorem recordsFor_eq_nil {g : In6Addr} {recs : List Grec} (h : ∀ r ∈ recs, r.grecMca ≠ g) :
    recordsFor g recs = [] := by
  simpa [recordsFor, List.filter_eq_nil_iff] using h

theorem recordsFor_eq_self {g : In6Addr} {recs : List Grec} (h : ∀ r ∈ recs, r.grecMca = g) :
    recordsFor g recs = recs := by
  simpa [recordsFor, List.filter_eq_self] using h

theorem recordsFor_append (g : In6Addr) (recs recs' : List Grec) :
    recordsFor g (recs ++ recs') = recordsFor g recs ++ recordsFor g recs' := List.filter_append _ _

theorem groupStated_iff {ifindex : Nat} {s : ReportLoop} (hs : Ready h i s)
    (hidx : (s.st.intn i).ifindex = ifindex) (groupn : GroupNode) :
    GroupTells h i mca s groupn ↔ (reportsGroup mca groupn →
      GroupStated groupn.mca (wanted ifindex groupn) (groupRecords h i mca s groupn)) := by
  refine forall_congr' fun hreports => ?_
  have hknown : HitsKnown groupn.mca ⟨[], false⟩ (groupLooks h i s groupn) :=
    looks_known _ hs.group rfl
  rw [← groupStated_iff_tells hknown, groupRecords, if_pos hreports, groupLooks, looks_ipv6, hidx]

/-- **The groups of a call**: all of them are stated as they are to be exactly if the condition
holds of each of them. -/
theorem groups_stated_iff {ifindex : Nat} : ∀ (groups : List GroupNode) {s : ReportLoop},
    Ready h i s → (s.st.intn i).ifindex = ifindex → KeyedList.Unique GroupNode.mca groups →
    (∀ groupn ∈ groups, recordsFor groupn.mca s.records = []) →
    (Runs.StepsMeet (reportGroup h i mca) (GroupTells h i mca) s groups ↔
      ∀ groupn ∈ groups, reportsGroup mca groupn → GroupStated groupn.mca (wanted ifindex groupn)
        (recordsFor groupn.mca (Runs.run (reportGroup h i mca) s groups).records)) := by
  intro groups
  induction groups with
  | nil => exact fun _ _ _ _ => iff_of_true (Runs.stepsMeet_nil _ _) (by simp)
  | cons groupn next ih =>
    intro s hs hidx hu hnone
    obtain ⟨hrecs, hs'⟩ := @reportGroup_records h i mca s hs groupn
    obtain ⟨new, hnew, hall⟩ := @groups_records h i mca next _ hs'
    obtain ⟨hfresh, hu'⟩ := List.nodup_cons.mp hu
    have hother : ∀ g ∈ next, groupn.mca ≠ g.mca := fun g hg he =>
      hfresh (he ▸ List.mem_map_of_mem hg)
    have hidx' : ((reportGroup h i mca s groupn).st.intn i).ifindex = ifindex :=
      ((reportGroup_sendsOnly h i mca s groupn).ifindex i).trans hidx
    have hnone' : ∀ g ∈ next, recordsFor g.mca (reportGroup h i mca s groupn).records = [] := by
      intro g hg
      rw [hrecs, recordsFor_append, hnone g (List.mem_cons_of_mem _ hg), recordsFor_eq_nil]
      · rfl
      · intro r hr he
        exact hother g hg ((groupRecords_mca s groupn r hr).1.symm.trans he)
    -- the records of this group are the ones that were appended when it was reached
    have hthis : recordsFor groupn.mca (Runs.run (reportGroup h i mca) s (groupn :: next)).records
        = groupRecords h i mca s groupn := by
      rw [Runs.run_cons, hnew, hrecs, recordsFor_append, recordsFor_append,
        hnone groupn List.mem_cons_self,
        recordsFor_eq_self fun r hr => (groupRecords_mca s groupn r hr).1, List.nil_append,
        recordsFor_eq_nil, List.append_nil]
      intro r hr he
      obtain ⟨g, hg, -, hrg⟩ := hall r hr
      exact hother g hg (he.symm.trans hrg)
    rw [Runs.stepsMeet_cons, List.forall_mem_cons, hthis, groupStated_iff hs hidx,
      ih hs' hidx' hu' hnone']
    rfl

end Groups

/-! ## 4. The interest of the other interfaces -/

/-- An interface other than `ifindex` has an `INCLUDE` subscription of the source. -/
def WantedElsewhere (groups : Groups) (ifindex : Nat) (g a : In6Addr) : Prop :=
  ∃ j, j ≠ ifindex ∧ ∃ s ∈ subscriptionsOf groups g j, s.mode = mld2ModeIsInclude ∧ s.ipv6 = a

/-- The group is one that the call is about. -/
def AskedFor (mca : Option In6Addr) (g : In6Addr) : Prop := mca = none ∨ mca = some g

/-- The records state the interest of the interfaces other than `ifindex`. -/
structure StatesInterest (groups : Groups) (ifindex : Nat) (mca : Option In6Addr)
    (recs : List Grec) : Prop where
  appears : ∀ g, (∃ r ∈ recs, r.grecMca = g) ↔
    AskedFor mca g ∧ ∃ a, WantedElsewhere groups ifindex g a
  all : ∀ g, AskedFor mca g → WantedElsewhere groups ifindex g In6Addr.any →
    recordsFor g recs = [allRecord g]
  includes : ∀ g, AskedFor mca g → ¬ WantedElsewhere groups ifindex g In6Addr.any →
    ∀ r ∈ recordsFor g recs, r.grecType = mld2ModeIsInclude
  sources : ∀ g, AskedFor mca g → ¬ WantedElsewhere groups ifindex g In6Addr.any →
    ∀ a, (∃ r ∈ recordsFor g recs, a ∈ r.srcs) ↔ WantedElsewhere groups ifindex g a

section Interest

variable {groups : Groups} {ifindex : Nat} {mca : Option In6Addr}

/-- The sources that the loops go through are those that the other interfaces want. -/
theorem mem_wanted_iff (hok : TableOk ValidSubscr groups) {groupn : GroupNode}
    (hg : groupn ∈ groups.nodes) (a : In6Addr) :
    a ∈ wanted ifindex groupn ↔ WantedElsewhere groups ifindex groupn.mca a := by
  have hfind : groupFind groups groupn.mca = some groupn := KeyedList.find_of_mem hok.unique hg
  have hgok := hok.all groupn hg
  have hmode : ∀ s : SubscrNode, ValidSubscr s →
      (s.mode ≠ mld2ModeIsExclude ↔ s.mode = mld2ModeIsInclude) := by
    rintro s ⟨hm | hm, -⟩ <;> simp [hm, mld2ModeIsInclude, mld2ModeIsExclude]
  simp only [wanted, List.mem_flatMap, wantedOn, WantedElsewhere, subscriptionsOf, groupintFind,
    hfind]
  constructor
  · rintro ⟨g, hgi, ha⟩
    split at ha
    · cases ha
    · rename_i hne
      obtain ⟨s, hs, rfl⟩ := List.mem_map.mp ha
      obtain ⟨hs, hinc⟩ := List.mem_filter.mp hs
      have hfg : grpintFind groupn.interfaces g.ifindex = some g :=
        KeyedList.find_of_mem hgok.unique hgi
      refine ⟨g.ifindex, hne, s, by rw [hfg]; exact hs, ?_, rfl⟩
      exact (hmode s ((hgok.all g hgi).all s hs)).mp (of_decide_eq_true hinc)
  · rintro ⟨j, hne, s, hs, hinc, rfl⟩
    cases hfg : grpintFind groupn.interfaces j with
    | none =>
      rw [hfg] at hs
      cases hs
    | some g =>
      rw [hfg] at hs
      have hgi : g ∈ groupn.interfaces.nodes := KeyedList.mem_of_find hfg
      have hj : g.ifindex = j := KeyedList.key_of_find hfg
      refine ⟨g, hgi, ?_⟩
      rw [if_neg (by rw [hj]; exact hne)]
      refine List.mem_map_of_mem (List.mem_filter.mpr ⟨hs, decide_eq_true ?_⟩)
      exact (hmode s ((hgok.all g hgi).all s hs)).mpr hinc

/-- What is wanted of a group that the call is about is reported. -/
theorem reported_of_wanted (hok : TableOk ValidSubscr groups) {g a : In6Addr}
    (hask : AskedFor mca g) (hw : WantedElsewhere groups ifindex g a) :
    ∃ groupn ∈ groups.nodes, groupn.mca = g ∧ reportsGroup mca groupn := by
  obtain ⟨j, -, s, hs, -⟩ := hw
  simp only [subscriptionsOf, groupintFind] at hs
  cases hfind : groupFind groups g with
  | none =>
    rw [hfind] at hs
    cases hs
  | some groupn =>
    rw [hfind] at hs
    dsimp only at hs
    have hmem : groupn ∈ groups.nodes := KeyedList.mem_of_find hfind
    have hkey : groupn.mca = g := KeyedList.key_of_find hfind
    refine ⟨groupn, hmem, hkey, ?_⟩
    have hcount : groupn.interfaces.count ≠ 0 := by
      rw [(hok.all groupn hmem).count]
      cases hfg : grpintFind groupn.interfaces j with
      | none =>
        rw [hfg] at hs
        cases hs
      | some gi =>
        have := List.length_pos_of_mem (KeyedList.mem_of_find hfg)
        omega
    have hmca : ¬ (mca.isSome ∧ mca ≠ some groupn.mca) := by
      rw [hkey]
      rcases hask with rfl | rfl <;> simp
    simp only [reportsGroup, Bool.not_eq_true', decide_eq_false_iff_not]
    rintro (hc | hc)
    · exact hmca hc
    · exact hcount hc

theorem askedFor_of_reportsGroup {groupn : GroupNode} (h : reportsGroup mca groupn) :
    AskedFor mca groupn.mca := by
  simp only [reportsGroup, Bool.not_eq_true', decide_eq_false_iff_not, not_or, not_and,
    Decidable.not_not] at h
  cases mca with
  | none => exact Or.inl rfl
  | some g => exact Or.inr (h.1 rfl)

/-- Stating the interest is stating it for each group that is reported. -/
theorem statesInterest_iff (hok : TableOk ValidSubscr groups) {recs : List Grec}
    (hrecs : ∀ r ∈ recs, ∃ groupn ∈ groups.nodes,
      reportsGroup mca groupn ∧ r.grecMca = groupn.mca) :
    StatesInterest groups ifindex mca recs ↔ ∀ groupn ∈ groups.nodes, reportsGroup mca groupn →
      GroupStated groupn.mca (wanted ifindex groupn) (recordsFor groupn.mca recs) := by
  have hnil : ∀ g, recordsFor g recs = [] ↔ ¬ ∃ r ∈ recs, r.grecMca = g := fun g => by
    simp [recordsFor, List.filter_eq_nil_iff]
  constructor
  · intro hs groupn hg hreports
    have hask := askedFor_of_reportsGroup hreports
    have hmem : ∀ a, a ∈ wanted ifindex groupn ↔ _ := mem_wanted_iff hok hg
    refine ⟨?_, fun hw => hs.all _ hask ((hmem _).mp hw),
      fun hw => hs.includes _ hask fun hc => hw ((hmem _).mpr hc), fun hw a => ?_⟩
    · rw [hnil, hs.appears, List.eq_nil_iff_forall_not_mem]
      simp [hask, hmem]
    · rw [hmem a]
      exact hs.sources _ hask (fun hc => hw ((hmem _).mpr hc)) a
  · intro hall
    -- a group that somebody wants is in the table, and its records are known
    have hof : ∀ {g a}, AskedFor mca g → WantedElsewhere groups ifindex g a →
        ∃ groupn ∈ groups.nodes, groupn.mca = g ∧
          GroupStated g (wanted ifindex groupn) (recordsFor g recs) := by
      intro g a hask hw
      obtain ⟨groupn, hg, rfl, hreports⟩ := reported_of_wanted hok hask hw
      exact ⟨groupn, hg, rfl, hall groupn hg hreports⟩
    -- and so is a group that has records
    have hrec : ∀ {r}, r ∈ recs → ∃ groupn ∈ groups.nodes, groupn.mca = r.grecMca ∧
        reportsGroup mca groupn ∧
        GroupStated r.grecMca (wanted ifindex groupn) (recordsFor r.grecMca recs) := by
      intro r hr
      obtain ⟨groupn, hg, hreports, hm⟩ := hrecs r hr
      exact ⟨groupn, hg, hm.symm, hreports, hm ▸ hall groupn hg hreports⟩
    refine ⟨fun g => ⟨?_, ?_⟩, fun g hask hw => ?_, fun g hask hw r hr => ?_, fun g hask hw a => ?_⟩
    · rintro ⟨r, hr, rfl⟩
      obtain ⟨groupn, hg, hm, hreports, hst⟩ := hrec hr
      have hne : wanted ifindex groupn ≠ [] := fun hc =>
        (hnil _).mp (hst.appears.mpr hc) ⟨r, hr, rfl⟩
      obtain ⟨a, ha⟩ := List.exists_mem_of_ne_nil _ hne
      rw [← hm]
      exact ⟨askedFor_of_reportsGroup hreports, a, (mem_wanted_iff hok hg a).mp ha⟩
    · rintro ⟨hask, a, hw⟩
      obtain ⟨groupn, hg, rfl, hst⟩ := hof hask hw
      by_contra hno
      have hempty := hst.appears.mp ((hnil _).mpr hno)
      have ha := (mem_wanted_iff hok hg a).mpr hw
      rw [hempty] at ha
      cases ha
    · obtain ⟨groupn, hg, rfl, hst⟩ := hof hask hw
      exact hst.all ((mem_wanted_iff hok hg _).mpr hw)
    · obtain ⟨hr', hm⟩ := List.mem_filter.mp hr
      have hm := of_decide_eq_true hm
      obtain ⟨groupn, hg, hmca, -, hst⟩ := hrec hr'
      rw [hm] at hmca hst
      refine hst.includes (fun hc => hw ?_) r hr
      rw [← hmca]
      exact (mem_wanted_iff hok hg _).mp hc
    · constructor
      · rintro ⟨r, hr, ha⟩
        obtain ⟨hr', hm⟩ := List.mem_filter.mp hr
        have hm := of_decide_eq_true hm
        obtain ⟨groupn, hg, hmca, -, hst⟩ := hrec hr'
        rw [hm] at hmca hst
        subst hmca
        exact (mem_wanted_iff hok hg a).mp
          ((hst.sources (fun hc => hw ((mem_wanted_iff hok hg _).mp hc)) a).mp ⟨r, hr, ha⟩)
      · intro ha
        obtain ⟨groupn, hg, rfl, hst⟩ := hof hask ha
        exact (hst.sources (fun hc => hw ((mem_wanted_iff hok hg _).mp hc)) a).mpr
          ((mem_wanted_iff hok hg a).mpr ha)

end Interest

/-! ## 5. The packets -/

/-- The records that a receiver of all the packets decodes. -/
def decodedRecords (packets : List (List UInt8)) : Option (List Grec) :=
  (packets.mapM decodeReport).map fun rss => rss.flatten.map WireGrec.toGrec

/-- The packets of the call state the interest of the other interfaces. -/
def ReportStatesInterest (h : Host) (st : Conf) (i : Nat) (mca : Option In6Addr) : Prop :=
  ∃ recs, decodedRecords (callPackets h st i mca) = some recs ∧
    StatesInterest st.groups (st.intn i).ifindex mca recs

/-- The condition, on what the loops see at the subscriptions of each group. -/
def CallTells (h : Host) (st : Conf) (i : Nat) (mca : Option In6Addr) : Prop :=
  Runs.StepsMeet (reportGroup h i mca) (GroupTells h i mca) (reportInit h st i) st.groups.nodes

instance (h : Host) (st : Conf) (i : Nat) (mca : Option In6Addr) :
    Decidable (CallTells h st i mca) :=
  inferInstanceAs (Decidable (Runs.StepsMeet _ _ _ _))

/-- Packets that encode lists of records are decoded to them. -/
theorem mapM_of_encodes {recss : List (List Grec)} {packets : List (List UInt8)}
    (h : List.Forall₂ Encodes recss packets) :
    ∃ rss, packets.mapM decodeReport = some rss ∧ rss.map (List.map WireGrec.toGrec) = recss := by
  induction h with
  | nil => exact ⟨[], rfl, rfl⟩
  | cons hp _ hrest =>
    obtain ⟨rs, hdec, rfl, -⟩ := hp
    obtain ⟨rss, hrss, rfl⟩ := hrest
    refine ⟨rs :: rss, ?_, rfl⟩
    rw [List.mapM_cons, hdec, hrss]
    rfl

theorem decodedRecords_of_encodes {recss : List (List Grec)} {packets : List (List UInt8)}
    (h : List.Forall₂ Encodes recss packets) : decodedRecords packets = some recss.flatten := by
  obtain ⟨rss, hrss, rfl⟩ := mapM_of_encodes h
  rw [decodedRecords, hrss, Option.map_some, List.map_flatten]

/-- What is left over after the loops is sent, if there is something. -/
theorem reportFinish_laid {h : Host} {i : Nat} {s : ReportLoop} (hs : Ready h i s)
    (hok : LoopOk h.endian s) : (reportFinish h i s).out = s.out ∧ s.cur = [] ∨
      (reportFinish h i s).out = s.out ++ [s.cur] := by
  unfold reportFinish
  rcases Option.eq_none_or_eq_some s.grec with hgrec | ⟨grec, hgrec⟩
  · obtain ⟨hcur, hngrec⟩ := hok.empty hgrec
    rw [if_pos (Or.inr hngrec)]
    exact Or.inl ⟨rfl, hcur⟩
  · obtain ⟨ws, w, hl⟩ := hok.laid grec hgrec
    rw [if_neg (by simp [hs.returned, hl.ngrec]), hgrec]
    exact Or.inr rfl

theorem reportFinish_records {h : Host} {i : Nat} {s : ReportLoop} (hs : Ready h i s)
    (hok : LoopOk h.endian s) : (reportFinish h i s).out.flatten = s.records := by
  rcases reportFinish_laid hs hok with ⟨hout, hcur⟩ | hout
  · rw [hout, ReportLoop.records, hcur, List.append_nil]
  · rw [hout, ReportLoop.records, List.flatten_append, List.flatten_singleton]

section Call

variable {h : Host} {st : Conf} {i : Nat} {mca : Option In6Addr}

theorem reportLoops_ready (hmtu : 1280 ≤ (st.intn i).mtu) : Ready h i (reportLoops h st i mca) :=
  Runs.foldl_invariant (P := Ready h i) (fun _ g hs => (reportGroup_records hs g).2)
    st.groups.nodes _ (reportInit_ready h st i hmtu)

/-- Every record that the loops appended is in a packet. -/
theorem callRecords_laid (hmtu : 1280 ≤ (st.intn i).mtu) (hlay : CallLaysOut h st i mca) :
    (callRecords h st i mca).flatten
      = (Runs.run (reportGroup h i mca) (reportInit h st i) st.groups.nodes).records := by
  rw [callRecords, reportFinish_records (reportLoops_ready hmtu) (hlay.loopOk (by omega)).1]
  rfl

/-- The records that a receiver decodes are the ones that the loops appended. -/
theorem decodedRecords_call (hmtu : 1280 ≤ (st.intn i).mtu) (hlay : CallLaysOut h st i mca) :
    decodedRecords (callPackets h st i mca)
      = some (Runs.run (reportGroup h i mca) (reportInit h st i) st.groups.nodes).records := by
  rw [decodedRecords_of_encodes (report_encoded (by omega) hlay), callRecords_laid hmtu hlay]

/-- **When the packets of a call state the interest of the other interfaces**, as long as all steps
write where they should: `::` comes last among the subscriptions of a group, a group that wants `::`
is neither split nor interrupted by the scan, and no source is lost in the scan. -/
theorem report_states_interest_iff (hr : Reachable h st) (hlive : (intFind st i).isSome)
    (hlay : CallLaysOut h st i mca) : ReportStatesInterest h st i mca ↔ CallTells h st i mca := by
  have hok := reachable_tableOk hr
  obtain ⟨k, hk⟩ := Option.isSome_iff_exists.mp hlive
  have hmtu := (reachable_intsOk hr).mtu i (intFind_eq_some.mp hk).2.2
  have hinit := reportInit_ready h st i hmtu
  obtain ⟨new, hnew, hrecs⟩ := @groups_records h i mca st.groups.nodes _ hinit
  have hdecoded := decodedRecords_call hmtu hlay
  rw [CallTells, groups_stated_iff st.groups.nodes hinit rfl hok.unique fun _ _ => rfl,
    ← statesInterest_iff hok (by rw [hnew]; exact hrecs)]
  simp only [ReportStatesInterest, hdecoded, Option.some.injEq, exists_eq_left']
  rfl

end Call

/-- The two groups of `stateTwoGroups`, each with its source. -/
theorem two_groups_stated : ReportStatesInterest (quietHost .big) (stateTwoGroups .big) 2 none :=
  (report_states_interest_iff ⟨plainOptions, 0, none, _, rfl⟩ (by decide +kernel)
    (by decide +kernel)).mpr (by decide +kernel)

/-- A link that asks for everything in `ff05::1`, and then also for one source of it. -/
def stateAllAndOne : Conf :=
  run (quietHost .little) (boot (quietHost .little) plainOptions 0 none)
    [.frame 0 (mldFrame 1 mld1JoinMessage),
      .frame 1 (mldFrame 1 (mld2ReportMessage [includeRecord 1 1])), .create 1 2 ethernetProbe]

/-- The second link is told of both. -/
theorem all_and_one_told_twice : Reachable (quietHost .little) stateAllAndOne ∧
    (intFind stateAllAndOne 2).isSome ∧
    ¬ ReportStatesInterest (quietHost .little) stateAllAndOne 2 none := by
  refine ⟨⟨plainOptions, 0, none, _, rfl⟩, by decide +kernel, ?_⟩
  rintro ⟨recs, hrecs, hstates⟩
  have hdecoded : decodedRecords (callPackets (quietHost .little) stateAllAndOne 2 none)
      = some [allRecord siteGroup, ⟨1, siteGroup, [globalHost 1]⟩] := by
    decide +kernel
  obtain rfl := Option.some.inj (hdecoded.symm.trans hrecs)
  have hall := hstates.all siteGroup (Or.inl rfl)
    ⟨1, by decide +kernel, ⟨In6Addr.any, mld2ModeIsInclude, 0⟩, by decide +kernel, rfl, rfl⟩
  exact absurd hall (by decide +kernel)

end Ecmh
