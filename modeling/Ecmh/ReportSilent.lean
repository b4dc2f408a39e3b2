/-
# When `mld2_send_report` says something about a group

What is said about a group may be wrong (the layout, the sources), but a group that is wanted on
another interface does get a record, and its packet is sent.  The one thing that could keep it back
is the count of records: the last packet is not sent if the count is zero, and a count of 16 bits
comes back to zero.  Below an MTU of `2 ^ 20` a packet is full before.
-/
import Ecmh.Sends

namespace Ecmh

open ByteMem

/-! ## 1. The count of records -/

/-- The count in the packet is that of the records in it, which take twenty bytes each. -/
structure Counted (e : Endian) (i mtu : Nat) (s : ReportLoop) : Prop where
  mtu_le : (s.st.intn i).mtu ≤ mtu
  place : ∀ grec, s.grec = some grec → 36 + 20 * s.cur.length ≤ grec
  none : s.grec = none → s.cur = []
  opened : s.grec.isSome → s.cur ≠ []
  ngrec : e.load16 s.packet reportNgrec = s.cur.length

section Counted

variable {e : Endian} {i mtu : Nat} {s : ReportLoop}

theorem Counted.place_ge (hs : Counted e i mtu s) {grec : Nat} (hgrec : s.grec = some grec) :
    56 ≤ grec := by
  have hplace := hs.place grec hgrec
  have hne := List.length_pos_iff.mpr (hs.opened (by rw [hgrec]; rfl))
  omega

/-- A source is added to the record that is open. -/
theorem Counted.append (hs : Counted e i mtu s) {grec : Nat} (hgrec : s.grec = some grec)
    (ipv6 : In6Addr) : Counted e i mtu (reportAppend e s ipv6) := by
  have h56 := hs.place_ge hgrec
  have hcur : (reportAppend e s ipv6).cur.length = s.cur.length := by
    by_cases hany : ipv6 = In6Addr.any
    · rw [reportAppend_any hgrec hany]
    · rw [reportAppend_source hgrec hany, length_setLast]
  have hne : (reportAppend e s ipv6).cur ≠ [] := by
    rw [← List.length_pos_iff, hcur]
    exact List.length_pos_iff.mpr (hs.opened (by rw [hgrec]; rfl))
  have hgrec' : (reportAppend e s ipv6).grec = some grec := reportAppend_grec hgrec
  refine ⟨?_, ?_, ?_, fun _ => hne, ?_⟩
  · rw [reportAppend_st]
    exact hs.mtu_le
  · intro p hp
    rw [hgrec', ← hgrec] at hp
    rw [hcur]
    exact hs.place p hp
  · intro hnone
    rw [hgrec'] at hnone
    cases hnone
  · rw [hcur, ← hs.ngrec]
    exact load16_congr (reportAppend_apply hgrec (Or.inl (by simp only [reportNgrec]; omega)))
      (reportAppend_apply hgrec (Or.inl (by simp only [reportNgrec]; omega)))

/-- A record is started where the packet has room for it. -/
theorem Counted.opens (hs : Counted e i mtu s) (hmtu : mtu < 2 ^ 20)
    (hroom : ∀ grec, s.grec = some grec → grec ≤ mtu) (mca ipv6 : In6Addr) :
    Counted e i mtu (reportAppend e (reportNewGrec e s mca) ipv6) := by
  have h56 : ∀ grec, s.grec = some grec → 56 ≤ grec := fun grec hgrec => hs.place_ge hgrec
  have hcur : (reportNewGrec e s mca).cur.length = s.cur.length + 1 := List.length_append
  have hlen : s.cur.length + 1 < 65536 := by
    cases hgrec : s.grec with
    | none =>
      rw [hs.none hgrec]
      decide
    | some grec =>
      have hplace := hs.place grec hgrec
      have hle := hroom grec hgrec
      omega
  obtain ⟨p, hp, hple⟩ : ∃ p, (reportNewGrec e s mca).grec = some p ∧
      36 + 20 * (s.cur.length + 1) ≤ p := by
    cases hgrec : s.grec with
    | none =>
      refine ⟨_, (reportNewGrec_first hgrec mca).1, ?_⟩
      rw [hs.none hgrec]
      decide
    | some grec =>
      refine ⟨_, (reportNewGrec_next hgrec (h56 grec hgrec) mca).1, ?_⟩
      have hplace := hs.place grec hgrec
      omega
  have hnew : Counted e i mtu (reportNewGrec e s mca) := by
    refine ⟨hs.mtu_le, ?_, ?_, fun _ => ?_, ?_⟩
    · intro q hq
      rw [hcur]
      rw [hp] at hq
      rw [← Option.some.inj hq]
      exact hple
    · intro hnone
      rw [hp] at hnone
      cases hnone
    · rw [← List.length_pos_iff, hcur]
      omega
    · rw [reportNewGrec_ngrec h56, hs.ngrec, hcur, Nat.mod_eq_of_lt hlen]
  exact hnew.append hp ipv6

/-- What a step does to `src` and to the record of the places it touched does not matter. -/
theorem Counted.congr {s' : ReportLoop} (hs : Counted e i mtu s) (hst : s'.st = s.st)
    (hpacket : s'.packet = s.packet) (hgrec : s'.grec = s.grec) (hcur : s'.cur = s.cur) :
    Counted e i mtu s' := by
  refine ⟨?_, ?_, ?_, ?_, ?_⟩
  · rw [hst]
    exact hs.mtu_le
  · rw [hgrec, hcur]
    exact hs.place
  · rw [hgrec, hcur]
    exact hs.none
  · rw [hgrec, hcur]
    exact hs.opened
  · rw [hpacket, hcur]
    exact hs.ngrec

theorem Counted.collapse (hs : Counted e i mtu s) {grec : Nat} (hgrec : s.grec = some grec) :
    Counted e i mtu (reportCollapse e s grec) := by
  have h56 := hs.place_ge hgrec
  have hcur : (reportCollapse e s grec).cur.length = s.cur.length := length_setLast _ _
  refine ⟨hs.mtu_le, ?_, ?_, ?_, ?_⟩
  · rw [hcur]
    exact hs.place
  · intro hnone
    rw [show (reportCollapse e s grec).grec = s.grec from rfl, hgrec] at hnone
    cases hnone
  · intro _
    rw [← List.length_pos_iff, hcur]
    exact List.length_pos_iff.mpr (hs.opened (by rw [hgrec]; rfl))
  · rw [hcur, ← hs.ngrec, reportCollapse_packet]
    exact load16_congr (writeHead_apply (Or.inl (by simp only [reportNgrec]; omega)))
      (writeHead_apply (Or.inl (by simp only [reportNgrec]; omega)))

/-- After a packet was sent the next one is empty. -/
theorem Counted.sent (hs : Counted e i mtu s) (h : Host) (grec : Nat) :
    Counted e i mtu (reportReset e (reportSend h i s grec)) := by
  refine ⟨?_, fun _ hp => (by cases hp), fun _ => rfl, fun hc => (by cases hc), ?_⟩
  · rcases ((reportSend_sendsOnly h i s grec).intn i).1 with hm | hm
    · exact Nat.le_trans (Nat.le_of_eq hm) hs.mtu_le
    · exact Nat.le_trans (Nat.le_of_eq hm) (Nat.zero_le mtu)
  · exact Endian.load16_store16 e _ reportNgrec 0

/-- Where a packet is not full, its last record lies within the MTU. -/
theorem place_le_of_not_full (hs : Counted e i mtu s) {ipv6 : In6Addr}
    (hfull : reportFull e i s ipv6 = false) : ∀ grec, s.grec = some grec → grec ≤ mtu := by
  intro grec hgrec
  have hmtu := hs.mtu_le
  simp only [reportFull, decide_eq_false_iff_not, ReportLoop.length, hgrec,
    ReportLoop.slot] at hfull
  omega

theorem reportSubscr_counted {h : Host} (hs : Counted h.endian i mtu s) (hmtu : mtu < 2 ^ 20)
    (mca ipv6 : In6Addr) : Counted h.endian i mtu (reportSubscr h i mca s ipv6) := by
  have hcases := reportSubscr_step h i mca s ipv6
  generalize reportSubscr h i mca s ipv6 = s' at hcases
  cases hcases with
  | returned _ => exact hs
  | known _ _ hk =>
    generalize hb : false = b at hk
    cases hk with
    | noSource _ => exact hs
    | noGrec _ _ => exact hs
    | collapse grec _ hgrec _ => exact hs.collapse hgrec
    | dropped _ _ => exact hs.congr rfl rfl rfl rfl
    | fresh _ _ _ _ _ _ => exact hs.congr rfl rfl rfl rfl
  | tooSmall _ _ _ => exact hs.congr rfl rfl rfl rfl
  | split src touched grec _ _ _ _ =>
    have hs' : Counted h.endian i mtu { s with src := src, touched := touched } :=
      hs.congr rfl rfl rfl rfl
    exact (hs'.sent h grec).opens hmtu (fun _ hg => by cases hg) mca ipv6
  | opens _ _ hfull => exact hs.opens hmtu (place_le_of_not_full hs hfull) mca ipv6
  | adds src touched grec _ _ _ hgrec _ _ =>
    have hs' : Counted h.endian i mtu { s with src := some src, touched := touched } :=
      hs.congr rfl rfl rfl rfl
    exact hs'.append hgrec ipv6

theorem reportStep_counted {h : Host} (hs : Counted h.endian i mtu s) (hmtu : mtu < 2 ^ 20)
    (x : ReportStep) : Counted h.endian i mtu (reportStep h i s x) := by
  cases x with
  | group => exact hs.congr rfl rfl rfl rfl
  | subscr mca ipv6 => exact reportSubscr_counted hs hmtu mca ipv6

end Counted

theorem reportInit_counted (h : Host) (st : Conf) (i : Nat) :
    Counted h.endian i (st.intn i).mtu (reportInit h st i) := by
  refine ⟨Nat.le_refl _, fun _ hp => (by cases hp), fun _ => rfl, fun hc => (by cases hc), ?_⟩
  exact Endian.load16_store16 h.endian _ reportNgrec 0

/-! ## 2. What the packets say -/

section Call

variable {h : Host} {st : Conf} {i : Nat} {mca : Option In6Addr}

theorem reportLoops_counted (hlt : (st.intn i).mtu < 2 ^ 20) :
    Counted h.endian i (st.intn i).mtu (reportLoops h st i mca) := by
  rw [reportLoops_eq_run]
  exact Runs.run_invariant (P := Counted h.endian i (st.intn i).mtu)
    (fun s x hs => reportStep_counted hs hlt x) _ _ (reportInit_counted h st i)

/-- It is sent if there is something, as long as the count of records is right. -/
theorem reportFinish_sends {mtu : Nat} {s : ReportLoop} (hready : Ready h i s)
    (hcounted : Counted h.endian i mtu s) :
    (reportFinish h i s).out = s.out ∧ s.cur = [] ∨
      (reportFinish h i s).out = s.out ++ [s.cur] := by
  unfold reportFinish
  rcases Option.eq_none_or_eq_some s.grec with hgrec | ⟨grec, hgrec⟩
  · have hcur := hcounted.none hgrec
    rw [if_pos (Or.inr (by rw [hcounted.ngrec, hcur]; rfl))]
    exact Or.inl ⟨rfl, hcur⟩
  · rw [if_neg (by simp [hready.returned, hcounted.ngrec, hcounted.opened, hgrec]), hgrec]
    exact Or.inr rfl

/-- Every record is sent. -/
theorem callRecords_flatten (hmtu : 1280 ≤ (st.intn i).mtu) (hlt : (st.intn i).mtu < 2 ^ 20) :
    (callRecords h st i mca).flatten
      = (Runs.run (reportGroup h i mca) (reportInit h st i) st.groups.nodes).records := by
  show (reportFinish h i (reportLoops h st i mca)).out.flatten = (reportLoops h st i mca).records
  rcases reportFinish_sends (reportLoops_ready hmtu) (reportLoops_counted hlt) with
    ⟨hout, hcur⟩ | hout
  · rw [hout, ReportLoop.records, hcur, List.append_nil]
  · rw [hout, ReportLoop.records, List.flatten_append, List.flatten_singleton]

/-- A group that is reported and wanted has a record. -/
theorem groups_recorded {ifindex : Nat} : ∀ (groups : List GroupNode) {s : ReportLoop},
    Ready h i s → (s.st.intn i).ifindex = ifindex → ∀ groupn ∈ groups, reportsGroup mca groupn →
    wanted ifindex groupn ≠ [] →
    ∃ r ∈ (Runs.run (reportGroup h i mca) s groups).records, r.grecMca = groupn.mca := by
  intro groups
  induction groups with
  | nil =>
    intro s _ _ groupn hg
    cases hg
  | cons g groups ih =>
    intro s hs hidx groupn hg hreports hwant
    obtain ⟨hrecs, hs'⟩ := @reportGroup_records h i mca s hs g
    have hidx' : ((reportGroup h i mca s g).st.intn i).ifindex = ifindex :=
      ((reportGroup_sendsOnly h i mca s g).ifindex i).trans hidx
    rcases List.mem_cons.mp hg with rfl | hg
    · obtain ⟨new, hnew, -⟩ := @groups_records h i mca groups _ hs'
      have hne : groupRecords h i mca s groupn ≠ [] := by
        rw [groupRecords, if_pos hreports, ne_eq, gather_eq_nil]
        intro hnil
        have hmap := looks_ipv6 h i groupn.mca { s with src := none }
          (wanted (s.st.intn i).ifindex groupn)
        rw [groupLooks] at hnil
        rw [hnil, hidx] at hmap
        exact hwant hmap.symm
      obtain ⟨r, hr⟩ := List.exists_mem_of_ne_nil _ hne
      refine ⟨r, ?_, (groupRecords_mca s groupn r hr).1⟩
      rw [Runs.run_cons, hnew, hrecs]
      exact List.mem_append_left _ (List.mem_append_right _ hr)
    · obtain ⟨r, hr, hm⟩ := ih hs' hidx' groupn hg hreports hwant
      exact ⟨r, hr, hm⟩

/-- **What is told**: exactly the groups that are wanted on another interface, where all records are
sent. -/
theorem callRecords_iff_of (hok : TableOk ValidSubscr st.groups) (hmtu : 1280 ≤ (st.intn i).mtu)
    (hall : (callRecords h st i mca).flatten
      = (Runs.run (reportGroup h i mca) (reportInit h st i) st.groups.nodes).records)
    (g : In6Addr) : (∃ r ∈ (callRecords h st i mca).flatten, r.grecMca = g) ↔
      AskedFor mca g ∧ ∃ a, WantedElsewhere st.groups (st.intn i).ifindex g a := by
  constructor
  · rintro ⟨r, hr, rfl⟩
    obtain ⟨recs, hrecs, hr⟩ := List.mem_flatten.mp hr
    exact (callRecords_wanted h hok i mca recs hrecs r hr).1
  · rintro ⟨hask, a, hw⟩
    obtain ⟨groupn, hg, rfl, hreports⟩ := reported_of_wanted hok hask hw
    rw [hall]
    refine groups_recorded st.groups.nodes (reportInit_ready h st i hmtu) rfl groupn hg hreports ?_
    exact List.ne_nil_of_mem ((mem_wanted_iff hok hg a).mpr hw)

theorem callRecords_iff (hok : TableOk ValidSubscr st.groups) (hmtu : 1280 ≤ (st.intn i).mtu)
    (hlt : (st.intn i).mtu < 2 ^ 20) (g : In6Addr) :
    (∃ r ∈ (callRecords h st i mca).flatten, r.grecMca = g) ↔
      AskedFor mca g ∧ ∃ a, WantedElsewhere st.groups (st.intn i).ifindex g a :=
  callRecords_iff_of hok hmtu (callRecords_flatten hmtu hlt) g

/-- The call sends a packet with a record for each of these groups. -/
theorem mld2SendReport_tells (hok : TableOk ValidSubscr st.groups) (hmtu : 1280 ≤ (st.intn i).mtu)
    (hlt : (st.intn i).mtu < 2 ^ 20) {g : In6Addr} (hask : AskedFor mca g)
    (hw : ∃ a, WantedElsewhere st.groups (st.intn i).ifindex g a) :
    ∃ x ∈ newSent st (mld2SendReport h st i mca), x.ifindex = (st.intn i).ifindex ∧
      x.groups = st.groups ∧
      ∃ recs, x.sender = .mld2SendReport recs ∧ ∃ r ∈ recs, r.grecMca = g ∧ r.Asks := by
  obtain ⟨r, hr, hm⟩ := (@callRecords_iff h st i mca hok hmtu hlt g).mpr ⟨hask, hw⟩
  obtain ⟨recs, hrecs, hr⟩ := List.mem_flatten.mp hr
  obtain ⟨new, hnew, hsender, hall⟩ := mld2SendReport_sent h st i mca
  rw [newSent_of_append hnew]
  have hmem : Sender.mld2SendReport recs ∈ new.map Sent.sender := by
    rw [hsender (by simp only [sizeofReport]; omega)]
    exact List.mem_map_of_mem hrecs
  obtain ⟨x, hx, hs⟩ := List.mem_map.mp hmem
  obtain ⟨-, hgroups, hidx⟩ := hall x hx
  exact ⟨x, hx, hidx, hgroups, recs, hs, r, hr, hm,
    (callRecords_wanted h hok i mca recs hrecs r hr).2⟩

/-- Nothing happens where the loops pass over all subscriptions. -/
theorem mld2SendReport_idle (hno : ∀ groupn ∈ st.groups.nodes, reportsGroup mca groupn →
    wanted (st.intn i).ifindex groupn = []) : mld2SendReport h st i mca = st := by
  have hsteps : ∀ x ∈ callSteps st i mca, x = .group := by
    intro x hx
    obtain ⟨groupn, hg, hx⟩ := List.mem_flatMap.mp hx
    obtain ⟨hg, hreports⟩ := List.mem_filter.mp hg
    rcases List.mem_cons.mp hx with hx | hx
    · exact hx
    · obtain ⟨a, ha, -⟩ := List.mem_map.mp hx
      rw [hno groupn hg hreports] at ha
      cases ha
  have hrun : ∀ (xs : List ReportStep) (s : ReportLoop), (∀ x ∈ xs, x = .group) →
      (Runs.run (reportStep h i) s xs).st = s.st ∧
        (Runs.run (reportStep h i) s xs).grec = s.grec := by
    intro xs
    induction xs with
    | nil => exact fun s _ => ⟨rfl, rfl⟩
    | cons x xs ih =>
      intro s hxs
      obtain ⟨rfl, hrest⟩ := List.forall_mem_cons.mp hxs
      exact ih (reportStep h i s .group) hrest
  unfold mld2SendReport
  split
  · rfl
  · obtain ⟨hst, hgrec⟩ := hrun (callSteps st i mca) (reportInit h st i) hsteps
    rw [callSteps, ← reportLoops_eq_run] at hst hgrec
    have hfinish : reportFinish h i (reportLoops h st i mca) = reportLoops h st i mca := by
      unfold reportFinish
      rw [hgrec]
      split <;> rfl
    rw [hfinish, hst]
    rfl

/-- Nothing is sent where nothing is wanted. -/
theorem mld2SendReport_quiet (hok : TableOk ValidSubscr st.groups)
    (hno : ∀ g, AskedFor mca g → ¬ ∃ a, WantedElsewhere st.groups (st.intn i).ifindex g a) :
    mld2SendReport h st i mca = st := by
  refine mld2SendReport_idle fun groupn hg hreports => ?_
  rw [List.eq_nil_iff_forall_not_mem]
  intro a ha
  exact hno groupn.mca (askedFor_of_reportsGroup hreports) ⟨a, (mem_wanted_iff hok hg a).mp ha⟩

/-- **When a call sends nothing**: when the loops find no subscription, whatever the table. -/
theorem mld2SendReport_silent_iff (hmtu : 1280 ≤ (st.intn i).mtu)
    (hlt : (st.intn i).mtu < 2 ^ 20) : (mld2SendReport h st i mca).sent = st.sent ↔
      ∀ groupn ∈ st.groups.nodes, reportsGroup mca groupn →
        wanted (st.intn i).ifindex groupn = [] := by
  refine ⟨fun hsame groupn hg hreports => ?_, fun hno => by rw [mld2SendReport_idle hno]⟩
  by_contra hwant
  obtain ⟨r, hr, -⟩ := @groups_recorded h i mca _ st.groups.nodes _
    (reportInit_ready h st i hmtu) rfl groupn hg hreports hwant
  rw [← callRecords_flatten hmtu hlt] at hr
  obtain ⟨recs, hrecs, -⟩ := List.mem_flatten.mp hr
  obtain ⟨new, hnew, hsender, -⟩ := mld2SendReport_sent h st i mca
  have hnil : new = [] := List.append_right_eq_self.mp (hnew.symm.trans hsame)
  have hmem : Sender.mld2SendReport recs ∈ new.map Sent.sender := by
    rw [hsender (by simp only [sizeofReport]; omega)]
    exact List.mem_map_of_mem hrecs
  rw [hnil] at hmem
  cases hmem

end Call

end Ecmh
