/-
# Expiry: what the sweep keeps, and what it never removes

`timeout` takes expired subscriptions out of the table and then decides, from the counters alone,
which group-interfaces and groups go with them.

* **Live memberships are kept.**  For a well-formed table the sweep filters every list of
  subscriptions, and nothing that still has a subscription goes (`subscriptionsOf_sweep`,
  `groupintFind_sweep_none`).  Over runs, an entry of the membership map that is confirmed in the
  250 seconds before every timeout stays (`confirmed_kept`).
* **Dead memberships are not always removed.**  A group-interface goes only with the counter at
  `-2`, which only a reduction writes; one that runs empty by expiry is left with the counter at
  `0`, for ever.  `diesOut_iff_marked` is the exact account.
-/
import Ecmh.Membership
import Mathlib.Data.List.Induction

namespace Ecmh

/-! ## 1. One sweep

The test of the source takes the distance between two times, so that a refresh in the future
expires like one in the past. -/

/-- Not refreshed for more than 250 seconds: the test of the source in plain arithmetic. -/
def Expired (now : Nat) (s : SubscrNode) : Prop := 250 < ((now : Int) - s.refreshtime).natAbs

instance (now : Nat) (s : SubscrNode) : Decidable (Expired now s) :=
  inferInstanceAs (Decidable (_ < _))

theorem deadTooLong_iff (now : Nat) (s : SubscrNode) :
    deadTooLong now s = true ↔ Expired now s := by
  unfold deadTooLong Expired
  dsimp only
  rw [decide_eq_true_iff]
  have hw : ((ecmhSubscriptionTimeout * ecmhRobustnessFactor : Nat) : Int) = 250 := rfl
  rw [hw]
  split <;> omega

theorem not_deadTooLong_eq (now : Nat) :
    (fun s => !deadTooLong now s) = fun s => decide (¬ Expired now s) := by
  funext s
  cases hd : deadTooLong now s with
  | true => simp [(deadTooLong_iff now s).mp hd]
  | false =>
    have : ¬ Expired now s := fun he => by simp [(deadTooLong_iff now s).mpr he] at hd
    simp [this]

/-- A group-interface that `timeout` removes: empty, and marked by a reduction. -/
def Marked (g : GrpIntNode) : Prop :=
  g.subscriptions.nodes = [] ∧ g.subscriptions.count = -ecmhRobustnessFactor

instance (g : GrpIntNode) : Decidable (Marked g) := inferInstanceAs (Decidable (_ ∧ _))

variable {P : SubscrNode → Prop}

/-- The sweep of one group-interface.  What is kept has a true counter, so it is not marked. -/
theorem timeoutGrpint_cases (now : Nat) {g : GrpIntNode} (h : SubscrsOk P g.subscriptions) :
    (Marked g ∧ timeoutGrpint now g = none) ∨
    (¬ Marked g ∧ ∃ g', timeoutGrpint now g = some g' ∧ ¬ Marked g' ∧
      g'.subscriptions.nodes
        = g.subscriptions.nodes.filter (fun s => decide (¬ Expired now s))) := by
  have hn := sweepSubscrs_nodes now g.subscriptions
  have hc := sweepSubscrs_count now h
  rw [not_deadTooLong_eq] at hn hc
  unfold timeoutGrpint
  dsimp only
  by_cases hm : Marked g
  · left
    refine ⟨hm, if_pos ?_⟩
    rw [listLoop2_count, hm.1, hm.2]
    simp
  · right
    have hcount : (listLoop2 (fun s => if deadTooLong now s then none else some s)
        g.subscriptions).count
        = (g.subscriptions.nodes.filter (fun s => decide (¬ Expired now s))).length := by
      rcases hc with hc | ⟨hnil, -⟩
      · exact hc
      · rcases h.count with hlen | hmark
        · rw [listLoop2_count, hlen, hnil]
          rfl
        · exact absurd hmark hm
    refine ⟨hm, _, if_neg ?_, ?_, hn⟩
    · rw [hcount]
      simp only [ecmhRobustnessFactor]
      omega
    · rintro ⟨-, hmark⟩
      dsimp only at hmark
      rw [hcount] at hmark
      simp only [ecmhRobustnessFactor] at hmark
      omega

/-- **The sweep filters every list of subscriptions**, and keeps its order. -/
theorem subscriptionsOf_sweep (now : Nat) {groups : Groups} (h : TableOk P groups) (mca : In6Addr)
    (ifindex : Nat) : subscriptionsOf (listLoop2 (timeoutGroup now) groups) mca ifindex
      = (subscriptionsOf groups mca ifindex).filter (fun s => decide (¬ Expired now s)) := by
  unfold subscriptionsOf
  rw [groupintFind_sweep now h]
  cases hg : groupintFind groups mca ifindex with
  | none => rfl
  | some g =>
    rw [Option.bind_some]
    rcases timeoutGrpint_cases now (groupintFind_ok h hg) with ⟨hm, hnone⟩ | ⟨-, g', hg', -, hn⟩
    · rw [hnone]
      dsimp only
      rw [hm.1, List.filter_nil]
    · rw [hg']
      exact hn

/-- A group-interface that the sweep removes had no subscription. -/
theorem groupintFind_sweep_none (now : Nat) {groups : Groups} (h : TableOk P groups)
    {mca : In6Addr} {ifindex : Nat} {g : GrpIntNode}
    (hg : groupintFind groups mca ifindex = some g)
    (hgone : groupintFind (listLoop2 (timeoutGroup now) groups) mca ifindex = none) :
    g.subscriptions.nodes = [] := by
  rw [groupintFind_sweep now h, hg, Option.bind_some] at hgone
  rcases timeoutGrpint_cases now (groupintFind_ok h hg) with ⟨hm, -⟩ | ⟨-, g', hg', -⟩
  · exact hm.1
  · rw [hg'] at hgone
    simp at hgone

/-- A group-interface of a well-formed table is the one that is found. -/
theorem groupintFind_of_mem {groups : Groups} (h : TableOk P groups) {groupn : GroupNode}
    (hg : groupn ∈ groups.nodes) {grpintn : GrpIntNode} (hi : grpintn ∈ groupn.interfaces.nodes) :
    groupintFind groups groupn.mca grpintn.ifindex = some grpintn := by
  have hfind : groupFind groups groupn.mca = some groupn := KeyedList.find_of_mem h.unique hg
  unfold groupintFind
  rw [hfind]
  exact KeyedList.find_of_mem (h.all groupn hg).unique hi

theorem mem_subscriptionsOf {groups : Groups} (h : TableOk P groups) {mca : In6Addr} {ifindex : Nat}
    {s : SubscrNode} : s ∈ subscriptionsOf groups mca ifindex ↔
      ∃ groupn ∈ groups.nodes, groupn.mca = mca ∧
        ∃ grpintn ∈ groupn.interfaces.nodes, grpintn.ifindex = ifindex ∧
          s ∈ grpintn.subscriptions.nodes := by
  constructor
  · intro hs
    unfold subscriptionsOf groupintFind at hs
    cases hg : groupFind groups mca with
    | none =>
      rw [hg] at hs
      cases hs
    | some groupn =>
      rw [hg] at hs
      dsimp only at hs
      cases hgi : grpintFind groupn.interfaces ifindex with
      | none =>
        rw [hgi] at hs
        cases hs
      | some grpintn =>
        rw [hgi] at hs
        exact ⟨groupn, KeyedList.mem_of_find hg, KeyedList.key_of_find hg, grpintn,
          KeyedList.mem_of_find hgi, KeyedList.key_of_find hgi, hs⟩
  · rintro ⟨groupn, hg, rfl, grpintn, hi, rfl, hs⟩
    rw [subscriptionsOf, groupintFind_of_mem h hg hi]
    exact hs

theorem timeout_groups (h : Host) (now : Nat) (st : Conf) (ifap : Option (List IfAddr)) :
    (timeout h now st ifap).groups = listLoop2 (timeoutGroup now) st.groups :=
  step_groups h st (.timeout now ifap)

/-! ## 2. An entry of the map along a run

An entry is followed through the events: confirmed by a report, left alone by everything else,
and kept by a sweep that comes in time. -/

/-- The event is a report that confirms the subscription. -/
def Confirms (h : Host) (st : Conf) (ev : Event) (mca : In6Addr) (ifindex : Nat) (src : In6Addr) :
    Prop :=
  ∃ joins, tableOp h st ev = .refresh ifindex joins ∧
    ∃ j ∈ joins, j.mca = mca ∧ ∃ mode, (src, mode) ∈ j.rows ∧ ¬ rowIgnored src mode

section Entry

variable {mca : In6Addr} {ifindex : Nat} {src : In6Addr}

/-- The entry is there, last confirmed between the two times. -/
def Entry (mca : In6Addr) (ifindex : Nat) (src : In6Addr) (m : MemberMap) (a b : Nat) : Prop :=
  ∃ s, m mca ifindex src = some s ∧ a ≤ s.refreshtime ∧ s.refreshtime ≤ b

theorem Entry.mono {m : MemberMap} {a a' b b' : Nat} (h : Entry mca ifindex src m a b)
    (ha : a' ≤ a) (hb : b ≤ b') : Entry mca ifindex src m a' b' := by
  obtain ⟨s, hs, h1, h2⟩ := h
  exact ⟨s, hs, Nat.le_trans ha h1, Nat.le_trans h2 hb⟩

/-- A refresh of any entry leaves this one, or confirms it. -/
theorem entry_refresh {now a : Nat} (ha : a ≤ now) {g : In6Addr} {i : Nat} {m : MemberMap}
    (h : Entry mca ifindex src m a now) (row : In6Addr × Nat) :
    Entry mca ifindex src (m.refresh now g i row) a now := by
  unfold Entry MemberMap.refresh
  split
  · exact ⟨_, rfl, ha, Nat.le_refl now⟩
  · exact h

theorem entry_rows {now a : Nat} (ha : a ≤ now) {g : In6Addr} {i : Nat} :
    ∀ (rows : List (In6Addr × Nat)) {m : MemberMap}, Entry mca ifindex src m a now →
    Entry mca ifindex src (rows.foldl (MemberMap.refresh now g i) m) a now := by
  intro rows
  induction rows with
  | nil => exact fun h => h
  | cons row rows ih => exact fun h => ih (entry_refresh ha h row)

theorem entry_joins {now a : Nat} (ha : a ≤ now) {i : Nat} :
    ∀ (joins : List Join) {m : MemberMap}, Entry mca ifindex src m a now →
    Entry mca ifindex src (joins.foldl (MemberMap.join now i) m) a now := by
  intro joins
  induction joins with
  | nil => exact fun h => h
  | cons j joins ih => exact fun h => ih (entry_rows ha j.rows h)

/-- A row for the entry sets it, whatever was there. -/
theorem entry_rows_hit {now : Nat} {mode : Nat} (hni : ¬ rowIgnored src mode) :
    ∀ (rows : List (In6Addr × Nat)) (m : MemberMap), (src, mode) ∈ rows →
    Entry mca ifindex src (rows.foldl (MemberMap.refresh now mca ifindex) m) now now := by
  intro rows
  induction rows with
  | nil => exact fun _ h => absurd h List.not_mem_nil
  | cons row rows ih =>
    intro m h
    rcases List.mem_cons.mp h with rfl | h
    · refine entry_rows (Nat.le_refl now) rows ⟨⟨src, mode, now⟩, ?_, Nat.le_refl _, Nat.le_refl _⟩
      rw [MemberMap.refresh, if_pos ⟨rfl, rfl, rfl, hni⟩]
    · exact ih _ h

theorem entry_joins_hit {now : Nat} {j : Join} (hj : j.mca = mca) {mode : Nat}
    (hrow : (src, mode) ∈ j.rows) (hni : ¬ rowIgnored src mode) :
    ∀ (joins : List Join) (m : MemberMap), j ∈ joins →
    Entry mca ifindex src (joins.foldl (MemberMap.join now ifindex) m) now now := by
  intro joins
  induction joins with
  | nil => exact fun _ h => absurd h List.not_mem_nil
  | cons x joins ih =>
    intro m h
    rcases List.mem_cons.mp h with rfl | h
    · refine entry_joins (Nat.le_refl now) joins ?_
      rw [← hj]
      exact entry_rows_hit hni j.rows m hrow
    · exact ih _ h

/-- **One operation and one entry**: it stays, unless a reduction takes it away or the sweep
finds it expired. -/
theorem entry_apply {now a : Nat} {op : TableOp} {m : MemberMap}
    (h : Entry mca ifindex src m a now) (hop : src = In6Addr.any → op ≠ .reduce mca ifindex)
    (hsweep : op = .sweep → now ≤ a + 250) : Entry mca ifindex src (op.applyMap now m) a now := by
  obtain ⟨s, hs, h1, h2⟩ := h
  cases op with
  | keep => exact ⟨s, hs, h1, h2⟩
  | count dst len => exact ⟨s, hs, h1, h2⟩
  | refresh i joins => exact entry_joins (Nat.le_trans h1 h2) joins ⟨s, hs, h1, h2⟩
  | reduce g i =>
    refine ⟨s, ?_, h1, h2⟩
    rw [TableOp.applyMap, MemberMap.leave, if_neg ?_]
    · exact hs
    · rintro ⟨rfl, rfl, he⟩
      exact hop he rfl
  | sweep =>
    refine ⟨s, ?_, h1, h2⟩
    have hlive : ¬ Expired now s := by
      have := hsweep rfl
      unfold Expired
      omega
    simp only [TableOp.applyMap, MemberMap.expire, hs, not_deadTooLong_eq]
    simp [Option.filter, hlive]

end Entry

/-- A confirming event sets the entry to its own time. -/
theorem entry_confirms {h : Host} {st : Conf} {ev : Event} {mca : In6Addr} {ifindex : Nat}
    {src : In6Addr} (hc : Confirms h st ev mca ifindex src) (m : MemberMap) :
    Entry mca ifindex src ((tableOp h st ev).applyMap ev.now m) ev.now ev.now := by
  obtain ⟨joins, hop, j, hj, hm, mode, hrow, hni⟩ := hc
  rw [hop]
  exact entry_joins_hit hm hrow hni joins m hj

/-- No MLDv1 reduction for the group is delivered on the interface. -/
def NotReduced (mca : In6Addr) (ifindex : Nat) (h : Host) (st : Conf) (ev : Event) : Prop :=
  tableOp h st ev ≠ .reduce mca ifindex

/-- The subscription was confirmed in the 250 seconds before `now`: by an event of the list, or
before it, as the entry says. -/
def ConfirmedBefore (h : Host) (st : Conf) (es : List Event) (mca : In6Addr) (ifindex : Nat)
    (src : In6Addr) (now : Nat) : Prop :=
  (∃ s, membershipOf st.groups mca ifindex src = some s ∧ now ≤ s.refreshtime + 250) ∨
  ∃ pre e post, es = pre ++ e :: post ∧ Confirms h (run h st pre) e mca ifindex src ∧
    now ≤ e.now + 250

theorem clocked_append {t : Nat} {es fs : List Event} (h : Clocked t (es ++ fs)) :
    Clocked t es := by
  unfold Clocked at h ⊢
  rw [List.map_append, ← List.cons_append] at h
  exact (List.pairwise_append.mp h).1

/-- The last event of a list comes after the start and after all others. -/
theorem clocked_concat {t : Nat} {es : List Event} {e : Event} (h : Clocked t (es ++ [e])) :
    t ≤ e.now ∧ ∀ x ∈ es, x.now ≤ e.now := by
  unfold Clocked at h
  rw [List.map_append, ← List.cons_append] at h
  have hall := (List.pairwise_append.mp h).2.2
  refine ⟨hall t List.mem_cons_self e.now (by simp), fun x hx => ?_⟩
  exact hall x.now (List.mem_cons_of_mem _ (List.mem_map_of_mem hx)) e.now (by simp)

theorem confirmedBefore_concat {h : Host} {st : Conf} {es : List Event} {e : Event}
    {mca : In6Addr} {ifindex : Nat} {src : In6Addr} {now : Nat}
    (hc : ConfirmedBefore h st (es ++ [e]) mca ifindex src now) :
    ConfirmedBefore h st es mca ifindex src now ∨
      (Confirms h (run h st es) e mca ifindex src ∧ now ≤ e.now + 250) := by
  rcases hc with hc | ⟨pre, x, post, he, hconf, hn⟩
  · exact Or.inl (Or.inl hc)
  · rcases List.eq_nil_or_concat post with rfl | ⟨post', y, rfl⟩
    · obtain ⟨rfl, hx⟩ := List.append_inj' he rfl
      cases hx
      exact Or.inr ⟨hconf, hn⟩
    · have he' : es ++ [e] = (pre ++ x :: post') ++ [y] := by simpa using he
      obtain ⟨rfl, -⟩ := List.append_inj' he' rfl
      exact Or.inl (Or.inr ⟨pre, x, post', rfl, hconf, hn⟩)

/-- What holds of the entry after the events of a list: it is there, and it is as young as the
last confirmation says. -/
def EntryAfter (h : Host) (st : Conf) (es : List Event) (mca : In6Addr) (ifindex : Nat)
    (src : In6Addr) : Prop :=
  ∃ s, membershipOf (run h st es).groups mca ifindex src = some s ∧
    ∀ now, ConfirmedBefore h st es mca ifindex src now → now ≤ s.refreshtime + 250

/-- **The run lemma**: by induction on the events, from the last one. -/
theorem entryAfter_run {h : Host} {st : Conf} {t : Nat} (hok : TableOk (SubscrAt t) st.groups)
    {mca : In6Addr} {ifindex : Nat} {src : In6Addr}
    (hin : (membershipOf st.groups mca ifindex src).isSome) :
    ∀ es : List Event, Clocked t es →
    (src = In6Addr.any → Runs.StepsMeet (step h) (NotReduced mca ifindex h) st es) →
    (∀ pre now ifap post, es = pre ++ .timeout now ifap :: post →
      ConfirmedBefore h st pre mca ifindex src now) →
    EntryAfter h st es mca ifindex src := by
  intro es
  induction es using List.reverseRecOn with
  | nil =>
    intro _ _ _
    obtain ⟨s, hs⟩ := Option.isSome_iff_exists.mp hin
    refine ⟨s, hs, fun now hc => ?_⟩
    rcases hc with ⟨s', hs', hn⟩ | ⟨pre, e, post, he, -⟩
    · rw [hs] at hs'
      cases hs'
      exact hn
    · simp at he
  | append_singleton es e ih =>
    intro hclock hred hconf
    obtain ⟨hte, hle⟩ := clocked_concat hclock
    obtain ⟨s, hs, hyoung⟩ := ih (clocked_append hclock)
      (fun ha pre x post hx => hred ha pre x (post ++ [e]) (by simp [hx]))
      (fun pre now ifap post hx => hconf pre now ifap (post ++ [e]) (by simp [hx]))
    have hokes : TableOk (SubscrAt e.now) (run h st es).groups :=
      run_tableAt hok (clocked_append hclock) hte hle
    have hmap := step_membership h (run h st es) e hokes
    have hpast : s.refreshtime ≤ e.now := by
      have hmem := (membershipOf_eq_some hokes).mp hs
      unfold subscriptionsOf at hmem
      split at hmem
      · simp at hmem
      · rename_i g hg
        exact ((groupintFind_ok hokes hg).all s hmem.1).2
    have hentry : Entry mca ifindex src (membershipOf (run h st es).groups) s.refreshtime e.now :=
      ⟨s, hs, Nat.le_refl _, hpast⟩
    have hkeep : Entry mca ifindex src (membershipOf (step h (run h st es) e).groups)
        s.refreshtime e.now := by
      rw [hmap]
      refine entry_apply hentry (fun ha => hred ha es e [] rfl) fun hsweep => ?_
      -- the sweep is a timeout, and the entry was confirmed before it
      obtain ⟨now, ifap, rfl⟩ := eq_timeout_of_sweep hsweep
      exact hyoung now (hconf es now ifap [] rfl)
    obtain ⟨s', hs', hle1, hle2⟩ := hkeep
    rw [EntryAfter, show run h st (es ++ [e]) = step h (run h st es) e from Runs.run_concat st es e]
    refine ⟨s', hs', fun now hc => ?_⟩
    rcases confirmedBefore_concat hc with hc | ⟨hc, hn⟩
    · have := hyoung now hc
      omega
    · obtain ⟨s2, hs2, hge, -⟩ := entry_confirms hc (membershipOf (run h st es).groups)
      rw [← hmap, hs'] at hs2
      cases hs2
      omega

/-- **Live memberships are never lost.**  A timeout filters each list of subscriptions, and
removes a group-interface or a group only with nothing unexpired below it.  Along a run with a
clock that does not run backwards, a subscription that is confirmed in the 250 seconds before each
timeout stays, but for an MLDv1 reduction of its group on its interface, and that only concerns
the subscription to all sources. -/
theorem live_memberships_kept {h : Host} {st : Conf} {t : Nat} (hr : ReachableAt h st t) :
    (∀ now ifap mca ifindex, subscriptionsOf (timeout h now st ifap).groups mca ifindex
      = (subscriptionsOf st.groups mca ifindex).filter (fun s => decide (¬ Expired now s))) ∧
    (∀ now ifap, ∀ groupn ∈ st.groups.nodes,
      groupFind (timeout h now st ifap).groups groupn.mca = none →
      ∀ grpintn ∈ groupn.interfaces.nodes, ∀ s ∈ grpintn.subscriptions.nodes, Expired now s) ∧
    (∀ now ifap, ∀ groupn ∈ st.groups.nodes, ∀ grpintn ∈ groupn.interfaces.nodes,
      groupintFind (timeout h now st ifap).groups groupn.mca grpintn.ifindex = none →
      ∀ s ∈ grpintn.subscriptions.nodes, Expired now s) ∧
    (∀ es mca ifindex src, Clocked t es →
      (∃ s ∈ subscriptionsOf st.groups mca ifindex, s.ipv6 = src) →
      (src = In6Addr.any → Runs.StepsMeet (step h) (NotReduced mca ifindex h) st es) →
      (∀ pre now ifap post, es = pre ++ .timeout now ifap :: post →
        ConfirmedBefore h st pre mca ifindex src now) →
      ∃ s ∈ subscriptionsOf (run h st es).groups mca ifindex, s.ipv6 = src) := by
  have hok := reachableAt_tableOk hr
  have hgone : ∀ now ifap, ∀ groupn ∈ st.groups.nodes, ∀ grpintn ∈ groupn.interfaces.nodes,
      groupintFind (timeout h now st ifap).groups groupn.mca grpintn.ifindex = none →
      ∀ s ∈ grpintn.subscriptions.nodes, Expired now s := by
    intro now ifap groupn hg grpintn hi hnone s hs
    rw [timeout_groups] at hnone
    rw [groupintFind_sweep_none now hok (groupintFind_of_mem hok hg hi) hnone] at hs
    simp at hs
  refine ⟨fun now ifap mca ifindex => ?_, fun now ifap groupn hg hnone grpintn hi => ?_, hgone, ?_⟩
  · rw [timeout_groups]
    exact subscriptionsOf_sweep now hok mca ifindex
  · refine hgone now ifap groupn hg grpintn hi ?_
    rw [groupintFind, hnone]
  · rintro es mca ifindex src hclock ⟨s, hs, hsrc⟩ hred hconf
    have hin : (membershipOf st.groups mca ifindex src).isSome := by
      rw [(membershipOf_eq_some hok).mpr ⟨hs, hsrc⟩]
      rfl
    obtain ⟨s', hs', -⟩ := entryAfter_run hok hin es hclock hred hconf
    have hokrun := run_tableOk (h := h) (hok.imp fun _ hv => hv.1) es
    exact ⟨s', (membershipOf_eq_some hokrun).mp hs'⟩

/-- The daemon after one MLDv1 report, at time 0. -/
def stateAfterJoin : Conf :=
  run (quietHost .little) (boot (quietHost .little) plainOptions 0 none)
    [.frame 0 (mldFrame 1 mld1JoinMessage)]

theorem stateAfterJoin_reachable : ReachableAt (quietHost .little) stateAfterJoin 0 :=
  ⟨plainOptions, 0, none, [.frame 0 (mldFrame 1 mld1JoinMessage)], by decide, by decide,
    Nat.le_refl 0, rfl⟩

/-- A timeout 200 seconds later keeps the subscription of that report. -/
theorem join_kept_200 : ∃ s ∈ subscriptionsOf
    (run (quietHost .little) stateAfterJoin [.timeout 200 none]).groups siteGroup 1,
    s.ipv6 = In6Addr.any := by
  refine (live_memberships_kept stateAfterJoin_reachable).2.2.2 [.timeout 200 none] siteGroup 1
    In6Addr.any (by decide) (by decide +kernel) (fun _ pre e post he => ?_) ?_
  · have hmem : e ∈ [Event.timeout 200 none] := by rw [he]; simp
    rw [List.mem_singleton.mp hmem]
    simp [NotReduced, tableOp]
  · intro pre now ifap post he
    have hpre : pre = [] := by
      cases pre with
      | nil => rfl
      | cons x pre => simp at he
    subst hpre
    cases he
    exact Or.inl ⟨⟨In6Addr.any, mld2ModeIsInclude, 0⟩, by decide +kernel, by decide⟩

/-! ## 3. What is never removed

Without reports and reductions nothing sets the mark any more, and only a marked group-interface
is removed. -/

/-- Every group-interface of the table is marked. -/
def AllMarked (groups : Groups) : Prop :=
  ∀ groupn ∈ groups.nodes, ∀ grpintn ∈ groupn.interfaces.nodes, Marked grpintn

/-- No MLD report and no reduction is taken in. -/
def Quiet (h : Host) (st : Conf) (ev : Event) : Prop :=
  tableOp h st ev = .keep ∨ (∃ dst len, tableOp h st ev = .count dst len) ∨
    tableOp h st ev = .sweep

/-- `timeout`. -/
def Event.isTimeout : Event → Bool
  | .timeout _ _ => true
  | _ => false

/-- The time is more than 250 seconds after every refresh in the table. -/
def Late (groups : Groups) (now : Nat) : Prop :=
  ∀ groupn ∈ groups.nodes, ∀ grpintn ∈ groupn.interfaces.nodes,
    ∀ s ∈ grpintn.subscriptions.nodes, s.refreshtime + 250 < now

instance (groups : Groups) : Decidable (AllMarked groups) :=
  inferInstanceAs (Decidable (∀ groupn ∈ groups.nodes, ∀ grpintn ∈ groupn.interfaces.nodes,
    Marked grpintn))

instance (groups : Groups) (now : Nat) : Decidable (Late groups now) :=
  inferInstanceAs (Decidable (∀ groupn ∈ groups.nodes, ∀ grpintn ∈ groupn.interfaces.nodes,
    ∀ s ∈ grpintn.subscriptions.nodes, s.refreshtime + 250 < now))

/-- Three timeouts, late enough and with no report in between, empty the table. -/
def DiesOut (h : Host) (st : Conf) : Prop :=
  ∀ es : List Event, Runs.StepsMeet (step h) (Quiet h) st es →
    3 ≤ es.countP Event.isTimeout →
    (∀ now ifap, Event.timeout now ifap ∈ es → Late st.groups now) →
    (run h st es).groups.nodes = []

/-- An unmarked group-interface is there after every operation that takes in no report, and is
unmarked. -/
theorem unmarked_apply {now : Nat} {op : TableOp} {groups : Groups} (hok : TableOk P groups)
    (hq : op = .keep ∨ (∃ dst len, op = .count dst len) ∨ op = .sweep) {mca : In6Addr}
    {ifindex : Nat} (hu : ∃ g, groupintFind groups mca ifindex = some g ∧ ¬ Marked g) :
    ∃ g, groupintFind (op.apply now groups) mca ifindex = some g ∧ ¬ Marked g := by
  obtain ⟨g, hg, hm⟩ := hu
  rcases hq with rfl | ⟨dst, len, rfl⟩ | rfl
  · exact ⟨g, hg, hm⟩
  · refine ⟨g, ?_, hm⟩
    rw [TableOp.apply, groupintFind_setGroup groups dst (f := countGroup len) (fun _ => rfl)
      fun _ => rfl]
    exact hg
  · rw [TableOp.apply, groupintFind_sweep now hok, hg, Option.bind_some]
    rcases timeoutGrpint_cases now (groupintFind_ok hok hg) with ⟨hm', -⟩ | ⟨-, g', hg', hm', -⟩
    · exact absurd hm' hm
    · exact ⟨g', hg', hm'⟩

theorem unmarked_run {h : Host} {mca : In6Addr} {ifindex : Nat} :
    ∀ (es : List Event) {st : Conf}, TableOk ValidSubscr st.groups →
    Runs.StepsMeet (step h) (Quiet h) st es →
    (∃ g, groupintFind st.groups mca ifindex = some g ∧ ¬ Marked g) →
    ∃ g, groupintFind (run h st es).groups mca ifindex = some g ∧ ¬ Marked g := by
  intro es
  induction es with
  | nil => exact fun _ _ hu => hu
  | cons e es ih =>
    intro st hok hq hu
    obtain ⟨hq0, hq⟩ := Runs.stepsMeet_cons.mp hq
    have hstep : TableOk ValidSubscr (step h st e).groups := step_tableOk e hok fun _ hv _ => hv
    refine ih hstep hq ?_
    rw [step_groups]
    exact unmarked_apply hok hq0 hu

theorem quiet_timeouts {h : Host} {st : Conf} {es : List Event}
    (hes : ∀ e ∈ es, e.isTimeout = true) : Runs.StepsMeet (step h) (Quiet h) st es := by
  rintro pre e post rfl
  cases e with
  | timeout now ifap => exact Or.inr (Or.inr rfl)
  | _ =>
    have := hes _ (List.mem_append_right _ List.mem_cons_self)
    simp [Event.isTimeout] at this

/-- Where everything is marked, a sweep leaves nothing. -/
theorem sweep_of_allMarked (now : Nat) {groups : Groups} (hok : TableOk P groups)
    (hm : AllMarked groups) : (listLoop2 (timeoutGroup now) groups).nodes = [] := by
  rw [listLoop2_nodes, List.filterMap_eq_nil_iff]
  intro groupn hg
  have hnil : groupn.interfaces.nodes.filterMap (timeoutGrpint now) = [] := by
    rw [List.filterMap_eq_nil_iff]
    intro grpintn hi
    rcases timeoutGrpint_cases now ((hok.all groupn hg).all grpintn hi) with ⟨-, hn⟩ | ⟨hno, -⟩
    · exact hn
    · exact absurd (hm groupn hg grpintn hi) hno
  unfold timeoutGroup
  dsimp only
  rw [if_pos]
  rw [listLoop2_count, hnil, (hok.all groupn hg).count]
  simp

/-- An empty table stays empty where no report is taken in. -/
theorem empty_run {h : Host} : ∀ (es : List Event) {st : Conf}, st.groups.nodes = [] →
    Runs.StepsMeet (step h) (Quiet h) st es → (run h st es).groups.nodes = [] := by
  intro es
  induction es with
  | nil => exact fun hn _ => hn
  | cons e es ih =>
    intro st hn hq
    obtain ⟨hq0, hq⟩ := Runs.stepsMeet_cons.mp hq
    refine ih ?_ hq
    rw [step_groups]
    rcases hq0 with hop | ⟨dst, len, hop⟩ | hop
    · rw [hop]
      exact hn
    · rw [hop, TableOp.apply, setGroup, hn]
      rfl
    · rw [hop, TableOp.apply, listLoop2_nodes, hn]
      rfl

theorem not_isTimeout {h : Host} {st : Conf} {e : Event} (hop : tableOp h st e ≠ .sweep) :
    ¬ e.isTimeout = true := by
  cases e with
  | timeout now ifap => exact absurd rfl hop
  | _ => simp [Event.isTimeout]

/-- Where everything is marked, the first timeout empties the table. -/
theorem marked_run {h : Host} : ∀ (es : List Event) {st : Conf}, TableOk ValidSubscr st.groups →
    AllMarked st.groups → Runs.StepsMeet (step h) (Quiet h) st es →
    1 ≤ es.countP Event.isTimeout → (run h st es).groups.nodes = [] := by
  intro es
  induction es with
  | nil => exact fun _ _ _ hk => absurd hk (by simp)
  | cons e es ih =>
    intro st hok hm hq hk
    obtain ⟨hq0, hq⟩ := Runs.stepsMeet_cons.mp hq
    have hstep : TableOk ValidSubscr (step h st e).groups := step_tableOk e hok fun _ hv _ => hv
    have hgroups := step_groups h st e
    -- neither of the two other operations is that of a timeout
    have hrest : tableOp h st e ≠ .sweep → 1 ≤ es.countP Event.isTimeout := by
      intro hop
      rwa [List.countP_cons, if_neg (not_isTimeout hop)] at hk
    rcases hq0 with hop | ⟨dst, len, hop⟩ | hop
    · rw [hop] at hgroups
      exact ih hstep (by rw [hgroups]; exact hm) hq (hrest (by rw [hop]; simp))
    · rw [hop, TableOp.apply] at hgroups
      refine ih hstep ?_ hq (hrest (by rw [hop]; simp))
      rw [hgroups]
      exact KeyedList.forall_mem_adjust hm fun g hg _ => hm g hg
    · refine empty_run es ?_ hq
      rw [hgroups, hop]
      exact sweep_of_allMarked e.now hok hm

/-- There is always a time that is late enough. -/
theorem exists_late (groups : Groups) : ∃ now, Late groups now := by
  let times := groups.nodes.flatMap fun g => g.interfaces.nodes.flatMap fun i =>
    i.subscriptions.nodes.map SubscrNode.refreshtime
  refine ⟨times.max?.getD 0 + 251, fun g hg i hi s hs => ?_⟩
  have hmem : s.refreshtime ∈ times :=
    List.mem_flatMap.mpr ⟨g, hg, List.mem_flatMap.mpr ⟨i, hi, List.mem_map_of_mem hs⟩⟩
  have : s.refreshtime ≤ times.max?.getD 0 := List.le_max?_getD_of_mem hmem
  omega

/-- **Dead memberships are removed exactly where a reduction has marked them.**  Without further
reports, three late timeouts empty the table if and only if every group-interface in it is empty
with the counter at `-2`. -/
theorem diesOut_iff_marked {h : Host} {st : Conf} (hr : Reachable h st) :
    DiesOut h st ↔ AllMarked st.groups := by
  have hok := reachable_tableOk hr
  constructor
  · intro hdies groupn hg grpintn hi
    by_contra hm
    obtain ⟨now, hlate⟩ := exists_late st.groups
    have hquiet : Runs.StepsMeet (step h) (Quiet h) st (List.replicate 3 (.timeout now none)) :=
      quiet_timeouts fun e he => by rw [List.eq_of_mem_replicate he]; rfl
    have hnil := hdies _ hquiet (Nat.le_refl 3) (fun now' ifap hmem => by
      have := List.eq_of_mem_replicate hmem
      cases this
      exact hlate)
    obtain ⟨g, hfound, -⟩ := unmarked_run _ hok hquiet
      ⟨grpintn, groupintFind_of_mem hok hg hi, hm⟩
    rw [groupintFind, groupFind, hnil] at hfound
    simp at hfound
  · intro hm es hq hk _
    exact marked_run es hok hm hq (by omega)

/-- The daemon after that report and the reduction for it. -/
def stateAfterDone : Conf :=
  run (quietHost .little) stateAfterJoin [.frame 1 (mldFrame 1 mld1DoneMessage)]

theorem stateAfterDone_reachable : Reachable (quietHost .little) stateAfterDone := by
  refine ⟨plainOptions, 0, none, [.frame 0 (mldFrame 1 mld1JoinMessage)] ++
    [.frame 1 (mldFrame 1 mld1DoneMessage)], ?_⟩
  rw [run, Runs.run_append]
  rfl

theorem stateAfterJoin_groups : stateAfterJoin.groups =
    (TableOp.refresh 1 [⟨siteGroup, [(In6Addr.any, mld2ModeIsInclude)]⟩]).apply 0 listNew := by
  have hop : tableOp (quietHost .little) (boot (quietHost .little) plainOptions 0 none)
      (.frame 0 (mldFrame 1 mld1JoinMessage))
      = .refresh 1 [⟨siteGroup, [(In6Addr.any, mld2ModeIsInclude)]⟩] := by decide +kernel
  rw [stateAfterJoin, run, Runs.run_cons, Runs.run_nil, step_groups, boot_groups, hop]
  rfl

theorem stateAfterDone_groups : stateAfterDone.groups =
    (TableOp.reduce siteGroup 1).apply 1 stateAfterJoin.groups := by
  have hop : tableOp (quietHost .little) stateAfterJoin (.frame 1 (mldFrame 1 mld1DoneMessage))
      = .reduce siteGroup 1 := by decide +kernel
  rw [stateAfterDone, run, Runs.run_cons, Runs.run_nil, step_groups, hop]
  rfl

/-- The reduction has marked the group-interface, and three timeouts remove it. -/
theorem reduced_group_dies : DiesOut (quietHost .little) stateAfterDone :=
  (diesOut_iff_marked stateAfterDone_reachable).mpr
    (by rw [stateAfterDone_groups, stateAfterJoin_groups]; decide +kernel)

/-- The listener falls silent, and its group stays. -/
theorem silent_group_stays : ¬ DiesOut (quietHost .little) stateAfterJoin := by
  intro hdies
  refine absurd (hdies [.timeout 1000 none, .timeout 2000 none, .timeout 3000 none]
    (quiet_timeouts (by decide)) (by decide) ?_) (by decide +kernel)
  intro now ifap hmem
  have hnow : now = 1000 ∨ now = 2000 ∨ now = 3000 := by
    simp at hmem
    omega
  rcases hnow with rfl | rfl | rfl
  · decide +kernel
  · decide +kernel
  · decide +kernel

end Ecmh
