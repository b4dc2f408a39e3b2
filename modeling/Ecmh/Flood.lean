/-
# How a group spreads over a network

Any number of daemons with interfaces on links, and the packets that were sent on each link.  A
packet stays on its link: it may be delivered any number of times, to every daemon with an interface
there, in any order and late, and other packets may be put there by anybody.  Between the deliveries
anything else may happen to a daemon.

What a daemon is told of on one link it announces on the others, and is told of in turn by the
announcements of its neighbours, which may come back to the link where they began.
`groups_come_from_outside` says that all of it leads back to a packet that no daemon made as a query
or an MLDv1 report, over daemons that were told of the group and passed it on, each after the one
before.
-/
import Ecmh.Create
import Ecmh.Lib.Spread
import Ecmh.OwnAddress
import Ecmh.Primitive
import Ecmh.Swallowed
import Ecmh.Understood
import Mathlib.Logic.Function.Basic

namespace Ecmh

open ByteMem

/-! ## 1. What a message says of a group -/

/-- The message is a report that names the group, and is not ignored for its scope. -/
def Message.Names (e : Endian) (g : In6Addr) : Message → Prop
  | .mld1Report mld1 => mld1Mca mld1 = g ∧ mld1Ignores g = false
  | .mld2Report mld2r plen => ∃ r ∈ mld2Records e mld2r plen, r.mca = g
  | _ => False

/-- The frame brings such a message to the daemon. -/
def Frame.Names (f : Frame) (h : Host) (now : Nat) (st : Conf) (g : In6Addr) : Prop :=
  ∃ st1 i, f.Enters now st st1 i ∧
    (l3Message h.endian (st1.intn i) f.buffer (min f.len bufferlen)).Names h.endian g

/-- The group has a group-interface for the interface. -/
def InGroup (st : Conf) (i : Nat) (g : In6Addr) : Prop := (groupintFind st.groups g i).isSome

theorem inGroup_of_hasGrpint {st : Conf} (hok : TableOk ValidSubscr st.groups) {i : Nat}
    {g : In6Addr} (hg : HasGrpint st.groups i g) : InGroup st i g := by
  obtain ⟨groupn, hgroupn, rfl, grpintn, hgrpintn, rfl⟩ := hg
  have hfind : groupFind st.groups groupn.mca = some groupn :=
    KeyedList.find_of_mem hok.unique hgroupn
  have hfindi : grpintFind groupn.interfaces grpintn.ifindex = some grpintn :=
    KeyedList.find_of_mem (hok.all groupn hgroupn).unique hgrpintn
  rw [InGroup, groupintFind, hfind]
  dsimp only
  rw [hfindi]
  rfl

/-! ## 2. What a message does to the table -/

section Table

variable {P : SubscrNode → Prop} {now : Nat} {groups : Groups} {g : In6Addr} {i : Nat}

theorem groupintFind_joinTables (ifindex : Nat) : ∀ (joins : List Join) (groups : Groups),
    (groupintFind (joins.foldl (joinTable now ifindex) groups) g i).isSome →
    (groupintFind groups g i).isSome ∨ (i = ifindex ∧ ∃ j ∈ joins, j.mca = g)
  | [], _, hg => Or.inl hg
  | j :: joins, groups, hg => by
    rcases groupintFind_joinTables ifindex joins (joinTable now ifindex groups j) hg with
      hg | ⟨hi, j', hj', hm⟩
    · by_cases hnew : g = j.mca ∧ i = ifindex
      · exact Or.inr ⟨hnew.2, j, List.mem_cons_self, hnew.1.symm⟩
      · rw [joinTable, groupintFind_setGroupint _ _ _ (refreshRows_ifindex now j.rows), if_neg hnew,
          groupintFind_groupintGet, if_neg hnew] at hg
        exact Or.inl hg
    · exact Or.inr ⟨hi, j', List.mem_cons_of_mem j hj', hm⟩

/-- Only a report makes a group-interface, and for a group that it names. -/
theorem groupintFind_apply (hok : TableOk P groups) (op : TableOp)
    (hg : (groupintFind (op.apply now groups) g i).isSome) :
    (groupintFind groups g i).isSome ∨ ∃ joins, op = .refresh i joins ∧ ∃ j ∈ joins, j.mca = g := by
  cases op with
  | keep => exact Or.inl hg
  | count dst len =>
    rw [TableOp.apply, groupintFind_setGroup (f := countGroup len) groups dst (fun _ => rfl)
      (fun _ => rfl)] at hg
    exact Or.inl hg
  | refresh ifindex joins =>
    rcases groupintFind_joinTables ifindex joins groups hg with hold | ⟨rfl, hj⟩
    · exact Or.inl hold
    · exact Or.inr ⟨joins, rfl, hj⟩
  | reduce mca ifindex =>
    rw [TableOp.apply, groupintFind_setGroupint _ _ _ reduceGrpint_ifindex] at hg
    split at hg
    · rename_i heq
      rw [Option.isSome_map] at hg
      rw [heq.1, heq.2]
      exact Or.inl hg
    · exact Or.inl hg
  | sweep =>
    rw [TableOp.apply, groupintFind_sweep now hok] at hg
    cases hfind : groupintFind groups g i with
    | none =>
      rw [hfind] at hg
      cases hg
    | some grpintn => exact Or.inl rfl

/-- The records that a report joins are among those that it names. -/
theorem joins_named {rs : List GrecSeen} {j : Join} (hj : j ∈ rs.filterMap GrecSeen.join) :
    ∃ r ∈ rs, r.mca = j.mca := by
  obtain ⟨r, hr, hjoin⟩ := List.mem_filterMap.mp hj
  unfold GrecSeen.join at hjoin
  split at hjoin
  · cases hjoin
  · rw [Option.some.injEq] at hjoin
    exact ⟨r, hr, by rw [← hjoin]⟩

/-- A message that makes a group-interface names its group. -/
theorem Message.names_of_op {m : Message} {e : Endian} {ifindex len : Nat} {joins : List Join}
    (hop : m.op e ifindex len = .refresh i joins) (hg : ∃ j ∈ joins, j.mca = g) :
    i = ifindex ∧ m.Names e g := by
  obtain ⟨j, hj, rfl⟩ := hg
  have hmulticast : ∀ iph : Mem, multicastOp iph len ≠ .refresh i joins := by
    intro iph
    unfold multicastOp
    split <;> simp
  cases m with
  | mld1Report mld1 =>
    simp only [Message.op] at hop
    split at hop
    · cases hop
    · rename_i hnot
      cases hop
      rw [List.mem_singleton.mp hj]
      exact ⟨rfl, rfl, Bool.eq_false_iff.mpr hnot⟩
  | mld2Report mld2r plen =>
    simp only [Message.op, mld2Op] at hop
    split at hop
    · cases hop
    · rename_i hroom
      cases hop
      obtain ⟨r, hr, hm⟩ := joins_named hj
      refine ⟨rfl, r, ?_, hm⟩
      rw [mld2Records, if_neg hroom]
      exact hr
  | mld1Reduction mld1 =>
    simp only [Message.op] at hop
    split at hop <;> cases hop
  | data iph => exact absurd hop (hmulticast iph)
  | echo iph => exact absurd hop (hmulticast iph)
  | dropped => cases hop
  | ignored => cases hop
  | exceeded => cases hop
  | echoExceeded iph off plen => cases hop
  | query plen => cases hop

end Table

/-- A frame that enters does so on the interface that it says, which is in use then; the others are
as they were. -/
theorem Frame.Enters.created {f : Frame} {now : Nat} {st st1 : Conf} {i : Nat}
    (hin : f.Enters now st st1 i) : i = f.ifindex ∧ (st1.intn i).mtu ≠ 0 ∧
      ∀ k, k ≠ i → (st1.intn k).mtu = (st.intn k).mtu := by
  have hf := hin.interface
  unfold frameInterface at hf
  split at hf
  · rename_i hfind
    cases hf
    obtain ⟨rfl, -, hmtu⟩ := intFind_eq_some.mp hfind
    exact ⟨rfl, hmtu, fun _ _ => rfl⟩
  · have hcreated := intCreate_created (countReceived st (min f.len bufferlen)) f.ifindex f.probe
    split at hf
    · cases hf
    · rename_i st' i' heq
      rw [heq] at hcreated
      cases hf
      obtain rfl : i = f.ifindex := by
        rcases hcreated.returned with hr | hr
        · exact Option.some.inj hr
        · cases hr
      have hmtu : (st'.intn f.ifindex).mtu ≠ 0 :=
        Nat.ne_of_gt (Nat.lt_of_lt_of_le (by decide) (hcreated.inUse rfl).2.1)
      have hothers : ∀ k, k ≠ f.ifindex → (st'.intn k).mtu = (st.intn k).mtu :=
        fun k hk => congrArg IntNode.mtu (hcreated.others k hk)
      unfold updateInterfaces
      split
      · exact ⟨rfl, hmtu, hothers⟩
      · dsimp only
        split
        · exact ⟨rfl, hmtu, hothers⟩
        · have hscan : ∀ (l : List IfAddr) (s : ScanLoop) (k : Nat),
              ((scanSpecific f.ifindex s l).intn k).mtu = (s.st.intn k).mtu :=
            fun l s k => scanSpecific_field IntNode.mtu (fun _ _ => rfl) (fun _ _ => rfl) _ k l s
          refine ⟨rfl, ?_, fun k hk => ?_⟩
          · rw [hscan]
            exact hmtu
          · rw [hscan]
            exact hothers k hk

/-- The state in which a frame that entered is dissected. -/
theorem Frame.Enters.counted {f : Frame} {now : Nat} {st st1 : Conf} {i : Nat} (hok : IntsOk st)
    (hin : f.Enters now st st1 i) (len : Nat) : i = f.ifindex ∧
      IntsOk (countIntReceived st1 i len) ∧ ((countIntReceived st1 i len).intn i).mtu ≠ 0 ∧
      ∀ k, k ≠ i → ((countIntReceived st1 i len).intn k).mtu = (st.intn k).mtu := by
  obtain ⟨hi, hmtu, hothers⟩ := hin.created
  have hok1 : IntsOk st1 := by
    have hcounted : IntsOk (countReceived st (min f.len bufferlen)) := ⟨hok.slot, hok.mtu⟩
    have h := frameInterface_intsOk now hcounted f
    rwa [hin.interface] at h
  have hcount : ∀ k, ((countIntReceived st1 i len).intn k).mtu = (st1.intn k).mtu := by
    intro k
    obtain ⟨p, b, hpb⟩ := countIntReceived_intn st1 i len k
    rw [hpb]
  refine ⟨hi, (countIntReceived_keepsInts st1 i len).intsOk hok1, ?_, fun k hk => ?_⟩
  · rw [hcount]
    exact hmtu
  · rw [hcount]
    exact hothers k hk

/-- **A group-interface that a step makes** is for the interface of a frame that names the group. -/
theorem step_inGroup {h : Host} {st : Conf} (hok : TableOk ValidSubscr st.groups)
    (hints : IntsOk st) {ev : Event} {i : Nat} {g : In6Addr} (hg : InGroup (step h st ev) i g) :
    InGroup st i g ∨ ∃ now f, ev = .frame now f ∧ i = f.ifindex ∧ f.Names h now st g := by
  by_cases hold : InGroup st i g
  · exact Or.inl hold
  · right
    cases ev with
    | frame now f =>
      have hstep : step h st (.frame now f) = handleinterfaces h now st f := rfl
      rw [hstep] at hg
      rcases frame_cases h now st f with ⟨st1, s, hin, heq⟩ | ⟨-, -, hgroups⟩
      · obtain ⟨rfl, hok1, hmtu, -⟩ := hin.counted hints (min f.len bufferlen)
        have hgroups1 : (countIntReceived st1 f.ifindex (min f.len bufferlen)).groups = st.groups :=
          hin.groups
        rw [InGroup, heq, handle_groups, hgroups1, hok1.slot _ hmtu] at hg
        rcases groupintFind_apply hok _ hg with hold' | ⟨joins, hop, hj⟩
        · exact absurd hold' hold
        · obtain ⟨rfl, hnames⟩ := Message.names_of_op hop hj
          exact ⟨now, f, rfl, rfl, st1, _, hin, hnames⟩
      · rw [InGroup, hgroups] at hg
        exact absurd hg hold
    | _ =>
      rw [InGroup, step_groups] at hg
      rcases groupintFind_apply hok _ hg with hold' | ⟨joins, hop, -⟩
      · exact absurd hold' hold
      · cases hop

/-! ## 3. What is sent for a message -/

/-- The MLDv1 reports among the packets are about groups that the message names, on other interfaces
in use, or about groups of the interface itself, there. -/
def Because (names : In6Addr → Prop) (st : Conf) (i : Nat) (x : Sent) : Prop :=
  ∀ g, x.sender = .mld1SendReport g →
    (names g ∧ x.ifindex ≠ i ∧ (st.intn x.ifindex).mtu ≠ 0) ∨ (x.ifindex = i ∧ InGroup st i g)

theorem because_of_ne {names : In6Addr → Prop} {st : Conf} {i : Nat} {x : Sent}
    (hx : ∀ g, x.sender ≠ .mld1SendReport g) : Because names st i x :=
  fun g hg => absurd hg (hx g)

section Because

variable {h : Host} {now i : Nat} (st : Conf) {names : In6Addr → Prop}

theorem mldSendReportAll_because (hints : IntsOk st) (hmtu : (st.intn i).mtu ≠ 0) {a s : Conf}
    (hok : TableOk ValidSubscr s.groups) (hsent : s.sent = a.sent) (hk : KeepsInts st s)
    {mca : In6Addr} (hnames : names mca) :
    AllSent (Because names st i) a (mldSendReportAll h s i mca) := by
  refine ((mldSendReportAll_for h hok i mca).congr hsent.symm rfl).mono ?_
  rintro x ⟨j, ⟨hj, hne⟩, hfor⟩ g hg
  rcases hfor.sender with ⟨hsender, -⟩ | ⟨recs, hsender, -, -⟩
  · rw [hsender] at hg
    cases hg
    have hj' : (st.intn j).mtu ≠ 0 := by rwa [← (hk j).2.resolve_right hj]
    have hx : x.ifindex = j := by rw [hfor.ifindex, (hk j).1, hints.slot j hj']
    rw [(hk i).1, (hk j).1, hints.slot i hmtu, hints.slot j hj'] at hne
    rw [hx]
    exact Or.inl ⟨hnames, fun hc => hne hc.symm, hj'⟩
  · rw [hsender] at hg
    cases hg

theorem mld1Report_because (hok : TableOk ValidSubscr st.groups) (hints : IntsOk st)
    (hmtu : (st.intn i).mtu ≠ 0) (mld1 : Mem)
    (hnames : mld1Ignores (mld1Mca mld1) = false → names (mld1Mca mld1)) :
    AllSent (Because names st i) st (l4Ipv6Icmpv6Mld1Report h now st i mld1) := by
  have hv := intSetMldVersion_handles now st i 1
  have hsent := intSetMldVersion_sent now st i 1
  have hgroups := intSetMldVersion_groups now st i 1
  unfold l4Ipv6Icmpv6Mld1Report
  dsimp only
  generalize intSetMldVersion now st i 1 = s at hv hsent hgroups
  have hok' : TableOk ValidSubscr s.groups := hgroups ▸ hok
  split
  · exact .of_eq hsent
  · rename_i hnot
    split
    · exact mldSendReportAll_because st hints hmtu (s := s.setGroups
        (joinTable now (s.intn i).ifindex s.groups (mld1Join (mld1Mca mld1))))
        (mld1Join_ok hok' _ _) hsent hv.keepsInts (hnames (Bool.eq_false_iff.mpr hnot))
    · exact .of_eq hsent

/-- The records are gone through one after the other, and each is announced on its own account. -/
theorem mld2Report_because (hok : TableOk ValidSubscr st.groups) (hints : IntsOk st)
    (hmtu : (st.intn i).mtu ≠ 0) (mld2r : Mem) (plen : Nat)
    (hnames : ∀ r ∈ mld2Records h.endian mld2r plen, names r.mca) :
    AllSent (Because names st i) st (l4Ipv6Icmpv6Mld2Report h now st i mld2r plen).st := by
  have hv := intSetMldVersion_handles now st i 2
  have hsent := intSetMldVersion_sent now st i 2
  have hgroups := intSetMldVersion_groups now st i 2
  rw [mld2Report_run]
  generalize intSetMldVersion now st i 2 = s at hv hsent hgroups
  have hok' : TableOk ValidSubscr s.groups := hgroups ▸ hok
  refine AllSent.congr (a := s) ?_ hsent.symm rfl
  refine (allSent_run_iff (P := Because names st i) (I := AtRecord s)
    (Q := fun a r => AllSent (Because names st i) a.1 (grecStep h now i a r).1) Prod.fst
    (fun a r ha => ⟨ha.step r, (grecStep_sendsMld h now i a r).mono fun _ _ => trivial⟩)
    (fun _ _ _ => Iff.rfl) _ _ (.start hok' false)).mpr ?_
  intro pre r post he
  have hat : AtRecord s (Runs.run (grecStep h now i) (s, false) pre) := atRecord_run hok' pre
  have hr : r ∈ mld2Records h.endian mld2r plen := by simp [he]
  have hnext : TableOk ValidSubscr
      (grecStep h now i (Runs.run (grecStep h now i) (s, false) pre) r).1.groups :=
    (hat.step r).table
  rw [grecStep_groups] at hnext
  generalize Runs.run (grecStep h now i) (s, false) pre = a at hat hnext
  simp only [grecStep]
  split
  · exact mldSendReportAll_because st hints hmtu (s := a.1.setGroups _) hnext rfl
      (hv.keepsInts.trans hat.keepsInts) (hnames r hr)
  · exact .of_eq rfl

theorem query_because (hok : TableOk ValidSubscr st.groups) (hints : IntsOk st)
    (hmtu : (st.intn i).mtu ≠ 0) (plen : Nat) :
    AllSent (Because names st i) st (l4Ipv6Icmpv6MldQuery h now st i plen) := by
  have hv := intSetMldVersion_handles now st i (queryVersion plen)
  have hsent := intSetMldVersion_sent now st i (queryVersion plen)
  have hgroups := intSetMldVersion_groups now st i (queryVersion plen)
  rw [mldQuery_eq]
  generalize intSetMldVersion now st i (queryVersion plen) = s at hv hsent hgroups
  have hok' : TableOk ValidSubscr s.groups := hgroups ▸ hok
  have hindex : (s.intn i).ifindex = i := (hv.ifindex i).trans (hints.slot i hmtu)
  unfold queryAnswer
  split
  · refine ((mld1Answer_for hok').congr hsent.symm rfl).mono ?_
    rintro x ⟨g', hg', hfor⟩ g hg
    rcases hfor.sender with ⟨hsender, -⟩ | ⟨recs, hsender, -, -⟩
    · rw [hsender] at hg
      cases hg
      rw [hindex, hgroups] at hg'
      exact Or.inr ⟨hfor.ifindex.trans hindex, inGroup_of_hasGrpint hok hg'⟩
    · rw [hsender] at hg
      cases hg
  · split
    · obtain ⟨new, hnew, -, hall⟩ := mld2SendReport_sent h s i none
      refine AllSent.congr ⟨new, hnew, fun x hx => because_of_ne fun g hg => ?_⟩ hsent.symm rfl
      obtain ⟨⟨recs, -, hsender⟩, -⟩ := hall x hx
      rw [hsender] at hg
      cases hg
    · exact .of_eq hsent

/-- **What is said in MLDv1 on the receipt of a message.** -/
theorem handle_because (hok : TableOk ValidSubscr st.groups) (hints : IntsOk st)
    (hmtu : (st.intn i).mtu ≠ 0) (len : Nat) (m : Message) :
    AllSent (Because (fun g => m.Names h.endian g) st i) st (m.handle h now st i len) := by
  have hsent : (countIcmpReceived st i).sent = st.sent := rfl
  have hcount : ∀ k, ((countIcmpReceived st i).intn k).mtu = (st.intn k).mtu ∧
      ((countIcmpReceived st i).intn k).ifindex = (st.intn k).ifindex := by
    intro k
    obtain ⟨n, hn⟩ := countIcmpReceived_intn st i k
    rw [hn]
    exact ⟨rfl, rfl⟩
  have hk : KeepsInts st (countIcmpReceived st i) := fun k => ⟨(hcount k).2, Or.inl (hcount k).1⟩
  have hints' : IntsOk (countIcmpReceived st i) := hk.intsOk hints
  have hmtu' : ((countIcmpReceived st i).intn i).mtu ≠ 0 := by rwa [(hcount i).1]
  have hback : ∀ {names : In6Addr → Prop} {x : Sent},
      Because names (countIcmpReceived st i) i x → Because names st i x := by
    intro names x hx g hg
    have hb := hx g hg
    rwa [(hcount _).1] at hb
  have hother : ∀ m : Message, (∀ x, m.Sends h st i len x → ∀ g, x.sender ≠ .mld1SendReport g) →
      AllSent (Because (fun g => m.Names h.endian g) st i) st (m.handle h now st i len) :=
    fun m hm => (handle_sends h now st i len m).mono fun x hx => because_of_ne (hm x hx)
  cases m with
  | dropped => exact .refl st
  | ignored => exact .of_eq hsent
  | exceeded => exact .of_eq rfl
  | data iph => exact hother _ fun x hx g => by rw [hx.1]; simp
  | echoExceeded iph off plen => exact hother _ fun x hx g => by rw [hx.1]; simp
  | echo iph => exact hother _ fun x hx g => by rw [hx.1]; simp
  | mld1Report mld1 =>
    exact ((mld1Report_because (countIcmpReceived st i) hok hints' hmtu' mld1
      fun hnot => ⟨rfl, hnot⟩).congr hsent.symm rfl).mono fun _ hx => hback hx
  | mld1Reduction mld1 =>
    refine ((mld1Reduction_asks h now (countIcmpReceived st i) i mld1).congr hsent.symm rfl).mono ?_
    exact fun x hx => because_of_ne fun g => by rw [hx]; simp
  | mld2Report mld2r plen =>
    exact ((mld2Report_because (countIcmpReceived st i) hok hints' hmtu' mld2r plen
      fun r hr => ⟨r, hr, rfl⟩).congr hsent.symm rfl).mono fun _ hx => hback hx
  | query plen =>
    exact ((query_because (countIcmpReceived st i) hok hints' hmtu' plen).congr hsent.symm
      rfl).mono fun _ hx => hback hx

end Because

/-- A signal makes a daemon report in MLDv2 only. -/
theorem sigusr2_sent (h : Host) (st : Conf) :
    AllSent (fun x => ∀ g, x.sender ≠ .mld1SendReport g) st (sigusr2 h st) := by
  unfold sigusr2
  split
  · exact .refl st
  · split
    · exact .refl st
    · obtain ⟨new, hnew, -, hall⟩ := mld2SendReport_sent h st _ none
      refine ⟨new, hnew, fun x hx g => ?_⟩
      obtain ⟨⟨recs, -, hsender⟩, -⟩ := hall x hx
      simp [hsender]

/-- An MLDv1 report is sent on the receipt of a frame: one that names the group, on another
interface in use, or any, on the interface of the frame, for a group that has a group-interface
there. -/
def Event.Because (h : Host) (st : Conf) (ev : Event) (x : Sent) : Prop :=
  ∀ g, x.sender = .mld1SendReport g → ∃ now f, ev = .frame now f ∧
    ((f.Names h now st g ∧ x.ifindex ≠ f.ifindex ∧ (st.intn x.ifindex).mtu ≠ 0) ∨
      (x.ifindex = f.ifindex ∧ InGroup st f.ifindex g))

/-- **What an event makes a daemon say in MLDv1.** -/
theorem step_because {h : Host} {st : Conf} (hok : TableOk ValidSubscr st.groups)
    (hints : IntsOk st) (ev : Event) : AllSent (ev.Because h st) st (step h st ev) := by
  have hquiet : ∀ {s : Conf}, AllSent (fun x => ∀ g, x.sender ≠ .mld1SendReport g) st s →
      AllSent (ev.Because h st) st s :=
    fun hall => hall.mono fun x hx g hg => absurd hg (hx g)
  cases ev with
  | frame now f =>
    rw [step]
    rcases frame_cases h now st f with ⟨st1, i, hin, heq⟩ | ⟨-, hsent, -⟩
    · obtain ⟨rfl, hok1, hmtu, hothers⟩ := hin.counted hints (min f.len bufferlen)
      have hgroups : (countIntReceived st1 f.ifindex (min f.len bufferlen)).groups = st.groups :=
        hin.groups
      have hsent : (countIntReceived st1 f.ifindex (min f.len bufferlen)).sent = st.sent := hin.sent
      rw [heq]
      refine ((handle_because _ (hgroups ▸ hok) hok1 hmtu (min f.len bufferlen) _).congr hsent.symm
        rfl).mono fun x hx g hg => ⟨now, f, rfl, ?_⟩
      rcases hx g hg with ⟨hnames, hne, huse⟩ | ⟨hx, hin'⟩
      · rw [hothers _ hne] at huse
        exact Or.inl ⟨⟨st1, _, hin, hnames⟩, hne, huse⟩
      · rw [InGroup, hgroups] at hin'
        exact Or.inr ⟨hx, hin'⟩
    · exact .of_eq hsent
  | timeout now ifap =>
    have hsent : ((updateInterfaces now st none ifap).setGroups (listLoop2 (timeoutGroup now)
        (updateInterfaces now st none ifap).groups)).sent = st.sent :=
      (updateInterfaces_interfacesOnly now st none ifap).sent
    exact hquiet (((sendMldQuerys_asks h _).congr hsent.symm rfl).mono fun x hx g => by simp [hx])
  | sigusr2 now => exact hquiet (sigusr2_sent h st)
  | create now ifindex probe =>
    refine hquiet (.of_eq ?_)
    unfold step
    dsimp only
    split
    · rfl
    · exact (intCreate_interfacesOnly st ifindex probe).sent
  | destroy now i => exact .of_eq rfl

/-! ## 4. What a daemon makes of the packets of another -/

theorem Reachable.step {h : Host} {st : Conf} (hr : Reachable h st) (ev : Event) :
    Reachable h (Ecmh.step h st ev) := by
  obtain ⟨o, now, ifap, es, rfl⟩ := hr
  exact ⟨o, now, ifap, es ++ [ev], (Runs.run_concat _ _ _).symm⟩

/-- A query or an MLDv1 report is as the function that sends it makes it. -/
def Sent.AsMade (h : Host) (x : Sent) : Prop :=
  match x.sender with
  | .mldSendQuery => ∃ st i mca, x.packet = (queryPacket h st i mca).read 0 (queryLength st)
  | .mld1SendReport mca => ∃ st i, x.packet = (mld1ReportPacket h st i mca).read 0 72
  | _ => True

theorem asMade_of_makes {h : Host} {st : Conf} {i : Nat} {packet : Mem} {len : Nat}
    {sender : Sender} (hm : Makes h st i packet len sender) :
    (sentOf sender st.groups (st.intn i) packet (len % 65536)).AsMade h := by
  unfold Sent.AsMade
  cases sender with
  | mldSendQuery =>
    obtain ⟨mca, rfl, rfl⟩ := hm
    refine ⟨st, i, mca, ?_⟩
    simp only [sentOf, queryLength]
    split <;> rfl
  | mld1SendReport mca =>
    obtain ⟨rfl, rfl⟩ := hm
    exact ⟨st, i, rfl⟩
  | icmp6Send => trivial
  | mld2SendReport recs => trivial
  | l4Ipv6Multicast => trivial

/-- All packets that a daemon has sent are as they are made. -/
def AllAsMade (h : Host) (st : Conf) : Prop := ∀ x ∈ st.sent, x.AsMade h

theorem prim_allAsMade {h : Host} {a b : Conf} (hp : Prim h a b) (ha : AllAsMade h a) :
    AllAsMade h b := by
  have hsend : ∀ (sender : Sender) (i : Nat) (packet : Mem) (len : Nat),
      (sentOf sender a.groups (a.intn i) packet (len % 65536)).AsMade h →
      AllAsMade h (sendpacket6 h sender a i packet len) := by
    intro sender i packet len hx x hmem
    rw [sendpacket6_sent, List.mem_append, List.mem_singleton] at hmem
    rcases hmem with hmem | rfl
    · exact ha x hmem
    · exact hx
  cases hp with
  | icmp sender i packet len hm =>
    have hall := hsend sender i packet len (asMade_of_makes hm)
    rwa [AllAsMade, ← countIcmpSent_sent _ i] at hall
  | forward i packet len => exact hsend .l4Ipv6Multicast i packet len trivial
  | table groups => exact ha
  | write i f hf => exact ha
  | create ifindex probe _ =>
    rwa [AllAsMade, (intCreate_interfacesOnly a ifindex probe).sent]
  | undone ifindex probe _ =>
    rwa [AllAsMade, intDestroy_sent, (intCreate_interfacesOnly a ifindex probe).sent]
  | updated now => exact ha

theorem reachable_allAsMade {h : Host} {st : Conf} (hr : Reachable h st) : AllAsMade h st := by
  refine reachable_keeps (P := AllAsMade h) (Q := fun _ => AllAsMade h) (fun o x hx => ?_)
    (fun a b hp => prim_allAsMade hp) (fun _ _ hs => hs) (fun _ a b hp => prim_allAsMade hp)
    (fun _ _ hs => hs)
    (fun _ _ hs => hs) (fun st i len s hs hl => ?_) hr
  · cases hx
  · cases hl with
    | nothing => exact hs
    | icmp => exact hs
    | exceeded => exact hs
    | icmpExceeded => exact hs

section Receiver

variable {e : Endian} {m : Mem} {g : In6Addr}

/-- A packet with an MLD header is dropped, or is the ICMPv6 message in it. -/
theorem l3Message_mld {plen len : Nat} {src dst : In6Addr} {intn : IntNode}
    (hm : m.read 0 48 = mldHeader .big (plen + 8) src dst) (hlen : 48 ≤ len)
    (hlt : plen + 8 < 65536) : l3Message e intn m len = .dropped ∨
      l3Message e intn m len = icmpv6Message e m 48 plen := by
  unfold l3Message
  dsimp only
  rw [headerWalk_mld hm hlen (by omega) hlt]
  split
  · exact Or.inl rfl
  · split
    · exact Or.inl rfl
    · exact Or.inr (if_pos rfl)

/-- An MLDv1 report names the group in it, and a query none. -/
theorem icmpv6Message_names {off plen : Nat} (hnames : (icmpv6Message e m off plen).Names e g) :
    (m off = icmp6MembershipReport → readAddr m (off + 8) = g) ∧
      m off ≠ icmp6MembershipQuery := by
  have hmca : mld1Mca ((icmpv6Rechecksum e m off plen).shift off) = readAddr m (off + 8) := by
    rw [mld1Mca, readAddr_shift]
    refine readAddr_congr fun k h1 _ => ?_
    rw [icmpv6Rechecksum, Endian.store16_apply_ne _ _ _ (Or.inr (by omega)),
      Endian.store16_apply_ne _ _ _ (Or.inr (by omega))]
  unfold icmpv6Message at hnames
  dsimp only at hnames
  split at hnames
  · exact hnames.elim
  · split at hnames
    · split at hnames
      · exact hnames.elim
      · exact hnames.elim
    · split at hnames
      · exact hnames.elim
      · split at hnames
        · rename_i htype
          exact ⟨fun _ => hmca ▸ hnames.1, by rw [htype]; decide⟩
        · rename_i hne
          refine ⟨fun hc => absurd hc hne, ?_⟩
          split at hnames
          · exact hnames.elim
          · split at hnames
            · rename_i htype
              rcases htype with htype | htype <;> rw [htype] <;> decide
            · split at hnames
              · exact hnames.elim
              · exact hnames.elim

/-- The same of a packet as it is sent. -/
theorem MldPacket.names {e' : Endian} {p : Mem} {plen len c : Nat} {src dst mca : In6Addr}
    {type : UInt8} {intn : IntNode} (hp : MldPacket p (plen + 8) src dst type mca) (hlen : 72 ≤ len)
    (hlt : plen + 8 < 65536) (hm : m.read 0 len = (e'.store16 p 50 c).read 0 len)
    (hnames : (l3Message e intn m len).Names e g) :
    (type = icmp6MembershipReport → g = mca) ∧ type ≠ icmp6MembershipQuery := by
  have hbody : ∀ k, k < len → k < 50 ∨ 52 ≤ k → m k = p k := by
    intro k hk hne
    have hbyte := Mem.eq_of_read_eq hm hk
    rw [Nat.zero_add, Endian.store16_apply_ne e' p c hne] at hbyte
    exact hbyte
  have hhead : m.read 0 48 = mldHeader .big (plen + 8) src dst := by
    rw [← hp.header]
    refine Mem.read_congr fun k _ hk => ?_
    exact hbody k (by omega) (by omega)
  have htype : m 48 = type := (hbody 48 (by omega) (Or.inl (by decide))).trans hp.type
  have hmca : readAddr m 56 = mca := by
    rw [← hp.mca]
    refine readAddr_congr fun k _ hk => ?_
    exact hbody k (by omega) (by omega)
  have hcases : l3Message e intn m len = .dropped ∨
      l3Message e intn m len = icmpv6Message e m 48 plen := l3Message_mld hhead (by omega) hlt
  rcases hcases with heq | heq
  · rw [heq] at hnames
    exact hnames.elim
  · rw [heq] at hnames
    obtain ⟨h1, h2⟩ := icmpv6Message_names hnames
    rw [htype] at h1 h2
    exact ⟨fun ht => (h1 ht).symm.trans hmca, h2⟩

end Receiver

/-- The frame has these bytes at the front of the receive buffer. -/
def Frame.Holds (f : Frame) (packet : List UInt8) : Prop :=
  f.len = packet.length ∧ f.buffer.read 0 packet.length = packet

instance (f : Frame) (packet : List UInt8) : Decidable (f.Holds packet) :=
  inferInstanceAs (Decidable (_ ∧ _))

/-- **What a daemon reads in a packet of another**: in an MLDv1 report the group that it is about,
and in a query none. -/
theorem Sent.AsMade.names {h h' : Host} {x : Sent} (hx : x.AsMade h) {f : Frame}
    (hf : f.Holds x.packet) {now : Nat} {st : Conf} {g : In6Addr} (hnames : f.Names h' now st g) :
    x.sender ≠ .mldSendQuery ∧ ∀ mca, x.sender = .mld1SendReport mca → g = mca := by
  obtain ⟨st1, i, -, hnames⟩ := hnames
  obtain ⟨hlen, hread⟩ := hf
  constructor
  · intro hsender
    rw [Sent.AsMade, hsender] at hx
    obtain ⟨st', j, mca, hpacket⟩ := hx
    have hquery : queryLength st' = 72 ∨ queryLength st' = 76 := by
      unfold queryLength
      split <;> simp
    have hlen' : min f.len bufferlen = queryLength st' := by
      rw [hlen, hpacket, Mem.length_read, bufferlen]
      omega
    rw [hpacket, Mem.length_read, queryPacket_eq] at hread
    rw [hlen'] at hnames
    have hplen : queryLength st' - 40 = (queryLength st' - 48) + 8 := by omega
    have hbody := queryBody_mldPacket h st' j mca
    rw [hplen] at hbody
    exact (hbody.names (by omega) (by omega) hread hnames).2 rfl
  · intro mca hsender
    rw [Sent.AsMade, hsender] at hx
    obtain ⟨st', j, hpacket⟩ := hx
    have hlen' : min f.len bufferlen = 72 := by
      rw [hlen, hpacket, Mem.length_read]
      rfl
    rw [hpacket, Mem.length_read, mld1ReportPacket_eq] at hread
    rw [hlen'] at hnames
    exact ((mld1ReportBody_mldPacket h st' j mca).names (by omega) (by omega) hread hnames).1 rfl

/-! ## 5. The network -/

/-- The machines of the daemons, and which link each of their interfaces is on. -/
structure Topology (ι κ : Type) where
  host : ι → Host
  link : ι → Nat → κ

/-- A packet on a link, and the function of a daemon that sent it, if any. -/
structure LinkPacket (κ : Type) where
  link : κ
  packet : List UInt8
  sender : Option Sender
  deriving DecidableEq

/-- The daemons, and the packets on the links. -/
structure Linked (ι κ : Type) where
  conf : ι → Conf
  packets : List (LinkPacket κ)

/-- Somebody puts a packet on a link, a packet is delivered to a daemon, or something else happens
to a daemon. -/
inductive LinkEvent (ι κ : Type)
  | inject (link : κ) (packet : List UInt8)
  | deliver (k : Nat) (d : ι) (now : Nat) (f : Frame)
  | other (d : ι) (ev : Event)

variable {ι κ : Type}

/-- A packet that no daemon made as a query or an MLDv1 report.  Their other packets are the copies
of what was received, the answers to echo requests, and MLDv2 reports, which need not say what they
mean. -/
def LinkPacket.Outside (p : LinkPacket κ) : Prop :=
  p.sender ≠ some .mldSendQuery ∧ ∀ g, p.sender ≠ some (.mld1SendReport g)

/-- The frame brings the daemon a packet of the link that the interface is on. -/
def Topology.Brings (t : Topology ι κ) (d : ι) (f : Frame) (p : LinkPacket κ) : Prop :=
  p.link = t.link d f.ifindex ∧ f.Holds p.packet

instance [DecidableEq κ] (t : Topology ι κ) (d : ι) (f : Frame) (p : LinkPacket κ) :
    Decidable (t.Brings d f p) := inferInstanceAs (Decidable (_ ∧ _))

/-- An event of a daemon: what it sends is put on the links of its interfaces. -/
def Topology.act [DecidableEq ι] (t : Topology ι κ) (s : Linked ι κ) (d : ι) (ev : Event) :
    Linked ι κ :=
  let st := step (t.host d) (s.conf d) ev
  { conf := Function.update s.conf d st
    packets := s.packets ++ (newSent (s.conf d) st).map fun x =>
      ⟨t.link d x.ifindex, x.packet, some x.sender⟩ }

/-- The network after an event. -/
def linkStep [DecidableEq ι] [DecidableEq κ] (t : Topology ι κ) (s : Linked ι κ) :
    LinkEvent ι κ → Linked ι κ
  | .inject link packet => { s with packets := s.packets ++ [⟨link, packet, none⟩] }
  | .deliver k d now f =>
    match s.packets[k]? with
    | none => s
    | some p => if t.Brings d f p then t.act s d (.frame now f) else s
  | .other _ (.frame _ _) => s
  | .other d ev => t.act s d ev

/-- All daemons have been started; what they asked at that time may be injected. -/
def linkStart (t : Topology ι κ) (o : ι → Options) (now : ι → Nat)
    (ifap : ι → Option (List IfAddr)) : Linked ι κ :=
  ⟨fun d => boot (t.host d) (o d) (now d) (ifap d), []⟩

section Network

variable {t : Topology ι κ} {s : Linked ι κ}

/-- A frame that brings a packet with the property to the interface `i` of a daemon, and names the
group. -/
def Informs (t : Topology ι κ) (P : LinkPacket κ → Prop) (d : ι) (i : Nat) (g : In6Addr)
    (s : Linked ι κ) : LinkEvent ι κ → Prop
  | .deliver k d' now f => d' = d ∧ f.ifindex = i ∧ f.Names (t.host d) now (s.conf d) g ∧
      ∃ p, s.packets[k]? = some p ∧ t.Brings d f p ∧ P p
  | _ => False

/-- The group is reported on the link from outside: a daemon is told of it there in a packet that no
daemon made as a query or an MLDv1 report. -/
def ReportedOn (t : Topology ι κ) (g : In6Addr) (s : Linked ι κ) (ev : LinkEvent ι κ) (l : κ) :
    Prop :=
  ∃ d i, t.link d i = l ∧ Informs t LinkPacket.Outside d i g s ev

/-- The group is known on the link: a daemon has announced it there, or has been told of it. -/
def KnownOn (t : Topology ι κ) (g : In6Addr) (s : Linked ι κ) (l : κ) : Prop :=
  (∃ p ∈ s.packets, p.link = l ∧ p.sender = some (.mld1SendReport g)) ∨
    ∃ d i, t.link d i = l ∧ InGroup (s.conf d) i g

/-- Every daemon is in a state that it may be in, and every packet as it was made. -/
structure NetOk (t : Topology ι κ) (s : Linked ι κ) : Prop where
  reachable : ∀ d, Reachable (t.host d) (s.conf d)
  made : ∀ p ∈ s.packets, ∀ sender, p.sender = some sender →
    ∃ (h : Host) (x : Sent), x.AsMade h ∧ x.sender = sender ∧ x.packet = p.packet

/-- Who is told of a group by a packet that is not from outside is told by an announcement. -/
theorem announced_of_brings (hs : NetOk t s) {d : ι} {f : Frame} {p : LinkPacket κ} {now : Nat}
    {g : In6Addr} (hp : p ∈ s.packets) (hb : t.Brings d f p)
    (hnames : f.Names (t.host d) now (s.conf d) g) :
    p.Outside ∨ p.sender = some (.mld1SendReport g) := by
  by_cases hout : p.Outside
  · exact Or.inl hout
  · right
    have hread : ∀ sender, p.sender = some sender → sender ≠ .mldSendQuery ∧
        ∀ mca, sender = .mld1SendReport mca → g = mca := by
      intro sender hsender
      obtain ⟨h, x, hx, rfl, hpacket⟩ := hs.made p hp sender hsender
      exact hx.names (hpacket ▸ hb.2) hnames
    unfold LinkPacket.Outside at hout
    rw [not_and_or, not_not, not_forall] at hout
    rcases hout with hquery | ⟨mca, hmca⟩
    · exact absurd rfl (hread _ hquery).1
    · rw [not_not] at hmca
      rw [hmca, (hread _ hmca).2 mca rfl]

theorem linkStart_netOk (t : Topology ι κ) (o : ι → Options) (now : ι → Nat)
    (ifap : ι → Option (List IfAddr)) : NetOk t (linkStart t o now ifap) :=
  ⟨fun d => ⟨o d, now d, ifap d, [], rfl⟩, fun p hp => by cases hp⟩

/-- Nothing is known anywhere at the start. -/
theorem linkStart_unknown (t : Topology ι κ) (o : ι → Options) (now : ι → Nat)
    (ifap : ι → Option (List IfAddr)) (g : In6Addr) (l : κ) :
    ¬ KnownOn t g (linkStart t o now ifap) l := by
  rintro (⟨p, hp, -⟩ | ⟨d, i, -, hin⟩)
  · cases hp
  · have hgroups : (boot (t.host d) (o d) (now d) (ifap d)).groups = listNew := boot_groups ..
    rw [InGroup, linkStart, hgroups] at hin
    cases hin

variable [DecidableEq ι]

theorem mem_act_packets {d : ι} {e : Event} {p : LinkPacket κ} :
    p ∈ (t.act s d e).packets ↔ p ∈ s.packets ∨
      ∃ x ∈ newSent (s.conf d) (step (t.host d) (s.conf d) e),
        p = ⟨t.link d x.ifindex, x.packet, some x.sender⟩ := by
  simp only [Topology.act, List.mem_append, List.mem_map]
  exact or_congr_right ⟨fun ⟨x, hx, he⟩ => ⟨x, hx, he.symm⟩, fun ⟨x, hx, he⟩ => ⟨x, hx, he.symm⟩⟩

theorem act_conf_self (d : ι) (e : Event) :
    (t.act s d e).conf d = step (t.host d) (s.conf d) e := Function.update_self _ _ _

theorem act_conf_ne {d d' : ι} (hd : d' ≠ d) (e : Event) : (t.act s d e).conf d' = s.conf d' :=
  Function.update_of_ne hd _ _

theorem mem_newSent {a b : Conf} {x : Sent} (hx : x ∈ newSent a b) : x ∈ b.sent :=
  List.mem_of_mem_drop hx

variable [DecidableEq κ]

/-- The group is passed on from one link to the other: a daemon that is told of it on one of its
interfaces announces it on another one that is in use. -/
def PassedOn (t : Topology ι κ) (g : In6Addr) (s : Linked ι κ) (ev : LinkEvent ι κ) (l l' : κ) :
    Prop :=
  ∃ d i j, i ≠ j ∧ t.link d i = l ∧ t.link d j = l' ∧ Informs t (fun _ => True) d i g s ev ∧
    ((s.conf d).intn j).mtu ≠ 0 ∧ ∃ x ∈ newSent (s.conf d) ((linkStep t s ev).conf d),
      x.ifindex = j ∧ x.sender = .mld1SendReport g

/-- An event is one of a daemon, or adds a packet from outside, or nothing. -/
theorem linkStep_cases (t : Topology ι κ) (s : Linked ι κ) (ev : LinkEvent ι κ) :
    linkStep t s ev = s ∨
    (∃ l packet, linkStep t s ev = { s with packets := s.packets ++ [⟨l, packet, none⟩] }) ∨
    ∃ d e, linkStep t s ev = t.act s d e ∧
      (∀ now f, e = .frame now f →
        ∃ k p, ev = .deliver k d now f ∧ s.packets[k]? = some p ∧ t.Brings d f p) ∧
      ((∀ now f, e ≠ .frame now f) → ev = .other d e) := by
  cases ev with
  | inject l packet => exact Or.inr (Or.inl ⟨l, packet, rfl⟩)
  | deliver k d now f =>
    unfold linkStep
    dsimp only
    split
    · exact Or.inl rfl
    · rename_i p hp
      split
      · rename_i hb
        refine Or.inr (Or.inr ⟨d, _, rfl, fun now' f' he => ?_, fun hc => absurd rfl (hc now f)⟩)
        cases he
        exact ⟨k, p, rfl, hp, hb⟩
      · exact Or.inl rfl
  | other d ev =>
    cases ev with
    | frame now f => exact Or.inl rfl
    | timeout now ifap => exact Or.inr (Or.inr ⟨d, _, rfl, by simp, fun _ => rfl⟩)
    | sigusr2 now => exact Or.inr (Or.inr ⟨d, _, rfl, by simp, fun _ => rfl⟩)
    | create now ifindex probe => exact Or.inr (Or.inr ⟨d, _, rfl, by simp, fun _ => rfl⟩)
    | destroy now i => exact Or.inr (Or.inr ⟨d, _, rfl, by simp, fun _ => rfl⟩)

theorem linkStep_netOk (hs : NetOk t s) (ev : LinkEvent ι κ) : NetOk t (linkStep t s ev) := by
  rcases linkStep_cases t s ev with heq | ⟨l, packet, heq⟩ | ⟨d, e, heq, -⟩
  · rwa [heq]
  · rw [heq]
    refine ⟨hs.reachable, fun p hp sender hsender => ?_⟩
    rcases List.mem_append.mp hp with hp | hp
    · exact hs.made p hp sender hsender
    · rw [List.mem_singleton.mp hp] at hsender
      cases hsender
  · rw [heq]
    have hnext : Reachable (t.host d) (step (t.host d) (s.conf d) e) := (hs.reachable d).step e
    refine ⟨fun d' => ?_, fun p hp sender hsender => ?_⟩
    · by_cases hd : d' = d
      · rw [hd, act_conf_self]
        exact hnext
      · rw [act_conf_ne hd]
        exact hs.reachable d'
    · rcases mem_act_packets.mp hp with hp | ⟨x, hx, rfl⟩
      · exact hs.made p hp sender hsender
      · exact ⟨t.host d, x, reachable_allAsMade hnext x (mem_newSent hx),
          Option.some.inj hsender, rfl⟩

/-- **One event**: a group that comes to be known on a link was reported there from outside, or was
passed on from a link where it was known or has just been reported. -/
theorem knownOn_step {g : In6Addr} (ev : LinkEvent ι κ) (l : κ) (hs : NetOk t s)
    (hk : KnownOn t g (linkStep t s ev) l) : KnownOn t g s l ∨ ReportedOn t g s ev l ∨
      ∃ l', (KnownOn t g s l' ∨ ReportedOn t g s ev l') ∧ PassedOn t g s ev l' l := by
  rcases linkStep_cases t s ev with heq | ⟨l', packet, heq⟩ | ⟨d, e, heq, hframe, -⟩
  · rw [heq] at hk
    exact Or.inl hk
  · rw [heq] at hk
    refine Or.inl (hk.imp_left ?_)
    rintro ⟨p, hp, hl, hsender⟩
    rcases List.mem_append.mp hp with hp | hp
    · exact ⟨p, hp, hl, hsender⟩
    · rw [List.mem_singleton.mp hp] at hsender
      cases hsender
  · have hok := reachable_tableOk (hs.reachable d)
    have hints := reachable_intsOk (hs.reachable d)
    -- a frame that names the group comes from where it is known, or reports it from outside
    have htold : ∀ {now : Nat} {f : Frame}, e = .frame now f →
        f.Names (t.host d) now (s.conf d) g →
        (KnownOn t g s (t.link d f.ifindex) ∨ ReportedOn t g s ev (t.link d f.ifindex)) ∧
          Informs t (fun _ => True) d f.ifindex g s ev := by
      intro now f he hnames
      obtain ⟨k, p, rfl, hp, hb⟩ := hframe now f he
      have hmem := List.mem_of_getElem? hp
      refine ⟨?_, rfl, rfl, hnames, p, hp, hb, trivial⟩
      rcases announced_of_brings hs hmem hb hnames with hout | hsender
      · exact Or.inr ⟨d, _, rfl, rfl, rfl, hnames, p, hp, hb, hout⟩
      · exact Or.inl (Or.inl ⟨p, hmem, hb.1, hsender⟩)
    rw [heq] at hk
    rcases hk with ⟨p, hp, rfl, hsender⟩ | ⟨d', i, rfl, hin⟩
    · rcases mem_act_packets.mp hp with hp | ⟨x, hx, rfl⟩
      · exact Or.inl (Or.inl ⟨p, hp, rfl, hsender⟩)
      · obtain ⟨now, f, he, hbecause⟩ := (step_because hok hints e).forall x hx g
          (Option.some.inj hsender)
        rcases hbecause with ⟨hnames, hne, huse⟩ | ⟨hi, hin⟩
        · obtain ⟨hfrom, hinf⟩ := htold he hnames
          refine Or.inr (Or.inr ⟨_, hfrom, d, f.ifindex, x.ifindex, fun hc => hne hc.symm, rfl, rfl,
            hinf, huse, x, ?_, rfl, Option.some.inj hsender⟩)
          rw [heq, act_conf_self]
          exact hx
        · refine Or.inl (Or.inr ⟨d, f.ifindex, ?_, hin⟩)
          rw [← hi]
    · by_cases hd : d' = d
      · rw [hd, act_conf_self] at hin
        rw [hd]
        rcases step_inGroup hok hints hin with hold | ⟨now, f, he, rfl, hnames⟩
        · exact Or.inl (Or.inr ⟨d, i, rfl, hold⟩)
        · rcases (htold he hnames).1 with hknown | hreported
          · exact Or.inl hknown
          · exact Or.inr (Or.inl hreported)
      · rw [act_conf_ne hd] at hin
        exact Or.inl (Or.inr ⟨d', i, rfl, hin⟩)

/-- **No group comes from nowhere.**  In every run of every network, a group that a daemon announces
on a link, or has a group-interface for there, was reported on some link by a packet that no daemon
made as a query or an MLDv1 report, and came from there over daemons that were told of it on one
link and announced it on the next, each after the one before. -/
theorem groups_come_from_outside (t : Topology ι κ) (o : ι → Options) (now : ι → Nat)
    (ifap : ι → Option (List IfAddr)) (es : List (LinkEvent ι κ)) (g : In6Addr) (l : κ)
    (hk : KnownOn t g (Runs.run (linkStep t) (linkStart t o now ifap) es) l) :
    Spread.Reached (linkStep t) (ReportedOn t g) (PassedOn t g) (linkStart t o now ifap) es l :=
  Spread.reached_of_step (I := NetOk t) (P := KnownOn t g) (fun _ ev hs => linkStep_netOk hs ev)
    (fun _ ev l hs => knownOn_step ev l hs) (linkStart_netOk t o now ifap)
    (linkStart_unknown t o now ifap g) es l hk

end Network

/-- Two daemons in a row: the second interface of the first one and the first interface of the
second one are on the same link. -/
def chain : Topology Bool Nat where
  host := fun _ => quietHost .little
  link
    | false, i => i
    | true, i => i + 1

/-- `fe80::x`. -/
def linkLocalOf (x : UInt8) : In6Addr := ⟨0xfe :: 0x80 :: List.replicate 13 0 ++ [x], rfl⟩

/-- The packet of a host that joins `ff05::1`. -/
def siteJoinPacket : List UInt8 :=
  ipv6Packet ipprotoIcmpv6 1 linkLocalHost (linkScope 0x16) mld1JoinMessage

/-- Both daemons find their two interfaces, and a host on the first link joins. -/
def joinedEvents : List (LinkEvent Bool Nat) :=
  let ifap (x : UInt8) : List IfAddr :=
    [⟨1, true, true, false, some .inet6, linkLocalOf x, ethernetProbe⟩,
      ⟨2, true, true, false, some .inet6, linkLocalOf (x + 1), ethernetProbe⟩]
  [.other false (.timeout 300 (some (ifap 2))), .other true (.timeout 300 (some (ifap 4))),
    .inject 1 siteJoinPacket, .deliver 4 false 301 (ethernetFrame 1 siteJoinPacket)]

/-- The daemons of the chain. -/
def chainStart : Linked Bool Nat :=
  linkStart chain (fun _ => plainOptions) (fun _ => 0) (fun _ => none)

/-- What the first daemon announces on the second link is delivered to the second one. -/
def chainEvents : List (LinkEvent Bool Nat) :=
  joinedEvents ++ [.deliver 5 true 302 (ethernetFrame 1
    ((Runs.run (linkStep chain) chainStart joinedEvents).packets.getD 5 ⟨0, [], none⟩).packet)]

/-- The group is announced on the third link. -/
theorem chain_known :
    KnownOn chain siteGroup (Runs.run (linkStep chain) chainStart chainEvents) 3 := by
  have hsome : ((Runs.run (linkStep chain) chainStart chainEvents).packets.any fun p =>
      p.link = 3 && p.sender = some (.mld1SendReport siteGroup)) = true := by decide +kernel
  obtain ⟨p, hp, hlast⟩ := List.any_eq_true.mp hsome
  exact Or.inl ⟨p, hp, by simpa using hlast⟩

/-- It was reported on the first one. -/
theorem chain_from_outside : Spread.Reached (linkStep chain) (ReportedOn chain siteGroup)
    (PassedOn chain siteGroup) chainStart chainEvents 3 :=
  groups_come_from_outside chain (fun _ => plainOptions) (fun _ => 0) (fun _ => none) chainEvents
    siteGroup 3 chain_known

end Ecmh
