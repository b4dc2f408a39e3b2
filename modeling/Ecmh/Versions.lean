/-
# The modes and the versions in a run

The two modes are set when the daemon starts, and exclude each other.  The version of an interface
is 0, 1 or 2: `int_create` starts with 0, and `int_set_mld_version` is called with 1 or 2.  So every
interface gets reports of some version (`reports_some`).
-/
import Ecmh.Announce
import Ecmh.IntTable

namespace Ecmh

open ByteMem

/-! ## 1. The relation -/

/-- All that may happen to the modes and to the versions. -/
structure KeepsVersions (st st' : Conf) : Prop where
  mld1only : st'.mld1only = st.mld1only
  mld2only : st'.mld2only = st.mld2only
  version : ∀ j, (st'.intn j).mldVersion = (st.intn j).mldVersion ∨ (st'.intn j).mldVersion ≤ 2

namespace KeepsVersions

theorem refl (st : Conf) : KeepsVersions st st := ⟨rfl, rfl, fun _ => Or.inl rfl⟩

theorem trans {a b c : Conf} (h1 : KeepsVersions a b) (h2 : KeepsVersions b c) :
    KeepsVersions a c := by
  refine ⟨h2.mld1only.trans h1.mld1only, h2.mld2only.trans h1.mld2only, fun j => ?_⟩
  rcases h2.version j with h | h
  · rw [h]
    exact h1.version j
  · exact Or.inr h

end KeepsVersions

/-- Sending does not set a version. -/
theorem SendsOnly.keepsVersions {on : Nat → Prop} {st st' : Conf} (hs : SendsOnly on st st') :
    KeepsVersions st st' := ⟨hs.mld1only, hs.mld2only, fun j => Or.inl (hs.mldVersion j)⟩

/-- A write to an interface: all that matters is the version that it leaves. -/
theorem setInt_keepsVersions (st : Conf) (i : Nat) {f : IntNode → IntNode}
    (hf : ∀ a, (f a).mldVersion = a.mldVersion ∨ (f a).mldVersion ≤ 2) :
    KeepsVersions st (st.setInt i f) := by
  refine ⟨rfl, rfl, fun j => ?_⟩
  rw [setInt_intn]
  split
  · exact hf _
  · exact Or.inl rfl

theorem setGroups_keepsVersions (st : Conf) (groups : Groups) :
    KeepsVersions st (st.setGroups groups) := ⟨rfl, rfl, fun _ => Or.inl rfl⟩

/-- `int_destroy` clears nothing but the MTU. -/
theorem intDestroy_keepsVersions (st : Conf) (i : Nat) : KeepsVersions st (intDestroy st i) :=
  setInt_keepsVersions st i fun _ => Or.inl rfl

/-- `int_set_mld_version` stores the version that it is given, or zero, and is only ever given one
or two. -/
theorem intSetMldVersion_keepsVersions (now : Nat) (st : Conf) (i : Nat) {newversion : Nat}
    (hv : newversion ≤ 2) : KeepsVersions st (intSetMldVersion now st i newversion) := by
  unfold intSetMldVersion
  split
  · split
    · exact .refl st
    · split
      · exact setInt_keepsVersions st i fun _ => Or.inr (Nat.le_succ 1)
      · exact .refl st
  · -- an MLDv1 message that is out of date brings back version 0
    have hreset : ∃ st', (if (st.intn i).mldLastV1 ≠ 0 ∧
        now > (st.intn i).mldLastV1 + ecmhSubscriptionTimeout then
          st.setInt i (fun intn => { intn with mldVersion := 0, mldLastV1 := 0 }) else st) = st' ∧
        KeepsVersions st st' := by
      refine ⟨_, rfl, ?_⟩
      split
      · exact setInt_keepsVersions st i fun _ => Or.inr (Nat.zero_le 2)
      · exact .refl st
    obtain ⟨st', hst', hreset⟩ := hreset
    rw [hst']
    dsimp only
    split
    · exact hreset
    · split
      · exact hreset.trans (setInt_keepsVersions st' i fun _ => Or.inr hv)
      · exact hreset

/-! ## 2. The interface table

Only `int_create` touches the version here, and starts with none. -/

/-- An interface that is created has seen no version yet. -/
theorem intCreate_keepsVersions (st : Conf) (ifindex : Nat) (probe : IfProbe) :
    KeepsVersions st (intCreate st ifindex probe).1 := by
  have hgrow : KeepsVersions st (intGrow st ifindex) :=
    ⟨rfl, rfl, fun j => Or.inl (by rw [intGrow_intn])⟩
  have hzero := hgrow.trans (setInt_keepsVersions (intGrow st ifindex) ifindex
    (f := fun _ => { IntNode.zero with ifindex := ifindex }) fun _ => Or.inr (Nat.zero_le 2))
  have hwrite : ∀ {st' : Conf} (f : IntNode → IntNode), KeepsVersions st st' →
      (∀ a, (f a).mldVersion = a.mldVersion) → KeepsVersions st (st'.setInt ifindex f) :=
    fun f hs hf => hs.trans (setInt_keepsVersions _ ifindex fun a => Or.inl (hf a))
  have hdestroy : ∀ {st' : Conf}, KeepsVersions st st' →
      KeepsVersions st (intDestroy st' ifindex) :=
    fun hs => hs.trans (intDestroy_keepsVersions _ ifindex)
  unfold intCreate
  dsimp only
  generalize (intGrow st ifindex).setInt ifindex
    (fun _ => { IntNode.zero with ifindex := ifindex }) = st1 at hzero ⊢
  split
  · exact hgrow
  · split
    · exact hdestroy hzero
    · rename_i name hname
      have hname := hwrite (fun intn => { intn with name := name }) hzero fun _ => rfl
      split
      · exact hdestroy hname
      · rename_i mtu hmtu
        split
        · exact hdestroy hname
        · have hmtu := hwrite (fun intn => { intn with mtu := mtu.toNat }) hname fun _ => rfl
          split
          · exact hdestroy hmtu
          · rename_i family hfamily
            have hfamily := hwrite (fun intn => { intn with hwaddr := family }) hmtu fun _ => rfl
            have hup : ∀ b, KeepsVersions st _ := fun b =>
              hwrite (fun intn => { intn with upstream := b }) hfamily fun _ => rfl
            split
            · exact hdestroy hfamily
            · split
              · split
                · exact ⟨(hup true).mld1only, (hup true).mld2only, (hup true).version⟩
                · exact hup false
              · exact hup false

/-- An address is no version. -/
theorem scanStore_keepsVersions (s : ScanLoop) (i : Nat) (ifa : IfAddr) :
    KeepsVersions s.st (scanStore s i ifa).st := by
  unfold scanStore
  split
  · split
    · exact setInt_keepsVersions s.st i fun _ => Or.inl rfl
    · exact setInt_keepsVersions s.st i fun _ => Or.inl rfl
  · exact .refl s.st

theorem scanSpecific_keepsVersions (i : Nat) (l : List IfAddr) :
    ∀ s : ScanLoop, KeepsVersions s.st (scanSpecific i s l) := by
  induction l with
  | nil => exact fun s => .refl s.st
  | cons ifa next ih =>
    intro s
    have hstore := scanStore_keepsVersions s i ifa
    rw [scanSpecific]
    split
    · exact ih s
    · split
      · exact ih s
      · dsimp only
        split
        · exact hstore
        · exact hstore.trans (ih _)

theorem scanEntry_keepsVersions (st : Conf) (ifa : IfAddr) :
    KeepsVersions st (scanEntry st ifa) := by
  have hc := intCreate_keepsVersions st ifa.ifindex ifa.probe
  unfold scanEntry
  split
  · exact .refl st
  · split
    · exact scanStore_keepsVersions ⟨st, false, false⟩ _ ifa
    · split
      · rename_i hcr
        rw [hcr] at hc
        exact hc
      · rename_i st1 i hcr
        rw [hcr] at hc
        have hstore := hc.trans (scanStore_keepsVersions ⟨st1, false, false⟩ i ifa)
        dsimp only
        split
        · exact hstore
        · exact hstore.trans (intDestroy_keepsVersions _ i)

/-- A scan keeps the versions, but for an interface that it creates. -/
theorem updateInterfaces_keepsVersions (now : Nat) (st : Conf) (specific : Option Nat)
    (ifap : Option (List IfAddr)) :
    KeepsVersions st (updateInterfaces now st specific ifap) := by
  unfold updateInterfaces
  split
  · exact .refl st
  · have hstamp : KeepsVersions st { st with lastUpdate := now } := ⟨rfl, rfl, fun _ => Or.inl rfl⟩
    dsimp only
    split
    · exact hstamp
    · split
      · exact hstamp.trans (scanSpecific_keepsVersions _ _ ⟨_, false, false⟩)
      · exact hstamp.trans (Runs.foldl_rel KeepsVersions.refl (fun _ _ _ h1 h2 => h1.trans h2)
          scanEntry_keepsVersions _ _)

/-- The interface of a frame may be a new one. -/
theorem frameInterface_keepsVersions (now : Nat) (st : Conf) (f : Frame) :
    KeepsVersions st (frameInterface now st f).1 := by
  have hc := intCreate_keepsVersions st f.ifindex f.probe
  unfold frameInterface
  split
  · exact .refl st
  · split
    · rename_i hcr
      rw [hcr] at hc
      exact hc
    · rename_i st1 i hcr
      rw [hcr] at hc
      exact hc.trans (updateInterfaces_keepsVersions now st1 (some i) f.ifap)

/-! ## 3. Messages

The handlers of reports, reductions and queries set the version first, and then only send and
write to the table. -/

section Messages

variable {h : Host} {now : Nat} {st : Conf} {i : Nat}

theorem countIcmpReceived_keepsVersions (st : Conf) (i : Nat) :
    KeepsVersions st (countIcmpReceived st i) := by
  refine ⟨rfl, rfl, fun j => Or.inl ?_⟩
  obtain ⟨n, hn⟩ := countIcmpReceived_intn st i j
  rw [hn]

/-- A packet that is forwarded sets no version. -/
theorem multicast_keepsVersions (h : Host) (st : Conf) (i : Nat) (iph : Mem) (len : Nat) :
    KeepsVersions st (l4Ipv6Multicast h st i iph len) := by
  unfold l4Ipv6Multicast
  dsimp only
  split
  · exact .refl st
  · split
    · exact .refl st
    · exact (setGroups_keepsVersions st _).trans
        (sendsOnly_foldl_conf (multicastGrpint_sendsOnly h iph len _ i) _ _).keepsVersions

/-- An MLDv1 report stands for version 1. -/
theorem mld1Report_keepsVersions (h : Host) (now : Nat) (st : Conf) (i : Nat) (mld1 : Mem) :
    KeepsVersions st (l4Ipv6Icmpv6Mld1Report h now st i mld1) := by
  have hset := intSetMldVersion_keepsVersions now st i (Nat.le_succ 1)
  unfold l4Ipv6Icmpv6Mld1Report
  dsimp only
  split
  · exact hset
  · have hwrite := fun groups => hset.trans (setGroups_keepsVersions _ groups)
    split
    · exact (hwrite _).trans (mldSendReportAll_sendsOnly h _ i _).keepsVersions
    · exact hwrite _

/-- So does a reduction. -/
theorem mld1Reduction_keepsVersions (h : Host) (now : Nat) (st : Conf) (i : Nat) (mld1 : Mem) :
    KeepsVersions st (l4Ipv6Icmpv6Mld1Reduction h now st i mld1) := by
  have hset := intSetMldVersion_keepsVersions now st i (Nat.le_succ 1)
  unfold l4Ipv6Icmpv6Mld1Reduction
  dsimp only
  split
  · exact hset
  · split
    · exact hset
    · split
      · exact hset
      · split
        · exact hset
        · have hwrite := fun groups => hset.trans (setGroups_keepsVersions _ groups)
          split
          · exact ((hwrite _).trans (mldSendQuery_sendsOnly h _ i _).keepsVersions).trans
              (setGroups_keepsVersions _ _)
          · exact hwrite _

/-- An MLDv2 report stands for version 2. -/
theorem mld2Report_keepsVersions (h : Host) (now : Nat) (st : Conf) (i : Nat) (mld2r : Mem)
    (plen : Nat) : KeepsVersions st (l4Ipv6Icmpv6Mld2Report h now st i mld2r plen).st := by
  rw [mld2Report_run]
  refine Runs.run_invariant (P := fun s : Conf × Bool => KeepsVersions st s.1)
    (fun s r hs => ?_) _ _ (intSetMldVersion_keepsVersions now st i (Nat.le_refl 2))
  exact (hs.trans (setGroups_keepsVersions _ _)).trans
    (grecStep_sendsOnly h now i s r).keepsVersions

/-- A query stands for the version that its length tells. -/
theorem mldQuery_keepsVersions (h : Host) (now : Nat) (st : Conf) (i plen : Nat) :
    KeepsVersions st (l4Ipv6Icmpv6MldQuery h now st i plen) := by
  have hv : queryVersion plen ≤ 2 := by
    unfold queryVersion
    split <;> omega
  rw [mldQuery_eq]
  exact (intSetMldVersion_keepsVersions now st i hv).trans
    (queryAnswer_sendsOnly h _ i).keepsVersions

/-- **A message** leaves each version as it was, or makes it one of the three. -/
theorem handle_keepsVersions (h : Host) (now : Nat) (st : Conf) (i len : Nat) (m : Message) :
    KeepsVersions st (m.handle h now st i len) := by
  have hcount := countIcmpReceived_keepsVersions st i
  have hexceeded : ∀ st, KeepsVersions st (countHlimExceeded st) := fun st =>
    ⟨rfl, rfl, fun _ => Or.inl rfl⟩
  cases m with
  | dropped => exact .refl st
  | ignored => exact hcount
  | exceeded => exact hexceeded st
  | data iph => exact multicast_keepsVersions h st i iph len
  | echoExceeded iph off plen =>
    exact (hcount.trans (hexceeded _)).trans (icmp6Send_sendsOnly h _ i _ _ _ _ _).keepsVersions
  | echo iph => exact hcount.trans (multicast_keepsVersions h _ i iph len)
  | mld1Report mld1 => exact hcount.trans (mld1Report_keepsVersions h now _ i mld1)
  | mld1Reduction mld1 => exact hcount.trans (mld1Reduction_keepsVersions h now _ i mld1)
  | mld2Report mld2r plen => exact hcount.trans (mld2Report_keepsVersions h now _ i mld2r plen)
  | query plen => exact hcount.trans (mldQuery_keepsVersions h now _ i plen)

end Messages

/-! ## 4. Steps and runs

The modes are set once, from the options, each of which clears the other. -/

theorem countIntReceived_keepsVersions (st : Conf) (i len : Nat) :
    KeepsVersions st (countIntReceived st i len) := by
  refine ⟨rfl, rfl, fun j => Or.inl ?_⟩
  obtain ⟨p, b, hpb⟩ := countIntReceived_intn st i len j
  rw [hpb]

/-- So does a frame: its interface first, then what is in it. -/
theorem handleinterfaces_keepsVersions (h : Host) (now : Nat) (st : Conf) (f : Frame) :
    KeepsVersions st (handleinterfaces h now st f) := by
  unfold handleinterfaces
  dsimp only
  split
  · exact .refl st
  · have hcount : KeepsVersions st (countReceived st (min f.len bufferlen)) :=
      ⟨rfl, rfl, fun _ => Or.inl rfl⟩
    have hfr := hcount.trans (frameInterface_keepsVersions now _ f)
    split
    · rename_i hcr
      rw [hcr] at hfr
      exact hfr
    · rename_i st1 i hcr
      rw [hcr] at hfr
      have hin := hfr.trans (countIntReceived_keepsVersions st1 i (min f.len bufferlen))
      unfold l2Ethtype
      split
      · rw [l3Ipv6_eq]
        exact hin.trans (handle_keepsVersions h now _ i _ _)
      · exact hin

/-- **One event** leaves each version as it was, or makes it one of the three. -/
theorem step_keepsVersions (h : Host) (st : Conf) (ev : Event) :
    KeepsVersions st (step h st ev) := by
  cases ev with
  | frame now f => exact handleinterfaces_keepsVersions h now st f
  | timeout now ifap =>
    exact ((updateInterfaces_keepsVersions now st none ifap).trans
      (setGroups_keepsVersions _ _)).trans (sendMldQuerys_sendsOnly h _).keepsVersions
  | sigusr2 now => exact (sigusr2_sendsOnly h st).keepsVersions
  | create now ifindex probe =>
    simp only [step]
    split
    · exact .refl st
    · exact intCreate_keepsVersions st ifindex probe
  | destroy now i => exact intDestroy_keepsVersions st i

/-- The modes exclude each other, and there is no version but 0, 1 and 2. -/
structure VersionsOk (st : Conf) : Prop where
  one : ¬ (st.mld1only = true ∧ st.mld2only = true)
  version : ∀ j, (st.intn j).mldVersion ≤ 2

/-- What keeps the versions keeps the invariant. -/
theorem KeepsVersions.versionsOk {st st' : Conf} (hk : KeepsVersions st st') (h : VersionsOk st) :
    VersionsOk st' := by
  refine ⟨?_, fun j => ?_⟩
  · rw [hk.mld1only, hk.mld2only]
    exact h.one
  · rcases hk.version j with hv | hv
    · rw [hv]
      exact h.version j
    · exact hv

/-- In a state that the daemon can reach, every version is one of the three, and not both of the
options for a single version are set. -/
theorem reachable_versionsOk {h : Host} {st : Conf} (hr : Reachable h st) : VersionsOk st := by
  obtain ⟨o, now, ifap, es, rfl⟩ := hr
  refine Runs.run_invariant (P := VersionsOk)
    (fun st ev hs => (step_keepsVersions h st ev).versionsOk hs) es _ ?_
  refine ((updateInterfaces_keepsVersions now (init o) none ifap).trans
    (sendMldQuerys_sendsOnly h _).keepsVersions).versionsOk ?_
  exact ⟨o.exclusive, fun j => Nat.zero_le 2⟩

/-- Every interface gets reports in one of the two versions. -/
theorem VersionsOk.reports_some {st : Conf} (hv : VersionsOk st) (j : Nat) :
    mld1Reports st j = true ∨ mld2Reports st j = true := by
  have hle := hv.version j
  by_cases h1 : st.mld1only = true
  · have h2 : st.mld2only = false := Bool.eq_false_iff.mpr fun h2 => hv.one ⟨h1, h2⟩
    exact Or.inl (by simp [mld1Reports, h1, h2])
  · by_cases h2 : st.mld2only = true
    · exact Or.inr (by simp [mld2Reports, h1, h2])
    · have hcases : (st.intn j).mldVersion = 1 ∨ (st.intn j).mldVersion = 0 ∨
          (st.intn j).mldVersion = 2 := by omega
      rcases hcases with hversion | hversion | hversion
      · exact Or.inl (by simp [mld1Reports, h2, hversion])
      · exact Or.inr (by simp [mld2Reports, h1, hversion])
      · exact Or.inr (by simp [mld2Reports, h1, hversion])

end Ecmh
