/-
# Messages that should have no effect

A corrupt ICMPv6 message is to be dropped, and so is a message of the other version of MLD in
`mld1only` and `mld2only` mode.  The daemon handles them like any others: such a message has no
effect exactly if none like it had one.  `Message.Idle` says when that is.
-/
import Ecmh.Unchanged
import Ecmh.Checksum
import Ecmh.QueryAnswer

namespace Ecmh

open ByteMem

/-! ## 1. The version -/

/-- `int_set_mld_version` has nothing to change. -/
def VersionKept (now : Nat) (st : Conf) (i newversion : Nat) : Prop :=
  if newversion = 1 then st.mld2only = true ∨ (st.intn i).mldVersion ≠ 0
  else ((st.intn i).mldLastV1 = 0 ∨
      now ≤ (st.intn i).mldLastV1 + ecmhSubscriptionTimeout) ∧
    (st.mld1only = true ∨ (st.intn i).mldVersion ≠ 0)

/-- The two fields that `int_set_mld_version` writes are the same. -/
def SameVersion (i : Nat) (st st' : Conf) : Prop :=
  (st'.intn i).mldVersion = (st.intn i).mldVersion ∧ (st'.intn i).mldLastV1 = (st.intn i).mldLastV1

section Version

variable {now : Nat} {st : Conf} {i newversion : Nat}

/-- Where the version is kept, nothing at all is written. -/
theorem intSetMldVersion_of_kept (hk : VersionKept now st i newversion) :
    intSetMldVersion now st i newversion = st := by
  unfold VersionKept at hk
  unfold intSetMldVersion
  split
  · rename_i hv
    rw [if_pos hv] at hk
    split
    · rfl
    · rename_i h2
      exact if_neg fun hc => hk.elim h2 fun h0 => h0 hc.1
  · rename_i hv
    rw [if_neg hv] at hk
    obtain ⟨hlast, hversion⟩ := hk
    have hnew : ¬ ((st.intn i).mldLastV1 ≠ 0 ∧
        now > (st.intn i).mldLastV1 + ecmhSubscriptionTimeout) := by omega
    dsimp only
    rw [if_neg hnew]
    split
    · rfl
    · rename_i h1
      exact if_neg fun hc => hversion.elim h1 fun h0 => h0 hc.1

/-- A call that leaves the fields as they are had nothing to change. -/
theorem versionKept_of_same (hslot : i < st.maxinterfaces) (hv : newversion = 1 ∨ newversion = 2)
    (hs : SameVersion i st (intSetMldVersion now st i newversion)) :
    VersionKept now st i newversion := by
  have hwrite : ∀ f, (st.setInt i f).intn i = f (st.intn i) := by
    intro f
    rw [setInt_intn, if_pos ⟨rfl, hslot⟩]
  unfold VersionKept
  rcases hv with rfl | rfl
  · rw [if_pos rfl]
    by_contra hc
    rw [not_or, not_not] at hc
    have h2 : st.mld2only = false := Bool.eq_false_iff.mpr hc.1
    rw [SameVersion, intSetMldVersion_v1 h2, if_pos hc.2, hwrite, hc.2] at hs
    exact absurd hs.1 Nat.one_ne_zero
  · rw [if_neg (by decide)]
    by_cases hold : (st.intn i).mldLastV1 ≠ 0 ∧
        now > (st.intn i).mldLastV1 + ecmhSubscriptionTimeout
    · -- the stored time is forgotten
      have hzero : ((intSetMldVersion now st i 2).intn i).mldLastV1 = 0 := by
        rw [intSetMldVersion, if_neg (by decide)]
        dsimp only
        rw [if_pos hold]
        split
        · rw [hwrite]
        · split
          · rw [setInt_setInt, hwrite]
            rfl
          · rw [hwrite]
      exact absurd (hs.2.symm.trans hzero) hold.1
    · refine ⟨by omega, ?_⟩
      by_contra hc
      rw [not_or, not_not] at hc
      have h1 : st.mld1only = false := Bool.eq_false_iff.mpr hc.1
      rw [SameVersion, intSetMldVersion_v2 h1 hslot, if_neg hold, if_pos hc.2, hwrite, hc.2] at hs
      exact absurd hs.1 (Nat.succ_ne_zero 1)

end Version

/-! ## 2. The handlers -/

section Handlers

variable {h : Host} {now : Nat} {st : Conf} {i : Nat}

/-- An MLDv1 report leaves the table as it was exactly if its scope is ignored, or it says nothing
that was not said in this second. -/
theorem mld1Report_same_iff (mld1 : Mem) :
    (l4Ipv6Icmpv6Mld1Report h now st i mld1).groups = st.groups ↔
      mld1Ignores (mld1Mca mld1) ∨
        Current now (st.intn i).ifindex st.groups [mld1Join (mld1Mca mld1)] := by
  rw [mld1Report_groups, ← joinTables_eq_self_iff]
  by_cases hign : mld1Ignores (mld1Mca mld1) = true
  · rw [if_pos hign]
    exact iff_of_true rfl (Or.inl hign)
  · rw [if_neg hign]
    exact ⟨Or.inr, fun hc => hc.resolve_left hign⟩

/-- Then it leaves everything but the version: a group that is in the table is not announced. -/
theorem mld1Report_idle {mld1 : Mem} (hidle : mld1Ignores (mld1Mca mld1) ∨
    Current now (st.intn i).ifindex st.groups [mld1Join (mld1Mca mld1)]) :
    l4Ipv6Icmpv6Mld1Report h now st i mld1 = intSetMldVersion now st i 1 := by
  unfold l4Ipv6Icmpv6Mld1Report
  dsimp only
  by_cases hign : mld1Ignores (mld1Mca mld1) = true
  · rw [if_pos hign]
  · have hcur := hidle.resolve_left hign
    have hget := groupintGet_of_stamped (hcur.1 _ (List.mem_singleton_self _))
    have hsame := joinTables_eq_self_iff.mpr hcur
    rw [List.foldl_cons, List.foldl_nil, joinTable, hget] at hsame
    rw [if_neg hign, intSetMldVersion_groups, intSetMldVersion_ifindex]
    simp only [mld1Join] at hget hsame
    rw [hget]
    dsimp only
    rw [if_neg (by simp)]
    have hwrite : setGroupint st.groups (mld1Mca mld1) (st.intn i).ifindex
        (fun grpintn => grpintRefresh now grpintn In6Addr.any mld2ModeIsInclude) = st.groups :=
      hsame
    rw [hwrite, Conf.setGroups, ← intSetMldVersion_groups now st i 1]

/-- A reduction does nothing exactly where there is no `::` subscription. -/
theorem reduceGrpint_eq_self_iff (grpintn : GrpIntNode) : reduceGrpint grpintn = grpintn ↔
    subscrFind grpintn.subscriptions In6Addr.any = none := by
  unfold reduceGrpint subscrUnsub
  dsimp only
  cases hf : subscrFind grpintn.subscriptions In6Addr.any with
  | none => simp
  | some s =>
    refine iff_of_false ?_ (by simp)
    have hlt : (listDeleteNode grpintn.subscriptions
        (fun s => s.ipv6 = In6Addr.any)).nodes.length < grpintn.subscriptions.nodes.length := by
      have hmem := KeyedList.mem_of_find hf
      have hkey := KeyedList.key_of_find hf
      have hlen := List.length_eraseP_of_mem (p := fun s : SubscrNode => s.ipv6 = In6Addr.any) hmem
        (by simpa using hkey)
      have hpos := List.length_pos_of_mem hmem
      rw [listDeleteNode, hlen]
      omega
    intro hsame
    have hlen := congrArg (fun g => g.subscriptions.nodes.length) hsame
    dsimp only [Bool.not_true] at hlen
    rw [if_neg (by simp)] at hlen
    split at hlen
    · exact absurd hlen (Nat.ne_of_lt hlt)
    · exact absurd hlen (Nat.ne_of_lt hlt)

/-- A reduction leaves the table as it was exactly if its scope is ignored, or the subscription is
not there. -/
theorem mld1Reduction_same_iff (mld1 : Mem) :
    (l4Ipv6Icmpv6Mld1Reduction h now st i mld1).groups = st.groups ↔
      mld1Ignores (mld1Mca mld1) ∨
        membershipOf st.groups (mld1Mca mld1) (st.intn i).ifindex In6Addr.any = none := by
  rw [mld1Reduction_groups]
  by_cases hign : mld1Ignores (mld1Mca mld1) = true
  · rw [if_pos hign]
    exact iff_of_true rfl (Or.inl hign)
  · rw [if_neg hign, TableOp.apply, setGroupint_eq_self_iff, membershipOf]
    simp only [hign, reduceGrpint_eq_self_iff, Bool.false_eq_true, false_or]
    cases groupintFind st.groups (mld1Mca mld1) (st.intn i).ifindex with
    | none => simp
    | some grpintn => simp

/-- Then it leaves everything but the version, and asks nobody. -/
theorem mld1Reduction_idle {mld1 : Mem} (hidle : mld1Ignores (mld1Mca mld1) ∨
    membershipOf st.groups (mld1Mca mld1) (st.intn i).ifindex In6Addr.any = none) :
    l4Ipv6Icmpv6Mld1Reduction h now st i mld1 = intSetMldVersion now st i 1 := by
  unfold l4Ipv6Icmpv6Mld1Reduction
  dsimp only
  by_cases hign : mld1Ignores (mld1Mca mld1) = true
  · rw [if_pos hign]
  · have hnone := hidle.resolve_left hign
    rw [if_neg hign, intSetMldVersion_groups, intSetMldVersion_ifindex]
    simp only [membershipOf, groupintFind] at hnone
    cases hg : groupFind st.groups (mld1Mca mld1) with
    | none => rfl
    | some groupn =>
      simp only [hg] at hnone
      cases hi : grpintFind groupn.interfaces (st.intn i).ifindex with
      | none => simp [hi]
      | some grpintn =>
        rw [hi, Option.bind_some] at hnone
        simp [hi, subscrUnsub, hnone]

/-- The groups that the records of an MLDv2 report name, with what they ask. -/
def mld2Joins (e : Endian) (mld2r : Mem) (plen : Nat) : List Join :=
  (grecWalk e mld2r plen (e.htons (e.load16 mld2r 6)) 8).1.filterMap GrecSeen.join

/-- "Too many group records": the first check of the handler. -/
def mld2TooMany (e : Endian) (mld2r : Mem) (plen : Nat) : Prop :=
  8 + e.htons (e.load16 mld2r 6) * 20 > plen

/-- An MLDv2 report leaves the table as it was exactly if it counts too many records, or all of it
was said in this second. -/
theorem mld2Report_same_iff (mld2r : Mem) (plen : Nat) :
    (l4Ipv6Icmpv6Mld2Report h now st i mld2r plen).st.groups = st.groups ↔
      mld2TooMany h.endian mld2r plen ∨
        Current now (st.intn i).ifindex st.groups (mld2Joins h.endian mld2r plen) := by
  rw [mld2Report_groups, ← joinTables_eq_self_iff, mld2Op, mld2TooMany]
  by_cases hmany : 8 + h.endian.htons (h.endian.load16 mld2r 6) * 20 > plen
  · rw [if_pos hmany]
    exact iff_of_true rfl (Or.inl hmany)
  · rw [if_neg hmany]
    exact ⟨Or.inr, fun hc => hc.resolve_left hmany⟩

/-- Records whose groups are all stamped are not announced. -/
theorem mld2Grecs_stamped (mld2r : Mem) (plen : Nat) : ∀ (ngrec : Nat) (st : Conf) (grec : Nat)
    (visits : List Visit),
    (∀ j ∈ (grecWalk h.endian mld2r plen ngrec grec).1.filterMap GrecSeen.join,
      Stamped now st.groups j.mca (st.intn i).ifindex) →
    (mld2Grecs h now i mld2r plen ngrec st grec false visits).st
      = st.setGroups (mld2Grecs h now i mld2r plen ngrec st grec false visits).st.groups := by
  intro ngrec
  induction ngrec with
  | zero => exact fun st _ _ _ => rfl
  | succ ngrec ih =>
    intro st grec visits hst
    rw [grecWalk] at hst
    rw [mld2Grecs]
    split
    · rfl
    · rename_i hin
      rw [if_neg hin] at hst
      dsimp only at hst ⊢
      split
      · rfl
      · rename_i hknown
        rw [if_neg hknown] at hst
        by_cases hign : mld2Ignores (readAddr mld2r (grec + 4)) = true
        · simp only [hign, if_pos]
          split
          · rfl
          · rename_i hmany
            rw [if_neg hmany] at hst
            refine ih _ _ _ fun j hj => hst j ?_
            rw [List.filterMap_cons_none (by simp [GrecSeen.join, hign])]
            exact hj
        · simp only [hign]
          split
          · rfl
          · rename_i hmany
            rw [if_neg hmany] at hst
            have hjoin : (GrecSeen.mk grec (mld2r grec).toNat (readAddr mld2r (grec + 4))
                (some (readAddrs mld2r (grec + 20) (h.endian.htons
                  (h.endian.load16 mld2r (grec + 2)))))).join
                = some ⟨readAddr mld2r (grec + 4), grecRows (mld2r grec).toNat
                    (readAddrs mld2r (grec + 20) (h.endian.htons
                      (h.endian.load16 mld2r (grec + 2))))⟩ := by
              simp [GrecSeen.join, hign, hknown]
            rw [List.filterMap_cons_some hjoin] at hst
            obtain ⟨hfirst, hst⟩ := List.forall_mem_cons.mp hst
            rw [groupintGet_of_stamped hfirst]
            refine ih _ _ _ fun j hj => ?_
            refine (hst j hj).setGroupint _ _ ?_
            rw [grecRefresh_eq]
            exact refreshRows_ifindex now _

/-- Then it leaves everything but the version. -/
theorem mld2Report_idle {mld2r : Mem} {plen : Nat} (hidle : mld2TooMany h.endian mld2r plen ∨
    Current now (st.intn i).ifindex st.groups (mld2Joins h.endian mld2r plen)) :
    (l4Ipv6Icmpv6Mld2Report h now st i mld2r plen).st = intSetMldVersion now st i 2 := by
  have hsame := (mld2Report_same_iff (h := h) mld2r plen).mpr hidle
  unfold l4Ipv6Icmpv6Mld2Report at hsame ⊢
  dsimp only at hsame ⊢
  by_cases hmany : 8 + h.endian.htons (h.endian.load16 mld2r 6) * 20 > plen
  · rw [if_pos hmany]
  · have hcur := hidle.resolve_left hmany
    rw [if_neg hmany] at hsame ⊢
    rw [mld2Grecs_stamped mld2r plen _ _ 8 [] fun j hj => ?_, hsame, Conf.setGroups,
      ← intSetMldVersion_groups now st i 2]
    rw [intSetMldVersion_groups, intSetMldVersion_ifindex]
    exact hcur.1 j hj

/-- A query of which the answer is empty. -/
def Unanswered (st : Conf) (i : Nat) : Prop :=
  if answersMld1 st i then ∀ g, ¬ HasGrpint st.groups (st.intn i).ifindex g
  else if answersMld2 st i then ∀ groupn ∈ st.groups.nodes, reportsGroup none groupn →
    wanted (st.intn i).ifindex groupn = []
  else True

/-- A query that is not answered leaves everything but the version. -/
theorem queryAnswer_idle (hidle : Unanswered st i) : queryAnswer h st i = st := by
  unfold Unanswered at hidle
  unfold queryAnswer
  split
  · rename_i h1
    rw [if_pos h1] at hidle
    exact mld1Answer_quiet hidle
  · rename_i h1
    rw [if_neg h1] at hidle
    split
    · rename_i h2
      rw [if_pos h2] at hidle
      exact mld2SendReport_idle hidle
    · rfl

/-- A query that is answered with nothing is not answered, where the version lets reports out and
the MTU has room for a record. -/
theorem unanswered_of_silent (hv : answersMld1 st i → mld1Reports st i = true)
    (hmtu : answersMld2 st i → 1280 ≤ (st.intn i).mtu ∧ (st.intn i).mtu < 2 ^ 20)
    (hsent : (queryAnswer h st i).sent = st.sent) : Unanswered st i := by
  unfold queryAnswer at hsent
  unfold Unanswered
  split
  · rename_i h1
    rw [if_pos h1] at hsent
    intro g hg
    exact (mld1Answer_tells (hv h1) hg).ne hsent
  · rename_i h1
    rw [if_neg h1] at hsent
    split
    · rename_i h2
      rw [if_pos h2] at hsent
      exact (mld2SendReport_silent_iff (hmtu h2).1 (hmtu h2).2).mp hsent
    · trivial

/-- The packets that `l4_ipv6_multicast` has nothing to do with. -/
def Unrouted (groups : Groups) (iph : Mem) : Prop :=
  multicastIgnores (readAddr iph ip6Src) (readAddr iph ip6Dst) = true ∨
    groupFind groups (readAddr iph ip6Dst) = none

/-- A packet to a group that nobody asked for is not counted either. -/
theorem multicast_idle {iph : Mem} {len : Nat} (hidle : Unrouted st.groups iph) :
    l4Ipv6Multicast h st i iph len = st := by
  unfold l4Ipv6Multicast
  dsimp only
  split
  · rfl
  · rename_i hign
    rw [hidle.resolve_left hign]

/-- A packet for a group of the table is counted there. -/
theorem unrouted_of_same {iph : Mem} {len : Nat}
    (hsame : (l4Ipv6Multicast h st i iph len).groups = st.groups) : Unrouted st.groups iph := by
  rw [multicast_groups h 0, multicastOp] at hsame
  by_cases hign : multicastIgnores (readAddr iph ip6Src) (readAddr iph ip6Dst) = true
  · exact Or.inl hign
  · rw [if_neg hign, TableOp.apply, setGroup] at hsame
    have hsame := KeyedList.adjust_eq_self_iff.mp (congrArg CList.nodes hsame)
    refine Or.inr (Option.eq_none_iff_forall_ne_some.mpr fun groupn hg => ?_)
    have hcount := congrArg GroupNode.packets (hsame groupn hg)
    simp [countGroup] at hcount

end Handlers

/-! ## 3. Messages -/

/-- The message asks for nothing that is not so already: nothing is written to the table, and
nothing is sent. -/
def Message.Idle (e : Endian) (now : Nat) (st : Conf) (i : Nat) : Message → Prop
  | .dropped => True
  | .ignored => True
  | .exceeded => True
  | .data iph => Unrouted st.groups iph
  | .echoExceeded _ _ _ => False
  | .echo iph => Unrouted st.groups iph
  | .mld1Report mld1 => mld1Ignores (mld1Mca mld1) ∨
    Current now (st.intn i).ifindex st.groups [mld1Join (mld1Mca mld1)]
  | .mld1Reduction mld1 => mld1Ignores (mld1Mca mld1) ∨
    membershipOf st.groups (mld1Mca mld1) (st.intn i).ifindex In6Addr.any = none
  | .mld2Report mld2r plen => mld2TooMany e mld2r plen ∨
    Current now (st.intn i).ifindex st.groups (mld2Joins e mld2r plen)
  | .query _ => Unanswered st i

/-- The version of MLD that a message stands for. -/
def Message.version : Message → Option Nat
  | .mld1Report _ => some 1
  | .mld1Reduction _ => some 1
  | .mld2Report _ _ => some 2
  | .query plen => some (queryVersion plen)
  | _ => none

/-- The state when the version has been set, and nothing else. -/
def Message.received (now : Nat) (st : Conf) (i : Nat) (m : Message) : Conf :=
  match m.version with
  | some version => intSetMldVersion now (countIcmpReceived st i) i version
  | none =>
    match m with
    | .ignored => countIcmpReceived st i
    | .exceeded => countHlimExceeded st
    | .echo _ => countIcmpReceived st i
    | _ => st

/-- A query finds the interface as it was before, but for the version. -/
structure SameQuery (i : Nat) (st st' : Conf) : Prop where
  groups : st'.groups = st.groups
  ifindex : (st'.intn i).ifindex = (st.intn i).ifindex
  mld1 : answersMld1 st' i ↔ answersMld1 st i
  mld2 : answersMld2 st' i ↔ answersMld2 st i

/-- Whether a query is answered can be told from what is not counted. -/
theorem SameQuery.unanswered {i : Nat} {st st' : Conf} (hs : SameQuery i st st') :
    Unanswered st' i ↔ Unanswered st i := by
  simp only [Unanswered, hs.groups, hs.ifindex, hs.mld1, hs.mld2]

section Messages

variable {h : Host} {now : Nat} {st : Conf} {i len : Nat}

/-- The count of a message touches none of the fields that its handler reads. -/
theorem countIcmpReceived_fields (st : Conf) (i : Nat) :
    ((countIcmpReceived st i).intn i).mldVersion = (st.intn i).mldVersion ∧
    ((countIcmpReceived st i).intn i).mldLastV1 = (st.intn i).mldLastV1 ∧
    ((countIcmpReceived st i).intn i).mtu = (st.intn i).mtu := by
  obtain ⟨n, hn⟩ := countIcmpReceived_intn st i i
  rw [hn]
  exact ⟨rfl, rfl, rfl⟩

theorem countIcmpReceived_maxinterfaces (st : Conf) (i : Nat) :
    (countIcmpReceived st i).maxinterfaces = st.maxinterfaces := setInt_maxinterfaces st i _

/-- The state in which a query is answered. -/
theorem sameQuery_received {plen : Nat} (hmode : st.mld1only = true ∨ st.mld2only = true ∨
    SameVersion i st (intSetMldVersion now (countIcmpReceived st i) i (queryVersion plen))) :
    SameQuery i st (intSetMldVersion now (countIcmpReceived st i) i (queryVersion plen)) := by
  obtain ⟨hm1, hm2, -⟩ := intSetMldVersion_modes now (countIcmpReceived st i) i (queryVersion plen)
  have h1 : (countIcmpReceived st i).mld1only = st.mld1only := rfl
  have h2 : (countIcmpReceived st i).mld2only = st.mld2only := rfl
  rw [h1] at hm1
  rw [h2] at hm2
  have hidx := (intSetMldVersion_ifindex now (countIcmpReceived st i) i (queryVersion plen) i).trans
    (countIcmpReceived_ifindex st i i)
  refine ⟨intSetMldVersion_groups .., hidx, ?_, ?_⟩
  · rcases hmode with hmode | hmode | hmode
    · simp [answersMld1, hm1, hm2, hmode]
    · simp [answersMld1, hm2, hmode]
    · rw [answersMld1, answersMld1, hm1, hm2, hmode.1]
  · rcases hmode with hmode | hmode | hmode
    · simp [answersMld2, hm1, hmode]
    · simp [answersMld2, hm1, hm2, hmode]
    · rw [answersMld2, answersMld2, hm1, hm2, hmode.1]

/-- What an idle message leaves. -/
theorem handle_idle {m : Message} (hidle : m.Idle h.endian now st i)
    (hquery : ∀ plen, m = .query plen → SameQuery i st
      (intSetMldVersion now (countIcmpReceived st i) i (queryVersion plen))) :
    m.handle h now st i len = m.received now st i := by
  have hidx := countIcmpReceived_ifindex st i i
  cases m with
  | dropped => rfl
  | ignored => rfl
  | exceeded => rfl
  | data iph => exact multicast_idle hidle
  | echoExceeded iph off plen => exact absurd hidle id
  | echo iph =>
    exact (multicast_idle hidle : l4Ipv6Multicast h (countIcmpReceived st i) i iph len = _)
  | mld1Report mld1 =>
    refine (mld1Report_idle ?_ : l4Ipv6Icmpv6Mld1Report h now (countIcmpReceived st i) i mld1 = _)
    rw [hidx]
    exact hidle
  | mld1Reduction mld1 =>
    refine (mld1Reduction_idle ?_ :
      l4Ipv6Icmpv6Mld1Reduction h now (countIcmpReceived st i) i mld1 = _)
    rw [hidx]
    exact hidle
  | mld2Report mld2r plen =>
    refine (mld2Report_idle ?_ :
      (l4Ipv6Icmpv6Mld2Report h now (countIcmpReceived st i) i mld2r plen).st = _)
    rw [hidx]
    exact hidle
  | query plen => exact queryAnswer_idle ((hquery plen rfl).unanswered.mpr hidle)

/-- An error is always handed to `sendpacket6`. -/
theorem icmp6Send_sent_ne (h : Host) (st : Conf) (i : Nat) (src : In6Addr) (type code : UInt8)
    (data : Mem) (dlen : Nat) : (icmp6Send h st i src type code data dlen).sent ≠ st.sent := by
  rw [icmp6Send_eq, countIcmpSent_sent, sendpacket6_sent]
  exact fun hc => absurd (List.append_right_eq_self.mp hc) (List.cons_ne_nil _ _)

/-- A message that neither writes to the table nor makes the daemon send is idle. -/
theorem idle_of_handle {m : Message}
    (hmtu : ∀ plen, m = .query plen → st.mld1only = false →
      1280 ≤ (st.intn i).mtu ∧ (st.intn i).mtu < 2 ^ 20)
    (hquery : ∀ plen, m = .query plen → SameQuery i st
      (intSetMldVersion now (countIcmpReceived st i) i (queryVersion plen)))
    (hgroups : (m.handle h now st i len).groups = st.groups)
    (hsent : (m.handle h now st i len).sent = st.sent) : m.Idle h.endian now st i := by
  have hidx := countIcmpReceived_ifindex st i i
  cases m with
  | dropped => trivial
  | ignored => trivial
  | exceeded => trivial
  | data iph => exact unrouted_of_same hgroups
  | echoExceeded iph off plen => exact icmp6Send_sent_ne h _ i _ _ _ _ _ hsent
  | echo iph =>
    exact @unrouted_of_same h (countIcmpReceived st i) i iph len hgroups
  | mld1Report mld1 =>
    have hidle := (@mld1Report_same_iff h now (countIcmpReceived st i) i mld1).mp hgroups
    rw [hidx] at hidle
    exact hidle
  | mld1Reduction mld1 =>
    have hidle := (@mld1Reduction_same_iff h now (countIcmpReceived st i) i mld1).mp hgroups
    rw [hidx] at hidle
    exact hidle
  | mld2Report mld2r plen =>
    have hidle := (@mld2Report_same_iff h now (countIcmpReceived st i) i mld2r plen).mp hgroups
    rw [hidx] at hidle
    exact hidle
  | query plen =>
    have hmtu' : ((intSetMldVersion now (countIcmpReceived st i) i (queryVersion plen)).intn i).mtu
        = (st.intn i).mtu := by
      rw [intSetMldVersion_intn]
      exact (countIcmpReceived_fields st i).2.2
    have hsame := hquery plen rfl
    refine hsame.unanswered.mp (unanswered_of_silent (h := h) (fun ha => ?_) (fun ha => ?_) ?_)
    · exact mld1Reports_of_answersMld1 ha
    · rw [hmtu']
      refine hmtu plen rfl ?_
      have h1 := (hsame.mld2.mp ha).1
      rwa [Bool.not_eq_true'] at h1
    · rw [intSetMldVersion_sent]
      exact hsent

end Messages

/-! ## 4. The other version, in the only-modes -/

/-- The messages that the modes leave out: MLDv1 reports, MLDv1 reductions and queries of 24 bytes
in `mld2only` mode, MLDv2 reports and all other queries in `mld1only` mode. -/
inductive OtherVersion (st : Conf) : Message → Prop
  | mld1Report (h : st.mld2only = true) (mld1 : Mem) : OtherVersion st (.mld1Report mld1)
  | mld1Reduction (h : st.mld2only = true) (mld1 : Mem) : OtherVersion st (.mld1Reduction mld1)
  | mld1Query (h : st.mld2only = true) : OtherVersion st (.query 24)
  | mld2Report (h : st.mld1only = true) (mld2r : Mem) (plen : Nat) :
      OtherVersion st (.mld2Report mld2r plen)
  | mld2Query (h : st.mld1only = true) {plen : Nat} (hplen : plen ≠ 24) :
      OtherVersion st (.query plen)

/-- What a message that is ignored leaves unchanged. -/
structure LeavesAlone (i : Nat) (st st' : Conf) : Prop where
  groups : st'.groups = st.groups
  version : (st'.intn i).mldVersion = (st.intn i).mldVersion
  sent : st'.sent = st.sent

/-- An MLDv2 message comes while no MLDv1 message is out of date. -/
def VersionStays (now : Nat) (st : Conf) (i : Nat) (m : Message) : Prop :=
  m.version = some 2 → (st.intn i).mldVersion = 0 ∨ (st.intn i).mldLastV1 = 0 ∨
    now ≤ (st.intn i).mldLastV1 + ecmhSubscriptionTimeout

section OtherVersion

variable {h : Host} {now : Nat} {st : Conf} {i : Nat} {m : Message}

/-- A message of the other version, in a mode for one. -/
theorem OtherVersion.mode (hm : OtherVersion st m) :
    m.version = some 1 ∧ st.mld2only = true ∨ m.version = some 2 ∧ st.mld1only = true := by
  cases hm with
  | mld1Report h => exact Or.inl ⟨rfl, h⟩
  | mld1Reduction h => exact Or.inl ⟨rfl, h⟩
  | mld1Query h => exact Or.inl ⟨rfl, h⟩
  | mld2Report h => exact Or.inr ⟨rfl, h⟩
  | mld2Query h hplen => exact Or.inr ⟨by rw [Message.version, queryVersion, if_neg hplen], h⟩

/-- In `mld1only` mode MLDv2 messages only bring back version 0. -/
theorem intSetMldVersion_mld1only (h1 : st.mld1only = true) (hslot : i < st.maxinterfaces) :
    ((intSetMldVersion now st i 2).intn i).mldVersion
      = if (st.intn i).mldLastV1 ≠ 0 ∧ now > (st.intn i).mldLastV1 + ecmhSubscriptionTimeout then 0
        else (st.intn i).mldVersion := by
  rw [intSetMldVersion, if_neg (by decide)]
  dsimp only
  by_cases hold : (st.intn i).mldLastV1 ≠ 0 ∧ now > (st.intn i).mldLastV1 + ecmhSubscriptionTimeout
  · rw [if_pos hold, if_pos hold, setInt_mld1only, if_pos h1, setInt_intn, if_pos ⟨rfl, hslot⟩]
  · rw [if_neg hold, if_neg hold, if_pos h1]

/-- Whether such a message leaves the version can be told beforehand. -/
theorem received_version_iff (hm : OtherVersion st m) (hslot : i < st.maxinterfaces) :
    ((m.received now st i).intn i).mldVersion = (st.intn i).mldVersion ↔
      VersionStays now st i m := by
  obtain ⟨hversion, hlast, -⟩ := countIcmpReceived_fields st i
  rcases hm.mode with ⟨hv, h2⟩ | ⟨hv, h1⟩
  · have h2' : (countIcmpReceived st i).mld2only = true := h2
    have hreceived : m.received now st i = countIcmpReceived st i := by
      simp only [Message.received, hv, intSetMldVersion, h2', if_true]
    rw [hreceived]
    refine iff_of_true hversion fun hc => ?_
    rw [hv] at hc
    cases hc
  · have hreceived : m.received now st i = intSetMldVersion now (countIcmpReceived st i) i 2 := by
      simp only [Message.received, hv]
    have hslot' : i < (countIcmpReceived st i).maxinterfaces := by
      rw [countIcmpReceived_maxinterfaces]
      exact hslot
    have h1' : (countIcmpReceived st i).mld1only = true := h1
    rw [hreceived, intSetMldVersion_mld1only h1' hslot', hversion, hlast, VersionStays]
    split
    · constructor
      · exact fun hc _ => Or.inl hc.symm
      · intro hc
        have := hc hv
        omega
    · refine iff_of_true rfl fun _ => ?_
      omega

/-- Setting the version neither writes to the table nor sends. -/
theorem received_groups_sent (hv : m.version.isSome) :
    (m.received now st i).groups = st.groups ∧ (m.received now st i).sent = st.sent := by
  obtain ⟨version, hv⟩ := Option.isSome_iff_exists.mp hv
  simp only [Message.received, hv]
  exact ⟨intSetMldVersion_groups now (countIcmpReceived st i) i version,
    intSetMldVersion_sent now (countIcmpReceived st i) i version⟩

end OtherVersion

/-- **The only-modes ignore messages of the other version** that ask for nothing new, and no
others. -/
theorem only_modes_ignore_iff {h : Host} {st : Conf} (hr : Reachable h st) {k i : Nat}
    (hi : intFind st k = some i) {m : Message} (hm : OtherVersion st m) (now len : Nat) :
    (m.Idle h.endian now st i ∧ VersionStays now st i m →
      LeavesAlone i st (m.handle h now st i len)) ∧
    ((st.mld1only = false → (st.intn i).mtu < 2 ^ 20) →
      LeavesAlone i st (m.handle h now st i len) →
      m.Idle h.endian now st i ∧ VersionStays now st i m) := by
  obtain ⟨rfl, hslot, hused⟩ := intFind_eq_some.mp hi
  have hmtu := (reachable_intsOk hr).mtu i hused
  have hquery : ∀ plen, m = .query plen → SameQuery i st
      (intSetMldVersion now (countIcmpReceived st i) i (queryVersion plen)) := by
    intro plen _
    refine sameQuery_received ?_
    exact hm.mode.elim (fun hv => Or.inr (Or.inl hv.2)) fun hv => Or.inl hv.2
  have hv : m.version.isSome := by
    rcases hm.mode with ⟨hv, -⟩ | ⟨hv, -⟩ <;> rw [hv] <;> rfl
  obtain ⟨hgroups, hsent⟩ : (m.received now st i).groups = st.groups ∧
    (m.received now st i).sent = st.sent := received_groups_sent hv
  constructor
  · rintro ⟨hidle, hstays⟩
    rw [handle_idle hidle hquery]
    exact ⟨hgroups, (received_version_iff hm hslot).mpr hstays, hsent⟩
  · intro hlt halone
    have hidle := idle_of_handle (fun plen _ h1 => ⟨hmtu, hlt h1⟩) hquery halone.groups
      halone.sent
    refine ⟨hidle, (received_version_iff hm hslot).mp ?_⟩
    have hsame := halone.version
    rw [handle_idle hidle hquery] at hsame
    exact hsame

/-- The daemon with `-2`, and an interface. -/
def mld2onlyInt : Conf :=
  run (quietHost .little) (boot (quietHost .little) ⟨none, false, true, by decide⟩ 0 none)
    [.create 0 1 ethernetProbe]

/-- In `mld2only` mode an MLDv1 reduction for a group that nobody has joined is ignored. -/
theorem unknown_reduction_ignored : LeavesAlone 1 mld2onlyInt
    ((Message.mld1Reduction (Mem.ofList mld1DoneMessage)).handle (quietHost .little) 1 mld2onlyInt 1
      64) :=
  (only_modes_ignore_iff (h := quietHost .little) ⟨_, 0, none, _, rfl⟩
    (by decide +kernel : intFind mld2onlyInt 1 = some 1)
    (OtherVersion.mld1Reduction (by decide +kernel) (Mem.ofList mld1DoneMessage)) 1 64).1
    ⟨Or.inr (by decide +kernel), fun hc => by cases hc⟩

/-- An MLDv1 report is not. -/
theorem mld1_join_in_mld2only : Reachable (quietHost .little) mld2onlyInt ∧
    intFind mld2onlyInt 1 = some 1 ∧
    OtherVersion mld2onlyInt (.mld1Report (Mem.ofList mld1JoinMessage)) ∧
    ¬ LeavesAlone 1 mld2onlyInt ((Message.mld1Report (Mem.ofList mld1JoinMessage)).handle
      (quietHost .little) 1 mld2onlyInt 1 64) := by
  refine ⟨⟨_, 0, none, _, rfl⟩, by decide +kernel, .mld1Report (by decide +kernel) _, ?_⟩
  intro halone
  have hjoined : ((Message.mld1Report (Mem.ofList mld1JoinMessage)).handle (quietHost .little) 1
      mld2onlyInt 1 64).groups ≠ mld2onlyInt.groups := by decide +kernel
  exact hjoined halone.groups

/-! ## 5. Corrupt messages -/

/-- The header chain ends in an ICMPv6 message of a type that the daemon goes on with, whose stored
checksum is not the computed one. -/
structure Corrupt (e : Endian) (iph : Mem) (len off plen : Nat) : Prop where
  walk : headerWalk e iph len = some (ipprotoIcmpv6, off, plen)
  wanted : icmpv6Wanted (iph off) = true
  checksum : checksumOk e iph off plen = false

/-- Nothing but the statistics of what was received has changed. -/
structure OnlyReceived (st st' : Conf) : Prop where
  rest : st' = { st with
    ints := st'.ints
    statPacketsReceived := st'.statPacketsReceived
    statBytesReceived := st'.statBytesReceived
    statIcmpReceived := st'.statIcmpReceived }
  maxinterfaces : st'.maxinterfaces = st.maxinterfaces
  intn : ∀ j, st'.intn j = { st.intn j with
    statPacketsReceived := (st'.intn j).statPacketsReceived
    statBytesReceived := (st'.intn j).statBytesReceived
    statIcmpReceived := (st'.intn j).statIcmpReceived }

/-- The version that the message stands for is none that the interface would change to. -/
def KeepsVersion (now : Nat) (st : Conf) (i : Nat) (m : Message) : Prop :=
  ∀ version, m.version = some version → VersionKept now st i version

section Corrupt

variable {h : Host} {now : Nat} {st : Conf} {i : Nat} {m : Message}

theorem OnlyReceived.refl (st : Conf) : OnlyReceived st st := ⟨rfl, rfl, fun _ => rfl⟩

/-- A message is counted, whatever becomes of it. -/
theorem countIcmpReceived_onlyReceived (st : Conf) (i : Nat) :
    OnlyReceived st (countIcmpReceived st i) := by
  refine ⟨rfl, countIcmpReceived_maxinterfaces st i, fun j => ?_⟩
  obtain ⟨n, hn⟩ := countIcmpReceived_intn st i j
  rw [hn]

/-- The count does not decide on the version. -/
theorem versionKept_countIcmpReceived {newversion : Nat} :
    VersionKept now (countIcmpReceived st i) i newversion ↔ VersionKept now st i newversion := by
  obtain ⟨hversion, hlast, -⟩ := countIcmpReceived_fields st i
  rw [VersionKept, VersionKept, hversion, hlast]
  exact Iff.rfl

/-- Where the version is kept, a message leaves nothing but its count. -/
theorem received_onlyReceived (hkeep : KeepsVersion now st i m) (hm : m ≠ .exceeded) :
    OnlyReceived st (m.received now st i) := by
  unfold Message.received
  split
  · rename_i version hv
    rw [intSetMldVersion_of_kept (versionKept_countIcmpReceived.mpr (hkeep version hv))]
    exact countIcmpReceived_onlyReceived st i
  · split
    · exact countIcmpReceived_onlyReceived st i
    · exact absurd rfl hm
    · exact countIcmpReceived_onlyReceived st i
    · exact .refl st

/-- A message stands for one of two versions. -/
theorem Message.version_eq {version : Nat} (hv : m.version = some version) :
    version = 1 ∨ version = 2 := by
  unfold Message.version at hv
  split at hv
  · exact Or.inl (Option.some.inj hv).symm
  · exact Or.inl (Option.some.inj hv).symm
  · exact Or.inr (Option.some.inj hv).symm
  · rw [← Option.some.inj hv, queryVersion]
    split
    · exact Or.inl rfl
    · exact Or.inr rfl
  · cases hv

/-- If the version is the same afterwards, it was kept. -/
theorem keepsVersion_of_same (hslot : i < st.maxinterfaces)
    (hs : SameVersion i st (m.received now st i)) : KeepsVersion now st i m := by
  intro version hv
  obtain ⟨hversion, hlast, -⟩ := countIcmpReceived_fields st i
  refine versionKept_countIcmpReceived.mp (versionKept_of_same ?_ (Message.version_eq hv) ?_)
  · rw [countIcmpReceived_maxinterfaces]
    exact hslot
  · simp only [Message.received, hv] at hs
    exact ⟨hs.1.trans hversion.symm, hs.2.trans hlast.symm⟩

/-- Who only counts, keeps the version. -/
theorem OnlyReceived.sameVersion {st' : Conf} (hs : OnlyReceived st st') :
    SameVersion i st st' := by
  rw [SameVersion, hs.intn i]
  exact ⟨rfl, rfl⟩

/-- **When a message leaves nothing but its count**: when it is idle and of the version that the
interface has. -/
theorem handle_onlyReceived_iff (hslot : i < st.maxinterfaces) (hm : m ≠ .exceeded) (len : Nat) :
    (m.Idle h.endian now st i ∧ KeepsVersion now st i m →
      OnlyReceived st (m.handle h now st i len)) ∧
    ((st.mld1only = false → 1280 ≤ (st.intn i).mtu ∧ (st.intn i).mtu < 2 ^ 20) →
      OnlyReceived st (m.handle h now st i len) →
      m.Idle h.endian now st i ∧ KeepsVersion now st i m) := by
  constructor
  · rintro ⟨hidle, hkeep⟩
    have hreceived := received_onlyReceived hkeep hm
    rw [handle_idle hidle]
    · exact hreceived
    · rintro plen rfl
      exact sameQuery_received (Or.inr (Or.inr hreceived.sameVersion))
  · intro hmtu honly
    have hgroups : (m.handle h now st i len).groups = st.groups := by rw [honly.rest]
    have hsent : (m.handle h now st i len).sent = st.sent := by rw [honly.rest]
    have hquery : ∀ plen, m = .query plen → SameQuery i st
        (intSetMldVersion now (countIcmpReceived st i) i (queryVersion plen)) := by
      rintro plen rfl
      refine sameQuery_received (Or.inr (Or.inr ?_))
      -- the answer does not touch the version again
      have hanswer := (queryAnswer_sendsOnly h
        (intSetMldVersion now (countIcmpReceived st i) i (queryVersion plen)) i).intn i
      have hsame : SameVersion i st (queryAnswer h
          (intSetMldVersion now (countIcmpReceived st i) i (queryVersion plen)) i) :=
        honly.sameVersion
      rw [SameVersion, hanswer.2] at hsame
      exact hsame
    have hidle := idle_of_handle (fun _ _ => hmtu) hquery hgroups hsent
    have hhandle : m.handle h now st i len = m.received now st i := handle_idle hidle hquery
    rw [hhandle] at honly
    exact ⟨hidle, keepsVersion_of_same hslot honly.sameVersion⟩

/-- A packet whose header chain ends in ICMPv6 is none that is dropped for its hop limit. -/
theorem l3Message_ne_exceeded {e : Endian} {intn : IntNode} {iph : Mem} {len off plen : Nat}
    (hwalk : headerWalk e iph len = some (ipprotoIcmpv6, off, plen)) :
    l3Message e intn iph len ≠ .exceeded := by
  unfold l3Message
  dsimp only
  split
  · simp
  · split
    · simp
    · rw [hwalk]
      dsimp only
      rw [if_pos rfl]
      unfold icmpv6Message
      dsimp only
      repeat' split
      all_goals simp

end Corrupt

/-- **A corrupt ICMPv6 message is dropped** if it would have no effect with the right checksum, and
otherwise it is not. -/
theorem corrupt_icmpv6_dropped_iff {h : Host} {now : Nat} {st : Conf} {i : Nat}
    (hslot : i < st.maxinterfaces) {iph : Mem} {len off plen : Nat}
    (hc : Corrupt h.endian iph len off plen) :
    ((l3Message h.endian (st.intn i) iph len).Idle h.endian now st i ∧
        KeepsVersion now st i (l3Message h.endian (st.intn i) iph len) →
      OnlyReceived st (l3Ipv6 h now st i iph len)) ∧
    ((st.mld1only = false → 1280 ≤ (st.intn i).mtu ∧ (st.intn i).mtu < 2 ^ 20) →
      OnlyReceived st (l3Ipv6 h now st i iph len) →
      (l3Message h.endian (st.intn i) iph len).Idle h.endian now st i ∧
        KeepsVersion now st i (l3Message h.endian (st.intn i) iph len)) := by
  rw [l3Ipv6_eq]
  exact handle_onlyReceived_iff hslot (l3Message_ne_exceeded hc.walk) len

/-- An echo request to `ff05::1` with a checksum of 0. -/
def corruptEcho : Mem :=
  Mem.ofList (ipv6Packet ipprotoIcmpv6 64 (globalHost 1) siteGroup [128, 0, 0, 0, 0, 0, 0, 0])

/-- It is dropped while nobody listens. -/
theorem corrupt_echo_dropped :
    OnlyReceived oneLink (l3Ipv6 (quietHost .little) 1 oneLink 1 corruptEcho 48) := by
  have hwalk : headerWalk .little corruptEcho 48 = some (ipprotoIcmpv6, 40, 8) := by decide +kernel
  have hcorrupt : Corrupt (quietHost .little).endian corruptEcho 48 40 8 :=
    ⟨hwalk, by decide +kernel, by decide +kernel⟩
  have hmessage : l3Message .little (oneLink.intn 1) corruptEcho 48
      = .echo (decreaseHlim (icmpv6Rechecksum .little corruptEcho 40 8)) := by
    rw [l3Message]
    dsimp only
    rw [if_neg (by decide +kernel), if_neg (by decide +kernel), hwalk]
    dsimp only
    rw [if_pos rfl, icmpv6Message]
    dsimp only
    rw [if_neg (by decide +kernel), if_pos (by decide +kernel), if_neg (by decide +kernel)]
  refine (corrupt_icmpv6_dropped_iff (by decide +kernel) hcorrupt).1 ?_
  show Message.Idle _ _ _ _ (l3Message .little (oneLink.intn 1) corruptEcho 48) ∧
    KeepsVersion 1 oneLink 1 (l3Message .little (oneLink.intn 1) corruptEcho 48)
  rw [hmessage]
  exact ⟨Or.inr (by decide +kernel), fun version hv => by cases hv⟩

/-- An MLDv1 report for `ff05::1` with a checksum of 0. -/
def corruptJoin : Mem :=
  Mem.ofList (ipv6Packet ipprotoIcmpv6 1 linkLocalHost (linkScope 0x16) mld1JoinMessage)

/-- After it the daemon has a new membership. -/
theorem corrupt_join_handled : 1 < oneLink.maxinterfaces ∧ Corrupt .little corruptJoin 64 40 24 ∧
    ¬ OnlyReceived oneLink (l3Ipv6 (quietHost .little) 1 oneLink 1 corruptJoin 64) := by
  refine ⟨by decide +kernel, ⟨by decide +kernel, by decide +kernel, by decide +kernel⟩, ?_⟩
  intro honly
  have hjoined :
      (l3Ipv6 (quietHost .little) 1 oneLink 1 corruptJoin 64).groups ≠ oneLink.groups := by
    decide +kernel
  exact hjoined (by rw [honly.rest])

end Ecmh
