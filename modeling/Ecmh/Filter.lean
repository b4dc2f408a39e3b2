/-
# The filter of a group record

A record of an MLDv2 report installs a filter on the sources of its group.  The daemon stores the
filter as one subscription for each source, with a mode, or as one for `::`; forwarding asks for a
subscription in mode `INCLUDE` for `::` or for the source of the packet.  `filter_forwarded_iff`
compares the two: for an interface without subscriptions for the group they agree, except that a
record which excludes some sources lets the others through no more than these, and that a record
which blocks no source at all lets all of them through.
-/
import Ecmh.Forward
import Ecmh.ReportParser
import Ecmh.Scope

namespace Ecmh

open ByteMem

/-! ## 1. The filter -/

/-- Whether the filter that a record installs on an interface without state admits a source. -/
def filterAdmits (grecType : Nat) (srcs : List In6Addr) (s : In6Addr) : Bool :=
  if grecType = mld2BlockOldSources then false
  else if grecType = mld2ModeIsExclude ∨ grecType = mld2ChangeToExclude then s ∉ srcs
  else s ∈ srcs

/-- The records whose filter the subscriptions do not express, for a packet from `s`. -/
def filterMissed (grecType : Nat) (srcs : List In6Addr) (s : In6Addr) : Prop :=
  (grecType = mld2ModeIsExclude ∨ grecType = mld2ChangeToExclude) ∧ srcs ≠ [] ∧ s ∉ srcs ∨
    grecType = mld2BlockOldSources ∧ srcs = []

instance (grecType : Nat) (srcs : List In6Addr) (s : In6Addr) :
    Decidable (filterMissed grecType srcs s) :=
  inferInstanceAs (Decidable (_ ∧ _ ∧ _ ∨ _ ∧ _))

/-- What the stored subscriptions let through: with sources, only an including record does, and
without any, only an excluding one. -/
def storedAdmits (grecType : Nat) (srcs : List In6Addr) (s : In6Addr) : Bool :=
  if srcs = [] then mld2Excludes grecType else !mld2Excludes grecType && s ∈ srcs

theorem mld2Known_cases {grecType : Nat} (h : mld2Known grecType = true) :
    grecType = mld2ModeIsInclude ∨ grecType = mld2ModeIsExclude ∨ grecType = mld2ChangeToInclude ∨
      grecType = mld2ChangeToExclude ∨ grecType = mld2AllowNewSources ∨
      grecType = mld2BlockOldSources := by
  simpa [mld2Known, or_assoc] using h

/-- The two agree where the record is not one of the exceptions. -/
theorem storedAdmits_iff {grecType : Nat} (h : mld2Known grecType = true) (srcs : List In6Addr)
    (s : In6Addr) : (storedAdmits grecType srcs s = true ↔ filterAdmits grecType srcs s = true) ↔
      ¬ filterMissed grecType srcs s := by
  unfold storedAdmits filterAdmits filterMissed
  rcases mld2Known_cases h with rfl | rfl | rfl | rfl | rfl | rfl <;>
    by_cases hnil : srcs = [] <;> by_cases hs : s ∈ srcs <;>
    simp_all [mld2Excludes, mld2ModeIsInclude, mld2ModeIsExclude, mld2ChangeToInclude,
      mld2ChangeToExclude, mld2AllowNewSources, mld2BlockOldSources]

/-! ## 2. The subscriptions of a record -/

/-- The rows of one mode, on the map. -/
theorem refresh_srcs (now mode ifindex : Nat) (mca src : In6Addr) :
    ∀ (srcs : List In6Addr) (m : MemberMap), (∀ a ∈ srcs, ¬ rowIgnored a mode) →
    (srcs.map (fun a => (a, mode))).foldl (MemberMap.refresh now mca ifindex) m mca ifindex src
      = if src ∈ srcs then some ⟨src, mode, now⟩ else m mca ifindex src
  | [], _, _ => rfl
  | a :: srcs, m, h => by
    have hstored := h a List.mem_cons_self
    rw [List.map_cons, List.foldl_cons, refresh_srcs now mode ifindex mca src srcs _
      fun x hx => h x (List.mem_cons_of_mem a hx), MemberMap.refresh]
    by_cases hmem : src ∈ srcs
    · rw [if_pos hmem, if_pos (List.mem_cons_of_mem a hmem)]
    · rw [if_neg hmem]
      by_cases ha : src = a
      · subst ha
        rw [if_pos ⟨rfl, rfl, rfl, hstored⟩, if_pos List.mem_cons_self]
      · rw [if_neg fun hc => ha hc.2.2.1, if_neg fun hc => (List.mem_cons.mp hc).elim ha hmem]

/-- A packet is let through by an entry for `::`, or by one for its source. -/
theorem exists_lets_iff {P : SubscrNode → Prop} {groups : Groups} (h : TableOk P groups)
    (mca : In6Addr) (ifindex : Nat) (s : In6Addr) :
    (∃ x ∈ subscriptionsOf groups mca ifindex, lets s x = true) ↔
      ∃ a, (a = In6Addr.any ∨ a = s) ∧ ∃ x, membershipOf groups mca ifindex a = some x ∧
        x.mode = mld2ModeIsInclude := by
  simp only [membershipOf_eq_some h, lets, Bool.and_eq_true, Bool.or_eq_true, decide_eq_true_eq]
  constructor
  · rintro ⟨x, hx, hsrc, hmode⟩
    exact ⟨x.ipv6, hsrc, x, ⟨hx, rfl⟩, hmode⟩
  · rintro ⟨a, ha, x, ⟨hx, rfl⟩, hmode⟩
    exact ⟨x, hx, ha, hmode⟩

/-- What the entries of a record let through, where there was none before. -/
theorem grecRows_lets {now ifindex grecType : Nat} {mca : In6Addr} {srcs : List In6Addr}
    (hsrcs : ∀ a ∈ srcs, a ≠ In6Addr.any) {m : MemberMap} (hm : ∀ a, m mca ifindex a = none)
    {s : In6Addr} (hs : s ≠ In6Addr.any) :
    (∃ a, (a = In6Addr.any ∨ a = s) ∧
      ∃ x, m.join now ifindex ⟨mca, grecRows grecType srcs⟩ mca ifindex a = some x ∧
        x.mode = mld2ModeIsInclude) ↔ storedAdmits grecType srcs s = true := by
  unfold MemberMap.join
  cases srcs with
  | nil =>
    -- one row, for `::`; in mode `EXCLUDE` it is not stored
    simp only [grecRows, List.foldl_cons, List.foldl_nil, MemberMap.refresh, hm, true_and]
    cases hx : mld2Excludes grecType <;>
      simp [storedAdmits, mld2AnyMode, hx, rowIgnored, mld2ModeIsInclude, mld2ModeIsExclude]
  | cons a l =>
    have hrow : ∀ x ∈ a :: l, ¬ rowIgnored x (mld2SrcMode grecType) := fun x hx hc =>
      hsrcs x hx hc.2
    have hany : ¬ In6Addr.any ∈ a :: l := fun hc => hsrcs _ hc rfl
    simp only [grecRows, refresh_srcs now (mld2SrcMode grecType) ifindex mca _ (a :: l) m hrow, hm]
    constructor
    · rintro ⟨b, hb, x, hx, hmode⟩
      by_cases hbl : b ∈ a :: l
      · rw [if_pos hbl] at hx
        obtain rfl : b = s := hb.resolve_left (hsrcs b hbl)
        cases hx
        cases hex : mld2Excludes grecType with
        | true => simp [mld2SrcMode, hex, mld2ModeIsInclude, mld2ModeIsExclude] at hmode
        | false => simp only [storedAdmits, hex, List.cons_ne_nil, if_false, Bool.not_false,
            Bool.true_and, decide_eq_true hbl]
      · rw [if_neg hbl] at hx
        cases hx
    · intro hst
      simp only [storedAdmits, List.cons_ne_nil, if_false, Bool.and_eq_true, Bool.not_eq_true',
        decide_eq_true_eq] at hst
      exact ⟨s, Or.inr rfl, _, if_pos hst.2, by simp [mld2SrcMode, hst.1]⟩

/-! ## 3. The report on the interface -/

/-- The interface that a report came from is left as it is: the reports that it causes go to the
others. -/
theorem mld2Grecs_intn (h : Host) (now i : Nat) (mld2r : Mem) (plen : Nat) :
    ∀ (ngrec : Nat) (st : Conf) (grec : Nat) (isnew : Bool) (visits : List Visit),
    (mld2Grecs h now i mld2r plen ngrec st grec isnew visits).st.intn i = st.intn i ∧
    (mld2Grecs h now i mld2r plen ngrec st grec isnew visits).st.maxinterfaces = st.maxinterfaces
  | 0, _, _, _, _ => ⟨rfl, rfl⟩
  | ngrec + 1, st, grec, isnew, visits => by
    have hann : ∀ (s : Conf) (mca : In6Addr) (b : Bool),
        (if b then mldSendReportAll h s i mca else s).intn i = s.intn i ∧
        (if b then mldSendReportAll h s i mca else s).maxinterfaces = s.maxinterfaces := by
      intro s mca b
      have hs := mldSendReportAll_sendsOnly h s i mca
      cases b with
      | true => exact ⟨hs.other i fun hne => hne rfl, hs.maxinterfaces⟩
      | false => exact ⟨rfl, rfl⟩
    rw [mld2Grecs]
    split
    · exact ⟨rfl, rfl⟩
    · dsimp only
      split
      · exact ⟨rfl, rfl⟩
      · split
        · split <;> exact ⟨rfl, rfl⟩
        · have ih := mld2Grecs_intn h now i mld2r plen ngrec
          rw [(ih _ _ _ _).1, (ih _ _ _ _).2, (hann _ _ _).1, (hann _ _ _).2]
          split
          · split <;> exact ⟨rfl, rfl⟩
          · split <;> exact ⟨rfl, rfl⟩

theorem mld2Report_isSome (h : Host) (now : Nat) (st : Conf) (i : Nat) (mld2r : Mem) (plen : Nat) :
    (intFind (l4Ipv6Icmpv6Mld2Report h now st i mld2r plen).st i).isSome
      = (intFind st i).isSome := by
  obtain ⟨f, hf, hv⟩ := intSetMldVersion_eq now st i 2
  have hset : ((intSetMldVersion now st i 2).intn i).mtu = (st.intn i).mtu ∧
      (intSetMldVersion now st i 2).maxinterfaces = st.maxinterfaces := by
    rw [hf]
    exact ⟨setInt_field IntNode.mtu (fun a => by rw [hv a]) st i i, setInt_maxinterfaces st i f⟩
  unfold l4Ipv6Icmpv6Mld2Report intFind
  dsimp only
  split
  · rw [hset.1, hset.2]
  · have hg := mld2Grecs_intn h now i mld2r plen
    rw [(hg _ _ _ _ _).1, (hg _ _ _ _ _).2, hset.1, hset.2]

theorem mld2Report_tableOk (h : Host) (now : Nat) {st : Conf} (i : Nat) (mld2r : Mem) (plen : Nat)
    (hok : TableOk ValidSubscr st.groups) :
    TableOk ValidSubscr (l4Ipv6Icmpv6Mld2Report h now st i mld2r plen).st.groups := by
  rw [mld2Report_groups]
  exact apply_ok (mld2Op_shape _ _ _ _).modesOk hok fun _ hs _ => hs

/-- The table after a report with one record for a routable group. -/
theorem mld2Report_single {h : Host} {st : Conf} {i : Nat} {m : Mem} {r : WireGrec} (now : Nat)
    (hm : HoldsReport m [r]) (hlen : reportLength [r] < 65536) (hr : Routable r.mca)
    (hknown : mld2Known r.grecType.toNat = true) :
    (l4Ipv6Icmpv6Mld2Report h now st i m (reportLength [r])).st.groups
      = joinTable now (st.intn i).ifindex st.groups
          ⟨r.mca, grecRows r.grecType.toNat r.srcs⟩ := by
  obtain ⟨hn, hfit⟩ := hm.ngrec h.endian hlen
  have hrec := hm.records
  have hlength := r.length_encode
  rw [encodeGrecs_cons, encodeGrecs_nil, List.append_nil] at hrec
  have hplen : 8 + 20 + 16 * r.srcs.length ≤ reportLength [r] := by
    rw [reportLength, encodeGrecs_cons, List.length_append]
    omega
  have hwalk := grecWalk_record (n := 0) (grecAt_of_read (e := h.endian) hrec) hknown hplen
  have hscope : mld2Ignores r.mca = false := by
    simp [mld2Ignores, hr.2.1, hr.2.2]
  rw [mld2Report_groups, mld2Op, hn, if_neg (by omega)]
  dsimp only [List.length_cons, List.length_nil]
  rw [hwalk]
  simp [grecWalk, GrecSeen.join, hknown, hscope, TableOp.apply]

/-! ## 4. Asked for and delivered -/

/-- A source whose packets are routed. -/
def GlobalSource (s : In6Addr) : Prop :=
  in6IsAddrMulticast s = false ∧ in6IsAddrUnspecified s = false ∧ in6IsAddrLinklocal s = false

instance (s : In6Addr) : Decidable (GlobalSource s) :=
  inferInstanceAs (Decidable (_ ∧ _ ∧ _))

theorem multicastIgnores_routable {s g : In6Addr} (hs : GlobalSource s) (hg : Routable g) :
    multicastIgnores s g = false := by
  have hany : in6IsAddrUnspecified g = false := by
    rw [in6IsAddrUnspecified_eq_false]
    rintro rfl
    exact absurd hg.1 (by decide)
  simp [multicastIgnores, hs.1, hs.2.1, hs.2.2, hany, hg.2.1, hg.2.2]

/-- `l4_ipv6_multicast` sends a copy of the packet, received in slot `j`, to the interface. -/
def ForwardedTo (h : Host) (st : Conf) (j : Nat) (iph : Mem) (len ifindex : Nat) : Prop :=
  ifindex ∈ (copies st (l4Ipv6Multicast h st j iph len)).map Sent.ifindex

instance (h : Host) (st : Conf) (j : Nat) (iph : Mem) (len ifindex : Nat) :
    Decidable (ForwardedTo h st j iph len ifindex) :=
  inferInstanceAs (Decidable (_ ∈ _))

theorem membershipOf_of_nil {P : SubscrNode → Prop} {groups : Groups} (h : TableOk P groups)
    {mca : In6Addr} {ifindex : Nat} (hnil : subscriptionsOf groups mca ifindex = [])
    (a : In6Addr) : membershipOf groups mca ifindex a = none := by
  refine Option.eq_none_iff_forall_ne_some.mpr fun s hs => ?_
  have := ((membershipOf_eq_some h).mp hs).1
  rw [hnil] at this
  cases this

/-- What is forwarded to an interface after a report with one record on it. -/
theorem forwardedTo_iff_stored {h : Host} {st : Conf} (hr : Reachable h st) {i : Nat}
    (hlive : (intFind st i).isSome) {r : WireGrec} (hgroup : Routable r.mca)
    (hnone : subscriptionsOf st.groups r.mca i = [])
    (hknown : mld2Known r.grecType.toNat = true) (hsrcs : ∀ a ∈ r.srcs, a ≠ In6Addr.any) (now : Nat)
    {m : Mem} (hm : HoldsReport m [r]) (hlen : reportLength [r] < 65536) {j : Nat}
    (hj : (st.intn j).ifindex ≠ i) {iph : Mem} (len : Nat)
    (hsource : GlobalSource (readAddr iph ip6Src)) (hdst : readAddr iph ip6Dst = r.mca) :
    ForwardedTo h (l4Ipv6Icmpv6Mld2Report h now st i m (reportLength [r])).st j iph len i ↔
      storedAdmits r.grecType.toNat r.srcs (readAddr iph ip6Src) = true := by
  have hok := reachable_tableOk hr
  have hints := reachable_intsOk hr
  obtain ⟨k, hk⟩ := Option.isSome_iff_exists.mp hlive
  have hidx : (st.intn i).ifindex = i := hints.slot i (intFind_eq_some.mp hk).2.2
  have hsingle := @mld2Report_single h st i m r now hm hlen hgroup hknown
  have hkeeps := (mld2Report_handles h now st i m (reportLength [r])).keepsInts
  have hsome := mld2Report_isSome h now st i m (reportLength [r])
  have hok' := mld2Report_tableOk h now i m (reportLength [r]) hok
  generalize (l4Ipv6Icmpv6Mld2Report h now st i m (reportLength [r])).st = st'
    at hsingle hkeeps hsome hok' ⊢
  -- the entries of the interface are those of the record
  have hmember := membershipOf_joinTable now i st.groups ⟨r.mca, grecRows r.grecType.toNat r.srcs⟩
  rw [hidx] at hsingle
  rw [← hsingle] at hmember
  obtain ⟨new, hnew, hcopies⟩ := multicast_copies h hok' (hkeeps.intsOk hints) j iph len
  rw [ForwardedTo, copies_of_sent hnew, hcopies.filter_eq, hcopies.mem_iff i, hdst,
    (hkeeps j).1, hsome, exists_lets_iff hok', hmember,
    grecRows_lets hsrcs (membershipOf_of_nil hok hnone)
      (in6IsAddrUnspecified_eq_false.mp hsource.2.1)]
  simp [multicastIgnores_routable hsource hgroup, hlive, hj.symm]

/-- **What a listener asks for is what it gets**, but for two kinds of records: those that
exclude some sources, for a packet from another source, and those that block none. -/
theorem filter_forwarded_iff {h : Host} {st : Conf} (hr : Reachable h st) {i : Nat}
    (hlive : (intFind st i).isSome) {r : WireGrec} (hgroup : Routable r.mca)
    (hnone : subscriptionsOf st.groups r.mca i = [])
    (hknown : mld2Known r.grecType.toNat = true) (hsrcs : ∀ a ∈ r.srcs, a ≠ In6Addr.any) (now : Nat)
    {m : Mem} (hm : HoldsReport m [r]) (hlen : reportLength [r] < 65536) {j : Nat}
    (hj : (st.intn j).ifindex ≠ i) {iph : Mem} (len : Nat)
    (hsource : GlobalSource (readAddr iph ip6Src)) (hdst : readAddr iph ip6Dst = r.mca) :
    (ForwardedTo h (l4Ipv6Icmpv6Mld2Report h now st i m (reportLength [r])).st j iph len i ↔
      filterAdmits r.grecType.toNat r.srcs (readAddr iph ip6Src) = true) ↔
    ¬ filterMissed r.grecType.toNat r.srcs (readAddr iph ip6Src) := by
  rw [forwardedTo_iff_stored hr hlive hgroup hnone hknown hsrcs now hm hlen hj len hsource hdst]
  exact storedAdmits_iff hknown r.srcs (readAddr iph ip6Src)

/-- A record for `ff05::1` with the source `2001:db8::x`. -/
def oneSource (grecType x : UInt8) : WireGrec :=
  .plain grecType siteGroup (some (globalHost x))

/-- The report of one record, as a memory. -/
def oneRecord (r : WireGrec) : Mem := Mem.ofList (List.replicate 6 0 ++ be16 1 ++ encodeGrecs [r])

/-- The second link asks for `2001:db8::1`; a packet from there, received on the first link, goes
to it. -/
theorem included_source_forwarded :
    (ForwardedTo (quietHost .little) (l4Ipv6Icmpv6Mld2Report (quietHost .little) 1 stateTwoLinks 2
      (oneRecord (oneSource 1 1)) (reportLength [oneSource 1 1])).st 1 (Mem.ofList dataPacket)
      dataPacket.length 2 ↔
      filterAdmits 1 [globalHost 1] (readAddr (Mem.ofList dataPacket) ip6Src) = true) :=
  (filter_forwarded_iff ⟨plainOptions, 0, none, _, rfl⟩ (by decide +kernel) (by decide +kernel)
    (by decide +kernel) (by decide +kernel) (by decide +kernel) 1 (by decide +kernel)
    (by decide +kernel) (by decide +kernel) dataPacket.length (by decide +kernel)
    (by decide +kernel)).mpr (by decide +kernel)

/-- The second link asks for all sources but `2001:db8::2`, and gets nothing from
`2001:db8::1`. -/
theorem other_source_dropped :
    Reachable (quietHost .little) stateTwoLinks ∧
    subscriptionsOf stateTwoLinks.groups siteGroup 2 = [] ∧
    filterAdmits 2 [globalHost 2] (readAddr (Mem.ofList dataPacket) ip6Src) = true ∧
    ¬ ForwardedTo (quietHost .little) (l4Ipv6Icmpv6Mld2Report (quietHost .little) 1 stateTwoLinks 2
      (oneRecord (oneSource 2 2)) (reportLength [oneSource 2 2])).st 1 (Mem.ofList dataPacket)
      dataPacket.length 2 := by
  have hr : Reachable (quietHost .little) stateTwoLinks := ⟨plainOptions, 0, none, _, rfl⟩
  refine ⟨hr, by decide +kernel, by decide +kernel, fun hfwd => ?_⟩
  have hstored := (forwardedTo_iff_stored hr (by decide +kernel)
    (by decide +kernel) (by decide +kernel) (by decide +kernel) (by decide +kernel) 1
    (by decide +kernel) (by decide +kernel) (by decide +kernel) dataPacket.length
    (by decide +kernel) (by decide +kernel)).mp hfwd
  exact absurd hstored (by decide +kernel)

end Ecmh
