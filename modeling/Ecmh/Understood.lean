/-
# What one daemon makes of the packets of another

`mld_send_query` and `mld1_send_report` lay a packet out by the sizes of C structures, and `l3_ipv6`
finds its way through it with a running length.  The two agree: a query is taken for a query of
the version whose format it has, and a report for a report of its group, with the right checksum,
whatever the byte orders of the two machines and whatever lies in the receive buffer behind the
packet.
-/
import Ecmh.Checksum
import Ecmh.Sends
import Ecmh.Version
import Ecmh.Links

namespace Ecmh

open ByteMem

/-! ## 1. Packets with an MLD message -/

/-- A packet before its checksum is filled in: the headers, the ICMPv6 type and the group. -/
structure MldPacket (p : Mem) (plen : Nat) (src dst : In6Addr) (type : UInt8) (mca : In6Addr) :
    Prop where
  header : p.read 0 48 = mldHeader .big plen src dst
  type : p 48 = type
  checksum : p.read 50 2 = [0, 0]
  mca : readAddr p 56 = mca

theorem mldHeader_eq (e : Endian) (plen : Nat) (src dst : In6Addr) :
    mldHeader e plen src dst = mldHeader .big plen src dst := by
  rw [mldHeader, mldHeader, Endian.bytes16_htons, Endian.bytes16_htons]

theorem length_mldHeader (e : Endian) (plen : Nat) (src dst : In6Addr) :
    (mldHeader e plen src dst).length = 48 := by
  simp [mldHeader, src.size, dst.size]

/-- A byte that no write has reached. -/
theorem calloc_apply (h : Host) {size k : Nat} (hk : k < size) : h.calloc size k = 0 := if_pos hk

/-- The query before its checksum. -/
def queryBody (h : Host) (st : Conf) (i : Nat) (mca : In6Addr) : Mem :=
  let e := h.endian
  let packet := (h.calloc 92).write 0
    (mldHeader e (queryLength st - 40) (st.intn i).linklocal (linkScope 1))
  let packet := packet.write 48 [icmp6MembershipQuery]
  let packet := e.store16 packet 52 (e.htons 2000)
  let packet := packet.write 56 mca.s6Addr
  if st.mld1only then packet
  else (packet.write 72 [UInt8.ofNat ecmhRobustnessFactor,
    UInt8.ofNat ecmhSubscriptionTimeout]).write 74 (e.bytes16 (e.htons 0))

/-- The report before its checksum. -/
def mld1ReportBody (h : Host) (st : Conf) (i : Nat) (mca : In6Addr) : Mem :=
  let packet := (h.calloc 72).write 0 (mldHeader h.endian 32 (st.intn i).linklocal mca)
  let packet := packet.write 48 [icmp6MembershipReport]
  packet.write 56 mca.s6Addr

theorem queryPacket_eq (h : Host) (st : Conf) (i : Nat) (mca : In6Addr) :
    queryPacket h st i mca = h.endian.store16 (queryBody h st i mca) 50
      (ipv6Checksum h.endian (queryBody h st i mca) ipprotoIcmpv6
        ((queryBody h st i mca).shift 48) (queryLength st - 48)) := rfl

theorem mld1ReportPacket_eq (h : Host) (st : Conf) (i : Nat) (mca : In6Addr) :
    mld1ReportPacket h st i mca = h.endian.store16 (mld1ReportBody h st i mca) 50
      (ipv6Checksum h.endian (mld1ReportBody h st i mca) ipprotoIcmpv6
        ((mld1ReportBody h st i mca).shift 48) 24) := rfl

/-- The layout that both functions begin with. -/
theorem mldPacket_of_writes (h : Host) {size : Nat} (hsize : 72 ≤ size) (plen : Nat)
    (src dst mca : In6Addr) (type : UInt8) {p : Mem}
    (hp : ∀ k, k < 72 → k ≠ 52 → k ≠ 53 → p k = ((((h.calloc size).write 0
      (mldHeader h.endian plen src dst)).write 48 [type]).write 56 mca.s6Addr) k) :
    MldPacket p plen src dst type mca := by
  refine ⟨?_, ?_, ?_, ?_⟩
  · rw [Mem.read_congr fun k _ hk => hp k (by omega) (by omega) (by omega),
      Mem.read_write_disjoint _ _ (Or.inl (by omega)),
      Mem.read_write_disjoint _ _ (Or.inl (by omega)),
      Mem.read_write_same' _ 0 48 _ (length_mldHeader _ _ _ _), mldHeader_eq]
  · rw [hp 48 (by omega) (by omega) (by omega), Mem.write_apply_of_lt _ _ (by omega)]
    exact Mem.write_apply_at _ 48 (i := 0) [type] (by simp)
  · have hzero : ∀ k, 50 ≤ k → k < 52 → p k = 0 := by
      intro k h1 h2
      rw [hp k (by omega) (by omega) (by omega), Mem.write_apply_of_lt _ _ (by omega),
        Mem.write_apply_of_ge _ _ (by simp only [List.length_cons, List.length_nil]; omega),
        Mem.write_apply_of_ge _ _ (by rw [length_mldHeader]; omega), calloc_apply h (by omega)]
    rw [Mem.read_succ, Mem.read_succ, Mem.read_zero, hzero 50 (by omega) (by omega),
      hzero 51 (by omega) (by omega)]
  · refine readAddr_of_read ?_
    rw [Mem.read_congr fun k h1 hk => hp k (by omega) (by omega) (by omega)]
    exact Mem.read_write_same' _ 56 16 _ mca.size

theorem queryBody_mldPacket (h : Host) (st : Conf) (i : Nat) (mca : In6Addr) :
    MldPacket (queryBody h st i mca) (queryLength st - 40) (st.intn i).linklocal (linkScope 1)
      icmp6MembershipQuery mca := by
  refine mldPacket_of_writes h (by decide : 72 ≤ 92) _ _ _ _ _ ?_
  intro k hk h52 h53
  have hswap : ∀ v, ((h.endian.store16 (((h.calloc 92).write 0 (mldHeader h.endian
      (queryLength st - 40) (st.intn i).linklocal (linkScope 1))).write 48
      [icmp6MembershipQuery]) 52 v).write 56 mca.s6Addr) k = ((((h.calloc 92).write 0
      (mldHeader h.endian (queryLength st - 40) (st.intn i).linklocal (linkScope 1))).write 48
      [icmp6MembershipQuery]).write 56 mca.s6Addr) k := by
    intro v
    have hne : k < 52 ∨ 52 + 2 ≤ k := by omega
    rcases Nat.lt_or_ge k 56 with h56 | h56
    · rw [Mem.write_apply_of_lt _ _ h56, Mem.write_apply_of_lt _ _ h56,
        Endian.store16_apply_ne _ _ v hne]
    · obtain ⟨j, rfl⟩ := Nat.exists_eq_add_of_le h56
      have hj : j < mca.s6Addr.length := by
        rw [mca.size]
        omega
      rw [Mem.write_apply_at _ _ _ hj, Mem.write_apply_at _ _ _ hj]
  unfold queryBody
  split
  · exact hswap _
  · rw [Mem.write_apply_of_lt _ _ (by omega), Mem.write_apply_of_lt _ _ hk]
    exact hswap _

theorem mld1ReportBody_mldPacket (h : Host) (st : Conf) (i : Nat) (mca : In6Addr) :
    MldPacket (mld1ReportBody h st i mca) 32 (st.intn i).linklocal mca icmp6MembershipReport mca :=
  mldPacket_of_writes h (by decide : 72 ≤ 72) _ _ _ _ _ fun _ _ _ _ => rfl

/-! ## 2. The receiver -/

/-- What the receiver finds in its buffer: the message right behind the hop-by-hop header, with all
its bytes and the right checksum, from a link-local address to a multicast address. -/
structure Arrives (e : Endian) (m : Mem) (len plen : Nat) (src : In6Addr) (type : UInt8)
    (mca : In6Addr) : Prop where
  multicast : in6IsAddrMulticast (readAddr m ip6Dst) = true
  src : readAddr m ip6Src = src
  linklocal : in6IsAddrLinklocal (readAddr m ip6Src) = true
  walk : headerWalk e m len = some (ipprotoIcmpv6, 48, plen)
  whole : 48 + plen = len
  checksum : checksumOk e m 48 plen = true
  type : m 48 = type
  mca : readAddr m 56 = mca

section Receiver

variable {e : Endian} {m : Mem}

/-- The fields of the header. -/
theorem header_fields {plen : Nat} {src dst : In6Addr}
    (hm : m.read 0 48 = mldHeader .big plen src dst) :
    m ip6Nxt = ipprotoHopopts ∧ m 40 = ipprotoIcmpv6 ∧ m 41 = 0 ∧ readAddr m ip6Src = src ∧
      readAddr m ip6Dst = dst ∧ e.htons (e.load16 m ip6Plen) = plen % 65536 := by
  obtain ⟨hm, -⟩ := Mem.read_eq_append hm
  obtain ⟨hm, hnxt⟩ := Mem.read_eq_append hm
  obtain ⟨hm, hdst⟩ := Mem.read_eq_append hm
  obtain ⟨hm, hsrc⟩ := Mem.read_eq_append hm
  obtain ⟨hm, hhop⟩ := Mem.read_eq_append hm
  obtain ⟨-, hplen⟩ := Mem.read_eq_append hm
  have h6 : m ip6Nxt = ipprotoHopopts := Mem.apply_of_read hhop (k := 0) (by simp)
  simp only [List.length_append, src.size, dst.size] at hnxt hdst hsrc
  have h40 : m 40 = ipprotoIcmpv6 := Mem.apply_of_read hnxt (k := 0) (by simp)
  have h41 : m 41 = 0 := Mem.apply_of_read hnxt (k := 1) (by simp)
  refine ⟨h6, h40, h41, readAddr_of_read hsrc, readAddr_of_read hdst, ?_⟩
  rw [Endian.htons_load16]
  refine ofBe16_of_read ?_
  rw [Endian.bytes16_htons] at hplen
  exact hplen

/-- The walk goes over the hop-by-hop header only. -/
theorem headerWalk_mld {plen len : Nat} {src dst : In6Addr}
    (hm : m.read 0 48 = mldHeader .big plen src dst) (hlen : 48 ≤ len) (hplen : 8 ≤ plen)
    (hlt : plen < 65536) : headerWalk e m len = some (ipprotoIcmpv6, 48, plen - 8) := by
  obtain ⟨h6, h40, h41, -, -, hp⟩ := header_fields (e := e) hm
  obtain ⟨n, rfl⟩ : ∃ n, len = n + 1 := ⟨len - 1, by omega⟩
  have hext : isExtHeader ipprotoIcmpv6 = false := rfl
  have hhop : isExtHeader ipprotoHopopts = true := rfl
  have hleft : (plen + 65536 - 8) % 65536 = plen - 8 := by omega
  have h41 : (m (40 + 1)).toNat = 0 := by
    rw [show 40 + 1 = 41 from rfl, h41]
    rfl
  rw [headerWalk, skipHeaders, h6, hp, Nat.mod_eq_of_lt hlt, if_pos hhop]
  dsimp only
  rw [h41, if_neg (by omega), skipHeaders, h40, hext]
  simp only [Bool.false_eq_true, if_false, hleft]

/-- A packet arrives as it was sent. -/
theorem MldPacket.arrives {e' : Endian} {p : Mem} {plen len : Nat} {src dst mca : In6Addr}
    {type : UInt8} (hp : MldPacket p (plen + 8) src dst type mca) (hplen : 24 ≤ plen)
    (heven : plen % 2 = 0) (hlt : plen + 8 < 65536) (hlen : 48 + plen = len)
    (hdst : in6IsAddrMulticast dst = true) (hsrc : in6IsAddrLinklocal src = true)
    (hm : m.read 0 len = (e'.store16 p 50
      (ipv6Checksum e' p ipprotoIcmpv6 (p.shift 48) plen)).read 0 len) :
    Arrives e m len plen src type mca := by
  have hbyte : ∀ k, k < len → m k = e'.store16 p 50
      (ipv6Checksum e' p ipprotoIcmpv6 (p.shift 48) plen) k := by
    intro k hk
    have := Mem.eq_of_read_eq hm hk
    rwa [Nat.zero_add] at this
  have hbody : ∀ k, k < len → k < 50 ∨ 52 ≤ k → m k = p k := by
    intro k hk hne
    rw [hbyte k hk, Endian.store16_apply_ne e' p _ hne]
  have hhead : m.read 0 48 = mldHeader .big (plen + 8) src dst := by
    rw [← hp.header]
    exact Mem.read_congr fun k _ hk => hbody k (by omega) (by omega)
  obtain ⟨-, -, -, hs, hd, -⟩ := header_fields (e := e) hhead
  refine ⟨by rw [hd]; exact hdst, hs, by rw [hs]; exact hsrc, ?_, hlen, ?_, ?_, ?_⟩
  · exact headerWalk_mld hhead (by omega) (by omega) hlt
  · exact checksumOk_of_sent (by omega) (by omega) heven (by omega) hp.checksum
      fun k hk => hbyte k (by omega)
  · rw [hbody 48 (by omega) (by omega), hp.type]
  · rw [← hp.mca]
    refine readAddr_congr ?_
    intro k _ hk
    exact hbody k (by omega) (by omega)

/-- What arrives is the message that its type says. -/
theorem Arrives.message {len plen : Nat} {src mca : In6Addr} {type : UInt8} {intn : IntNode}
    (ha : Arrives e m len plen src type mca) (hl : src ≠ intn.linklocal) (hg : src ≠ intn.global)
    (hwanted : icmpv6Wanted type = true) (hecho : type ≠ icmp6EchoRequest) :
    l3Message e intn m len =
      if type = icmp6MembershipReport then .mld1Report (m.shift 48)
      else if type = icmp6MembershipReduction then .mld1Reduction (m.shift 48)
      else if type = icmp6V2MembershipReport ∨ type = icmp6V2MembershipReportExp then
        .mld2Report (m.shift 48) plen
      else if type = icmp6MembershipQuery then .query plen
      else .ignored := by
  have hown : ¬ (readAddr m ip6Src = intn.linklocal ∨ readAddr m ip6Src = intn.global) := by
    rw [ha.src, not_or]
    exact ⟨hl, hg⟩
  unfold l3Message
  dsimp only
  rw [ha.multicast, if_neg (by simp), if_neg hown, ha.walk]
  dsimp only
  rw [if_pos rfl, icmpv6Message]
  dsimp only
  rw [icmpv6Rechecksum_of_ok ha.checksum, ha.type, hwanted, if_neg (by simp), if_neg hecho,
    ha.linklocal, if_neg (by simp)]

end Receiver

/-! ## 3. From one daemon to the other -/

/-- The packets of a daemon for the other: one, which is left as it is on the way. -/
def Delivers (st st' : Conf) (len : Nat) (P : Mem → Prop) : Prop :=
  ∃ x, newSent st st' = [x] ∧ x.packet.length = len ∧ ∀ m : Mem, m.read 0 len = x.packet → P m

/-- An interface without only-modes that has not heard MLD yet, and has other addresses. -/
structure Hears (st : Conf) (i : Nat) (src : In6Addr) : Prop where
  slot : i < st.maxinterfaces
  mld1only : st.mld1only = false
  mld2only : st.mld2only = false
  version : (st.intn i).mldVersion = 0
  linklocal : src ≠ (st.intn i).linklocal
  global : src ≠ (st.intn i).global

/-- The handler for queries is called with this length, and notes this version. -/
structure HandledAsQuery (h : Host) (now : Nat) (st : Conf) (i : Nat) (m : Mem)
    (len plen version : Nat) (src mca : In6Addr) : Prop where
  arrives : Arrives h.endian m len plen src icmp6MembershipQuery mca
  handler : l3Ipv6 h now st i m len = l4Ipv6Icmpv6MldQuery h now (countIcmpReceived st i) i plen
  recorded : ((l3Ipv6 h now st i m len).intn i).mldVersion = version

/-- The handler for MLDv1 reports is called with this group. -/
structure HandledAsReport (h : Host) (now : Nat) (st : Conf) (i : Nat) (m : Mem)
    (len plen : Nat) (src mca : In6Addr) : Prop where
  arrives : Arrives h.endian m len plen src icmp6MembershipReport mca
  handler : l3Ipv6 h now st i m len
    = l4Ipv6Icmpv6Mld1Report h now (countIcmpReceived st i) i (m.shift 48)
  mca : mld1Mca (m.shift 48) = mca

/-- A query that comes first decides the version of the interface. -/
theorem mldQuery_version (h : Host) (now : Nat) {st : Conf} {i : Nat} (hslot : i < st.maxinterfaces)
    (h1 : st.mld1only = false) (h2 : st.mld2only = false) (hv : (st.intn i).mldVersion = 0)
    (plen : Nat) : ((l4Ipv6Icmpv6MldQuery h now st i plen).intn i).mldVersion
      = if plen = 24 then 1 else 2 := by
  have hset : ((intSetMldVersion now st i (if plen = 24 then 1 else 2)).intn i).mldVersion
      = if plen = 24 then 1 else 2 := by
    by_cases hp : plen = 24
    · rw [if_pos hp, intSetMldVersion_v1 h2, if_pos hv, setInt_intn, if_pos ⟨rfl, hslot⟩]
    · rw [if_neg hp, intSetMldVersion_v2 h1 hslot]
      split
      · rw [setInt_intn, if_pos ⟨rfl, hslot⟩]
      · rw [setInt_intn, if_pos ⟨rfl, hslot⟩]
  rw [← hset]
  unfold l4Ipv6Icmpv6MldQuery
  dsimp only
  generalize (if plen = 24 then 1 else 2) = version
  split
  · exact (sendsOnly_foldl_conf (queryGroup_sendsOnly h i) _ _).mldVersion i
  · split
    · exact (mld2SendReport_sendsOnly h _ i none).mldVersion i
    · rfl

theorem Hears.counted {st : Conf} {i : Nat} {src : In6Addr} (hr : Hears st i src) :
    Hears (countIcmpReceived st i) i src := by
  have hh := countIcmpReceived_handles st i
  obtain ⟨n, hn⟩ := countIcmpReceived_intn st i i
  refine ⟨?_, hr.mld1only, hr.mld2only, ?_, ?_, ?_⟩
  · rw [hh.maxinterfaces]
    exact hr.slot
  · rw [hn]
    exact hr.version
  · rw [hh.linklocal]
    exact hr.linklocal
  · rw [hh.global]
    exact hr.global

theorem Arrives.query {h : Host} {now : Nat} {st : Conf} {i : Nat} {m : Mem} {len plen : Nat}
    {src mca : In6Addr} (ha : Arrives h.endian m len plen src icmp6MembershipQuery mca)
    (hr : Hears st i src) :
    HandledAsQuery h now st i m len plen (if plen = 24 then 1 else 2) src mca := by
  have hhandler : l3Ipv6 h now st i m len
      = l4Ipv6Icmpv6MldQuery h now (countIcmpReceived st i) i plen := by
    rw [l3Ipv6_eq, ha.message hr.linklocal hr.global rfl (by decide)]
    rfl
  refine ⟨ha, hhandler, ?_⟩
  have hc := hr.counted
  rw [hhandler]
  exact mldQuery_version h now hc.slot hc.mld1only hc.mld2only hc.version plen

theorem Arrives.report {h : Host} {now : Nat} {st : Conf} {i : Nat} {m : Mem} {len plen : Nat}
    {src mca : In6Addr} (ha : Arrives h.endian m len plen src icmp6MembershipReport mca)
    (hr : Hears st i src) : HandledAsReport h now st i m len plen src mca := by
  refine ⟨ha, ?_, ?_⟩
  · rw [l3Ipv6_eq, ha.message hr.linklocal hr.global rfl (by decide)]
    rfl
  · rw [mld1Mca, readAddr_shift]
    exact ha.mca

/-- **Two daemons understand each other's queries and MLDv1 reports.** -/
theorem daemons_understand_each_other (hs hr : Host) (now : Nat) {st st' : Conf} {i j : Nat}
    (hup : (st.intn i).upstream = false)
    (hll : in6IsAddrLinklocal (st.intn i).linklocal = true)
    (hrecv : Hears st' j (st.intn i).linklocal) :
    (∀ g, Delivers st (mldSendQuery hs st i g) (if st.mld1only then 72 else 76) fun m =>
      HandledAsQuery hr now st' j m (if st.mld1only then 72 else 76)
        (if st.mld1only then 24 else 28) (if st.mld1only then 1 else 2)
        (st.intn i).linklocal g) ∧
    (∀ g, in6IsAddrMulticast g = true → Delivers st (mld1SendReport hs st i g) 72 fun m =>
      HandledAsReport hr now st' j m 72 24 (st.intn i).linklocal g) := by
  constructor
  · intro g
    refine ⟨sentOf .mldSendQuery st.groups (st.intn i) (queryPacket hs st i g)
      (queryLength st % 65536), newSent_of_append ?_, ?_, ?_⟩
    · rw [mldSendQuery_eq, hup, if_neg (by simp), countIcmpSent_sent, sendpacket6_sent]
    · simp only [sentOf, Mem.length_read, queryLength]
      split <;> rfl
    · intro m hm
      have hlen : queryLength st % 65536 = if st.mld1only = true then 72 else 76 := by
        rw [queryLength]
        split <;> rfl
      simp only [sentOf, queryPacket_eq, hlen] at hm
      have hbody := queryBody_mldPacket hs st i g
      rw [queryLength] at hbody hm
      by_cases h1 : st.mld1only = true
      · simp only [if_pos h1] at hbody hm ⊢
        exact (MldPacket.arrives hbody (by decide) (by decide) (by decide) rfl rfl hll
          hm).query hrecv
      · simp only [if_neg h1] at hbody hm ⊢
        exact (MldPacket.arrives hbody (by decide) (by decide) (by decide) rfl rfl hll
          hm).query hrecv
  · intro g hg
    refine ⟨sentOf (.mld1SendReport g) st.groups (st.intn i) (mld1ReportPacket hs st i g) 72,
      newSent_of_append ?_, ?_, ?_⟩
    · rw [mld1SendReport_eq, countIcmpSent_sent, sendpacket6_sent]
    · exact Mem.length_read _ _ _
    · intro m hm
      have hbody := mld1ReportBody_mldPacket hs st i g
      simp only [sentOf, mld1ReportPacket_eq] at hm
      exact (MldPacket.arrives hbody (by decide) (by decide) (by decide) rfl hg hll hm).report hrecv

/-- An interface with the link-local address `fe80::1`, and one without addresses. -/
def linkLocalInt : Conf :=
  run (quietHost .little) (boot (quietHost .little) plainOptions 0 none)
    [.timeout 300 (some [⟨1, true, true, false, some .inet6, linkLocalHost, ethernetProbe⟩])]

/-- From a little-endian machine to a big-endian one. -/
theorem little_understood_by_big : Delivers linkLocalInt
    (mldSendQuery (quietHost .little) linkLocalInt 1 siteGroup) 76 fun m =>
      HandledAsQuery (quietHost .big) 400 twoLinks 2 m 76 28 2 linkLocalHost siteGroup := by
  have hup : (linkLocalInt.intn 1).upstream = false := by decide +kernel
  have hll : in6IsAddrLinklocal (linkLocalInt.intn 1).linklocal = true := by decide +kernel
  have hears : Hears twoLinks 2 (linkLocalInt.intn 1).linklocal :=
    ⟨by decide +kernel, by decide +kernel, by decide +kernel, by decide +kernel, by decide +kernel,
      by decide +kernel⟩
  exact (daemons_understand_each_other (quietHost .little) (quietHost .big) 400 hup hll hears).1
    siteGroup

end Ecmh
