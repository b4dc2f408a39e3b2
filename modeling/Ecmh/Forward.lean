/-
# Forwarding

`l4_ipv6_multicast` walks the group-interfaces of the destination group and sends a copy to each
one that has a subscription which lets the packet through.  `multicast_sent` says which packets
that are, in one equation: since no two group-interfaces share an index, a socket error met for
one of them cannot change what happens at the others.

`forwarding_exact` puts this together with the two paths that lead there from a received frame,
and with the hop limit, which each of the two decreases by itself.
-/
import Ecmh.IntTable
import Ecmh.Membership

namespace Ecmh

open ByteMem

/-! ## 1. The loop over the group-interfaces

The loop ends at the first subscription of an interface that lets the packet through, so that
each interface gets one copy at most. -/

/-- A subscription that lets a packet from `src` through. -/
def lets (src : In6Addr) (s : SubscrNode) : Bool :=
  (s.ipv6 = In6Addr.any || s.ipv6 = src) && s.mode = mld2ModeIsInclude

/-- A group-interface that gets a copy of a packet from `src` received on `ifindex`. -/
def getsCopy (st : Conf) (ifindex : Nat) (src : In6Addr) (g : GrpIntNode) : Bool :=
  g.ifindex ≠ ifindex && (intFind st g.ifindex).isSome && g.subscriptions.nodes.any (lets src)

theorem multicastSubscrs_eq (h : Host) (iph : Mem) (len : Nat) (src : In6Addr) (ifindex : Nat)
    (st : Conf) : ∀ l : List SubscrNode, multicastSubscrs h iph len src ifindex st l =
      if (intFind st ifindex).isSome && l.any (lets src) then
        sendpacket6 h .l4Ipv6Multicast st ifindex iph len
      else st
  | [] => by simp [multicastSubscrs]
  | s :: next => by
    have ih := multicastSubscrs_eq h iph len src ifindex st next
    rw [multicastSubscrs]
    split
    · rename_i hs
      rw [ih]
      simp [lets, hs]
    · split
      · rename_i hm
        rw [ih]
        simp [lets, hm]
      · rename_i hs hm
        have hlets : lets src s = true := by
          simp only [lets, Bool.and_eq_true, Bool.or_eq_true, decide_eq_true_eq]
          exact ⟨by tauto, by tauto⟩
        split
        · rename_i hnone
          rw [ih]
          simp [hnone]
        · rename_i i hsome
          obtain ⟨rfl, -⟩ := intFind_eq_some.mp hsome
          simp [hsome, hlets]

theorem multicastGrpint_eq (h : Host) (iph : Mem) (len : Nat) (src : In6Addr) (i : Nat) (st : Conf)
    (g : GrpIntNode) : multicastGrpint h iph len src i st g =
      if getsCopy st (st.intn i).ifindex src g then
        sendpacket6 h .l4Ipv6Multicast st g.ifindex iph len
      else st := by
  unfold multicastGrpint getsCopy
  rw [multicastSubscrs_eq]
  by_cases hi : (st.intn i).ifindex = g.ifindex
  · simp [hi]
  · simp [hi, Ne.symm hi]

/-- Whether an interface gets a copy depends on its own slot, and on the index of the other. -/
theorem getsCopy_congr {st st' : Conf} {ifindex : Nat} {src : In6Addr} {g : GrpIntNode}
    (hm : st'.maxinterfaces = st.maxinterfaces) (hi : st'.intn g.ifindex = st.intn g.ifindex) :
    getsCopy st' ifindex src g = getsCopy st ifindex src g := by
  unfold getsCopy intFind
  rw [hm, hi]

/-- **The copies of a packet**, in the order in which they are sent. -/
theorem multicastGrpints_sent (h : Host) (iph : Mem) (len : Nat) (src : In6Addr) (i : Nat) :
    ∀ (l : List GrpIntNode) (st : Conf), KeyedList.Unique GrpIntNode.ifindex l →
    (l.foldl (multicastGrpint h iph len src i) st).sent = st.sent ++
      (l.filter (getsCopy st (st.intn i).ifindex src)).map
        (fun g => sentOf .l4Ipv6Multicast st.groups (st.intn g.ifindex) iph (len % 65536)) := by
  intro l
  induction l with
  | nil => exact fun st _ => by simp
  | cons g l ih =>
    intro st hu
    have hnd := List.nodup_cons.mp hu
    rw [List.foldl_cons, multicastGrpint_eq]
    split
    · rename_i hgets
      rw [ih _ hnd.2, List.filter_cons_of_pos hgets]
      have hs := sendpacket6_sendsOnly h .l4Ipv6Multicast st g.ifindex iph len
      -- the other group-interfaces find their slot as it was
      have hother : ∀ x ∈ l, (sendpacket6 h .l4Ipv6Multicast st g.ifindex iph len).intn x.ifindex
          = st.intn x.ifindex := fun x hx =>
        hs.other _ fun e => hnd.1 (by rw [← e]; exact List.mem_map_of_mem hx)
      have hfilter : l.filter (getsCopy (sendpacket6 h .l4Ipv6Multicast st g.ifindex iph len)
          ((sendpacket6 h .l4Ipv6Multicast st g.ifindex iph len).intn i).ifindex src)
          = l.filter (getsCopy st (st.intn i).ifindex src) := by
        refine List.filter_congr fun x hx => ?_
        rw [hs.ifindex i]
        exact getsCopy_congr hs.maxinterfaces (hother x hx)
      rw [hfilter, sendpacket6_sent, List.map_cons, List.append_assoc, List.singleton_append]
      congr 2
      refine List.map_congr_left fun x hx => ?_
      rw [hother x (List.mem_filter.mp hx).1, hs.groups]
    · rename_i hgets
      rw [ih _ hnd.2, List.filter_cons_of_neg hgets]

/-- What `l4_ipv6_multicast` sends. -/
theorem multicast_sent (h : Host) {P : SubscrNode → Prop} {st : Conf} (hok : TableOk P st.groups)
    (i : Nat) (iph : Mem) (len : Nat) {groupn : GroupNode}
    (hroute : multicastIgnores (readAddr iph ip6Src) (readAddr iph ip6Dst) = false)
    (hg : groupFind st.groups (readAddr iph ip6Dst) = some groupn) :
    (l4Ipv6Multicast h st i iph len).sent = st.sent ++
      (groupn.interfaces.nodes.filter
        (getsCopy st (st.intn i).ifindex (readAddr iph ip6Src))).map
        (fun g => sentOf .l4Ipv6Multicast
          (setGroup st.groups (readAddr iph ip6Dst) (countGroup len)) (st.intn g.ifindex) iph
          (len % 65536)) := by
  unfold l4Ipv6Multicast
  dsimp only
  rw [hroute, if_neg Bool.false_ne_true, hg]
  dsimp only
  rw [multicastGrpints_sent h iph len _ i _ _ (hok.all groupn (KeyedList.mem_of_find hg)).unique]
  rfl

/-- Nothing is sent for a packet that is not routed, or for a group that is not known. -/
theorem multicast_sent_none (h : Host) (st : Conf) (i : Nat) (iph : Mem) (len : Nat)
    (hno : multicastIgnores (readAddr iph ip6Src) (readAddr iph ip6Dst) = true ∨
      groupFind st.groups (readAddr iph ip6Dst) = none) :
    (l4Ipv6Multicast h st i iph len).sent = st.sent := by
  unfold l4Ipv6Multicast
  dsimp only
  rcases hno with hno | hno
  · rw [if_pos hno]
  · split
    · rfl
    · rw [hno]

/-- The packets that `l4_ipv6_multicast` sent between two states. -/
def copies (st st' : Conf) : List Sent :=
  (st'.sent.drop st.sent.length).filter (fun x => x.sender = .l4Ipv6Multicast)

theorem copies_of_sent {st st' : Conf} {new : List Sent} (hs : st'.sent = st.sent ++ new) :
    copies st st' = new.filter (fun x => x.sender = .l4Ipv6Multicast) := by
  rw [copies, hs, List.drop_left]

/-- The answer to an echo request is no copy of it. -/
theorem copies_icmp6Send (h : Host) {st s : Conf} (hs : s.sent = st.sent) (i : Nat) (src : In6Addr)
    (type code : UInt8) (data : Mem) (dlen : Nat) :
    copies st (icmp6Send h s i src type code data dlen) = [] := by
  have hsent : (icmp6Send h s i src type code data dlen).sent = st.sent ++ _ :=
    (sendpacket6_sent h .icmp6Send s i _ _).trans (by rw [hs])
  rw [copies_of_sent hsent]
  rfl

/-- What is true of the copies of a packet from `src` to `dst` received on `ifindex`. -/
structure CopiesOk (st : Conf) (ifindex : Nat) (src dst : In6Addr) (packet : List UInt8)
    (new : List Sent) : Prop where
  sender : ∀ c ∈ new, c.sender = .l4Ipv6Multicast
  packet : ∀ c ∈ new, c.packet = packet
  nodup : (new.map Sent.ifindex).Nodup
  mem_iff : ∀ j, j ∈ new.map Sent.ifindex ↔
    multicastIgnores src dst = false ∧ (intFind st j).isSome ∧ j ≠ ifindex ∧
      ∃ s ∈ subscriptionsOf st.groups dst j, lets src s = true

theorem CopiesOk.filter_eq {st : Conf} {ifindex : Nat} {src dst : In6Addr} {packet : List UInt8}
    {new : List Sent} (h : CopiesOk st ifindex src dst packet new) :
    new.filter (fun x => x.sender = .l4Ipv6Multicast) = new :=
  List.filter_eq_self.mpr fun c hc => by simp [h.sender c hc]

/-- **What `l4_ipv6_multicast` sends**, over a well-formed table. -/
theorem multicast_copies (h : Host) {P : SubscrNode → Prop} {st : Conf}
    (hok : TableOk P st.groups) (hints : IntsOk st) (i : Nat) (iph : Mem) (len : Nat) :
    ∃ new, (l4Ipv6Multicast h st i iph len).sent = st.sent ++ new ∧
      CopiesOk st (st.intn i).ifindex (readAddr iph ip6Src) (readAddr iph ip6Dst)
        (iph.read 0 (len % 65536)) new := by
  by_cases hno : multicastIgnores (readAddr iph ip6Src) (readAddr iph ip6Dst) = true
  · refine ⟨[], by rw [multicast_sent_none h st i iph len (Or.inl hno), List.append_nil], ?_⟩
    constructor <;> simp [hno]
  · have hroute := Bool.eq_false_iff.mpr hno
    cases hg : groupFind st.groups (readAddr iph ip6Dst) with
    | none =>
      refine ⟨[], by rw [multicast_sent_none h st i iph len (Or.inr hg), List.append_nil], ?_⟩
      constructor <;> simp [subscriptionsOf, groupintFind, hg]
    | some groupn =>
      refine ⟨_, multicast_sent h hok i iph len hroute hg, ?_⟩
      have hu := (hok.all groupn (KeyedList.mem_of_find hg)).unique
      -- the copy for a group-interface goes to the index that the group-interface names
      have hidx : ∀ g ∈ groupn.interfaces.nodes.filter
          (getsCopy st (st.intn i).ifindex (readAddr iph ip6Src)),
          (st.intn g.ifindex).ifindex = g.ifindex := by
        intro g hgm
        have hgets := (List.mem_filter.mp hgm).2
        simp only [getsCopy, Bool.and_eq_true] at hgets
        obtain ⟨j, hj⟩ := Option.isSome_iff_exists.mp hgets.1.2
        exact hints.slot _ (intFind_eq_some.mp hj).2.2
      have hmap : ((groupn.interfaces.nodes.filter
          (getsCopy st (st.intn i).ifindex (readAddr iph ip6Src))).map
          (fun g => sentOf .l4Ipv6Multicast
            (setGroup st.groups (readAddr iph ip6Dst) (countGroup len)) (st.intn g.ifindex) iph
            (len % 65536))).map Sent.ifindex
          = (groupn.interfaces.nodes.filter
            (getsCopy st (st.intn i).ifindex (readAddr iph ip6Src))).map GrpIntNode.ifindex := by
        rw [List.map_map]
        exact List.map_congr_left fun g hgm => hidx g hgm
      constructor
      · intro c hc
        obtain ⟨g, -, rfl⟩ := List.mem_map.mp hc
        rfl
      · intro c hc
        obtain ⟨g, -, rfl⟩ := List.mem_map.mp hc
        rfl
      · rw [hmap]
        exact (List.filter_sublist.map _).nodup hu
      · intro j
        rw [hmap, List.mem_map]
        constructor
        · rintro ⟨g, hgm, rfl⟩
          obtain ⟨hmem, hgets⟩ := List.mem_filter.mp hgm
          simp only [getsCopy, Bool.and_eq_true, decide_eq_true_eq, List.any_eq_true] at hgets
          refine ⟨hroute, hgets.1.2, by simpa using hgets.1.1, ?_⟩
          have hfind : grpintFind groupn.interfaces g.ifindex = some g :=
            KeyedList.find_of_mem hu hmem
          simpa [subscriptionsOf, groupintFind, hg, hfind] using hgets.2
        · rintro ⟨-, hlive, hne, s, hs, hlets⟩
          simp only [subscriptionsOf, groupintFind, hg] at hs
          split at hs
          · simp at hs
          · rename_i g hfind
            obtain rfl := KeyedList.key_of_find hfind
            refine ⟨g, List.mem_filter.mpr ⟨KeyedList.mem_of_find hfind, ?_⟩, rfl⟩
            simp only [getsCopy, Bool.and_eq_true, List.any_eq_true]
            exact ⟨⟨by simpa using hne, hlive⟩, s, hs, hlets⟩

/-! ## 2. The packet on its way

Both paths to `l4_ipv6_multicast` decrease the hop limit: `l3_ipv6` for data, and the ICMPv6
handler for an echo, which has stored the checksum again before. -/

theorem decreaseHlim_other (iph : Mem) {k : Nat} (hk : k ≠ ip6Hlim) :
    decreaseHlim iph k = iph k := by
  unfold decreaseHlim
  split
  · rcases Nat.lt_or_gt_of_ne hk with hlt | hgt
    · exact Mem.write_apply_of_lt iph _ hlt
    · exact Mem.write_apply_of_ge iph _ hgt
  · rfl

/-- The hop limit goes down by one, and stays at zero. -/
theorem decreaseHlim_hlim (iph : Mem) :
    (decreaseHlim iph ip6Hlim).toNat = (iph ip6Hlim).toNat - 1 := by
  unfold decreaseHlim
  split
  · rename_i hpos
    rw [show iph.write ip6Hlim [iph ip6Hlim - 1] ip6Hlim = iph ip6Hlim - 1 from
      Mem.write_apply_at iph ip6Hlim (i := 0) [iph ip6Hlim - 1] (by simp)]
    have h1 : (1 : UInt8) ≤ iph ip6Hlim := UInt8.le_iff_toNat_le.mpr (UInt8.lt_iff_toNat_lt.mp hpos)
    rw [UInt8.toNat_sub_of_le _ _ h1]
    rfl
  · rename_i hz
    have h0 : (iph ip6Hlim).toNat = 0 := by
      rw [UInt8.not_lt, UInt8.le_iff_toNat_le] at hz
      exact Nat.le_zero.mp hz
    rw [h0]

theorem icmpv6Rechecksum_other (e : Endian) (iph : Mem) (off plen : Nat) {k : Nat}
    (hk : k < off + 2) : icmpv6Rechecksum e iph off plen k = iph k := by
  unfold icmpv6Rechecksum
  rw [Endian.store16, Mem.write_apply_of_lt _ _ hk, Endian.store16, Mem.write_apply_of_lt _ _ hk]

/-- The header walk never goes back. -/
theorem skipHeaders_le {iph : Mem} {len : Nat} : ∀ (fuel : Nat) (type : UInt8) (ipe plen : Nat)
    {type' : UInt8} {off plen' : Nat},
    skipHeaders iph len fuel type ipe plen = some (type', off, plen') → ipe ≤ off := by
  intro fuel
  induction fuel with
  | zero => exact fun _ _ _ _ _ _ hs => absurd hs (by simp [skipHeaders])
  | succ fuel ih =>
    intro type ipe plen type' off plen' hs
    rw [skipHeaders] at hs
    split at hs
    · dsimp only at hs
      split at hs
      · simp at hs
      · have := ih _ _ _ hs
        omega
    · simp only [Option.some.injEq, Prod.mk.injEq] at hs
      omega

theorem headerWalk_off {e : Endian} {iph : Mem} {len : Nat} {type : UInt8} {off plen : Nat}
    (hw : headerWalk e iph len = some (type, off, plen)) : 40 ≤ off :=
  skipHeaders_le _ _ _ _ hw

/-- The frame brings an IPv6 packet to an interface in use; `l3_ipv6` drops it neither as own
traffic nor in the header walk; it is no ICMPv6 packet, or an echo request. -/
structure Forwardable (h : Host) (st : Conf) (f : Frame) : Prop where
  hatype : f.hatype ≠ arphrdLoopback
  incoming : f.outgoing = false
  ipv6 : f.protocol = ethPIpv6
  live : (intFind st f.ifindex).isSome
  notLinklocal : readAddr f.buffer ip6Src ≠ (st.intn f.ifindex).linklocal
  notGlobal : readAddr f.buffer ip6Src ≠ (st.intn f.ifindex).global
  walk : ∃ type off plen, headerWalk h.endian f.buffer (min f.len bufferlen)
    = some (type, off, plen) ∧ (type = ipprotoIcmpv6 → f.buffer off = icmp6EchoRequest)

/-- The state in which `l3_ipv6` gets the packet of a frame from an interface in use. -/
def received (st : Conf) (f : Frame) : Conf :=
  countIntReceived (countReceived st (min f.len bufferlen)) f.ifindex (min f.len bufferlen)

theorem received_intn (st : Conf) (f : Frame) (j : Nat) :
    ∃ p b, (received st f).intn j
      = { st.intn j with statPacketsReceived := p, statBytesReceived := b } :=
  countIntReceived_intn (countReceived st (min f.len bufferlen)) f.ifindex (min f.len bufferlen) j

theorem handleinterfaces_forwardable {h : Host} {st : Conf} {f : Frame}
    (hf : Forwardable h st f) (now : Nat) : handleinterfaces h now st f
      = l3Ipv6 h now (received st f) f.ifindex f.buffer (min f.len bufferlen) := by
  obtain ⟨i, hi⟩ := Option.isSome_iff_exists.mp hf.live
  obtain ⟨rfl, -⟩ := intFind_eq_some.mp hi
  have hi' : intFind (countReceived st (min f.len bufferlen)) f.ifindex = some f.ifindex := hi
  have hlen : min f.len bufferlen % 65536 = min f.len bufferlen := by
    simp only [bufferlen]
    omega
  unfold handleinterfaces
  dsimp only
  rw [if_neg (by simp [hf.hatype, hf.incoming]), frameInterface, hi']
  dsimp only
  rw [l2Ethtype, if_pos hf.ipv6, hlen]
  rfl

theorem CopiesOk.congr {st st' : Conf} {ifindex : Nat} {src dst : In6Addr} {packet : List UInt8}
    {new : List Sent} (hg : st'.groups = st.groups)
    (hi : ∀ j, (intFind st' j).isSome = (intFind st j).isSome)
    (h : CopiesOk st' ifindex src dst packet new) : CopiesOk st ifindex src dst packet new :=
  ⟨h.sender, h.packet, h.nodup, fun j => by rw [h.mem_iff j, hg, hi]⟩

theorem intFind_isSome_congr {st st' : Conf} (hm : st'.maxinterfaces = st.maxinterfaces)
    (hi : ∀ j, (st'.intn j).mtu = (st.intn j).mtu) (j : Nat) :
    (intFind st' j).isSome = (intFind st j).isSome := by
  unfold intFind
  rw [hm, hi]

theorem received_isSome (st : Conf) (f : Frame) (j : Nat) :
    (intFind (received st f) j).isSome = (intFind st j).isSome := by
  refine intFind_isSome_congr ?_ (fun k => ?_) j
  · exact setInt_maxinterfaces (countReceived st (min f.len bufferlen)) f.ifindex _
  · obtain ⟨p, b, hpb⟩ := received_intn st f k
    rw [hpb]

theorem countIcmpReceived_isSome (st : Conf) (i j : Nat) :
    (intFind (countIcmpReceived st i) j).isSome = (intFind st j).isSome := by
  refine intFind_isSome_congr ?_ (fun k => ?_) j
  · exact setInt_maxinterfaces st i _
  · obtain ⟨n, hn⟩ := countIcmpReceived_intn st i k
    rw [hn]

/-- The packet on one of the two paths, with its hop limit decreased. -/
structure OnItsWay (buffer iph : Mem) : Prop where
  src : readAddr iph ip6Src = readAddr buffer ip6Src
  dst : readAddr iph ip6Dst = readAddr buffer ip6Dst
  hlim : (iph ip6Hlim).toNat = (buffer ip6Hlim).toNat - 1

theorem onItsWay_data (buffer : Mem) : OnItsWay buffer (decreaseHlim buffer) where
  src := readAddr_congr fun k h1 _ =>
    decreaseHlim_other buffer (by simp only [ip6Src, ip6Hlim] at *; omega)
  dst := readAddr_congr fun k h1 _ =>
    decreaseHlim_other buffer (by simp only [ip6Dst, ip6Hlim] at *; omega)
  hlim := decreaseHlim_hlim buffer

/-- On the way of an echo request the checksum, behind the addresses, is written first. -/
theorem onItsWay_echo (e : Endian) (buffer : Mem) {off : Nat} (hoff : 40 ≤ off) (plen : Nat) :
    OnItsWay buffer (decreaseHlim (icmpv6Rechecksum e buffer off plen)) := by
  have hsum : ∀ k, k < 40 → icmpv6Rechecksum e buffer off plen k = buffer k := fun k hk =>
    icmpv6Rechecksum_other e buffer off plen (by omega)
  have hway := onItsWay_data (icmpv6Rechecksum e buffer off plen)
  refine ⟨hway.src.trans (readAddr_congr fun k _ h2 => hsum k ?_),
    hway.dst.trans (readAddr_congr fun k _ h2 => hsum k ?_), ?_⟩
  · simp only [ip6Src] at h2
    omega
  · simp only [ip6Dst] at h2
    omega
  · rw [hway.hlim, hsum ip6Hlim (by decide)]

/-- On both paths the hop limit has run out exactly where it was at most one. -/
theorem OnItsWay.exceeded_iff {buffer iph : Mem} (hway : OnItsWay buffer iph) :
    iph ip6Hlim = 0 ↔ buffer ip6Hlim ≤ 1 := by
  rw [← UInt8.toNat_inj, hway.hlim, UInt8.le_iff_toNat_le]
  simp only [UInt8.toNat_zero, UInt8.toNat_one]
  omega

/-! ## 3. Forwarding a received packet

The counts of the frame come before the loop.  They touch no field that the loop reads. -/

/-- What `l4_ipv6_multicast` does in a state that differs from a reachable one in statistics only.
-/
theorem OnItsWay.multicast {h : Host} {st s : Conf} (hr : Reachable h st) {f : Frame}
    (hlive : (intFind st f.ifindex).isSome = true) {iph : Mem} (hway : OnItsWay f.buffer iph)
    (hg : s.groups = st.groups) (hsent : s.sent = st.sent)
    (hi : ∀ j, (s.intn j).ifindex = (st.intn j).ifindex)
    (hm : ∀ j, (s.intn j).mtu = (st.intn j).mtu)
    (hsome : ∀ j, (intFind s j).isSome = (intFind st j).isSome) :
    CopiesOk st f.ifindex (readAddr f.buffer ip6Src) (readAddr f.buffer ip6Dst)
      (iph.read 0 (min f.len bufferlen))
      (copies st (l4Ipv6Multicast h s f.ifindex iph (min f.len bufferlen))) := by
  have hlen : min f.len bufferlen % 65536 = min f.len bufferlen := by
    simp only [bufferlen]
    omega
  have hidx : (st.intn f.ifindex).ifindex = f.ifindex := by
    obtain ⟨i, hfind⟩ := Option.isSome_iff_exists.mp hlive
    exact (reachable_intsOk hr).slot _ (intFind_eq_some.mp hfind).2.2
  have hok : TableOk ValidSubscr s.groups := by
    rw [hg]
    exact reachable_tableOk hr
  have hints : IntsOk s :=
    KeepsInts.intsOk (fun k => ⟨hi k, Or.inl (hm k)⟩) (reachable_intsOk hr)
  obtain ⟨new, hnew, hcopies⟩ := multicast_copies h hok hints f.ifindex iph (min f.len bufferlen)
  rw [hi, hidx, hway.src, hway.dst, hlen] at hcopies
  rw [copies_of_sent (hnew.trans (by rw [hsent])), hcopies.filter_eq]
  exact hcopies.congr hg hsome

/-- What the two paths have in common: nothing is forwarded, since the group is no multicast group
or the hop limit runs out; or the packet goes to `l4_ipv6_multicast`, once decreased. -/
theorem forwardable_cases {h : Host} {st : Conf} (hr : Reachable h st) {f : Frame}
    (hf : Forwardable h st f) (now : Nat) :
    (copies st (step h st (.frame now f)) = [] ∧
      (in6IsAddrMulticast (readAddr f.buffer ip6Dst) = false ∨ f.buffer ip6Hlim ≤ 1)) ∨
    (in6IsAddrMulticast (readAddr f.buffer ip6Dst) = true ∧ ¬ f.buffer ip6Hlim ≤ 1 ∧
      ∃ iph, OnItsWay f.buffer iph ∧
        CopiesOk st f.ifindex (readAddr f.buffer ip6Src) (readAddr f.buffer ip6Dst)
          (iph.read 0 (min f.len bufferlen)) (copies st (step h st (.frame now f)))) := by
  obtain ⟨type, off, plen, hwalk, hecho⟩ := hf.walk
  simp only [step, handleinterfaces_forwardable hf]
  have hint : ∀ j, ((received st f).intn j).ifindex = (st.intn j).ifindex ∧
      ((received st f).intn j).mtu = (st.intn j).mtu ∧
      ((received st f).intn j).linklocal = (st.intn j).linklocal ∧
      ((received st f).intn j).global = (st.intn j).global := by
    intro j
    obtain ⟨p, b, hpb⟩ := received_intn st f j
    rw [hpb]
    exact ⟨rfl, rfl, rfl, rfl⟩
  have hsent : (received st f).sent = st.sent := rfl
  unfold l3Ipv6
  dsimp only
  split
  · rename_i hdst
    left
    refine ⟨?_, Or.inl (by simpa using hdst)⟩
    rw [copies_of_sent (hsent.trans (List.append_nil _).symm), List.filter_nil]
  · rename_i hdst
    have hdst' : in6IsAddrMulticast (readAddr f.buffer ip6Dst) = true := by simpa using hdst
    rw [if_neg (by rw [(hint _).2.2.1, (hint _).2.2.2]; simp [hf.notLinklocal, hf.notGlobal]),
      hwalk]
    dsimp only
    split
    · -- an echo request
      rename_i htype
      have hway := onItsWay_echo h.endian f.buffer (headerWalk_off hwalk) plen
      unfold l4Ipv6Icmpv6
      dsimp only
      rw [hecho htype, if_neg (by decide), if_pos rfl]
      split
      · rename_i hz
        left
        refine ⟨?_, Or.inr (hway.exceeded_iff.mp hz)⟩
        exact copies_icmp6Send h (s := countHlimExceeded (countIcmpReceived (received st f) _))
          hsent _ _ _ _ _ _
      · rename_i hz
        right
        refine ⟨hdst', fun hle => hz (hway.exceeded_iff.mpr hle), _, hway, ?_⟩
        refine hway.multicast hr hf.live (s := countIcmpReceived (received st f) f.ifindex) rfl
          hsent (fun j => ?_) (fun j => ?_) fun j => ?_
        · obtain ⟨n, hn⟩ := countIcmpReceived_intn (received st f) f.ifindex j
          rw [hn, (hint j).1]
        · obtain ⟨n, hn⟩ := countIcmpReceived_intn (received st f) f.ifindex j
          rw [hn, (hint j).2.1]
        · rw [countIcmpReceived_isSome, received_isSome]
    · have hway := onItsWay_data f.buffer
      split
      · rename_i hz
        left
        refine ⟨?_, Or.inr (hway.exceeded_iff.mp hz)⟩
        have : (countHlimExceeded (received st f)).sent = st.sent := rfl
        rw [copies_of_sent (this.trans (List.append_nil _).symm), List.filter_nil]
      · rename_i hz
        right
        refine ⟨hdst', fun hle => hz (hway.exceeded_iff.mpr hle), _, hway, ?_⟩
        exact hway.multicast hr hf.live (s := received st f) rfl hsent (fun j => (hint j).1)
          (fun j => (hint j).2.1) (received_isSome st f)

/-- A packet that must not be forwarded: its hop limit, its source or its destination forbids it. -/
def Unroutable (hlim : UInt8) (src dst : In6Addr) : Prop :=
  hlim ≤ 1 ∨
    (in6IsAddrMulticast src = true ∨ in6IsAddrUnspecified src = true ∨
      in6IsAddrLinklocal src = true) ∨
    (in6IsAddrMulticast dst = false ∨ in6IsAddrMcNodelocal dst = true ∨
      in6IsAddrMcLinklocal dst = true)

theorem multicastIgnores_iff {hlim : UInt8} {src dst : In6Addr}
    (hdst : in6IsAddrMulticast dst = true) (hh : ¬ hlim ≤ 1) :
    multicastIgnores src dst = true ↔ Unroutable hlim src dst := by
  have hany : in6IsAddrUnspecified dst = false := by
    rw [in6IsAddrUnspecified_eq_false]
    rintro rfl
    exact absurd hdst (by decide)
  simp only [multicastIgnores, Unroutable, hany, hdst, Bool.or_eq_true]
  simp only [hh, false_or, Bool.true_eq_false, Bool.false_eq_true, or_false]
  tauto

/-- **Forwarding is exact and free of duplicates.**  A packet that arrives on an interface in use
and comes past the filters of `l3_ipv6` is copied to a list of interfaces without repetition, never
back; to none at all where hop limit, source or destination forbid it, and else exactly to the other
interfaces in use that have a subscription of the group, in mode `INCLUDE`, for `::` or the source.
Each copy has the length of the packet and its hop limit less one. -/
theorem forwarding_exact {h : Host} {st : Conf} (hr : Reachable h st) {f : Frame}
    (hf : Forwardable h st f) (now : Nat) :
    ((copies st (step h st (.frame now f))).map Sent.ifindex).Nodup ∧
    f.ifindex ∉ (copies st (step h st (.frame now f))).map Sent.ifindex ∧
    (Unroutable (f.buffer ip6Hlim) (readAddr f.buffer ip6Src) (readAddr f.buffer ip6Dst) →
      copies st (step h st (.frame now f)) = []) ∧
    (¬ Unroutable (f.buffer ip6Hlim) (readAddr f.buffer ip6Src) (readAddr f.buffer ip6Dst) →
      ∀ j, j ∈ (copies st (step h st (.frame now f))).map Sent.ifindex ↔
        (intFind st j).isSome ∧ j ≠ f.ifindex ∧
          ∃ s ∈ subscriptionsOf st.groups (readAddr f.buffer ip6Dst) j,
            s.mode = mld2ModeIsInclude ∧
              (s.ipv6 = In6Addr.any ∨ s.ipv6 = readAddr f.buffer ip6Src)) ∧
    ∀ c ∈ copies st (step h st (.frame now f)),
      c.packet.length = min f.len bufferlen ∧
      ∀ b, c.packet[ip6Hlim]? = some b → b.toNat = (f.buffer ip6Hlim).toNat - 1 := by
  rcases forwardable_cases hr hf now with ⟨hnil, hno⟩ | ⟨hdst, hh, iph, hway, hcopies⟩
  · rw [hnil]
    have hun : Unroutable (f.buffer ip6Hlim) (readAddr f.buffer ip6Src)
        (readAddr f.buffer ip6Dst) := by
      rcases hno with hno | hno
      · exact Or.inr (Or.inr (Or.inl hno))
      · exact Or.inl hno
    exact ⟨by simp, by simp, fun _ => rfl, fun hc => absurd hun hc, by simp⟩
  · have hiff := @multicastIgnores_iff _ (readAddr f.buffer ip6Src) _ hdst hh
    refine ⟨hcopies.nodup, fun hc => ?_, fun hun => ?_, fun hroute j => ?_, fun c hc => ?_⟩
    · exact ((hcopies.mem_iff _).mp hc).2.2.1 rfl
    · -- no index can be in the list of a packet that is ignored
      refine List.eq_nil_iff_forall_not_mem.mpr fun c hc => ?_
      have := ((hcopies.mem_iff c.ifindex).mp (List.mem_map_of_mem hc)).1
      rw [hiff.mpr hun] at this
      exact Bool.noConfusion this
    · have hig : multicastIgnores (readAddr f.buffer ip6Src) (readAddr f.buffer ip6Dst) = false :=
        Bool.eq_false_iff.mpr fun hc => hroute (hiff.mp hc)
      rw [hcopies.mem_iff j]
      simp only [hig, true_and, lets, Bool.and_eq_true, Bool.or_eq_true, decide_eq_true_eq,
        and_comm]
    · rw [hcopies.packet c hc]
      refine ⟨Mem.length_read iph 0 _, fun b hb => ?_⟩
      have hlt : ip6Hlim < min f.len bufferlen := by
        by_contra hge
        rw [List.getElem?_eq_none (by rw [Mem.length_read]; omega)] at hb
        cases hb
      rw [Mem.getElem?_read iph 0 _ _ hlt, Nat.zero_add, Option.some.injEq] at hb
      rw [← hb, hway.hlim]

/-- A UDP packet with hop limit 3 from `2001:db8::1` to `ff05::1`. -/
def dataPacket : List UInt8 :=
  ipv6Packet 17 3 (globalHost 1) siteGroup [0, 53, 0, 53, 0, 8, 0, 0]

/-- Two interfaces, and a listener for `ff05::1` on the first. -/
def stateTwoLinks : Conf :=
  run (quietHost .little) (boot (quietHost .little) plainOptions 0 none)
    [.frame 0 (mldFrame 1 mld1JoinMessage), .create 1 2 ethernetProbe]

/-- The packet, received on the second interface, goes to the first. -/
theorem data_forwarded : 1 ∈ (copies stateTwoLinks (step (quietHost .little) stateTwoLinks
    (.frame 2 (ethernetFrame 2 dataPacket)))).map Sent.ifindex := by
  refine ((forwarding_exact ⟨plainOptions, 0, none, _, rfl⟩ ?_ 2).2.2.2.1 ?_ 1).mpr ?_
  · exact ⟨by decide, rfl, rfl, by decide +kernel, by decide +kernel, by decide +kernel,
      17, 40, 8, by decide +kernel, by decide⟩
  · simp only [Unroutable]
    decide +kernel
  · refine ⟨by decide +kernel, by decide, ⟨In6Addr.any, mld2ModeIsInclude, 0⟩, by decide +kernel,
      rfl, Or.inl rfl⟩

end Ecmh
