/-
# Only reports of the link change memberships

A packet that changes a subscription is an MLD report or reduction with a link-local source: every
other path through `l3_ipv6` leaves the membership map alone.  In the BPF build there is one more
path to `l3_ipv6`, from an IPv4 packet that carries an IPv6 packet; section 1 models it.
-/
import Ecmh.Forward
import Ecmh.Links

namespace Ecmh

open ByteMem

/-! ## 1. The dissector of the BPF build -/

/-- `struct in_addr`, as its four bytes. -/
abbrev InAddr := List UInt8

/-- What the BPF build keeps beside the configuration: `tunnelmode`, the searches for an IPv4
address among the local ones and among the remote ends of the tunnels, and the interface scan,
which has nothing to do with the groups.  `Ecmh.BpfTunnels` makes one from the interface table. -/
structure Tunnels where
  tunnelmode : Bool
  localFind : Conf → InAddr → Bool
  intFindIpv4 : Conf → InAddr → Option Nat
  updateInterfaces : Conf → Conf
  updateInterfaces_groups : ∀ st, (updateInterfaces st).groups = st.groups

/-- `struct ip`: the offsets of `ip_p`, `ip_src` and `ip_dst`. -/
def ipP : Nat := 9
def ipSrc : Nat := 12
def ipDst : Nat := 16

/-- `iph->ip_v` and `iph->ip_hl`. -/
def ipV (iph : Mem) : Nat := (iph 0).toNat / 16
def ipHl (iph : Mem) : Nat := (iph 0).toNat % 16

/-- `IPPROTO_IPV6` and `ETH_P_IP`. -/
def ipprotoIpv6 : UInt8 := 41
def ethPIp : Nat := 0x0800

/-- `ipv4_6to4_relay`. -/
def ipv46to4Relay : InAddr := [0xc0, 0x58, 0x63, 0x01]

/-- The tunnel that `l4_ipv4_proto41` decapsulates for: the state, after the interfaces were looked
at again where the search failed, and the slot. -/
def tunnelFind (b : Tunnels) (st : Conf) (src : InAddr) : Conf × Option Nat :=
  match b.intFindIpv4 st src with
  | some tun => (st, some tun)
  | none => (b.updateInterfaces st, b.intFindIpv4 (b.updateInterfaces st) src)

/-- `l4_ipv4_proto41`; `len` is a `uint16_t`. -/
def l4Ipv4Proto41 (h : Host) (now : Nat) (b : Tunnels) (st : Conf) (iph packet : Mem) (len : Nat) :
    Conf :=
  if !b.tunnelmode then st
  else if b.localFind st (iph.read ipSrc 4) then st
  else match tunnelFind b st (iph.read ipSrc 4) with
    | (st, none) => st
    | (st, some tun) => l3Ipv6 h now st tun packet (len % 65536)

/-- `l3_ipv4`; `len` is a `uint16_t`, and so is what is left of it behind the header. -/
def l3Ipv4 (h : Host) (now : Nat) (b : Tunnels) (st : Conf) (iph : Mem) (len : Nat) : Conf :=
  if ipV iph ≠ 4 then st
  else if ipHl iph < 5 then st
  else if iph.read ipSrc 4 = ipv46to4Relay ∨ iph.read ipDst 4 = ipv46to4Relay then st
  else if iph ipP = ipprotoIpv6 then
    l4Ipv4Proto41 h now b st iph (iph.shift (4 * ipHl iph)) ((len + 65536 - 4 * ipHl iph) % 65536)
  else st

/-- `l2_ethtype`, for the interface in slot `i`. -/
def l2EthtypeBpf (h : Host) (now : Nat) (b : Tunnels) (st : Conf) (i : Nat) (packet : Mem)
    (len etherType : Nat) : Conf :=
  if etherType = ethPIp then l3Ipv4 h now b st packet (len % 65536)
  else if etherType = ethPIpv6 then l3Ipv6 h now st i packet (len % 65536)
  else st

/-- `l2_eth`: the Ethernet header has fourteen bytes; `len` is an `unsigned int`. -/
def l2Eth (h : Host) (now : Nat) (b : Tunnels) (st : Conf) (i : Nat) (eth : Mem) (len : Nat) :
    Conf :=
  l2EthtypeBpf h now b st i (eth.shift 14) ((len + 2 ^ 32 - 14) % 2 ^ 32)
    (h.endian.htons (h.endian.load16 eth 12))

/-! ## 2. What a packet that changes something is -/

/-- The types of the MLD messages that report and retract memberships. -/
def mldMembership (type : UInt8) : Bool :=
  type = icmp6MembershipReport || type = icmp6MembershipReduction ||
    type = icmp6V2MembershipReport || type = icmp6V2MembershipReportExp

/-- An MLD report or reduction, sent to a multicast address by another node of the link. -/
structure OnLinkMld (e : Endian) (intn : IntNode) (iph : Mem) (len : Nat) : Prop where
  multicast : in6IsAddrMulticast (readAddr iph ip6Dst) = true
  linklocal : in6IsAddrLinklocal (readAddr iph ip6Src) = true
  foreign : readAddr iph ip6Src ≠ intn.linklocal ∧ readAddr iph ip6Src ≠ intn.global
  icmpv6 : ∃ off plen, headerWalk e iph len = some (ipprotoIcmpv6, off, plen) ∧
    mldMembership (iph off) = true

/-- The messages that work on the memberships. -/
def Message.IsMembership : Message → Prop
  | .mld1Report _ => True
  | .mld1Reduction _ => True
  | .mld2Report _ _ => True
  | _ => False

/-- An ICMPv6 message that works on the memberships is one of the four types, from a link-local
address. -/
theorem icmpv6Message_isMembership {e : Endian} {iph : Mem} {off plen : Nat} (hoff : 40 ≤ off)
    (hm : (icmpv6Message e iph off plen).IsMembership) :
    in6IsAddrLinklocal (readAddr iph ip6Src) = true ∧ mldMembership (iph off) = true := by
  -- the checksum lies behind the source address
  have hsrc : readAddr (icmpv6Rechecksum e iph off plen) ip6Src = readAddr iph ip6Src := by
    refine readAddr_congr fun k _ hk => icmpv6Rechecksum_other e iph off plen ?_
    simp only [ip6Src] at hk
    omega
  unfold icmpv6Message at hm
  dsimp only at hm
  rw [hsrc] at hm
  split at hm
  · exact hm.elim
  · split at hm
    · split at hm <;> exact hm.elim
    · split at hm
      · exact hm.elim
      · rename_i hlink
        rw [Bool.not_eq_true', Bool.not_eq_false] at hlink
        refine ⟨hlink, ?_⟩
        unfold mldMembership
        split at hm
        · rename_i ht
          simp [ht]
        · split at hm
          · rename_i ht
            simp [ht]
          · split at hm
            · rename_i ht
              rcases ht with ht | ht <;> simp [ht]
            · split at hm <;> exact hm.elim

theorem l3Message_isMembership {e : Endian} {intn : IntNode} {iph : Mem} {len : Nat}
    (hm : (l3Message e intn iph len).IsMembership) : OnLinkMld e intn iph len := by
  unfold l3Message at hm
  dsimp only at hm
  split at hm
  · exact hm.elim
  · rename_i hdst
    rw [Bool.not_eq_true', Bool.not_eq_false] at hdst
    split at hm
    · exact hm.elim
    · rename_i hown
      rw [not_or] at hown
      cases hw : headerWalk e iph len with
      | none =>
        rw [hw] at hm
        exact hm.elim
      | some w =>
        obtain ⟨type, off, plen⟩ := w
        rw [hw] at hm
        dsimp only at hm
        split at hm
        · rename_i ht
          obtain ⟨hlink, hmld⟩ := icmpv6Message_isMembership (headerWalk_off hw) hm
          exact ⟨hdst, hlink, hown, off, plen, by rw [hw, ht], hmld⟩
        · split at hm <;> exact hm.elim

/-! ## 3. What the other packets do -/

/-- No subscription of any group and interface differs. -/
def Untouched (groups groups' : Groups) : Prop := ∀ g j, SameSubscriptions groups' groups g j

theorem Untouched.refl (groups : Groups) : Untouched groups groups := fun _ _ _ => Iff.rfl

theorem Untouched.of_eq {groups groups' : Groups} (h : groups' = groups) :
    Untouched groups groups' := h ▸ .refl groups

theorem untouched_count (now : Nat) (groups : Groups) (dst : In6Addr) (len : Nat) :
    Untouched groups ((TableOp.count dst len).apply now groups) := by
  intro g j s
  have hfind : groupintFind (setGroup groups dst (countGroup len)) g j = groupintFind groups g j :=
    groupintFind_setGroup groups dst (f := countGroup len) (fun _ => rfl) (fun _ => rfl) g j
  rw [TableOp.apply, subscriptionsOf, hfind, subscriptionsOf]

theorem untouched_multicast (now : Nat) (groups : Groups) (iph : Mem) (len : Nat) :
    Untouched groups ((multicastOp iph len).apply now groups) := by
  unfold multicastOp
  split
  · exact .refl groups
  · exact untouched_count now groups _ len

/-- Every other message leaves all subscriptions as they are. -/
theorem handle_untouched (h : Host) (now : Nat) (st : Conf) (i len : Nat) {m : Message}
    (hm : ¬ m.IsMembership) : Untouched st.groups (m.handle h now st i len).groups := by
  rw [handle_groups]
  cases m with
  | dropped => exact .refl _
  | ignored => exact .refl _
  | exceeded => exact .refl _
  | data iph => exact untouched_multicast now st.groups iph len
  | echoExceeded iph off plen => exact .refl _
  | echo iph => exact untouched_multicast now st.groups iph len
  | mld1Report mld1 => exact absurd trivial hm
  | mld1Reduction mld1 => exact absurd trivial hm
  | mld2Report mld2r plen => exact absurd trivial hm
  | query plen => exact .refl _

/-- A packet that changes a subscription is an MLD report or reduction of the link. -/
theorem l3_onLink (h : Host) (now : Nat) (st : Conf) (i : Nat) (iph : Mem) (len : Nat)
    (hc : ¬ Untouched st.groups (l3Ipv6 h now st i iph len).groups) :
    OnLinkMld h.endian (st.intn i) iph len := by
  refine l3Message_isMembership ?_
  by_contra hm
  rw [l3Ipv6_eq] at hc
  exact hc (handle_untouched h now st i len hm)

/-! ## 4. Frames -/

/-- The frame brings such a packet to the interface in slot `i`. -/
structure OnLinkFrame (h : Host) (now : Nat) (st : Conf) (f : Frame) (i : Nat) : Prop where
  incoming : f.hatype ≠ arphrdLoopback ∧ f.outgoing = false
  interface : (frameInterface now (countReceived st (min f.len bufferlen)) f).2 = some i
  ipv6 : f.protocol = ethPIpv6
  mld : OnLinkMld h.endian
    ((frameInterface now (countReceived st (min f.len bufferlen)) f).1.intn i) f.buffer
    (min f.len bufferlen % 65536)

/-- An Ethernet frame in the BPF build that brings such a packet, or an IPv4 packet of protocol 41
with such a packet in it for the tunnel it is from. -/
inductive OnLinkEth (h : Host) (b : Tunnels) (st : Conf) (i : Nat) (packet : Mem)
    (len etherType : Nat) : Prop
  | native (ht : etherType = ethPIpv6) (hm : OnLinkMld h.endian (st.intn i) packet (len % 65536))
  | tunnelled (tun : Nat) (ht : etherType = ethPIp) (hp : packet ipP = ipprotoIpv6)
      (hfind : (tunnelFind b st (packet.read ipSrc 4)).2 = some tun)
      (hm : OnLinkMld h.endian ((tunnelFind b st (packet.read ipSrc 4)).1.intn tun)
        (packet.shift (4 * ipHl packet)) ((len % 65536 + 65536 - 4 * ipHl packet) % 65536))

theorem tunnelFind_groups (b : Tunnels) (st : Conf) (src : InAddr) :
    (tunnelFind b st src).1.groups = st.groups := by
  unfold tunnelFind
  split
  · rfl
  · exact b.updateInterfaces_groups st

theorem frame_onLink (h : Host) (now : Nat) (st : Conf) (f : Frame)
    (hc : ¬ Untouched st.groups (handleinterfaces h now st f).groups) :
    ∃ i, OnLinkFrame h now st f i := by
  unfold handleinterfaces at hc
  dsimp only at hc
  split at hc
  · exact absurd (.refl _) hc
  · rename_i hin
    rw [not_or, Bool.not_eq_true] at hin
    have hgroups := frameInterface_groups now (countReceived st (min f.len bufferlen)) f
    split at hc
    · rename_i st1 hfr
      rw [hfr] at hgroups
      exact absurd (.of_eq hgroups) hc
    · rename_i st1 i hfr
      rw [hfr] at hgroups
      have hg : (countIntReceived st1 i (min f.len bufferlen)).groups = st.groups := hgroups
      rw [← hg] at hc
      unfold l2Ethtype at hc
      split at hc
      · rename_i hipv6
        obtain ⟨p, n, hpn⟩ := countIntReceived_intn st1 i (min f.len bufferlen) i
        have hmld := l3_onLink h now _ i f.buffer _ hc
        rw [hpn] at hmld
        refine ⟨i, hin, by rw [hfr], hipv6, ?_⟩
        rw [hfr]
        exact ⟨hmld.multicast, hmld.linklocal, hmld.foreign, hmld.icmpv6⟩
      · exact absurd (.refl _) hc

theorem ethtype_onLink (h : Host) (now : Nat) (b : Tunnels) (st : Conf) (i : Nat) (packet : Mem)
    (len etherType : Nat)
    (hc : ¬ Untouched st.groups (l2EthtypeBpf h now b st i packet len etherType).groups) :
    OnLinkEth h b st i packet len etherType := by
  unfold l2EthtypeBpf at hc
  split at hc
  · rename_i hip
    unfold l3Ipv4 l4Ipv4Proto41 at hc
    split at hc
    · exact absurd (.refl _) hc
    · split at hc
      · exact absurd (.refl _) hc
      · split at hc
        · exact absurd (.refl _) hc
        · split at hc
          · rename_i hp
            split at hc
            · exact absurd (.refl _) hc
            · split at hc
              · exact absurd (.refl _) hc
              · have hgroups := tunnelFind_groups b st (packet.read ipSrc 4)
                split at hc
                · rename_i st1 hfind
                  rw [hfind] at hgroups
                  exact absurd (.of_eq hgroups) hc
                · rename_i st1 tun hfind
                  rw [hfind] at hgroups
                  dsimp only at hgroups
                  rw [← hgroups, Nat.mod_mod] at hc
                  refine .tunnelled tun hip hp (by rw [hfind]) ?_
                  rw [hfind]
                  exact l3_onLink h now st1 tun _ _ hc
          · exact absurd (.refl _) hc
  · split at hc
    · rename_i hipv6
      exact .native hipv6 (l3_onLink h now st i packet _ hc)
    · exact absurd (.refl _) hc

/-- **Only MLD reports and reductions of the link change memberships**: where a subscription differs
after a frame, the frame brought one, in the BPF build possibly inside an IPv4 packet. -/
theorem membership_change_onLink (h : Host) (now : Nat) (st : Conf) :
    (∀ f, ¬ Untouched st.groups (handleinterfaces h now st f).groups →
      ∃ i, OnLinkFrame h now st f i) ∧
    ∀ (b : Tunnels) (i : Nat) (eth : Mem) (len : Nat),
      ¬ Untouched st.groups (l2Eth h now b st i eth len).groups →
      OnLinkEth h b st i (eth.shift 14) ((len + 2 ^ 32 - 14) % 2 ^ 32)
        (h.endian.htons (h.endian.load16 eth 12)) :=
  ⟨fun f hc => frame_onLink h now st f hc,
    fun b i _ _ hc => ethtype_onLink h now b st i _ _ _ hc⟩

/-- A join on a new interface is such a frame. -/
theorem join_onLink : ∃ i, OnLinkFrame (quietHost .little) 0
    (boot (quietHost .little) plainOptions 0 none) (mldFrame 1 mld1JoinMessage) i := by
  refine (membership_change_onLink (quietHost .little) 0 _).1 _ fun hu => ?_
  have hmem := (hu siteGroup 1 ⟨In6Addr.any, mld2ModeIsInclude, 0⟩).mp (by decide +kernel)
  exact absurd hmem (by decide +kernel)

end Ecmh
