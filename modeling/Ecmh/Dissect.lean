/-
# What a packet is

`l3_ipv6` and `l4_ipv6_icmpv6` look at a packet and then call one function or none.  `l3Message` is
the looking, which depends on the packet and on the two addresses of the interface alone, and
`Message.handle` the call; `l3Ipv6_eq` says that together they are `l3_ipv6`.
-/
import Ecmh.TableOp

namespace Ecmh

open ByteMem

/-! ## 1. Messages -/

/-- What `l3_ipv6` comes to: nothing at all, an ICMPv6 message that is counted and ignored, a
packet whose hop limit has run out, a packet to forward, an echo request of either kind, or an MLD
message.  The packets are as they are in the buffer when the function is called. -/
inductive Message
  | dropped
  | ignored
  | exceeded
  | data (iph : Mem)
  | echoExceeded (iph : Mem) (off plen : Nat)
  | echo (iph : Mem)
  | mld1Report (mld1 : Mem)
  | mld1Reduction (mld1 : Mem)
  | mld2Report (mld2r : Mem) (plen : Nat)
  | query (plen : Nat)

/-- The function that is called, for a packet of `len` bytes on the interface in slot `i`. -/
def Message.handle (h : Host) (now : Nat) (st : Conf) (i len : Nat) : Message → Conf
  | .dropped => st
  | .ignored => countIcmpReceived st i
  | .exceeded => countHlimExceeded st
  | .data iph => l4Ipv6Multicast h st i iph len
  | .echoExceeded iph off plen =>
    icmp6Send h (countHlimExceeded (countIcmpReceived st i)) i (readAddr iph ip6Src) icmp6EchoReply
      icmp6TimeExceedTransit (iph.shift (off + 4)) ((plen + (2 ^ 32 - 4)) % 2 ^ 32)
  | .echo iph => l4Ipv6Multicast h (countIcmpReceived st i) i iph len
  | .mld1Report mld1 => l4Ipv6Icmpv6Mld1Report h now (countIcmpReceived st i) i mld1
  | .mld1Reduction mld1 => l4Ipv6Icmpv6Mld1Reduction h now (countIcmpReceived st i) i mld1
  | .mld2Report mld2r plen =>
    (l4Ipv6Icmpv6Mld2Report h now (countIcmpReceived st i) i mld2r plen).st
  | .query plen => l4Ipv6Icmpv6MldQuery h now (countIcmpReceived st i) i plen

/-- `l4_ipv6_icmpv6`. -/
def icmpv6Message (e : Endian) (iph : Mem) (off plen : Nat) : Message :=
  let type := iph off
  if !icmpv6Wanted type then .ignored
  else
    let iph := icmpv6Rechecksum e iph off plen
    if type = icmp6EchoRequest then
      let iph := decreaseHlim iph
      if iph ip6Hlim = 0 then .echoExceeded iph off plen else .echo iph
    else if !in6IsAddrLinklocal (readAddr iph ip6Src) then .ignored
    else if type = icmp6MembershipReport then .mld1Report (iph.shift off)
    else if type = icmp6MembershipReduction then .mld1Reduction (iph.shift off)
    else if type = icmp6V2MembershipReport ∨ type = icmp6V2MembershipReportExp then
      .mld2Report (iph.shift off) plen
    else if type = icmp6MembershipQuery then .query plen
    else .ignored

/-- `l3_ipv6`, on an interface with these addresses. -/
def l3Message (e : Endian) (intn : IntNode) (iph : Mem) (len : Nat) : Message :=
  let src := readAddr iph ip6Src
  let dst := readAddr iph ip6Dst
  if !in6IsAddrMulticast dst then .dropped
  else if src = intn.linklocal ∨ src = intn.global then .dropped
  else match headerWalk e iph len with
    | none => .dropped
    | some (type, off, plen) =>
      if type = ipprotoIcmpv6 then icmpv6Message e iph off plen
      else if in6IsAddrMulticast dst then
        let iph := decreaseHlim iph
        if iph ip6Hlim = 0 then .exceeded else .data iph
      else .dropped

theorem l4Ipv6Icmpv6_eq (h : Host) (now : Nat) (st : Conf) (i : Nat) (iph : Mem)
    (len off plen : Nat) : l4Ipv6Icmpv6 h now st i iph len off plen
      = (icmpv6Message h.endian iph off plen).handle h now st i len := by
  unfold l4Ipv6Icmpv6 icmpv6Message
  dsimp only
  split
  · rfl
  · split
    · split <;> rfl
    · split
      · rfl
      · split
        · rfl
        · split
          · rfl
          · split
            · rfl
            · split <;> rfl

/-- **`l3_ipv6` is one call for what the packet is.** -/
theorem l3Ipv6_eq (h : Host) (now : Nat) (st : Conf) (i : Nat) (iph : Mem) (len : Nat) :
    l3Ipv6 h now st i iph len
      = (l3Message h.endian (st.intn i) iph len).handle h now st i len := by
  unfold l3Ipv6 l3Message
  dsimp only
  split
  · rfl
  · split
    · rfl
    · cases headerWalk h.endian iph len with
      | none => rfl
      | some w =>
        obtain ⟨type, off, plen⟩ := w
        dsimp only
        split
        · exact l4Ipv6Icmpv6_eq h now st i iph len off plen
        · split
          · split <;> rfl
          · rfl

/-! ## 2. What a packet does to the table -/

/-- The operation on the membership table that a packet of `len` bytes on this interface is. -/
def Message.op (e : Endian) (ifindex len : Nat) : Message → TableOp
  | .dropped => .keep
  | .ignored => .keep
  | .exceeded => .keep
  | .data iph => multicastOp iph len
  | .echoExceeded _ _ _ => .keep
  | .echo iph => multicastOp iph len
  | .mld1Report mld1 =>
    if mld1Ignores (mld1Mca mld1) then .keep
    else .refresh ifindex [⟨mld1Mca mld1, [(In6Addr.any, mld2ModeIsInclude)]⟩]
  | .mld1Reduction mld1 =>
    if mld1Ignores (mld1Mca mld1) then .keep else .reduce (mld1Mca mld1) ifindex
  | .mld2Report mld2r plen => mld2Op e ifindex mld2r plen
  | .query _ => .keep

theorem countIcmpReceived_ifindex (st : Conf) (i j : Nat) :
    ((countIcmpReceived st i).intn j).ifindex = (st.intn j).ifindex := by
  obtain ⟨n, hn⟩ := countIcmpReceived_intn st i j
  rw [hn]

theorem handle_groups (h : Host) (now : Nat) (st : Conf) (i len : Nat) (m : Message) :
    (m.handle h now st i len).groups
      = (m.op h.endian (st.intn i).ifindex len).apply now st.groups := by
  rw [← countIcmpReceived_ifindex st i i]
  cases m with
  | dropped => rfl
  | ignored => rfl
  | exceeded => rfl
  | data iph => exact multicast_groups h now st i iph len
  | echoExceeded iph off plen => exact (icmp6Send_sendsOnly h _ i _ _ _ _ _).groups
  | echo iph => exact multicast_groups h now (countIcmpReceived st i) i iph len
  | mld1Report mld1 => exact mld1Report_groups h now (countIcmpReceived st i) i mld1
  | mld1Reduction mld1 => exact mld1Reduction_groups h now (countIcmpReceived st i) i mld1
  | mld2Report mld2r plen => exact mld2Report_groups h now (countIcmpReceived st i) i mld2r plen
  | query plen => exact mldQuery_groups h now (countIcmpReceived st i) i plen

/-- The table after `l3_ipv6`. -/
theorem l3_groups_op (h : Host) (now : Nat) (st : Conf) (i : Nat) (iph : Mem) (len : Nat) :
    (l3Ipv6 h now st i iph len).groups
      = ((l3Message h.endian (st.intn i) iph len).op h.endian (st.intn i).ifindex len).apply now
          st.groups := by
  rw [l3Ipv6_eq, handle_groups]

/-! ## 3. Frames -/

/-- The frame comes to `l3_ipv6`, on the interface in slot `i`, with the configuration `st1`. -/
structure Frame.Enters (f : Frame) (now : Nat) (st st1 : Conf) (i : Nat) : Prop where
  hatype : f.hatype ≠ arphrdLoopback
  incoming : f.outgoing = false
  interface : frameInterface now (countReceived st (min f.len bufferlen)) f = (st1, some i)
  ipv6 : f.protocol = ethPIpv6

section Frames

variable {f : Frame} {now : Nat} {st st1 st2 : Conf} {i j : Nat}

theorem Frame.Enters.unique (h1 : f.Enters now st st1 i) (h2 : f.Enters now st st2 j) :
    st2 = st1 ∧ j = i := by
  have h := h2.interface.symm.trans h1.interface
  rw [Prod.mk.injEq, Option.some.injEq] at h
  exact h

/-- What was done for the interface of the frame touched neither the table nor the packets sent. -/
theorem Frame.Enters.interfacesOnly (hin : f.Enters now st st1 i) :
    InterfacesOnly (countReceived st (min f.len bufferlen)) st1 := by
  have hf := frameInterface_interfacesOnly now (countReceived st (min f.len bufferlen)) f
  rw [hin.interface] at hf
  exact hf

theorem Frame.Enters.sent (hin : f.Enters now st st1 i) : st1.sent = st.sent :=
  hin.interfacesOnly.sent

theorem Frame.Enters.groups (hin : f.Enters now st st1 i) : st1.groups = st.groups :=
  hin.interfacesOnly.groups

/-- A frame is one call for the message in it, or has nothing to do with groups and packets. -/
theorem frame_cases (h : Host) (now : Nat) (st : Conf) (f : Frame) :
    (∃ st1 i, f.Enters now st st1 i ∧ handleinterfaces h now st f
      = (l3Message h.endian (st1.intn i) f.buffer (min f.len bufferlen)).handle h now
          (countIntReceived st1 i (min f.len bufferlen)) i (min f.len bufferlen)) ∨
    (∀ st1 i, ¬ f.Enters now st st1 i) ∧ (handleinterfaces h now st f).sent = st.sent ∧
      (handleinterfaces h now st f).groups = st.groups := by
  have hlen : min f.len bufferlen % 65536 = min f.len bufferlen := by
    simp only [bufferlen]
    omega
  have hf := frameInterface_interfacesOnly now (countReceived st (min f.len bufferlen)) f
  by_cases hskip : f.hatype = arphrdLoopback ∨ f.outgoing = true
  · have hsame : handleinterfaces h now st f = st := if_pos hskip
    refine Or.inr ⟨fun st1 i hin => ?_, by rw [hsame], by rw [hsame]⟩
    rcases hskip with hc | hc
    · exact hin.hatype hc
    · rw [hin.incoming] at hc
      cases hc
  · unfold handleinterfaces
    dsimp only
    rw [if_neg hskip]
    rw [not_or, Bool.not_eq_true] at hskip
    generalize he : frameInterface now (countReceived st (min f.len bufferlen)) f = r at hf ⊢
    obtain ⟨st1, slot⟩ := r
    cases slot with
    | none =>
      refine Or.inr ⟨fun st2 i hin => ?_, hf.sent, hf.groups⟩
      have hc := hin.interface
      rw [he] at hc
      cases hc
    | some i =>
      dsimp only
      by_cases hipv6 : f.protocol = ethPIpv6
      · refine Or.inl ⟨st1, i, ⟨hskip.1, hskip.2, he, hipv6⟩, ?_⟩
        obtain ⟨p, b, hpb⟩ := countIntReceived_intn st1 i (min f.len bufferlen) i
        rw [l2Ethtype, if_pos hipv6, l3Ipv6_eq, hlen, hpb]
        rfl
      · rw [l2Ethtype, if_neg hipv6]
        exact Or.inr ⟨fun st2 j hin => hipv6 hin.ipv6, hf.sent, hf.groups⟩

end Frames

end Ecmh
