/-
# What handling a packet may change

`Handles st st'` lists everything that the handling of a packet may change: what sending may
change, the membership table, the two version fields of an interface, and the counters of what was
received.  The command line options, and the index, the addresses and the role of each interface
stay.  Each handler is such a function, and so is `l3_ipv6`.
-/
import Ecmh.Dissect
import Ecmh.Grecs

namespace Ecmh

open ByteMem

/-! ## 1. The relation -/

/-- An interface before and after a packet was handled. -/
def IntNode.AsHandled (a b : IntNode) : Prop :=
  (b.mtu = a.mtu ∨ b.mtu = 0) ∧
    b = { a with
      mtu := b.mtu
      mldVersion := b.mldVersion
      mldLastV1 := b.mldLastV1
      statPacketsSent := b.statPacketsSent
      statBytesSent := b.statBytesSent
      statIcmpReceived := b.statIcmpReceived
      statIcmpSent := b.statIcmpSent }

theorem IntNode.AsHandled.refl (a : IntNode) : a.AsHandled a := ⟨Or.inl rfl, rfl⟩

theorem IntNode.AsHandled.trans {a b c : IntNode} (h1 : a.AsHandled b) (h2 : b.AsHandled c) :
    a.AsHandled c := by
  refine ⟨?_, ?_⟩
  · rcases h2.1 with h | h
    · rw [h]
      exact h1.1
    · exact Or.inr h
  · rw [h2.2, h1.2]

/-- An interface that packets were sent on is as one that a packet was handled on. -/
theorem IntNode.AsSent.asHandled {a b : IntNode} (h : a.AsSent b) : a.AsHandled b := by
  refine ⟨h.1, ?_⟩
  rw [h.2]

/-- Everything that handling a packet may change. -/
structure Handles (st st' : Conf) : Prop where
  rest : st' = { st with
    ints := st'.ints
    groups := st'.groups
    statPacketsSent := st'.statPacketsSent
    statBytesSent := st'.statBytesSent
    statIcmpReceived := st'.statIcmpReceived
    statIcmpSent := st'.statIcmpSent
    statHlimExceeded := st'.statHlimExceeded
    sent := st'.sent }
  maxinterfaces : st'.maxinterfaces = st.maxinterfaces
  intn : ∀ j, (st.intn j).AsHandled (st'.intn j)
  sent : ∃ new, st'.sent = st.sent ++ new

namespace Handles

theorem refl (st : Conf) : Handles st st :=
  ⟨rfl, rfl, fun _ => IntNode.AsHandled.refl _, [], by simp⟩

theorem trans {a b c : Conf} (h1 : Handles a b) (h2 : Handles b c) : Handles a c := by
  refine ⟨?_, h2.maxinterfaces.trans h1.maxinterfaces, fun j => (h1.intn j).trans (h2.intn j), ?_⟩
  · rw [h2.rest, h1.rest]
  · obtain ⟨n1, e1⟩ := h1.sent
    obtain ⟨n2, e2⟩ := h2.sent
    exact ⟨n1 ++ n2, by rw [e2, e1, List.append_assoc]⟩

variable {st st' : Conf} (h : Handles st st')

include h

theorem mld1only : st'.mld1only = st.mld1only := by rw [h.rest]

theorem mld2only : st'.mld2only = st.mld2only := by rw [h.rest]

theorem upstream : st'.upstream = st.upstream := by rw [h.rest]

theorem upstreamId : st'.upstreamId = st.upstreamId := by rw [h.rest]

theorem ifindex (j : Nat) : (st'.intn j).ifindex = (st.intn j).ifindex := by rw [(h.intn j).2]

theorem linklocal (j : Nat) : (st'.intn j).linklocal = (st.intn j).linklocal := by
  rw [(h.intn j).2]

theorem global (j : Nat) : (st'.intn j).global = (st.intn j).global := by rw [(h.intn j).2]

end Handles

/-! ## 2. The parts

What the handlers are made of: sending, a write to the table, a version, and two counts. -/

/-- Who only sends, only handles. -/
theorem SendsOnly.handles {on : Nat → Prop} {st st' : Conf} (hs : SendsOnly on st st') :
    Handles st st' := by
  refine ⟨?_, hs.maxinterfaces, fun j => (hs.intn j).asHandled, hs.sent⟩
  rw [hs.rest]

/-- A write to one slot that the handling of a packet may make. -/
theorem setInt_handles (st : Conf) (i : Nat) {f : IntNode → IntNode}
    (hf : ∀ a : IntNode, a.AsHandled (f a)) : Handles st (st.setInt i f) := by
  refine ⟨rfl, by simp, fun j => ?_, [], by simp⟩
  rw [setInt_intn]
  split
  · exact hf _
  · exact IntNode.AsHandled.refl _

/-- The table may become any other one. -/
theorem setGroups_handles (st : Conf) (groups : Groups) : Handles st (st.setGroups groups) :=
  ⟨rfl, rfl, fun _ => IntNode.AsHandled.refl _, [], by simp⟩

/-- The version is one of the fields that may change, and so is the time of the last MLDv1 message.
-/
theorem intSetMldVersion_handles (now : Nat) (st : Conf) (i newversion : Nat) :
    Handles st (intSetMldVersion now st i newversion) := by
  obtain ⟨f, hf, hv⟩ := intSetMldVersion_eq now st i newversion
  rw [hf]
  refine setInt_handles st i fun a => ⟨Or.inl ?_, ?_⟩
  · rw [hv a]
  · rw [hv a]

theorem countIcmpReceived_handles (st : Conf) (i : Nat) : Handles st (countIcmpReceived st i) := by
  refine (setInt_handles st i (f := fun intn => { intn with
    statIcmpReceived := intn.statIcmpReceived + 1 }) fun a => ⟨Or.inl rfl, rfl⟩).trans ?_
  exact ⟨rfl, rfl, fun _ => IntNode.AsHandled.refl _, [], by simp [countIcmpReceived]⟩

theorem countHlimExceeded_handles (st : Conf) : Handles st (countHlimExceeded st) :=
  ⟨rfl, rfl, fun _ => IntNode.AsHandled.refl _, [], by simp [countHlimExceeded]⟩

/-! ## 3. The handlers

A report sets the version, writes to the table and may announce its groups; a reduction writes a
second time behind its query; a query sets the version and is answered; data is counted and
copied. -/

/-- How each of the handlers of reports ends: a group that is new is reported on the others. -/
theorem announce_handles (h : Host) (st : Conf) (i : Nat) (mca : In6Addr) (isnew : Bool) :
    Handles st (if isnew then mldSendReportAll h st i mca else st) := by
  split
  · exact (mldSendReportAll_sendsOnly h st i mca).handles
  · exact .refl st

theorem mld1Report_handles (h : Host) (now : Nat) (st : Conf) (i : Nat) (mld1 : Mem) :
    Handles st (l4Ipv6Icmpv6Mld1Report h now st i mld1) := by
  have hset := intSetMldVersion_handles now st i 1
  unfold l4Ipv6Icmpv6Mld1Report
  dsimp only
  split
  · exact hset
  · exact (hset.trans (setGroups_handles _ _)).trans (announce_handles h _ i _ _)

theorem mld1Reduction_handles (h : Host) (now : Nat) (st : Conf) (i : Nat) (mld1 : Mem) :
    Handles st (l4Ipv6Icmpv6Mld1Reduction h now st i mld1) := by
  have hset := intSetMldVersion_handles now st i 1
  unfold l4Ipv6Icmpv6Mld1Reduction
  dsimp only
  split
  · exact hset
  · split
    · exact hset
    · split
      · exact hset
      · split
        · exact hset
        · split
          · exact (hset.trans (setGroups_handles _ _)).trans
              ((mldSendQuery_sendsOnly h _ i _).handles.trans (setGroups_handles _ _))
          · exact hset.trans (setGroups_handles _ _)

/-- The loop over the records only changes the table and sends, whatever the records are. -/
theorem mld2Report_handles (h : Host) (now : Nat) (st : Conf) (i : Nat) (mld2r : Mem)
    (plen : Nat) : Handles st (l4Ipv6Icmpv6Mld2Report h now st i mld2r plen).st := by
  rw [mld2Report_run]
  refine Runs.run_invariant (P := fun s : Conf × Bool => Handles st s.1) (fun s r hs => ?_) _ _
    (intSetMldVersion_handles now st i 2)
  exact (hs.trans (setGroups_handles _ _)).trans (grecStep_sendsOnly h now i s r).handles

/-- The answer to a query is sent, and the version of the querier is noted. -/
theorem mldQuery_handles (h : Host) (now : Nat) (st : Conf) (i plen : Nat) :
    Handles st (l4Ipv6Icmpv6MldQuery h now st i plen) := by
  unfold l4Ipv6Icmpv6MldQuery
  dsimp only
  generalize (if plen = 24 then 1 else 2) = version
  have hset := intSetMldVersion_handles now st i version
  split
  · exact hset.trans (sendsOnly_foldl_conf (queryGroup_sendsOnly h i) _ _).handles
  · split
    · exact hset.trans (mld2SendReport_sendsOnly h _ i none).handles
    · exact hset

/-- The packet is counted at its group, and its copies are sent. -/
theorem multicast_handles (h : Host) (st : Conf) (i : Nat) (iph : Mem) (len : Nat) :
    Handles st (l4Ipv6Multicast h st i iph len) := by
  unfold l4Ipv6Multicast
  dsimp only
  split
  · exact .refl st
  · split
    · exact .refl st
    · exact (setGroups_handles st _).trans
        (sendsOnly_foldl_conf (multicastGrpint_sendsOnly h iph len _ i) _ _).handles

/-! ## 4. A packet

`l3_ipv6` is the handler of the message that the packet is, or nothing. -/

/-- **A message** leaves the configuration and the interfaces as they were, but for the version of
the interface, the counters, and a use that `sendpacket6` ends on `ENXIO`. -/
theorem handle_handles (h : Host) (now : Nat) (st : Conf) (i len : Nat) (m : Message) :
    Handles st (m.handle h now st i len) := by
  have hcount := countIcmpReceived_handles st i
  cases m with
  | dropped => exact .refl st
  | ignored => exact hcount
  | exceeded => exact countHlimExceeded_handles st
  | data iph => exact multicast_handles h st i iph len
  | echoExceeded iph off plen =>
    exact (hcount.trans (countHlimExceeded_handles _)).trans
      (icmp6Send_sendsOnly h _ i _ _ _ _ _).handles
  | echo iph => exact hcount.trans (multicast_handles h _ i iph len)
  | mld1Report mld1 => exact hcount.trans (mld1Report_handles h now _ i mld1)
  | mld1Reduction mld1 => exact hcount.trans (mld1Reduction_handles h now _ i mld1)
  | mld2Report mld2r plen => exact hcount.trans (mld2Report_handles h now _ i mld2r plen)
  | query plen => exact hcount.trans (mldQuery_handles h now _ i plen)

/-- So does a packet, whatever it is: only a message reaches a handler. -/
theorem l3_handles (h : Host) (now : Nat) (st : Conf) (i : Nat) (iph : Mem) (len : Nat) :
    Handles st (l3Ipv6 h now st i iph len) := by
  rw [l3Ipv6_eq]
  exact handle_handles h now st i len _

end Ecmh
