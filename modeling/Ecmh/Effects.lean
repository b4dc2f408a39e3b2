/-
# What sending may change

`SendsOnly on st st'` lists everything that a function which only sends packets may change:
statistics, the record of the packets, and the `mtu` of an interface whose socket answered
`ENXIO`; and of the interfaces only those in the slots `on`.  Each sending function is such a
function, so none of them changes the membership table.
-/
import Ecmh.Daemon

namespace Ecmh

open ByteMem

/-! ## 1. The relation -/

/-- An interface before and after packets were sent. -/
def IntNode.AsSent (a b : IntNode) : Prop :=
  (b.mtu = a.mtu ∨ b.mtu = 0) ∧
    b = { a with
      mtu := b.mtu
      statPacketsSent := b.statPacketsSent
      statBytesSent := b.statBytesSent
      statIcmpSent := b.statIcmpSent }

theorem IntNode.AsSent.refl (a : IntNode) : a.AsSent a := ⟨Or.inl rfl, rfl⟩

theorem IntNode.AsSent.trans {a b c : IntNode} (h1 : a.AsSent b) (h2 : b.AsSent c) :
    a.AsSent c := by
  refine ⟨?_, ?_⟩
  · rcases h2.1 with h | h
    · rw [h]; exact h1.1
    · exact Or.inr h
  · rw [h2.2, h1.2]

/-- Everything that sending packets on the interfaces in the slots `on` may change. -/
structure SendsOnly (on : Nat → Prop) (st st' : Conf) : Prop where
  rest : st' = { st with
    ints := st'.ints
    statPacketsSent := st'.statPacketsSent
    statBytesSent := st'.statBytesSent
    statIcmpSent := st'.statIcmpSent
    sent := st'.sent }
  maxinterfaces : st'.maxinterfaces = st.maxinterfaces
  intn : ∀ j, (st.intn j).AsSent (st'.intn j)
  other : ∀ j, ¬ on j → st'.intn j = st.intn j
  sent : ∃ new, st'.sent = st.sent ++ new

namespace SendsOnly

variable {on : Nat → Prop}

theorem refl (st : Conf) : SendsOnly on st st :=
  ⟨rfl, rfl, fun _ => IntNode.AsSent.refl _, fun _ _ => rfl, [], by simp⟩

theorem trans {a b c : Conf} (h1 : SendsOnly on a b) (h2 : SendsOnly on b c) :
    SendsOnly on a c := by
  refine ⟨?_, h2.maxinterfaces.trans h1.maxinterfaces, fun j => (h1.intn j).trans (h2.intn j),
    fun j hj => (h2.other j hj).trans (h1.other j hj), ?_⟩
  · rw [h2.rest, h1.rest]
  · obtain ⟨n1, e1⟩ := h1.sent
    obtain ⟨n2, e2⟩ := h2.sent
    exact ⟨n1 ++ n2, by rw [e2, e1, List.append_assoc]⟩

theorem mono {on' : Nat → Prop} {st st' : Conf} (h : SendsOnly on st st')
    (hon : ∀ j, on j → on' j) : SendsOnly on' st st' :=
  ⟨h.rest, h.maxinterfaces, h.intn, fun j hj => h.other j (fun hc => hj (hon j hc)), h.sent⟩

variable {st st' : Conf} (h : SendsOnly on st st')

include h

theorem groups : st'.groups = st.groups := by rw [h.rest]

theorem mld1only : st'.mld1only = st.mld1only := by rw [h.rest]

theorem mld2only : st'.mld2only = st.mld2only := by rw [h.rest]

theorem ifindex (j : Nat) : (st'.intn j).ifindex = (st.intn j).ifindex := by rw [(h.intn j).2]

theorem mldVersion (j : Nat) : (st'.intn j).mldVersion = (st.intn j).mldVersion := by
  rw [(h.intn j).2]

theorem linklocal (j : Nat) : (st'.intn j).linklocal = (st.intn j).linklocal := by
  rw [(h.intn j).2]

end SendsOnly

/-! ## 2. The functions that send one packet

All of them end in `sendpacket6`, which appends the packet to the record, counts it if the system
takes it, and destroys the interface on `ENXIO`. -/

/-- A write to one slot that a sender may make. -/
theorem sendsOnly_setInt (st : Conf) (i : Nat) {f : IntNode → IntNode}
    (hf : (st.intn i).AsSent (f (st.intn i))) : SendsOnly (· = i) st (st.setInt i f) := by
  refine ⟨rfl, by simp, fun j => ?_, fun j hj => ?_, [], by simp⟩
  · rw [setInt_intn]
    split
    · rename_i hj
      rw [← hj.1]
      exact hf
    · exact IntNode.AsSent.refl _
  · exact setInt_intn_ne st f (fun e => hj e.symm)

/-- `sendpacket6` destroys the interface on `ENXIO`. -/
theorem sendsOnly_intDestroy (st : Conf) (i : Nat) : SendsOnly (· = i) st (intDestroy st i) :=
  sendsOnly_setInt st i ⟨Or.inr rfl, rfl⟩

section

variable {on : Nat → Prop}

/-- The counters of the configuration that sending increases. -/
theorem sendsOnly_counters (st : Conf) (p b c : Nat) : SendsOnly on st { st with
    statPacketsSent := p, statBytesSent := b, statIcmpSent := c } :=
  ⟨rfl, rfl, fun _ => IntNode.AsSent.refl _, fun _ _ => rfl, [], by simp⟩

/-- A packet that is sent goes to the end of the list. -/
theorem sendsOnly_log (st : Conf) (x : Sent) :
    SendsOnly on st { st with sent := st.sent ++ [x] } :=
  ⟨rfl, rfl, fun _ => IntNode.AsSent.refl _, fun _ _ => rfl, [x], rfl⟩

end

/-- **`sendpacket6`** counts, and may take the interface out of use; it touches no other one. -/
theorem sendpacket6_sendsOnly (h : Host) (sender : Sender) (st : Conf) (i : Nat) (iph : Mem)
    (len : Nat) : SendsOnly (· = i) st (sendpacket6 h sender st i iph len) := by
  have hlog : SendsOnly (· = i) st _ :=
    sendsOnly_log st (sentOf sender st.groups (st.intn i) iph (len % 65536))
  unfold sendpacket6
  dsimp only
  split
  · exact hlog.trans (sendsOnly_intDestroy _ i)
  · exact hlog
  · exact hlog.trans ((sendsOnly_setInt _ i ⟨Or.inl rfl, rfl⟩).trans (sendsOnly_counters _ _ _ _))

/-- Whatever the kernel answers, the packet has been handed over. -/
theorem sendpacket6_sent (h : Host) (sender : Sender) (st : Conf) (i : Nat) (iph : Mem)
    (len : Nat) : (sendpacket6 h sender st i iph len).sent
      = st.sent ++ [sentOf sender st.groups (st.intn i) iph (len % 65536)] := by
  unfold sendpacket6
  dsimp only
  split <;> rfl

/-- The count of ICMPv6 messages, at the daemon and at the interface. -/
theorem countIcmpSent_sendsOnly (st : Conf) (i : Nat) :
    SendsOnly (· = i) st (countIcmpSent st i) :=
  (sendsOnly_setInt st i ⟨Or.inl rfl, rfl⟩).trans (sendsOnly_counters _ _ _ _)

theorem icmp6Send_sendsOnly (h : Host) (st : Conf) (i : Nat) (src : In6Addr) (type code : UInt8)
    (data : Mem) (dlen : Nat) : SendsOnly (· = i) st (icmp6Send h st i src type code data dlen) :=
  (sendpacket6_sendsOnly h _ st i _ _).trans (countIcmpSent_sendsOnly _ i)

/-- A query is counted even where `sendto` fails. -/
theorem mldSendQuery_sendsOnly (h : Host) (st : Conf) (i : Nat) (mca : In6Addr) :
    SendsOnly (· = i) st (mldSendQuery h st i mca) := by
  unfold mldSendQuery
  split
  · exact SendsOnly.refl st
  · exact (sendpacket6_sendsOnly h _ st i _ _).trans (countIcmpSent_sendsOnly _ i)

theorem mld1SendReport_sendsOnly (h : Host) (st : Conf) (i : Nat) (mca : In6Addr) :
    SendsOnly (· = i) st (mld1SendReport h st i mca) :=
  (sendpacket6_sendsOnly h _ st i _ _).trans (countIcmpSent_sendsOnly _ i)

/-! ## 3. `mld2_send_report`

The loops write to the buffer of the report and to their own variables.  The configuration changes
only where the packet is sent. -/

/-- The search in the buffer sends nothing. -/
theorem reportScan_st (slot : Nat) (ipv6 : In6Addr) : ∀ (n : Nat) (s : ReportLoop),
    (reportScan s slot ipv6 n).st = s.st
  | 0, _ => rfl
  | n + 1, s => by
    rw [reportScan]
    split
    · rfl
    · split
      · rfl
      · dsimp only
        split
        · rfl
        · rw [reportScan_st slot ipv6 n]

/-- Neither does the search for the source before it is added. -/
theorem reportKnown_st (e : Endian) (s : ReportLoop) (ipv6 : In6Addr) :
    (reportKnown e s ipv6).1.st = s.st := by
  unfold reportKnown
  split
  · rfl
  · split
    · rfl
    · dsimp only
      rw [reportScan_st]
      split <;> rfl

theorem reportNewGrec_st (e : Endian) (s : ReportLoop) (mca : In6Addr) :
    (reportNewGrec e s mca).st = s.st := rfl

/-- Nor the write of a source. -/
theorem reportAppend_st (e : Endian) (s : ReportLoop) (ipv6 : In6Addr) :
    (reportAppend e s ipv6).st = s.st := by
  unfold reportAppend
  split
  · rfl
  · split <;> rfl

/-- A packet of an MLDv2 report goes out on the interface of the report. -/
theorem reportSend_sendsOnly (h : Host) (i : Nat) (s : ReportLoop) (grec : Nat) :
    SendsOnly (· = i) s.st (reportSend h i s grec).st :=
  (sendpacket6_sendsOnly h _ s.st i _ _).trans (countIcmpSent_sendsOnly _ i)

/-- A source is added, after the packet was sent if it does not fit any more. -/
theorem reportSubscr_sendsOnly (h : Host) (i : Nat) (mca : In6Addr) (s : ReportLoop)
    (ipv6 : In6Addr) : SendsOnly (· = i) s.st (reportSubscr h i mca s ipv6).st := by
  have hk := reportKnown_st h.endian s ipv6
  unfold reportSubscr
  split
  · exact SendsOnly.refl _
  · dsimp only
    split
    · rw [hk]; exact SendsOnly.refl _
    · split
      · split
        · rw [hk]; exact SendsOnly.refl _
        · rw [reportAppend_st, reportNewGrec_st, ← hk]
          exact reportSend_sendsOnly h i _ _
      · rw [reportAppend_st]
        split
        · rw [reportNewGrec_st, hk]; exact SendsOnly.refl _
        · rw [hk]; exact SendsOnly.refl _

/-- A loop of functions that only send only sends; the rest of the loop state does not matter. -/
theorem sendsOnly_foldl {on : Nat → Prop} {α : Type} {f : ReportLoop → α → ReportLoop}
    (hf : ∀ s x, SendsOnly on s.st (f s x).st) (l : List α) (s : ReportLoop) :
    SendsOnly on s.st (l.foldl f s).st := by
  have ht : ∀ a b c : ReportLoop, SendsOnly on a.st b.st → SendsOnly on b.st c.st →
      SendsOnly on a.st c.st := fun _ _ _ h1 h2 => h1.trans h2
  exact Runs.foldl_rel (fun s => SendsOnly.refl s.st) ht hf l s

theorem reportGrpint_sendsOnly (h : Host) (i : Nat) (mca : In6Addr) (s : ReportLoop)
    (grpintn : GrpIntNode) : SendsOnly (· = i) s.st (reportGrpint h i mca s grpintn).st := by
  unfold reportGrpint
  split
  · exact SendsOnly.refl _
  · refine sendsOnly_foldl (fun s subscrn => ?_) _ s
    split
    · exact SendsOnly.refl _
    · exact reportSubscr_sendsOnly h i mca s subscrn.ipv6

theorem reportGroup_sendsOnly (h : Host) (i : Nat) (mca : Option In6Addr) (s : ReportLoop)
    (groupn : GroupNode) : SendsOnly (· = i) s.st (reportGroup h i mca s groupn).st := by
  unfold reportGroup
  split
  · exact SendsOnly.refl _
  · exact sendsOnly_foldl (reportGrpint_sendsOnly h i groupn.mca) _ { s with src := none }

theorem reportFinish_sendsOnly (h : Host) (i : Nat) (s : ReportLoop) :
    SendsOnly (· = i) s.st (reportFinish h i s).st := by
  unfold reportFinish
  split
  · exact SendsOnly.refl _
  · split
    · exact SendsOnly.refl _
    · exact reportSend_sendsOnly h i s _

/-- **`mld2_send_report`**, with all its loops, sends on the one interface. -/
theorem mld2SendReport_sendsOnly (h : Host) (st : Conf) (i : Nat) (mca : Option In6Addr) :
    SendsOnly (· = i) st (mld2SendReport h st i mca) := by
  unfold mld2SendReport
  split
  · exact SendsOnly.refl _
  · exact (sendsOnly_foldl (reportGroup_sendsOnly h i mca) st.groups.nodes
      (reportInit h st i)).trans (reportFinish_sendsOnly h i _)

/-! ## 4. The functions that choose between them, and loops

A loop over the groups or over the interfaces may send anywhere; what it keeps is what each of its
rounds keeps. -/

/-- `mld_send_report` does, in whichever version. -/
theorem mldSendReport_sendsOnly (h : Host) (st : Conf) (i : Nat) (mca : In6Addr) :
    SendsOnly (· = i) st (mldSendReport h st i mca) := by
  have h1 : SendsOnly (· = i) st (if mld1Reports st i then mld1SendReport h st i mca else st) := by
    split
    · exact mld1SendReport_sendsOnly h st i mca
    · exact SendsOnly.refl st
  unfold mldSendReport
  generalize (if mld1Reports st i then mld1SendReport h st i mca else st) = st' at h1
  dsimp only
  split
  · exact h1.trans (mld2SendReport_sendsOnly h st' i (some mca))
  · exact h1

/-- The loops over the interface table, and over the group-interfaces of a group. -/
theorem sendsOnly_foldl_conf {on : Nat → Prop} {α : Type} {f : Conf → α → Conf}
    (hf : ∀ st x, SendsOnly on st (f st x)) (l : List α) (st : Conf) :
    SendsOnly on st (l.foldl f st) :=
  Runs.foldl_rel SendsOnly.refl (fun _ _ _ h1 h2 => h1.trans h2) hf l st

/-- Nothing is sent to the interface that the report came from. -/
theorem mldSendReportAll_sendsOnly (h : Host) (st : Conf) (interface : Nat) (mca : In6Addr) :
    SendsOnly (fun j => (st.intn j).ifindex ≠ (st.intn interface).ifindex) st
      (mldSendReportAll h st interface mca) := by
  unfold mldSendReportAll
  -- the loop never changes an index, so its test means the same in every round
  suffices hloop : ∀ (l : List Nat) (s : Conf), (∀ j, (s.intn j).ifindex = (st.intn j).ifindex) →
      SendsOnly (fun j => (st.intn j).ifindex ≠ (st.intn interface).ifindex) s
        (l.foldl (fun st i => if (st.intn i).mtu = 0 ∨ (st.intn interface).ifindex
          = (st.intn i).ifindex then st else mldSendReport h st i mca) s) from
    hloop _ st fun _ => rfl
  intro l
  induction l with
  | nil => exact fun s _ => SendsOnly.refl s
  | cons i l ih =>
    intro s hs
    rw [List.foldl_cons]
    split
    · exact ih s hs
    · rename_i hne
      have hsend := mldSendReport_sendsOnly h s i mca
      refine (hsend.mono ?_).trans (ih _ fun j => (hsend.ifindex j).trans (hs j))
      rintro j rfl hj
      exact hne (Or.inr (by rw [hs, hs]; exact hj.symm))

theorem queryGroup_sendsOnly (h : Host) (i : Nat) (st : Conf) (groupn : GroupNode) :
    SendsOnly (· = i) st (queryGroup h i st groupn) := by
  refine sendsOnly_foldl_conf (fun st grpintn => ?_) _ st
  split
  · exact SendsOnly.refl st
  · exact mldSendReport_sendsOnly h st i groupn.mca

/-- The queries of the alarm go out on every interface. -/
theorem sendMldQuerys_sendsOnly (h : Host) (st : Conf) :
    SendsOnly (fun _ => True) st (sendMldQuerys h st) := by
  refine sendsOnly_foldl_conf (fun st i => ?_) _ st
  split
  · exact SendsOnly.refl st
  · exact (mldSendQuery_sendsOnly h st i In6Addr.any).mono fun _ _ => trivial

/-- A copy of a packet goes out on the interface of the entry that lets it through. -/
theorem multicastSubscrs_sendsOnly (h : Host) (iph : Mem) (len : Nat) (src : In6Addr)
    (ifindex : Nat) (st : Conf) : ∀ l : List SubscrNode,
    SendsOnly (· = ifindex) st (multicastSubscrs h iph len src ifindex st l)
  | [] => SendsOnly.refl st
  | s :: next => by
    have ih := multicastSubscrs_sendsOnly h iph len src ifindex st next
    rw [multicastSubscrs]
    split
    · exact ih
    · split
      · exact ih
      · split
        · exact ih
        · rename_i interface hi
          obtain ⟨rfl, -⟩ := intFind_eq_some.mp hi
          exact sendpacket6_sendsOnly h _ st interface iph len

/-- So the copies go out on any interface. -/
theorem multicastGrpint_sendsOnly (h : Host) (iph : Mem) (len : Nat) (src : In6Addr) (i : Nat)
    (st : Conf) (grpintn : GrpIntNode) :
    SendsOnly (fun _ => True) st (multicastGrpint h iph len src i st grpintn) := by
  unfold multicastGrpint
  split
  · exact SendsOnly.refl st
  · exact (multicastSubscrs_sendsOnly h iph len src _ st _).mono fun _ _ => trivial

/-- `SIGUSR2` sends on the upstream interface. -/
theorem sigusr2_sendsOnly (h : Host) (st : Conf) :
    SendsOnly (· = st.upstreamId) st (sigusr2 h st) := by
  unfold sigusr2
  split
  · exact SendsOnly.refl st
  · split
    · exact SendsOnly.refl st
    · rename_i i hi
      obtain ⟨rfl, -⟩ := intFind_eq_some.mp hi
      exact mld2SendReport_sendsOnly h st _ none

end Ecmh
