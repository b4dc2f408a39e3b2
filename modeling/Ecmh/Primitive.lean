/-
# What a step of the daemon is made of

`Prim h` lists the few things that the functions of the daemon do to the configuration, and `Does h`
is any number of them.  Whatever the loops and tests of a function are, it only ever does these
things (`timeout_does`, `sigusr2_does`), so an invariant that each of them keeps is one of the
daemon (`Does.keeps`).  A frame is counted at three places on its way, and only there:
`handleinterfaces_does` says where, and what is done in between.
-/
import Ecmh.Create
import Ecmh.Scan
import Ecmh.Sends
import Mathlib.Logic.Relation

namespace Ecmh

open ByteMem

/-! ## 1. The primitive operations

A function that does primitive operations may do none, or any number of them, in any order.  What is
said of it then is only what all of them keep. -/

/-- A write to an interface that keeps its counters, and does not put it out of use. -/
def KeepsCounters (f : IntNode → IntNode) : Prop :=
  ∀ a, f a = { f a with
    mtu := a.mtu
    statPacketsReceived := a.statPacketsReceived
    statPacketsSent := a.statPacketsSent
    statBytesReceived := a.statBytesReceived
    statBytesSent := a.statBytesSent
    statIcmpReceived := a.statIcmpReceived
    statIcmpSent := a.statIcmpSent }

/-- What the sender of an ICMPv6 message hands to `sendpacket6`. -/
def Makes (h : Host) (st : Conf) (i : Nat) (packet : Mem) (len : Nat) : Sender → Prop
  | .mldSendQuery => ∃ mca, packet = queryPacket h st i mca ∧ len = queryLength st
  | .mld1SendReport mca => packet = mld1ReportPacket h st i mca ∧ len = 72
  | .l4Ipv6Multicast => False
  | _ => True

/-- What is made here is not forwarded: the two are counted differently. -/
theorem Makes.ne {h : Host} {st : Conf} {i : Nat} {packet : Mem} {len : Nat} {sender : Sender}
    (hm : Makes h st i packet len sender) : sender ≠ .l4Ipv6Multicast := by
  rintro rfl
  exact hm

/-- What the functions of the daemon do: an ICMPv6 message is sent and counted, a packet is
forwarded, the table or an interface is written to, an interface is created, and perhaps destroyed
again. -/
inductive Prim (h : Host) : Conf → Conf → Prop
  | icmp (st : Conf) (sender : Sender) (i : Nat) (packet : Mem) (len : Nat)
      (hm : Makes h st i packet len sender) :
      Prim h st (countIcmpSent (sendpacket6 h sender st i packet len) i)
  | forward (st : Conf) (i : Nat) (packet : Mem) (len : Nat) :
      Prim h st (sendpacket6 h .l4Ipv6Multicast st i packet len)
  | table (st : Conf) (groups : Groups) : Prim h st (st.setGroups groups)
  | write (st : Conf) (i : Nat) (f : IntNode → IntNode) (hf : KeepsCounters f) :
      Prim h st (st.setInt i f)
  | create (st : Conf) (ifindex : Nat) (probe : IfProbe) (hnone : intFind st ifindex = none) :
      Prim h st (intCreate st ifindex probe).1
  | undone (st : Conf) (ifindex : Nat) (probe : IfProbe) (hnone : intFind st ifindex = none) :
      Prim h st (intDestroy (intCreate st ifindex probe).1 ifindex)
  | updated (st : Conf) (now : Nat) : Prim h st { st with lastUpdate := now }

/-- Any number of primitive operations. -/
def Does (h : Host) : Conf → Conf → Prop := Relation.ReflTransGen (Prim h)

namespace Does

variable {h : Host} {a b c : Conf}

theorem refl (a : Conf) : Does h a a := Relation.ReflTransGen.refl

theorem one (hp : Prim h a b) : Does h a b := Relation.ReflTransGen.single hp

theorem trans (h1 : Does h a b) (h2 : Does h b c) : Does h a c := Relation.ReflTransGen.trans h1 h2

/-- **An invariant of the primitive operations is one of all of them.** -/
theorem keeps {P : Conf → Prop} (hprim : ∀ a b, Prim h a b → P a → P b) (hd : Does h a b)
    (ha : P a) : P b := by
  induction hd with
  | refl => exact ha
  | tail _ hp ih => exact hprim _ _ hp ih

/-- A loop does what its body does, over and over. -/
theorem foldl {α : Type} {f : Conf → α → Conf} (hf : ∀ st x, Does h st (f st x)) (l : List α)
    (st : Conf) : Does h st (l.foldl f st) :=
  Runs.foldl_rel Does.refl (fun _ _ _ h1 h2 => h1.trans h2) hf l st

end Does

/-! ## 2. Sending

Every packet of the daemon goes through `sendpacket6`, and every one that is no copy is counted as
an ICMPv6 message right behind it. -/

section Sending

variable (h : Host) (st : Conf) (i : Nat)

/-- A query is one packet, or none on the upstream interface. -/
theorem mldSendQuery_does (mca : In6Addr) : Does h st (mldSendQuery h st i mca) := by
  rw [mldSendQuery_eq]
  split
  · exact .refl st
  · exact .one (.icmp st _ i _ _ ⟨mca, rfl, rfl⟩)

/-- An MLDv1 report is one packet of 72 bytes. -/
theorem mld1SendReport_does (mca : In6Addr) : Does h st (mld1SendReport h st i mca) := by
  rw [mld1SendReport_eq]
  exact .one (.icmp st _ i _ _ ⟨rfl, rfl⟩)

/-- Each packet of an MLDv2 report is sent and counted by itself. -/
theorem reportSend_does (s : ReportLoop) (grec : Nat) : Does h s.st (reportSend h i s grec).st :=
  .one (.icmp s.st _ i _ _ trivial)

/-- A source may be the one that makes the buffer overflow, so that the packet is sent before it. -/
theorem reportSubscr_does (mca : In6Addr) (s : ReportLoop) (ipv6 : In6Addr) :
    Does h s.st (reportSubscr h i mca s ipv6).st := by
  have hk := reportKnown_st h.endian s ipv6
  unfold reportSubscr
  split
  · exact .refl _
  · dsimp only
    split
    · rw [hk]; exact .refl _
    · split
      · split
        · rw [hk]; exact .refl _
        · rw [reportAppend_st, reportNewGrec_st, ← hk]
          exact reportSend_does h i _ _
      · rw [reportAppend_st]
        split
        · rw [reportNewGrec_st, hk]; exact .refl _
        · rw [hk]; exact .refl _

/-- The three nested loops of `mld2_send_report`: what the body does to the configuration, the loop
does. -/
theorem does_foldl_report {α : Type} {f : ReportLoop → α → ReportLoop}
    (hf : ∀ s x, Does h s.st (f s x).st) (l : List α) (s : ReportLoop) :
    Does h s.st (l.foldl f s).st := by
  have ht : ∀ a b c : ReportLoop, Does h a.st b.st → Does h b.st c.st → Does h a.st c.st :=
    fun _ _ _ h1 h2 => h1.trans h2
  exact Runs.foldl_rel (fun s => Does.refl s.st) ht hf l s

theorem reportGroup_does (mca : Option In6Addr) (s : ReportLoop) (groupn : GroupNode) :
    Does h s.st (reportGroup h i mca s groupn).st := by
  unfold reportGroup
  split
  · exact .refl _
  · refine does_foldl_report h (fun s grpintn => ?_) _ { s with src := none }
    unfold reportGrpint
    split
    · exact .refl _
    · refine does_foldl_report h (fun s subscrn => ?_) _ s
      split
      · exact .refl _
      · exact reportSubscr_does h i groupn.mca s subscrn.ipv6

/-- An MLDv2 report is any number of packets; what is in them is not asked here. -/
theorem mld2SendReport_does (mca : Option In6Addr) : Does h st (mld2SendReport h st i mca) := by
  unfold mld2SendReport
  split
  · exact .refl st
  · have hloops : Does h st (reportLoops h st i mca).st :=
      does_foldl_report h (reportGroup_does h i mca) st.groups.nodes (reportInit h st i)
    refine hloops.trans ?_
    unfold reportFinish
    split
    · exact .refl _
    · split
      · exact .refl _
      · exact reportSend_does h i _ _

/-- `mld_send_report` sends in the one version, in the other, or in both. -/
theorem mldSendReport_does (mca : In6Addr) : Does h st (mldSendReport h st i mca) := by
  have h1 : Does h st (if mld1Reports st i then mld1SendReport h st i mca else st) := by
    split
    · exact mld1SendReport_does h st i mca
    · exact .refl st
  unfold mldSendReport
  generalize (if mld1Reports st i then mld1SendReport h st i mca else st) = st' at h1
  dsimp only
  split
  · exact h1.trans (mld2SendReport_does h st' i (some mca))
  · exact h1

/-- A group is reported on every interface but one. -/
theorem mldSendReportAll_does (mca : In6Addr) : Does h st (mldSendReportAll h st i mca) := by
  refine Does.foldl (fun st j => ?_) _ st
  split
  · exact .refl st
  · exact mldSendReport_does h st j mca

/-- A general query on every interface in use. -/
theorem sendMldQuerys_does : Does h st (sendMldQuerys h st) := by
  refine Does.foldl (fun st j => ?_) _ st
  split
  · exact .refl st
  · exact mldSendQuery_does h st j In6Addr.any

/-- How each of the handlers of reports ends. -/
theorem announce_does (mca : In6Addr) (isnew : Prop) [Decidable isnew] :
    Does h st (if isnew then mldSendReportAll h st i mca else st) := by
  split
  · exact mldSendReportAll_does h st i mca
  · exact .refl st

end Sending

/-! ## 3. Receiving

The counts of what is received are no primitive operations: they depend on the frame, and `Looked`
says which of them were made. -/

section Receiving

variable (h : Host) (now : Nat) (st : Conf) (i : Nat)

/-- The version is no counter. -/
theorem VersionOnly.keepsCounters {f : IntNode → IntNode} (hf : VersionOnly f) :
    KeepsCounters f := by
  intro a
  rw [hf a]

/-- `int_set_mld_version` writes to the interface, and to nothing else. -/
theorem intSetMldVersion_does (newversion : Nat) :
    Does h st (intSetMldVersion now st i newversion) := by
  obtain ⟨f, heq, hf⟩ := intSetMldVersion_eq now st i newversion
  rw [heq]
  exact .one (.write st i f hf.keepsCounters)

/-- An MLDv1 report: a version, a write to the table, perhaps an announcement. -/
theorem mld1Report_does (mld1 : Mem) : Does h st (l4Ipv6Icmpv6Mld1Report h now st i mld1) := by
  have hv := intSetMldVersion_does h now st i 1
  unfold l4Ipv6Icmpv6Mld1Report
  dsimp only
  split
  · exact hv
  · exact (hv.trans (.one (.table _ _))).trans (announce_does h _ i _ _)

theorem mld1Reduction_does (mld1 : Mem) :
    Does h st (l4Ipv6Icmpv6Mld1Reduction h now st i mld1) := by
  have hv := intSetMldVersion_does h now st i 1
  unfold l4Ipv6Icmpv6Mld1Reduction
  dsimp only
  split
  · exact hv
  · split
    · exact hv
    · split
      · exact hv
      · split
        · exact hv
        · split
          · exact ((hv.trans (.one (.table _ _))).trans (mldSendQuery_does h _ i _)).trans
              (.one (.table _ _))
          · exact hv.trans (.one (.table _ _))

/-- An MLDv2 report: a version, and for every record a write to the table and perhaps an
announcement. -/
theorem mld2Report_does (mld2r : Mem) (plen : Nat) :
    Does h st (l4Ipv6Icmpv6Mld2Report h now st i mld2r plen).st := by
  rw [mld2Report_run]
  refine (intSetMldVersion_does h now st i 2).trans ?_
  have ht : ∀ a b c : Conf × Bool, Does h a.1 b.1 → Does h b.1 c.1 → Does h a.1 c.1 :=
    fun _ _ _ h1 h2 => h1.trans h2
  refine Runs.foldl_rel (R := fun a b => Does h a.1 b.1) (fun s => Does.refl s.1) ht
    (fun s r => ?_) (mld2Records h.endian mld2r plen) (intSetMldVersion now st i 2, false)
  exact (Does.one (.table s.1 _)).trans (announce_does h _ i _ _)

/-- A query: a version, and the answer, which is a report of each group by itself or one of all of
them. -/
theorem mldQuery_does (plen : Nat) : Does h st (l4Ipv6Icmpv6MldQuery h now st i plen) := by
  have hv := intSetMldVersion_does h now st i (if plen = 24 then 1 else 2)
  unfold l4Ipv6Icmpv6MldQuery
  generalize intSetMldVersion now st i (if plen = 24 then 1 else 2) = st' at hv
  dsimp only
  split
  · refine hv.trans (Does.foldl (fun st groupn => Does.foldl (fun st grpintn => ?_) _ st) _ st')
    split
    · exact .refl st
    · exact mldSendReport_does h st i groupn.mca
  · split
    · exact hv.trans (mld2SendReport_does h st' i none)
    · exact hv

/-- The copies of a packet for one interface: the search ends at the first subscription that lets it
through. -/
theorem multicastSubscrs_does (iph : Mem) (len : Nat) (src : In6Addr) (ifindex : Nat) (st : Conf) :
    ∀ l : List SubscrNode, Does h st (multicastSubscrs h iph len src ifindex st l)
  | [] => .refl st
  | s :: next => by
    have ih := multicastSubscrs_does iph len src ifindex st next
    rw [multicastSubscrs]
    split
    · exact ih
    · split
      · exact ih
      · split
        · exact ih
        · exact .one (.forward st _ iph len)

/-- A packet that is forwarded: its group counts it, and every interface of the group may get a
copy. -/
theorem multicast_does (iph : Mem) (len : Nat) : Does h st (l4Ipv6Multicast h st i iph len) := by
  unfold l4Ipv6Multicast
  dsimp only
  split
  · exact .refl st
  · split
    · exact .refl st
    · refine (Does.one (.table st _)).trans (Does.foldl (fun st grpintn => ?_) _ _)
      unfold multicastGrpint
      split
      · exact .refl st
      · exact multicastSubscrs_does h iph len _ _ st _

/-- What is counted of a packet when its headers have been looked at: nothing, an ICMPv6 message,
a hop limit that ran out, or both. -/
inductive Looked (st : Conf) (i : Nat) : Conf → Prop
  | nothing : Looked st i st
  | icmp : Looked st i (countIcmpReceived st i)
  | exceeded : Looked st i (countHlimExceeded st)
  | icmpExceeded : Looked st i (countHlimExceeded (countIcmpReceived st i))

/-- `l4_ipv6_icmpv6` counts the message before it looks at the type, so that the count is a look and
not a step. -/
theorem icmpv6_does (iph : Mem) (len off plen : Nat) :
    ∃ s, Looked st i s ∧ Does h s (l4Ipv6Icmpv6 h now st i iph len off plen) := by
  unfold l4Ipv6Icmpv6
  dsimp only
  split
  · exact ⟨_, .icmp, .refl _⟩
  · split
    · split
      · exact ⟨_, .icmpExceeded, .one (.icmp _ .icmp6Send i _ _ trivial)⟩
      · exact ⟨_, .icmp, multicast_does h _ i _ len⟩
    · refine ⟨_, .icmp, ?_⟩
      split
      · exact .refl _
      · split
        · exact mld1Report_does h now _ i _
        · split
          · exact mld1Reduction_does h now _ i _
          · split
            · exact mld2Report_does h now _ i _ plen
            · split
              · exact mldQuery_does h now _ i plen
              · exact .refl _

/-- A packet is counted if it is an ICMPv6 message or has come too far, and handled after that. -/
theorem l3_does (iph : Mem) (len : Nat) :
    ∃ s, Looked st i s ∧ Does h s (l3Ipv6 h now st i iph len) := by
  unfold l3Ipv6
  dsimp only
  split
  · exact ⟨st, .nothing, .refl st⟩
  · split
    · exact ⟨st, .nothing, .refl st⟩
    · split
      · exact ⟨st, .nothing, .refl st⟩
      · split
        · exact icmpv6_does h now st i iph len _ _
        · split
          · split
            · exact ⟨_, .exceeded, .refl _⟩
            · exact ⟨st, .nothing, multicast_does h st i _ len⟩
          · exact ⟨st, .nothing, .refl st⟩

end Receiving

/-! ## 4. The interfaces, and the events -/

section Events

variable (h : Host) (now : Nat) (st : Conf)

/-- An address is written to the interface that it was listed for. -/
theorem scanStore_does (s : ScanLoop) (i : Nat) (ifa : IfAddr) :
    Does h s.st (scanStore s i ifa).st := by
  unfold scanStore
  split
  · split
    · exact .one (.write s.st i _ fun _ => rfl)
    · exact .one (.write s.st i _ fun _ => rfl)
  · exact .refl s.st

theorem scanSpecific_does (i : Nat) : ∀ (ifap : List IfAddr) (s : ScanLoop),
    Does h s.st (scanSpecific i s ifap)
  | [], s => .refl s.st
  | ifa :: next, s => by
    rw [scanSpecific]
    split
    · exact scanSpecific_does i next s
    · split
      · exact scanSpecific_does i next s
      · dsimp only
        split
        · exact scanStore_does h s i ifa
        · exact (scanStore_does h s i ifa).trans (scanSpecific_does i next _)

/-- An interface that the scan finds for the first time is created, and destroyed again if the entry
has no address that is stored. -/
theorem scanEntry_does (ifa : IfAddr) : Does h st (scanEntry st ifa) := by
  unfold scanEntry
  split
  · exact .refl st
  · split
    · exact scanStore_does h ⟨st, false, false⟩ _ ifa
    · rename_i hnone
      have hc : Does h st (intCreate st ifa.ifindex ifa.probe).1 := .one (.create st _ _ hnone)
      have hu := Prim.undone (h := h) st ifa.ifindex ifa.probe hnone
      have hcreated := intCreate_created st ifa.ifindex ifa.probe
      split
      · rename_i heq
        rw [heq] at hc
        exact hc
      · rename_i st' i heq
        rw [heq] at hc hu hcreated
        obtain rfl : i = ifa.ifindex := by
          rcases hcreated.returned with hi | hi
          · exact Option.some.inj hi
          · cases hi
        dsimp only
        split
        · exact hc.trans (scanStore_does h ⟨st', false, false⟩ _ ifa)
        · rename_i hgot
          -- where no address was stored, the entry was no IPv6 one
          have hstore : scanStore ⟨st', false, false⟩ ifa.ifindex ifa = ⟨st', false, false⟩ := by
            unfold scanStore at hgot ⊢
            split at hgot
            · split at hgot <;> simp at hgot
            · rename_i hfamily
              exact if_neg hfamily
          rw [hstore]
          exact .one hu

/-- A scan notes the time, and goes over the list. -/
theorem updateInterfaces_does (specific : Option Nat) (ifap : Option (List IfAddr)) :
    Does h st (updateInterfaces now st specific ifap) := by
  have hu : Does h st { st with lastUpdate := now } := .one (.updated st now)
  unfold updateInterfaces
  split
  · exact .refl st
  · dsimp only
    split
    · exact hu
    · split
      · exact hu.trans (scanSpecific_does h _ _ ⟨_, false, false⟩)
      · exact hu.trans (Does.foldl (scanEntry_does h) _ _)

/-- The alarm: a scan, the sweep of the table, and the queries. -/
theorem timeout_does (ifap : Option (List IfAddr)) : Does h st (timeout h now st ifap) :=
  ((updateInterfaces_does h now st none ifap).trans (.one (.table _ _))).trans
    (sendMldQuerys_does h _)

/-- `SIGUSR2` reports every group on the upstream interface. -/
theorem sigusr2_does : Does h st (sigusr2 h st) := by
  unfold sigusr2
  split
  · exact .refl st
  · split
    · exact .refl st
    · exact mld2SendReport_does h st _ none

/-- The interface of a frame is created if it is not in the table, and scanned. -/
theorem frameInterface_does (f : Frame) : Does h st (frameInterface now st f).1 := by
  unfold frameInterface
  split
  · exact .refl st
  · rename_i hnone
    have hc : Does h st (intCreate st f.ifindex f.probe).1 := .one (.create st _ _ hnone)
    split
    · rename_i heq
      rw [heq] at hc
      exact hc
    · rename_i st' i heq
      rw [heq] at hc
      exact hc.trans (updateInterfaces_does h now st' (some i) f.ifap)

theorem l2_does (i : Nat) (packet : Mem) (len etherType : Nat) :
    ∃ s, Looked st i s ∧ Does h s (l2Ethtype h now st i packet len etherType) := by
  unfold l2Ethtype
  split
  · exact l3_does h now st i packet _
  · exact ⟨st, .nothing, .refl st⟩

/-- **A frame** is passed over; or it is counted, its interface is looked for, it is counted again
where the interface is there, and once more when its headers have been looked at. -/
inductive FrameDoes (f : Frame) (st' : Conf) : Prop
  | passed (hskip : f.hatype = arphrdLoopback ∨ f.outgoing) (h : st' = st)
  | lost (hskip : ¬ (f.hatype = arphrdLoopback ∨ f.outgoing))
      (hd : Does h (countReceived st (min f.len bufferlen)) st')
  | taken (hskip : ¬ (f.hatype = arphrdLoopback ∨ f.outgoing)) (i : Nat) (s s' : Conf)
      (hi : Does h (countReceived st (min f.len bufferlen)) s)
      (hl : Looked (countIntReceived s i (min f.len bufferlen)) i s') (hd : Does h s' st')

/-- **A frame** is counted at the daemon, then at its interface, and what is in it is handled after
that. -/
theorem handleinterfaces_does (f : Frame) : FrameDoes h st f (handleinterfaces h now st f) := by
  have hi := frameInterface_does h now (countReceived st (min f.len bufferlen)) f
  unfold handleinterfaces
  by_cases hskip : f.hatype = arphrdLoopback ∨ f.outgoing
  · exact .passed hskip (if_pos hskip)
  · dsimp only
    rw [if_neg hskip]
    split
    · rename_i s heq
      rw [heq] at hi
      exact .lost hskip hi
    · rename_i s i heq
      rw [heq] at hi
      obtain ⟨s', hl, hd⟩ := l2_does h now (countIntReceived s i (min f.len bufferlen)) i f.buffer
        (min f.len bufferlen) f.protocol
      exact .taken hskip i s s' hi hl hd

/-- An event is a frame, or takes an interface away, or is primitive operations. -/
theorem step_does (ev : Event) : (∃ now f, ev = .frame now f) ∨ (∃ now i, ev = .destroy now i) ∨
    ((∀ now f, ev ≠ .frame now f) ∧ Does h st (step h st ev)) := by
  cases ev with
  | frame now f => exact Or.inl ⟨now, f, rfl⟩
  | timeout now ifap => exact Or.inr (Or.inr ⟨by simp, timeout_does h now st ifap⟩)
  | sigusr2 now => exact Or.inr (Or.inr ⟨by simp, sigusr2_does h st⟩)
  | create now ifindex probe =>
    refine Or.inr (Or.inr ⟨by simp, ?_⟩)
    unfold step
    dsimp only
    split
    · exact .refl st
    · rename_i hnone
      exact .one (.create st ifindex probe hnone)
  | destroy now i => exact Or.inr (Or.inl ⟨now, i, rfl⟩)

/-- The start is a scan and the first queries. -/
theorem boot_does (o : Options) (ifap : Option (List IfAddr)) :
    Does h (init o) (boot h o now ifap) :=
  (updateInterfaces_does h now (init o) none ifap).trans (sendMldQuerys_does h _)

variable {h : Host} {P : Conf → Prop} {Q : Nat → Conf → Prop}

/-- **The rule for invariants of the daemon.**  `Q len` is what holds while a frame of `len` bytes
is counted as received, but not yet at its interface and by its headers. -/
theorem step_keeps (hprim : ∀ a b, Prim h a b → P a → P b)
    (hdestroy : ∀ st i, P st → P (intDestroy st i))
    (hprim' : ∀ len a b, Prim h a b → Q len a → Q len b)
    (hreceived : ∀ st len, P st → Q len (countReceived st len))
    (hlost : ∀ st len, Q len st → P st)
    (htaken : ∀ st i len s, Q len st → Looked (countIntReceived st i len) i s → P s)
    (st : Conf) (ev : Event) (hst : P st) : P (step h st ev) := by
  rcases step_does h st ev with ⟨now, f, rfl⟩ | ⟨now, i, rfl⟩ | ⟨-, hd⟩
  · cases handleinterfaces_does h now st f with
    | passed hskip heq =>
      rw [step, heq]
      exact hst
    | lost hskip hd => exact hlost _ _ (hd.keeps (hprim' _) (hreceived st _ hst))
    | taken hskip i s s' hi hl hd =>
      exact hd.keeps hprim (htaken s i _ s' (hi.keeps (hprim' _) (hreceived st _ hst)) hl)
  · exact hdestroy st i hst
  · exact hd.keeps hprim hst

/-- The same over runs, from the start of the daemon. -/
theorem reachable_keeps (hinit : ∀ o, P (init o)) (hprim : ∀ a b, Prim h a b → P a → P b)
    (hdestroy : ∀ st i, P st → P (intDestroy st i))
    (hprim' : ∀ len a b, Prim h a b → Q len a → Q len b)
    (hreceived : ∀ st len, P st → Q len (countReceived st len))
    (hlost : ∀ st len, Q len st → P st)
    (htaken : ∀ st i len s, Q len st → Looked (countIntReceived st i len) i s → P s)
    {st : Conf} (hr : Reachable h st) : P st := by
  obtain ⟨o, now, ifap, es, rfl⟩ := hr
  exact Runs.run_invariant (P := P) (step_keeps hprim hdestroy hprim' hreceived hlost htaken) es _
    ((boot_does h now o ifap).keeps hprim (hinit o))

end Events

end Ecmh
