/-
# A group outlives its listeners

A daemon reports a group on an interface to whoever asks there, and counts the reports of everybody
else as listeners, those of other daemons included.  In MLDv1 the groups that it reports on an
interface are the ones it has been told of on that interface.  So two daemons on a link go on
telling each other of a group that nobody wants any more.

A `Turn` is one alarm of one of the two daemons: what it asks is delivered to the other one, and the
answer is delivered back.  `turn_refreshes` follows the two packets.  `group_outlives_listeners`
says that whatever turns the alarms take, and whatever the time between them is, both daemons have
the subscription in the end, and one of them has it at any moment, although nobody else says
anything.
-/
import Ecmh.OnlyModes
import Ecmh.Served
import Ecmh.Understood

namespace Ecmh

open ByteMem

/-! ## 1. What a packet says -/

/-- A packet with an MLD message of version 1, as every daemon reads it, whatever is in its buffer
behind the packet. -/
structure Says (packet : List UInt8) (src : In6Addr) (type : UInt8) (mca : In6Addr) : Prop where
  length : packet.length = 72
  arrives : ∀ (e : Endian) (m : Mem), m.read 0 72 = packet → Arrives e m 72 24 src type mca

section Says

variable {h : Host} {st : Conf} {i : Nat} {mca : In6Addr}

/-- A query of the MLDv1-only mode says that it is one, from the link-local address. -/
theorem query_reads (h1 : st.mld1only = true)
    (hll : in6IsAddrLinklocal (st.intn i).linklocal = true) :
    Says ((queryPacket h st i mca).read 0 (queryLength st)) (st.intn i).linklocal
      icmp6MembershipQuery mca := by
  have hlen : queryLength st = 72 := by rw [queryLength, if_pos h1]
  have hbody := queryBody_mldPacket h st i mca
  rw [hlen] at hbody ⊢
  refine ⟨Mem.length_read _ _ _, fun e m hm => ?_⟩
  rw [queryPacket_eq, hlen] at hm
  exact hbody.arrives (by decide) (by decide) (by decide) rfl rfl hll hm

/-- An MLDv1 report says which group it is for. -/
theorem mld1Report_reads (hmca : in6IsAddrMulticast mca = true)
    (hll : in6IsAddrLinklocal (st.intn i).linklocal = true) :
    Says ((mld1ReportPacket h st i mca).read 0 72) (st.intn i).linklocal icmp6MembershipReport
      mca := by
  refine ⟨Mem.length_read _ _ _, fun e m hm => ?_⟩
  rw [mld1ReportPacket_eq] at hm
  exact (mld1ReportBody_mldPacket h st i mca).arrives (by decide) (by decide) (by decide) rfl hmca
    hll hm

variable {packet : List UInt8} {src : In6Addr} {type : UInt8}

/-- Seventy-two bytes fit any buffer. -/
theorem Says.fits (hs : Says packet src type mca) : packet.length ≤ bufferlen := by
  rw [hs.length]
  decide

/-- What the packet says is read from the buffer that it was received in. -/
theorem Says.buffer (hs : Says packet src type mca) (e : Endian) :
    Arrives e (Mem.ofList packet) 72 24 src type mca := by
  refine hs.arrives e _ ?_
  rw [← hs.length]
  exact Mem.read_ofList packet

/-- A query is taken for one. -/
theorem Says.query (hs : Says packet src icmp6MembershipQuery mca) {intn : IntNode}
    (hf : Foreign intn src) (e : Endian) :
    l3Message e intn (Mem.ofList packet) 72 = .query 24 := by
  rw [(hs.buffer e).message hf.1 hf.2 (by decide) (by decide)]
  rfl

/-- A report is taken for one of its group. -/
theorem Says.report (hs : Says packet src icmp6MembershipReport mca) {intn : IntNode}
    (hf : Foreign intn src) (e : Endian) :
    l3Message e intn (Mem.ofList packet) 72 = .mld1Report ((Mem.ofList packet).shift 48) ∧
      mld1Mca ((Mem.ofList packet).shift 48) = mca := by
  refine ⟨?_, ?_⟩
  · rw [(hs.buffer e).message hf.1 hf.2 (by decide) (by decide)]
    rfl
  · rw [← (hs.buffer e).mca]
    exact readAddr_shift _ 48 8

end Says

/-- A packet that a daemon takes for an MLDv1 report of the group, unless it takes it for its own.
-/
structure Reports (packet : List UInt8) (src g : In6Addr) : Prop where
  fits : packet.length ≤ bufferlen
  reads : ∀ (e : Endian) (intn : IntNode), Foreign intn src → ∃ mld1,
    l3Message e intn (Mem.ofList packet) packet.length = .mld1Report mld1 ∧ mld1Mca mld1 = g

/-- What a daemon reports is a report. -/
theorem Says.reports {packet : List UInt8} {src mca : In6Addr}
    (hs : Says packet src icmp6MembershipReport mca) : Reports packet src mca where
  fits := hs.fits
  reads := fun e intn hf => by
    rw [hs.length]
    exact ⟨_, hs.report hf e⟩

/-! ## 2. A frame on an interface in use -/

section Frame

variable {h : Host} {st : Conf} {i : Nat} {packet : List UInt8}

/-- A frame on an interface in use is counted, and comes in there. -/
theorem ethernetFrame_enters (hi : (st.intn i).mtu ≠ 0) (now : Nat) :
    (ethernetFrame i packet).Enters now st
      (countReceived st (min packet.length bufferlen)) i where
  hatype := show (1 : Nat) ≠ arphrdLoopback by decide
  incoming := rfl
  interface := by
    have hfind : intFind st i = some i := by
      obtain ⟨k, hk⟩ := Option.isSome_iff_exists.mp (intFind_isSome_iff.mpr hi)
      rw [hk, (intFind_eq_some.mp hk).1]
    unfold frameInterface
    rw [show intFind (countReceived st (min (ethernetFrame i packet).len bufferlen))
      (ethernetFrame i packet).ifindex = some i from hfind]
    rfl
  ipv6 := rfl

/-- What is done with it is told by the message in it. -/
theorem Frame.Enters.handled {f : Frame} {now : Nat} {st1 : Conf} (hin : f.Enters now st st1 i) :
    handleinterfaces h now st f
      = (l3Message h.endian (st1.intn i) f.buffer (min f.len bufferlen)).handle h now
          (countIntReceived st1 i (min f.len bufferlen)) i (min f.len bufferlen) := by
  rcases frame_cases h now st f with ⟨st2, k, hin2, heq⟩ | ⟨hnone, -⟩
  · obtain ⟨rfl, rfl⟩ := hin.unique hin2
    exact heq
  · exact absurd hin (hnone _ _)

/-- The packet is handled in the state in which it has been counted. -/
theorem ethernetFrame_handled (hi : (st.intn i).mtu ≠ 0) (hlen : packet.length ≤ bufferlen)
    (now : Nat) : step h st (.frame now (ethernetFrame i packet))
      = (l3Message h.endian (st.intn i) (Mem.ofList packet) packet.length).handle h now
          (received st (ethernetFrame i packet)) i packet.length := by
  have hmin : min packet.length bufferlen = packet.length := Nat.min_eq_left hlen
  have hframe : min (ethernetFrame i packet).len bufferlen = packet.length := hmin
  rw [step, (ethernetFrame_enters hi now).handled, received, hframe, hmin]
  rfl

end Frame

/-! ## 3. What stays of an interface -/

/-- What the exchange needs of an interface is as it was. -/
structure SameRole (i : Nat) (st st' : Conf) : Prop where
  mld1only : st'.mld1only = st.mld1only
  mld2only : st'.mld2only = st.mld2only
  inUse : (st.intn i).mtu ≠ 0 → (st'.intn i).mtu ≠ 0
  upstream : (st'.intn i).upstream = (st.intn i).upstream
  linklocal : (st'.intn i).linklocal = (st.intn i).linklocal
  global : (st'.intn i).global = (st.intn i).global ∨
    in6IsAddrLinklocal (st'.intn i).global = false

namespace SameRole

variable {i : Nat} {a b c : Conf}

theorem refl (i : Nat) (st : Conf) : SameRole i st st := ⟨rfl, rfl, id, rfl, rfl, Or.inl rfl⟩

theorem trans (h1 : SameRole i a b) (h2 : SameRole i b c) : SameRole i a c where
  mld1only := h2.mld1only.trans h1.mld1only
  mld2only := h2.mld2only.trans h1.mld2only
  inUse := fun h => h2.inUse (h1.inUse h)
  upstream := h2.upstream.trans h1.upstream
  linklocal := h2.linklocal.trans h1.linklocal
  global := by
    rcases h2.global with h | h
    · rw [h]
      exact h1.global
    · exact Or.inr h

end SameRole

/-- The scan finds no other link-local address on the interface. -/
def FindsOnly (ifap : Option (List IfAddr)) (i : Nat) (addr : In6Addr) : Prop :=
  ∀ ifa ∈ ifap.getD [], ifa.ifindex = i → ifa.family = some .inet6 →
    in6IsAddrLinklocal ifa.addr = true → ifa.addr = addr

instance (ifap : Option (List IfAddr)) (i : Nat) (addr : In6Addr) :
    Decidable (FindsOnly ifap i addr) := inferInstanceAs (Decidable (∀ ifa ∈ _, _))

section Kept

variable {h : Host} {st : Conf} {i : Nat}

/-- Handling a packet leaves the role, if it leaves the interface in use. -/
theorem Handles.sameRole {st' : Conf} (hh : Handles st st')
    (hinUse : (st.intn i).mtu ≠ 0 → (st'.intn i).mtu ≠ 0) : SameRole i st st' :=
  ⟨hh.mld1only, hh.mld2only, hinUse, by rw [(hh.intn i).2], hh.linklocal i, Or.inl (hh.global i)⟩

/-- So does a frame, where `sendto` never answers `ENXIO`. -/
theorem ethernetFrame_sameRole (hx : ∀ n, h.sendto n ≠ .enxio) (hi : (st.intn i).mtu ≠ 0)
    {packet : List UInt8} (hlen : packet.length ≤ bufferlen) (now : Nat) :
    SameRole i st (step h st (.frame now (ethernetFrame i packet))) := by
  obtain ⟨n, b, hnb⟩ := received_intn st (ethernetFrame i packet) i
  have hinUse := step_inUse hx (.frame now (ethernetFrame i packet)) (fun _ _ hc => by cases hc) hi
  rw [ethernetFrame_handled hi hlen] at hinUse ⊢
  have hreceived : SameRole i st (received st (ethernetFrame i packet)) :=
    ⟨rfl, rfl, fun hk => by rwa [hnb], by rw [hnb], by rw [hnb], Or.inl (by rw [hnb])⟩
  exact hreceived.trans ((handle_handles h now _ i packet.length _).sameRole fun _ => hinUse)

/-- An address that is stored is all that changes in a slot. -/
theorem scanStore_slot (s : ScanLoop) (k : Nat) (ifa : IfAddr) :
    ∃ linklocal global, (scanStore s k ifa).st.intn i
      = { s.st.intn i with linklocal := linklocal, global := global } := by
  have hset : ∀ f : IntNode → IntNode, (∀ a, ∃ linklocal global,
      f a = { a with linklocal := linklocal, global := global }) → ∃ linklocal global,
        (s.st.setInt k f).intn i
          = { s.st.intn i with linklocal := linklocal, global := global } := by
    intro f hf
    rw [setInt_intn]
    split
    · exact hf _
    · exact ⟨_, _, rfl⟩
  unfold scanStore
  split
  · split
    · exact hset _ fun a => ⟨ifa.addr, a.global, rfl⟩
    · exact hset _ fun a => ⟨a.linklocal, ifa.addr, rfl⟩
  · exact ⟨_, _, rfl⟩

/-- Of an interface in use a scan changes the addresses only. -/
theorem scanEntry_slot (hi : (st.intn i).mtu ≠ 0) (ifa : IfAddr) :
    ∃ linklocal global, (scanEntry st ifa).intn i
      = { st.intn i with linklocal := linklocal, global := global } := by
  unfold scanEntry
  split
  · exact ⟨_, _, rfl⟩
  · split
    · exact scanStore_slot _ _ ifa
    · rename_i hnone
      have hne : i ≠ ifa.ifindex := by
        rintro rfl
        rw [← intFind_isSome_iff, hnone] at hi
        cases hi
      have hcreated := intCreate_created st ifa.ifindex ifa.probe
      split
      · rename_i hcr
        rw [hcr] at hcreated
        exact ⟨_, _, hcreated.others i hne⟩
      · rename_i st1 k hcr
        rw [hcr] at hcreated
        have hk : k = ifa.ifindex := by
          rcases hcreated.returned with h | h <;> cases h
          rfl
        obtain ⟨l, g, hstore⟩ := scanStore_slot (i := i) ⟨st1, false, false⟩ k ifa
        rw [hcreated.others i hne] at hstore
        dsimp only
        split
        · exact ⟨l, g, hstore⟩
        · rw [intDestroy, setInt_intn_ne _ _ (hk ▸ hne.symm)]
          exact ⟨l, g, hstore⟩

/-- An entry without another link-local address changes the global address at most. -/
theorem scanCell_keeps {a a' : Addrs} {ifa : IfAddr} (h : scanCell (some a) ifa = some a')
    (hifa : ifa.family = some .inet6 → in6IsAddrLinklocal ifa.addr = true →
      ifa.addr = a.linklocal) :
    a'.linklocal = a.linklocal ∧ (a'.global = a.global ∨ in6IsAddrLinklocal a'.global = false) := by
  unfold scanCell at h
  split at h
  · rename_i husable
    have hfamily : ifa.family = some .inet6 := by
      simpa using (Bool.and_eq_true_iff.mp husable).2
    have hlearn : a.learn ifa = a' := Option.some.inj h
    unfold Addrs.learn at hlearn
    split at hlearn
    · rename_i hll
      rw [← hlearn]
      exact ⟨hifa hfamily hll, Or.inl rfl⟩
    · rename_i hll
      rw [← hlearn]
      exact ⟨rfl, Or.inr (Bool.not_eq_true _ ▸ hll)⟩
  · rw [Option.some.inj h]
    exact ⟨rfl, Or.inl rfl⟩

/-- The scan of an entry, seen from an interface in use. -/
theorem scanEntry_sameRole (hi : (st.intn i).mtu ≠ 0) {ifa : IfAddr}
    (hifa : ifa.ifindex = i → ifa.family = some .inet6 → in6IsAddrLinklocal ifa.addr = true →
      ifa.addr = (st.intn i).linklocal) : SameRole i st (scanEntry st ifa) := by
  obtain ⟨l, g, hslot⟩ := scanEntry_slot hi ifa
  have hmtu : ((scanEntry st ifa).intn i).mtu = (st.intn i).mtu := by rw [hslot]
  have haddrs := scanEntry_addrsOf st ifa i
  rw [addrsOf_eq_some (hmtu ▸ hi), addrsOf_eq_some hi] at haddrs
  have hmode := scanEntry_interfacesOnly st ifa
  have hcell : ((scanEntry st ifa).intn i).linklocal = (st.intn i).linklocal ∧
      (((scanEntry st ifa).intn i).global = (st.intn i).global ∨
        in6IsAddrLinklocal ((scanEntry st ifa).intn i).global = false) := by
    split at haddrs
    · rename_i hidx
      exact scanCell_keeps haddrs.symm (hifa hidx)
    · have hsame := Option.some.inj haddrs
      exact ⟨congrArg Addrs.linklocal hsame, Or.inl (congrArg Addrs.global hsame)⟩
  exact ⟨hmode.mld1only, hmode.mld2only, fun _ => hmtu ▸ hi, by rw [hslot], hcell.1, hcell.2⟩

/-- A scan that finds no other link-local address leaves the role. -/
theorem scan_sameRole : ∀ (l : List IfAddr) {st : Conf}, (st.intn i).mtu ≠ 0 →
    FindsOnly (some l) i (st.intn i).linklocal → SameRole i st (l.foldl scanEntry st) := by
  intro l
  induction l with
  | nil => exact fun _ _ => .refl i _
  | cons ifa l ih =>
    intro st hi hl
    obtain ⟨hfirst, hrest⟩ := List.forall_mem_cons.mp hl
    have hone := scanEntry_sameRole hi hfirst
    refine hone.trans (ih (hone.inUse hi) ?_)
    rw [hone.linklocal]
    exact hrest

/-- The same with the test of the time before it. -/
theorem updateInterfaces_sameRole (hi : (st.intn i).mtu ≠ 0) {ifap : Option (List IfAddr)}
    (hifap : FindsOnly ifap i (st.intn i).linklocal) (now : Nat) :
    SameRole i st (updateInterfaces now st none ifap) := by
  unfold updateInterfaces
  split
  · exact .refl i st
  · have hupdated : SameRole i st { st with lastUpdate := now } :=
      ⟨rfl, rfl, id, rfl, rfl, Or.inl rfl⟩
    cases ifap with
    | none => exact hupdated
    | some l => exact hupdated.trans (scan_sameRole l hi hifap)

/-- So does the alarm. -/
theorem timeout_sameRole (hx : ∀ n, h.sendto n ≠ .enxio) (hi : (st.intn i).mtu ≠ 0)
    {ifap : Option (List IfAddr)} (hifap : FindsOnly ifap i (st.intn i).linklocal) (now : Nat) :
    SameRole i st (step h st (.timeout now ifap)) := by
  have hinUse := step_inUse hx (.timeout now ifap) (fun _ _ hc => by cases hc) hi
  have hswept : SameRole i (updateInterfaces now st none ifap)
      ((updateInterfaces now st none ifap).setGroups
        (listLoop2 (timeoutGroup now) (updateInterfaces now st none ifap).groups)) :=
    ⟨rfl, rfl, id, rfl, rfl, Or.inl rfl⟩
  exact ((updateInterfaces_sameRole hi hifap now).trans hswept).trans
    ((sendMldQuerys_sendsOnly h _).handles.sameRole fun _ => hinUse)

end Kept

/-! ## 4. The question and the answer -/

section Exchange

variable {h : Host} {st : Conf} {i : Nat}

/-- What `send_mld_querys` sends on an interface. -/
theorem sendMldQuerys_reads (hx : ∀ n, h.sendto n ≠ .enxio) (hi : (st.intn i).mtu ≠ 0)
    (h1 : st.mld1only = true) (hup : (st.intn i).upstream = false)
    (hll : in6IsAddrLinklocal (st.intn i).linklocal = true) :
    SomeSent (fun x => x.ifindex = (st.intn i).ifindex ∧
      Says x.packet (st.intn i).linklocal icmp6MembershipQuery In6Addr.any) st
      (sendMldQuerys h st) := by
  have hslot : i ∈ List.range st.maxinterfaces := by
    rw [List.mem_range]
    exact (intFind_eq_some.mp (Option.eq_some_of_isSome (intFind_isSome_iff.mpr hi))).2.1
  refine SomeSent.foldl (I := fun s => SendsOnly (fun _ => True) st s ∧ (s.intn i).mtu ≠ 0)
    (fun s k hs => ?_) (fun s hs => ?_) _ st hslot ⟨.refl st, hi⟩
  · split
    · exact ⟨hs, .refl s⟩
    · have hsend := mldSendQuery_sendsOnly h s k In6Addr.any
      exact ⟨⟨hs.1.trans (hsend.mono fun _ _ => trivial),
        (mldSendQuery_does h s k In6Addr.any).inUse hx hs.2⟩, hsend.allSent⟩
  · obtain ⟨hsends, hmtu⟩ := hs
    have hup' : (s.intn i).upstream = false := by rw [(hsends.intn i).2, hup]
    have hll' : in6IsAddrLinklocal (s.intn i).linklocal = true := by rwa [hsends.linklocal]
    have hlen : queryLength s % 65536 = queryLength s := by
      unfold queryLength
      split <;> rfl
    have hread : Says ((queryPacket h s i In6Addr.any).read 0 (queryLength s))
        (s.intn i).linklocal icmp6MembershipQuery In6Addr.any :=
      query_reads (hsends.mld1only.trans h1) hll'
    rw [if_neg hmtu, mldSendQuery_eq, hup', if_neg (by simp)]
    refine ⟨_, sendpacket6_sent h .mldSendQuery s i _ _, _, List.mem_singleton_self _,
      hsends.ifindex i, ?_⟩
    rw [← hsends.linklocal i]
    simpa only [sentOf, hlen] using hread

/-- **Who times out asks.** -/
theorem timeout_asks (hx : ∀ n, h.sendto n ≠ .enxio) (hints : IntsOk st)
    (hi : (st.intn i).mtu ≠ 0) (h1 : st.mld1only = true) (hup : (st.intn i).upstream = false)
    (hll : in6IsAddrLinklocal (st.intn i).linklocal = true) {ifap : Option (List IfAddr)}
    (hifap : FindsOnly ifap i (st.intn i).linklocal) (now : Nat) :
    ∃ x ∈ newSent st (step h st (.timeout now ifap)), x.ifindex = i ∧
      Says x.packet (st.intn i).linklocal icmp6MembershipQuery In6Addr.any := by
  have hsame := updateInterfaces_sameRole hi hifap now
  have hints' := updateInterfaces_intsOk now hints none ifap
  have hll' : in6IsAddrLinklocal ((updateInterfaces now st none ifap).intn i).linklocal = true := by
    rwa [hsame.linklocal]
  have hread : SomeSent (fun x => x.ifindex = ((updateInterfaces now st none ifap).intn i).ifindex ∧
      Says x.packet ((updateInterfaces now st none ifap).intn i).linklocal icmp6MembershipQuery
        In6Addr.any)
      ((updateInterfaces now st none ifap).setGroups (listLoop2 (timeoutGroup now)
        (updateInterfaces now st none ifap).groups)) (step h st (.timeout now ifap)) :=
    sendMldQuerys_reads hx (hsame.inUse hi) (hsame.mld1only.trans h1) (hsame.upstream.trans hup)
      hll'
  refine (hread.congr (updateInterfaces_interfacesOnly now st none ifap).sent.symm rfl).exists.imp
    fun x hx => ⟨hx.1, ?_, ?_⟩
  · exact hx.2.1.trans (hints'.slot i (hsame.inUse hi))
  · have hpacket := hx.2.2
    rwa [hsame.linklocal] at hpacket

/-- In MLDv1-only mode a report for a group is an MLDv1 report. -/
theorem mldSendReport_mld1only (h1 : st.mld1only = true) (h2 : st.mld2only = false)
    (mca : In6Addr) :
    mldSendReport h st i mca = mld1SendReport h st i mca := by
  have hfirst : mld1Reports st i = true := by simp [mld1Reports, h1, h2]
  have hsecond : mld2Reports (mld1SendReport h st i mca) i = false := by
    simp [mld2Reports, (mld1SendReport_sendsOnly h st i mca).mld1only, h1]
  unfold mldSendReport
  rw [if_pos hfirst]
  dsimp only
  rw [hsecond, if_neg (by simp)]

/-- The reports in an answer are read as reports of their groups. -/
theorem mld1Answer_reads (h1 : st.mld1only = true) (h2 : st.mld2only = false)
    (hll : in6IsAddrLinklocal (st.intn i).linklocal = true) :
    AllSent (fun x => ∀ g, x.sender = .mld1SendReport g → in6IsAddrMulticast g = true →
      Says x.packet (st.intn i).linklocal icmp6MembershipReport g) st (mld1Answer h st i) := by
  refine (AllSent.foldl (I := Answering st i) (fun s groupn hs => ?_) _ st (.refl st)).2
  refine AllSent.foldl (I := Answering st i) (fun s grpintn hs => ?_) _ s hs
  split
  · exact ⟨hs, .refl s⟩
  · refine ⟨hs.trans (mldSendReport_sendsOnly h s i groupn.mca), ?_⟩
    rw [mldSendReport_mld1only (hs.mld1only.trans h1) (hs.mld2only.trans h2), mld1SendReport_eq]
    refine AllSent.congr (sendpacket6_allSent h _ s i _ _ fun g hg hmca => ?_) rfl
      (countIcmpSent_sent _ i)
    cases hg
    rw [← hs.linklocal i]
    exact mld1Report_reads hmca (by rwa [hs.linklocal])

/-- **Who is asked answers** for every group that it has a group-interface in, and its table stays.
-/
theorem query_answered (hints : IntsOk st) (hi : (st.intn i).mtu ≠ 0) (h1 : st.mld1only = true)
    (h2 : st.mld2only = false) (hll : in6IsAddrLinklocal (st.intn i).linklocal = true)
    {packet : List UInt8} {src mca g : In6Addr} (hq : Says packet src icmp6MembershipQuery mca)
    (hf : Foreign (st.intn i) src) (hg : HasGrpint st.groups i g)
    (hmca : in6IsAddrMulticast g = true) (now : Nat) :
    (step h st (.frame now (ethernetFrame i packet))).groups = st.groups ∧
    ∃ x ∈ newSent st (step h st (.frame now (ethernetFrame i packet))), x.ifindex = i ∧
      Says x.packet (st.intn i).linklocal icmp6MembershipReport g := by
  obtain ⟨n, b, hnb⟩ := received_intn st (ethernetFrame i packet) i
  have hhandles := (countIcmpReceived_handles (received st (ethernetFrame i packet)) i).trans
    (intSetMldVersion_handles now (countIcmpReceived (received st (ethernetFrame i packet)) i) i 1)
  have hstep : step h st (.frame now (ethernetFrame i packet)) = queryAnswer h
      (intSetMldVersion now (countIcmpReceived (received st (ethernetFrame i packet)) i) i 1)
      i := by
    rw [ethernetFrame_handled hi hq.fits, hq.length, hq.query hf]
    rfl
  generalize hs1 : intSetMldVersion now (countIcmpReceived (received st (ethernetFrame i packet)) i)
    i 1 = s1 at hhandles hstep
  have hgroups : s1.groups = st.groups := by rw [← hs1, intSetMldVersion_groups]; rfl
  have hsent : s1.sent = st.sent := by rw [← hs1, intSetMldVersion_sent]; rfl
  have h1' : s1.mld1only = true := hhandles.mld1only.trans h1
  have h2' : s1.mld2only = false := hhandles.mld2only.trans h2
  have hidx : (s1.intn i).ifindex = i := by
    rw [hhandles.ifindex, hnb]
    exact hints.slot i hi
  have hll' : (s1.intn i).linklocal = (st.intn i).linklocal := by rw [hhandles.linklocal, hnb]
  have hanswer : queryAnswer h s1 i = mld1Answer h s1 i :=
    if_pos ⟨by simp [h2'], Or.inl h1'⟩
  rw [hstep, hanswer]
  refine ⟨mld1Answer_sendsOnly.groups.trans hgroups, ?_⟩
  have hhas : HasGrpint s1.groups (s1.intn i).ifindex g := by rwa [hidx, hgroups]
  have htells : SomeSent (fun x => x.sender = .mld1SendReport g ∧
      x.ifindex = (s1.intn i).ifindex ∧ x.groups = s1.groups) s1 (mld1Answer h s1 i) :=
    mld1Answer_tells (by simp [mld1Reports, h1', h2']) hhas
  have hread := mld1Answer_reads (h := h) h1' h2' (by rwa [hll'])
  refine ((htells.and hread).congr hsent.symm rfl).exists.imp fun x hx => ⟨hx.1, ?_, ?_⟩
  · exact hx.2.1.2.1.trans hidx
  · rw [← hll']
    exact hx.2.2 g hx.2.1.1 hmca

/-- **Who is answered has a subscription.** -/
theorem report_joins (hints : IntsOk st) (hi : (st.intn i).mtu ≠ 0) {packet : List UInt8}
    {src g : In6Addr} (hr : Reports packet src g) (hf : Foreign (st.intn i) src)
    (hg : mld1Ignores g = false) (now : Nat) :
    Joined (step h st (.frame now (ethernetFrame i packet))) i g := by
  obtain ⟨mld1, hmsg, hmca⟩ := hr.reads h.endian (st.intn i) hf
  have hmin : min (ethernetFrame i packet).len bufferlen = packet.length :=
    Nat.min_eq_left hr.fits
  refine mld1_joined hints (ethernetFrame_enters hi now) ?_ hmca hg
  rw [hmin]
  exact hmsg

/-- The scope test lets multicast addresses through only. -/
theorem multicast_of_mld1Ignores {g : In6Addr} (hg : mld1Ignores g = false) :
    in6IsAddrMulticast g = true := by
  simp only [mld1Ignores, Bool.or_eq_false_iff, Bool.not_eq_false'] at hg
  exact hg.1.1

/-- Who has a subscription has an entry. -/
theorem Joined.hasGrpint {g : In6Addr} (hj : Joined st i g) : HasGrpint st.groups i g := by
  unfold Joined membershipOf groupintFind at hj
  cases hg : groupFind st.groups g with
  | none =>
    rw [hg] at hj
    cases hj
  | some groupn =>
    rw [hg] at hj
    dsimp only at hj
    cases hgi : grpintFind groupn.interfaces i with
    | none =>
      rw [hgi] at hj
      cases hj
    | some grpintn =>
      exact ⟨groupn, KeyedList.mem_of_find hg, KeyedList.key_of_find hg, grpintn,
        KeyedList.mem_of_find hgi, KeyedList.key_of_find hgi⟩

end Exchange

/-! ## 5. A turn -/

/-- An interface of a daemon, and its link-local address. -/
structure Port (ι : Type) where
  daemon : ι
  index : Nat
  addr : In6Addr

section Ports

variable {ι κ : Type} {t : Topology ι κ} {conf conf' : ι → Conf} {g : In6Addr}

/-- The daemon has a subscription of the group there for all sources. -/
def Port.Joined (p : Port ι) (conf : ι → Conf) (g : In6Addr) : Prop :=
  Ecmh.Joined (conf p.daemon) p.index g

/-- The interface is in use and not the upstream one, and the daemon only talks MLDv1 there, to
somebody else. -/
structure Port.Ready (p : Port ι) (conf : ι → Conf) (other : In6Addr) : Prop where
  mld1only : (conf p.daemon).mld1only = true
  mld2only : (conf p.daemon).mld2only = false
  inUse : ((conf p.daemon).intn p.index).mtu ≠ 0
  upstream : ((conf p.daemon).intn p.index).upstream = false
  addr : ((conf p.daemon).intn p.index).linklocal = p.addr
  linklocal : in6IsAddrLinklocal p.addr = true
  foreign : Foreign ((conf p.daemon).intn p.index) other

/-- Two daemons with an interface each on one link. -/
structure Neighbours (t : Topology ι κ) (conf : ι → Conf) (x y : Port ι) : Prop where
  two : x.daemon ≠ y.daemon
  link : t.link x.daemon x.index = t.link y.daemon y.index
  left : x.Ready conf y.addr
  right : y.Ready conf x.addr

theorem Neighbours.symm {x y : Port ι} (hn : Neighbours t conf x y) : Neighbours t conf y x :=
  ⟨hn.two.symm, hn.link.symm, hn.right, hn.left⟩

/-- A daemon whose role stays is still ready. -/
theorem Port.Ready.kept {p : Port ι} {other : In6Addr} (hp : p.Ready conf other)
    (hother : in6IsAddrLinklocal other = true)
    (hs : SameRole p.index (conf p.daemon) (conf' p.daemon)) : p.Ready conf' other where
  mld1only := hs.mld1only.trans hp.mld1only
  mld2only := hs.mld2only.trans hp.mld2only
  inUse := hs.inUse hp.inUse
  upstream := hs.upstream.trans hp.upstream
  addr := hs.linklocal.trans hp.addr
  linklocal := hp.linklocal
  foreign := by
    refine ⟨fun hc => hp.foreign.1 (hc.trans hs.linklocal), fun hc => ?_⟩
    rcases hs.global with hg | hg
    · exact hp.foreign.2 (hc.trans hg)
    · rw [← hc, hother] at hg
      cases hg

/-- Two daemons whose roles stay are still neighbours. -/
theorem Neighbours.kept {x y : Port ι} (hn : Neighbours t conf x y)
    (hx : SameRole x.index (conf x.daemon) (conf' x.daemon))
    (hy : SameRole y.index (conf y.daemon) (conf' y.daemon)) : Neighbours t conf' x y :=
  ⟨hn.two, hn.link, hn.left.kept hn.right.linklocal hx, hn.right.kept hn.left.linklocal hy⟩

variable [DecidableEq ι] {s : Linked ι κ}

/-- What a daemon sends is on the link behind what was there. -/
theorem act_puts {d : ι} {ev : Event} {x : Sent}
    (hx : x ∈ newSent (s.conf d) (step (t.host d) (s.conf d) ev)) :
    ∃ k, s.packets.length ≤ k ∧
      (t.act s d ev).packets[k]? = some ⟨t.link d x.ifindex, x.packet, some x.sender⟩ := by
  obtain ⟨n, hn⟩ := List.mem_iff_getElem?.mp hx
  refine ⟨s.packets.length + n, Nat.le_add_right _ _, ?_⟩
  rw [Topology.act, List.getElem?_append_right (Nat.le_add_right _ _), Nat.add_sub_cancel_left,
    List.getElem?_map, hn]
  rfl

variable [DecidableEq κ]

/-- A packet of a neighbour is delivered. -/
theorem deliver_packet {d : ι} {i k now : Nat} {p : LinkPacket κ} (hk : s.packets[k]? = some p)
    (hlink : p.link = t.link d i) :
    linkStep t s (.deliver k d now (ethernetFrame i p.packet))
      = t.act s d (.frame now (ethernetFrame i p.packet)) :=
  linkStep_deliver hk ⟨hlink, rfl, Mem.read_ofList p.packet⟩

end Ports

section Turn

variable {ι κ : Type} {t : Topology ι κ} {g : In6Addr} {x y : Port ι} {s : Linked ι κ}

/-- One of two neighbours has the subscription. -/
structure Remembers (t : Topology ι κ) (g : In6Addr) (x y : Port ι) (s : Linked ι κ) : Prop where
  ok : NetOk t s
  neighbours : Neighbours t s.conf x y
  joined : y.Joined s.conf g

/-- If both have it, it does not matter which one is called the first. -/
theorem Remembers.swap (hr : Remembers t g x y s) (hj : x.Joined s.conf g) : Remembers t g y x s :=
  ⟨hr.ok, hr.neighbours.symm, hj⟩

/-- A packet with the message is on the link of the interface, behind the first `n` ones. -/
def Waits (t : Topology ι κ) (s : Linked ι κ) (n : Nat) (p : Port ι) (src : In6Addr) (type : UInt8)
    (mca : In6Addr) : Prop :=
  ∃ k packet, n ≤ k ∧ s.packets[k]? = some packet ∧ packet.link = t.link p.daemon p.index ∧
    Says packet.packet src type mca

/-- A packet behind the first `n` ones is delivered. -/
def LinkEvent.isNewDelivery (n : Nat) : LinkEvent ι κ → Prop
  | .deliver k _ _ _ => n ≤ k
  | _ => False

variable [DecidableEq ι]

/-- **An event** at a daemon that keeps both roles. -/
theorem Remembers.act (hr : Remembers t g x y s) {d : ι} {ev : Event}
    (hok : NetOk t (t.act s d ev))
    (hleft : d = x.daemon → SameRole x.index (s.conf d) (step (t.host d) (s.conf d) ev))
    (hright : d = y.daemon → SameRole y.index (s.conf d) (step (t.host d) (s.conf d) ev) ∧
      (step (t.host d) (s.conf d) ev).groups = (s.conf d).groups) :
    Remembers t g x y (t.act s d ev) := by
  have hrole : ∀ p : Port ι,
      (d = p.daemon → SameRole p.index (s.conf d) (step (t.host d) (s.conf d) ev)) →
      SameRole p.index (s.conf p.daemon) ((t.act s d ev).conf p.daemon) := by
    intro p hp
    by_cases hd : p.daemon = d
    · rw [hd, act_conf_self]
      exact hp hd.symm
    · rw [act_conf_ne hd]
      exact .refl _ _
  refine ⟨hok, hr.neighbours.kept (hrole x hleft) (hrole y fun hd => (hright hd).1), ?_⟩
  by_cases hd : y.daemon = d
  · have hgroups := (hright hd.symm).2
    rw [Port.Joined, hd, act_conf_self, Ecmh.Joined, hgroups, ← hd]
    exact hr.joined
  · rw [Port.Joined, act_conf_ne hd]
    exact hr.joined

variable [DecidableEq κ]

/-- The question of the one daemon. -/
theorem turn_asks (hx : ∀ d n, (t.host d).sendto n ≠ .enxio) (hr : Remembers t g x y s) (now : Nat)
    {ifap : Option (List IfAddr)} (hifap : FindsOnly ifap x.index x.addr) :
    Remembers t g x y (linkStep t s (.other x.daemon (.timeout now ifap))) ∧
      Waits t (linkStep t s (.other x.daemon (.timeout now ifap))) s.packets.length y x.addr
        icmp6MembershipQuery In6Addr.any := by
  have hleft := hr.neighbours.left
  rw [← hleft.addr] at hifap
  have hll : in6IsAddrLinklocal ((s.conf x.daemon).intn x.index).linklocal = true := by
    rw [hleft.addr]
    exact hleft.linklocal
  obtain ⟨q, hq, hidx, hread⟩ := timeout_asks (hx x.daemon)
    (reachable_intsOk (hr.ok.reachable x.daemon)) hleft.inUse hleft.mld1only hleft.upstream hll
    hifap now
  obtain ⟨k, hk, hqk⟩ := act_puts (t := t) hq
  refine ⟨hr.act (linkStep_netOk hr.ok (.other x.daemon (.timeout now ifap)))
    (fun _ => timeout_sameRole (hx x.daemon) hleft.inUse hifap now)
    (fun hd => absurd hd hr.neighbours.two), k, _, hk, hqk, ?_, ?_⟩
  · rw [hidx]
    exact hr.neighbours.link
  · rw [← hleft.addr]
    exact hread

/-- The answer of the other one. -/
theorem turn_answers (hx : ∀ d n, (t.host d).sendto n ≠ .enxio) (hg : in6IsAddrMulticast g = true)
    (hr : Remembers t g x y s) (now : Nat) {k : Nat} {packet : LinkPacket κ}
    (hk : s.packets[k]? = some packet) (hlink : packet.link = t.link y.daemon y.index)
    (hread : Says packet.packet x.addr icmp6MembershipQuery In6Addr.any) :
    Remembers t g x y
        (linkStep t s (.deliver k y.daemon now (ethernetFrame y.index packet.packet))) ∧
      Waits t (linkStep t s (.deliver k y.daemon now (ethernetFrame y.index packet.packet)))
        s.packets.length x y.addr icmp6MembershipReport g := by
  have hright := hr.neighbours.right
  have hll : in6IsAddrLinklocal ((s.conf y.daemon).intn y.index).linklocal = true := by
    rw [hright.addr]
    exact hright.linklocal
  obtain ⟨hgroups, r, hrmem, hidx, hreport⟩ := query_answered (h := t.host y.daemon)
    (reachable_intsOk (hr.ok.reachable y.daemon)) hright.inUse hright.mld1only hright.mld2only hll
    hread hright.foreign hr.joined.hasGrpint hg now
  obtain ⟨k', hk', hrk⟩ := act_puts (t := t) hrmem
  have hok := linkStep_netOk hr.ok
    (.deliver k y.daemon now (ethernetFrame y.index packet.packet))
  rw [deliver_packet hk hlink] at hok ⊢
  refine ⟨hr.act hok (fun hd => absurd hd.symm hr.neighbours.two)
    (fun _ => ⟨ethernetFrame_sameRole (hx y.daemon) hright.inUse hread.fits now, hgroups⟩),
    k', _, hk', hrk, ?_, ?_⟩
  · rw [hidx]
    exact hr.neighbours.link.symm
  · rw [← hright.addr]
    exact hreport

/-- The answer arrives. -/
theorem turn_joins (hx : ∀ d n, (t.host d).sendto n ≠ .enxio) (hg : mld1Ignores g = false)
    (hr : Remembers t g x y s) (now : Nat) {k : Nat} {packet : LinkPacket κ}
    (hk : s.packets[k]? = some packet) (hlink : packet.link = t.link x.daemon x.index)
    (hread : Says packet.packet y.addr icmp6MembershipReport g) :
    Remembers t g x y
        (linkStep t s (.deliver k x.daemon now (ethernetFrame x.index packet.packet))) ∧
      x.Joined (linkStep t s
        (.deliver k x.daemon now (ethernetFrame x.index packet.packet))).conf g := by
  have hleft := hr.neighbours.left
  have hok := linkStep_netOk hr.ok
    (.deliver k x.daemon now (ethernetFrame x.index packet.packet))
  rw [deliver_packet hk hlink] at hok ⊢
  refine ⟨hr.act hok
    (fun _ => ethernetFrame_sameRole (hx x.daemon) hleft.inUse hread.fits now)
    (fun hd => absurd hd hr.neighbours.two), ?_⟩
  rw [Port.Joined, act_conf_self]
  exact report_joins (reachable_intsOk (hr.ok.reachable x.daemon)) hleft.inUse hread.reports
    hleft.foreign hg now

/-- Nothing that is on a link goes away. -/
theorem linkStep_length (s : Linked ι κ) (ev : LinkEvent ι κ) :
    s.packets.length ≤ (linkStep t s ev).packets.length := by
  rcases linkStep_cases t s ev with heq | ⟨l, packet, heq⟩ | ⟨d, e, heq, -⟩
  · rw [heq]
  · rw [heq, List.length_append]
    exact Nat.le_add_right _ _
  · rw [heq, Topology.act, List.length_append]
    exact Nat.le_add_right _ _

/-- **A turn**: after two deliveries the daemon that asks has the subscription, and the other one
has it all the time. -/
theorem turn_refreshes (hx : ∀ d n, (t.host d).sendto n ≠ .enxio) (hg : mld1Ignores g = false)
    (hr : Remembers t g x y s) (now : Nat) {ifap : Option (List IfAddr)}
    (hifap : FindsOnly ifap x.index x.addr) :
    ∃ ds : List (LinkEvent ι κ), (∀ e ∈ ds, e.isNewDelivery s.packets.length) ∧
      Runs.Always (linkStep t) (fun s' => y.Joined s'.conf g) s
        (.other x.daemon (.timeout now ifap) :: ds) ∧
      Remembers t g x y (Runs.run (linkStep t) s (.other x.daemon (.timeout now ifap) :: ds)) ∧
      x.Joined (Runs.run (linkStep t) s (.other x.daemon (.timeout now ifap) :: ds)).conf g := by
  have hmca := multicast_of_mld1Ignores hg
  obtain ⟨hr1, k, query, hk, hquery, hlink, hread⟩ := turn_asks hx hr now hifap
  obtain ⟨hr2, k', report, hk', hreport, hlink', hread'⟩ :=
    turn_answers hx hmca hr1 now hquery hlink hread
  obtain ⟨hr3, hjoined⟩ := turn_joins hx hg hr2 now hreport hlink' hread'
  have hlen : s.packets.length ≤ k' :=
    ((linkStep_length s _).trans hk').trans' (le_refl _)
  refine ⟨[.deliver k y.daemon now (ethernetFrame y.index query.packet),
    .deliver k' x.daemon now (ethernetFrame x.index report.packet)], ?_, ?_, hr3, hjoined⟩
  · simp [LinkEvent.isNewDelivery, hk, hlen]
  · exact Runs.always_cons.mpr ⟨hr.joined, Runs.always_cons.mpr ⟨hr1.joined,
      Runs.always_cons.mpr ⟨hr2.joined, Runs.always_nil hr3.joined⟩⟩⟩

end Turn

/-! ## 6. Any number of turns -/

section Turns

variable {ι κ : Type}

/-- An alarm of the daemon, and what `getifaddrs` says then. -/
structure Turn (ι : Type) where
  port : Port ι
  now : Nat
  ifap : Option (List IfAddr)

def Turn.alarm (w : Turn ι) : LinkEvent ι κ := .other w.port.daemon (.timeout w.now w.ifap)

def LinkEvent.isAlarm : LinkEvent ι κ → Bool
  | .other _ (.timeout _ _) => true
  | _ => false

/-- A delivery is no alarm. -/
theorem LinkEvent.isNewDelivery.not_alarm {n : Nat} {e : LinkEvent ι κ} (he : e.isNewDelivery n) :
    e.isAlarm = false := by
  cases e with
  | deliver k d now f => rfl
  | inject link packet => exact he.elim
  | other d ev => exact he.elim

/-- What is new is new for whoever asked earlier. -/
theorem LinkEvent.isNewDelivery.mono {n m : Nat} {e : LinkEvent ι κ} (he : e.isNewDelivery m)
    (hnm : n ≤ m) : e.isNewDelivery n := by
  cases e with
  | deliver k d now f => exact hnm.trans he
  | inject link packet => exact he.elim
  | other d ev => exact he.elim

variable [DecidableEq ι] [DecidableEq κ] {t : Topology ι κ} {g : In6Addr} {x y : Port ι}

/-- Over a run, nothing that is on a link goes away. -/
theorem run_length : ∀ (es : List (LinkEvent ι κ)) (s : Linked ι κ),
    s.packets.length ≤ (Runs.run (linkStep t) s es).packets.length := by
  intro es
  induction es with
  | nil => exact fun s => le_refl _
  | cons e es ih => exact fun s => (linkStep_length s e).trans (ih _)

/-- **Turn after turn**, by induction on them: one of the two has the subscription at any moment,
and after each turn both have it. -/
theorem turns_refresh (hx : ∀ d n, (t.host d).sendto n ≠ .enxio) (hg : mld1Ignores g = false)
    (n : Nat) : ∀ (turns : List (Turn ι)) (s : Linked ι κ), n ≤ s.packets.length →
      Remembers t g x y s → x.Joined s.conf g →
      (∀ w ∈ turns, (w.port = x ∨ w.port = y) ∧ FindsOnly w.ifap w.port.index w.port.addr) →
      ∃ ds : List (LinkEvent ι κ), ds.filter LinkEvent.isAlarm = turns.map Turn.alarm ∧
        (∀ e ∈ ds, e.isAlarm ∨ e.isNewDelivery n) ∧
        Runs.Always (linkStep t) (fun s' => x.Joined s'.conf g ∨ y.Joined s'.conf g) s ds ∧
        x.Joined (Runs.run (linkStep t) s ds).conf g ∧
        y.Joined (Runs.run (linkStep t) s ds).conf g := by
  intro turns
  induction turns with
  | nil =>
    intro s _ hr hj _
    exact ⟨[], rfl, by simp, Runs.always_nil (Or.inl hj), hj, hr.joined⟩
  | cons w turns ih =>
    intro s hlen hr hj hturns
    obtain ⟨⟨hport, hfinds⟩, hrest⟩ := List.forall_mem_cons.mp hturns
    -- whose alarm it is does not matter
    obtain ⟨ds, hnew, halways, hr', hjx⟩ : ∃ ds : List (LinkEvent ι κ),
        (∀ e ∈ ds, e.isNewDelivery s.packets.length) ∧
        Runs.Always (linkStep t) (fun s' => x.Joined s'.conf g ∨ y.Joined s'.conf g) s
          (w.alarm :: ds) ∧
        Remembers t g x y (Runs.run (linkStep t) s (w.alarm :: ds)) ∧
        x.Joined (Runs.run (linkStep t) s (w.alarm :: ds)).conf g := by
      unfold Turn.alarm
      rcases hport with hport | hport <;> rw [hport] at hfinds ⊢
      · obtain ⟨ds, hnew, halways, hr', hjx⟩ := turn_refreshes hx hg hr w.now hfinds
        exact ⟨ds, hnew, halways.mono fun _ h => Or.inr h, hr', hjx⟩
      · obtain ⟨ds, hnew, halways, hr', hjy⟩ := turn_refreshes hx hg (hr.swap hj) w.now hfinds
        exact ⟨ds, hnew, halways.mono fun _ h => Or.inl h, hr'.swap hjy, hr'.joined⟩
    have hgrown : n ≤ (Runs.run (linkStep t) s (w.alarm :: ds)).packets.length :=
      hlen.trans (run_length (w.alarm :: ds) s)
    obtain ⟨es, hfilter, hevents, halways', hlast⟩ := ih _ hgrown hr' hjx hrest
    refine ⟨w.alarm :: ds ++ es, ?_, ?_, Runs.always_append.mpr ⟨halways, halways'⟩, ?_⟩
    · have hnone : ds.filter LinkEvent.isAlarm = [] :=
        List.filter_eq_nil_iff.mpr fun e he => by simp [(hnew e he).not_alarm]
      rw [List.filter_append, hfilter, List.filter_cons_of_pos rfl, hnone]
      rfl
    · intro e he
      rcases List.mem_append.mp he with he | he
      · rcases List.mem_cons.mp he with rfl | he
        · exact Or.inl rfl
        · exact Or.inr ((hnew e he).mono hlen)
      · exact hevents e he
    · rw [Runs.run_append]
      exact hlast

/-- **A group outlives its listeners.**  Two daemons in MLDv1-only mode share a link, in any state
that a network can be in, neither of them by its upstream interface, and both have a subscription
there for all sources of a group that MLDv1 reports are not ignored for.  `sendto` takes every
packet.  Whatever turns their alarms take, at whatever times, and as long as their scans find the
same link-local addresses, there is a run with these alarms in which nothing is delivered but what
the daemons say in it, and in which one of the two has the subscription at any moment, and both have
it in the end. -/
theorem group_outlives_listeners (t : Topology ι κ) (o : ι → Options) (now : ι → Nat)
    (ifap : ι → Option (List IfAddr)) (es : List (LinkEvent ι κ)) (g : In6Addr) (x y : Port ι)
    (turns : List (Turn ι)) (hsent : ∀ d n, (t.host d).sendto n = .sent)
    (hg : mld1Ignores g = false)
    (hn : Neighbours t (Runs.run (linkStep t) (linkStart t o now ifap) es).conf x y)
    (hx : x.Joined (Runs.run (linkStep t) (linkStart t o now ifap) es).conf g)
    (hy : y.Joined (Runs.run (linkStep t) (linkStart t o now ifap) es).conf g)
    (hturns : ∀ w ∈ turns, (w.port = x ∨ w.port = y) ∧
      FindsOnly w.ifap w.port.index w.port.addr) :
    ∃ ds : List (LinkEvent ι κ), ds.filter LinkEvent.isAlarm = turns.map Turn.alarm ∧
      (∀ e ∈ ds, e.isAlarm ∨ e.isNewDelivery
        (Runs.run (linkStep t) (linkStart t o now ifap) es).packets.length) ∧
      Runs.Always (linkStep t) (fun s => x.Joined s.conf g ∨ y.Joined s.conf g)
        (Runs.run (linkStep t) (linkStart t o now ifap) es) ds ∧
      x.Joined (Runs.run (linkStep t) (linkStart t o now ifap) (es ++ ds)).conf g ∧
      y.Joined (Runs.run (linkStep t) (linkStart t o now ifap) (es ++ ds)).conf g := by
  have hok : NetOk t (Runs.run (linkStep t) (linkStart t o now ifap) es) :=
    Runs.run_invariant (P := NetOk t) (fun _ ev hs => linkStep_netOk hs ev) es _
      (linkStart_netOk t o now ifap)
  have hx' : ∀ d n, (t.host d).sendto n ≠ .enxio := fun d n hc => by
    rw [hsent] at hc
    cases hc
  obtain ⟨ds, halarms, hevents, halways, hlast⟩ :=
    turns_refresh hx' hg _ turns _ (le_refl _) ⟨hok, hn, hy⟩ hx hturns
  rw [← Runs.run_append] at hlast
  exact ⟨ds, halarms, hevents, halways, hlast⟩

end Turns

/-- Two daemons in MLDv1-only mode on one link. -/
def lan : Topology Bool Nat where
  host := fun _ => quietHost .little
  link := fun _ i => i

def lanStart : Linked Bool Nat :=
  linkStart lan (fun _ => { mld1Options with upstream := none }) (fun _ => 0) (fun _ => none)

/-- Both find their interface, and hear a host that joins. -/
def lanEvents : List (LinkEvent Bool Nat) :=
  let ifap (x : UInt8) : List IfAddr :=
    [⟨1, true, true, false, some .inet6, linkLocalOf x, ethernetProbe⟩]
  [.other false (.timeout 300 (some (ifap 2))), .other true (.timeout 300 (some (ifap 4))),
    .inject 1 siteJoinPacket, .deliver 2 false 301 (ethernetFrame 1 siteJoinPacket),
    .deliver 2 true 301 (ethernetFrame 1 siteJoinPacket)]

def lanPort : Bool → Port Bool
  | false => ⟨false, 1, linkLocalOf 2⟩
  | true => ⟨true, 1, linkLocalOf 4⟩

/-- The two are neighbours once their interfaces are found. -/
theorem lan_neighbours :
    Neighbours lan (Runs.run (linkStep lan) lanStart lanEvents).conf (lanPort false)
      (lanPort true) where
  two := by decide
  link := rfl
  left := ⟨by decide +kernel, by decide +kernel, by decide +kernel, by decide +kernel,
    by decide +kernel, by decide +kernel, by decide +kernel, by decide +kernel⟩
  right := ⟨by decide +kernel, by decide +kernel, by decide +kernel, by decide +kernel,
    by decide +kernel, by decide +kernel, by decide +kernel, by decide +kernel⟩

/-- Ten thousand seconds after the host has joined, and without another word of it. -/
theorem lan_outlives : ∃ ds : List (LinkEvent Bool Nat),
    ds.filter LinkEvent.isAlarm = [Turn.alarm ⟨lanPort false, 5000, none⟩,
      Turn.alarm ⟨lanPort true, 10000, none⟩] ∧
    (∀ e ∈ ds, e.isAlarm ∨ e.isNewDelivery
      (Runs.run (linkStep lan) lanStart lanEvents).packets.length) ∧
    Runs.Always (linkStep lan)
      (fun s => (lanPort false).Joined s.conf siteGroup ∨ (lanPort true).Joined s.conf siteGroup)
      (Runs.run (linkStep lan) lanStart lanEvents) ds ∧
    (lanPort false).Joined (Runs.run (linkStep lan) lanStart (lanEvents ++ ds)).conf siteGroup ∧
    (lanPort true).Joined (Runs.run (linkStep lan) lanStart (lanEvents ++ ds)).conf siteGroup := by
  have hjoined : ∀ b, (lanPort b).Joined (Runs.run (linkStep lan) lanStart lanEvents).conf
      siteGroup := by
    intro b
    cases b
    · exact (by decide +kernel : Joined ((Runs.run (linkStep lan) lanStart lanEvents).conf false) 1
        siteGroup)
    · exact (by decide +kernel : Joined ((Runs.run (linkStep lan) lanStart lanEvents).conf true) 1
        siteGroup)
  exact group_outlives_listeners lan (fun _ => { mld1Options with upstream := none }) (fun _ => 0)
    (fun _ => none) lanEvents siteGroup (lanPort false) (lanPort true)
    [⟨lanPort false, 5000, none⟩, ⟨lanPort true, 10000, none⟩] (fun _ _ => rfl) (by decide)
    lan_neighbours (hjoined false) (hjoined true) (by simp [FindsOnly])

end Ecmh
