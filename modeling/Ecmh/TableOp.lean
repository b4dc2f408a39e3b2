/-
# What an event does to the membership table

`TableOp` lists the operations on the table that the daemon knows, and `tableOp` computes which
one an event is: from the packet and from the addresses of the interface it came in on, never
from the table.  `step_groups` is the connection to the code: the table after a step is that
operation applied to the table before it.  An invariant of the table is therefore proved once for
each operation, and not once for each path through the handlers.

The records of an MLDv2 report are read by `grecWalk`, which is the loop of the handler without
its effects; `mld2Grecs_visits` and `mld2Grecs_groups` say that the handler looks at these records
and that its effect on the table is theirs, one after the other.
-/
import Ecmh.Effects

namespace Ecmh

open ByteMem

/-! ## 1. The operations

An MLDv1 report is a join with one row, an MLDv2 report one join for each record. -/

/-- A group that a report names, and the calls of `grpint_refresh` that follow. -/
structure Join where
  mca : In6Addr
  rows : List (In6Addr × Nat)
  deriving DecidableEq

/-- What an MLDv1 report asks of the table. -/
def mld1Join (mca : In6Addr) : Join := ⟨mca, [(In6Addr.any, mld2ModeIsInclude)]⟩

/-- The operations on the membership table. -/
inductive TableOp
  | keep
  | count (dst : In6Addr) (len : Nat)
  | refresh (ifindex : Nat) (joins : List Join)
  | reduce (mca : In6Addr) (ifindex : Nat)
  | sweep
  deriving DecidableEq

/-- The calls of `grpint_refresh` for one group-interface. -/
def refreshRows (now : Nat) (rows : List (In6Addr × Nat)) (grpintn : GrpIntNode) : GrpIntNode :=
  rows.foldl (fun grpintn row => grpintRefresh now grpintn row.1 row.2) grpintn

/-- `groupint_get`, and the calls of `grpint_refresh` on what it returned. -/
def joinTable (now ifindex : Nat) (groups : Groups) (j : Join) : Groups :=
  setGroupint (groupintGet now groups j.mca ifindex).1 j.mca ifindex (refreshRows now j.rows)

/-- What an MLDv1 reduction does to the group-interface: the `::` subscription is taken out, and
the counter says that the group-interface is to go when nothing is left. -/
def reduceGrpint (grpintn : GrpIntNode) : GrpIntNode :=
  let unsub := subscrUnsub grpintn.subscriptions In6Addr.any
  if !unsub.2 then grpintn
  else if unsub.1.count ≤ 0 then
    { grpintn with subscriptions := { unsub.1 with count := -ecmhRobustnessFactor } }
  else { grpintn with subscriptions := unsub.1 }

/-- The data packets of a group are counted. -/
def countGroup (len : Nat) (groupn : GroupNode) : GroupNode :=
  { groupn with bytes := groupn.bytes + len, packets := groupn.packets + 1 }

/-- The table after an operation at time `now`. -/
def TableOp.apply (now : Nat) : TableOp → Groups → Groups
  | .keep, groups => groups
  | .count dst len, groups => setGroup groups dst (countGroup len)
  | .refresh ifindex joins, groups => joins.foldl (joinTable now ifindex) groups
  | .reduce mca ifindex, groups => setGroupint groups mca ifindex reduceGrpint
  | .sweep, groups => listLoop2 (timeoutGroup now) groups

/-! ## 2. The records of an MLDv2 report -/

/-- A record as the handler comes to it: where it is, what its header says, and its sources, or
`none` where the handler gives up before it reads them. -/
structure GrecSeen where
  off : Nat
  grecType : Nat
  mca : In6Addr
  srcs : Option (List In6Addr)
  deriving DecidableEq

/-- The loop over the records without its effects: the records, and how it ends. -/
def grecWalk (e : Endian) (mld2r : Mem) (plen : Nat) :
    (ngrec grec : Nat) → List GrecSeen × Mld2Exit
  | 0, _ => ([], .done)
  | ngrec + 1, grec =>
    if grec > plen then ([], .outside)
    else
      let grecType := (mld2r grec).toNat
      let nsrcs := e.htons (e.load16 mld2r (grec + 2))
      let mca := readAddr mld2r (grec + 4)
      let src := grec + 20
      if !mld2Known grecType then ([⟨grec, grecType, mca, none⟩], .unknownType)
      else if nsrcs ≠ 0 ∧ src + 16 * nsrcs > plen then
        ([⟨grec, grecType, mca, none⟩], .tooManySources)
      else
        let rest := grecWalk e mld2r plen ngrec (src + 16 * nsrcs + (mld2r (grec + 1)).toNat)
        (⟨grec, grecType, mca, some (readAddrs mld2r src nsrcs)⟩ :: rest.1, rest.2)

/-- The calls of `grpint_refresh` for a record. -/
def grecRows (grecType : Nat) : List In6Addr → List (In6Addr × Nat)
  | [] => [(In6Addr.any, mld2AnyMode grecType)]
  | srcs => srcs.map (fun src => (src, mld2SrcMode grecType))

/-- What a record asks of the table, if anything. -/
def GrecSeen.join (r : GrecSeen) : Option Join :=
  if !mld2Known r.grecType || mld2Ignores r.mca then none
  else some ⟨r.mca, (r.srcs.map (grecRows r.grecType)).getD []⟩

/-- What the handler does with the sources of a record is a list of rows. -/
theorem grecRefresh_eq (now grecType : Nat) (srcs : List In6Addr) :
    grecRefresh now grecType srcs = refreshRows now (grecRows grecType srcs) := by
  funext grpintn
  cases srcs with
  | nil => rfl
  | cons src srcs =>
    simp only [grecRefresh, grecRows, refreshRows]
    rw [List.foldl_map]

/-- The handler looks at the records of the walk, and ends as the walk does. -/
theorem mld2Grecs_visits (h : Host) (now i : Nat) (mld2r : Mem) (plen : Nat) :
    ∀ (ngrec : Nat) (st : Conf) (grec : Nat) (isnew : Bool) (visits : List Visit),
    (mld2Grecs h now i mld2r plen ngrec st grec isnew visits).visits.map
        (fun v => (v.off, v.grecType, v.mca, v.srcs))
      = visits.map (fun v => (v.off, v.grecType, v.mca, v.srcs))
        ++ (grecWalk h.endian mld2r plen ngrec grec).1.map
            (fun r => (r.off, r.grecType, r.mca, r.srcs.getD []))
    ∧ (mld2Grecs h now i mld2r plen ngrec st grec isnew visits).exit
      = (grecWalk h.endian mld2r plen ngrec grec).2 := by
  intro ngrec
  induction ngrec with
  | zero => exact fun st grec isnew visits => by simp [mld2Grecs, grecWalk]
  | succ ngrec ih =>
    intro st grec isnew visits
    rw [mld2Grecs, grecWalk]
    split
    · simp
    · dsimp only
      split
      · simp
      · split
        · simp
        · refine ⟨?_, (ih _ _ _ _).2⟩
          rw [(ih _ _ _ _).1]
          simp

/-! ### The effect of the loop on the table -/

theorem refreshRows_nil (now : Nat) : refreshRows now [] = id := rfl

/-- A record that is cut off makes an entry for the group and the interface, and no subscription. -/
theorem joinTable_nil (now ifindex : Nat) (groups : Groups) (mca : In6Addr) :
    joinTable now ifindex groups ⟨mca, []⟩ = (groupintGet now groups mca ifindex).1 := by
  rw [joinTable, refreshRows_nil, setGroupint_id]

/-- Announcing a group changes neither the table nor the index of an interface. -/
theorem announce_frame (h : Host) (i : Nat) (mca : In6Addr) (isnew : Bool) (st : Conf) :
    (if isnew then mldSendReportAll h st i mca else st).groups = st.groups ∧
    ((if isnew then mldSendReportAll h st i mca else st).intn i).ifindex = (st.intn i).ifindex := by
  have hs := mldSendReportAll_sendsOnly h st i mca
  split
  · exact ⟨hs.groups, hs.ifindex i⟩
  · exact ⟨rfl, rfl⟩

/-- The effect of the handler on the table is the effect of the records of the walk. -/
theorem mld2Grecs_groups (h : Host) (now i : Nat) (mld2r : Mem) (plen : Nat) :
    ∀ (ngrec : Nat) (st : Conf) (grec : Nat) (isnew : Bool) (visits : List Visit),
    (mld2Grecs h now i mld2r plen ngrec st grec isnew visits).st.groups
      = ((grecWalk h.endian mld2r plen ngrec grec).1.filterMap GrecSeen.join).foldl
          (joinTable now (st.intn i).ifindex) st.groups := by
  intro ngrec
  induction ngrec with
  | zero => exact fun st grec isnew visits => by simp [mld2Grecs, grecWalk]
  | succ ngrec ih =>
    intro st grec isnew visits
    rw [mld2Grecs, grecWalk]
    split
    · simp
    · dsimp only
      split
      · rename_i hknown
        simp [GrecSeen.join, hknown]
      · rename_i hknown
        rcases Bool.eq_false_or_eq_true (mld2Ignores (readAddr mld2r (grec + 4))) with hign | hign
        · -- the scope is ignored: neither side touches the table
          split
          · simp [GrecSeen.join, hign]
          · rw [ih]
            simp [GrecSeen.join, hign, announce_frame]
        · split
          · simp [GrecSeen.join, hign, hknown, joinTable_nil]
          · rw [ih]
            simp [GrecSeen.join, hign, hknown, announce_frame, joinTable, grecRefresh_eq]

/-! ## 3. The operation of an event

The same tests as in the handlers, in the same order, with what they send left out. -/

/-- `l4_ipv6_icmpv6_mld2_report`. -/
def mld2Op (e : Endian) (ifindex : Nat) (mld2r : Mem) (plen : Nat) : TableOp :=
  let ngrec := e.htons (e.load16 mld2r 6)
  if 8 + ngrec * 20 > plen then .keep
  else .refresh ifindex ((grecWalk e mld2r plen ngrec 8).1.filterMap GrecSeen.join)

/-- `l4_ipv6_multicast`. -/
def multicastOp (iph : Mem) (len : Nat) : TableOp :=
  if multicastIgnores (readAddr iph ip6Src) (readAddr iph ip6Dst) then .keep
  else .count (readAddr iph ip6Dst) len

/-- `l4_ipv6_icmpv6`. -/
def icmpv6Op (e : Endian) (ifindex : Nat) (iph : Mem) (len off plen : Nat) : TableOp :=
  let type := iph off
  if !icmpv6Wanted type then .keep
  else
    let iph := icmpv6Rechecksum e iph off plen
    let mca := mld1Mca (iph.shift off)
    if type = icmp6EchoRequest then
      let iph := decreaseHlim iph
      if iph ip6Hlim = 0 then .keep else multicastOp iph len
    else if !in6IsAddrLinklocal (readAddr iph ip6Src) then .keep
    else if type = icmp6MembershipReport then
      if mld1Ignores mca then .keep
      else .refresh ifindex [⟨mca, [(In6Addr.any, mld2ModeIsInclude)]⟩]
    else if type = icmp6MembershipReduction then
      if mld1Ignores mca then .keep else .reduce mca ifindex
    else if type = icmp6V2MembershipReport ∨ type = icmp6V2MembershipReportExp then
      mld2Op e ifindex (iph.shift off) plen
    else .keep

/-- `l3_ipv6`, of an interface with these addresses. -/
def l3Op (e : Endian) (intn : IntNode) (iph : Mem) (len : Nat) : TableOp :=
  let src := readAddr iph ip6Src
  let dst := readAddr iph ip6Dst
  if !in6IsAddrMulticast dst then .keep
  else if src = intn.linklocal ∨ src = intn.global then .keep
  else match headerWalk e iph len with
    | none => .keep
    | some (type, off, plen) =>
      if type = ipprotoIcmpv6 then icmpv6Op e intn.ifindex iph len off plen
      else if in6IsAddrMulticast dst then
        let iph := decreaseHlim iph
        if iph ip6Hlim = 0 then .keep else multicastOp iph len
      else .keep

/-- `handleinterfaces`. -/
def frameOp (h : Host) (now : Nat) (st : Conf) (f : Frame) : TableOp :=
  if f.hatype = arphrdLoopback ∨ f.outgoing then .keep
  else match frameInterface now (countReceived st (min f.len bufferlen)) f with
    | (_, none) => .keep
    | (st, some i) =>
      if f.protocol = ethPIpv6 then
        l3Op h.endian (st.intn i) f.buffer (min f.len bufferlen % 65536)
      else .keep

/-- The operation of an event. -/
def tableOp (h : Host) (st : Conf) : Event → TableOp
  | .frame now f => frameOp h now st f
  | .timeout _ _ => .sweep
  | .sigusr2 _ => .keep
  | .create _ _ _ => .keep
  | .destroy _ _ => .keep

/-- The operations that an event other than `timeout` can be.  Every invariant of the table goes
through these cases. -/
inductive OpShape : TableOp → Prop
  | keep : OpShape .keep
  | count (dst : In6Addr) (len : Nat) : OpShape (.count dst len)
  | mld1Report (ifindex : Nat) (mca : In6Addr) (h : mld1Ignores mca = false) :
      OpShape (.refresh ifindex [⟨mca, [(In6Addr.any, mld2ModeIsInclude)]⟩])
  | mld1Reduction (ifindex : Nat) (mca : In6Addr) (h : mld1Ignores mca = false) :
      OpShape (.reduce mca ifindex)
  | mld2Report (ifindex : Nat) (rs : List GrecSeen) :
      OpShape (.refresh ifindex (rs.filterMap GrecSeen.join))

/-- A packet that is forwarded counts at its group. -/
theorem multicastOp_shape (iph : Mem) (len : Nat) : OpShape (multicastOp iph len) := by
  unfold multicastOp
  split
  · exact .keep
  · exact .count _ len

/-- An MLDv2 report joins what its records ask for. -/
theorem mld2Op_shape (e : Endian) (ifindex : Nat) (mld2r : Mem) (plen : Nat) :
    OpShape (mld2Op e ifindex mld2r plen) := by
  unfold mld2Op
  dsimp only
  split
  · exact .keep
  · exact .mld2Report ifindex _

/-- An ICMPv6 message is a report, a reduction, an echo that is forwarded, or nothing to the table.
-/
theorem icmpv6Op_shape (e : Endian) (ifindex : Nat) (iph : Mem) (len off plen : Nat) :
    OpShape (icmpv6Op e ifindex iph len off plen) := by
  unfold icmpv6Op
  dsimp only
  split
  · exact .keep
  · split
    · split
      · exact .keep
      · exact multicastOp_shape _ len
    · split
      · exact .keep
      · split
        · split
          · exact .keep
          · rename_i hi
            exact .mld1Report ifindex _ (Bool.eq_false_iff.mpr hi)
        · split
          · split
            · exact .keep
            · rename_i hi
              exact .mld1Reduction ifindex _ (Bool.eq_false_iff.mpr hi)
          · split
            · exact mld2Op_shape e ifindex _ plen
            · exact .keep

/-- So is a packet. -/
theorem l3Op_shape (e : Endian) (intn : IntNode) (iph : Mem) (len : Nat) :
    OpShape (l3Op e intn iph len) := by
  unfold l3Op
  dsimp only
  split
  · exact .keep
  · split
    · exact .keep
    · split
      · exact .keep
      · split
        · exact icmpv6Op_shape _ _ _ _ _ _
        · split
          · split
            · exact .keep
            · exact multicastOp_shape _ _
          · exact .keep

/-- So is a frame, if its interface is in use by then. -/
theorem frameOp_shape (h : Host) (now : Nat) (st : Conf) (f : Frame) :
    OpShape (frameOp h now st f) := by
  unfold frameOp
  split
  · exact .keep
  · split
    · exact .keep
    · split
      · exact l3Op_shape _ _ _ _
      · exact .keep

/-- **Every event** is one of the operations that packets make, or the sweep, which only the alarm
makes. -/
theorem tableOp_shape (h : Host) (st : Conf) (ev : Event) :
    OpShape (tableOp h st ev) ∨
      (tableOp h st ev = .sweep ∧ ∃ now ifap, ev = .timeout now ifap) := by
  cases ev with
  | frame now f => exact Or.inl (frameOp_shape h now st f)
  | timeout now ifap => exact Or.inr ⟨rfl, now, ifap, rfl⟩
  | sigusr2 now => exact Or.inl .keep
  | create now ifindex probe => exact Or.inl .keep
  | destroy now i => exact Or.inl .keep

/-- Only `timeout` sweeps. -/
theorem eq_timeout_of_sweep {h : Host} {st : Conf} {ev : Event} (hop : tableOp h st ev = .sweep) :
    ∃ now ifap, ev = .timeout now ifap := by
  rcases tableOp_shape h st ev with hs | ⟨-, he⟩
  · rw [hop] at hs
    cases hs
  · exact he

/-! ## 4. The interface table is not the membership table

Frames and alarms begin with a scan of the interfaces.  It neither reads nor writes the groups, so
that the operation of an event can be computed from the interface that the scan leaves. -/

/-- All that the functions which fill the interface table change. -/
def InterfacesOnly (st st' : Conf) : Prop := st' = { st with
  ints := st'.ints
  upstreamId := st'.upstreamId
  lastUpdate := st'.lastUpdate }

section InterfacesOnly

variable {a b c : Conf}

theorem InterfacesOnly.refl (st : Conf) : InterfacesOnly st st := rfl

theorem InterfacesOnly.trans (h1 : InterfacesOnly a b) (h2 : InterfacesOnly b c) :
    InterfacesOnly a c := by
  rw [InterfacesOnly, h2, h1]

theorem InterfacesOnly.groups (h : InterfacesOnly a b) : b.groups = a.groups := by rw [h]

theorem InterfacesOnly.sent (h : InterfacesOnly a b) : b.sent = a.sent := by rw [h]

theorem InterfacesOnly.mld1only (h : InterfacesOnly a b) : b.mld1only = a.mld1only := by rw [h]

theorem InterfacesOnly.mld2only (h : InterfacesOnly a b) : b.mld2only = a.mld2only := by rw [h]

end InterfacesOnly

theorem setInt_interfacesOnly (st : Conf) (i : Nat) (f : IntNode → IntNode) :
    InterfacesOnly st (st.setInt i f) := rfl

/-- Creating an interface is nothing to the groups. -/
theorem intCreate_interfacesOnly (st : Conf) (ifindex : Nat) (probe : IfProbe) :
    InterfacesOnly st (intCreate st ifindex probe).1 := by
  unfold intCreate
  dsimp only
  repeat' split
  all_goals rfl

/-- Nor is an address that is stored. -/
theorem scanStore_interfacesOnly (s : ScanLoop) (i : Nat) (ifa : IfAddr) :
    InterfacesOnly s.st (scanStore s i ifa).st := by
  unfold scanStore
  repeat' split
  all_goals rfl

theorem scanSpecific_interfacesOnly (i : Nat) (l : List IfAddr) :
    ∀ s : ScanLoop, InterfacesOnly s.st (scanSpecific i s l) := by
  induction l with
  | nil => exact fun s => .refl s.st
  | cons ifa next ih =>
    intro s
    have hstore := scanStore_interfacesOnly s i ifa
    rw [scanSpecific]
    split
    · exact ih s
    · split
      · exact ih s
      · dsimp only
        split
        · exact hstore
        · exact hstore.trans (ih _)

theorem scanEntry_interfacesOnly (st : Conf) (ifa : IfAddr) :
    InterfacesOnly st (scanEntry st ifa) := by
  have hc := intCreate_interfacesOnly st ifa.ifindex ifa.probe
  unfold scanEntry
  split
  · rfl
  · split
    · exact scanStore_interfacesOnly _ _ ifa
    · split
      · rename_i hcr
        rw [hcr] at hc
        exact hc
      · rename_i st1 i hcr
        rw [hcr] at hc
        have hstore := scanStore_interfacesOnly ⟨st1, false, false⟩ i ifa
        dsimp only
        split
        · exact hc.trans hstore
        · exact (hc.trans hstore).trans (setInt_interfacesOnly _ i _)

/-- A scan is nothing to the groups, whatever it finds. -/
theorem updateInterfaces_interfacesOnly (now : Nat) (st : Conf) (specific : Option Nat)
    (ifap : Option (List IfAddr)) :
    InterfacesOnly st (updateInterfaces now st specific ifap) := by
  unfold updateInterfaces
  split
  · rfl
  · have hstamp : InterfacesOnly st { st with lastUpdate := now } := rfl
    dsimp only
    split
    · exact hstamp
    · split
      · exact hstamp.trans (scanSpecific_interfacesOnly _ _ ⟨_, false, false⟩)
      · exact hstamp.trans (Runs.foldl_rel InterfacesOnly.refl (fun _ _ _ h1 h2 => h1.trans h2)
          scanEntry_interfacesOnly _ _)

theorem updateInterfaces_groups (now : Nat) (st : Conf) (specific : Option Nat)
    (ifap : Option (List IfAddr)) : (updateInterfaces now st specific ifap).groups = st.groups :=
  (updateInterfaces_interfacesOnly now st specific ifap).groups

/-- Nor is the search for the interface of a frame. -/
theorem frameInterface_interfacesOnly (now : Nat) (st : Conf) (f : Frame) :
    InterfacesOnly st (frameInterface now st f).1 := by
  have hc := intCreate_interfacesOnly st f.ifindex f.probe
  unfold frameInterface
  split
  · rfl
  · split
    · rename_i hcr
      rw [hcr] at hc
      exact hc
    · rename_i st1 i hcr
      rw [hcr] at hc
      exact hc.trans (updateInterfaces_interfacesOnly now st1 (some i) f.ifap)

theorem frameInterface_groups (now : Nat) (st : Conf) (f : Frame) :
    (frameInterface now st f).1.groups = st.groups :=
  (frameInterface_interfacesOnly now st f).groups

/-! ### Nothing of it depends on the membership table -/

section

variable (groups : Groups)

/-- `int_create` does not read the table. -/
theorem intCreate_setGroups (st : Conf) (i : Nat) (probe : IfProbe) :
    intCreate (st.setGroups groups) i probe
      = ((intCreate st i probe).1.setGroups groups, (intCreate st i probe).2) := by
  obtain ⟨sock, name, mtu, hwaddr⟩ := probe
  unfold intCreate
  rcases sock with - | -
  · rfl
  rcases name with - | name
  · rfl
  rcases mtu with - | mtu
  · rfl
  by_cases hmtu : mtu < 1280
  · simp only [if_pos hmtu]
    rfl
  rcases hwaddr with - | family
  · simp only [if_neg hmtu]
    rfl
  by_cases hloop : family = arphrdLoopback
  · simp only [if_neg hmtu, if_pos hloop]
    rfl
  simp only [if_neg hmtu, if_neg hloop]
  obtain ⟨ints, groups', upstream⟩ := st
  rcases upstream with - | upstream
  · rfl
  · by_cases hname : strcasecmpEq name upstream = true
    · simp only [intGrow, Conf.setInt, Conf.setGroups, if_pos hname]
      rfl
    · simp only [intGrow, Conf.setInt, Conf.setGroups, if_neg hname]
      rfl

theorem scanSpecific_setGroups (i : Nat) : ∀ (ifap : List IfAddr) (s : ScanLoop),
    scanSpecific i { s with st := s.st.setGroups groups } ifap
      = (scanSpecific i s ifap).setGroups groups
  | [], _ => rfl
  | ifa :: ifap, s => by
    have hstore : scanStore { s with st := s.st.setGroups groups } i ifa
        = { scanStore s i ifa with st := (scanStore s i ifa).st.setGroups groups } := by
      unfold scanStore
      split
      · split <;> rfl
      · rfl
    have hnext := scanSpecific_setGroups i ifap
    rw [scanSpecific, scanSpecific, hstore, hnext s]
    generalize scanStore s i ifa = s1
    have hboth : (if s1.gotlinkl && s1.gotglobal then s1.st.setGroups groups
        else scanSpecific i { s1 with st := s1.st.setGroups groups } ifap)
        = (if s1.gotlinkl && s1.gotglobal then s1.st
            else scanSpecific i s1 ifap).setGroups groups := by
      rw [hnext s1]
      split <;> rfl
    split
    · rfl
    · by_cases hown : (s.st.intn i).ifindex = ifa.ifindex
      · rw [if_pos hown]
        exact if_pos hown
      · rw [if_neg hown]
        exact (if_neg hown).trans hboth

/-- Neither does the scan for one interface. -/
theorem updateInterfaces_setGroups (now : Nat) (st : Conf) (i : Nat) (ifap : Option (List IfAddr)) :
    updateInterfaces now (st.setGroups groups) (some i) ifap
      = (updateInterfaces now st (some i) ifap).setGroups groups := by
  unfold updateInterfaces
  rw [apply_ite (Conf.setGroups · groups)]
  cases ifap with
  | none => rfl
  | some ifap =>
    dsimp only
    rw [← scanSpecific_setGroups]
    rfl

/-- So a frame finds the same interface, whatever the table is. -/
theorem frameInterface_setGroups (now : Nat) (st : Conf) (f : Frame) :
    frameInterface now (st.setGroups groups) f
      = ((frameInterface now st f).1.setGroups groups, (frameInterface now st f).2) := by
  unfold frameInterface
  rw [intCreate_setGroups]
  cases hfind : intFind st f.ifindex with
  | some i =>
    rw [show intFind (st.setGroups groups) f.ifindex = some i from hfind]
  | none =>
    rw [show intFind (st.setGroups groups) f.ifindex = none from hfind]
    rcases intCreate st f.ifindex f.probe with ⟨st', - | i⟩
    · rfl
    · dsimp only
      rw [updateInterfaces_setGroups]

/-- Which operation an event is does not depend on the table. -/
theorem tableOp_setGroups (h : Host) (st : Conf) (ev : Event) :
    tableOp h (st.setGroups groups) ev = tableOp h st ev := by
  cases ev with
  | frame now f =>
    have hint := frameInterface_setGroups groups now (countReceived st (min f.len bufferlen)) f
    have hcount : countReceived (st.setGroups groups) (min f.len bufferlen)
        = (countReceived st (min f.len bufferlen)).setGroups groups := rfl
    rw [tableOp, tableOp, frameOp, frameOp, hcount, hint]
    rcases frameInterface now (countReceived st (min f.len bufferlen)) f with ⟨st', - | i⟩ <;> rfl
  | timeout _ _ => rfl
  | sigusr2 _ => rfl
  | create _ _ _ => rfl
  | destroy _ _ => rfl

end

/-! ## 5. The handlers

**The connection to the code**: the table after each handler is the operation applied to the table
before it. -/

/-- An MLDv1 report refreshes the `::` subscription of its group, if its scope is not ignored; the
version and the announcement leave the table alone. -/
theorem mld1Report_groups (h : Host) (now : Nat) (st : Conf) (i : Nat) (mld1 : Mem) :
    (l4Ipv6Icmpv6Mld1Report h now st i mld1).groups
      = (if mld1Ignores (mld1Mca mld1) then TableOp.keep else .refresh (st.intn i).ifindex
          [⟨mld1Mca mld1, [(In6Addr.any, mld2ModeIsInclude)]⟩]).apply now st.groups := by
  unfold l4Ipv6Icmpv6Mld1Report
  dsimp only
  split
  · exact intSetMldVersion_groups now st i 1
  · rw [(announce_frame h i _ _ _).1, setGroups_groups, intSetMldVersion_groups,
      intSetMldVersion_ifindex]
    rfl

/-- A reduction takes it out, whatever is sent before the second write to the table. -/
theorem mld1Reduction_groups (h : Host) (now : Nat) (st : Conf) (i : Nat) (mld1 : Mem) :
    (l4Ipv6Icmpv6Mld1Reduction h now st i mld1).groups
      = (if mld1Ignores (mld1Mca mld1) then TableOp.keep else
          .reduce (mld1Mca mld1) (st.intn i).ifindex).apply now st.groups := by
  unfold l4Ipv6Icmpv6Mld1Reduction
  dsimp only
  have hset := intSetMldVersion_groups now st i 1
  have hif := intSetMldVersion_ifindex now st i 1 i
  generalize intSetMldVersion now st i 1 = st1 at hset hif ⊢
  generalize mld1Mca mld1 = mca
  rw [← hset, ← hif]
  generalize (st1.intn i).ifindex = ifindex
  split
  · rfl
  · simp only [TableOp.apply]
    split
    · rename_i hg
      exact (setGroupint_of_find_none _ (by simp [groupintFind, hg])).symm
    · rename_i groupn hg
      split
      · rename_i hi
        exact (setGroupint_of_find_none _ (by simp [groupintFind, hg, hi])).symm
      · rename_i grpintn hi
        -- what the handler writes is what `reduceGrpint` makes of the node it found
        have hfound : ∀ x, groupintFind st1.groups mca ifindex = some x → x = grpintn := by
          intro x hx
          simpa [groupintFind, hg, hi] using hx.symm
        split
        · rename_i hno
          refine (setGroupint_id _ mca ifindex).symm.trans (setGroupint_congr fun x hx => ?_)
          simp [reduceGrpint, hfound x hx, hno]
        · rename_i hyes
          split
          · rename_i hcount
            rw [setGroups_groups, (mldSendQuery_sendsOnly h _ i mca).groups, setGroups_groups]
            refine (setGroupint_setGroupint _ mca ifindex ?_).trans
              (setGroupint_congr fun x hx => ?_)
            · exact fun _ => rfl
            · simp [reduceGrpint, hfound x hx, hyes, hcount]
          · rename_i hcount
            refine setGroupint_congr fun x hx => ?_
            simp [reduceGrpint, hfound x hx, hyes, hcount]

/-- An MLDv2 report: the operation reads the records of the walk, and the loop does what they ask.
-/
theorem mld2Report_groups (h : Host) (now : Nat) (st : Conf) (i : Nat) (mld2r : Mem) (plen : Nat) :
    (l4Ipv6Icmpv6Mld2Report h now st i mld2r plen).st.groups
      = (mld2Op h.endian (st.intn i).ifindex mld2r plen).apply now st.groups := by
  unfold l4Ipv6Icmpv6Mld2Report mld2Op
  dsimp only
  split
  · exact intSetMldVersion_groups now st i 2
  · rw [mld2Grecs_groups, intSetMldVersion_groups, intSetMldVersion_ifindex]
    rfl

/-- A query leaves the table as it was. -/
theorem mldQuery_groups (h : Host) (now : Nat) (st : Conf) (i plen : Nat) :
    (l4Ipv6Icmpv6MldQuery h now st i plen).groups = st.groups := by
  unfold l4Ipv6Icmpv6MldQuery
  dsimp only
  generalize (if plen = 24 then 1 else 2) = version
  have hset := intSetMldVersion_groups now st i version
  generalize intSetMldVersion now st i version = st1 at hset ⊢
  split
  · exact (sendsOnly_foldl_conf (queryGroup_sendsOnly h i) _ st1).groups.trans hset
  · split
    · exact (mld2SendReport_sendsOnly h st1 i none).groups.trans hset
    · exact hset

/-- A write to a group that is not in the table does nothing. -/
theorem setGroup_of_find_none {groups : Groups} {mca : In6Addr} (f : GroupNode → GroupNode)
    (h : groupFind groups mca = none) : setGroup groups mca f = groups := by
  rw [setGroup, KeyedList.adjust_of_find_none f h]

/-- A packet that is forwarded is counted before its copies are sent. -/
theorem multicast_groups (h : Host) (now : Nat) (st : Conf) (i : Nat) (iph : Mem) (len : Nat) :
    (l4Ipv6Multicast h st i iph len).groups = (multicastOp iph len).apply now st.groups := by
  unfold l4Ipv6Multicast multicastOp
  dsimp only
  split
  · rfl
  · split
    · rename_i hg
      exact (setGroup_of_find_none _ hg).symm
    · exact (sendsOnly_foldl_conf (multicastGrpint_sendsOnly h iph len _ i) _ _).groups

/-- What an ICMPv6 message does to the table can be told from the message and the index of its
interface. -/
theorem icmpv6_groups (h : Host) (now : Nat) (st : Conf) (i : Nat) (iph : Mem)
    (len off plen : Nat) :
    (l4Ipv6Icmpv6 h now st i iph len off plen).groups
      = (icmpv6Op h.endian (st.intn i).ifindex iph len off plen).apply now st.groups := by
  unfold l4Ipv6Icmpv6 icmpv6Op
  dsimp only
  have hg1 : (countIcmpReceived st i).groups = st.groups := rfl
  have hif1 : ((countIcmpReceived st i).intn i).ifindex = (st.intn i).ifindex := by
    obtain ⟨n, hn⟩ := countIcmpReceived_intn st i i
    rw [hn]
  generalize countIcmpReceived st i = st1 at hg1 hif1 ⊢
  rw [← hg1, ← hif1]
  split
  · rfl
  · split
    · split
      · exact (icmp6Send_sendsOnly h (countHlimExceeded st1) i _ _ _ _ _).groups
      · exact multicast_groups h now st1 i _ len
    · split
      · rfl
      · split
        · exact mld1Report_groups h now st1 i _
        · split
          · exact mld1Reduction_groups h now st1 i _
          · split
            · exact mld2Report_groups h now st1 i _ plen
            · split
              · exact mldQuery_groups h now st1 i plen
              · rfl

/-- The same for a packet, with the addresses of the interface, by which it knows its own. -/
theorem l3_groups (h : Host) (now : Nat) (st : Conf) (i : Nat) (iph : Mem) (len : Nat) :
    (l3Ipv6 h now st i iph len).groups
      = (l3Op h.endian (st.intn i) iph len).apply now st.groups := by
  unfold l3Ipv6 l3Op
  dsimp only
  split
  · rfl
  · split
    · rfl
    · cases headerWalk h.endian iph len with
      | none => rfl
      | some w =>
        obtain ⟨type, off, plen⟩ := w
        dsimp only
        split
        · exact icmpv6_groups h now st i iph len off plen
        · split
          · split
            · rfl
            · exact multicast_groups h now st i _ len
          · rfl

/-- The operation depends on the index of the interface and its two addresses alone. -/
theorem l3Op_congr {a b : IntNode} (e : Endian) (iph : Mem) (len : Nat)
    (hi : a.ifindex = b.ifindex) (hl : a.linklocal = b.linklocal) (hg : a.global = b.global) :
    l3Op e a iph len = l3Op e b iph len := by
  simp only [l3Op, hi, hl, hg]

/-- **A frame** does to the table what its operation says. -/
theorem frame_groups (h : Host) (now : Nat) (st : Conf) (f : Frame) :
    (handleinterfaces h now st f).groups = (frameOp h now st f).apply now st.groups := by
  unfold handleinterfaces frameOp
  dsimp only
  split
  · rfl
  · have hf := frameInterface_groups now (countReceived st (min f.len bufferlen)) f
    generalize frameInterface now (countReceived st (min f.len bufferlen)) f = r at hf ⊢
    obtain ⟨st1, slot⟩ := r
    cases slot with
    | none => exact hf
    | some i =>
      dsimp only at hf ⊢
      have hg : st.groups = (countIntReceived st1 i (min f.len bufferlen)).groups := hf.symm
      have hop : l3Op h.endian (st1.intn i) = l3Op h.endian
          ((countIntReceived st1 i (min f.len bufferlen)).intn i) := by
        obtain ⟨p, b, hpb⟩ := countIntReceived_intn st1 i (min f.len bufferlen) i
        funext iph len
        rw [hpb]
        exact l3Op_congr _ _ _ rfl rfl rfl
      rw [hop, hg]
      unfold l2Ethtype
      split
      · exact l3_groups h now _ i f.buffer _
      · rfl

/-- **The table after a step is the operation of the event, applied to the table before it.** -/
theorem step_groups (h : Host) (st : Conf) (ev : Event) :
    (step h st ev).groups = (tableOp h st ev).apply ev.now st.groups := by
  cases ev with
  | frame now f => exact frame_groups h now st f
  | timeout now ifap =>
    refine (sendMldQuerys_sendsOnly h _).groups.trans ?_
    rw [setGroups_groups, updateInterfaces_groups]
    rfl
  | sigusr2 now => exact (sigusr2_sendsOnly h st).groups
  | create now ifindex probe =>
    simp only [step]
    split
    · rfl
    · exact (intCreate_interfacesOnly st ifindex probe).groups
  | destroy now i => exact intDestroy_groups st i

end Ecmh
