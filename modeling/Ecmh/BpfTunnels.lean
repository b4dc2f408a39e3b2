/-
# The tunnels of the BPF build

`l4_ipv4_proto41` looks an IPv4 address up in the interface table of the BPF build, and again after
the interfaces were scanned.  The dissector has the two searches and the scan as a parameter
(`Tunnels`), since nothing else above them sees that table.  Here the parameter is what `Ecmh.Bpf`
says they do: `tunnels` is made from the table that the packet finds, and `l4Ipv4Proto41_bpf` says
which tunnel the packet is decapsulated for.
-/
import Ecmh.Bpf

namespace Ecmh.Bpf

open ByteMem

/-! ## 1. What the scan leaves alone -/

section LastUpdate

variable (freed : IntPtr → IntNode) (st : Conf) (i : Nat)

@[simp] theorem setInt_lastUpdate (f : IntNode → IntNode) :
    (st.setInt i f).lastUpdate = st.lastUpdate := rfl

@[simp] theorem intDestroy_lastUpdate : (intDestroy st i).lastUpdate = st.lastUpdate := by
  unfold intDestroy
  split <;> rfl

@[simp] theorem intGrow_lastUpdate (moved : Bool) :
    (intGrow st i moved).lastUpdate = st.lastUpdate := by
  unfold intGrow
  split <;> rfl

@[simp] theorem setUpstream_lastUpdate (name : String) :
    (setUpstream st i name).lastUpdate = st.lastUpdate := by
  unfold setUpstream
  split
  · split <;> rfl
  · rfl

theorem intCreateBpf_lastUpdate (tunnel : Bool) (probe : BpfProbe) :
    (intCreateBpf st i tunnel probe).1.lastUpdate = st.lastUpdate := by
  unfold intCreateBpf
  dsimp only
  repeat' split
  all_goals rfl

theorem intCreate_lastUpdate (tunnel : Bool) (probe : IfProbe) (bpf : BpfProbe) :
    (intCreate st i tunnel probe bpf).1.lastUpdate = st.lastUpdate := by
  unfold intCreate
  dsimp only
  split
  · exact intGrow_lastUpdate st i bpf.moved
  · split
    · simp
    · split
      · simp
      · split
        · simp
        · split <;> rename_i heq
          all_goals
            have hbpf := congrArg (fun s => s.1.lastUpdate) heq
            simp only [intCreateBpf_lastUpdate, setInt_lastUpdate, intGrow_lastUpdate] at hbpf
            simp [← hbpf]

theorem scanStore_lastUpdate (ifa : IfAddr) :
    (scanStore freed st i ifa).1.lastUpdate = st.lastUpdate := by
  have hlocal : ∀ st : Conf, (localUpdate freed st i).lastUpdate = st.lastUpdate := by
    intro st
    refine Runs.foldl_frame Conf.lastUpdate (fun s num => ?_) _ st
    split
    · rfl
    · split <;> rfl
  have hipv4 : (storeIpv4 st i ifa).1.lastUpdate = st.lastUpdate := by
    unfold storeIpv4
    split <;> rfl
  unfold scanStore
  split
  · split <;> rfl
  · split
    · dsimp only
      split
      · exact (hlocal _).trans hipv4
      · exact hipv4
    · rfl

theorem scanEntry_lastUpdate (ifa : IfAddr) :
    (scanEntry freed st ifa).lastUpdate = st.lastUpdate := by
  unfold scanEntry
  split
  · rfl
  · split
    · exact scanStore_lastUpdate freed st _ ifa
    · have hcreate := intCreate_lastUpdate st ifa.ifindex ifa.pointopoint ifa.probe ifa.bpf
      split <;> rename_i heq <;> rw [heq] at hcreate
      · exact hcreate
      · rename_i st1 k
        have hstore := scanStore_lastUpdate freed st1 k ifa
        split <;> rename_i hst <;> rw [hst] at hstore
        · exact hstore.trans hcreate
        · exact ((intDestroy_lastUpdate _ _).trans hstore).trans hcreate

end LastUpdate

/-- The interfaces are not scanned, or the time of it is noted. -/
theorem updateInterfaces_lastUpdate (freed : IntPtr → IntNode) (now : Nat) (st : Conf)
    (ifap : Option (List IfAddr)) : updateInterfaces freed now st ifap = st ∨
      (updateInterfaces freed now st ifap).lastUpdate ≠ st.lastUpdate := by
  unfold updateInterfaces
  split
  · exact Or.inl rfl
  · rename_i hlate
    refine Or.inr ?_
    cases ifap with
    | none =>
      dsimp only
      omega
    | some ifap =>
      have hscan : (ifap.foldl (scanEntry freed) { st with lastUpdate := now }).lastUpdate = now :=
        Runs.foldl_frame Conf.lastUpdate (scanEntry_lastUpdate freed) ifap _
      dsimp only
      rw [hscan]
      omega

/-! ## 2. The table, as the layers above see it -/

/-- An interface without what only this build has. -/
def IntNode.plain (intn : IntNode) : Ecmh.IntNode where
  ifindex := intn.ifindex
  name := intn.name
  mtu := intn.mtu
  mldVersion := intn.mldVersion
  mldLastV1 := intn.mldLastV1
  hwaddr := 0
  linklocal := intn.linklocal
  global := intn.global
  statPacketsReceived := intn.statPacketsReceived
  statPacketsSent := intn.statPacketsSent
  statBytesReceived := intn.statBytesReceived
  statBytesSent := intn.statBytesSent
  statIcmpReceived := intn.statIcmpReceived
  statIcmpSent := intn.statIcmpSent
  upstream := intn.upstream

/-- The interfaces of the configuration are those of the table. -/
structure Shows (st : Ecmh.Conf) (table : Conf) : Prop where
  ints : st.ints = table.ints.map IntNode.plain
  upstreamId : st.upstreamId = table.upstreamId
  lastUpdate : st.lastUpdate = table.lastUpdate

/-- The configuration with the interfaces of the table. -/
def Conf.shown (table : Conf) (st : Ecmh.Conf) : Ecmh.Conf :=
  { st with
    ints := table.ints.map IntNode.plain
    upstreamId := table.upstreamId
    lastUpdate := table.lastUpdate }

theorem shows_shown (table : Conf) (st : Ecmh.Conf) : Shows (table.shown st) table :=
  ⟨rfl, rfl, rfl⟩

/-! ## 3. The searches -/

/-- What a packet finds that comes while the interface table is `table`.  After a scan the time of
it is another one, and the second search is in the table that it leaves. -/
def tunnels (freed : IntPtr → IntNode) (now : Nat) (table : Conf) (ifap : Option (List IfAddr)) :
    Tunnels where
  tunnelmode := table.tunnelmode
  localFind _ ipv4 := (localFind freed table ipv4).isSome
  intFindIpv4 st ipv4 :=
    if st.lastUpdate = table.lastUpdate then intFindIpv4 table false ipv4
    else intFindIpv4 (updateInterfaces freed now table ifap) false ipv4
  updateInterfaces st := (updateInterfaces freed now table ifap).shown st
  updateInterfaces_groups _ := rfl

section Tunnels

variable {freed : IntPtr → IntNode} {table : Conf} {ifap : Option (List IfAddr)} {st : Ecmh.Conf}

/-- The search is in the table that the packet finds, and after a scan in the one that it leaves. -/
theorem tunnelFind_bpf (now : Nat) (hshows : Shows st table) (src : InAddr) :
    tunnelFind (tunnels freed now table ifap) st src = match intFindIpv4 table false src with
      | some tun => (st, some tun)
      | none => ((updateInterfaces freed now table ifap).shown st,
          intFindIpv4 (updateInterfaces freed now table ifap) false src) := by
  have hfirst : (tunnels freed now table ifap).intFindIpv4 st src = intFindIpv4 table false src :=
    if_pos hshows.lastUpdate
  have hsecond : (tunnels freed now table ifap).intFindIpv4
      ((tunnels freed now table ifap).updateInterfaces st) src
        = intFindIpv4 (updateInterfaces freed now table ifap) false src := by
    rcases updateInterfaces_lastUpdate freed now table ifap with hsame | hother
    · refine Eq.trans (if_pos ?_) ?_
      · exact congrArg Conf.lastUpdate hsame
      · rw [hsame]
    · exact if_neg hother
  unfold tunnelFind
  rw [hfirst, hsecond]
  cases intFindIpv4 table false src <;> rfl

/-- After the search the configuration still shows an interface table: the one that the packet
found, or the one that the scan left. -/
theorem tunnelFind_shows (now : Nat) (hshows : Shows st table) (src : InAddr) :
    ∃ table', (table' = table ∨ table' = updateInterfaces freed now table ifap) ∧
      Shows (tunnelFind (tunnels freed now table ifap) st src).1 table' := by
  rw [tunnelFind_bpf now hshows]
  cases intFindIpv4 table false src with
  | some tun => exact ⟨table, Or.inl rfl, hshows⟩
  | none => exact ⟨_, Or.inr rfl, shows_shown _ st⟩

/-- **Which tunnel a packet is decapsulated for**: none in the mode without tunnels, or if it comes
from an address of this host; else the one that has its source as the other end, at first sight or
after the interfaces were scanned. -/
theorem l4Ipv4Proto41_bpf (h : Host) (now : Nat) (hshows : Shows st table) (iph packet : Mem)
    (len : Nat) : l4Ipv4Proto41 h now (tunnels freed now table ifap) st iph packet len =
      let src := iph.read ipSrc 4
      let scanned := updateInterfaces freed now table ifap
      if !table.tunnelmode then st
      else if (localFind freed table src).isSome then st
      else match intFindIpv4 table false src, intFindIpv4 scanned false src with
        | some tun, _ => l3Ipv6 h now st tun packet (len % 65536)
        | none, some tun => l3Ipv6 h now (scanned.shown st) tun packet (len % 65536)
        | none, none => scanned.shown st := by
  by_cases hmode : (!table.tunnelmode) = true
  · exact (if_pos hmode).trans (if_pos hmode).symm
  · refine (if_neg hmode).trans (Eq.trans ?_ (if_neg hmode).symm)
    by_cases hlocal : (localFind freed table (iph.read ipSrc 4)).isSome = true
    · exact (if_pos hlocal).trans (if_pos hlocal).symm
    · refine (if_neg hlocal).trans (Eq.trans ?_ (if_neg hlocal).symm)
      rw [tunnelFind_bpf now hshows]
      cases intFindIpv4 table false (iph.read ipSrc 4) with
      | some tun => rfl
      | none =>
        cases intFindIpv4 (updateInterfaces freed now table ifap) false (iph.read ipSrc 4) <;> rfl

end Tunnels

end Ecmh.Bpf
