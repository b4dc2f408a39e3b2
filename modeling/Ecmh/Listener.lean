/-
# A listener at the other end of a row of daemons

A host joins a group on a link.  A daemon there subscribes to the group and announces it on its
other interfaces, and the daemon on the next link takes the announcement for a report like any
other.  So the group is carried over a row of daemons, if none of them has heard of it before and
their interfaces talk MLDv1 (`report_travels`), and at the other end it asks for the data.

`join_is_served` puts the two directions together: as many deliveries as there are daemons take the
report to the last link, and as many take a packet for the group from there to the host.
-/
import Ecmh.Outlived
import Ecmh.Swallowed

namespace Ecmh

open ByteMem

/-! ## 1. One daemon -/

section Daemon

variable {h : Host} {st : Conf} {i j now : Nat} {g mca : In6Addr}

/-- A packet with such headers is a report, whatever its checksum is. -/
theorem Reports.of_walk {packet : List UInt8} {src : In6Addr} (hfits : packet.length ≤ bufferlen)
    (hdst : in6IsAddrMulticast (readAddr (Mem.ofList packet) ip6Dst) = true)
    (hsrc : readAddr (Mem.ofList packet) ip6Src = src) (hll : in6IsAddrLinklocal src = true)
    (hwalk : ∀ e, ∃ off plen, headerWalk e (Mem.ofList packet) packet.length
        = some (ipprotoIcmpv6, off, plen) ∧
      Mem.ofList packet off = icmp6MembershipReport ∧
      readAddr (Mem.ofList packet) (off + 8) = g) : Reports packet src g := by
  refine ⟨hfits, fun e intn hf => ?_⟩
  obtain ⟨off, plen, hw, htype, hmca⟩ := hwalk e
  have hoff := headerWalk_off hw
  -- the checksum lies between the source address and the group
  have hother : ∀ k, k < off + 2 ∨ off + 4 ≤ k →
      icmpv6Rechecksum e (Mem.ofList packet) off plen k = Mem.ofList packet k := fun k hk => by
    rw [icmpv6Rechecksum, Endian.store16_apply_ne _ _ _ (by omega),
      Endian.store16_apply_ne _ _ _ (by omega)]
  have hsrc' : readAddr (icmpv6Rechecksum e (Mem.ofList packet) off plen) ip6Src = src := by
    rw [← hsrc]
    exact readAddr_congr fun k _ hk => hother k (by simp only [ip6Src] at hk; omega)
  refine ⟨(icmpv6Rechecksum e (Mem.ofList packet) off plen).shift off, ?_, ?_⟩
  · unfold l3Message
    dsimp only
    rw [hdst, if_neg (by simp), hsrc, if_neg (not_or.mpr hf), hw]
    dsimp only
    rw [if_pos rfl, icmpv6Message]
    dsimp only
    rw [htype, if_neg (by decide), if_neg (by decide), hsrc', hll, if_neg (by simp), if_pos rfl]
  · rw [mld1Mca, readAddr_shift, ← hmca]
    exact readAddr_congr fun k hk _ => hother k (by omega)

/-- An interface that talks MLDv1 is told of the group so that every daemon can read it. -/
theorem mldSendReport_reads (hv : mld1Reports st i = true) (hmca : in6IsAddrMulticast mca = true)
    (hll : in6IsAddrLinklocal (st.intn i).linklocal = true) :
    SomeSent (fun x => x.ifindex = (st.intn i).ifindex ∧
      Says x.packet (st.intn i).linklocal icmp6MembershipReport mca) st
      (mldSendReport h st i mca) := by
  have hfirst : SomeSent (fun x => x.ifindex = (st.intn i).ifindex ∧
      Says x.packet (st.intn i).linklocal icmp6MembershipReport mca) st
      (mld1SendReport h st i mca) := by
    rw [mld1SendReport_eq]
    exact ⟨_, (countIcmpSent_sent _ i).trans (sendpacket6_sent h _ st i _ 72), _,
      List.mem_singleton_self _, rfl, mld1Report_reads hmca hll⟩
  unfold mldSendReport
  rw [if_pos hv]
  dsimp only
  split
  · exact hfirst.then (mld2SendReport_sendsOnly h _ i _).allSent
  · exact hfirst

theorem mldSendReportAll_reads (hok : TableOk ValidSubscr st.groups) (hp : passedOn st i j)
    (hv : mld1Reports st j = true) (hmca : in6IsAddrMulticast mca = true)
    (hll : in6IsAddrLinklocal (st.intn j).linklocal = true) :
    SomeSent (fun x => x.ifindex = (st.intn j).ifindex ∧
      Says x.packet (st.intn j).linklocal icmp6MembershipReport mca) st
      (mldSendReportAll h st i mca) := by
  obtain ⟨s, hs, hbefore, hafter⟩ := mldSendReportAll_each h hok (passedOn_slot hp) hp mca
  have hintn := hs.left j (List.mem_singleton_self j)
  have hone := mldSendReport_reads (h := h) ((mld1Reports_of_sendsOnly hs.sends j).trans hv) hmca
    (by rwa [hintn])
  rw [hintn] at hone
  exact (SomeSent.after hbefore hone).then hafter

/-- What an MLDv1 report of a new group does. -/
theorem mld1Report_new {mld1 : Mem} (hg : mld1Ignores (mld1Mca mld1) = false)
    (hnew : GroupNew now st.groups (mld1Mca mld1)) :
    l4Ipv6Icmpv6Mld1Report h now st i mld1
      = mldSendReportAll h ((intSetMldVersion now st i 1).setGroups
          (joinTable now (st.intn i).ifindex st.groups (mld1Join (mld1Mca mld1)))) i
          (mld1Mca mld1) := by
  unfold l4Ipv6Icmpv6Mld1Report
  dsimp only
  rw [if_neg (by simp [hg]), intSetMldVersion_groups, intSetMldVersion_ifindex,
    if_pos ((groupintGet_isnew ..).mpr hnew)]
  rfl

/-- What it sends on another interface that talks MLDv1. -/
theorem mld1Report_tells {mld1 : Mem} (hok : TableOk ValidSubscr st.groups) (hp : passedOn st i j)
    (hv : mld1Reports st j = true) (hll : in6IsAddrLinklocal (st.intn j).linklocal = true)
    (hg : mld1Ignores (mld1Mca mld1) = false) (hnew : GroupNew now st.groups (mld1Mca mld1))
    (len : Nat) :
    SomeSent (fun x => x.ifindex = (st.intn j).ifindex ∧
      Says x.packet (st.intn j).linklocal icmp6MembershipReport (mld1Mca mld1)) st
      ((Message.mld1Report mld1).handle h now st i len) := by
  have hij : i ≠ j := fun hc => hp.2 (hc ▸ rfl)
  obtain ⟨n, hn⟩ := countIcmpReceived_intn st i j
  obtain ⟨k, hk⟩ := countIcmpReceived_intn st i i
  have hreports : mld1Reports (intSetMldVersion now (countIcmpReceived st i) i 1) j
      = mld1Reports st j := mld1Reports_other hij 1
  have hsent : (intSetMldVersion now (countIcmpReceived st i) i 1).sent = st.sent :=
    intSetMldVersion_sent ..
  have hslot := intSetMldVersion_intn now (countIcmpReceived st i) i 1 j
  have hown := intSetMldVersion_ifindex now (countIcmpReceived st i) i 1 i
  have hnew' : GroupNew now (countIcmpReceived st i).groups (mld1Mca mld1) := hnew
  have hhandle : (Message.mld1Report mld1).handle h now st i len = _ := mld1Report_new hg hnew'
  rw [hhandle]
  generalize intSetMldVersion now (countIcmpReceived st i) i 1 = s at *
  rw [hn] at hslot
  rw [hk] at hown
  have hpassed : passedOn s i j := by
    rw [passedOn, hown, hslot]
    exact hp
  have hok' : TableOk ValidSubscr (s.setGroups (joinTable now
      ((countIcmpReceived st i).intn i).ifindex st.groups (mld1Join (mld1Mca mld1)))).groups :=
    mld1Join_ok hok _ _
  have hidx : (s.intn j).ifindex = (st.intn j).ifindex := by rw [hslot]
  have haddr : (s.intn j).linklocal = (st.intn j).linklocal := by rw [hslot]
  rw [← hidx, ← haddr]
  rw [← haddr] at hll
  exact (mldSendReportAll_reads hok' hpassed (hreports.trans hv) (multicast_of_mld1Ignores hg)
    hll).congr hsent.symm rfl

/-- **A report of a new group is passed on.** -/
theorem report_passed_on (hok : TableOk ValidSubscr st.groups) (hints : IntsOk st)
    (hi : (st.intn i).mtu ≠ 0) (hj : (st.intn j).mtu ≠ 0) (hij : i ≠ j)
    (hv : mld1Reports st j = true) (hll : in6IsAddrLinklocal (st.intn j).linklocal = true)
    {packet : List UInt8} {src : In6Addr} (hr : Reports packet src g)
    (hf : Foreign (st.intn i) src) (hg : mld1Ignores g = false) (hnew : GroupNew now st.groups g) :
    ∃ x ∈ newSent st (step h st (.frame now (ethernetFrame i packet))), x.ifindex = j ∧
      Says x.packet (st.intn j).linklocal icmp6MembershipReport g := by
  obtain ⟨mld1, hmsg, rfl⟩ := hr.reads h.endian (st.intn i) hf
  obtain ⟨n, b, hnb⟩ := received_intn st (ethernetFrame i packet) i
  obtain ⟨n', b', hnb'⟩ := received_intn st (ethernetFrame i packet) j
  have hidx : ∀ k, (st.intn k).mtu ≠ 0 → (st.intn k).ifindex = k := fun k hk => hints.slot k hk
  have hpassed : passedOn (received st (ethernetFrame i packet)) i j := by
    rw [passedOn, hnb, hnb']
    exact ⟨hj, by rwa [hidx i hi, hidx j hj]⟩
  have hok' : TableOk ValidSubscr (received st (ethernetFrame i packet)).groups := hok
  have hnew' : GroupNew now (received st (ethernetFrame i packet)).groups (mld1Mca mld1) := hnew
  have htells := mld1Report_tells (h := h) hok' hpassed (by rw [mld1Reports, hnb']; exact hv)
    (by rwa [hnb']) hg hnew' packet.length
  rw [hnb'] at htells
  rw [ethernetFrame_handled hi hr.fits, hmsg]
  exact (htells.congr rfl rfl).exists.imp fun x hx => ⟨hx.1, hx.2.1.trans (hidx j hj), hx.2.2⟩

end Daemon

/-! ## 2. A row of daemons -/

/-- A daemon of a row: its interface towards the listener, the one away from it, and when the report
is delivered to it. -/
structure Hop (ι : Type) where
  daemon : ι
  near : Nat
  far : Nat
  now : Nat

section Row

variable {ι κ : Type} {t : Topology ι κ} {conf conf' : ι → Conf} {src g : In6Addr} {l l' : κ}

/-- The two interfaces are in use, the far one talks MLDv1 from a link-local address, and a report
from `src` is somebody else's and one of a new group. -/
structure Hop.Ready (hop : Hop ι) (conf : ι → Conf) (src g : In6Addr) : Prop where
  two : hop.near ≠ hop.far
  near : ((conf hop.daemon).intn hop.near).mtu ≠ 0
  far : ((conf hop.daemon).intn hop.far).mtu ≠ 0
  foreign : Foreign ((conf hop.daemon).intn hop.near) src
  mld1 : mld1Reports (conf hop.daemon) hop.far = true
  linklocal : in6IsAddrLinklocal ((conf hop.daemon).intn hop.far).linklocal = true
  isNew : GroupNew hop.now (conf hop.daemon).groups g

theorem Hop.Ready.congr {hop : Hop ι} (h : hop.Ready conf src g)
    (hconf : conf' hop.daemon = conf hop.daemon) : hop.Ready conf' src g := by
  refine ⟨h.two, ?_, ?_, ?_, ?_, ?_, ?_⟩
  all_goals rw [hconf]
  · exact h.near
  · exact h.far
  · exact h.foreign
  · exact h.mld1
  · exact h.linklocal
  · exact h.isNew

/-- The daemon takes data for the group from the far link to the near one. -/
structure Hop.Crossed (hop : Hop ι) (conf : ι → Conf) (g : In6Addr) : Prop where
  two : hop.near ≠ hop.far
  near : ((conf hop.daemon).intn hop.near).mtu ≠ 0
  far : ((conf hop.daemon).intn hop.far).mtu ≠ 0
  joined : Joined (conf hop.daemon) hop.near g

theorem Hop.Crossed.congr {hop : Hop ι} (h : hop.Crossed conf g)
    (hconf : conf' hop.daemon = conf hop.daemon) : hop.Crossed conf' g := by
  refine ⟨h.two, ?_, ?_, ?_⟩
  all_goals rw [hconf]
  · exact h.near
  · exact h.far
  · exact h.joined

theorem Hop.Crossed.flows {hop : Hop ι} (hc : hop.Crossed conf g) :
    Flows t conf g (t.link hop.daemon hop.far) (t.link hop.daemon hop.near) :=
  ⟨hop.daemon, hop.far, hop.near, hc.two, rfl, rfl, hc.far, hc.near, hc.joined⟩

/-- Different daemons lead from a link, on which `src` reports the group, to another one: each takes
the report of the one before it. -/
inductive Chained (t : Topology ι κ) (conf : ι → Conf) (g : In6Addr) :
    κ → In6Addr → List (Hop ι) → κ → Prop
  | here (l : κ) (src : In6Addr) : Chained t conf g l src [] l
  | next {src : In6Addr} {hop : Hop ι} {hops : List (Hop ι)} {l' : κ} (h : hop.Ready conf src g)
      (hne : ∀ x ∈ hops, x.daemon ≠ hop.daemon)
      (hrest : Chained t conf g (t.link hop.daemon hop.far)
        ((conf hop.daemon).intn hop.far).linklocal hops l') :
      Chained t conf g (t.link hop.daemon hop.near) src (hop :: hops) l'

/-- The data goes back over the row. -/
theorem Chained.path {hops : List (Hop ι)} (hc : Chained t conf g l src hops l')
    (hcrossed : ∀ x ∈ hops, x.Crossed conf' g) :
    Spread.Path (fun a b => Flows t conf' g b a) l hops.length l' := by
  induction hc with
  | here l src => exact .here
  | next h hne _ ih =>
    obtain ⟨hfirst, hothers⟩ := List.forall_mem_cons.mp hcrossed
    exact .cons hfirst.flows (ih hothers)

/-- A report of the group is on the link. -/
def HasReport (s : Linked ι κ) (l : κ) (src g : In6Addr) : Prop :=
  ∃ packet, Reports packet src g ∧ Carries s l packet

variable [DecidableEq ι] [DecidableEq κ] {s : Linked ι κ}

/-- **One daemon** takes the report to the next link, and subscribes. -/
theorem report_crosses (hx : ∀ d n, (t.host d).sendto n ≠ .enxio) (hg : mld1Ignores g = false)
    (hs : NetOk t s) {hop : Hop ι} (hready : hop.Ready s.conf src g)
    (hr : HasReport s (t.link hop.daemon hop.near) src g) :
    ∃ ev : LinkEvent ι κ, ev.isDelivery ∧ hop.Crossed (linkStep t s ev).conf g ∧
      HasReport (linkStep t s ev) (t.link hop.daemon hop.far)
        ((s.conf hop.daemon).intn hop.far).linklocal g ∧
      ∀ d, d ≠ hop.daemon → (linkStep t s ev).conf d = s.conf d := by
  obtain ⟨packet, hreport, p, hmem, hlink, rfl⟩ := hr
  obtain ⟨k, hk⟩ := List.mem_iff_getElem?.mp hmem
  have hok := reachable_tableOk (hs.reachable hop.daemon)
  have hints := reachable_intsOk (hs.reachable hop.daemon)
  have hinUse : ∀ i, ((s.conf hop.daemon).intn i).mtu ≠ 0 →
      ((step (t.host hop.daemon) (s.conf hop.daemon)
        (.frame hop.now (ethernetFrame hop.near p.packet))).intn i).mtu ≠ 0 := fun i =>
    step_inUse (hx hop.daemon) _ (fun _ _ hc => by cases hc)
  obtain ⟨x, hxnew, hidx, hpassed⟩ := report_passed_on (h := t.host hop.daemon) hok hints
    hready.near hready.far hready.two hready.mld1 hready.linklocal hreport hready.foreign hg
    hready.isNew
  refine ⟨.deliver k hop.daemon hop.now (ethernetFrame hop.near p.packet), trivial, ?_, ?_,
    fun d hd => linkStep_conf_ne hd⟩
  all_goals rw [deliver_packet hk hlink]
  · have hjoined := report_joins (h := t.host hop.daemon) hints hready.near hreport hready.foreign
      hg hop.now
    refine ⟨hready.two, ?_, ?_, ?_⟩
    all_goals rw [act_conf_self]
    · exact hinUse _ hready.near
    · exact hinUse _ hready.far
    · exact hjoined
  · refine ⟨x.packet, hpassed.reports, _, mem_act_packets.mpr (Or.inr ⟨x, hxnew, rfl⟩), ?_, rfl⟩
    rw [hidx]

/-- **A report travels over a row of daemons**, and all of them subscribe. -/
theorem report_travels (hx : ∀ d n, (t.host d).sendto n ≠ .enxio) (hg : mld1Ignores g = false)
    {hops : List (Hop ι)} (hc : Chained t conf g l src hops l') :
    ∀ s : Linked ι κ, NetOk t s → (∀ x ∈ hops, s.conf x.daemon = conf x.daemon) →
      HasReport s l src g →
      ∃ es : List (LinkEvent ι κ), es.length = hops.length ∧ (∀ e ∈ es, e.isDelivery) ∧
        (∀ x ∈ hops, x.Crossed (Runs.run (linkStep t) s es).conf g) ∧
        (∃ src', HasReport (Runs.run (linkStep t) s es) l' src' g) ∧
        ∀ d, (∀ x ∈ hops, d ≠ x.daemon) → (Runs.run (linkStep t) s es).conf d = s.conf d := by
  induction hc with
  | here l src =>
    intro s _ _ hr
    exact ⟨[], rfl, by simp, by simp, ⟨src, hr⟩, fun _ _ => rfl⟩
  | @next src hop hops l' h hne hrest ih =>
    intro s hs hconf hr
    obtain ⟨hfirst, hothers⟩ := List.forall_mem_cons.mp hconf
    obtain ⟨ev, hdelivery, hcrossed, hreport, hleft⟩ :=
      report_crosses hx hg hs (h.congr hfirst) hr
    rw [hfirst] at hreport
    obtain ⟨es, hlen, hall, hcrosses, hend, hkept⟩ := ih (linkStep t s ev) (linkStep_netOk hs ev)
      (fun x hmem => (hleft _ (hne x hmem)).trans (hothers x hmem)) hreport
    refine ⟨ev :: es, by simp [hlen], List.forall_mem_cons.mpr ⟨hdelivery, hall⟩,
      List.forall_mem_cons.mpr ⟨?_, hcrosses⟩, hend, fun d hd => ?_⟩
    · -- nothing more happens to it
      exact hcrossed.congr (hkept _ fun x hmem => (hne x hmem).symm)
    · obtain ⟨hd, hds⟩ := List.forall_mem_cons.mp hd
      exact (hkept d hds).trans (hleft d hd)

/-- A way that is there stays over a run that loses nothing. -/
theorem flows_last (hx : ∀ d n, (t.host d).sendto n ≠ .enxio) {fs : List (LinkEvent ι κ)}
    (hkeep : Runs.StepsMeet (linkStep t) (KeepsWays t g) s fs) (hflow : Flows t s.conf g l l') :
    Flows t (Runs.run (linkStep t) s fs).conf g l l' :=
  (Runs.always_of_stepsMeet (P := fun s => Flows t s.conf g l l')
    (fun _ _ hflow hke => flows_kept hx hke hflow) fs s hflow hkeep).last

/-- **A join is answered with data.**  In any state that a network can be in, daemons lead from one
link to another, for all of which a group is new that MLDv1 reports are not ignored for, and
`sendto` takes every packet.  If somebody reports it on the first link, there are as many deliveries
as daemons after which all of them have a subscription for all sources.  From then on, as long as no
such subscription of the group and no interface is lost, a packet for the group that is put on the
last link is brought to the first one by as many deliveries, if its hop limit is greater than their
number, its source is no address of a daemon and `l4_ipv6_multicast` does not ignore it. -/
theorem join_is_served (t : Topology ι κ) (o : ι → Options) (now : ι → Nat)
    (ifap : ι → Option (List IfAddr)) (es : List (LinkEvent ι κ)) (g src : In6Addr) (l l' : κ)
    (report : List UInt8) (hops : List (Hop ι)) (hsent : ∀ d n, (t.host d).sendto n = .sent)
    (hg : mld1Ignores g = false) (hr : Reports report src g)
    (hc : Chained t (Runs.run (linkStep t) (linkStart t o now ifap) es).conf g l src hops l') :
    ∃ ds : List (LinkEvent ι κ), ds.length = hops.length ∧ (∀ e ∈ ds, e.isDelivery) ∧
      (∀ x ∈ hops, Joined ((Runs.run (linkStep t) (linkStart t o now ifap)
        (es ++ .inject l report :: ds)).conf x.daemon) x.near g) ∧
      ∀ fs : List (LinkEvent ι κ), Runs.StepsMeet (linkStep t) (KeepsWays t g)
          (Runs.run (linkStep t) (linkStart t o now ifap) (es ++ .inject l report :: ds)) fs →
        ∀ src' packet, DataPacket src' g packet → hops.length < hlimOf packet → LetThrough src' g →
        (∀ d k, Foreign (((Runs.run (linkStep t) (linkStart t o now ifap)
          (es ++ .inject l report :: ds ++ fs)).conf d).intn k) src') →
        ∃ ds' : List (LinkEvent ι κ), ds'.length = hops.length ∧ (∀ e ∈ ds', e.isDelivery) ∧
          Carries (Runs.run (linkStep t) (linkStart t o now ifap)
            (es ++ .inject l report :: ds ++ fs ++ .inject l' packet :: ds')) l
            (withHlim packet (hlimOf packet - hops.length)) := by
  have hx : ∀ d n, (t.host d).sendto n ≠ .enxio := fun d n hc => by
    rw [hsent] at hc
    cases hc
  have hrun : ∀ fs, NetOk t (Runs.run (linkStep t) (linkStart t o now ifap) fs) := fun fs =>
    Runs.run_invariant (P := NetOk t) (fun _ ev hs => linkStep_netOk hs ev) fs _
      (linkStart_netOk t o now ifap)
  generalize hs : Runs.run (linkStep t) (linkStart t o now ifap) es = s at hc
  have hok : NetOk t s := hs ▸ hrun es
  obtain ⟨ds, hlen, hall, hcrossed, -, -⟩ := report_travels hx hg hc
    (linkStep t s (.inject l report)) (linkStep_netOk hok _) (fun _ _ => rfl)
    ⟨report, hr, ⟨l, report, none⟩, List.mem_append_right _ List.mem_cons_self, rfl, rfl⟩
  rw [← hs, ← Runs.run_cons, ← Runs.run_append] at hcrossed
  refine ⟨ds, hlen, hall, fun x hmem => (hcrossed x hmem).joined, ?_⟩
  intro fs hkeep src' packet hp hlt hroute hforeign
  have hpath := (hc.path hcrossed).mono fun a b hflow => flows_last hx hkeep hflow
  rw [← Runs.run_append] at hpath
  obtain ⟨ds', hlen', hall', hend⟩ := path_delivers hx hroute hforeign hpath
    (linkStep t _ (.inject l' packet)) packet (linkStep_netOk (hrun _) _) (fun _ => .refl _) hp hlt
    ⟨⟨l', packet, none⟩, List.mem_append_right _ List.mem_cons_self, rfl, rfl⟩
  refine ⟨ds', hlen', hall', ?_⟩
  rw [Runs.run_append, Runs.run_cons]
  exact hend

end Row

/-- The host on the first link reports the group. -/
theorem siteJoinPacket_reports : Reports siteJoinPacket linkLocalHost siteGroup :=
  .of_walk (by decide) (by decide +kernel) (by decide +kernel) (by decide) fun e =>
    ⟨40, 24, by cases e <;> decide +kernel, by decide +kernel, by decide +kernel⟩

/-- The daemons of the chain have found their interfaces, and nobody has joined. -/
def foundEvents : List (LinkEvent Bool Nat) := joinedEvents.take 2

/-- They lead from the first link to the third one. -/
theorem chain_chained : Chained chain (Runs.run (linkStep chain) chainStart foundEvents).conf
    siteGroup 1 linkLocalHost [⟨false, 1, 2, 301⟩, ⟨true, 1, 2, 302⟩] 3 := by
  have hfirst : Hop.Ready ⟨false, 1, 2, 301⟩
      (Runs.run (linkStep chain) chainStart foundEvents).conf linkLocalHost siteGroup :=
    ⟨by decide, by decide +kernel, by decide +kernel, ⟨by decide +kernel, by decide +kernel⟩,
      by decide +kernel, by decide +kernel, (groupintGet_isnew _ _ _ 1).mp (by decide +kernel)⟩
  have hsecond : Hop.Ready ⟨true, 1, 2, 302⟩
      (Runs.run (linkStep chain) chainStart foundEvents).conf
      (((Runs.run (linkStep chain) chainStart foundEvents).conf false).intn 2).linklocal
      siteGroup :=
    ⟨by decide, by decide +kernel, by decide +kernel, ⟨by decide +kernel, by decide +kernel⟩,
      by decide +kernel, by decide +kernel, (groupintGet_isnew _ _ _ 1).mp (by decide +kernel)⟩
  exact .next hfirst (by simp) (.next hsecond (by simp) (.here _ _))

/-- The host joins, and gets what is put on the third link. -/
theorem chain_join_is_served : ∃ ds : List (LinkEvent Bool Nat), ds.length = 2 ∧
    (∀ e ∈ ds, e.isDelivery) ∧
    (∀ x ∈ ([⟨false, 1, 2, 301⟩, ⟨true, 1, 2, 302⟩] : List (Hop Bool)),
      Joined ((Runs.run (linkStep chain) chainStart
        (foundEvents ++ .inject 1 siteJoinPacket :: ds)).conf x.daemon) x.near siteGroup) ∧
    ∀ fs : List (LinkEvent Bool Nat), Runs.StepsMeet (linkStep chain) (KeepsWays chain siteGroup)
        (Runs.run (linkStep chain) chainStart (foundEvents ++ .inject 1 siteJoinPacket :: ds)) fs →
      ∀ src' packet, DataPacket src' siteGroup packet → 2 < hlimOf packet →
      LetThrough src' siteGroup →
      (∀ d k, Foreign (((Runs.run (linkStep chain) chainStart
        (foundEvents ++ .inject 1 siteJoinPacket :: ds ++ fs)).conf d).intn k) src') →
      ∃ ds' : List (LinkEvent Bool Nat), ds'.length = 2 ∧ (∀ e ∈ ds', e.isDelivery) ∧
        Carries (Runs.run (linkStep chain) chainStart
          (foundEvents ++ .inject 1 siteJoinPacket :: ds ++ fs ++ .inject 3 packet :: ds')) 1
          (withHlim packet (hlimOf packet - 2)) :=
  join_is_served chain (fun _ => plainOptions) (fun _ => 0) (fun _ => none) foundEvents siteGroup
    linkLocalHost 1 3 siteJoinPacket [⟨false, 1, 2, 301⟩, ⟨true, 1, 2, 302⟩] (fun _ _ => rfl)
    (by decide) siteJoinPacket_reports chain_chained

end Ecmh
