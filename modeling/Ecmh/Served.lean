/-
# Data goes back to where a group was reported

A daemon that passes a group on from one link to another has a subscription for it on the first one,
and an interface in use on the second one.  What arrives on the second link for the group it copies
to the first one.  So the daemons over which a group has spread, which `Flood` finds from where it
was reported, are a way for the data in the other direction, as long as no subscription is lost.

`listeners_are_served` says this of every run of every network: wherever the group is known, a
packet for it that is put on the link can be brought, by as many deliveries as daemons passed the
group on, to a link where the group was reported from outside.
-/
import Ecmh.Backed
import Ecmh.Flood

namespace Ecmh

open ByteMem

/-! ## 1. Interfaces stay in use -/

section InUse

variable {h : Host} (hx : ∀ n, h.sendto n ≠ .enxio) {st : Conf} {k : Nat}

theorem intFind_isSome_iff : (intFind st k).isSome ↔ (st.intn k).mtu ≠ 0 := by
  constructor
  · intro hsome
    obtain ⟨i, hi⟩ := Option.isSome_iff_exists.mp hsome
    exact (intFind_eq_some.mp hi).2.2
  · intro hmtu
    have hlt : k < st.maxinterfaces := by
      refine Nat.lt_of_not_le fun hle => hmtu ?_
      rw [intn_of_ge hle]
      rfl
    rw [intFind_eq_some.mpr ⟨rfl, hlt, hmtu⟩]
    rfl

include hx in
/-- `sendpacket6` destroys an interface on `ENXIO` only. -/
theorem sendpacket6_mtu (sender : Sender) (st : Conf) (i : Nat) (packet : Mem) (len : Nat) :
    ((sendpacket6 h sender st i packet len).intn k).mtu = (st.intn k).mtu := by
  unfold sendpacket6
  dsimp only
  split
  · rename_i hres
    exact absurd hres (hx _)
  · rfl
  · exact setInt_field IntNode.mtu (f := fun intn => { intn with
      statBytesSent := intn.statBytesSent + len % 65536
      statPacketsSent := intn.statPacketsSent + 1 }) (fun _ => rfl) _ i k

include hx in
/-- Where no interface is taken away on sending, none falls out of use. -/
theorem prim_inUse {a b : Conf} (hp : Prim h a b) (hk : (a.intn k).mtu ≠ 0) :
    (b.intn k).mtu ≠ 0 := by
  have hne : ∀ ifindex, intFind a ifindex = none → k ≠ ifindex := by
    rintro ifindex hnone rfl
    rw [← intFind_isSome_iff, hnone] at hk
    cases hk
  cases hp with
  | icmp sender i packet len hm =>
    have hcount : ((countIcmpSent (sendpacket6 h sender a i packet len) i).intn k).mtu
        = ((sendpacket6 h sender a i packet len).intn k).mtu :=
      setInt_field IntNode.mtu
        (f := fun intn => { intn with statIcmpSent := intn.statIcmpSent + 1 }) (fun _ => rfl) _ i k
    rwa [hcount, sendpacket6_mtu hx]
  | forward i packet len => rwa [sendpacket6_mtu hx]
  | table groups => exact hk
  | write i f hf =>
    have hmtu : ∀ a, (f a).mtu = a.mtu := fun a => by rw [hf a]
    rwa [setInt_field IntNode.mtu hmtu a i k]
  | create ifindex probe hnone =>
    rwa [(intCreate_created a ifindex probe).others k (hne ifindex hnone)]
  | undone ifindex probe hnone =>
    rwa [intDestroy, setInt_intn_ne _ _ (hne ifindex hnone).symm,
      (intCreate_created a ifindex probe).others k (hne ifindex hnone)]
  | updated now => exact hk

include hx in
/-- So an interface in use stays so, whatever the daemon does. -/
theorem Does.inUse {a b : Conf} (hd : Does h a b) (hk : (a.intn k).mtu ≠ 0) :
    (b.intn k).mtu ≠ 0 :=
  hd.keeps (P := fun s => (s.intn k).mtu ≠ 0) (fun _ _ hp hs => prim_inUse hx hp hs) hk

/-- A look at the headers takes no interface out of use. -/
theorem Looked.mtu {s : Conf} {i : Nat} (hl : Looked st i s) :
    (s.intn k).mtu = (st.intn k).mtu := by
  have hcount : ((countIcmpReceived st i).intn k).mtu = (st.intn k).mtu := by
    obtain ⟨n, hn⟩ := countIcmpReceived_intn st i k
    rw [hn]
  cases hl with
  | nothing => rfl
  | icmp => exact hcount
  | exceeded => rfl
  | icmpExceeded => exact hcount

theorem countIntReceived_mtu (st : Conf) (i len k : Nat) :
    ((countIntReceived st i len).intn k).mtu = (st.intn k).mtu := by
  obtain ⟨p, b, hpb⟩ := countIntReceived_intn st i len k
  rw [hpb]

include hx in
/-- **An interface in use stays in use**, unless it is taken away. -/
theorem step_inUse (ev : Event) (hev : ∀ now i, ev ≠ .destroy now i) (hk : (st.intn k).mtu ≠ 0) :
    ((step h st ev).intn k).mtu ≠ 0 := by
  rcases step_does h st ev with ⟨now, f, rfl⟩ | ⟨now, i, rfl⟩ | ⟨-, hd⟩
  · cases handleinterfaces_does h now st f with
    | passed hskip heq => rwa [step, heq]
    | lost hskip hd => exact hd.inUse hx hk
    | taken hskip i s s' hi hl hd =>
      refine hd.inUse hx ?_
      rw [hl.mtu, countIntReceived_mtu]
      exact hi.inUse hx hk
  · exact absurd rfl (hev now i)
  · exact hd.inUse hx hk

include hx in
/-- The interface of a frame that entered is in use afterwards. -/
theorem Frame.Enters.inUse {f : Frame} {now : Nat} {st1 : Conf} {i : Nat}
    (hin : f.Enters now st st1 i) : ((handleinterfaces h now st f).intn i).mtu ≠ 0 := by
  obtain ⟨-, hmtu, -⟩ := hin.created
  obtain ⟨s, hl, hd⟩ := l2_does h now (countIntReceived st1 i (min f.len bufferlen)) i f.buffer
    (min f.len bufferlen) f.protocol
  have heq : handleinterfaces h now st f = l2Ethtype h now
      (countIntReceived st1 i (min f.len bufferlen)) i f.buffer (min f.len bufferlen)
      f.protocol := by
    unfold handleinterfaces
    dsimp only
    rw [if_neg (by simp [hin.hatype, hin.incoming]), hin.interface]
  rw [heq]
  refine hd.inUse hx ?_
  rw [hl.mtu, countIntReceived_mtu]
  exact hmtu

end InUse

/-! ## 2. The data -/

/-- A packet from `src` to the group, which fits the receive buffer and which the header walk gets
through: it is no ICMPv6 packet. -/
structure DataPacket (src g : In6Addr) (packet : List UInt8) : Prop where
  header : 40 ≤ packet.length
  fits : packet.length ≤ bufferlen
  src : readAddr (Mem.ofList packet) ip6Src = src
  dst : readAddr (Mem.ofList packet) ip6Dst = g
  walk : ∀ e, ∃ type off plen, headerWalk e (Mem.ofList packet) packet.length
    = some (type, off, plen) ∧ type ≠ ipprotoIcmpv6

/-- `ip6_hlim`. -/
def hlimOf (packet : List UInt8) : Nat := (packet.getD ip6Hlim 0).toNat

/-- The packet with another hop limit. -/
def withHlim (packet : List UInt8) (n : Nat) : List UInt8 := packet.set ip6Hlim (UInt8.ofNat n)

theorem length_withHlim (packet : List UInt8) (n : Nat) :
    (withHlim packet n).length = packet.length := List.length_set ..

/-- Only the last hop limit counts. -/
theorem withHlim_withHlim (packet : List UInt8) (n k : Nat) :
    withHlim (withHlim packet n) k = withHlim packet k := List.set_set ..

/-- The other bytes are those of the packet. -/
theorem ofList_withHlim_ne (packet : List UInt8) (n : Nat) {k : Nat} (hk : k ≠ ip6Hlim) :
    Mem.ofList (withHlim packet n) k = Mem.ofList packet k := by
  rw [Mem.ofList, Mem.ofList, withHlim, List.getD_eq_getElem?_getD, List.getD_eq_getElem?_getD,
    List.getElem?_set_ne (fun hc => hk hc.symm)]

theorem ofList_withHlim_hlim {packet : List UInt8} (hlen : 40 ≤ packet.length) (n : Nat) :
    Mem.ofList (withHlim packet n) ip6Hlim = UInt8.ofNat n := by
  have hlt : ip6Hlim < packet.length := Nat.lt_of_lt_of_le (by decide) hlen
  rw [Mem.ofList, withHlim, List.getD_eq_getElem?_getD, List.getElem?_set_self hlt,
    Option.getD_some]

theorem hlimOf_withHlim {packet : List UInt8} (hlen : 40 ≤ packet.length) {n : Nat}
    (hn : n < 256) : hlimOf (withHlim packet n) = n := by
  have h := congrArg UInt8.toNat (ofList_withHlim_hlim hlen n)
  rw [UInt8.toNat_ofNat_of_lt' hn] at h
  exact h

/-- The hop limit is a byte. -/
theorem hlimOf_lt (packet : List UInt8) : hlimOf packet < 256 := UInt8.toNat_lt _

/-- The packet has its own hop limit. -/
theorem withHlim_self (packet : List UInt8) : withHlim packet (hlimOf packet) = packet := by
  rw [withHlim, hlimOf, UInt8.ofNat_toNat]
  refine List.ext_getElem? fun k => ?_
  by_cases hk : ip6Hlim = k
  · rw [← hk]
    by_cases hlt : ip6Hlim < packet.length
    · rw [List.getElem?_set_self hlt, List.getD_eq_getElem?_getD, List.getElem?_eq_getElem hlt,
        Option.getD_some]
    · rw [List.getElem?_eq_none (Nat.le_of_not_lt (by simpa using hlt)),
        List.getElem?_eq_none (Nat.le_of_not_lt hlt)]
  · rw [List.getElem?_set_ne hk]

/-- The headers are looked for before and behind the hop limit only. -/
theorem skipHeaders_congr {m m' : Mem} (hm : ∀ k, 40 ≤ k → m k = m' k) (len : Nat) :
    ∀ (fuel : Nat) (type : UInt8) (ipe plen : Nat), 40 ≤ ipe →
      skipHeaders m len fuel type ipe plen = skipHeaders m' len fuel type ipe plen := by
  intro fuel
  induction fuel with
  | zero => exact fun _ _ _ _ => rfl
  | succ fuel ih =>
    intro type ipe plen hipe
    unfold skipHeaders
    rw [hm ipe hipe, hm (ipe + 1) (by omega)]
    dsimp only
    rw [ih _ _ _ (by omega)]

/-- The header walk does not read the hop limit. -/
theorem headerWalk_congr {m m' : Mem} (hm : ∀ k, k ≠ ip6Hlim → m k = m' k) (e : Endian)
    (len : Nat) : headerWalk e m len = headerWalk e m' len := by
  have hplen : e.load16 m ip6Plen = e.load16 m' ip6Plen :=
    e.load16_congr fun k hk => hm _ (by simp only [ip6Plen, ip6Hlim]; omega)
  unfold headerWalk
  rw [hm ip6Nxt (by decide), hplen]
  exact skipHeaders_congr (fun k hk => hm k (by simp only [ip6Hlim]; omega)) _ _ _ _ _ (by omega)

/-- Data stays data while its hop limit goes down. -/
theorem DataPacket.withHlim {src g : In6Addr} {packet : List UInt8} (hp : DataPacket src g packet)
    (n : Nat) : DataPacket src g (withHlim packet n) := by
  have hother := fun k hk => ofList_withHlim_ne packet n (k := k) hk
  refine ⟨?_, ?_, ?_, ?_, fun e => ?_⟩
  · rw [length_withHlim]
    exact hp.header
  · rw [length_withHlim]
    exact hp.fits
  · rw [← hp.src]
    exact readAddr_congr fun k h1 _ => hother k (by simp only [ip6Src, ip6Hlim] at *; omega)
  · rw [← hp.dst]
    exact readAddr_congr fun k h1 _ => hother k (by simp only [ip6Dst, ip6Hlim] at *; omega)
  · rw [length_withHlim, headerWalk_congr hother]
    exact hp.walk e

/-- A copy is the packet with its hop limit less one. -/
theorem read_decreaseHlim {packet : List UInt8} (hlen : 40 ≤ packet.length) :
    (decreaseHlim (Mem.ofList packet)).read 0 packet.length
      = withHlim packet (hlimOf packet - 1) := by
  have hlt : hlimOf packet - 1 < 256 := Nat.lt_of_le_of_lt (Nat.sub_le _ _) (hlimOf_lt packet)
  have hread := Mem.read_ofList (Ecmh.withHlim packet (hlimOf packet - 1))
  rw [length_withHlim] at hread
  refine Eq.trans (Mem.read_congr fun k _ _ => ?_) hread
  by_cases hk : k = ip6Hlim
  · rw [hk, ofList_withHlim_hlim hlen]
    refine UInt8.toNat_inj.mp ?_
    rw [decreaseHlim_hlim, UInt8.toNat_ofNat_of_lt' hlt]
    rfl
  · rw [decreaseHlim_other _ hk, ofList_withHlim_ne _ _ hk]

/-! ## 3. One daemon -/

/-- There is a subscription of the group on the interface for all sources. -/
def Joined (st : Conf) (i : Nat) (g : In6Addr) : Prop :=
  (membershipOf st.groups g i In6Addr.any).isSome

instance (st : Conf) (i : Nat) (g : In6Addr) : Decidable (Joined st i g) :=
  inferInstanceAs (Decidable (_ = true))

/-- A subscription for all sources lets every source through. -/
theorem Joined.lets {st : Conf} (hok : TableOk ValidSubscr st.groups) {i : Nat} {g : In6Addr}
    (hj : Joined st i g) (src : In6Addr) :
    ∃ s ∈ subscriptionsOf st.groups g i, lets src s = true := by
  obtain ⟨s, hs⟩ := Option.isSome_iff_exists.mp hj
  obtain ⟨hmem, hany⟩ := (membershipOf_eq_some hok).mp hs
  have hvalid : ValidSubscr s := subscriptionsOf_ok hok s hmem
  exact ⟨s, hmem, by simp [Ecmh.lets, hany, hvalid.2 hany]⟩

/-- What is as it was after data has been forwarded. -/
structure SameWays (st st' : Conf) : Prop where
  joined : ∀ i g, Joined st i g → Joined st' i g
  inUse : ∀ k, (st.intn k).mtu ≠ 0 → (st'.intn k).mtu ≠ 0
  linklocal : ∀ k, (st'.intn k).linklocal = (st.intn k).linklocal
  global : ∀ k, (st'.intn k).global = (st.intn k).global

theorem SameWays.refl (st : Conf) : SameWays st st :=
  ⟨fun _ _ h => h, fun _ h => h, fun _ => rfl, fun _ => rfl⟩

theorem SameWays.trans {a b c : Conf} (h1 : SameWays a b) (h2 : SameWays b c) : SameWays a c :=
  ⟨fun i g h => h2.joined i g (h1.joined i g h), fun k h => h2.inUse k (h1.inUse k h),
    fun k => (h2.linklocal k).trans (h1.linklocal k), fun k => (h2.global k).trans (h1.global k)⟩

/-- `l4_ipv6_multicast` does not ignore packets from there to the group. -/
def LetThrough (src g : In6Addr) : Prop :=
  in6IsAddrMulticast g = true ∧ multicastIgnores src g = false

/-- The source is no address of the interface. -/
def Foreign (intn : IntNode) (src : In6Addr) : Prop := src ≠ intn.linklocal ∧ src ≠ intn.global

section Hop

variable {h : Host} {st : Conf} {src g : In6Addr} {packet : List UInt8} {i j : Nat}

/-- The data comes in on an interface in use, and from somebody else. -/
theorem dataFrame_forwardable (hp : DataPacket src g packet) (hi : (st.intn i).mtu ≠ 0)
    (hforeign : Foreign (st.intn i) src) : Forwardable h st (ethernetFrame i packet) where
  hatype := show (1 : Nat) ≠ arphrdLoopback by decide
  incoming := rfl
  ipv6 := rfl
  live := intFind_isSome_iff.mpr hi
  notLinklocal := fun hc => hforeign.1 (hp.src.symm.trans hc)
  notGlobal := fun hc => hforeign.2 (hp.src.symm.trans hc)
  walk := by
    obtain ⟨type, off, plen, hwalk, htype⟩ := hp.walk h.endian
    refine ⟨type, off, plen, ?_, fun hc => absurd hc htype⟩
    rw [← hwalk]
    exact congrArg (headerWalk h.endian _) (Nat.min_eq_left hp.fits)

/-- What a daemon does with data that it may forward. -/
theorem dataFrame_step (hp : DataPacket src g packet) (hhlim : 2 ≤ hlimOf packet)
    (hroute : LetThrough src g) (hi : (st.intn i).mtu ≠ 0) (hforeign : Foreign (st.intn i) src)
    (now : Nat) : step h st (.frame now (ethernetFrame i packet))
      = l4Ipv6Multicast h (received st (ethernetFrame i packet)) i
          (decreaseHlim (Mem.ofList packet)) packet.length := by
  have hf := dataFrame_forwardable (h := h) hp hi hforeign
  obtain ⟨type, off, plen, hwalk, htype⟩ := hp.walk h.endian
  obtain ⟨n, b, hnb⟩ := received_intn st (ethernetFrame i packet) i
  have hlen : min packet.length bufferlen = packet.length := Nat.min_eq_left hp.fits
  have halive : decreaseHlim (Mem.ofList packet) ip6Hlim ≠ 0 := by
    intro hz
    have hzero := congrArg UInt8.toNat hz
    rw [decreaseHlim_hlim] at hzero
    have : (Mem.ofList packet ip6Hlim).toNat = hlimOf packet := rfl
    rw [this] at hzero
    simp at hzero
    omega
  rw [step, handleinterfaces_forwardable hf]
  have hbuffer : (ethernetFrame i packet).buffer = Mem.ofList packet := rfl
  have hmin : min (ethernetFrame i packet).len bufferlen = packet.length := hlen
  have hindex : (ethernetFrame i packet).ifindex = i := rfl
  rw [hbuffer, hmin, hindex]
  unfold l3Ipv6
  dsimp only
  rw [hp.dst, hp.src, hroute.1, hnb]
  rw [if_neg (by simp), if_neg (not_or.mpr hforeign), hwalk]
  dsimp only
  rw [if_neg htype, if_pos rfl, if_neg halive]

/-- The copy for an interface with a subscription. -/
theorem dataFrame_copied (hr : Reachable h st) (hp : DataPacket src g packet)
    (hhlim : 2 ≤ hlimOf packet) (hroute : LetThrough src g) (hij : j ≠ i)
    (hi : (st.intn i).mtu ≠ 0) (hj : (st.intn j).mtu ≠ 0) (hforeign : Foreign (st.intn i) src)
    (hjoined : Joined st j g) (now : Nat) :
    ∃ x ∈ newSent st (step h st (.frame now (ethernetFrame i packet))),
      x.ifindex = j ∧ x.packet = withHlim packet (hlimOf packet - 1) := by
  have hint : ∀ k, ((received st (ethernetFrame i packet)).intn k).ifindex = (st.intn k).ifindex ∧
      ((received st (ethernetFrame i packet)).intn k).mtu = (st.intn k).mtu := by
    intro k
    obtain ⟨n, b, hnb⟩ := received_intn st (ethernetFrame i packet) k
    rw [hnb]
    exact ⟨rfl, rfl⟩
  have hcopies := OnItsWay.multicast hr (s := received st (ethernetFrame i packet))
    (f := ethernetFrame i packet) (intFind_isSome_iff.mpr hi) (onItsWay_data (Mem.ofList packet))
    rfl rfl (fun k => (hint k).1) (fun k => (hint k).2) (received_isSome st _)
  have hmin : min (ethernetFrame i packet).len bufferlen = packet.length :=
    Nat.min_eq_left hp.fits
  have hindex : (ethernetFrame i packet).ifindex = i := rfl
  have hbuffer : (ethernetFrame i packet).buffer = Mem.ofList packet := rfl
  rw [hmin, hindex, hbuffer, hp.src, hp.dst, ← dataFrame_step hp hhlim hroute hi hforeign now,
    read_decreaseHlim hp.header] at hcopies
  have hmem := (hcopies.mem_iff j).mpr ⟨hroute.2, intFind_isSome_iff.mpr hj, hij,
    hjoined.lets (reachable_tableOk hr) src⟩
  obtain ⟨x, hx, rfl⟩ := List.mem_map.mp hmem
  exact ⟨x, List.mem_of_mem_filter hx, rfl, hcopies.packet x hx⟩

/-- Nothing but statistics changes, where no interface is taken away. -/
theorem dataFrame_sameWays (hx : ∀ n, h.sendto n ≠ .enxio) (hr : Reachable h st)
    (hp : DataPacket src g packet) (hhlim : 2 ≤ hlimOf packet) (hroute : LetThrough src g)
    (hi : (st.intn i).mtu ≠ 0) (hforeign : Foreign (st.intn i) src) (now : Nat) :
    SameWays st (step h st (.frame now (ethernetFrame i packet))) := by
  refine ⟨fun k g' hk => ?_, fun k hk => step_inUse hx _ (fun _ _ hc => by cases hc) hk, ?_, ?_⟩
  · rw [dataFrame_step hp hhlim hroute hi hforeign]
    have hgroups : (received st (ethernetFrame i packet)).groups = st.groups := rfl
    rw [Joined, multicast_groups h now, hgroups, membershipOf_apply now _ (reachable_tableOk hr)]
    unfold multicastOp
    split <;> exact hk
  · intro k
    obtain ⟨n, b, hnb⟩ := received_intn st (ethernetFrame i packet) k
    rw [dataFrame_step hp hhlim hroute hi hforeign, (multicast_handles h _ i _ _).linklocal, hnb]
  · intro k
    obtain ⟨n, b, hnb⟩ := received_intn st (ethernetFrame i packet) k
    rw [dataFrame_step hp hhlim hroute hi hforeign, (multicast_handles h _ i _ _).global, hnb]

end Hop

/-! ## 4. The way back -/

variable {ι κ : Type}

/-- A daemon takes data for the group from the one link to the other. -/
def Flows (t : Topology ι κ) (conf : ι → Conf) (g : In6Addr) (l l' : κ) : Prop :=
  ∃ d i j, j ≠ i ∧ t.link d i = l ∧ t.link d j = l' ∧ ((conf d).intn i).mtu ≠ 0 ∧
    ((conf d).intn j).mtu ≠ 0 ∧ Joined (conf d) j g

/-- A packet that the daemons may forward, with hop limit `hlim`, is on the link. -/
def Carries (s : Linked ι κ) (l : κ) (packet : List UInt8) : Prop :=
  ∃ p ∈ s.packets, p.link = l ∧ p.packet = packet

def LinkEvent.isDelivery : LinkEvent ι κ → Prop
  | .deliver _ _ _ _ => True
  | _ => False

section Way

variable [DecidableEq ι] [DecidableEq κ] {t : Topology ι κ} {src g : In6Addr}
  {packet : List UInt8} {l l' : κ}

/-- A delivery is a frame at the daemon. -/
theorem linkStep_deliver {s : Linked ι κ} {k : Nat} {d : ι} {now : Nat} {f : Frame}
    {p : LinkPacket κ} (hk : s.packets[k]? = some p) (hb : t.Brings d f p) :
    linkStep t s (.deliver k d now f) = t.act s d (.frame now f) := by
  unfold linkStep
  dsimp only
  rw [hk]
  exact if_pos hb

/-- It is nothing to the others. -/
theorem linkStep_conf_ne {s : Linked ι κ} {k : Nat} {d d' : ι} {now : Nat} {f : Frame}
    (hd : d' ≠ d) : (linkStep t s (.deliver k d now f)).conf d' = s.conf d' := by
  unfold linkStep
  dsimp only
  split
  · rfl
  · split
    · exact act_conf_ne hd _
    · rfl

/-- **One delivery** takes the packet over a daemon. -/
theorem flows_deliver (hx : ∀ d n, (t.host d).sendto n ≠ .enxio) {s : Linked ι κ} (hs : NetOk t s)
    (hp : DataPacket src g packet) (hhlim : 2 ≤ hlimOf packet) (hroute : LetThrough src g)
    (hforeign : ∀ d k, Foreign ((s.conf d).intn k) src) (hc : Carries s l packet)
    (hflow : Flows t s.conf g l l') : ∃ ev : LinkEvent ι κ, ev.isDelivery ∧
      Carries (linkStep t s ev) l' (withHlim packet (hlimOf packet - 1)) ∧
      ∀ d, SameWays (s.conf d) ((linkStep t s ev).conf d) := by
  obtain ⟨d, i, j, hij, rfl, rfl, hi, hj, hjoined⟩ := hflow
  obtain ⟨p, hmem, hlink, rfl⟩ := hc
  obtain ⟨k, hk⟩ := List.mem_iff_getElem?.mp hmem
  have hbrings : t.Brings d (ethernetFrame i p.packet) p :=
    ⟨hlink, rfl, Mem.read_ofList p.packet⟩
  have hstep : linkStep t s (.deliver k d 0 (ethernetFrame i p.packet))
      = t.act s d (.frame 0 (ethernetFrame i p.packet)) := linkStep_deliver hk hbrings
  refine ⟨.deliver k d 0 (ethernetFrame i p.packet), trivial, ?_, fun d' => ?_⟩
  · obtain ⟨x, hxnew, rfl, hpacket⟩ := dataFrame_copied (hs.reachable d) hp hhlim hroute hij hi hj
      (hforeign d i) hjoined 0
    rw [hstep]
    exact ⟨_, mem_act_packets.mpr (Or.inr ⟨x, hxnew, rfl⟩), rfl, hpacket⟩
  · rw [hstep]
    by_cases hd : d' = d
    · rw [hd, act_conf_self]
      exact dataFrame_sameWays (hx d) (hs.reachable d) hp hhlim hroute hi (hforeign d i) 0
    · rw [act_conf_ne hd]
      exact .refl _

/-- **The way over several daemons.** -/
theorem path_delivers (hx : ∀ d n, (t.host d).sendto n ≠ .enxio) {conf : ι → Conf} {n : Nat}
    (hroute : LetThrough src g) (hforeign : ∀ d k, Foreign ((conf d).intn k) src)
    (hpath : Spread.Path (fun a b => Flows t conf g b a) l' n l) :
    ∀ (s : Linked ι κ) (packet : List UInt8), NetOk t s → (∀ d, SameWays (conf d) (s.conf d)) →
      DataPacket src g packet → n < hlimOf packet → Carries s l packet →
      ∃ es : List (LinkEvent ι κ), es.length = n ∧ (∀ e ∈ es, e.isDelivery) ∧
        Carries (Runs.run (linkStep t) s es) l' (withHlim packet (hlimOf packet - n)) := by
  induction hpath with
  | here =>
    intro s packet _ _ _ _ hc
    refine ⟨[], rfl, by simp, ?_⟩
    rw [Nat.sub_zero, withHlim_self]
    exact hc
  | @next n b c _ hflow ih =>
    intro s packet hs hsame hp hn hc
    obtain ⟨d, i, j, hij, hli, hlj, hi, hj, hjoined⟩ := hflow
    have hflow' : Flows t s.conf g c b := ⟨d, i, j, hij, hli, hlj, (hsame d).inUse i hi,
      (hsame d).inUse j hj, (hsame d).joined j g hjoined⟩
    have hforeign' : ∀ d k, Foreign ((s.conf d).intn k) src := by
      intro d k
      rw [Foreign, (hsame d).linklocal k, (hsame d).global k]
      exact hforeign d k
    obtain ⟨ev, hdelivery, hcopy, hafter⟩ :=
      flows_deliver hx hs hp (by omega) hroute hforeign' hc hflow'
    have hlt : hlimOf packet - 1 < 256 :=
      Nat.lt_of_le_of_lt (Nat.sub_le _ _) (hlimOf_lt packet)
    have hhlim := hlimOf_withHlim hp.header hlt
    obtain ⟨es, hlen, hall, hend⟩ := ih (linkStep t s ev) _ (linkStep_netOk hs ev)
      (fun d => (hsame d).trans (hafter d)) (hp.withHlim (hlimOf packet - 1))
      (by rw [hhlim]; omega) hcopy
    refine ⟨ev :: es, by rw [List.length_cons, hlen], ?_, ?_⟩
    · intro e he
      rcases List.mem_cons.mp he with rfl | he
      · exact hdelivery
      · exact hall e he
    · rw [hhlim, withHlim_withHlim, Nat.sub_sub, Nat.add_comm 1 n] at hend
      exact hend

/-! ## 5. Runs that lose nothing -/

/-- The frame brings an MLDv2 report. -/
def Frame.IsMld2 (f : Frame) (h : Host) (now : Nat) (st : Conf) : Prop :=
  ∃ st1 i mld2r plen, f.Enters now st st1 i ∧
    l3Message h.endian (st1.intn i) f.buffer (min f.len bufferlen) = .mld2Report mld2r plen

/-- The event takes no subscription of the group for all sources and no interface away. -/
structure KeepsWays (t : Topology ι κ) (g : In6Addr) (s : Linked ι κ) (ev : LinkEvent ι κ) :
    Prop where
  joined : ∀ d i, Joined (s.conf d) i g → Joined ((linkStep t s ev).conf d) i g
  interfaces : ∀ d now i, ev ≠ .other d (.destroy now i)

/-- Moreover an MLDv2 report that names the group asks for all sources.  One that asks for some
sources makes the daemon announce the group too, but the data of the others stops there. -/
structure Keeps (t : Topology ι κ) (g : In6Addr) (s : Linked ι κ) (ev : LinkEvent ι κ) : Prop
    extends KeepsWays t g s ev where
  asked : ∀ k d now f, ev = .deliver k d now f → f.Names (t.host d) now (s.conf d) g →
    f.IsMld2 (t.host d) now (s.conf d) → Joined ((linkStep t s ev).conf d) f.ifindex g

/-- An MLDv1 report leaves a subscription for all sources. -/
theorem mld1_joined {h : Host} {st st1 : Conf} {f : Frame} {now i : Nat} {mld1 : Mem}
    (hints : IntsOk st) (hin : f.Enters now st st1 i)
    (hm : l3Message h.endian (st1.intn i) f.buffer (min f.len bufferlen) = .mld1Report mld1)
    (hmca : mld1Mca mld1 = g) (hnot : mld1Ignores g = false) :
    Joined (handleinterfaces h now st f) f.ifindex g := by
  obtain ⟨rfl, hok1, hmtu, -⟩ := hin.counted hints (min f.len bufferlen)
  rcases frame_cases h now st f with ⟨st2, k, hin2, heq⟩ | ⟨hnone, -⟩
  · obtain ⟨rfl, rfl⟩ := hin.unique hin2
    have hcells : (mld1Join g).cells = [((g, In6Addr.any), mld2ModeIsInclude)] := rfl
    have hwritten : Writes.last (mld1Join g).cells (g, In6Addr.any) = some mld2ModeIsInclude := by
      rw [hcells]
      simp [Writes.last]
    rw [Joined, heq, hm, handle_groups, hok1.slot _ hmtu]
    simp only [Message.op, hmca, hnot]
    exact Option.isSome_of_eq_some (membershipOf_join_written hwritten)
  · exact absurd hin (hnone _ _)

variable {s : Linked ι κ} {ev : LinkEvent ι κ}

/-- Who is told of the group has a subscription for all sources then. -/
theorem told_joined (hs : NetOk t s) (hkeep : Keeps t g s ev) {d : ι} {i : Nat}
    (htold : Informs t (fun _ => True) d i g s ev) : Joined ((linkStep t s ev).conf d) i g := by
  cases ev with
  | deliver k d' now f =>
    obtain ⟨rfl, rfl, hnames, p, hk, hb, -⟩ := htold
    obtain ⟨st1, i, hin, hm⟩ := hnames
    cases hmsg : l3Message (t.host d').endian (st1.intn i) f.buffer (min f.len bufferlen) with
    | mld1Report mld1 =>
      rw [hmsg] at hm
      rw [linkStep_deliver hk hb, act_conf_self]
      exact mld1_joined (reachable_intsOk (hs.reachable d')) hin hmsg hm.1 hm.2
    | mld2Report mld2r plen =>
      exact hkeep.asked k d' now f rfl ⟨st1, i, hin, hm⟩ ⟨st1, i, mld2r, plen, hin, hmsg⟩
    | _ =>
      rw [hmsg] at hm
      exact hm.elim
  | inject l packet => exact htold.elim
  | other d' ev => exact htold.elim

/-- Interfaces stay in use over an event that keeps the ways. -/
theorem linkStep_inUse (hx : ∀ d n, (t.host d).sendto n ≠ .enxio) (hkeep : KeepsWays t g s ev)
    {d : ι} {k : Nat} (hk : ((s.conf d).intn k).mtu ≠ 0) :
    (((linkStep t s ev).conf d).intn k).mtu ≠ 0 := by
  rcases linkStep_cases t s ev with heq | ⟨l, packet, heq⟩ | ⟨d', e, heq, -, hev⟩
  · rwa [heq]
  · rwa [heq]
  · rw [heq]
    by_cases hd : d = d'
    · rw [hd, act_conf_self]
      refine step_inUse (hx d') e (fun now i he => ?_) (hd ▸ hk)
      rw [he] at hev
      exact hkeep.interfaces d' now i (hev fun _ _ hc => by cases hc)
    · rwa [act_conf_ne hd]

/-- A way that is there stays. -/
theorem flows_kept (hx : ∀ d n, (t.host d).sendto n ≠ .enxio) (hkeep : KeepsWays t g s ev)
    (hflow : Flows t s.conf g l l') : Flows t (linkStep t s ev).conf g l l' := by
  obtain ⟨d, i, j, hij, hl, hl', hi, hj, hjoined⟩ := hflow
  exact ⟨d, i, j, hij, hl, hl', linkStep_inUse hx hkeep hi, linkStep_inUse hx hkeep hj,
    hkeep.joined d j hjoined⟩

/-- Where a group is passed on, data comes back. -/
theorem passedOn_flows (hx : ∀ d n, (t.host d).sendto n ≠ .enxio) (hs : NetOk t s)
    (hkeep : Keeps t g s ev) (hp : PassedOn t g s ev l l') :
    Flows t (linkStep t s ev).conf g l' l := by
  obtain ⟨d, i, j, hij, hl, hl', htold, hj, -⟩ := hp
  refine ⟨d, j, i, hij, hl', hl, linkStep_inUse hx hkeep.toKeepsWays hj, ?_,
    told_joined hs hkeep htold⟩
  cases ev with
  | deliver k d' now f =>
    obtain ⟨rfl, rfl, ⟨st1, i, hin, -⟩, p, hk, hb, -⟩ := htold
    rw [linkStep_deliver hk hb, act_conf_self]
    obtain ⟨rfl, -⟩ := hin.created
    exact hin.inUse (hx d')
  | inject l packet => exact htold.elim
  | other d' ev => exact htold.elim

/-- **Data goes back to the listeners.**  In every run of every network in which no subscription of
the group for all sources and no interface is lost (by an event, or by `sendto` with `ENXIO`), and
in which each MLDv2 report that names the group leaves a subscription for all sources where it came
in: wherever the group is known, a packet for it that is put on the link is brought to a link where
the group was reported from outside by deliveries to the daemons over which it has come, no more
than there were events, if its hop limit is greater than their number, its source is no address of a
daemon and `l4_ipv6_multicast` does not ignore it.  It is as it was but for its hop limit, which is
less by that number. -/
theorem listeners_are_served (t : Topology ι κ) (o : ι → Options) (now : ι → Nat)
    (ifap : ι → Option (List IfAddr)) (es : List (LinkEvent ι κ)) (g : In6Addr) (l : κ)
    (hx : ∀ d n, (t.host d).sendto n ≠ .enxio)
    (hkeep : Runs.StepsMeet (linkStep t) (Keeps t g) (linkStart t o now ifap) es)
    (hk : KnownOn t g (Runs.run (linkStep t) (linkStart t o now ifap) es) l) :
    ∃ l' n, n ≤ es.length ∧
      Spread.Happens (linkStep t) (fun s ev => ReportedOn t g s ev l') (linkStart t o now ifap) es ∧
      ∀ src packet, DataPacket src g packet → n < hlimOf packet → LetThrough src g →
        (∀ d k, Foreign (((Runs.run (linkStep t) (linkStart t o now ifap) es).conf d).intn k) src) →
        ∃ ds : List (LinkEvent ι κ), ds.length = n ∧ (∀ e ∈ ds, e.isDelivery) ∧
          Carries (Runs.run (linkStep t) (linkStart t o now ifap) (es ++ .inject l packet :: ds)) l'
            (withHlim packet (hlimOf packet - n)) := by
  have hreached : Spread.Reached (linkStep t) (ReportedOn t g) (PassedOn t g)
      (linkStart t o now ifap) es l :=
    Spread.reached_of_step (I := NetOk t) (P := KnownOn t g)
      (fun _ ev hs => linkStep_netOk hs ev) (fun _ ev l hs => knownOn_step ev l hs)
      (linkStart_netOk t o now ifap) (linkStart_unknown t o now ifap g) es l hk
  obtain ⟨l', n, hn, horigin, hpath⟩ := hreached.path
  refine ⟨l', n, hn, horigin, fun src packet hp hlt hroute hforeign => ?_⟩
  -- each daemon on the path still takes data the other way
  have hflows : Spread.Path (fun a b => Flows t
      (Runs.run (linkStep t) (linkStart t o now ifap) es).conf g b a) l' n l :=
    hpath.mono fun a b hab => hab.leaves (I := NetOk t)
      (R := fun s => Flows t s.conf g b a) hkeep (linkStart_netOk t o now ifap)
      (fun _ ev hs => linkStep_netOk hs ev)
      (fun _ _ hs hke hpass => passedOn_flows hx hs hke hpass)
      (fun _ _ _ hke hflow => flows_kept hx hke.toKeepsWays hflow)
  generalize hs : Runs.run (linkStep t) (linkStart t o now ifap) es = s at hflows hforeign
  have hok : NetOk t s := by
    rw [← hs]
    exact Runs.run_invariant (P := NetOk t) (fun _ ev hs => linkStep_netOk hs ev) es _
      (linkStart_netOk t o now ifap)
  obtain ⟨ds, hlen, hall, hend⟩ := path_delivers hx hroute hforeign hflows
    (linkStep t s (.inject l packet)) packet (linkStep_netOk hok _) (fun _ => .refl _) hp hlt
    ⟨⟨l, packet, none⟩, List.mem_append_right _ List.mem_cons_self, rfl, rfl⟩
  refine ⟨ds, hlen, hall, ?_⟩
  rw [Runs.run_append, hs, Runs.run_cons]
  exact hend

/-- An event that happens to daemons with empty tables only, and leaves one that is told of the
group with a subscription for all sources. -/
theorem keeps_of_empty {s : Linked ι κ} {ev : LinkEvent ι κ}
    (hempty : ∀ d, (s.conf d).groups = listNew ∨ (linkStep t s ev).conf d = s.conf d)
    (hasked : ∀ k d now f, ev = .deliver k d now f →
      Joined ((linkStep t s ev).conf d) f.ifindex g)
    (hinterfaces : ∀ d now i, ev ≠ .other d (.destroy now i)) : Keeps t g s ev := by
  refine ⟨⟨fun d i hj => ?_, hinterfaces⟩, fun k d now f he _ _ => hasked k d now f he⟩
  rcases hempty d with hnone | hsame
  · rw [Joined, hnone] at hj
    cases hj
  · rwa [hsame]

end Way

/-- Both daemons are told of the group once, and lose nothing. -/
theorem chain_keeps :
    Runs.StepsMeet (linkStep chain) (Keeps chain siteGroup) chainStart chainEvents := by
  have hstart : ∀ n, n < 4 → ∀ d : Bool,
      ((Runs.run (linkStep chain) chainStart (joinedEvents.take n)).conf d).groups = listNew := by
    decide +kernel
  have hlast :
      ((Runs.run (linkStep chain) chainStart joinedEvents).conf true).groups = listNew := by
    decide +kernel
  rw [chainEvents, Runs.stepsMeet_append]
  constructor
  · rw [joinedEvents]
    simp only [Runs.stepsMeet_cons]
    refine ⟨keeps_of_empty ?_ ?_ ?_, keeps_of_empty ?_ ?_ ?_, keeps_of_empty ?_ ?_ ?_,
      keeps_of_empty ?_ ?_ ?_, Runs.stepsMeet_nil _ _⟩
    · exact fun d => Or.inl (hstart 0 (by decide) d)
    · simp
    · simp
    · exact fun d => Or.inl (hstart 1 (by decide) d)
    · simp
    · simp
    · exact fun d => Or.inl (hstart 2 (by decide) d)
    · simp
    · simp
    · exact fun d => Or.inl (hstart 3 (by decide) d)
    · rintro k d now f he
      cases he
      decide +kernel
    · simp
  · rw [Runs.stepsMeet_cons]
    refine ⟨keeps_of_empty (fun d => ?_) ?_ (by simp), Runs.stepsMeet_nil _ _⟩
    · cases d with
      | false => exact Or.inr (linkStep_conf_ne (by simp))
      | true => exact Or.inl hlast
    · rintro k d now f he
      cases he
      decide +kernel

/-- What is put on the third link for the group can be brought back to where a host has joined. -/
theorem chain_served : ∃ l' n, n ≤ chainEvents.length ∧
    Spread.Happens (linkStep chain) (fun s ev => ReportedOn chain siteGroup s ev l') chainStart
      chainEvents ∧
    ∀ src packet, DataPacket src siteGroup packet → n < hlimOf packet → LetThrough src siteGroup →
      (∀ d k, Foreign (((Runs.run (linkStep chain) chainStart chainEvents).conf d).intn k) src) →
      ∃ ds : List (LinkEvent Bool Nat), ds.length = n ∧ (∀ e ∈ ds, e.isDelivery) ∧
        Carries (Runs.run (linkStep chain) chainStart (chainEvents ++ .inject 3 packet :: ds)) l'
          (withHlim packet (hlimOf packet - n)) :=
  listeners_are_served chain (fun _ => plainOptions) (fun _ => 0) (fun _ => none) chainEvents
    siteGroup 3 (fun _ _ => by simp [chain, quietHost]) chain_keeps chain_known

end Ecmh
