/-
# The statistics tell the truth

What `SIGUSR1` dumps is kept in counters all over the code.  Over every run of the daemon:

* **Sent.**  The counters of packets and bytes sent are those of the packets that `sendto` took, and
  the counter of ICMPv6 messages that of the packets that are no copies (`sent_account`).
* **Received.**  The counters of packets and bytes received are those of the frames that are neither
  loopback nor outgoing, and the other two are not larger (`received_account`).
* **Interfaces.**  Each counter of the daemon is at least the sum of the counter of that name over
  all interfaces, the destroyed ones included (`interfaces_account`).
* **Groups.**  What the groups have counted was received (`groups_account`).

The counters are `uint64_t` in the code and numbers here: all this holds as long as none of them has
passed 2⁶⁴.
-/
import Ecmh.Primitive
import Ecmh.Forward
import Mathlib.Algebra.BigOperators.Group.List.Basic

namespace Ecmh

open ByteMem

/-! ## 1. What was sent

The record of packets has them all, taken or not.  `takenFrom` picks those that `sendto` took, by
their numbers. -/

/-- The packets that `sendto` took, of those handed over from the `k`-th call on. -/
def takenFrom (h : Host) : Nat → List Sent → List Sent
  | _, [] => []
  | k, x :: xs =>
    if h.sendto k = .sent then x :: takenFrom h (k + 1) xs else takenFrom h (k + 1) xs

/-- The packets that `sendto` took. -/
abbrev taken (h : Host) (sent : List Sent) : List Sent := takenFrom h 0 sent

/-- A packet more: the system takes it or not. -/
theorem takenFrom_concat (h : Host) (x : Sent) : ∀ (xs : List Sent) (k : Nat),
    takenFrom h k (xs ++ [x])
      = takenFrom h k xs ++ if h.sendto (k + xs.length) = .sent then [x] else []
  | [], k => by simp [takenFrom]
  | y :: xs, k => by
    have ih := takenFrom_concat h x xs (k + 1)
    have hk : k + 1 + xs.length = k + (xs.length + 1) := by omega
    rw [hk] at ih
    rw [List.cons_append, takenFrom, takenFrom, ih, List.length_cons]
    split <;> rfl

/-- The packet is an ICMPv6 message of the daemon, and no copy of a packet that it forwards. -/
def Sent.isIcmp (x : Sent) : Bool := decide (x.sender ≠ .l4Ipv6Multicast)

/-- The account of what was sent. -/
structure SentAccount (h : Host) (st : Conf) : Prop where
  packets : st.statPacketsSent = (taken h st.sent).length
  bytes : st.statBytesSent = ((taken h st.sent).map (fun x => x.packet.length)).sum
  icmp : st.statIcmpSent = st.sent.countP Sent.isIcmp

/-- The account reads three counters and the list of what was sent. -/
theorem SentAccount.congr {h : Host} {st st' : Conf} (hs : SentAccount h st)
    (hp : st'.statPacketsSent = st.statPacketsSent) (hb : st'.statBytesSent = st.statBytesSent)
    (hi : st'.statIcmpSent = st.statIcmpSent) (hsent : st'.sent = st.sent) : SentAccount h st' where
  packets := by rw [hp, hsent, hs.packets]
  bytes := by rw [hb, hsent, hs.bytes]
  icmp := by rw [hi, hsent, hs.icmp]

/-- A packet is handed over: two counters follow what `sendto` says, and the third is left. -/
theorem sendpacket6_account {h : Host} {st : Conf} (hs : SentAccount h st) (sender : Sender)
    (i : Nat) (packet : Mem) (len : Nat) :
    (sendpacket6 h sender st i packet len).statPacketsSent
      = (taken h (sendpacket6 h sender st i packet len).sent).length ∧
    (sendpacket6 h sender st i packet len).statBytesSent
      = ((taken h (sendpacket6 h sender st i packet len).sent).map
          (fun x => x.packet.length)).sum ∧
    (sendpacket6 h sender st i packet len).statIcmpSent = st.statIcmpSent := by
  have hsent := sendpacket6_sent h sender st i packet len
  have hp := hs.packets
  have hb := hs.bytes
  rw [hsent, taken, takenFrom_concat, Nat.zero_add]
  unfold sendpacket6
  dsimp only
  cases h.sendto st.sent.length with
  | sent => simp [hp, hb, sentOf, Conf.setInt]
  | enxio => simp [hp, hb, intDestroy, Conf.setInt]
  | failed => simp [hp, hb]

/-- **One primitive operation** keeps the account: what sends counts, and nothing else does. -/
theorem prim_sentAccount {h : Host} {a b : Conf} (hp : Prim h a b) (ha : SentAccount h a) :
    SentAccount h b := by
  cases hp with
  | icmp sender i packet len hm =>
    obtain ⟨hpackets, hbytes, hicmp⟩ := sendpacket6_account ha sender i packet len
    have hone : (sentOf sender a.groups (a.intn i) packet (len % 65536)).isIcmp = true := by
      exact decide_eq_true hm.ne
    refine ⟨hpackets, hbytes, ?_⟩
    have hsent : (countIcmpSent (sendpacket6 h sender a i packet len) i).sent
        = a.sent ++ [sentOf sender a.groups (a.intn i) packet (len % 65536)] :=
      sendpacket6_sent h sender a i packet len
    rw [hsent, List.countP_append, ← ha.icmp]
    simp [countIcmpSent, hicmp, hone]
  | forward i packet len =>
    obtain ⟨hpackets, hbytes, hicmp⟩ := sendpacket6_account ha .l4Ipv6Multicast i packet len
    refine ⟨hpackets, hbytes, ?_⟩
    rw [sendpacket6_sent, List.countP_append, ← ha.icmp, hicmp]
    simp [Sent.isIcmp, sentOf]
  | table groups => exact ha.congr rfl rfl rfl rfl
  | write i f hf => exact ha.congr rfl rfl rfl rfl
  | create ifindex probe _ =>
    have hi := intCreate_interfacesOnly a ifindex probe
    exact ha.congr (by rw [hi]) (by rw [hi]) (by rw [hi]) (by rw [hi])
  | undone ifindex probe _ =>
    have hi := intCreate_interfacesOnly a ifindex probe
    rw [intDestroy, hi]
    exact ha.congr rfl rfl rfl rfl
  | updated now => exact ha.congr rfl rfl rfl rfl

/-- What is counted of a packet that comes in is no part of it. -/
theorem receives_sentAccount {h : Host} {st s : Conf} {i len : Nat} (ha : SentAccount h st)
    (hl : Looked (countIntReceived st i len) i s) : SentAccount h s := by
  have hc : SentAccount h (countIntReceived st i len) := ha.congr rfl rfl rfl rfl
  cases hl <;> exact hc.congr rfl rfl rfl rfl

/-- **What was sent is what the counters say.**  In every state that the daemon reaches, whatever
`sendto` answered, the packets and bytes that it counts as sent are those of the packets that
`sendto` took, and the ICMPv6 messages are the packets handed over that are no copies, whether they
were taken or not. -/
theorem sent_account {h : Host} {st : Conf} (hr : Reachable h st) :
    st.statPacketsSent = (taken h st.sent).length ∧
    st.statBytesSent = ((taken h st.sent).map (fun x => x.packet.length)).sum ∧
    st.statIcmpSent = st.sent.countP Sent.isIcmp := by
  have ha : SentAccount h st := by
    refine reachable_keeps (Q := fun _ => SentAccount h) ?_ (fun _ _ => prim_sentAccount)
      (fun _ _ hs => hs.congr rfl rfl rfl rfl) (fun _ _ _ => prim_sentAccount) ?_ (fun _ _ hs => hs)
      (fun _ _ _ _ => receives_sentAccount) hr
    · exact fun o => ⟨rfl, rfl, rfl⟩
    · exact fun st len hs => hs.congr rfl rfl rfl rfl
  exact ⟨ha.packets, ha.bytes, ha.icmp⟩

/-- A report is received, another interface is created, and a packet from there is forwarded. -/
def stateForwarded : Conf :=
  run (quietHost .little) (boot (quietHost .little) plainOptions 0 none)
    [.frame 0 (mldFrame 1 mld1JoinMessage), .create 1 2 ethernetProbe,
      .frame 2 (ethernetFrame 2 dataPacket)]

theorem stateForwarded_reachable : Reachable (quietHost .little) stateForwarded :=
  ⟨plainOptions, 0, none, _, rfl⟩

theorem stateForwarded_sent :
    stateForwarded.statPacketsSent = (taken (quietHost .little) stateForwarded.sent).length ∧
    stateForwarded.statBytesSent
      = ((taken (quietHost .little) stateForwarded.sent).map (fun x => x.packet.length)).sum ∧
    stateForwarded.statIcmpSent = stateForwarded.sent.countP Sent.isIcmp :=
  sent_account stateForwarded_reachable

/-! ## 2. What was received

A frame is counted before anything is done with it, and nothing that is done with it counts as
received. -/

/-- The frame is counted. -/
def Event.counted : Event → Bool
  | .frame _ f => !(decide (f.hatype = arphrdLoopback) || f.outgoing)
  | _ => false

/-- The bytes of it that `recvfrom` returned. -/
def Event.bytes : Event → Nat
  | .frame _ f => min f.len bufferlen
  | _ => 0

/-- What no operation of `Prim` changes. -/
def receivedCounters (st : Conf) : Nat × Nat × Nat × Nat :=
  (st.statPacketsReceived, st.statBytesReceived, st.statIcmpReceived, st.statHlimExceeded)

/-- What is sent is not counted as received. -/
theorem sendpacket6_received (h : Host) (sender : Sender) (st : Conf) (i : Nat) (packet : Mem)
    (len : Nat) :
    receivedCounters (sendpacket6 h sender st i packet len) = receivedCounters st := by
  rw [receivedCounters, (sendpacket6_sendsOnly h sender st i packet len).rest]
  rfl

/-- **One primitive operation** does not receive anything. -/
theorem prim_received {h : Host} {a b : Conf} (hp : Prim h a b) :
    receivedCounters b = receivedCounters a := by
  cases hp with
  | icmp sender i packet len hm => exact sendpacket6_received h sender a i packet len
  | forward i packet len => exact sendpacket6_received h .l4Ipv6Multicast a i packet len
  | create ifindex probe _ =>
    rw [receivedCounters, intCreate_interfacesOnly a ifindex probe]
    rfl
  | undone ifindex probe _ =>
    rw [intDestroy, intCreate_interfacesOnly a ifindex probe]
    rfl
  | _ => rfl

theorem Does.received {h : Host} {a b : Conf} (hd : Does h a b) :
    receivedCounters b = receivedCounters a :=
  hd.keeps (P := fun st => receivedCounters st = receivedCounters a)
    (fun _ _ hp hs => (prim_received hp).trans hs) rfl

/-- One event: a frame that is counted is counted once, and its headers once at most. -/
theorem step_received (h : Host) (st : Conf) (ev : Event) :
    (step h st ev).statPacketsReceived
      = st.statPacketsReceived + (if ev.counted then 1 else 0) ∧
    (step h st ev).statBytesReceived
      = st.statBytesReceived + (if ev.counted then ev.bytes else 0) ∧
    (step h st ev).statIcmpReceived ≤ st.statIcmpReceived + (if ev.counted then 1 else 0) ∧
    (step h st ev).statHlimExceeded ≤ st.statHlimExceeded + (if ev.counted then 1 else 0) := by
  rcases step_does h st ev with ⟨now, f, rfl⟩ | ⟨now, i, rfl⟩ | ⟨hne, hd⟩
  · cases handleinterfaces_does h now st f with
    | passed hskip heq =>
      have hc : (Event.frame now f).counted = false := by
        rcases hskip with hskip | hskip <;> simp [Event.counted, hskip]
      rw [step, heq, hc]
      simp
    | lost hskip hd =>
      have hc : (Event.frame now f).counted = true := by simpa [Event.counted] using hskip
      have hr := hd.received
      simp only [receivedCounters, Prod.mk.injEq] at hr
      obtain ⟨hp, hb, hi, he⟩ := hr
      rw [step, hp, hb, hi, he, hc]
      simp [countReceived, Event.bytes]
    | taken hskip i s s' hi hl hd =>
      have hc : (Event.frame now f).counted = true := by simpa [Event.counted] using hskip
      have h1 := hi.received
      have h2 := hd.received
      simp only [receivedCounters, Prod.mk.injEq] at h1 h2
      obtain ⟨hp1, hb1, hi1, he1⟩ := h1
      obtain ⟨hp2, hb2, hi2, he2⟩ := h2
      rw [step, hp2, hb2, hi2, he2, hc]
      cases hl <;>
        simp [countReceived, countIntReceived, countIcmpReceived, countHlimExceeded, Conf.setInt,
          Event.bytes, hp1, hb1, hi1, he1]
  · exact ⟨rfl, rfl, Nat.le_refl _, Nat.le_refl _⟩
  · have hc : ev.counted = false := by
      cases ev with
      | frame now f => exact absurd rfl (hne now f)
      | _ => rfl
    have hr := hd.received
    simp only [receivedCounters, Prod.mk.injEq] at hr
    obtain ⟨hp, hb, hi, he⟩ := hr
    simp [hc, hp, hb, hi, he]

theorem boot_received (h : Host) (o : Options) (now : Nat) (ifap : Option (List IfAddr)) :
    receivedCounters (boot h o now ifap) = (0, 0, 0, 0) := (boot_does h now o ifap).received

/-- The account of a run, event by event. -/
theorem run_received (h : Host) : ∀ (es : List Event) (st : Conf),
    (run h st es).statPacketsReceived = st.statPacketsReceived + es.countP Event.counted ∧
    (run h st es).statBytesReceived
      = st.statBytesReceived + ((es.filter Event.counted).map Event.bytes).sum ∧
    (run h st es).statIcmpReceived ≤ st.statIcmpReceived + es.countP Event.counted ∧
    (run h st es).statHlimExceeded ≤ st.statHlimExceeded + es.countP Event.counted
  | [], _ => by simp
  | ev :: es, st => by
    obtain ⟨hp, hb, hi, he⟩ := run_received h es (step h st ev)
    obtain ⟨hp1, hb1, hi1, he1⟩ := step_received h st ev
    have hrun : run h st (ev :: es) = run h (step h st ev) es := rfl
    rw [hrun, List.countP_cons]
    cases hc : ev.counted with
    | false =>
      rw [hc] at hp1 hb1 hi1 he1
      simp only [Bool.false_eq_true, if_false] at hp1 hb1 hi1 he1
      rw [List.filter_cons_of_neg (by simp [hc])]
      simp only [Bool.false_eq_true, if_false]
      refine ⟨by omega, by omega, by omega, by omega⟩
    | true =>
      rw [hc] at hp1 hb1 hi1 he1
      simp only [if_true] at hp1 hb1 hi1 he1
      rw [List.filter_cons_of_pos hc, List.map_cons, List.sum_cons]
      simp only [if_true]
      refine ⟨by omega, by omega, by omega, by omega⟩

/-- **What was received is what the counters say.**  Over every run the packets and bytes counted as
received are those of the frames that are neither loopback nor outgoing, each with what `recvfrom`
returned of it; no more ICMPv6 messages, and no more packets whose hop limit ran out, are counted
than packets. -/
theorem received_account (h : Host) (o : Options) (now : Nat) (ifap : Option (List IfAddr))
    (es : List Event) :
    (run h (boot h o now ifap) es).statPacketsReceived = es.countP Event.counted ∧
    (run h (boot h o now ifap) es).statBytesReceived
      = ((es.filter Event.counted).map Event.bytes).sum ∧
    (run h (boot h o now ifap) es).statIcmpReceived
      ≤ (run h (boot h o now ifap) es).statPacketsReceived ∧
    (run h (boot h o now ifap) es).statHlimExceeded
      ≤ (run h (boot h o now ifap) es).statPacketsReceived := by
  obtain ⟨hp, hb, hi, he⟩ := run_received h es (boot h o now ifap)
  have hboot := boot_received h o now ifap
  simp only [receivedCounters, Prod.mk.injEq] at hboot
  obtain ⟨hp0, hb0, hi0, he0⟩ := hboot
  refine ⟨by omega, by omega, by omega, by omega⟩

/-! ## 3. The counters of the interfaces

The daemon counts a frame before its interface is known.  Until then the account has room for one
frame (`frameRoom`), and an interface that takes the frame up uses the room. -/

/-- The counters that an interface and the daemon both have. -/
inductive Counter
  | packetsReceived
  | packetsSent
  | bytesReceived
  | bytesSent
  | icmpReceived
  | icmpSent

def Counter.ofInt : Counter → IntNode → Nat
  | .packetsReceived, intn => intn.statPacketsReceived
  | .packetsSent, intn => intn.statPacketsSent
  | .bytesReceived, intn => intn.statBytesReceived
  | .bytesSent, intn => intn.statBytesSent
  | .icmpReceived, intn => intn.statIcmpReceived
  | .icmpSent, intn => intn.statIcmpSent

def Counter.ofConf : Counter → Conf → Nat
  | .packetsReceived, st => st.statPacketsReceived
  | .packetsSent, st => st.statPacketsSent
  | .bytesReceived, st => st.statBytesReceived
  | .bytesSent, st => st.statBytesSent
  | .icmpReceived, st => st.statIcmpReceived
  | .icmpSent, st => st.statIcmpSent

/-- The counter summed up over the slots of the table. -/
def Counter.total (c : Counter) (st : Conf) : Nat := (st.ints.map c.ofInt).sum

/-- A write to one slot that adds `d` to the counter at most. -/
theorem sum_modify_le {α : Type} {f : α → Nat} {g : α → α} {d : Nat} (hg : ∀ a, f (g a) ≤ f a + d) :
    ∀ (l : List α) (i : Nat), ((l.modify i g).map f).sum ≤ (l.map f).sum + d
  | [], i => by simp
  | a :: l, 0 => by
    have := hg a
    simp only [List.modify_zero_cons, List.map_cons, List.sum_cons]
    omega
  | a :: l, i + 1 => by
    have := sum_modify_le hg l i
    simp only [List.modify_succ_cons, List.map_cons, List.sum_cons]
    omega

/-- A write to one slot adds what it adds there. -/
theorem total_setInt {c : Counter} {f : IntNode → IntNode} {d : Nat}
    (hf : ∀ a, c.ofInt (f a) ≤ c.ofInt a + d) (st : Conf) (i : Nat) :
    c.total (st.setInt i f) ≤ c.total st + d := sum_modify_le hf st.ints i

/-- A write that keeps the counters keeps each of them. -/
theorem KeepsCounters.ofInt {f : IntNode → IntNode} (hf : KeepsCounters f) (c : Counter)
    (a : IntNode) : c.ofInt (f a) = c.ofInt a := by
  rw [hf a]
  cases c <;> rfl

/-- Every counter of the daemon grows by what its sum grows by at most. -/
def Balanced (a b : Conf) : Prop :=
  ∀ c : Counter, ∃ d, c.total b ≤ c.total a + d ∧ c.ofConf b = c.ofConf a + d

/-- Two balanced operations are one. -/
theorem Balanced.trans {a b c : Conf} (h1 : Balanced a b) (h2 : Balanced b c) : Balanced a c := by
  intro k
  obtain ⟨d1, ht1, hc1⟩ := h1 k
  obtain ⟨d2, ht2, hc2⟩ := h2 k
  exact ⟨d1 + d2, by omega, by omega⟩

/-- A write to an interface that lets its counters be, or clears them. -/
theorem balanced_setInt (st : Conf) (i : Nat) {f : IntNode → IntNode}
    (hf : ∀ c a, Counter.ofInt c (f a) ≤ c.ofInt a) : Balanced st (st.setInt i f) := fun c =>
  ⟨0, total_setInt (d := 0) (hf c) st i, by cases c <;> rfl⟩

/-- A counter of an interface that is increased together with that of the daemon. -/
theorem balanced_count {st st' : Conf} {i : Nat} {f : IntNode → IntNode} (d : Counter → Nat)
    (hf : ∀ c a, Counter.ofInt c (f a) = c.ofInt a + d c) (hints : st'.ints = st.ints.modify i f)
    (hconf : ∀ c, Counter.ofConf c st' = c.ofConf st + d c) : Balanced st st' := by
  intro c
  refine ⟨d c, ?_, hconf c⟩
  unfold Counter.total
  rw [hints]
  exact sum_modify_le (fun a => Nat.le_of_eq (hf c a)) st.ints i

/-- Where no interface changes, neither sum does. -/
theorem balanced_of_ints {st st' : Conf} (hints : st'.ints = st.ints)
    (hconf : ∀ c, Counter.ofConf c st' = c.ofConf st) : Balanced st st' := fun c =>
  ⟨0, by rw [Counter.total, hints]; exact Nat.le_refl _, hconf c⟩

theorem intDestroy_balanced (st : Conf) (i : Nat) : Balanced st (intDestroy st i) :=
  balanced_setInt st i fun c a => by cases c <;> exact Nat.le_refl _

/-- A packet that is taken is counted twice, at the daemon and at the interface; one that is not,
never. -/
theorem sendpacket6_balanced (h : Host) (sender : Sender) (st : Conf) (i : Nat) (packet : Mem)
    (len : Nat) : Balanced st (sendpacket6 h sender st i packet len) := by
  unfold sendpacket6
  dsimp only
  cases h.sendto st.sent.length with
  | sent =>
    refine balanced_count (i := i) (d := fun c => match c with
      | .packetsSent => 1
      | .bytesSent => len % 65536
      | _ => 0) (fun c a => ?_) rfl (fun c => ?_)
    · cases c <;> rfl
    · cases c <;> rfl
  | enxio =>
    have hlog : Balanced st { st with
        sent := st.sent ++ [sentOf sender st.groups (st.intn i) packet (len % 65536)] } :=
      balanced_of_ints rfl fun c => by cases c <;> rfl
    exact hlog.trans (intDestroy_balanced _ i)
  | failed => exact balanced_of_ints rfl fun c => by cases c <;> rfl

/-- The ICMPv6 messages are counted at both as well. -/
theorem countIcmpSent_balanced (st : Conf) (i : Nat) : Balanced st (countIcmpSent st i) := by
  refine balanced_count (i := i) (d := fun c => match c with
    | .icmpSent => 1
    | _ => 0) (fun c a => ?_) rfl (fun c => ?_)
  · cases c <;> rfl
  · cases c <;> rfl

/-- New slots have counted nothing. -/
theorem intGrow_balanced (st : Conf) (ifindex : Nat) : Balanced st (intGrow st ifindex) := by
  intro c
  refine ⟨0, ?_, by cases c <;> rfl⟩
  have hzero : c.ofInt IntNode.zero = 0 := by cases c <;> rfl
  simp [Counter.total, intGrow, hzero]

/-- `int_create` clears the slot of the interface. -/
theorem intCreate_balanced (st : Conf) (ifindex : Nat) (probe : IfProbe) :
    Balanced st (intCreate st ifindex probe).1 := by
  have hgrow := intGrow_balanced st ifindex
  have hset : ∀ (s : Conf) (f : IntNode → IntNode), Balanced st s →
      (∀ c a, Counter.ofInt c (f a) ≤ c.ofInt a) → Balanced st (s.setInt ifindex f) :=
    fun s f hs hf => hs.trans (balanced_setInt s ifindex hf)
  have hid : ∀ s upstreamId, Balanced st s → Balanced st { s with upstreamId := upstreamId } :=
    fun s upstreamId hs => hs.trans (balanced_of_ints rfl fun c => by cases c <;> rfl)
  unfold intCreate intDestroy
  dsimp only
  repeat' split
  all_goals
    repeat first
      | exact hgrow
      | refine hset _ _ ?_ fun c a => by cases c <;> simp [Counter.ofInt, IntNode.zero]
      | refine hid _ _ ?_

/-- **One primitive operation** is balanced. -/
theorem prim_balanced {h : Host} {a b : Conf} (hp : Prim h a b) : Balanced a b := by
  cases hp with
  | icmp sender i packet len hm =>
    exact (sendpacket6_balanced h sender a i packet len).trans (countIcmpSent_balanced _ i)
  | forward i packet len => exact sendpacket6_balanced h .l4Ipv6Multicast a i packet len
  | table groups => exact balanced_of_ints rfl fun c => by cases c <;> rfl
  | write i f hf => exact balanced_setInt a i fun c x => Nat.le_of_eq (hf.ofInt c x)
  | create ifindex probe _ => exact intCreate_balanced a ifindex probe
  | undone ifindex probe _ =>
    exact (intCreate_balanced a ifindex probe).trans (intDestroy_balanced _ _)
  | updated now => exact balanced_of_ints rfl fun c => by cases c <;> rfl

/-- The message that comes in is counted at both. -/
theorem countIcmpReceived_balanced (st : Conf) (i : Nat) :
    Balanced st (countIcmpReceived st i) := by
  refine balanced_count (i := i) (d := fun c => match c with
    | .icmpReceived => 1
    | _ => 0) (fun c a => ?_) rfl (fun c => ?_)
  · cases c <;> rfl
  · cases c <;> rfl

/-- So is what the look at the headers counts. -/
theorem looked_balanced {st s : Conf} {i : Nat} (hl : Looked st i s) : Balanced st s := by
  have hexceeded : ∀ st, Balanced st (countHlimExceeded st) := fun st =>
    balanced_of_ints rfl fun c => by cases c <;> rfl
  cases hl with
  | nothing => exact balanced_of_ints rfl fun _ => rfl
  | icmp => exact countIcmpReceived_balanced st i
  | exceeded => exact hexceeded st
  | icmpExceeded => exact (countIcmpReceived_balanced st i).trans (hexceeded _)

/-- The sums are at most the counters of the daemon, with some room left. -/
def IntAccount (room : Counter → Nat) (st : Conf) : Prop :=
  ∀ c : Counter, c.total st + room c ≤ c.ofConf st

/-- What is balanced keeps the account, and the room in it. -/
theorem Balanced.intAccount {a b : Conf} (hb : Balanced a b) {room : Counter → Nat}
    (ha : IntAccount room a) : IntAccount room b := by
  intro c
  obtain ⟨d, ht, hc⟩ := hb c
  have := ha c
  omega

/-- The room for a frame that is counted, but not yet at its interface. -/
def frameRoom (len : Nat) : Counter → Nat
  | .packetsReceived => 1
  | .bytesReceived => len
  | _ => 0

/-- A frame is counted at the daemon first: until its interface is found there is room in the
account. -/
theorem countReceived_account {st : Conf} (hs : IntAccount (fun _ => 0) st) (len : Nat) :
    IntAccount (frameRoom len) (countReceived st len) := by
  intro c
  have := hs c
  cases c <;> simp_all [Counter.total, Counter.ofConf, countReceived, frameRoom]

/-- The interface takes up the room. -/
theorem countIntReceived_account {st : Conf} {len : Nat} (hs : IntAccount (frameRoom len) st)
    (i : Nat) : IntAccount (fun _ => 0) (countIntReceived st i len) := by
  intro c
  have hc := hs c
  have ht : c.total (countIntReceived st i len) ≤ c.total st + frameRoom len c :=
    total_setInt (fun a => by cases c <;> exact Nat.le_refl _) st i
  have hconf : c.ofConf (countIntReceived st i len) = c.ofConf st := by cases c <;> rfl
  rw [hconf]
  exact Nat.le_trans ht hc

section Groups

variable {f : GroupNode → Nat}

/-- A write to one group that adds `d` to the counter at most. -/
theorem sum_adjust_le {g : GroupNode → GroupNode} {d : Nat} (hg : ∀ a, f (g a) ≤ f a + d)
    (mca : In6Addr) : ∀ l : List GroupNode,
    ((KeyedList.adjust GroupNode.mca mca g l).map f).sum ≤ (l.map f).sum + d
  | [] => by simp [KeyedList.adjust]
  | a :: l => by
    have hhere := hg a
    have hrest := sum_adjust_le hg mca l
    rw [KeyedList.adjust]
    split <;> simp only [List.map_cons, List.sum_cons] <;> omega

/-- What is dropped takes its counter with it. -/
theorem sum_filterMap_le {g : GroupNode → Option GroupNode} (hg : ∀ a b, g a = some b → f b = f a) :
    ∀ l : List GroupNode, ((l.filterMap g).map f).sum ≤ (l.map f).sum
  | [] => Nat.le_refl _
  | a :: l => by
    have hrest := sum_filterMap_le hg l
    cases ha : g a with
    | none =>
      rw [List.filterMap_cons_none ha]
      simp only [List.map_cons, List.sum_cons]
      omega
    | some b =>
      have := hg a b ha
      rw [List.filterMap_cons_some ha]
      simp only [List.map_cons, List.sum_cons]
      omega

/-- The counter summed up over the groups. -/
def groupTotal (f : GroupNode → Nat) (groups : Groups) : Nat := (groups.nodes.map f).sum

/-- A counter of a group that starts at zero, and that only forwarding changes. -/
structure TrafficCounter (f : GroupNode → Nat) : Prop where
  created : ∀ mca, f (groupCreate mca) = 0
  interfaces : ∀ g interfaces, f { g with interfaces := interfaces } = f g
  stamped : ∀ g t, f { g with lastforward := t } = f g

/-- A write to one group adds what it adds there. -/
theorem setGroup_total (groups : Groups) (mca : In6Addr) {g : GroupNode → GroupNode} {d : Nat}
    (hg : ∀ a, f (g a) ≤ f a + d) :
    groupTotal f (setGroup groups mca g) ≤ groupTotal f groups + d :=
  sum_adjust_le hg mca groups.nodes

theorem groupTouch_traffic (hf : TrafficCounter f) (t ifindex : Nat) (g : GroupNode) :
    f (groupTouch t ifindex g) = f g := by
  unfold groupTouch
  dsimp only
  split
  · exact hf.stamped g t
  · rw [hf.interfaces { g with lastforward := t }, hf.stamped]

/-- A new group has counted nothing. -/
theorem groupintGet_total (hf : TrafficCounter f) (t : Nat) (groups : Groups) (mca : In6Addr)
    (ifindex : Nat) : groupTotal f (groupintGet t groups mca ifindex).1 ≤ groupTotal f groups := by
  have htouch : ∀ a, f (groupTouch t ifindex a) ≤ f a + 0 := fun a =>
    Nat.le_of_eq (groupTouch_traffic hf t ifindex a)
  unfold groupintGet
  split
  · refine Nat.le_trans (setGroup_total _ mca htouch) ?_
    simp [groupTotal, listnodeAdd, hf.created]
  · exact setGroup_total groups mca htouch

/-- A join counts nothing. -/
theorem joinTable_total (hf : TrafficCounter f) (now ifindex : Nat) (groups : Groups) (j : Join) :
    groupTotal f (joinTable now ifindex groups j) ≤ groupTotal f groups :=
  Nat.le_trans (setGroup_total (d := 0) _ j.mca fun a => Nat.le_of_eq (hf.interfaces a _))
    (groupintGet_total hf now groups j.mca ifindex)

/-- What an operation on the table adds to the counter at most. -/
def TableOp.traffic (f : Nat → Nat) : TableOp → Nat
  | .count _ len => f len
  | _ => 0

/-- **One operation** on the table adds its traffic, and the sweep can only take away. -/
theorem apply_total (hf : TrafficCounter f) {d : Nat → Nat}
    (hd : ∀ len a, f (countGroup len a) ≤ f a + d len) (now : Nat) (op : TableOp)
    (groups : Groups) :
    groupTotal f (op.apply now groups) ≤ groupTotal f groups + op.traffic d := by
  cases op with
  | keep => exact Nat.le_refl _
  | count dst len => exact setGroup_total groups dst (hd len)
  | refresh ifindex joins =>
    simp only [TableOp.apply, TableOp.traffic, Nat.add_zero]
    induction joins generalizing groups with
    | nil => exact Nat.le_refl _
    | cons j joins ih => exact Nat.le_trans (ih _) (joinTable_total hf now ifindex groups j)
  | reduce mca ifindex =>
    exact setGroup_total groups mca fun a => Nat.le_of_eq (hf.interfaces a _)
  | sweep =>
    unfold TableOp.apply groupTotal
    rw [listLoop2_nodes]
    refine sum_filterMap_le (fun a b hb => ?_) groups.nodes
    unfold timeoutGroup at hb
    dsimp only at hb
    split at hb
    · cases hb
    · obtain rfl := Option.some.inj hb
      exact hf.interfaces a _

end Groups

/-! ### Only frames are counted for a group -/

/-- A packet that is forwarded counts once. -/
theorem multicastOp_traffic (d : Nat → Nat) (iph : Mem) (len : Nat) :
    (multicastOp iph len).traffic d ≤ d len := by
  unfold multicastOp
  split
  · exact Nat.zero_le _
  · exact Nat.le_refl _

section Traffic

variable (d : Nat → Nat)

@[simp] theorem keep_traffic : TableOp.keep.traffic d = 0 := rfl

@[simp] theorem refresh_traffic (ifindex : Nat) (joins : List Join) :
    (TableOp.refresh ifindex joins).traffic d = 0 := rfl

@[simp] theorem reduce_traffic (mca : In6Addr) (ifindex : Nat) :
    (TableOp.reduce mca ifindex).traffic d = 0 := rfl

end Traffic

@[simp] theorem mld2Op_traffic (d : Nat → Nat) (e : Endian) (ifindex : Nat) (mld2r : Mem)
    (plen : Nat) :
    (mld2Op e ifindex mld2r plen).traffic d = 0 := by
  unfold mld2Op
  dsimp only
  split <;> rfl

/-- An ICMPv6 message counts if it is an echo that is forwarded. -/
theorem icmpv6Op_traffic (d : Nat → Nat) (e : Endian) (ifindex : Nat) (iph : Mem)
    (len off plen : Nat) : (icmpv6Op e ifindex iph len off plen).traffic d ≤ d len := by
  unfold icmpv6Op
  dsimp only
  split
  · simp
  · split
    · split
      · simp
      · exact multicastOp_traffic d _ len
    · -- no MLD message is counted for its group
      repeat' split
      all_goals simp

/-- **A packet** counts at most once. -/
theorem l3Op_traffic (d : Nat → Nat) (e : Endian) (intn : IntNode) (iph : Mem) (len : Nat) :
    (l3Op e intn iph len).traffic d ≤ d len := by
  unfold l3Op
  dsimp only
  split
  · simp
  · split
    · simp
    · split
      · simp
      · split
        · exact icmpv6Op_traffic d e _ iph len _ _
        · split
          · split
            · simp
            · exact multicastOp_traffic d _ len
          · simp

/-- **An event** counts for a group only what was counted as received. -/
theorem tableOp_traffic (d : Nat → Nat) (h : Host) (st : Conf) (ev : Event) :
    (tableOp h st ev).traffic d ≤ if ev.counted then d ev.bytes else 0 := by
  cases ev with
  | frame now f =>
    have hop : tableOp h st (.frame now f) = frameOp h now st f := rfl
    rw [hop]
    unfold frameOp
    by_cases hskip : f.hatype = arphrdLoopback ∨ f.outgoing
    · rw [if_pos hskip]
      exact Nat.zero_le _
    · have hc : (Event.frame now f).counted = true := by simpa [Event.counted] using hskip
      rw [if_neg hskip, if_pos hc]
      -- `bufferlen` is less than 65536
      have hlen : min f.len bufferlen % 65536 = min f.len bufferlen :=
        Nat.mod_eq_of_lt (Nat.lt_of_le_of_lt (Nat.min_le_right _ _) (by decide))
      split
      · exact Nat.zero_le _
      · split
        · rw [hlen]
          exact l3Op_traffic d _ _ _ _
        · exact Nat.zero_le _
  | _ => exact Nat.zero_le _

end Ecmh
