/-
# A network of daemons

Any number of daemons, and the packets that are on the links between them.  A packet stays where it
is, so that it may be delivered any number of times, to every daemon that shares a link, in any
order, and late; a daemon's own state may change in between.  Links are not named: any packet may be
delivered to any daemon on any interface, and the runs over a given topology are among these.

The receive buffer is not cleared between packets: behind the bytes of the packet a daemon finds
what it received before.
-/
import Ecmh.OnLink
import Ecmh.Sends
import Mathlib.Logic.Function.Basic

namespace Ecmh

open ByteMem

/-! ## 1. What a daemon does with a packet it may forward

A packet that a daemon receives is forwarded, answered with an ICMPv6 error, or made the reason
for messages of the daemon's own.  Which of them can be told from the packet. -/

section Dissect

variable {e : Endian} {intn : IntNode} {iph : Mem} {len : Nat}

/-- A packet to forward, as it was received and as it is passed on. -/
structure MayForward (iph iph' : Mem) : Prop where
  way : OnItsWay iph iph'
  alive : iph' ip6Hlim ≠ 0

/-- An echo request of another node whose hop limit runs out here. -/
structure MayAnswer (e : Endian) (intn : IntNode) (iph : Mem) (len off plen : Nat) : Prop where
  multicast : in6IsAddrMulticast (readAddr iph ip6Dst) = true
  foreign : ¬ (readAddr iph ip6Src = intn.linklocal ∨ readAddr iph ip6Src = intn.global)
  walk : headerWalk e iph len = some (ipprotoIcmpv6, off, plen)
  echo : iph off = icmp6EchoRequest
  hlim : (iph ip6Hlim).toNat ≤ 1

/-- The three messages that make a daemon send something that is no MLD message. -/
inductive Reacts (e : Endian) (intn : IntNode) (iph : Mem) (len : Nat) : Message → Prop
  | data (iph' : Mem) (h : MayForward iph iph') : Reacts e intn iph len (.data iph')
  | echo (iph' : Mem) (h : MayForward iph iph') : Reacts e intn iph len (.echo iph')
  | echoExceeded (iph' : Mem) (off plen : Nat) (h : MayAnswer e intn iph len off plen) :
      Reacts e intn iph len (.echoExceeded iph' off plen)
  | mld (m : Message) (h : ∀ h st i x, m.Sends h st i len x → MldSent st.mld1only st.mld2only x) :
      Reacts e intn iph len m

theorem icmpv6Message_reacts {off plen : Nat}
    (hdst : in6IsAddrMulticast (readAddr iph ip6Dst) = true)
    (hown : ¬ (readAddr iph ip6Src = intn.linklocal ∨ readAddr iph ip6Src = intn.global))
    (hw : headerWalk e iph len = some (ipprotoIcmpv6, off, plen)) :
    Reacts e intn iph len (icmpv6Message e iph off plen) := by
  have hway := onItsWay_echo e iph (headerWalk_off hw) plen
  unfold icmpv6Message
  dsimp only
  split
  · exact .mld _ fun _ _ _ _ hx => hx
  · split
    · rename_i hecho
      split
      · rename_i hz
        refine .echoExceeded _ off plen ⟨hdst, hown, hw, hecho, ?_⟩
        have hlim := hway.hlim
        rw [hz] at hlim
        simp only [UInt8.toNat_zero] at hlim
        omega
      · rename_i hz
        exact .echo _ ⟨hway, hz⟩
    · split
      · exact .mld _ fun _ _ _ _ hx => hx
      · split
        · exact .mld _ fun _ _ _ _ hx => hx
        · split
          · exact .mld _ fun _ _ _ _ hx => hx
          · split
            · exact .mld _ fun _ _ _ _ hx => hx
            · split
              · exact .mld _ fun _ _ _ _ hx => hx
              · exact .mld _ fun _ _ _ _ hx => hx

theorem l3Message_reacts (e : Endian) (intn : IntNode) (iph : Mem) (len : Nat) :
    Reacts e intn iph len (l3Message e intn iph len) := by
  unfold l3Message
  dsimp only
  split
  · exact .mld _ fun _ _ _ _ hx => hx
  · rename_i hdst
    rw [Bool.not_eq_true', Bool.not_eq_false] at hdst
    split
    · exact .mld _ fun _ _ _ _ hx => hx
    · rename_i hown
      cases hw : headerWalk e iph len with
      | none => exact .mld _ fun _ _ _ _ hx => hx
      | some w =>
        obtain ⟨type, off, plen⟩ := w
        dsimp only
        split
        · rename_i ht
          rw [ht] at hw
          exact icmpv6Message_reacts hdst hown hw
        · split
          · exact .mld _ fun _ _ _ _ hx => hx
          · rename_i hz
            exact .data _ ⟨onItsWay_data iph, hz⟩

/-- An ICMPv6 message behind the IPv6 header of a type that is not wanted is dropped or ignored. -/
theorem l3Message_unwanted (hnxt : iph ip6Nxt = ipprotoIcmpv6)
    (htype : icmpv6Wanted (iph 40) = false) :
    l3Message e intn iph len = .dropped ∨ l3Message e intn iph len = .ignored := by
  have hwalk : headerWalk e iph len
      = some (ipprotoIcmpv6, 40, e.htons (e.load16 iph ip6Plen)) := by
    rw [headerWalk, skipHeaders, hnxt]
    rfl
  unfold l3Message
  dsimp only
  rw [hwalk]
  split
  · exact Or.inl rfl
  · split
    · exact Or.inl rfl
    · right
      dsimp only
      rw [if_pos rfl, icmpv6Message, htype]
      rfl

end Dissect

/-- What is sent for a frame is sent for the message in it. -/
theorem frame_sends (h : Host) (now : Nat) (st : Conf) (f : Frame) :
    AllSent (fun x => ∃ (st1 s : Conf) (i : Nat), f.Enters now st st1 i ∧
      (l3Message h.endian (st1.intn i) f.buffer (min f.len bufferlen)).Sends h s i
        (min f.len bufferlen) x) st (handleinterfaces h now st f) := by
  rcases frame_cases h now st f with ⟨st1, i, henters, he⟩ | ⟨-, hsent, -⟩
  · rw [he]
    have hsent : (countIntReceived st1 i (min f.len bufferlen)).sent = st.sent := henters.sent
    refine ((handle_sends h now _ i _ _).congr (hsent.symm : st.sent = _) rfl).mono ?_
    intro x hx
    exact ⟨st1, _, i, henters, hx⟩
  · exact .of_eq hsent

/-! ## 2. The network

The hop limit of a copy is that of the packet less the number of daemons that forwarded it.  To
say so, a packet carries where it comes from and that number. -/

/-- Where a packet comes from: it was injected with this hop limit, a daemon made it in answer to
another packet, or a daemon made it on its own account. -/
inductive Origin
  | injected (hlim : Nat)
  | answer
  | own
  deriving DecidableEq

/-- A packet on a link, with its origin and the number of daemons that have forwarded it. -/
structure Flying where
  packet : List UInt8
  origin : Origin
  hops : Nat
  deriving DecidableEq

/-- `ip6_hlim`. -/
def Flying.hlim (p : Flying) : Nat := (p.packet.getD ip6Hlim 0).toNat

/-- What a daemon sends on the receipt of a packet: a copy of it, an answer, or MLD messages. -/
def Flying.next (p : Flying) (x : Sent) : Flying :=
  match x.sender with
  | .l4Ipv6Multicast => ⟨x.packet, p.origin, p.hops + 1⟩
  | .icmp6Send => ⟨x.packet, .answer, 0⟩
  | _ => ⟨x.packet, .own, 0⟩

/-- The daemons, and the packets on the links. -/
structure Net (ι : Type) where
  conf : ι → Conf
  flying : List Flying

/-- A packet is put on a link by somebody else, one that is there is delivered in a frame, or the
state of a daemon changes for another reason. -/
inductive NetEvent (ι : Type)
  | inject (packet : List UInt8)
  | deliver (k : Nat) (d : ι) (now : Nat) (f : Frame)
  | change (d : ι) (st : Conf)

/-- The frame has the packet at the front of the receive buffer. -/
def Frame.brings (f : Frame) (p : Flying) : Prop :=
  f.len = p.packet.length ∧ f.buffer.read 0 p.packet.length = p.packet

instance (f : Frame) (p : Flying) : Decidable (f.brings p) := inferInstanceAs (Decidable (_ ∧ _))

variable {ι : Type}

/-- The network after an event. -/
def netStep [DecidableEq ι] (hosts : ι → Host) (s : Net ι) : NetEvent ι → Net ι
  | .inject packet =>
    -- an IPv6 packet has a whole header
    if 40 ≤ packet.length then
      { s with flying := s.flying
          ++ [⟨packet, .injected (packet.getD ip6Hlim 0).toNat, 0⟩] }
    else s
  | .deliver k d now f =>
    match s.flying[k]? with
    | none => s
    | some p =>
      if f.brings p then
        let st := handleinterfaces (hosts d) now (s.conf d) f
        { conf := Function.update s.conf d st
          flying := s.flying ++ (newSent (s.conf d) st).map p.next }
      else s
  | .change d st => { s with conf := Function.update s.conf d st }

/-- What is to be true of a packet: of an injected one that the hop limit counts the daemons it has
passed and is not used up, and of an answer that no daemon has forwarded it. -/
def Flying.DiesOut (p : Flying) : Prop :=
  match p.origin with
  | .injected h => (1 ≤ p.hops → p.hlim = h - p.hops ∧ 1 ≤ h - p.hops) ∧ p.hops ≤ h - 1
  | .answer => p.hops = 0
  | .own => True

def LoopsDieOut (s : Net ι) : Prop := ∀ p ∈ s.flying, p.DiesOut

/-- The same without the answers. -/
def CopiesDieOut (s : Net ι) : Prop := ∀ p ∈ s.flying, p.origin ≠ .answer → p.DiesOut

/-- An echo request that is answered has a payload length for which the answer is sent with its
ICMPv6 type in it: not zero, and so small that the length of the answer fits sixteen bits. -/
def AnswerFits (hosts : ι → Host) (s : Net ι) : NetEvent ι → Prop
  | .deliver _ d now f => ∀ st1 i off plen, f.Enters now (s.conf d) st1 i →
    MayAnswer (hosts d).endian (st1.intn i) f.buffer (min f.len bufferlen) off plen →
    1 ≤ plen ∧ plen ≤ 65495
  | _ => True

/-! ## 3. One packet

`Counts` and `Answers` are about a packet on its own, so that the state of the network is left
out of the arithmetic. -/

/-- An injected packet and its copies. -/
structure Counts (p : Flying) : Prop where
  header : 40 ≤ p.packet.length
  hlim : ∀ h, p.origin = .injected h → p.hlim + p.hops = h
  alive : ∀ h, p.origin = .injected h → 1 ≤ p.hops → 1 ≤ p.hlim

theorem Counts.diesOut {p : Flying} {h : Nat} (hp : Counts p) (ho : p.origin = .injected h) :
    p.DiesOut := by
  have hsum := hp.hlim h ho
  have halive := hp.alive h ho
  unfold Flying.DiesOut
  rw [ho]
  dsimp only
  refine ⟨?_, ?_⟩
  · intro h1
    have := halive h1
    omega
  · by_cases h0 : p.hops = 0
    · omega
    · have := halive (by omega)
      omega

/-- What is on the links, without the answers and the daemons' own packets. -/
def NetCounts (s : Net ι) : Prop := ∀ p ∈ s.flying, ∀ h, p.origin = .injected h → Counts p

/-- An answer has its next header and its type in it, and has not been forwarded. -/
structure Answers (p : Flying) : Prop where
  hops : p.hops = 0
  long : 41 ≤ p.packet.length
  nxt : p.packet.getD ip6Nxt 0 = ipprotoIcmpv6
  type : p.packet.getD 40 0 = icmp6EchoReply

def NetAnswers (s : Net ι) : Prop := ∀ p ∈ s.flying, p.origin = .answer → Answers p

/-- The bytes of a packet in the buffer. -/
theorem Frame.brings.apply {f : Frame} {p : Flying} (hf : f.brings p) {k : Nat}
    (hk : k < p.packet.length) : f.buffer k = p.packet.getD k 0 := by
  have := @Mem.apply_of_read _ 0 _ hf.2 k hk
  rwa [Nat.zero_add] at this

/-- A copy of a packet has one hop more, and a hop limit less by one. -/
theorem Counts.copy {f : Frame} {p : Flying} (hf : f.brings p) (hp : Counts p) {iph : Mem}
    (hm : MayForward f.buffer iph) {x : Sent} (hs : x.sender = .l4Ipv6Multicast)
    (hx : x.packet = iph.read 0 (min f.len bufferlen % 65536)) : Counts (p.next x) := by
  have hnext : p.next x = ⟨x.packet, p.origin, p.hops + 1⟩ := by rw [Flying.next, hs]
  have hheader := hp.header
  have hlen : 40 ≤ min f.len bufferlen % 65536 := by
    rw [hf.1]
    simp only [bufferlen]
    omega
  have hlim : (p.next x).hlim = p.hlim - 1 ∧ 1 ≤ (p.next x).hlim := by
    have hbyte : (p.next x).hlim = (iph ip6Hlim).toNat := by
      rw [hnext, Flying.hlim, hx, Mem.getD_read iph (by simp only [ip6Hlim]; omega), Nat.zero_add]
    have hold : p.hlim = (f.buffer ip6Hlim).toNat := by
      rw [hf.apply (by simp only [ip6Hlim]; omega), Flying.hlim]
    refine ⟨by rw [hbyte, hm.way.hlim, hold], ?_⟩
    rw [hbyte]
    by_contra hz
    exact hm.alive (UInt8.toNat_inj.mp (by rw [UInt8.toNat_zero]; omega))
  refine ⟨?_, ?_, fun _ _ _ => hlim.2⟩
  · rw [hnext]
    dsimp only
    rw [hx, Mem.length_read]
    exact hlen
  · intro h ho
    have hsum := hp.hlim h (by rw [hnext] at ho; exact ho)
    have hhops : (p.next x).hops = p.hops + 1 := by rw [hnext]
    omega

/-- The two bytes by which an answer is told. -/
theorem icmp6Packet_bytes (h : Host) (global src : In6Addr) (type code : UInt8) (data : Mem)
    (dlen : Nat) : icmp6Packet h global src type code data dlen ip6Nxt = ipprotoIcmpv6 ∧
      icmp6Packet h global src type code data dlen 40 = type := by
  have hdst : ip6Dst + src.s6Addr.length = 40 := by rw [src.size]; rfl
  have hsrc : ip6Src + global.s6Addr.length = 24 := by rw [global.size]; rfl
  unfold icmp6Packet
  constructor
  · rw [Endian.store16_apply_ne _ _ _ (Or.inl (by decide)), Mem.write_apply_of_lt _ _ (by decide),
      Mem.write_apply_of_lt _ _ (by decide), Mem.write_apply_of_lt _ _ (by decide),
      Mem.write_apply_of_lt _ _ (by decide), Mem.write_apply_of_lt _ _ (by decide)]
    exact Mem.write_apply_at _ ip6Nxt (i := 0) [ipprotoIcmpv6] (by simp)
  · rw [Endian.store16_apply_ne _ _ _ (Or.inl (by decide)), Mem.write_apply_of_lt _ _ (by decide)]
    exact Mem.write_apply_at _ 40 (i := 0) [type, code] (by simp)

/-- The answer to an echo request of this length. -/
theorem answers_of_fits {h : Host} {global src : In6Addr} {data : Mem} {plen : Nat}
    (h1 : 1 ≤ plen) (h2 : plen ≤ 65495) {x : Sent}
    (hx : x.packet = (icmp6Packet h global src icmp6EchoReply icmp6TimeExceedTransit data
      (echoLength plen)).read 0 ((echoLength plen + 44) % 65536)) :
    Answers ⟨x.packet, .answer, 0⟩ := by
  obtain ⟨hnxt, htype⟩ := icmp6Packet_bytes h global src icmp6EchoReply icmp6TimeExceedTransit data
    (echoLength plen)
  have hlen : 41 ≤ (echoLength plen + 44) % 65536 := by
    unfold echoLength
    omega
  refine ⟨rfl, ?_, ?_, ?_⟩
  · dsimp only
    rw [hx, Mem.length_read]
    exact hlen
  · dsimp only
    rw [hx, Mem.getD_read _ (by simp only [ip6Nxt]; omega), Nat.zero_add]
    exact hnxt
  · dsimp only
    rw [hx, Mem.getD_read _ (by omega), Nat.zero_add]
    exact htype

/-- An answer that is delivered is ignored. -/
theorem Answers.unwanted {f : Frame} {p : Flying} (hf : f.brings p) (hp : Answers p) (e : Endian)
    (intn : IntNode) (len : Nat) : l3Message e intn f.buffer len = .dropped ∨
      l3Message e intn f.buffer len = .ignored := by
  have hlong := hp.long
  refine l3Message_unwanted ?_ ?_
  · rw [hf.apply (by simp only [ip6Nxt]; omega)]
    exact hp.nxt
  · rw [hf.apply (by omega), hp.type]
    rfl

/-! ## 4. One event

An event puts an injected packet on the links, or what a daemon sends in answer to a packet that
is there. -/

section Step

variable [DecidableEq ι] {hosts : ι → Host} {s : Net ι}

/-- What an event puts on the links: an injected packet, or what a daemon sends on receipt. -/
inductive Puts (hosts : ι → Host) (s : Net ι) : NetEvent ι → Flying → Prop
  | injected (packet : List UInt8) (h : 40 ≤ packet.length) : Puts hosts s (.inject packet)
      ⟨packet, .injected (packet.getD ip6Hlim 0).toNat, 0⟩
  | sent (k : Nat) (d : ι) (now : Nat) (f : Frame) (p : Flying) (hp : p ∈ s.flying)
      (hf : f.brings p) (st1 st : Conf) (i : Nat) (x : Sent)
      (hin : f.Enters now (s.conf d) st1 i)
      (hx : (l3Message (hosts d).endian (st1.intn i) f.buffer (min f.len bufferlen)).Sends (hosts d)
        st i (min f.len bufferlen) x) : Puts hosts s (.deliver k d now f) (p.next x)

theorem netStep_flying (ev : NetEvent ι) {q : Flying} (hq : q ∈ (netStep hosts s ev).flying) :
    q ∈ s.flying ∨ Puts hosts s ev q := by
  cases ev with
  | inject packet =>
    simp only [netStep] at hq
    split at hq
    · rename_i h
      rcases List.mem_append.mp hq with hq | hq
      · exact Or.inl hq
      · rw [List.mem_singleton.mp hq]
        exact Or.inr (.injected packet h)
    · exact Or.inl hq
  | deliver k d now f =>
    simp only [netStep] at hq
    split at hq
    · exact Or.inl hq
    · rename_i p hp
      split at hq
      · rename_i hf
        rcases List.mem_append.mp hq with hq | hq
        · exact Or.inl hq
        · obtain ⟨x, hx, rfl⟩ := List.mem_map.mp hq
          obtain ⟨st1, st, i, hin, hsends⟩ := (frame_sends (hosts d) now (s.conf d) f).forall x hx
          exact Or.inr (.sent k d now f p (List.mem_of_getElem? hp) hf st1 st i x hin hsends)
      · exact Or.inl hq
  | change d st => exact Or.inl hq

/-- Whatever is delivered to whom: the hop limits go on counting. -/
theorem netStep_counts (hs : NetCounts s) (ev : NetEvent ι) : NetCounts (netStep hosts s ev) := by
  intro q hq h ho
  rcases netStep_flying ev hq with hold | hnew
  · exact hs q hold h ho
  · cases hnew with
    | injected packet hlen =>
      refine ⟨hlen, ?_, fun _ _ hc => absurd hc (Nat.not_succ_le_zero 0)⟩
      intro h' ho'
      cases ho'
      rfl
    | sent k d now f p hp hf st1 st i x hin hx =>
      have hreacts := l3Message_reacts (hosts d).endian (st1.intn i) f.buffer (min f.len bufferlen)
      generalize l3Message (hosts d).endian (st1.intn i) f.buffer (min f.len bufferlen) = m
        at hx hreacts
      have hcopy : ∀ iph, MayForward f.buffer iph → x.sender = .l4Ipv6Multicast ∧
          x.packet = iph.read 0 (min f.len bufferlen % 65536) → Counts (p.next x) := by
        intro iph hm hx
        have hpo : p.origin = .injected h := by
          rw [Flying.next, hx.1] at ho
          exact ho
        exact (hs p hp h hpo).copy hf hm hx.1 hx.2
      cases hreacts with
      | data iph hm => exact hcopy iph hm hx
      | echo iph hm => exact hcopy iph hm hx
      | echoExceeded iph off plen hm =>
        rw [Flying.next, hx.1] at ho
        cases ho
      | mld m hmld =>
        have hsent := hmld _ _ _ _ hx
        unfold Flying.next at ho
        split at ho
        · rename_i hsender
          exact absurd hsender hsent.multicast
        · cases ho
        · cases ho

/-- Answers go on not being forwarded, where the answers that are made are whole. -/
theorem netStep_answers (hs : NetAnswers s) {ev : NetEvent ι} (hfits : AnswerFits hosts s ev) :
    NetAnswers (netStep hosts s ev) := by
  intro q hq ho
  rcases netStep_flying ev hq with hold | hnew
  · exact hs q hold ho
  · cases hnew with
    | injected packet hlen => cases ho
    | sent k d now f p hp hf st1 st i x hin hx =>
      -- a copy of an answer would be one of a packet that is not ignored
      have hno : x.sender = .l4Ipv6Multicast → p.origin = .answer → False := by
        intro hsender hpo
        have hunwanted := (hs p hp hpo).unwanted hf (hosts d).endian (st1.intn i)
          (min f.len bufferlen)
        rcases hunwanted with hm | hm
        · rw [hm] at hx
          exact MldSent.multicast hx hsender
        · rw [hm] at hx
          exact MldSent.multicast hx hsender
      have hreacts := l3Message_reacts (hosts d).endian (st1.intn i) f.buffer (min f.len bufferlen)
      generalize l3Message (hosts d).endian (st1.intn i) f.buffer (min f.len bufferlen) = m
        at hx hreacts
      cases hreacts with
      | data iph hm =>
        rw [Flying.next, hx.1] at ho
        exact (hno hx.1 ho).elim
      | echo iph hm =>
        rw [Flying.next, hx.1] at ho
        exact (hno hx.1 ho).elim
      | echoExceeded iph off plen hm =>
        obtain ⟨h1, h2⟩ := hfits st1 i off plen hin hm
        rw [Flying.next, hx.1]
        exact answers_of_fits h1 h2 hx.2
      | mld m hmld =>
        have hsent := hmld _ _ _ _ hx
        unfold Flying.next at ho
        split at ho
        · rename_i hsender
          exact absurd hsender hsent.multicast
        · rename_i hsender
          exact absurd hsender hsent.icmp6
        · cases ho

end Step

/-! ## 5. Runs -/

theorem NetCounts.copiesDieOut {s : Net ι} (hs : NetCounts s) : CopiesDieOut s := by
  intro p hp hne
  cases ho : p.origin with
  | injected h => exact (hs p hp h ho).diesOut ho
  | answer => exact absurd ho hne
  | own =>
    unfold Flying.DiesOut
    rw [ho]
    trivial

theorem NetAnswers.loopsDieOut {s : Net ι} (hs : NetAnswers s) (hcopies : CopiesDieOut s) :
    LoopsDieOut s := by
  intro p hp
  by_cases ho : p.origin = .answer
  · have hhops := (hs p hp ho).hops
    unfold Flying.DiesOut
    rw [ho]
    exact hhops
  · exact hcopies p hp ho

/-- **Forwarding loops die out.**  In every run of every network the hop limit of each copy counts
the daemons that it has passed, and is not used up; and no daemon forwards the answer of another, if
every echo request that is answered has a length that fits. -/
theorem forwarding_loops_die_out [DecidableEq ι] (hosts : ι → Host) (conf : ι → Conf)
    (es : List (NetEvent ι)) :
    Runs.Always (netStep hosts) CopiesDieOut ⟨conf, []⟩ es ∧
    (Runs.StepsMeet (netStep hosts) (AnswerFits hosts) ⟨conf, []⟩ es →
      Runs.Always (netStep hosts) LoopsDieOut ⟨conf, []⟩ es) := by
  have hcounts : NetCounts (⟨conf, []⟩ : Net ι) := fun p hp => by cases hp
  have hanswers : NetAnswers (⟨conf, []⟩ : Net ι) := fun p hp => by cases hp
  constructor
  · have hall := Runs.always_of_stepsMeet (P := NetCounts) (Q := fun _ _ => True)
      (fun s ev hs _ => (netStep_counts hs ev : NetCounts (netStep hosts s ev))) es _ hcounts
      (Runs.stepsMeet_true _ es)
    exact fun pre post he => (hall pre post he).copiesDieOut
  · intro hfits
    have hall := Runs.always_of_stepsMeet (P := fun s => NetCounts s ∧ NetAnswers s)
      (fun s ev hs hq => ⟨(netStep_counts hs.1 ev : NetCounts (netStep hosts s ev)),
        netStep_answers hs.2 hq⟩) es _ ⟨hcounts, hanswers⟩ hfits
    exact fun pre post he => (hall pre post he).2.loopsDieOut (hall pre post he).1.copiesDieOut

/-- A daemon whose interface has a global address. -/
def globalInt : Conf :=
  run (quietHost .little) (boot (quietHost .little) plainOptions 0 none)
    [.timeout 300 (some [⟨1, true, true, false, some .inet6, globalHost 2, ethernetProbe⟩])]

/-- That daemon, and one with a listener for `ff05::1` behind it. -/
def twoDaemons : Bool → Conf
  | false => globalInt
  | true => stateTwoLinks

/-- An echo request with hop limit 1 and this payload length in the header, which claims to come
from `ff05::1`. -/
def echoFrom (plen : Nat) : List UInt8 :=
  [0x60, 0, 0, 0] ++ be16 plen ++ [ipprotoIcmpv6, 1] ++ siteGroup.s6Addr ++
    (linkScope 1).s6Addr ++ [128, 0, 0, 0, 0, 0, 0, 0]

/-- A frame with the packet, and with other bytes behind it in the buffer. -/
def staleFrame (ifindex : Nat) (packet stale : List UInt8) : Frame :=
  { ethernetFrame ifindex packet with buffer := Mem.ofList (packet ++ stale) }

/-- The answer to an echo request of eight bytes is not forwarded. -/
theorem echo_dies_out : Runs.Always (netStep fun _ : Bool => quietHost .little) LoopsDieOut
    ⟨twoDaemons, []⟩
    [.inject (echoFrom 8), .deliver 0 false 400 (ethernetFrame 1 (echoFrom 8))] := by
  refine (forwarding_loops_die_out (fun _ : Bool => quietHost .little) twoDaemons _).2 ?_
  refine Runs.stepsMeet_cons.mpr ⟨trivial, Runs.stepsMeet_cons.mpr ⟨?_, Runs.stepsMeet_nil _ _⟩⟩
  intro st1 i off plen _ hm
  have hwalk : headerWalk .little (ethernetFrame 1 (echoFrom 8)).buffer
      (min (ethernetFrame 1 (echoFrom 8)).len bufferlen) = some (ipprotoIcmpv6, 40, 8) := by
    decide +kernel
  have hplen : plen = 8 := by
    have := hwalk.symm.trans hm.walk
    simp only [Option.some.injEq, Prod.mk.injEq] at this
    exact this.2.2.symm
  omega

/-- The answer to an echo request of no bytes ends before its type, and where the buffer holds the
type of an echo request behind it, the next daemon forwards it. -/
theorem short_answer_forwarded : ¬ Runs.Always (netStep fun _ : Bool => quietHost .little)
    LoopsDieOut ⟨twoDaemons, []⟩ [.inject (echoFrom 0),
      .deliver 0 false 400 (ethernetFrame 1 (echoFrom 0)),
      .deliver 1 true 401 (staleFrame 2 (([0x60, 0, 0, 0, 0, 0, 58, 64] : List UInt8) ++
        (globalHost 2).s6Addr ++ siteGroup.s6Addr) [128, 0, 0, 0, 0, 0, 0, 0])] := by
  intro hall
  have hforwarded : ∃ p ∈ (Runs.run (netStep fun _ : Bool => quietHost .little) ⟨twoDaemons, []⟩
      [.inject (echoFrom 0), .deliver 0 false 400 (ethernetFrame 1 (echoFrom 0)),
        .deliver 1 true 401 (staleFrame 2 (([0x60, 0, 0, 0, 0, 0, 58, 64] : List UInt8) ++
          (globalHost 2).s6Addr ++ siteGroup.s6Addr) [128, 0, 0, 0, 0, 0, 0, 0])]).flying,
      p.origin = .answer ∧ p.hops = 1 := by decide +kernel
  obtain ⟨p, hp, ho, hhops⟩ := hforwarded
  have hdies := hall.last p hp
  unfold Flying.DiesOut at hdies
  rw [ho] at hdies
  exact absurd (hhops.symm.trans hdies) (by decide)

end Ecmh
