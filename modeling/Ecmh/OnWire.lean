/-
# What the packets announce

`Sender` tells what a function meant to send, which nobody sees who gets the packet.  `Announced`
reads it off the bytes: an MLDv1 report names its group, and an MLDv2 report decodes to records.

An MLDv1 report announces the group that it is sent for, and queries, answers to echo requests and
forwarded packets announce nothing (`step_onWire`).  An MLDv2 report announces what was meant where
all steps of the call write where they should; `EventLaysOut` says so of every call that an event
leads to, and `step_encoded` what comes of it.
-/
import Ecmh.Network
import Ecmh.Primitive
import Ecmh.ReportCalls
import Ecmh.Understood

namespace Ecmh

open ByteMem

/-! ## 1. Reading announcements -/

/-- The group of a whole MLDv1 report with a hop-by-hop header of eight bytes. -/
def decodeMld1Report (packet : List UInt8) : Option In6Addr :=
  if packet.getD 6 0 = 0 ∧ packet.getD 40 0 = 58 ∧ packet.getD 41 0 = 0 ∧ packet.getD 48 0 = 131 ∧
      40 + ofBe16 (packet.getD 4 0) (packet.getD 5 0) = packet.length ∧ 72 ≤ packet.length then
    some (In6Addr.ofBytes ((packet.drop 56).take 16))
  else none

/-- Who gets the packet is told that there are listeners for the group. -/
def Announced (packet : List UInt8) (g : In6Addr) : Prop :=
  decodeMld1Report packet = some g ∨
    ∃ rs, decodeReport packet = some rs ∧ ∃ r ∈ rs, r.mca = g ∧ r.toGrec.Asks

/-- What every announcement begins with. -/
structure AnnouncementHead (packet : List UInt8) : Prop where
  nxt : packet.getD 6 0 = 0
  hbhNxt : packet.getD 40 0 = 58
  hbhLen : packet.getD 41 0 = 0
  type : packet.getD 48 0 = 131 ∨ packet.getD 48 0 = 143

/-- It goes on behind the type. -/
theorem AnnouncementHead.long {packet : List UInt8} (hh : AnnouncementHead packet) :
    48 < packet.length := by
  by_contra hlen
  have h48 := hh.type
  rw [List.getD_eq_getElem?_getD, List.getElem?_eq_none (Nat.le_of_not_lt hlen),
    Option.getD_none] at h48
  exact absurd h48 (by decide)

/-- The same of a packet in a buffer. -/
theorem AnnouncementHead.of_read {m : Mem} {len : Nat} (hh : AnnouncementHead (m.read 0 len)) :
    m 6 = 0 ∧ m 40 = 58 ∧ m 41 = 0 ∧ (m 48 = 131 ∨ m 48 = 143) := by
  have hlong := hh.long
  rw [Mem.length_read] at hlong
  have hget : ∀ k, k < 49 → (m.read 0 len).getD k 0 = m k := fun k hk =>
    (Mem.getD_read m (by omega)).trans (by rw [Nat.zero_add])
  obtain ⟨h6, h40, h41, h48⟩ := hh
  rw [hget _ (by omega)] at h6 h40 h41
  rw [hget _ (by omega)] at h48
  exact ⟨h6, h40, h41, h48⟩

theorem decodeMld1Report_head {packet : List UInt8} {g : In6Addr}
    (hd : decodeMld1Report packet = some g) :
    AnnouncementHead packet ∧ packet.getD 48 0 = 131 := by
  unfold decodeMld1Report at hd
  split at hd
  · rename_i hc
    exact ⟨⟨hc.1, hc.2.1, hc.2.2.1, Or.inl hc.2.2.2.1⟩, hc.2.2.2.1⟩
  · cases hd

theorem decodeReport_head {packet : List UInt8} {rs : List WireGrec}
    (hd : decodeReport packet = some rs) :
    AnnouncementHead packet ∧ packet.getD 48 0 = 143 := by
  have hhead := (decodeReport_eq_some.mp hd).1
  simp only [isReportPacket, Bool.and_eq_true, decide_eq_true_eq] at hhead
  obtain ⟨⟨⟨h6, h40⟩, h41⟩, h48⟩ := hhead
  exact ⟨⟨h6, h40, h41, Or.inr h48⟩, h48⟩

theorem Announced.head {packet : List UInt8} {g : In6Addr} (ha : Announced packet g) :
    AnnouncementHead packet := by
  rcases ha with hd | ⟨rs, hd, -⟩
  · exact (decodeMld1Report_head hd).1
  · exact (decodeReport_head hd).1

/-- A well-formed MLDv2 report announces what its records ask for. -/
theorem Encodes.announced_iff {recs : List Grec} {packet : List UInt8} (he : Encodes recs packet)
    (g : In6Addr) : Announced packet g ↔ ∃ r ∈ recs, r.grecMca = g ∧ r.Asks := by
  obtain ⟨rs, hd, rfl, -⟩ := he
  constructor
  · rintro (hc | ⟨rs', hd', r, hr, hm, hasks⟩)
    · have h131 := (decodeMld1Report_head hc).2
      rw [(decodeReport_head hd).2] at h131
      exact absurd h131 (by decide)
    · obtain rfl := Option.some.inj (hd.symm.trans hd')
      exact ⟨r.toGrec, List.mem_map_of_mem hr, hm, hasks⟩
  · rintro ⟨r', hr', hm, hasks⟩
    obtain ⟨r, hr, rfl⟩ := List.mem_map.mp hr'
    exact Or.inr ⟨rs, hd, r, hr, hm, hasks⟩

/-! ## 2. What a daemon announces in MLDv1, or not at all -/

/-- An MLDv1 report announces its group, and what is no report announces nothing.  Of MLDv2 reports
nothing is said. -/
def Sent.OnWire (x : Sent) : Prop :=
  match x.sender with
  | .mld1SendReport mca => ∀ g, Announced x.packet g ↔ g = mca
  | .mld2SendReport _ => True
  | _ => ∀ g, ¬ Announced x.packet g

theorem Sent.OnWire.mld1 {x : Sent} (hx : x.OnWire) {mca : In6Addr}
    (hs : x.sender = .mld1SendReport mca) (g : In6Addr) : Announced x.packet g ↔ g = mca := by
  unfold Sent.OnWire at hx
  rw [hs] at hx
  exact hx g

section Made

variable {p : Mem} {plen : Nat} {src dst mca : In6Addr} {type : UInt8}

/-- The bytes of an MLD message with its checksum. -/
theorem MldPacket.bytes (hp : MldPacket p plen src dst type mca) (e : Endian) (csum : Nat) :
    e.store16 p 50 csum 6 = 0 ∧ e.store16 p 50 csum 40 = 58 ∧ e.store16 p 50 csum 41 = 0 ∧
      e.store16 p 50 csum 48 = type ∧
      ofBe16 (e.store16 p 50 csum 4) (e.store16 p 50 csum 5) = plen % 65536 ∧
      (e.store16 p 50 csum).read 56 16 = mca.s6Addr := by
  have hother : ∀ k, k < 50 ∨ 52 ≤ k → e.store16 p 50 csum k = p k := fun k hk =>
    Endian.store16_apply_ne e p csum hk
  obtain ⟨h6, h40, h41, -, -, hplen⟩ := header_fields (e := .big) hp.header
  rw [Endian.htons_load16] at hplen
  refine ⟨(hother 6 (by omega)).trans h6, (hother 40 (by omega)).trans h40,
    (hother 41 (by omega)).trans h41, (hother 48 (by omega)).trans hp.type, ?_, ?_⟩
  · rw [hother 4 (by omega), hother 5 (by omega)]
    exact hplen
  · rw [Mem.read_congr fun k hk _ => hother k (by omega), ← hp.mca]
    rfl

variable {h : Host} {st : Conf} {i : Nat}

/-- A query is no announcement. -/
theorem query_announces_nothing (len : Nat) (g : In6Addr) :
    ¬ Announced ((queryPacket h st i mca).read 0 len) g := by
  intro ha
  obtain ⟨-, -, -, htype, -⟩ := (queryBody_mldPacket h st i mca).bytes h.endian
    (ipv6Checksum h.endian (queryBody h st i mca) ipprotoIcmpv6
      ((queryBody h st i mca).shift 48) (queryLength st - 48))
  rw [← queryPacket_eq] at htype
  obtain ⟨-, -, -, h48⟩ := ha.head.of_read
  rw [htype] at h48
  exact absurd h48 (by decide)

/-- A report announces its group. -/
theorem mld1Report_announces (g : In6Addr) :
    Announced ((mld1ReportPacket h st i mca).read 0 72) g ↔ g = mca := by
  obtain ⟨h6, h40, h41, h48, hplen, hmca⟩ := (mld1ReportBody_mldPacket h st i mca).bytes h.endian
    (ipv6Checksum h.endian (mld1ReportBody h st i mca) ipprotoIcmpv6
      ((mld1ReportBody h st i mca).shift 48) 24)
  rw [← mld1ReportPacket_eq] at h6 h40 h41 h48 hplen hmca
  generalize mld1ReportPacket h st i mca = m at h6 h40 h41 h48 hplen hmca
  have hget : ∀ k, k < 72 → (m.read 0 72).getD k 0 = m k := fun k hk =>
    (Mem.getD_read m hk).trans (by rw [Nat.zero_add])
  have hdecode : decodeMld1Report (m.read 0 72) = some mca := by
    have hgroup : ((m.read 0 72).drop 56).take 16 = mca.s6Addr := by
      rw [Mem.drop_read m 0 (by omega), Nat.zero_add, hmca, List.take_of_length_le (by simp)]
    unfold decodeMld1Report
    rw [hget 6 (by omega), hget 40 (by omega), hget 41 (by omega), hget 48 (by omega),
      hget 4 (by omega), hget 5 (by omega), Mem.length_read, hplen, h6, h40, h41, h48, if_pos,
      hgroup, ofBytes_s6Addr]
    decide
  constructor
  · rintro (hd | ⟨rs, hd, -⟩)
    · exact Option.some.inj (hd.symm.trans hdecode)
    · have h143 := (decodeReport_head hd).2
      rw [(decodeMld1Report_head hdecode).2] at h143
      exact absurd h143 (by decide)
  · rintro rfl
    exact Or.inl hdecode

/-- An answer to an echo request is no announcement: there is no hop-by-hop header in it. -/
theorem icmp6_announces_nothing {global : In6Addr} {type code : UInt8} {data : Mem} {dlen : Nat}
    (len : Nat) (g : In6Addr) :
    ¬ Announced ((icmp6Packet h global src type code data dlen).read 0 len) g := by
  intro ha
  have hnxt : icmp6Packet h global src type code data dlen 6 = 58 := by
    unfold icmp6Packet
    rw [Endian.store16_apply_ne _ _ _ (Or.inl (by omega)), Mem.write_apply_of_lt _ _ (by omega),
      Mem.write_apply_of_lt _ _ (by omega), Mem.write_apply_of_lt _ _ (by simp [ip6Dst]),
      Mem.write_apply_of_lt _ _ (by simp [ip6Src]), Mem.write_apply_of_lt _ _ (by simp [ip6Hlim])]
    exact Mem.write_apply_at _ 6 (i := 0) [ipprotoIcmpv6] (by simp)
  obtain ⟨h6, -⟩ := ha.head.of_read
  rw [hnxt] at h6
  exact absurd h6 (by decide)

end Made

/-! ## 3. What is forwarded -/

section Forwarded

variable {e : Endian} {intn : IntNode} {iph iph' : Mem} {len : Nat}

theorem icmpv6Message_forwards {off plen : Nat}
    (hm : icmpv6Message e iph off plen = .data iph' ∨ icmpv6Message e iph off plen = .echo iph') :
    iph off = icmp6EchoRequest ∧ ∀ k, k ≠ ip6Hlim → k < off + 2 → iph' k = iph k := by
  unfold icmpv6Message at hm
  dsimp only at hm
  by_cases hecho : iph off = icmp6EchoRequest
  · rw [hecho, if_neg (by decide), if_pos rfl] at hm
    refine ⟨hecho, fun k hk hlt => ?_⟩
    split at hm
    · rcases hm with hm | hm <;> cases hm
    · rcases hm with hm | hm
      · cases hm
      · obtain rfl := Message.echo.inj hm
        rw [decreaseHlim_other _ hk, icmpv6Rechecksum_other _ _ _ _ hlt]
  · -- no other ICMPv6 message is forwarded
    rw [if_neg hecho] at hm
    repeat' split at hm
    all_goals rcases hm with hm | hm <;> cases hm

/-- A packet that is forwarded has come through the header walk, is an echo request if it is an
ICMPv6 message, and up to the checksum of that only its hop limit has changed. -/
theorem l3Message_forwards
    (hm : l3Message e intn iph len = .data iph' ∨ l3Message e intn iph len = .echo iph') :
    ∃ type off plen, headerWalk e iph len = some (type, off, plen) ∧
      (type = ipprotoIcmpv6 → iph off = icmp6EchoRequest) ∧
      ∀ k, k ≠ ip6Hlim → k < off + 2 → iph' k = iph k := by
  unfold l3Message at hm
  dsimp only at hm
  split at hm
  · rcases hm with hm | hm <;> cases hm
  · split at hm
    · rcases hm with hm | hm <;> cases hm
    · split at hm
      · rcases hm with hm | hm <;> cases hm
      · rename_i type off plen hw
        refine ⟨type, off, plen, hw, ?_⟩
        split at hm
        · obtain ⟨hecho, hsame⟩ := icmpv6Message_forwards hm
          exact ⟨fun _ => hecho, hsame⟩
        · rename_i hne
          refine ⟨fun hc => absurd hc hne, fun k hk _ => ?_⟩
          split at hm
          · split at hm
            · rcases hm with hm | hm <;> cases hm
            · rcases hm with hm | hm
              · obtain rfl := Message.data.inj hm
                exact decreaseHlim_other iph hk
              · cases hm
          · rcases hm with hm | hm <;> cases hm

/-- The walk over a hop-by-hop header, and where it ends if that has eight bytes and an ICMPv6
message behind it. -/
theorem headerWalk_hopopts {type : UInt8} {off plen : Nat} (h6 : iph 6 = 0)
    (hw : headerWalk e iph len = some (type, off, plen)) :
    48 ≤ off ∧ (iph 40 = 58 → iph 41 = 0 → type = ipprotoIcmpv6 ∧ off = 48) := by
  have hhop : isExtHeader 0 = true := rfl
  have hicmp : ¬ isExtHeader 58 = true := by decide
  rw [headerWalk, skipHeaders, show iph ip6Nxt = 0 from h6, if_pos hhop] at hw
  dsimp only at hw
  split at hw
  · cases hw
  · rename_i hfits
    refine ⟨(by omega : 48 ≤ 40 + ((iph (40 + 1)).toNat * 8 + 8)).trans (skipHeaders_le _ _ _ _ hw),
      fun h40 h41 => ?_⟩
    obtain ⟨n, rfl⟩ : ∃ n, len = n + 1 := ⟨len - 1, by omega⟩
    rw [skipHeaders, h40, show iph (40 + 1) = 0 from h41, if_neg hicmp, Option.some.injEq,
      Prod.mk.injEq, Prod.mk.injEq] at hw
    exact ⟨hw.1.symm, hw.2.1.symm⟩

/-- **What is forwarded is no announcement**: a daemon takes every announcement for an MLD
message. -/
theorem forwarded_announces_nothing
    (hm : l3Message e intn iph len = .data iph' ∨ l3Message e intn iph len = .echo iph') (n : Nat)
    (g : In6Addr) : ¬ Announced (iph'.read 0 n) g := by
  intro ha
  obtain ⟨h6, h40, h41, h48⟩ := ha.head.of_read
  obtain ⟨type, off, plen, hw, hecho, hsame⟩ := l3Message_forwards hm
  have hoff := headerWalk_off hw
  rw [hsame 6 (by decide) (by omega)] at h6
  obtain ⟨hbehind, hends⟩ := headerWalk_hopopts h6 hw
  rw [hsame 40 (by decide) (by omega)] at h40
  rw [hsame 41 (by decide) (by omega)] at h41
  rw [hsame 48 (by decide) (by omega)] at h48
  obtain ⟨rfl, rfl⟩ := hends h40 h41
  rw [hecho rfl] at h48
  exact absurd h48 (by decide)

end Forwarded

/-! ## 4. All that a daemon sends -/

/-- What the primitive operations send, but for answers to echo requests and forwarded packets. -/
theorem prim_onWire {h : Host} {a b : Conf} (hp : Prim h a b) :
    AllSent (fun x => x.sender ≠ .icmp6Send → x.sender ≠ .l4Ipv6Multicast → x.OnWire) a b := by
  cases hp with
  | icmp sender i packet len hm =>
    refine (sendpacket6_allSent h sender a i packet len fun hicmp _ => ?_).congr rfl
      (countIcmpSent_sent _ i)
    cases sender with
    | mldSendQuery =>
      obtain ⟨mca, rfl, -⟩ := hm
      exact query_announces_nothing _
    | mld1SendReport mca =>
      obtain ⟨rfl, rfl⟩ := hm
      exact mld1Report_announces
    | mld2SendReport recs => trivial
    | icmp6Send => exact absurd rfl hicmp
    | l4Ipv6Multicast => exact hm.elim
  | forward i packet len =>
    exact sendpacket6_allSent h _ a i packet len fun _ hc => absurd rfl hc
  | table groups => exact .of_eq rfl
  | write i f hf => exact .of_eq rfl
  | create ifindex probe _ => exact .of_eq (intCreate_interfacesOnly a ifindex probe).sent
  | undone ifindex probe _ => exact .of_eq (intCreate_interfacesOnly a ifindex probe).sent
  | updated now => exact .of_eq rfl

theorem Does.onWire {h : Host} {a b : Conf} (hd : Does h a b) :
    AllSent (fun x => x.sender ≠ .icmp6Send → x.sender ≠ .l4Ipv6Multicast → x.OnWire) a b := by
  induction hd with
  | refl => exact .refl a
  | tail _ hp ih => exact ih.trans (prim_onWire hp)

section OnWire

variable {h : Host} {now : Nat} {st : Conf} {i : Nat}

theorem mldQuery_onWire (plen : Nat) :
    AllSent Sent.OnWire st (l4Ipv6Icmpv6MldQuery h now st i plen) :=
  ((mldQuery_does h now st i plen).onWire.and (mldQuery_sendsMld h now st i plen)).mono
    fun _ hx => hx.1 hx.2.icmp6 hx.2.multicast

theorem sendMldQuerys_onWire : AllSent Sent.OnWire st (sendMldQuerys h st) :=
  ((sendMldQuerys_does h st).onWire.and (sendMldQuerys_sendsMld h st)).mono
    fun _ hx => hx.1 hx.2.icmp6 hx.2.multicast

theorem mld2SendReport_onWire (mca : Option In6Addr) :
    AllSent Sent.OnWire st (mld2SendReport h st i mca) := by
  obtain ⟨new, hnew, -, hall⟩ := mld2SendReport_sent h st i mca
  refine ⟨new, hnew, fun x hx => ?_⟩
  obtain ⟨⟨recs, -, hs⟩, -⟩ := hall x hx
  unfold Sent.OnWire
  rw [hs]
  trivial

/-- What is sent for a message that was read off a packet. -/
theorem Message.Sends.onWire {e : Endian} {intn : IntNode} {iph : Mem} {len : Nat} {x : Sent}
    (hx : (l3Message e intn iph len).Sends h st i len x)
    (hprim : x.sender ≠ .icmp6Send → x.sender ≠ .l4Ipv6Multicast → x.OnWire) : x.OnWire := by
  have hforward : ∀ iph', (l3Message e intn iph len = .data iph' ∨
      l3Message e intn iph len = .echo iph') → x.sender = .l4Ipv6Multicast →
      x.packet = iph'.read 0 (len % 65536) → x.OnWire := by
    intro iph' hm hs hp
    unfold Sent.OnWire
    rw [hs, hp]
    exact forwarded_announces_nothing hm _
  have hmld : MldSent st.mld1only st.mld2only x → x.OnWire := fun hmld =>
    hprim hmld.icmp6 hmld.multicast
  cases hm : l3Message e intn iph len with
  | data iph' =>
    rw [hm] at hx
    exact hforward iph' (Or.inl hm) hx.1 hx.2
  | echo iph' =>
    rw [hm] at hx
    exact hforward iph' (Or.inr hm) hx.1 hx.2
  | echoExceeded iph' off plen =>
    rw [hm] at hx
    unfold Sent.OnWire
    rw [hx.1, hx.2]
    exact icmp6_announces_nothing _
  | _ =>
    rw [hm] at hx
    exact hmld hx

theorem handleinterfaces_onWire (f : Frame) :
    AllSent Sent.OnWire st (handleinterfaces h now st f) := by
  have hdoes : AllSent (fun x => x.sender ≠ .icmp6Send → x.sender ≠ .l4Ipv6Multicast → x.OnWire) st
      (handleinterfaces h now st f) := by
    cases handleinterfaces_does h now st f with
    | passed _ heq => exact .of_eq (congrArg Conf.sent heq)
    | lost _ hd => exact hd.onWire.congr rfl rfl
    | taken _ k s s' hi hl hd =>
      have hlooked : s'.sent = s.sent := by cases hl <;> rfl
      exact (hi.onWire.congr rfl rfl).trans (hd.onWire.congr hlooked.symm rfl)
  refine ((frame_sends h now st f).and hdoes).mono ?_
  rintro x ⟨⟨st1, s, k, -, hx⟩, hprim⟩
  exact hx.onWire hprim

/-- **All that a daemon sends but MLDv2 reports announces what it is meant to.** -/
theorem step_onWire (ev : Event) : AllSent Sent.OnWire st (step h st ev) := by
  cases ev with
  | frame now f => exact handleinterfaces_onWire f
  | timeout now ifap =>
    have hsent := (updateInterfaces_interfacesOnly now st none ifap).sent
    exact (AllSent.of_eq hsent).trans sendMldQuerys_onWire
  | sigusr2 now =>
    unfold step sigusr2
    dsimp only
    split
    · exact .refl st
    · split
      · exact .refl st
      · exact mld2SendReport_onWire none
  | create now ifindex probe =>
    unfold step
    dsimp only
    split
    · exact .refl st
    · exact .of_eq (intCreate_interfacesOnly st ifindex probe).sent
  | destroy now i => exact .of_eq (setInt_interfacesOnly st i _).sent

end OnWire

/-! ## 5. MLDv2 reports that announce what is meant -/

/-- An MLDv2 report is a well-formed encoding of the records that were meant. -/
def Sent.Encoded (x : Sent) : Prop :=
  ∀ recs, x.sender = .mld2SendReport recs → Encodes recs x.packet

/-- **A packet announces what was meant.** -/
theorem Sent.announced_iff {x : Sent} (hon : x.OnWire) (henc : x.Encoded) (g : In6Addr) :
    Announced x.packet g ↔ x.Announces g := by
  cases hs : x.sender with
  | mld1SendReport mca => rw [hon.mld1 hs, Sent.announces_mld1 hs]
  | mld2SendReport recs => rw [(henc recs hs).announced_iff, Sent.announces_mld2 hs]
  | _ =>
    have hnot : ¬ Announced x.packet g := by
      unfold Sent.OnWire at hon
      rw [hs] at hon
      exact hon g
    refine iff_of_false hnot ?_
    rintro (hc | ⟨recs, hc, -⟩) <;> simp [hs] at hc

theorem encoded_of_packets : ∀ (new : List Sent) (recss : List (List Grec)),
    new.map Sent.sender = recss.map .mld2SendReport →
    List.Forall₂ Encodes recss (new.map Sent.packet) → ∀ x ∈ new, x.Encoded
  | [], _, _, _ => fun x hx => by cases hx
  | x :: new, [], hsender, _ => by cases hsender
  | x :: new, recs :: recss, hsender, henc => by
    rw [List.map_cons, List.map_cons, List.cons.injEq] at hsender
    rw [List.map_cons, List.forall₂_cons] at henc
    refine List.forall_mem_cons.mpr
      ⟨fun recs' hs => ?_, encoded_of_packets new recss hsender.2 henc.2⟩
    obtain rfl := Sender.mld2SendReport.inj (hsender.1.symm.trans hs)
    exact henc.1

section Encoded

variable {h : Host} {st : Conf}

/-- The packets of a call that writes where it should. -/
theorem mld2SendReport_encodes {i : Nat} (hmtu : 58 ≤ (st.intn i).mtu) {mca : Option In6Addr}
    (hlay : CallLaysOut h st i mca) : AllSent Sent.Encoded st (mld2SendReport h st i mca) := by
  obtain ⟨new, hnew, hsender, -⟩ := mld2SendReport_sent h st i mca
  have henc : ReportEncoded h st i mca := report_encoded hmtu hlay
  have hpackets : callPackets h st i mca = new.map Sent.packet := by
    rw [callPackets, hnew, List.drop_left]
  rw [ReportEncoded, hpackets] at henc
  exact ⟨new, hnew, encoded_of_packets new _ (hsender (by simp only [sizeofReport]; omega)) henc⟩

/-- **All calls of `mld2_send_report` that an event leads to write where they should.** -/
def EventLaysOut (h : Host) (st : Conf) (ev : Event) : Prop := EventCalls (CallLaysOut h) h st ev

/-- **What an event makes a daemon say in MLDv2** is what is meant then. -/
theorem step_encoded (hints : IntsOk st) {ev : Event} (hlay : EventLaysOut h st ev) :
    AllSent Sent.Encoded st (step h st ev) := by
  refine step_calls ⟨fun x hx recs hs => absurd hs (hx recs), fun st i mca hints hmtu hcall => ?_⟩
    hints hlay
  have hlow := hints.mtu i hmtu
  exact mld2SendReport_encodes (by omega) hcall

end Encoded

end Ecmh
