/-
# What `l3_ipv6` touches of a frame

The walk over the extension headers compares the offset with the length of the frame, and subtracts
the lengths of the headers from the payload length that the packet gives.  It compares the one with
the other nowhere, and asks for the room of no header, so it is the sender who keeps the handlers in
the frame.  `inFrame_iff` is the exact condition.
-/
import Ecmh.HeaderChain

namespace Ecmh

open ByteMem

/-! ## 1. The rounds of the walk -/

/-- The rounds of the loop: the offset of the header, and `plen` before its length is subtracted. -/
def headerRounds (iph : Mem) (len : Nat) :
    (fuel : Nat) → (type : UInt8) → (ipe plen : Nat) → List (Nat × Nat)
  | 0, _, _, _ => []
  | fuel + 1, type, ipe, plen =>
    if isExtHeader type then
      let l := (iph (ipe + 1)).toNat * 8 + 8
      (ipe, plen) :: if ipe + l > len then [] else
        headerRounds iph len fuel (iph ipe) (ipe + l) ((plen + 65536 - l) % 65536)
    else []

/-- The rounds of the header walk of `l3_ipv6`. -/
def walkRounds (e : Endian) (iph : Mem) (len : Nat) : List (Nat × Nat) :=
  headerRounds iph len (len + 1) (iph ip6Nxt) 40 (ip6PlenOf e iph)

/-- The bytes that the walk examines: the fields of the IPv6 header from the payload length to the
destination, and of each header behind it the type of the next one and the length. -/
def walkBytes (e : Endian) (iph : Mem) (len : Nat) : List Nat :=
  List.range' ip6Plen 36 ++ (walkRounds e iph len).flatMap fun r => [r.1, r.1 + 1]

section Rounds

variable {iph : Mem} {len : Nat}

/-- One round. -/
theorem headerRounds_succ {type : UInt8} (hext : isExtHeader type = true) {ipe l : Nat}
    (hl : walkSize type (iph (ipe + 1)).toNat = l) (fuel plen : Nat) :
    headerRounds iph len (fuel + 1) type ipe plen = (ipe, plen) :: if ipe + l > len then [] else
      headerRounds iph len fuel (iph ipe) (ipe + l) ((plen + 65536 - l) % 65536) := by
  rw [headerRounds, hext, ← hl]
  rfl

/-- The subtraction does not wrap if every header that the walk comes to ends inside the payload. -/
theorem headerRounds_noWrap_iff : ∀ (fuel : Nat) {type : UInt8} {ipe plen : Nat},
    len < ipe + fuel → 0 < fuel → plen < 65536 →
    ((∀ r ∈ headerRounds iph len fuel type ipe plen, (iph (r.1 + 1)).toNat * 8 + 8 ≤ r.2) ↔
      ∀ t o, HeaderChain walkSize iph (type, ipe) (t, o) → isExtHeader t = true →
        o ≤ len ∨ o = ipe → o + walkSize t (iph (o + 1)).toNat ≤ ipe + plen) := by
  intro fuel
  induction fuel with
  | zero => exact fun _ h => absurd h (Nat.lt_irrefl 0)
  | succ fuel ih =>
    intro type ipe plen hfuel _ hplen
    cases hext : isExtHeader type with
    | false =>
      rw [headerRounds, hext]
      refine iff_of_true (fun r hr => absurd hr List.not_mem_nil) (fun t o hc ht _ => ?_)
      cases hc.eq_of_upper hext
      rw [hext] at ht
      cases ht
    | true =>
      obtain ⟨l, hl⟩ : ∃ l, walkSize type (iph (ipe + 1)).toNat = l := ⟨_, rfl⟩
      have hl8 : 8 ≤ l := hl ▸ Nat.le_add_left 8 _
      have hchain : ∀ t o, HeaderChain walkSize iph (type, ipe) (t, o) →
          (t, o) = (type, ipe) ∨ HeaderChain walkSize iph (iph ipe, ipe + l) (t, o) := by
        rw [← hl]
        exact fun t o hc => hc.of_ext
      have hcons : ∀ t o, HeaderChain walkSize iph (iph ipe, ipe + l) (t, o) →
          HeaderChain walkSize iph (type, ipe) (t, o) := by
        rw [← hl]
        exact fun t o hc => HeaderChain.cons hext hc
      rw [headerRounds_succ hext hl, List.forall_mem_cons]
      change walkSize type (iph (ipe + 1)).toNat ≤ plen ∧ _ ↔ _
      rw [hl]
      have hfirst : (∀ t o, HeaderChain walkSize iph (type, ipe) (t, o) → isExtHeader t = true →
          o ≤ len ∨ o = ipe → o + walkSize t (iph (o + 1)).toNat ≤ ipe + plen) → l ≤ plen := by
        intro hall
        have := hall type ipe Relation.ReflTransGen.refl hext (Or.inr rfl)
        omega
      by_cases hout : ipe + l > len
      · -- the chain leaves the frame: this is the last round
        rw [if_pos hout]
        refine ⟨fun hle t o hc ht hin => ?_, fun hall => ⟨hfirst hall, List.forall_mem_nil _⟩⟩
        rcases hchain t o hc with heq | hc'
        · cases heq
          omega
        · have hpos : ipe + l ≤ o := hc'.le
          omega
      · rw [if_neg hout]
        by_cases hle : l ≤ plen
        · have hmod : (plen + 65536 - l) % 65536 = plen - l := by
            omega
          rw [and_iff_right hle, hmod, ih (by omega) (by omega) (by omega)]
          constructor
          · intro hall t o hc ht hin
            rcases hchain t o hc with heq | hc'
            · cases heq
              omega
            · have hpos : ipe + l ≤ o := hc'.le
              have := hall t o hc' ht (by omega)
              omega
          · intro hall t o hc ht hin
            have := hall t o (hcons t o hc) ht (by omega)
            omega
        · exact iff_of_false (fun hc => hle hc.1) (fun hall => hle (hfirst hall))

/-- A walk that stops in the frame has examined nothing behind it. -/
theorem headerRounds_inside : ∀ (fuel : Nat) {type t : UInt8} {ipe plen o p : Nat},
    skipHeaders iph len fuel type ipe plen = some (t, o, p) →
    ∀ r ∈ headerRounds iph len fuel type ipe plen, r.1 + 8 ≤ len := by
  intro fuel
  induction fuel with
  | zero => exact fun hwalk => nomatch hwalk
  | succ fuel ih =>
    intro type t ipe plen o p hwalk
    rw [skipHeaders] at hwalk
    rw [headerRounds]
    cases hext : isExtHeader type with
    | false => exact fun r hr => absurd hr List.not_mem_nil
    | true =>
      rw [hext, if_pos rfl] at hwalk
      rw [if_pos rfl]
      dsimp only at hwalk ⊢
      split at hwalk
      · cases hwalk
      · rename_i hin
        rw [if_neg hin, List.forall_mem_cons]
        exact ⟨by omega, ih hwalk⟩

end Rounds

/-! ## 2. What is handed to layer 4 -/

/-- `l3_ipv6` comes to the header walk: the packet is a multicast one, and not from this host. -/
def L3Walks (intn : IntNode) (iph : Mem) : Prop :=
  in6IsAddrMulticast (readAddr iph ip6Dst) = true ∧
    ¬ (readAddr iph ip6Src = intn.linklocal ∨ readAddr iph ip6Src = intn.global)

instance (intn : IntNode) (iph : Mem) : Decidable (L3Walks intn iph) :=
  inferInstanceAs (Decidable (_ ∧ _))

/-- The type, the offset and the rest of `plen` with which `l3_ipv6` goes on to layer 4, if it does:
an ICMPv6 message in any case, and another packet if its hop limit does not run out. -/
def l3Layer4 (e : Endian) (intn : IntNode) (iph : Mem) (len : Nat) : Option (UInt8 × Nat × Nat) :=
  if L3Walks intn iph then
    (headerWalk e iph len).filter
      (fun x => x.1 = ipprotoIcmpv6 || decreaseHlim iph ip6Hlim ≠ 0)
  else none

/-- **`l3_ipv6` is the choice of what goes on to layer 4**: the ICMPv6 message, the packet, or
nothing. -/
theorem l3Ipv6_layer4 (h : Host) (now : Nat) (st : Conf) (i : Nat) (iph : Mem) (len : Nat) :
    (∀ off plen, l3Layer4 h.endian (st.intn i) iph len = some (ipprotoIcmpv6, off, plen) →
      l3Ipv6 h now st i iph len = l4Ipv6Icmpv6 h now st i iph len off plen) ∧
    (∀ type off plen, l3Layer4 h.endian (st.intn i) iph len = some (type, off, plen) →
      type ≠ ipprotoIcmpv6 →
      l3Ipv6 h now st i iph len = l4Ipv6Multicast h st i (decreaseHlim iph) len) ∧
    (l3Layer4 h.endian (st.intn i) iph len = none →
      l3Ipv6 h now st i iph len = st ∨ l3Ipv6 h now st i iph len = countHlimExceeded st) := by
  by_cases hwalks : L3Walks (st.intn i) iph
  · rw [l3Layer4, if_pos hwalks]
    obtain ⟨hdst, hown⟩ := hwalks
    unfold l3Ipv6
    dsimp only
    rw [hdst, if_neg (by decide), if_neg hown]
    cases headerWalk h.endian iph len with
    | none => simp
    | some x =>
      obtain ⟨type, off, plen⟩ := x
      by_cases htype : type = ipprotoIcmpv6
      · subst htype
        simp
      · by_cases hlim : decreaseHlim iph ip6Hlim = 0
        · simp [Option.filter, htype, hlim]
        · simp [Option.filter, htype, hlim]
  · rw [l3Layer4, if_neg hwalks]
    refine ⟨by simp, by simp, fun _ => Or.inl ?_⟩
    unfold l3Ipv6
    dsimp only
    split
    · rfl
    · rename_i hdst
      rw [Bool.not_eq_true', Bool.not_eq_false] at hdst
      have hown : readAddr iph ip6Src = (st.intn i).linklocal ∨
          readAddr iph ip6Src = (st.intn i).global := by
        by_contra hnot
        exact hwalks ⟨hdst, hnot⟩
      rw [if_pos hown]

/-! ## 3. When everything stays in the frame -/

/-- The structure that is read of an ICMPv6 message: `struct icmp6_hdr`, or `struct mld1` where an
MLDv1 handler is called. -/
def handledSize (iph : Mem) (off : Nat) : Nat :=
  if (iph off = icmp6MembershipReport ∨ iph off = icmp6MembershipReduction) ∧
      in6IsAddrLinklocal (readAddr iph ip6Src) = true then 24 else 8

/-- The law: `plen` never wraps, and of a packet that goes on to layer 4 the walk has examined bytes
in the frame only, and the message is in the frame and as long as what is read of it. -/
structure InFrame (e : Endian) (intn : IntNode) (iph : Mem) (len : Nat) : Prop where
  noWrap : L3Walks intn iph → ∀ r ∈ walkRounds e iph len, (iph (r.1 + 1)).toNat * 8 + 8 ≤ r.2
  examined : ∀ x, l3Layer4 e intn iph len = some x → ∀ b ∈ walkBytes e iph len, b < len
  message : ∀ off plen, l3Layer4 e intn iph len = some (ipprotoIcmpv6, off, plen) →
    off + plen ≤ len ∧ handledSize iph off ≤ plen

/-- What the sender has to keep. -/
structure FitsFrame (e : Endian) (intn : IntNode) (iph : Mem) (len : Nat) : Prop where
  /-- the extension headers in the frame end inside the payload -/
  headers : L3Walks intn iph → ∀ t o, HeaderChain walkSize iph (iph ip6Nxt, 40) (t, o) →
    isExtHeader t = true → o ≤ len ∨ o = 40 →
      o + walkSize t (iph (o + 1)).toNat ≤ 40 + ip6PlenOf e iph
  /-- the frame of a packet that is not dropped has an IPv6 header -/
  header : ∀ x, l3Layer4 e intn iph len = some x → 40 ≤ len
  /-- the payload of an ICMPv6 packet is in the frame, with room for what is read of the message -/
  message : L3Walks intn iph → ∀ off, HeaderChain walkSize iph (iph ip6Nxt, 40)
    (ipprotoIcmpv6, off) → off ≤ len ∨ off = 40 →
      40 + ip6PlenOf e iph ≤ len ∧ off + handledSize iph off ≤ 40 + ip6PlenOf e iph

section Frame

variable {e : Endian} {intn : IntNode} {iph : Mem} {len : Nat}

/-- The end of a chain is in the payload, if all its headers are. -/
theorem headerChain_end {t : UInt8} {off : Nat}
    (hheaders : ∀ t o, HeaderChain walkSize iph (iph ip6Nxt, 40) (t, o) → isExtHeader t = true →
      o ≤ len ∨ o = 40 → o + walkSize t (iph (o + 1)).toNat ≤ 40 + ip6PlenOf e iph)
    (hc : HeaderChain walkSize iph (iph ip6Nxt, 40) (t, off)) (hin : off ≤ len ∨ off = 40) :
    off ≤ 40 + ip6PlenOf e iph := by
  cases Relation.ReflTransGen.cases_tail hc with
  | inl heq =>
    cases heq
    exact Nat.le_add_right 40 _
  | inr hstep =>
    obtain ⟨⟨t', o⟩, hbefore, hext, heq⟩ := hstep
    have hoff : off = o + walkSize t' (iph (o + 1)).toNat := congrArg Prod.snd heq
    have ho : 40 ≤ o := HeaderChain.le hbefore
    rw [hoff]
    exact hheaders t' o hbefore hext (by omega)

theorem l3Layer4_icmpv6 {off plen : Nat}
    (hl4 : l3Layer4 e intn iph len = some (ipprotoIcmpv6, off, plen)) :
    L3Walks intn iph ∧ headerWalk e iph len = some (ipprotoIcmpv6, off, plen) := by
  unfold l3Layer4 at hl4
  split at hl4
  · rename_i hwalks
    exact ⟨hwalks, (Option.filter_eq_some_iff.mp hl4).1⟩
  · cases hl4

theorem l3Layer4_of_icmpv6 {off plen : Nat} (hwalks : L3Walks intn iph)
    (hwalk : headerWalk e iph len = some (ipprotoIcmpv6, off, plen)) :
    l3Layer4 e intn iph len = some (ipprotoIcmpv6, off, plen) := by
  rw [l3Layer4, if_pos hwalks, hwalk]
  exact Option.filter_eq_some_iff.mpr ⟨rfl, by simp⟩

/-- The rest of `plen`, where the headers end inside the payload. -/
theorem headerWalk_rest {t : UInt8} {off p : Nat} (hwalk : headerWalk e iph len = some (t, off, p))
    (hend : off ≤ 40 + ip6PlenOf e iph) : off + p = 40 + ip6PlenOf e iph := by
  obtain ⟨hp, hmod⟩ := headerWalk_plen hwalk
  have hoff := headerWalk_off hwalk
  have hplen : ip6PlenOf e iph < 65536 := Endian.htons_lt e _
  omega

/-- **When `l3_ipv6` keeps in the frame**: if the extension headers end inside the payload that the
packet announces, and the payload of an ICMPv6 packet inside the frame, with the message that is
read inside the payload. -/
theorem inFrame_iff (e : Endian) (intn : IntNode) (iph : Mem) (len : Nat) :
    InFrame e intn iph len ↔ FitsFrame e intn iph len := by
  have hnowrap := @headerRounds_noWrap_iff iph len (len + 1) (iph ip6Nxt) 40 (ip6PlenOf e iph)
    (by omega) (Nat.succ_pos len) (Endian.htons_lt e _)
  constructor
  · intro h
    refine ⟨fun hwalks => hnowrap.mp (h.noWrap hwalks), fun x hx => ?_, fun hwalks off hc hin => ?_⟩
    · exact h.examined x hx 39 (List.mem_append_left _ (by decide))
    · obtain ⟨p, hwalk⟩ := headerWalk_iff.mpr ⟨hc, by decide, hin⟩
      obtain ⟨hle, hsize⟩ := h.message off p (l3Layer4_of_icmpv6 hwalks hwalk)
      have hrest := headerWalk_rest hwalk
        (headerChain_end (hnowrap.mp (h.noWrap hwalks)) hc hin)
      omega
  · intro h
    refine ⟨fun hwalks => hnowrap.mpr (h.headers hwalks), fun x hx b hb => ?_, fun off p hl4 => ?_⟩
    · have hlen := h.header x hx
      rcases List.mem_append.mp hb with hb | hb
      · have hb40 := (List.mem_range'_1.mp hb).2
        simp only [ip6Plen] at hb40
        omega
      · obtain ⟨r, hr, hb⟩ := List.mem_flatMap.mp hb
        have hinside : r.1 + 8 ≤ len := by
          unfold l3Layer4 at hx
          split at hx
          · obtain ⟨t, o, p⟩ := x
            exact headerRounds_inside _ (Option.filter_eq_some_iff.mp hx).1 r hr
          · cases hx
        simp only [List.mem_cons, List.not_mem_nil, or_false] at hb
        omega
    · obtain ⟨hwalks, hwalk⟩ := l3Layer4_icmpv6 hl4
      obtain ⟨hc, -, hin⟩ := headerWalk_iff.mp ⟨p, hwalk⟩
      obtain ⟨hle, hsize⟩ := h.message hwalks off hc hin
      have hrest := headerWalk_rest hwalk (headerChain_end (h.headers hwalks) hc hin)
      omega

end Frame

/-- An echo request of 48 bytes for `ff05::1`, whose IPv6 header announces 1000 bytes of payload. -/
def boastfulEcho : Mem :=
  Mem.ofList ([0x60, 0, 0, 0] ++ be16 1000 ++ [ipprotoIcmpv6, 64] ++ (globalHost 1).s6Addr ++
    siteGroup.s6Addr ++ [128, 0, 0, 0, 0, 0, 0, 0])

/-- The checksum is computed over 992 bytes behind the frame. -/
theorem boastful_echo_beyond : ¬ InFrame .little (oneLink.intn 1) boastfulEcho 48 := by
  intro h
  have hl4 : l3Layer4 .little (oneLink.intn 1) boastfulEcho 48
      = some (ipprotoIcmpv6, 40, 1000) := by
    decide +kernel
  exact absurd (h.message 40 1000 hl4).1 (by decide)

end Ecmh
