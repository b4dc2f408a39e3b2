/-
# The chain of extension headers

`l3_ipv6` steps over the extension headers that it knows, all of them in units of eight bytes.  The
chain is a relation here, with the length of a header as a parameter: `headerWalk_iff` says that the
loop follows the chain of its own lengths to the end, and `headerWalk_legal_iff` for which packets
that is the chain of the legal lengths, which are in units of four bytes for an authentication
header.
-/
import Ecmh.Forward
import Mathlib.Logic.Relation

namespace Ecmh

open ByteMem

/-! ## 1. Chains -/

/-- The step over an extension header, from its type and offset to those of the next header; `size`
is the length of a header by its type and its length field. -/
def HeaderStep (size : UInt8 → Nat → Nat) (iph : Mem) (a b : UInt8 × Nat) : Prop :=
  isExtHeader a.1 = true ∧ b = (iph a.2, a.2 + size a.1 (iph (a.2 + 1)).toNat)

/-- A chain of extension headers, from one header to another. -/
def HeaderChain (size : UInt8 → Nat → Nat) (iph : Mem) : UInt8 × Nat → UInt8 × Nat → Prop :=
  Relation.ReflTransGen (HeaderStep size iph)

/-- The length with which the loop steps. -/
def walkSize (_ : UInt8) (len : Nat) : Nat := len * 8 + 8

/-- The legal length. -/
def legalSize (type : UInt8) (len : Nat) : Nat :=
  if type = ipprotoAh then 4 * (len + 2) else 8 * len + 8

section Chain

variable {size : UInt8 → Nat → Nat} {iph : Mem} {a b c : UInt8 × Nat}

theorem headerStep_rightUnique : Relator.RightUnique (HeaderStep size iph) := by
  intro a b c hb hc
  rw [hb.2, hc.2]

/-- Where a chain ends no step begins. -/
theorem HeaderChain.eq_of_upper (h : HeaderChain size iph a b) (ha : isExtHeader a.1 = false) :
    a = b := by
  cases Relation.ReflTransGen.cases_head h with
  | inl heq => exact heq
  | inr hstep =>
    obtain ⟨x, ⟨hext, -⟩, -⟩ := hstep
    rw [ha] at hext
    cases hext

theorem HeaderChain.le (h : HeaderChain size iph a b) : a.2 ≤ b.2 := by
  induction h with
  | refl => exact Nat.le_refl _
  | tail _ hstep ih =>
    rw [hstep.2]
    exact Nat.le_trans ih (Nat.le_add_right _ _)

/-- A chain from an extension header goes on behind it, or has not left it. -/
theorem HeaderChain.of_ext (h : HeaderChain size iph a b) :
    b = a ∨ HeaderChain size iph (iph a.2, a.2 + size a.1 (iph (a.2 + 1)).toNat) b := by
  cases Relation.ReflTransGen.cases_head h with
  | inl heq => exact Or.inl heq.symm
  | inr hstep =>
    obtain ⟨x, ⟨-, rfl⟩, hrest⟩ := hstep
    exact Or.inr hrest

theorem HeaderChain.cons (hext : isExtHeader a.1 = true)
    (h : HeaderChain size iph (iph a.2, a.2 + size a.1 (iph (a.2 + 1)).toNat) b) :
    HeaderChain size iph a b :=
  Relation.ReflTransGen.head ⟨hext, rfl⟩ h

/-- Of two chains from a header that which ends at the upper-layer header is the longer one. -/
theorem HeaderChain.rest (hb : HeaderChain size iph a b) (hc : HeaderChain size iph a c)
    (hupper : isExtHeader c.1 = false) : HeaderChain size iph b c := by
  refine Runs.reaches_last headerStep_rightUnique hb hc ?_
  rintro d ⟨hext, -⟩
  rw [hupper] at hext
  cases hext

end Chain

/-! ## 2. The walk -/

section Walk

variable {iph : Mem} {len : Nat}

/-- The loop comes to the end of a chain, if that is in the packet.  The induction is on the rounds
that are left. -/
theorem skipHeaders_of_chain : ∀ (fuel : Nat) {type t : UInt8} {ipe o : Nat} (plen : Nat),
    HeaderChain walkSize iph (type, ipe) (t, o) → isExtHeader t = false → o ≤ len ∨ o = ipe →
    len < ipe + fuel → 0 < fuel → ∃ p, skipHeaders iph len fuel type ipe plen = some (t, o, p) := by
  intro fuel
  induction fuel with
  | zero => exact fun _ _ _ _ _ h => absurd h (Nat.lt_irrefl 0)
  | succ fuel ih =>
    intro type t ipe o plen hchain hupper hin hfuel _
    rw [skipHeaders]
    cases hext : isExtHeader type with
    | false =>
      have heq := hchain.eq_of_upper hext
      cases heq
      exact ⟨plen, rfl⟩
    | true =>
      rcases hchain.of_ext with heq | hrest
      · cases heq
        rw [hext] at hupper
        cases hupper
      · have hle := hrest.le
        simp only [walkSize] at hrest hle
        have ho : o ≤ len := by
          omega
        rw [if_pos rfl]
        dsimp only
        rw [if_neg (by omega)]
        exact ih _ hrest hupper (Or.inl ho) (by omega) (by omega)

/-- Where the loop stops, and what is left of `plen`. -/
theorem skipHeaders_spec : ∀ (fuel : Nat) {type t : UInt8} {ipe o plen p : Nat},
    skipHeaders iph len fuel type ipe plen = some (t, o, p) → plen < 65536 →
    (HeaderChain walkSize iph (type, ipe) (t, o) ∧ isExtHeader t = false ∧ (o ≤ len ∨ o = ipe)) ∧
      p < 65536 ∧ (p + (o - ipe)) % 65536 = plen := by
  intro fuel
  induction fuel with
  | zero => exact fun hwalk => nomatch hwalk
  | succ fuel ih =>
    intro type t ipe o plen p hwalk hplen
    rw [skipHeaders] at hwalk
    cases hext : isExtHeader type with
    | false =>
      rw [hext, if_neg Bool.false_ne_true] at hwalk
      cases hwalk
      exact ⟨⟨Relation.ReflTransGen.refl, hext, Or.inr rfl⟩, hplen, by omega⟩
    | true =>
      rw [hext, if_pos rfl] at hwalk
      dsimp only at hwalk
      split at hwalk
      · cases hwalk
      · rename_i hin
        obtain ⟨⟨hchain, hupper, ho⟩, hp, hmod⟩ := ih hwalk (Nat.mod_lt _ (by decide))
        have hle := hchain.le
        have hlen : (iph (ipe + 1)).toNat < 256 := (iph (ipe + 1)).toNat_lt
        refine ⟨⟨.cons hext hchain, hupper, Or.inl (by omega)⟩, hp, ?_⟩
        simp only at hle
        omega

variable {e : Endian} {type : UInt8} {off : Nat}

/-- **The walk stops at the end of the chain of its own lengths**, if that is in the packet. -/
theorem headerWalk_iff : (∃ p, headerWalk e iph len = some (type, off, p)) ↔
    HeaderChain walkSize iph (iph ip6Nxt, 40) (type, off) ∧ isExtHeader type = false ∧
      (off ≤ len ∨ off = 40) := by
  constructor
  · rintro ⟨p, hwalk⟩
    exact (skipHeaders_spec _ hwalk (Endian.htons_lt e _)).1
  · rintro ⟨hchain, hupper, hin⟩
    exact skipHeaders_of_chain _ _ hchain hupper hin (by omega) (Nat.succ_pos len)

/-- The payload length in the IPv6 header. -/
def ip6PlenOf (e : Endian) (iph : Mem) : Nat := e.htons (e.load16 iph ip6Plen)

/-- The lengths of the headers are subtracted in 16 bits. -/
theorem headerWalk_plen {p : Nat} (hwalk : headerWalk e iph len = some (type, off, p)) :
    p < 65536 ∧ (p + (off - 40)) % 65536 = ip6PlenOf e iph :=
  (skipHeaders_spec _ hwalk (Endian.htons_lt e _)).2

end Walk

/-! ## 3. Legal chains -/

/-- A chain of headers that have the same length in both units: no authentication header with more
than eight bytes is among them. -/
def PlainChain (iph : Mem) : UInt8 × Nat → UInt8 × Nat → Prop :=
  Relation.ReflTransGen fun a b => HeaderStep walkSize iph a b ∧
    (a.1 = ipprotoAh → iph (a.2 + 1) = 0)

section Legal

variable {iph : Mem} {a b : UInt8 × Nat}

theorem legalSize_eq (hplain : a.1 = ipprotoAh → iph (a.2 + 1) = 0) :
    legalSize a.1 (iph (a.2 + 1)).toNat = walkSize a.1 (iph (a.2 + 1)).toNat := by
  unfold legalSize walkSize
  split
  · rename_i hah
    rw [hplain hah]
    rfl
  · omega

theorem PlainChain.walk (h : PlainChain iph a b) : HeaderChain walkSize iph a b := by
  induction h with
  | refl => exact Relation.ReflTransGen.refl
  | tail _ hstep ih => exact Relation.ReflTransGen.tail ih hstep.1

/-- A legal chain is plain, or has a first long authentication header. -/
theorem plain_or_long (h : HeaderChain legalSize iph a b) :
    PlainChain iph a b ∨ ∃ o, PlainChain iph a (ipprotoAh, o) ∧ iph (o + 1) ≠ 0 := by
  induction h with
  | refl => exact Or.inl Relation.ReflTransGen.refl
  | @tail x y _ hstep ih =>
    rcases ih with hplain | hlong
    · by_cases hx : x.1 = ipprotoAh → iph (x.2 + 1) = 0
      · refine Or.inl (Relation.ReflTransGen.tail hplain ⟨⟨hstep.1, ?_⟩, hx⟩)
        rw [hstep.2, legalSize_eq hx]
      · obtain ⟨hah, hlong⟩ := Classical.not_imp.mp hx
        refine Or.inr ⟨x.2, ?_, hlong⟩
        rw [← hah]
        exact hplain
    · exact Or.inr hlong

/-- **When the walk finds the upper-layer header of a well-formed packet**: if the chain has no
authentication header of more than eight bytes, or the bytes `8 * len + 8` behind the first one
happen to be a chain to the upper-layer header, in units of eight bytes. -/
theorem headerWalk_legal_iff {e : Endian} {len off : Nat} {type : UInt8}
    (hchain : HeaderChain legalSize iph (iph ip6Nxt, 40) (type, off))
    (hupper : isExtHeader type = false) (hin : off ≤ 40 + ip6PlenOf e iph)
    (hlen : 40 + ip6PlenOf e iph ≤ len) :
    headerWalk e iph len = some (type, off, 40 + ip6PlenOf e iph - off) ↔
      ∀ o, PlainChain iph (iph ip6Nxt, 40) (ipprotoAh, o) → iph (o + 1) ≠ 0 →
        HeaderChain walkSize iph (iph o, o + (8 * (iph (o + 1)).toNat + 8)) (type, off) := by
  have hwalk : headerWalk e iph len = some (type, off, 40 + ip6PlenOf e iph - off) ↔
      HeaderChain walkSize iph (iph ip6Nxt, 40) (type, off) := by
    have hiff := @headerWalk_iff iph len e type off
    constructor
    · intro hw
      exact (hiff.mp ⟨_, hw⟩).1
    · intro hc
      obtain ⟨p, hw⟩ := hiff.mpr ⟨hc, hupper, Or.inl (Nat.le_trans hin hlen)⟩
      obtain ⟨hp, hmod⟩ := headerWalk_plen hw
      have hoff : 40 ≤ off := hc.le
      have hplen : ip6PlenOf e iph < 65536 := Endian.htons_lt e _
      have hleft : p = 40 + ip6PlenOf e iph - off := by
        omega
      rw [hw, hleft]
  rw [hwalk]
  have hsize : ∀ o, o + (8 * (iph (o + 1)).toNat + 8)
      = o + walkSize ipprotoAh (iph (o + 1)).toNat := by
    intro o
    rw [walkSize, Nat.mul_comm]
  constructor
  · intro hc o ho hlong
    -- the walk passes the header, as it does not end there
    have hrest := ho.walk.rest hc hupper
    rcases hrest.of_ext with heq | hnext
    · cases heq
      exact absurd hupper (by decide)
    · rw [hsize]
      exact hnext
  · intro hall
    rcases plain_or_long hchain with hplain | ⟨o, ho, hlong⟩
    · exact hplain.walk
    · have hnext := hall o ho hlong
      rw [hsize] at hnext
      have hext : isExtHeader ipprotoAh = true := by
        decide
      exact Relation.ReflTransGen.trans ho.walk (HeaderChain.cons hext hnext)

end Legal

/-- An MLDv1 report behind a hop-by-hop header. -/
def joinPacket : Mem :=
  Mem.ofList (ipv6Packet ipprotoHopopts 1 linkLocalHost (linkScope 0x16)
    ([ipprotoIcmpv6, 0, 5, 2, 0, 0, 1, 0] ++ mld1JoinMessage))

theorem joinPacket_walked : headerWalk .little joinPacket 72 = some (ipprotoIcmpv6, 48, 24) := by
  have hstep : HeaderChain legalSize joinPacket (joinPacket ip6Nxt, 40) (ipprotoIcmpv6, 48) :=
    Relation.ReflTransGen.single ⟨by decide, by decide +kernel⟩
  have hplen : ip6PlenOf .little joinPacket = 32 := by decide +kernel
  have hwalk := (@headerWalk_legal_iff joinPacket .little 72 48 ipprotoIcmpv6 hstep (by decide)
    (by decide +kernel) (by decide +kernel)).mpr
  rw [hplen] at hwalk
  refine hwalk fun o ho _ => ?_
  -- the chain ends behind its first header, so no authentication header is in it
  have hfirst : ipprotoAh ≠ joinPacket ip6Nxt := by decide
  have hlast : ipprotoIcmpv6 ≠ ipprotoAh := by decide
  have hnext : HeaderChain walkSize joinPacket (ipprotoIcmpv6, 48) (ipprotoAh, o) := by
    rcases ho.walk.of_ext with heq | hrest
    · exact absurd (congrArg Prod.fst heq) hfirst
    · exact hrest
  exact absurd (congrArg Prod.fst (hnext.eq_of_upper (by decide))) hlast

/-- The same report behind an authentication header of 24 bytes. -/
def authenticatedJoin : Mem :=
  Mem.ofList (ipv6Packet ipprotoAh 1 linkLocalHost (linkScope 0x16)
    ([ipprotoIcmpv6, 4] ++ List.replicate 22 0 ++ mld1JoinMessage))

/-- The walk takes the group address in it for the message. -/
theorem authenticated_join_missed :
    HeaderChain legalSize authenticatedJoin (authenticatedJoin ip6Nxt, 40) (ipprotoIcmpv6, 64) ∧
    ip6PlenOf .little authenticatedJoin = 48 ∧
    headerWalk .little authenticatedJoin 88 ≠ some (ipprotoIcmpv6, 64, 24) := by
  refine ⟨Relation.ReflTransGen.single ⟨by decide, by decide +kernel⟩, by decide +kernel, ?_⟩
  have hwalk : headerWalk .little authenticatedJoin 88 = some (ipprotoIcmpv6, 80, 8) := by
    decide +kernel
  rw [hwalk]
  decide

end Ecmh
