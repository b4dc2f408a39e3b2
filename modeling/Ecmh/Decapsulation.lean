/-
# What the layers of the BPF build pass on

`l2_eth` takes the Ethernet header off the frame and `l3_ipv4` the IPv4 header, each by an unsigned
subtraction from the length it was given.  Neither compares the two first: the check in `l3_ipv4` of
the total length is compiled out, and the header length is never checked against the frame.

Here the layers record what they pass on, beside what they do (`l2EthPassing_fst`).  `inside_iff` is
the exact condition for all of it to lie in the bytes that were captured.
-/
import Ecmh.OnLink

namespace Ecmh

open ByteMem

/-! ## 1. The layers, with what they pass on -/

/-- The function that something is passed on to. -/
inductive Layer
  | l2Ethtype
  | l3Ipv4
  | l3Ipv6
  | l4Ipv4Proto41
  deriving DecidableEq

/-- A region that is passed on: where it begins in the frame, and its length, which is `given` less
`taken` in the arithmetic of the machine. -/
structure Passed where
  layer : Layer
  off : Nat
  len : Nat
  given : Nat
  taken : Nat
  deriving DecidableEq

/-- The region lies in the first `caplen` bytes of the frame, and its length did not wrap. -/
structure Passed.Inside (caplen : Nat) (p : Passed) : Prop where
  region : p.off + p.len ≤ caplen
  noWrap : p.taken ≤ p.given

instance (caplen : Nat) (p : Passed) : Decidable (p.Inside caplen) :=
  decidable_of_iff (p.off + p.len ≤ caplen ∧ p.taken ≤ p.given)
    ⟨fun h => ⟨h.1, h.2⟩, fun h => ⟨h.1, h.2⟩⟩

section

variable (h : Host) (now : Nat) (b : Tunnels) (st : Conf)

/-- `l4_ipv4_proto41`, whose packet begins at `off`.  It goes through `l2_ethtype` again. -/
def l4Ipv4Proto41Passing (iph packet : Mem) (off len : Nat) : Conf × List Passed :=
  if !b.tunnelmode then (st, [])
  else if b.localFind st (iph.read ipSrc 4) then (st, [])
  else match tunnelFind b st (iph.read ipSrc 4) with
    | (st, none) => (st, [])
    | (st, some tun) =>
      (l3Ipv6 h now st tun packet (len % 65536),
        [⟨.l2Ethtype, off, len, len, 0⟩, ⟨.l3Ipv6, off, len % 65536, len, 0⟩])

/-- `l3_ipv4`, whose packet begins at `off`. -/
def l3Ipv4Passing (iph : Mem) (off len : Nat) : Conf × List Passed :=
  if ipV iph ≠ 4 then (st, [])
  else if ipHl iph < 5 then (st, [])
  else if iph.read ipSrc 4 = ipv46to4Relay ∨ iph.read ipDst 4 = ipv46to4Relay then (st, [])
  else if iph ipP = ipprotoIpv6 then
    let rest := (len + 65536 - 4 * ipHl iph) % 65536
    let l4 := l4Ipv4Proto41Passing h now b st iph (iph.shift (4 * ipHl iph))
      (off + 4 * ipHl iph) rest
    (l4.1, ⟨.l4Ipv4Proto41, off + 4 * ipHl iph, rest, len, 4 * ipHl iph⟩ :: l4.2)
  else (st, [])

/-- `l2_ethtype`, whose packet begins at `off`. -/
def l2EthtypePassing (i : Nat) (packet : Mem) (off len etherType : Nat) : Conf × List Passed :=
  if etherType = ethPIp then
    let l3 := l3Ipv4Passing h now b st packet off (len % 65536)
    (l3.1, ⟨.l3Ipv4, off, len % 65536, len, 0⟩ :: l3.2)
  else if etherType = ethPIpv6 then
    (l3Ipv6 h now st i packet (len % 65536), [⟨.l3Ipv6, off, len % 65536, len, 0⟩])
  else (st, [])

/-- `l2_eth`, for a frame of which `caplen` bytes were captured. -/
def l2EthPassing (i : Nat) (eth : Mem) (caplen : Nat) : Conf × List Passed :=
  let rest := (caplen + 2 ^ 32 - 14) % 2 ^ 32
  let l2 := l2EthtypePassing h now b st i (eth.shift 14) 14 rest
    (h.endian.htons (h.endian.load16 eth 12))
  (l2.1, ⟨.l2Ethtype, 14, rest, caplen, 14⟩ :: l2.2)

/-! ## 2. They do what they did -/

theorem l4Ipv4Proto41Passing_fst (iph packet : Mem) (off len : Nat) :
    (l4Ipv4Proto41Passing h now b st iph packet off len).1
      = l4Ipv4Proto41 h now b st iph packet len := by
  unfold l4Ipv4Proto41Passing l4Ipv4Proto41
  split
  · rfl
  · split
    · rfl
    · rcases tunnelFind b st (iph.read ipSrc 4) with ⟨st, - | tun⟩ <;> rfl

theorem l3Ipv4Passing_fst (iph : Mem) (off len : Nat) :
    (l3Ipv4Passing h now b st iph off len).1 = l3Ipv4 h now b st iph len := by
  unfold l3Ipv4Passing l3Ipv4
  split
  · rfl
  · split
    · rfl
    · split
      · rfl
      · split
        · exact l4Ipv4Proto41Passing_fst h now b st iph _ _ _
        · rfl

theorem l2EthPassing_fst (i : Nat) (eth : Mem) (caplen : Nat) :
    (l2EthPassing h now b st i eth caplen).1 = l2Eth h now b st i eth caplen := by
  unfold l2EthPassing l2Eth l2EthtypePassing l2EthtypeBpf
  dsimp only
  split
  · exact l3Ipv4Passing_fst h now b st _ _ _
  · split <;> rfl

end

/-! ## 3. When all of it lies in the frame -/

/-- An IPv4 packet that `l3_ipv4` takes for an encapsulated one. -/
structure Encapsulated (iph : Mem) : Prop where
  version : ipV iph = 4
  headerLength : 5 ≤ ipHl iph
  relay : ¬ (iph.read ipSrc 4 = ipv46to4Relay ∨ iph.read ipDst 4 = ipv46to4Relay)
  proto : iph ipP = ipprotoIpv6

/-- There is room for the Ethernet header, and for the IPv4 header of an encapsulated packet. -/
structure HeadersFit (e : Endian) (eth : Mem) (caplen : Nat) : Prop where
  ethernet : 14 ≤ caplen
  ipv4 : e.htons (e.load16 eth 12) = ethPIp → Encapsulated (eth.shift 14) →
    4 * ipHl (eth.shift 14) ≤ (caplen - 14) % 65536

section

variable (h : Host) (now : Nat) (b : Tunnels) (st : Conf)

/-- Behind `l4_ipv4_proto41` nothing is taken off any more. -/
theorem l4Ipv4Proto41Passing_inside (iph packet : Mem) {off len caplen : Nat}
    (hin : off + len ≤ caplen) :
    ∀ p ∈ (l4Ipv4Proto41Passing h now b st iph packet off len).2, p.Inside caplen := by
  have hmod := Nat.mod_le len 65536
  unfold l4Ipv4Proto41Passing
  split
  · simp
  · split
    · simp
    · rcases tunnelFind b st (iph.read ipSrc 4) with ⟨st, - | tun⟩
      · simp
      · intro p hp
        rcases List.mem_pair.mp hp with rfl | rfl
        · exact ⟨hin, Nat.zero_le _⟩
        · exact ⟨by dsimp only; omega, Nat.zero_le _⟩

theorem l3Ipv4Passing_inside_iff (iph : Mem) {off len caplen : Nat} (hlen : len < 65536)
    (hin : off + len ≤ caplen) :
    (∀ p ∈ (l3Ipv4Passing h now b st iph off len).2, p.Inside caplen) ↔
      (Encapsulated iph → 4 * ipHl iph ≤ len) := by
  unfold l3Ipv4Passing
  split
  · rename_i hv
    exact iff_of_true (fun _ hp => (nomatch hp)) fun he => absurd he.version hv
  split
  · rename_i hl
    exact iff_of_true (fun _ hp => (nomatch hp)) fun he => absurd he.headerLength (by omega)
  split
  · rename_i hr
    exact iff_of_true (fun _ hp => (nomatch hp)) fun he => absurd hr he.relay
  split
  · rename_i hv hl hr hp
    have he : Encapsulated iph := ⟨Decidable.not_not.mp hv, by omega, hr, hp⟩
    rw [List.forall_mem_cons]
    constructor
    · exact fun hall _ => hall.1.noWrap
    · intro hfit
      have hroom := hfit he
      have hrest : (len + 65536 - 4 * ipHl iph) % 65536 = len - 4 * ipHl iph := by omega
      rw [hrest]
      exact ⟨⟨by dsimp only; omega, hroom⟩,
        l4Ipv4Proto41Passing_inside h now b st iph _ (by omega)⟩
  · rename_i hp
    exact iff_of_true (fun _ hp => (nomatch hp)) fun he => absurd he.proto hp

/-- **What the layers pass on.**  For every frame, of which `caplen` bytes were captured: all
regions that `l2_eth` and the layers above it pass on lie in these bytes, by lengths that did not
wrap, exactly when there is room for the headers. -/
theorem inside_iff (i : Nat) (eth : Mem) {caplen : Nat} (hcap : caplen < 2 ^ 32) :
    (∀ p ∈ (l2EthPassing h now b st i eth caplen).2, p.Inside caplen) ↔
      HeadersFit h.endian eth caplen := by
  unfold l2EthPassing
  rw [List.forall_mem_cons]
  by_cases h14 : 14 ≤ caplen
  · have hrest : (caplen + 2 ^ 32 - 14) % 2 ^ 32 = caplen - 14 := by omega
    have hmod := Nat.mod_le (caplen - 14) 65536
    have hfirst : Passed.Inside caplen ⟨.l2Ethtype, 14, caplen - 14, caplen, 14⟩ :=
      ⟨by dsimp only; omega, h14⟩
    rw [hrest, and_iff_right hfirst]
    unfold l2EthtypePassing
    split
    · rename_i htype
      have hlen : Passed.Inside caplen ⟨.l3Ipv4, 14, (caplen - 14) % 65536, caplen - 14, 0⟩ :=
        ⟨by dsimp only; omega, Nat.zero_le _⟩
      rw [List.forall_mem_cons, and_iff_right hlen, l3Ipv4Passing_inside_iff h now b st _
        (Nat.mod_lt _ (by decide)) (by omega)]
      exact ⟨fun hfit => ⟨h14, fun _ => hfit⟩, fun hfit => hfit.ipv4 htype⟩
    · rename_i htype
      refine iff_of_true ?_ ⟨h14, fun ht => absurd ht htype⟩
      split
      · intro p hp
        rw [List.mem_singleton.mp hp]
        exact ⟨by dsimp only; omega, Nat.zero_le _⟩
      · exact fun _ hp => (nomatch hp)
  · exact iff_of_false (fun hall => h14 hall.1.noWrap) fun hfit => h14 hfit.ethernet

end

/-- A frame with an encapsulated packet of `n` zeros, and `hl` for the length of its IPv4 header. -/
def encapsulatedFrame (hl : UInt8) (n : Nat) : List UInt8 :=
  List.replicate 12 0 ++ [0x08, 0x00] ++ [0x40 + hl, 0, 0, 0, 0, 0, 0, 0, 64, ipprotoIpv6, 0, 0] ++
    [192, 0, 2, 1] ++ [192, 0, 2, 2] ++ List.replicate n 0

/-- A system in tunnel mode, where a tunnel leads to each address. -/
def anyTunnel : Tunnels := ⟨true, fun _ _ => false, fun _ _ => some 1, id, fun _ => rfl⟩

/-- An IPv4 header of twenty bytes: the packet goes through all layers. -/
theorem short_header_inside :
    (l2EthPassing (quietHost .little) 0 anyTunnel oneLink 1
      (Mem.ofList (encapsulatedFrame 5 40)) 74).2.length = 5 ∧
    ∀ p ∈ (l2EthPassing (quietHost .little) 0 anyTunnel oneLink 1
      (Mem.ofList (encapsulatedFrame 5 40)) 74).2, p.Inside 74 :=
  ⟨by decide, (inside_iff (quietHost .little) 0 anyTunnel oneLink 1
    (Mem.ofList (encapsulatedFrame 5 40)) (by decide)).mpr ⟨by decide, fun _ _ => by decide⟩⟩

/-- An IPv4 header of sixty bytes in a frame that has forty-six: `l3_ipv6` is given 65522 bytes,
which begin behind the frame. -/
theorem long_header_outside :
    (encapsulatedFrame 15 26).length = 60 ∧
    ⟨.l3Ipv6, 74, 65522, 65522, 0⟩ ∈ (l2EthPassing (quietHost .little) 0 anyTunnel oneLink 1
      (Mem.ofList (encapsulatedFrame 15 26)) 60).2 ∧
    ¬ ∀ p ∈ (l2EthPassing (quietHost .little) 0 anyTunnel oneLink 1
      (Mem.ofList (encapsulatedFrame 15 26)) 60).2, p.Inside 60 := by
  decide

end Ecmh
