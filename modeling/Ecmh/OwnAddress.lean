/-
# Whose addresses an interface gets

Before each update an interface has certain addresses, and the list of `getifaddrs` names others for
it; after the update it should have these or those, never one of another interface
(`OwnAddresses`).  A scan for all interfaces keeps to that.  A scan for one interface passes over
the entries of this very interface, where it should pass over all others, so that the interface
learns foreign addresses until it has got one of each kind.

`foreignReach` are the entries that such a scan learns from, and `LearnsOwn` says that the last
address of each kind among them happens to be one of the interface's own.  `ownAddresses_iff`: this
is exactly when the update keeps to the rule.
-/
import Ecmh.Scan

namespace Ecmh

/-! ## 1. The rule -/

/-- The list names this IPv6 address for the interface. -/
def Listed (ifap : List IfAddr) (k : Nat) (a : In6Addr) : Prop :=
  ∃ ifa ∈ ifap, ifa.ifindex = k ∧ ifa.family = some .inet6 ∧ ifa.addr = a

instance (ifap : List IfAddr) (k : Nat) : DecidablePred (Listed ifap k) :=
  fun a => inferInstanceAs (Decidable
    (∃ ifa ∈ ifap, ifa.ifindex = k ∧ ifa.family = some .inet6 ∧ ifa.addr = a))

/-- The addresses before the update: none, if the interface was not in use. -/
def addrsBefore (st : Conf) (k : Nat) : Addrs := (addrsOf st k).getD Addrs.none

/-- Both addresses are the ones from before, or listed for the interface. -/
structure Addrs.Own (addrs before : Addrs) (ifap : List IfAddr) (k : Nat) : Prop where
  linklocal : addrs.linklocal = before.linklocal ∨ Listed ifap k addrs.linklocal
  global : addrs.global = before.global ∨ Listed ifap k addrs.global

/-- Every interface in use after the update has addresses of its own. -/
def OwnAddresses (st st' : Conf) (ifap : List IfAddr) : Prop :=
  ∀ k addrs, addrsOf st' k = some addrs → addrs.Own (addrsBefore st k) ifap k

/-! ## 2. A scan for all interfaces -/

/-- What a cell holds after some entries is what it held before, or the address of one of them. -/
theorem foldl_scanCell_own (ifap : List IfAddr) (k : Nat) :
    ∀ (l : List IfAddr) (cell : Option Addrs) (before : Addrs),
      (∀ ifa ∈ l, ifa ∈ ifap ∧ ifa.ifindex = k) → (cell.getD Addrs.none).Own before ifap k →
      ((l.foldl scanCell cell).getD Addrs.none).Own before ifap k
  | [], _, _, _, h => h
  | ifa :: l, cell, before, hl, h => by
    refine foldl_scanCell_own ifap k l _ before (fun x hx => hl x (List.mem_cons_of_mem _ hx)) ?_
    by_cases hu : UsableIpv6 ifa
    · have hlisted : Listed ifap k ifa.addr :=
        ⟨ifa, (hl ifa (by simp)).1, (hl ifa (by simp)).2, hu.family, rfl⟩
      have hlearn : ((cell.getD Addrs.none).learn ifa).Own before ifap k := by
        unfold Addrs.learn
        split
        · exact ⟨Or.inr hlisted, h.global⟩
        · exact ⟨h.linklocal, Or.inr hlisted⟩
      rw [scanCell_of_usable hu]
      rcases cell with - | addrs
      · dsimp only
        split
        · exact hlearn
        · exact h
      · exact hlearn
    · rwa [scanCell_of_not_usable hu]

/-- **A scan for all interfaces** gives each of them its own addresses only. -/
theorem scan_ownAddresses (st : Conf) (ifap : List IfAddr) :
    OwnAddresses st (ifap.foldl scanEntry st) ifap := by
  intro k addrs h
  rw [scan_addrsOf] at h
  have hown := foldl_scanCell_own ifap k
    (ifap.filter (fun ifa => ifa.ifindex = k)) (addrsOf st k) (addrsBefore st k)
    (fun ifa hifa => by simpa using List.mem_filter.mp hifa) ⟨Or.inl rfl, Or.inl rfl⟩
  rwa [h] at hown

/-! ## 3. A scan for one interface -/

/-- The entries up to the one with which an address of each kind has been seen. -/
def untilBoth : Bool → Bool → List IfAddr → List IfAddr
  | _, _, [] => []
  | gotlinkl, gotglobal, ifa :: next =>
    if (gotlinkl || in6IsAddrLinklocal ifa.addr) && (gotglobal || !in6IsAddrLinklocal ifa.addr) then
      [ifa]
    else
      ifa :: untilBoth (gotlinkl || in6IsAddrLinklocal ifa.addr)
        (gotglobal || !in6IsAddrLinklocal ifa.addr) next

/-- The usable IPv6 entries of the other interfaces. -/
def foreign (i : Nat) (ifap : List IfAddr) : List IfAddr :=
  ifap.filter (fun ifa => decide (UsableIpv6 ifa) && decide (ifa.ifindex ≠ i))

/-- The entries that a scan for the interface `i` learns from. -/
def foreignReach (i : Nat) (ifap : List IfAddr) : List IfAddr :=
  untilBoth false false (foreign i ifap)

theorem foreign_cons_of_not {i : Nat} {ifa : IfAddr} (h : ¬ (UsableIpv6 ifa ∧ ifa.ifindex ≠ i))
    (l : List IfAddr) : foreign i (ifa :: l) = foreign i l :=
  List.filter_cons_of_neg (by simpa using h)

theorem foreign_cons {i : Nat} {ifa : IfAddr} (hu : UsableIpv6 ifa) (hi : ifa.ifindex ≠ i)
    (l : List IfAddr) : foreign i (ifa :: l) = ifa :: foreign i l :=
  List.filter_cons_of_pos (by simp [hu, hi])

theorem scanStore_flags {ifa : IfAddr} (hf : ifa.family = some .inet6) (s : ScanLoop) (i : Nat) :
    (scanStore s i ifa).gotlinkl = (s.gotlinkl || in6IsAddrLinklocal ifa.addr) ∧
    (scanStore s i ifa).gotglobal = (s.gotglobal || !in6IsAddrLinklocal ifa.addr) := by
  unfold scanStore
  rw [if_pos hf]
  split <;> simp_all

theorem scanStore_ifindex (s : ScanLoop) (i : Nat) (ifa : IfAddr) (k : Nat) :
    ((scanStore s i ifa).st.intn k).ifindex = (s.st.intn k).ifindex := by
  unfold scanStore
  split
  · split
    · exact setInt_field IntNode.ifindex (f := fun intn => { intn with linklocal := ifa.addr })
        (fun _ => rfl) s.st i k
    · exact setInt_field IntNode.ifindex (f := fun intn => { intn with global := ifa.addr })
        (fun _ => rfl) s.st i k
  · rfl

/-- No interface changes in anything but its addresses. -/
theorem scanSpecific_field {β : Type} (get : IntNode → β)
    (hl : ∀ a x, get { a with linklocal := x } = get a)
    (hg : ∀ a x, get { a with global := x } = get a) (i k : Nat) :
    ∀ (l : List IfAddr) (s : ScanLoop), get ((scanSpecific i s l).intn k) = get (s.st.intn k)
  | [], _ => rfl
  | ifa :: l, s => by
    have hstore : get ((scanStore s i ifa).st.intn k) = get (s.st.intn k) := by
      unfold scanStore
      split
      · split
        · exact setInt_field get (fun a => hl a ifa.addr) s.st i k
        · exact setInt_field get (fun a => hg a ifa.addr) s.st i k
      · rfl
    rw [scanSpecific]
    split
    · exact scanSpecific_field get hl hg i k l s
    · split
      · exact scanSpecific_field get hl hg i k l s
      · dsimp only
        split
        · exact hstore
        · exact (scanSpecific_field get hl hg i k l _).trans hstore

/-- The loop for one interface is a fold over the foreign entries that it reaches. -/
theorem scanSpecific_addrsOf (i k : Nat) : ∀ (l : List IfAddr) (s : ScanLoop),
    (s.st.intn i).ifindex = i → (s.gotlinkl && s.gotglobal) = false →
    addrsOf (scanSpecific i s l) k =
      if i = k then (addrsOf s.st k).map
        ((untilBoth s.gotlinkl s.gotglobal (foreign i l)).foldl Addrs.learn ·)
      else addrsOf s.st k
  | [], s, _, _ => by simp [scanSpecific, foreign, untilBoth]
  | ifa :: l, s, hslot, hnot => by
    rw [scanSpecific]
    by_cases hskip : scanSkips ifa = true
    · rw [if_pos hskip, scanSpecific_addrsOf i k l s hslot hnot, foreign_cons_of_not]
      exact fun h => absurd (usableIpv6_iff.mp h.1) (by simp [hskip])
    rw [if_neg hskip]
    by_cases hown : (s.st.intn i).ifindex = ifa.ifindex
    · rw [if_pos hown, scanSpecific_addrsOf i k l s hslot hnot, foreign_cons_of_not]
      exact fun h => h.2 (hown.symm.trans hslot)
    rw [if_neg hown]
    by_cases hf : ifa.family = some .inet6
    · have hu : UsableIpv6 ifa := usableIpv6_iff.mpr (by simp [hskip, hf])
      obtain ⟨hgl, hgg⟩ := scanStore_flags hf s i
      have hstore : addrsOf (scanStore s i ifa).st k =
          if i = k then (addrsOf s.st k).map (·.learn ifa) else addrsOf s.st k := by
        rw [scanStore_addrsOf]
        simp only [hf, and_true]
      rw [foreign_cons hu fun h => hown (by rw [hslot, h]), untilBoth]
      dsimp only
      by_cases hboth : ((scanStore s i ifa).gotlinkl && (scanStore s i ifa).gotglobal) = true
      · rw [if_pos hboth, hstore]
        rw [hgl, hgg] at hboth
        rw [if_pos hboth]
        rfl
      · rw [if_neg hboth, scanSpecific_addrsOf i k l (scanStore s i ifa)
          ((scanStore_ifindex s i ifa i).trans hslot) (by simpa using hboth), hstore]
        rw [hgl, hgg] at hboth ⊢
        rw [if_neg hboth]
        by_cases hk : i = k
        · rw [if_pos hk, if_pos hk, if_pos hk, Option.map_map]
          rfl
        · rw [if_neg hk, if_neg hk, if_neg hk]
    · -- nothing is stored from an IPv4 entry
      have hstore : scanStore s i ifa = s := if_neg hf
      rw [hstore]
      dsimp only
      rw [if_neg (by simp [hnot]), scanSpecific_addrsOf i k l s hslot hnot, foreign_cons_of_not]
      exact fun h => hf h.1.family

/-! ## 4. What the fold leaves -/

/-- The last address of a list of entries of the one kind, or the other. -/
def lastAddr (linklocal : Bool) (l : List IfAddr) : Option In6Addr :=
  ((l.map IfAddr.addr).filter (fun a => in6IsAddrLinklocal a = linklocal)).getLast?

theorem foldl_learn (l : List IfAddr) (addrs : Addrs) :
    l.foldl Addrs.learn addrs = ⟨(lastAddr true l).getD addrs.linklocal,
      (lastAddr false l).getD addrs.global⟩ := by
  induction l using List.reverseRecOn with
  | nil => rfl
  | append_singleton l ifa ih =>
    rw [List.foldl_concat, ih, Addrs.learn]
    by_cases hll : in6IsAddrLinklocal ifa.addr = true <;> simp [lastAddr, hll]

/-- The last foreign address of each kind that the scan for the interface reaches, if there is one,
is the one that the interface had, or listed for it as well. -/
structure LearnsOwn (st : Conf) (ifap : List IfAddr) (i : Nat) : Prop where
  linklocal : ∀ a ∈ lastAddr true (foreignReach i ifap),
    a = (addrsBefore st i).linklocal ∨ Listed ifap i a
  global : ∀ a ∈ lastAddr false (foreignReach i ifap),
    a = (addrsBefore st i).global ∨ Listed ifap i a

/-- **Whose addresses an interface gets.**  An update that the gate lets through gives every
interface its own addresses if and only if it is one for all interfaces, or the one for an
interface learns none but that interface's own. -/
theorem ownAddresses_iff (now : Nat) (st : Conf) (specific : Option Nat) (ifap : List IfAddr)
    (hgate : st.lastUpdate + 5 * 60 ≤ now)
    (hspecific : ∀ i, specific = some i → (st.intn i).mtu ≠ 0 ∧ (st.intn i).ifindex = i) :
    OwnAddresses st (updateInterfaces now st specific (some ifap)) ifap ↔
      ∀ i, specific = some i → LearnsOwn st ifap i := by
  rcases specific with - | i
  · rw [updateInterfaces_open hgate]
    exact ⟨fun _ i hi => (nomatch hi),
      fun _ => scan_ownAddresses { st with lastUpdate := now } ifap⟩
  · obtain ⟨hlive, hslot⟩ := hspecific i rfl
    have hrun : updateInterfaces now st (some i) (some ifap)
        = scanSpecific i ⟨{ st with lastUpdate := now }, false, false⟩ ifap :=
      if_neg (Nat.not_lt.mpr hgate)
    have haddrs : ∀ k, addrsOf (scanSpecific i ⟨{ st with lastUpdate := now }, false, false⟩ ifap) k
        = if i = k then (addrsOf st k).map ((foreignReach i ifap).foldl Addrs.learn ·)
          else addrsOf st k := fun k => scanSpecific_addrsOf i k ifap _ hslot rfl
    have hbefore : addrsOf st i = some (addrsBefore st i) := by
      rw [addrsBefore, addrsOf_eq_some hlive]
      rfl
    have hafter := haddrs i
    rw [if_pos rfl, hbefore, Option.map_some, foldl_learn] at hafter
    rw [hrun]
    constructor
    · rintro hown _ ⟨⟩
      obtain ⟨hl, hg⟩ := hown i _ hafter
      constructor
      · intro a ha
        rwa [Option.mem_def.mp ha] at hl
      · intro a ha
        rwa [Option.mem_def.mp ha] at hg
    · intro hlearns k addrs h
      by_cases hk : i = k
      · subst hk
        rw [hafter] at h
        obtain rfl := Option.some.inj h
        obtain ⟨hl, hg⟩ := hlearns i rfl
        constructor
        · rcases hlast : lastAddr true (foreignReach i ifap) with - | a
          · exact Or.inl rfl
          · exact hl a hlast
        · rcases hlast : lastAddr false (foreignReach i ifap) with - | a
          · exact Or.inl rfl
          · exact hg a hlast
      · rw [haddrs, if_neg hk] at h
        rw [addrsBefore, h]
        exact ⟨Or.inl rfl, Or.inl rfl⟩

/-- A list that names an address for each of two interfaces. -/
def ownAndForeign : List IfAddr :=
  [⟨1, true, true, false, some .inet6, globalHost 1, ethernetProbe⟩,
    ⟨2, true, true, false, some .inet6, globalHost 2, ethernetProbe⟩]

/-- Where the list names the addresses of the interface alone, they are not learnt, but nothing else
is either. -/
theorem lone_link_learns_own :
    OwnAddresses oneLink (updateInterfaces 300 oneLink (some 1) (some (ownAndForeign.take 1)))
      (ownAndForeign.take 1) :=
  (ownAddresses_iff 300 oneLink (some 1) (ownAndForeign.take 1) (by decide) (by decide)).mpr
    fun i hi => by
      obtain rfl := Option.some.inj hi
      exact ⟨by decide, by decide⟩

/-- The interface that has just been created gets the address of the other one. -/
theorem foreign_address_learnt :
    ¬ OwnAddresses oneLink (updateInterfaces 300 oneLink (some 1) (some ownAndForeign))
      ownAndForeign := by
  intro h
  have hglobal := (h 1 ⟨In6Addr.any, globalHost 2⟩ (by decide)).global
  revert hglobal
  decide

end Ecmh
