/-
# The interface scan, and the order of its list

`update_interfaces` without an interface goes over the list of `getifaddrs` once.  An IPv4 entry
that comes before the first IPv6 entry of a new interface creates the interface and destroys it
again, and the slot is cleared each time it is created; all the same the outcome does not depend
on the order.

`Addrs` is what an interface learns from a list, and `scanCell` how one entry adds to it.
`scanEntry_addrsOf` says that an entry does that to its own interface and nothing to any other, so
that a scan is one small fold for each interface (`scan_addrsOf`).
-/
import Ecmh.IntTable

namespace Ecmh

/-! ## 1. What an interface learns -/

/-- The two IPv6 addresses of an interface. -/
structure Addrs where
  linklocal : In6Addr
  global : In6Addr
  deriving DecidableEq

/-- Those of an interface that has just been created. -/
def Addrs.none : Addrs := ⟨In6Addr.any, In6Addr.any⟩

/-- The address of an entry takes the place of the one of its kind. -/
def Addrs.learn (addrs : Addrs) (ifa : IfAddr) : Addrs :=
  if in6IsAddrLinklocal ifa.addr then { addrs with linklocal := ifa.addr }
  else { addrs with global := ifa.addr }

/-- An entry that names an IPv6 address to be used: the interface is up, running and no loopback,
and the address is not unspecified, loopback or multicast. -/
structure UsableIpv6 (ifa : IfAddr) : Prop where
  up : ifa.up = true
  running : ifa.running = true
  loopback : ifa.loopback = false
  family : ifa.family = some .inet6
  unspecified : in6IsAddrUnspecified ifa.addr = false
  loopbackAddr : in6IsAddrLoopback ifa.addr = false
  multicast : in6IsAddrMulticast ifa.addr = false

/-- What an entry does to its interface, `none` as long as it is not in use. -/
def scanCell (cell : Option Addrs) (ifa : IfAddr) : Option Addrs :=
  if !scanSkips ifa && ifa.family = some .inet6 then
    match cell with
    | some addrs => some (addrs.learn ifa)
    | none => if intCreates ifa.probe then some (Addrs.none.learn ifa) else none
  else cell

/-- The interface in slot `k`, as the scan sees it. -/
def addrsOf (st : Conf) (k : Nat) : Option Addrs :=
  if (st.intn k).mtu = 0 then none else some ⟨(st.intn k).linklocal, (st.intn k).global⟩

/-- A link-local address is none of those that the loop passes over. -/
theorem linklocal_not_passed {a : In6Addr} (h : in6IsAddrLinklocal a = true) :
    in6IsAddrUnspecified a = false ∧ in6IsAddrLoopback a = false ∧
      in6IsAddrMulticast a = false := by
  have h0 : a.byte 0 = 0xfe := by
    simp only [in6IsAddrLinklocal, Bool.and_eq_true, decide_eq_true_eq] at h
    exact h.1
  have hne : ∀ {l : List UInt8}, l.getD 0 0 ≠ 0xfe → a.s6Addr ≠ l := by
    rintro l hl rfl
    exact hl h0
  refine ⟨?_, ?_, ?_⟩
  · rw [in6IsAddrUnspecified_eq_false]
    exact fun ha => hne (l := In6Addr.any.s6Addr) (by decide) (congrArg In6Addr.s6Addr ha)
  · exact decide_eq_false (hne (by decide))
  · rw [in6IsAddrMulticast, h0]
    decide

theorem usableIpv6_iff {ifa : IfAddr} :
    UsableIpv6 ifa ↔ (!scanSkips ifa && ifa.family = some .inet6) = true := by
  obtain ⟨ifindex, up, running, loopback, family, addr, probe⟩ := ifa
  constructor
  · rintro ⟨rfl, rfl, rfl, rfl, hu, hl, hm⟩
    simp only at hu hl hm
    simp [scanSkips, hu, hl, hm]
  · intro h
    simp only [Bool.and_eq_true, Bool.not_eq_true', decide_eq_true_eq] at h
    obtain ⟨hskip, rfl⟩ := h
    simp only [scanSkips, Bool.or_eq_false_iff, Bool.not_eq_false', Bool.and_eq_false_imp] at hskip
    obtain ⟨⟨⟨⟨hloop, hup⟩, hrun⟩, -⟩, haddr⟩ := hskip
    by_cases hll : in6IsAddrLinklocal addr = true
    · obtain ⟨hu, hl, hm⟩ := linklocal_not_passed hll
      exact ⟨hup, hrun, hloop, rfl, hu, hl, hm⟩
    · obtain ⟨⟨hu, hl⟩, hm⟩ := haddr (by simp [hll])
      exact ⟨hup, hrun, hloop, rfl, hu, hl, hm⟩

instance : DecidablePred UsableIpv6 := fun _ => decidable_of_iff _ usableIpv6_iff.symm

/-! ## 2. What one entry does -/

theorem addrsOf_isSome {st : Conf} {k : Nat} : (addrsOf st k).isSome ↔ (st.intn k).mtu ≠ 0 := by
  unfold addrsOf
  split <;> simp [*]

theorem addrsOf_eq_some {st : Conf} {k : Nat} (h : (st.intn k).mtu ≠ 0) :
    addrsOf st k = some ⟨(st.intn k).linklocal, (st.intn k).global⟩ := if_neg h

/-- A write to the addresses of a slot. -/
theorem addrsOf_setInt (st : Conf) (i k : Nat) {f : IntNode → IntNode} {g : Addrs → Addrs}
    (hmtu : ∀ a, (f a).mtu = a.mtu)
    (hg : ∀ a, (⟨(f a).linklocal, (f a).global⟩ : Addrs) = g ⟨a.linklocal, a.global⟩) :
    addrsOf (st.setInt i f) k = if i = k then (addrsOf st k).map g else addrsOf st k := by
  by_cases hik : i = k
  · subst hik
    rw [if_pos rfl]
    by_cases hlt : i < st.maxinterfaces
    · have hslot : (st.setInt i f).intn i = f (st.intn i) := by
        rw [setInt_intn, if_pos ⟨rfl, hlt⟩]
      unfold addrsOf
      rw [hslot, hmtu]
      split
      · rfl
      · exact congrArg some (hg _)
    · have hslot : (st.setInt i f).intn i = st.intn i := by
        rw [setInt_intn, if_neg (fun h => hlt h.2)]
      unfold addrsOf
      rw [hslot, intn_of_ge (Nat.not_lt.mp hlt)]
      rfl
  · rw [if_neg hik]
    unfold addrsOf
    rw [setInt_intn_ne _ _ hik]

/-- A usable address is stored in the slot; from any other entry nothing is. -/
theorem scanStore_addrsOf (s : ScanLoop) (i k : Nat) (ifa : IfAddr) :
    addrsOf (scanStore s i ifa).st k =
      if i = k ∧ ifa.family = some .inet6 then (addrsOf s.st k).map (·.learn ifa)
      else addrsOf s.st k := by
  unfold scanStore
  by_cases hf : ifa.family = some .inet6
  · simp only [hf, and_true]
    by_cases hll : in6IsAddrLinklocal ifa.addr = true
    · rw [if_pos hll]
      exact addrsOf_setInt _ _ _ (fun _ => rfl) fun a => by rw [Addrs.learn, if_pos hll]
    · rw [if_neg hll]
      exact addrsOf_setInt _ _ _ (fun _ => rfl) fun a => by rw [Addrs.learn, if_neg hll]
  · rw [if_neg hf, if_neg (fun h => hf h.2)]

/-- Something is stored from a usable IPv6 address only. -/
theorem scanStore_got (st : Conf) (i : Nat) (ifa : IfAddr) :
    ((scanStore ⟨st, false, false⟩ i ifa).gotlinkl ||
      (scanStore ⟨st, false, false⟩ i ifa).gotglobal) = decide (ifa.family = some .inet6) := by
  unfold scanStore
  split
  · split <;> simp [*]
  · simp [*]

section

variable {st : Conf} {ifindex : Nat} {created : Conf × Option Nat}

theorem Created.addrsOf_ne (h : Created st ifindex created) {k : Nat} (hk : k ≠ ifindex) :
    addrsOf created.1 k = addrsOf st k := by
  unfold addrsOf
  rw [h.others k hk]

theorem Created.addrsOf_some (h : Created st ifindex created) (hs : created.2 = some ifindex) :
    addrsOf created.1 ifindex = some Addrs.none := by
  obtain ⟨-, hmtu, hl, hg⟩ := h.inUse hs
  rw [addrsOf_eq_some (by omega), hl, hg]
  rfl

theorem Created.addrsOf_none (h : Created st ifindex created) (hs : created.2 = none)
    (hdead : addrsOf st ifindex = none) : addrsOf created.1 ifindex = none := by
  rcases h.failed hs with hslot | hmtu
  · rw [← hdead]
    unfold addrsOf
    rw [hslot]
  · exact if_pos hmtu

end

theorem intDestroy_addrsOf (st : Conf) (i k : Nat) :
    addrsOf (intDestroy st i) k = if i = k then none else addrsOf st k := by
  by_cases hik : i = k
  · subst hik
    rw [if_pos rfl]
    exact if_pos (intDestroy_mtu st i)
  · rw [if_neg hik, addrsOf, addrsOf, intDestroy, setInt_intn_ne _ _ hik]

theorem intFind_eq_none {st : Conf} {ifindex : Nat} :
    intFind st ifindex = none ↔ addrsOf st ifindex = none := by
  rw [← Option.not_isSome_iff_eq_none, ← Option.not_isSome_iff_eq_none, not_iff_not,
    addrsOf_isSome, Option.isSome_iff_exists]
  simp only [intFind_eq_some]
  constructor
  · rintro ⟨i, -, -, hmtu⟩
    exact hmtu
  · intro hmtu
    refine ⟨ifindex, rfl, Nat.lt_of_not_le fun hle => hmtu ?_, hmtu⟩
    rw [intn_of_ge hle]
    rfl

/-- **One entry** does to its own interface what `scanCell` says, and nothing to the others. -/
theorem scanEntry_addrsOf (st : Conf) (ifa : IfAddr) (k : Nat) :
    addrsOf (scanEntry st ifa) k =
      if ifa.ifindex = k then scanCell (addrsOf st k) ifa else addrsOf st k := by
  unfold scanEntry
  by_cases hskip : scanSkips ifa = true
  · simp [hskip, scanCell]
  rw [if_neg hskip]
  have hcell : ∀ cell, scanCell cell ifa = if ifa.family = some .inet6 then
      (match cell with
        | some addrs => some (addrs.learn ifa)
        | none => if intCreates ifa.probe then some (Addrs.none.learn ifa) else none)
      else cell := by
    intro cell
    simp [scanCell, hskip]
  rw [hcell]
  rcases hfind : intFind st ifa.ifindex with - | i
  · have hdead : addrsOf st ifa.ifindex = none := intFind_eq_none.mp hfind
    have hcreated := intCreate_created st ifa.ifindex ifa.probe
    have hsome := intCreate_eq_some_iff st ifa.ifindex ifa.probe
    rcases hcr : intCreate st ifa.ifindex ifa.probe with ⟨st1, i⟩
    rw [hcr] at hcreated hsome
    dsimp only at hcreated hsome ⊢
    rcases hcreated.returned with hi | hi <;> dsimp only at hi <;> subst hi
    · have hborn := hcreated.addrsOf_some rfl
      have hp : intCreates ifa.probe = true := hsome.mp rfl
      have hothers : ∀ k, ifa.ifindex ≠ k → addrsOf st1 k = addrsOf st k := fun k hk =>
        hcreated.addrsOf_ne (Ne.symm hk)
      dsimp only at hborn ⊢
      rw [scanStore_got]
      by_cases hf : ifa.family = some .inet6
      · rw [if_pos (decide_eq_true hf), scanStore_addrsOf]
        by_cases hk : ifa.ifindex = k
        · subst hk
          simp only [hf, and_self, if_true, hborn, hdead, hp, Option.map_some]
        · rw [if_neg hk, if_neg (fun h => hk h.1), hothers k hk]
      · -- an IPv4 entry: the interface is destroyed again
        rw [if_neg (by simpa using hf), intDestroy_addrsOf]
        by_cases hk : ifa.ifindex = k
        · subst hk
          simp only [hf, if_true, if_false, hdead]
        · rw [if_neg hk, if_neg hk, scanStore_addrsOf, if_neg (fun h => hk h.1), hothers k hk]
    · have hp : intCreates ifa.probe = false := by
        rw [← Bool.not_eq_true, ← hsome]
        exact fun h => (nomatch h)
      by_cases hk : ifa.ifindex = k
      · subst hk
        rw [if_pos rfl, hcreated.addrsOf_none rfl hdead, hdead]
        simp only [hp, Bool.false_eq_true, if_false, ite_self]
      · rw [if_neg hk]
        exact hcreated.addrsOf_ne (Ne.symm hk)
  · obtain ⟨rfl, -, hmtu⟩ := intFind_eq_some.mp hfind
    dsimp only
    rw [scanStore_addrsOf]
    by_cases hk : ifa.ifindex = k
    · subst hk
      simp only [true_and, if_true, addrsOf_eq_some hmtu, Option.map_some]
    · rw [if_neg hk, if_neg (fun h => hk h.1)]

/-! ## 3. A whole scan -/

/-- **A scan is one small fold for each interface.** -/
theorem scan_addrsOf (st : Conf) (ifap : List IfAddr) (k : Nat) :
    addrsOf (ifap.foldl scanEntry st) k
      = (ifap.filter (fun ifa => ifa.ifindex = k)).foldl scanCell (addrsOf st k) :=
  Runs.foldl_view IfAddr.ifindex k (addrsOf · k) (fun st ifa => scanEntry_addrsOf st ifa k) ifap st

theorem scanCell_of_usable {ifa : IfAddr} (h : UsableIpv6 ifa) (cell : Option Addrs) :
    scanCell cell ifa = match cell with
      | some addrs => some (addrs.learn ifa)
      | none => if intCreates ifa.probe then some (Addrs.none.learn ifa) else none :=
  if_pos (usableIpv6_iff.mp h)

theorem scanCell_of_not_usable {ifa : IfAddr} (h : ¬ UsableIpv6 ifa) (cell : Option Addrs) :
    scanCell cell ifa = cell :=
  if_neg fun hc => h (usableIpv6_iff.mpr hc)

/-- An interface comes into use with its first usable IPv6 entry, and stays in use. -/
theorem foldl_scanCell_isSome (l : List IfAddr) (cell : Option Addrs) :
    (l.foldl scanCell cell).isSome ↔
      cell.isSome ∨ ∃ ifa ∈ l, UsableIpv6 ifa ∧ intCreates ifa.probe = true := by
  induction l generalizing cell with
  | nil => simp
  | cons ifa l ih =>
    simp only [List.foldl_cons, ih, List.mem_cons, exists_eq_or_imp, ← or_assoc]
    refine or_congr ?_ Iff.rfl
    by_cases hu : UsableIpv6 ifa
    · rw [scanCell_of_usable hu]
      rcases cell with - | addrs
      · by_cases hp : intCreates ifa.probe = true <;> simp [hp, hu]
      · simp
    · simp [scanCell_of_not_usable hu, hu]

theorem learn_comm {a b : IfAddr}
    (h : in6IsAddrLinklocal a.addr = in6IsAddrLinklocal b.addr → a.addr = b.addr) (addrs : Addrs) :
    (addrs.learn a).learn b = (addrs.learn b).learn a := by
  by_cases ha : in6IsAddrLinklocal a.addr = true <;>
    by_cases hb : in6IsAddrLinklocal b.addr = true <;>
    simp only [Addrs.learn, ha, hb, if_true, if_false, Bool.false_eq_true]
  · rw [h (ha.trans hb.symm)]
  · rw [h (by rw [Bool.eq_false_iff.mpr ha, Bool.eq_false_iff.mpr hb])]

/-- Two entries of one interface can be exchanged. -/
theorem scanCell_comm {a b : IfAddr} (hok : intCreates a.probe = intCreates b.probe)
    (h : UsableIpv6 a → UsableIpv6 b →
      in6IsAddrLinklocal a.addr = in6IsAddrLinklocal b.addr → a.addr = b.addr)
    (cell : Option Addrs) : scanCell (scanCell cell a) b = scanCell (scanCell cell b) a := by
  by_cases ha : UsableIpv6 a
  · by_cases hb : UsableIpv6 b
    · have hlearn := learn_comm (h ha hb)
      simp only [scanCell_of_usable ha, scanCell_of_usable hb]
      rcases cell with - | addrs
      · by_cases hp : intCreates a.probe = true
        · have hp' : intCreates b.probe = true := hok ▸ hp
          simp only [hp, hp', if_true, hlearn]
        · have hp' : ¬ intCreates b.probe = true := hok ▸ hp
          simp only [hp, hp', Bool.false_eq_true, if_false]
      · simp only [hlearn]
    · simp only [scanCell_of_not_usable hb]
  · simp only [scanCell_of_not_usable ha]

/-- The list gives each interface one link-local address at most, and one global one. -/
def OneOfEachKind (ifap : List IfAddr) : Prop :=
  ∀ a ∈ ifap, ∀ b ∈ ifap, UsableIpv6 a → UsableIpv6 b → a.ifindex = b.ifindex →
    in6IsAddrLinklocal a.addr = in6IsAddrLinklocal b.addr → a.addr = b.addr

theorem updateInterfaces_open {now : Nat} {st : Conf} (hgate : st.lastUpdate + 5 * 60 ≤ now)
    (ifap : List IfAddr) : updateInterfaces now st none (some ifap)
      = ifap.foldl scanEntry { st with lastUpdate := now } :=
  if_neg (Nat.not_lt.mpr hgate)

/-- **The outcome of a scan, whatever the order.**  `int_create` succeeds for the interfaces of
`ok`.  In use afterwards are the interfaces that were, and those of `ok` with a usable IPv6 address
in the list; and each has the same two addresses after every permutation of the list, if it gives
no interface two of a kind. -/
theorem updateInterfaces_anyOrder (now : Nat) (st : Conf) (ifap : List IfAddr) (ok : Nat → Bool)
    (hgate : st.lastUpdate + 5 * 60 ≤ now)
    (hok : ∀ ifa ∈ ifap, intCreates ifa.probe = ok ifa.ifindex) :
    (∀ k, ((updateInterfaces now st none (some ifap)).intn k).mtu ≠ 0 ↔
      (st.intn k).mtu ≠ 0 ∨ ok k = true ∧ ∃ ifa ∈ ifap, ifa.ifindex = k ∧ UsableIpv6 ifa) ∧
    (OneOfEachKind ifap → ∀ ifap', ifap.Perm ifap' → ∀ k,
      addrsOf (updateInterfaces now st none (some ifap')) k
        = addrsOf (updateInterfaces now st none (some ifap)) k) := by
  have hcell : ∀ (l : List IfAddr) (k : Nat),
      addrsOf (updateInterfaces now st none (some l)) k
        = (l.filter (fun ifa => ifa.ifindex = k)).foldl scanCell (addrsOf st k) := fun l k => by
    rw [updateInterfaces_open hgate, scan_addrsOf]
    rfl
  refine ⟨fun k => ?_, fun hone ifap' hperm k => ?_⟩
  · rw [← addrsOf_isSome, hcell, foldl_scanCell_isSome, addrsOf_isSome]
    refine or_congr Iff.rfl ⟨?_, ?_⟩
    · rintro ⟨ifa, hifa, hu, hp⟩
      obtain ⟨hmem, hk⟩ := List.mem_filter.mp hifa
      have hk : ifa.ifindex = k := by simpa using hk
      exact ⟨by rw [← hk, ← hok ifa hmem, hp], ifa, hmem, hk, hu⟩
    · rintro ⟨hokk, ifa, hmem, rfl, hu⟩
      exact ⟨ifa, List.mem_filter.mpr ⟨hmem, by simp⟩, hu, by rw [hok ifa hmem, hokk]⟩
  · rw [hcell, hcell]
    refine ((hperm.filter _).foldl_eq' (fun a ha b hb cell => ?_) _).symm
    obtain ⟨ha, hka⟩ := List.mem_filter.mp ha
    obtain ⟨hb, hkb⟩ := List.mem_filter.mp hb
    have hab : a.ifindex = b.ifindex := by
      simp only [decide_eq_true_eq] at hka hkb
      rw [hka, hkb]
    exact scanCell_comm (by rw [hok a ha, hok b hb, hab])
      (fun hua hub => hone a ha b hb hua hub hab) cell

/-- A new interface whose IPv4 address is listed before its link-local one. -/
def ipv4First : List IfAddr :=
  [⟨2, true, true, false, some .inet, In6Addr.any, ethernetProbe⟩,
    ⟨2, true, true, false, some .inet6, linkLocalHost, ethernetProbe⟩]

theorem ipv4First_reversed :
    ((updateInterfaces 300 oneLink none (some ipv4First)).intn 2).mtu ≠ 0 ∧
    addrsOf (updateInterfaces 300 oneLink none (some ipv4First.reverse)) 2
      = addrsOf (updateInterfaces 300 oneLink none (some ipv4First)) 2 := by
  obtain ⟨hlive, hsame⟩ := updateInterfaces_anyOrder 300 oneLink ipv4First (fun _ => true)
    (by decide) (by decide)
  refine ⟨(hlive 2).mpr (Or.inr ⟨rfl, by decide⟩), hsame ?_ _ ipv4First.reverse_perm.symm 2⟩
  unfold OneOfEachKind
  decide

end Ecmh
