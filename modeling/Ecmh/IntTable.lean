/-
# The invariant of the interface table

An interface in use stands in the slot of its own index, so that `int_find` and the index of a
group-interface speak of the same interface, and its MTU is not below the one that IPv6 asks for
(`IntsOk`).  The handling of a packet keeps the indices and can only take an interface out of use
(`KeepsInts`); `int_create` puts an interface into its slot.  `reachable_intsOk` carries the
invariant over every run.
-/
import Ecmh.Create
import Ecmh.Handling

namespace Ecmh

open ByteMem

/-! ## 1. What is invariant

A slot is in use if its MTU is not zero.  Nothing is said of the others: `int_create` leaves its
index in a slot that it gives up again. -/

/-- An interface in use stands in the slot of its own index, with an MTU fit for IPv6. -/
structure IntsOk (st : Conf) : Prop where
  slot : ∀ k, (st.intn k).mtu ≠ 0 → (st.intn k).ifindex = k
  mtu : ∀ k, (st.intn k).mtu ≠ 0 → 1280 ≤ (st.intn k).mtu

/-- A write to a slot has to care for the index and the MTU only if it leaves the slot in use. -/
theorem setInt_intsOk {st : Conf} (h : IntsOk st) (i : Nat) {f : IntNode → IntNode}
    (hf : (f (st.intn i)).mtu ≠ 0 → (f (st.intn i)).ifindex = i ∧ 1280 ≤ (f (st.intn i)).mtu) :
    IntsOk (st.setInt i f) := by
  constructor <;>
  · intro k hk
    rw [setInt_intn] at hk ⊢
    split at hk
    · rename_i hc
      rw [if_pos hc]
      rw [← hc.1] at hk ⊢
      simp only [hf hk]
    · rename_i hc
      rw [if_neg hc]
      first | exact h.slot k hk | exact h.mtu k hk

/-- A slot out of use has nothing to keep. -/
theorem intDestroy_intsOk {st : Conf} (h : IntsOk st) (i : Nat) : IntsOk (intDestroy st i) :=
  setInt_intsOk h i fun hm => absurd rfl hm

/-- The invariant reads the slots and nothing else: `int_create` may make the array larger. -/
theorem intsOk_of_intn {st st' : Conf} (h : IntsOk st) (hi : ∀ k, st'.intn k = st.intn k) :
    IntsOk st' :=
  ⟨fun k hk => by rw [hi] at hk ⊢; exact h.slot k hk,
    fun k hk => by rw [hi] at hk ⊢; exact h.mtu k hk⟩

/-! ## 2. Creating interfaces, and reading their addresses -/

/-- An interface that `int_create` has put into use is in its slot, and the others are where they
were. -/
theorem Created.intsOk {st : Conf} {ifindex : Nat} {created : Conf × Option Nat}
    (hc : Created st ifindex created) (h : IntsOk st) : IntsOk created.1 := by
  have hslot : ∀ k, (created.1.intn k).mtu ≠ 0 →
      (created.1.intn k).ifindex = k ∧ 1280 ≤ (created.1.intn k).mtu := by
    intro k hk
    by_cases hki : k = ifindex
    · subst hki
      rcases hc.returned with hsome | hnone
      · obtain ⟨hidx, hmtu, -⟩ := hc.inUse hsome
        exact ⟨hidx, hmtu⟩
      · rcases hc.failed hnone with hsame | hzero
        · rw [hsame] at hk ⊢
          exact ⟨h.slot k hk, h.mtu k hk⟩
        · exact absurd hzero hk
    · rw [hc.others k hki] at hk ⊢
      exact ⟨h.slot k hk, h.mtu k hk⟩
  exact ⟨fun k hk => (hslot k hk).1, fun k hk => (hslot k hk).2⟩

/-- `int_create` refuses an MTU below 1280 before it puts the slot into use. -/
theorem intCreate_intsOk {st : Conf} (h : IntsOk st) (ifindex : Nat) (probe : IfProbe) :
    IntsOk (intCreate st ifindex probe).1 :=
  (intCreate_created st ifindex probe).intsOk h

/-- Everything that the handling of a packet may do to the interfaces: their indices stay, and an
interface may fall out of use. -/
def KeepsInts (st st' : Conf) : Prop := ∀ k, (st'.intn k).ifindex = (st.intn k).ifindex ∧
  ((st'.intn k).mtu = (st.intn k).mtu ∨ (st'.intn k).mtu = 0)

theorem KeepsInts.refl (st : Conf) : KeepsInts st st := fun _ => ⟨rfl, Or.inl rfl⟩

theorem KeepsInts.trans {a b c : Conf} (h1 : KeepsInts a b) (h2 : KeepsInts b c) :
    KeepsInts a c := by
  intro k
  refine ⟨(h2 k).1.trans (h1 k).1, ?_⟩
  rcases (h2 k).2 with h | h
  · rw [h]
    exact (h1 k).2
  · exact Or.inr h

/-- What keeps the interfaces keeps the invariant. -/
theorem KeepsInts.intsOk {st st' : Conf} (hk : KeepsInts st st') (h : IntsOk st) : IntsOk st' := by
  have hmtu : ∀ k, (st'.intn k).mtu ≠ 0 → (st'.intn k).mtu = (st.intn k).mtu := fun k hm =>
    (hk k).2.resolve_right hm
  refine ⟨fun k hm => ?_, fun k hm => ?_⟩
  · rw [(hk k).1]
    exact h.slot k (by rwa [← hmtu k hm])
  · rw [hmtu k hm]
    exact h.mtu k (by rwa [← hmtu k hm])

/-- Sending only puts an interface out of use, on `ENXIO`. -/
theorem SendsOnly.keepsInts {on : Nat → Prop} {st st' : Conf} (hs : SendsOnly on st st') :
    KeepsInts st st' :=
  fun k => ⟨hs.ifindex k, (hs.intn k).1⟩

/-- A write that changes neither the index nor whether the interface is in use. -/
theorem setInt_keepsInts (st : Conf) (i : Nat) {f : IntNode → IntNode}
    (hi : ∀ a, (f a).ifindex = a.ifindex) (hm : ∀ a, (f a).mtu = a.mtu) :
    KeepsInts st (st.setInt i f) :=
  fun k => ⟨setInt_field IntNode.ifindex hi st i k, Or.inl (setInt_field IntNode.mtu hm st i k)⟩

theorem setGroups_keepsInts (st : Conf) (groups : Groups) : KeepsInts st (st.setGroups groups) :=
  KeepsInts.refl st

/-- An address is written to a slot in use, whose index and MTU stay. -/
theorem scanStore_intsOk {s : ScanLoop} (h : IntsOk s.st) (i : Nat) (ifa : IfAddr) :
    IntsOk (scanStore s i ifa).st := by
  unfold scanStore
  split
  · split
    · exact (setInt_keepsInts s.st i (f := fun intn => { intn with linklocal := ifa.addr })
        (fun _ => rfl) fun _ => rfl).intsOk h
    · exact (setInt_keepsInts s.st i (f := fun intn => { intn with global := ifa.addr })
        (fun _ => rfl) fun _ => rfl).intsOk h
  · exact h

/-- The scan for one interface, entry by entry, up to the one that ends it. -/
theorem scanSpecific_intsOk (i : Nat) : ∀ {s : ScanLoop} (l : List IfAddr), IntsOk s.st →
    IntsOk (scanSpecific i s l)
  | _, [], h => h
  | s, ifa :: next, h => by
    have hstore := scanStore_intsOk h i ifa
    rw [scanSpecific]
    split
    · exact scanSpecific_intsOk i next h
    · split
      · exact scanSpecific_intsOk i next h
      · dsimp only
        split
        · exact hstore
        · exact scanSpecific_intsOk i next hstore

/-- An entry of the scan for all: the interface is found or created, and the address stored. -/
theorem scanEntry_intsOk {st : Conf} (h : IntsOk st) (ifa : IfAddr) :
    IntsOk (scanEntry st ifa) := by
  have hc := intCreate_intsOk h ifa.ifindex ifa.probe
  unfold scanEntry
  split
  · exact h
  · split
    · exact scanStore_intsOk (s := ⟨st, false, false⟩) h _ ifa
    · split
      · rename_i hcr
        rw [hcr] at hc
        exact hc
      · rename_i st1 i hcr
        rw [hcr] at hc
        have hstore := scanStore_intsOk (s := ⟨st1, false, false⟩) hc i ifa
        dsimp only
        split
        · exact hstore
        · exact intDestroy_intsOk hstore i

/-- **A scan** keeps the invariant, whatever the system lists. -/
theorem updateInterfaces_intsOk (now : Nat) {st : Conf} (h : IntsOk st) (specific : Option Nat)
    (ifap : Option (List IfAddr)) : IntsOk (updateInterfaces now st specific ifap) := by
  unfold updateInterfaces
  split
  · exact h
  · have h1 : IntsOk { st with lastUpdate := now } := intsOk_of_intn h fun _ => rfl
    dsimp only
    split
    · exact h1
    · split
      · exact scanSpecific_intsOk _ (s := ⟨_, false, false⟩) _ h1
      · exact Runs.foldl_invariant (P := IntsOk) (fun _ ifa hs => scanEntry_intsOk hs ifa) _ _ h1

/-- The interface of a frame that is not in the table is created, and its addresses are read. -/
theorem frameInterface_intsOk (now : Nat) {st : Conf} (h : IntsOk st) (f : Frame) :
    IntsOk (frameInterface now st f).1 := by
  have hc := intCreate_intsOk h f.ifindex f.probe
  unfold frameInterface
  split
  · exact h
  · split
    · rename_i hcr
      rw [hcr] at hc
      exact hc
    · rename_i st1 i hcr
      rw [hcr] at hc
      exact updateInterfaces_intsOk now (show IntsOk st1 from hc) (some i) f.ifap

/-! ## 3. Steps and runs

A step of the daemon creates interfaces, stores addresses, or keeps them all (`KeepsInts`). -/

/-- So does everything that a packet makes the daemon do. -/
theorem Handles.keepsInts {st st' : Conf} (hs : Handles st st') : KeepsInts st st' :=
  fun k => ⟨hs.ifindex k, (hs.intn k).1⟩

theorem countIntReceived_keepsInts (st : Conf) (i len : Nat) :
    KeepsInts st (countIntReceived st i len) := by
  intro k
  obtain ⟨p, b, hpb⟩ := countIntReceived_intn st i len k
  rw [hpb]
  exact ⟨rfl, Or.inl rfl⟩

/-- A frame: its interface first, then what is in it. -/
theorem handleinterfaces_intsOk (h : Host) (now : Nat) {st : Conf} (hi : IntsOk st) (f : Frame) :
    IntsOk (handleinterfaces h now st f) := by
  unfold handleinterfaces
  dsimp only
  split
  · exact hi
  · have hcount : IntsOk (countReceived st (min f.len bufferlen)) :=
      intsOk_of_intn hi fun _ => rfl
    have hfr := frameInterface_intsOk now hcount f
    split
    · rename_i hcr
      rw [hcr] at hfr
      exact hfr
    · rename_i st1 i hcr
      rw [hcr] at hfr
      have hc := (countIntReceived_keepsInts st1 i (min f.len bufferlen)).intsOk hfr
      unfold l2Ethtype
      split
      · exact (l3_handles h now _ i _ _).keepsInts.intsOk hc
      · exact hc

/-- **One event** keeps the invariant. -/
theorem step_intsOk (h : Host) {st : Conf} (hi : IntsOk st) (ev : Event) :
    IntsOk (step h st ev) := by
  cases ev with
  | frame now f => exact handleinterfaces_intsOk h now hi f
  | timeout now ifap =>
    refine (sendMldQuerys_sendsOnly h _).keepsInts.intsOk ?_
    exact (setGroups_keepsInts _ _).intsOk (updateInterfaces_intsOk now hi none ifap)
  | sigusr2 now => exact (sigusr2_sendsOnly h st).keepsInts.intsOk hi
  | create now ifindex probe =>
    simp only [step]
    split
    · exact hi
    · exact intCreate_intsOk hi ifindex probe
  | destroy now i => exact intDestroy_intsOk hi i

/-- It holds after the start, from an array of slots out of use. -/
theorem boot_intsOk (h : Host) (o : Options) (now : Nat) (ifap : Option (List IfAddr)) :
    IntsOk (boot h o now ifap) := by
  refine (sendMldQuerys_sendsOnly h _).keepsInts.intsOk (updateInterfaces_intsOk now ?_ none ifap)
  exact ⟨fun k hk => absurd rfl hk, fun k hk => absurd rfl hk⟩

/-- The interface table of a state that the daemon can reach is well-formed. -/
theorem reachable_intsOk {h : Host} {st : Conf} (hr : Reachable h st) : IntsOk st := by
  obtain ⟨o, now, ifap, es, rfl⟩ := hr
  exact Runs.run_invariant (P := IntsOk) (fun _ ev hs => step_intsOk h hs ev) es _
    (boot_intsOk h o now ifap)

end Ecmh
