/-
# References to interfaces that are gone

Three indexes of the BPF build refer to interfaces: the descriptors in `selectset`, the masters of
the tunnels, and `g_conf->locals`.  They should refer to interfaces in use (`RefsLive`), but
`int_destroy` clears none of them, `int_create` may move the array that the last two point into,
and a tunnel can get another tunnel, without a device, as its master.

A run is a sequence of creations, of destructions and of addresses that are stored.  `Devices` is
what each of them keeps.  `Safe` says that a call hits none of the three defects, and `refsLive_iff`
that the references are good all along a run exactly when all its calls are safe.
-/
import Ecmh.BpfTable
import Mathlib.Data.Finset.Basic

namespace Ecmh.Bpf

open ByteMem

/-! ## 1. The calls -/

/-- The calls that the daemon makes about its interfaces: `int_create`, `int_destroy`, and the
storing of an address that the scan has found. -/
inductive RefOp
  | create (ifindex : Nat) (tunnel : Bool) (probe : IfProbe) (bpf : BpfProbe)
  | destroy (i : Nat)
  | store (i : Nat) (ifa : IfAddr)

/-- One call; `int_create` is called for interfaces that `int_find` does not find. -/
def refStep (freed : IntPtr → IntNode) (st : Conf) : RefOp → Conf
  | .create ifindex tunnel probe bpf =>
    match intFind st ifindex with
    | some _ => st
    | none => (intCreate st ifindex tunnel probe bpf).1
  | .destroy i => intDestroy st i
  | .store i ifa => (scanStore freed st i ifa).1

def Live (st : Conf) (k : Nat) : Prop := (st.intn k).mtu ≠ 0

/-- What the callers and the kernel see to: `open` returns a descriptor that is not open, and the
interface that is destroyed, or gets an address, is in use.  (`sendpacket6` may destroy one again
that has no device any more.) -/
def Allowed (st : Conf) : RefOp → Prop
  | .create _ _ _ bpf => ∀ fd, bpf.opened = some fd → fd ∉ st.fds
  | .destroy i => Live st i ∨ (st.intn i).socket = none
  | .store i _ => Live st i

/-! ## 2. The property -/

/-- Every descriptor in `selectset` is the open one of an interface in use, every tunnel in use has
a master in use with an open descriptor, and every entry of `locals` refers to an interface in use.
-/
structure RefsLive (st : Conf) : Prop where
  selectset : ∀ fd ∈ st.selectset, fd ∈ st.fds ∧ ∃ k, Live st k ∧ (st.intn k).socket = some fd
  masters : ∀ k p, Live st k → (st.intn k).master = some p → p.block = st.block ∧
    Live st p.slot ∧ ∃ fd ∈ st.fds, (st.intn p.slot).socket = some fd
  locals : ∀ p ∈ st.locals.nodes, p.block = st.block ∧ Live st p.slot

/-- `realloc` moves the array. -/
def Moves (st : Conf) (i : Nat) (bpf : BpfProbe) : Prop :=
  i + 1 > st.maxinterfaces ∧ bpf.moved = true

/-- A call after which nothing refers to what it takes away: the array is not moved while there are
pointers into it; the master of a new tunnel is another interface, with a device; the interface
that is destroyed has no device, and `locals` does not refer to it. -/
def Safe (st : Conf) : RefOp → Prop
  | .create i tunnel probe bpf => intFind st i = none →
    (Moves st i bpf → (∀ k, Live st k → (st.intn k).master = none) ∧ st.locals.nodes = []) ∧
    ((st.tunnelmode && tunnel) = true → tunnelAnswers probe bpf = true →
      ∀ addr dstaddr master, bpf.phyaddr = some (addr, dstaddr) →
        masterOf st i addr = some master → master ≠ i ∧ (st.intn master).socket ≠ none)
  | .destroy i => (st.intn i).socket = none ∧ ∀ p ∈ st.locals.nodes, p.slot ≠ i
  | .store _ _ => True

/-- What all calls keep: the device of an interface in use is open, in `selectset` and no other
interface's; an interface in use has either a device or a master, and this in tunnel mode only. -/
structure Devices (st : Conf) : Prop where
  opened : ∀ k fd, Live st k → (st.intn k).socket = some fd → fd ∈ st.fds
  selected : ∀ k fd, Live st k → (st.intn k).socket = some fd → fd ∈ st.selectset
  unique : ∀ j k fd, Live st j → Live st k → (st.intn j).socket = some fd →
    (st.intn k).socket = some fd → j = k
  either : ∀ k, Live st k → ((st.intn k).socket = none ↔ (st.intn k).master ≠ none)
  mode : ∀ k, Live st k → (st.intn k).master ≠ none → st.tunnelmode = true

/-! ## 3. Creations -/

theorem not_live_of_intFind {st : Conf} {i : Nat} (h : intFind st i = none) : ¬ Live st i := by
  intro hlive
  have hsome : intFind st i = some i :=
    if_neg (not_or.mpr ⟨Nat.not_le.mpr (lt_maxinterfaces hlive), hlive⟩)
  exact absurd (hsome.symm.trans h) (by simp)

section

variable {st st' : Conf} {i : Nat} {bpf : BpfProbe}

theorem Grown.block_eq_iff (h : Grown st i bpf.moved st') :
    st'.block = st.block ↔ ¬ Moves st i bpf := by
  rw [h.block, intGrow, Moves]
  by_cases hlt : i + 1 > st.maxinterfaces
  · rw [if_pos hlt]
    cases bpf.moved <;> simp [hlt]
  · simp [hlt]

theorem Grown.live_other (h : Grown st i bpf.moved st') {k : Nat} (hk : k ≠ i) :
    Live st' k ↔ Live st k := by
  rw [Live, Live, h.others k hk]

/-- The pointers there are point into the array `block`. -/
def PointInto (st : Conf) (block : Nat) : Prop :=
  (∀ k p, Live st k → (st.intn k).master = some p → p.block = block) ∧
    ∀ p ∈ st.locals.nodes, p.block = block

/-- They do after the call unless the array has been moved while there were any. -/
theorem pointInto_iff (hr : RefsLive st) (hg : Grown st i bpf.moved st') :
    PointInto st st'.block ↔
      (Moves st i bpf → (∀ k, Live st k → (st.intn k).master = none) ∧ st.locals.nodes = []) := by
  by_cases hm : Moves st i bpf
  · have hne : st'.block ≠ st.block := fun h => hg.block_eq_iff.mp h hm
    constructor
    · rintro ⟨hmasters, hlocals⟩ -
      constructor
      · intro k hk
        rcases hmaster : (st.intn k).master with - | p
        · rfl
        · exact absurd ((hmasters k p hk hmaster).symm.trans (hr.masters k p hk hmaster).1) hne
      · refine List.eq_nil_iff_forall_not_mem.mpr fun p hp => ?_
        exact hne ((hlocals p hp).symm.trans (hr.locals p hp).1)
    · intro h
      obtain ⟨hnone, hnil⟩ := h hm
      refine ⟨fun k p hk hmaster => ?_, fun p hp => ?_⟩
      · rw [hnone k hk] at hmaster
        exact nomatch hmaster
      · rw [hnil] at hp
        exact nomatch hp
  · refine iff_of_true ?_ fun h => absurd h hm
    rw [hg.block_eq_iff.mpr hm]
    exact ⟨fun k p hk hmaster => (hr.masters k p hk hmaster).1, fun p hp => (hr.locals p hp).1⟩

variable (hdead : ¬ Live st i) (hg : Grown st i bpf.moved st')

include hdead

theorem live_ne {k : Nat} (hk : Live st k) : k ≠ i := fun h => hdead (h ▸ hk)

include hg

theorem Grown.slot_live {k : Nat} (hk : Live st k) : st'.intn k = st.intn k :=
  hg.others k (live_ne hdead hk)

theorem Grown.live {k : Nat} (hk : Live st k) : Live st' k := by
  rwa [Live, hg.slot_live hdead hk]

theorem pointInto_of_refsLive (hr : RefsLive st') : PointInto st st'.block := by
  constructor
  · intro k p hk hmaster
    rw [← hg.slot_live hdead hk] at hmaster
    exact (hr.masters k p (hg.live hdead hk) hmaster).1
  · rw [← hg.locals]
    exact fun p hp => (hr.locals p hp).1

/-- The references are good after a call that left the old ones good and made good new ones. -/
theorem refsLive_of_pointInto (hr : RefsLive st) (hinto : PointInto st st'.block)
    (hfds : st.fds ⊆ st'.fds)
    (hsel : ∀ fd ∈ st'.selectset, fd ∈ st.selectset ∨
      fd ∈ st'.fds ∧ Live st' i ∧ (st'.intn i).socket = some fd)
    (hmaster : ∀ p, Live st' i → (st'.intn i).master = some p → p.block = st'.block ∧
      Live st' p.slot ∧ ∃ fd ∈ st'.fds, (st'.intn p.slot).socket = some fd) : RefsLive st' := by
  constructor
  · intro fd hfd
    rcases hsel fd hfd with hold | ⟨hopen, hlive, hsock⟩
    · obtain ⟨hopen, k, hk, hsock⟩ := hr.selectset fd hold
      exact ⟨hfds hopen, k, hg.live hdead hk, by rwa [hg.slot_live hdead hk]⟩
    · exact ⟨hopen, i, hlive, hsock⟩
  · intro k p hk hp
    by_cases hki : k = i
    · subst hki
      exact hmaster p hk hp
    · rw [Live, hg.others k hki] at hk
      rw [hg.others k hki] at hp
      obtain ⟨-, hlive, fd, hfd, hsock⟩ := hr.masters k p hk hp
      exact ⟨hinto.1 k p hk hp, hg.live hdead hlive, fd, hfds hfd,
        by rwa [hg.slot_live hdead hlive]⟩
  · intro p hp
    rw [hg.locals] at hp
    exact ⟨hinto.2 p hp, hg.live hdead (hr.locals p hp).2⟩

omit hdead in
/-- The devices are in order after a call that left the old ones and made a new one. -/
theorem devices_of_grown (hd : Devices st) (hfds : st.fds ⊆ st'.fds)
    (hsel : st.selectset ⊆ st'.selectset)
    (hnew : Live st' i → ∀ fd, (st'.intn i).socket = some fd →
      fd ∉ st.fds ∧ fd ∈ st'.fds ∧ fd ∈ st'.selectset)
    (heither : Live st' i → ((st'.intn i).socket = none ↔ (st'.intn i).master ≠ none))
    (hmode : Live st' i → (st'.intn i).master ≠ none → st.tunnelmode = true) :
    Devices st' := by
  have hback : ∀ k, k ≠ i → Live st' k → Live st k := fun k hk => (hg.live_other hk).mp
  constructor
  · intro k fd hk hsock
    by_cases hki : k = i
    · subst hki
      exact (hnew hk fd hsock).2.1
    · rw [hg.others k hki] at hsock
      exact hfds (hd.opened k fd (hback k hki hk) hsock)
  · intro k fd hk hsock
    by_cases hki : k = i
    · subst hki
      exact (hnew hk fd hsock).2.2
    · rw [hg.others k hki] at hsock
      exact hsel (hd.selected k fd (hback k hki hk) hsock)
  · intro j k fd hj hk hsj hsk
    by_cases hji : j = i <;> by_cases hki : k = i
    · rw [hji, hki]
    · subst hji
      rw [hg.others k hki] at hsk
      exact absurd (hd.opened k fd (hback k hki hk) hsk) (hnew hj fd hsj).1
    · subst hki
      rw [hg.others j hji] at hsj
      exact absurd (hd.opened j fd (hback j hji hj) hsj) (hnew hk fd hsk).1
    · rw [hg.others j hji] at hsj
      rw [hg.others k hki] at hsk
      exact hd.unique j k fd (hback j hji hj) (hback k hki hk) hsj hsk
  · intro k hk
    by_cases hki : k = i
    · subst hki
      exact heither hk
    · rw [hg.others k hki]
      exact hd.either k (hback k hki hk)
  · intro k hk hmaster
    rw [hg.tunnelmode]
    by_cases hki : k = i
    · subst hki
      exact hmode hk hmaster
    · rw [hg.others k hki] at hmaster
      exact hd.mode k (hback k hki hk) hmaster

end

/-- `int_find_ipv4` finds an interface in use. -/
theorem live_of_intFindIpv4 {st : Conf} {isLocal : Bool} {ipv4 : InAddr} {k : Nat}
    (h : intFindIpv4 st isLocal ipv4 = some k) : Live st k := by
  have hk := List.find?_some h
  simp only [Bool.and_eq_true, decide_eq_true_eq] at hk
  exact hk.1

/-- The master that is found is in use, unless it is the new tunnel itself. -/
theorem live_of_masterOf {st : Conf} {i : Nat} {addr : InAddr} {k : Nat}
    (h : masterOf st i addr = some k) (hk : k ≠ i) : Live st k := by
  have hlive := live_of_intFindIpv4 h
  rw [Live, opening, setInt_intn_ne _ _ (Ne.symm hk), intGrow_intn] at hlive
  exact hlive

section

variable {st st' : Conf} {i : Nat} {bpf : BpfProbe} (hdead : ¬ Live st i)
  (hg : Grown st i bpf.moved st') (hd : Devices st) (hr : RefsLive st)

include hdead hg hd hr

/-- After a call that has failed, the references are good if the old ones are. -/
theorem Failed.keeps_iff (hf : Failed st i bpf st')
    (hopened : ∀ fd, bpf.opened = some fd → fd ∉ st.fds) :
    Devices st' ∧ (RefsLive st' ↔ PointInto st st'.block) := by
  have hfds : st'.fds = st.fds := by
    rcases hf.fds with h | ⟨fd, ho, h⟩
    · exact h
    · rw [h, Finset.erase_insert (hopened fd ho)]
  have hdead' : ¬ Live st' i := by
    rcases hf.slot with h | ⟨h, -⟩
    · rwa [Live, h]
    · exact fun hlive => hlive h
  constructor
  · exact devices_of_grown hg hd (Finset.subset_of_eq hfds.symm)
      (Finset.subset_of_eq hf.selectset.symm) (fun h => absurd h hdead')
      (fun h => absurd h hdead') (fun h => absurd h hdead')
  constructor
  · exact pointInto_of_refsLive hdead hg
  · intro hinto
    exact refsLive_of_pointInto hdead hg hr hinto (Finset.subset_of_eq hfds.symm)
      (fun fd hfd => Or.inl (hf.selectset ▸ hfd)) (fun p h => absurd h hdead')

/-- So they are after a call that has opened a device. -/
theorem Native.keeps_iff {fd : Nat} (hn : Native st i bpf fd st')
    (hopened : ∀ fd, bpf.opened = some fd → fd ∉ st.fds) :
    Devices st' ∧ (RefsLive st' ↔ PointInto st st'.block) := by
  have hfds : st.fds ⊆ st'.fds := by
    rw [hn.fds]
    exact Finset.subset_insert fd st.fds
  have hfd : fd ∈ st'.fds := by
    rw [hn.fds]
    exact Finset.mem_insert_self fd st.fds
  have hlive : Live st' i := Nat.ne_of_gt (Nat.lt_of_lt_of_le (by decide) hn.mtu)
  constructor
  · refine devices_of_grown hg hd hfds ?_ (fun _ fd' hsock => ?_) (fun _ => ?_)
      (fun _ hne => absurd hn.master hne)
    · rw [hn.selectset]
      exact Finset.subset_insert fd st.selectset
    · obtain rfl : fd = fd' := Option.some.inj (hn.socket.symm.trans hsock)
      refine ⟨hopened fd hn.opened, hfd, ?_⟩
      rw [hn.selectset]
      exact Finset.mem_insert_self fd st.selectset
    · simp [hn.socket, hn.master]
  constructor
  · exact pointInto_of_refsLive hdead hg
  · intro hinto
    refine refsLive_of_pointInto hdead hg hr hinto hfds ?_ fun p _ hp => ?_
    · intro fd' hfd'
      rw [hn.selectset] at hfd'
      rcases Finset.mem_insert.mp hfd' with rfl | hold
      · exact Or.inr ⟨hfd, hlive, hn.socket⟩
      · exact Or.inl hold
    · rw [hn.master] at hp
      exact nomatch hp

/-- The master of a new tunnel has to be another interface, with a device. -/
theorem Tunnel.keeps_iff {master : Nat} (ht : Tunnel st i bpf master st')
    (hmode : st.tunnelmode = true) :
    Devices st' ∧ (RefsLive st' ↔
      PointInto st st'.block ∧ master ≠ i ∧ (st.intn master).socket ≠ none) := by
  have hlive : Live st' i := Nat.ne_of_gt (Nat.lt_of_lt_of_le (by decide) ht.mtu)
  constructor
  · refine devices_of_grown hg hd (Finset.subset_of_eq ht.fds.symm)
      (Finset.subset_of_eq ht.selectset.symm) (fun _ fd hsock => ?_) (fun _ => ?_)
      (fun _ _ => hmode)
    · rw [ht.socket] at hsock
      exact nomatch hsock
    · simp [ht.socket, ht.master]
  constructor
  · intro hr'
    obtain ⟨-, -, fd, -, hsock⟩ := hr'.masters i _ hlive ht.master
    have hne : master ≠ i := by
      rintro rfl
      exact absurd (ht.socket.symm.trans hsock) (by simp)
    refine ⟨pointInto_of_refsLive hdead hg hr', hne, ?_⟩
    rw [← hg.others master hne, hsock]
    exact Option.some_ne_none fd
  · rintro ⟨hinto, hne, hsock⟩
    obtain ⟨addr, dstaddr, -, hmaster⟩ := ht.found
    have hmlive := live_of_masterOf hmaster hne
    refine refsLive_of_pointInto hdead hg hr hinto (Finset.subset_of_eq ht.fds.symm)
      (fun fd hfd => Or.inl (ht.selectset ▸ hfd)) fun p _ hp => ?_
    obtain rfl : ⟨st'.block, master⟩ = p := Option.some.inj (ht.master.symm.trans hp)
    obtain ⟨fd, hfd⟩ := Option.ne_none_iff_exists'.mp hsock
    refine ⟨rfl, hg.live hdead hmlive, fd, ?_, ?_⟩
    · rw [ht.fds]
      exact hd.opened master fd hmlive hfd
    · rw [hg.others master hne, hfd]

end

/-- **Every creation**: the devices stay in order, and the references stay good exactly when the
call is safe. -/
theorem create_iff {st : Conf} {i : Nat} {tunnel : Bool} {probe : IfProbe} {bpf : BpfProbe}
    (hfind : intFind st i = none) (hd : Devices st) (hr : RefsLive st)
    (hopened : ∀ fd, bpf.opened = some fd → fd ∉ st.fds) :
    Devices (intCreate st i tunnel probe bpf).1 ∧
      (RefsLive (intCreate st i tunnel probe bpf).1 ↔
        Safe st (.create i tunnel probe bpf)) := by
  have hdead := not_live_of_intFind hfind
  obtain ⟨hg, hout⟩ := intCreate_outcome st i tunnel probe bpf
  have hsucc : (st.tunnelmode && tunnel) = true → _ := intCreate_tunnel i probe bpf
  generalize intCreate st i tunnel probe bpf = r at hg hout hsucc ⊢
  obtain ⟨st', res⟩ := r
  dsimp only at hg hsucc ⊢
  have hinto := pointInto_iff hr hg
  rcases hout with ⟨hres, hf⟩ | ⟨hres, hnative, fd, hn⟩ | ⟨hres, htunnel, master, ht⟩
  · obtain ⟨hdev, hrefs⟩ := hf.keeps_iff hdead hg hd hr hopened
    refine ⟨hdev, hrefs.trans ⟨fun h _ => ⟨hinto.mp h, ?_⟩, fun hsafe => hinto.mpr (hsafe hfind).1⟩⟩
    intro htunnel hgood addr dstaddr master hphy hmaster
    have hsome := (hsucc htunnel).mpr ⟨hgood, addr, dstaddr, master, hphy, hmaster⟩
    exact absurd (hsome.symm.trans hres) (by simp)
  · obtain ⟨hdev, hrefs⟩ := hn.keeps_iff hdead hg hd hr hopened
    refine ⟨hdev, hrefs.trans ⟨fun h _ => ⟨hinto.mp h, ?_⟩, fun hsafe => hinto.mpr (hsafe hfind).1⟩⟩
    intro htunnel
    rw [hnative] at htunnel
    exact absurd htunnel Bool.false_ne_true
  · obtain ⟨hdev, hrefs⟩ := ht.keeps_iff hdead hg hd hr (Bool.and_eq_true_iff.mp htunnel).1
    obtain ⟨addr, dstaddr, hphy, hmaster⟩ := ht.found
    refine ⟨hdev, hrefs.trans ⟨fun ⟨h, hgood⟩ _ => ⟨hinto.mp h, ?_⟩, fun hsafe => ?_⟩⟩
    · intro _ _ addr' dstaddr' master' hphy' hmaster'
      obtain ⟨rfl, -⟩ := Prod.mk.inj (Option.some.inj (hphy.symm.trans hphy'))
      obtain rfl := Option.some.inj (hmaster.symm.trans hmaster')
      exact hgood
    · obtain ⟨hmoves, hmasters⟩ := hsafe hfind
      obtain ⟨hanswers, -⟩ := (hsucc htunnel).mp hres
      exact ⟨hinto.mpr hmoves, hmasters htunnel hanswers addr dstaddr master hphy hmaster⟩

/-! ## 4. Destructions -/

section

variable {st st' : Conf} {i : Nat} (hdes : Destroyed st i st')

include hdes

theorem Destroyed.ne {k : Nat} (hk : Live st' k) : k ≠ i := by
  rintro rfl
  exact hk hdes.mtu

theorem Destroyed.live_of {k : Nat} (hk : Live st' k) : Live st k := by
  rwa [Live, ← hdes.others k (hdes.ne hk)]

theorem Destroyed.live {k : Nat} (hki : k ≠ i) (hk : Live st k) : Live st' k := by
  rwa [Live, hdes.others k hki]

/-- The descriptor that is closed belongs to no other interface. -/
theorem Destroyed.devices (hallowed : Live st i ∨ (st.intn i).socket = none) (hd : Devices st) :
    Devices st' := by
  constructor
  · intro k fd hk hsock
    rw [hdes.others k (hdes.ne hk)] at hsock
    have hfd := hd.opened k fd (hdes.live_of hk) hsock
    rw [hdes.fds, closed]
    rcases hown : (st.intn i).socket with - | fd'
    · exact hfd
    · refine Finset.mem_erase.mpr ⟨fun h => hdes.ne hk ?_, hfd⟩
      have hilive : Live st i := hallowed.resolve_right (by simp [hown])
      exact hd.unique k i fd (hdes.live_of hk) hilive hsock (by rw [hown, h])
  · intro k fd hk hsock
    rw [hdes.others k (hdes.ne hk)] at hsock
    rw [hdes.selectset]
    exact hd.selected k fd (hdes.live_of hk) hsock
  · intro j k fd hj hk hsj hsk
    rw [hdes.others j (hdes.ne hj)] at hsj
    rw [hdes.others k (hdes.ne hk)] at hsk
    exact hd.unique j k fd (hdes.live_of hj) (hdes.live_of hk) hsj hsk
  · intro k hk
    rw [hdes.others k (hdes.ne hk)]
    exact hd.either k (hdes.live_of hk)
  · intro k hk hmaster
    rw [hdes.others k (hdes.ne hk)] at hmaster
    rw [hdes.tunnelmode]
    exact hd.mode k (hdes.live_of hk) hmaster

/-- If the references are good afterwards, there was no device to close: its descriptor stays in
`selectset`, and no other interface has it. -/
theorem Destroyed.unused (hallowed : Live st i ∨ (st.intn i).socket = none) (hd : Devices st)
    (hr' : RefsLive st') : (st.intn i).socket = none ∧ ∀ p ∈ st.locals.nodes, p.slot ≠ i := by
  constructor
  · rcases hown : (st.intn i).socket with - | fd
    · rfl
    · have hilive : Live st i := hallowed.resolve_right (by simp [hown])
      have hsel : fd ∈ st'.selectset := hdes.selectset ▸ hd.selected i fd hilive hown
      obtain ⟨-, k, hk, hsock⟩ := hr'.selectset fd hsel
      rw [hdes.others k (hdes.ne hk)] at hsock
      exact absurd (hd.unique k i fd (hdes.live_of hk) hilive hsock hown) (hdes.ne hk)
  · intro p hp
    rw [← hdes.locals] at hp
    exact hdes.ne (hr'.locals p hp).2

/-- Conversely: all references are to interfaces with a device, or from `locals`. -/
theorem Destroyed.refsLive (hr : RefsLive st) (hnone : (st.intn i).socket = none)
    (hlocals : ∀ p ∈ st.locals.nodes, p.slot ≠ i) : RefsLive st' := by
  have hfds : st'.fds = st.fds := by
    rw [hdes.fds, closed, hnone]
  have hdevice : ∀ {k fd}, (st.intn k).socket = some fd → k ≠ i := by
    rintro k fd hsock rfl
    rw [hnone] at hsock
    cases hsock
  constructor
  · intro fd hfd
    rw [hdes.selectset] at hfd
    obtain ⟨hfd, k, hk, hsock⟩ := hr.selectset fd hfd
    refine ⟨hfds ▸ hfd, k, hdes.live (hdevice hsock) hk, ?_⟩
    rwa [hdes.others k (hdevice hsock)]
  · intro k p hk hp
    rw [hdes.others k (hdes.ne hk)] at hp
    obtain ⟨hblock, hplive, fd, hfd, hsock⟩ := hr.masters k p (hdes.live_of hk) hp
    refine ⟨hblock.trans hdes.block.symm, hdes.live (hdevice hsock) hplive, fd, hfds ▸ hfd, ?_⟩
    rwa [hdes.others _ (hdevice hsock)]
  · intro p hp
    rw [hdes.locals] at hp
    obtain ⟨hblock, hplive⟩ := hr.locals p hp
    exact ⟨hblock.trans hdes.block.symm, hdes.live (hlocals p hp) hplive⟩

end

/-- **Every destruction**: the same. -/
theorem destroy_iff {st : Conf} {i : Nat} (hallowed : Live st i ∨ (st.intn i).socket = none)
    (hd : Devices st) (hr : RefsLive st) :
    Devices (intDestroy st i) ∧ (RefsLive (intDestroy st i) ↔ Safe st (.destroy i)) := by
  have hdes := intDestroy_destroyed st i
  refine ⟨hdes.devices hallowed hd, hdes.unused hallowed hd, ?_⟩
  rintro ⟨hnone, hlocals⟩
  exact hdes.refsLive hr hnone hlocals

/-! ## 5. Addresses -/

/-- What the storing of an address does: bytes of the addresses change, and an entry for the
interface may be added to `locals`. -/
structure Stored (i : Nat) (st st' : Conf) : Prop where
  slots : ∀ k, st'.intn k = { st.intn k with addrs := (st'.intn k).addrs }
  block : st'.block = st.block
  selectset : st'.selectset = st.selectset
  fds : st'.fds = st.fds
  tunnelmode : st'.tunnelmode = st.tunnelmode
  locals : ∀ p ∈ st'.locals.nodes, p ∈ st.locals.nodes ∨ p = ⟨st.block, i⟩

theorem Stored.refl (i : Nat) (st : Conf) : Stored i st st :=
  ⟨fun _ => rfl, rfl, rfl, rfl, rfl, fun _ hp => Or.inl hp⟩

theorem Stored.trans {i : Nat} {a b c : Conf} (h1 : Stored i a b) (h2 : Stored i b c) :
    Stored i a c := by
  refine ⟨fun k => ?_, h2.block.trans h1.block, h2.selectset.trans h1.selectset,
    h2.fds.trans h1.fds, h2.tunnelmode.trans h1.tunnelmode, fun p hp => ?_⟩
  · rw [h2.slots k, h1.slots k]
  · rcases h2.locals p hp with hp | hp
    · exact h1.locals p hp
    · exact Or.inr (h1.block ▸ hp)

theorem stored_setInt (i : Nat) (st : Conf) (off : Nat) (bs : List UInt8) : Stored i st
    (st.setInt i (fun intn => { intn with addrs := intn.addrs.write off bs })) := by
  refine ⟨fun k => ?_, rfl, rfl, rfl, rfl, fun _ hp => Or.inl hp⟩
  rw [setInt_intn]
  split <;> rfl

theorem localUpdate_stored (freed : IntPtr → IntNode) (st : Conf) (i : Nat) :
    Stored i st (localUpdate freed st i) := by
  refine Runs.foldl_rel (Stored.refl i) (fun _ _ _ => Stored.trans) (fun st num => ?_) _ st
  split
  · exact .refl i st
  · split
    · exact .refl i st
    · refine ⟨fun _ => rfl, rfl, rfl, rfl, rfl, fun p hp => ?_⟩
      simpa [listnodeAdd] using hp

theorem scanStore_stored (freed : IntPtr → IntNode) (st : Conf) (i : Nat) (ifa : IfAddr) :
    Stored i st (scanStore freed st i ifa).1 := by
  unfold scanStore
  split
  · split
    · exact stored_setInt i st _ _
    · exact stored_setInt i st _ _
  · split
    · have hipv4 : Stored i st (storeIpv4 st i ifa).1 := by
        unfold storeIpv4
        split
        · exact stored_setInt i st _ _
        · exact .refl i st
      dsimp only
      split
      · exact hipv4.trans (localUpdate_stored freed _ i)
      · exact hipv4
    · exact .refl i st

/-- **Every address that is stored** leaves devices and references good. -/
theorem store_keeps {st st' : Conf} {i : Nat} (hs : Stored i st st') (hlive : Live st i)
    (hd : Devices st) (hr : RefsLive st) : Devices st' ∧ RefsLive st' := by
  have hsock : ∀ k, (st'.intn k).socket = (st.intn k).socket := fun k => by rw [hs.slots k]
  have hmaster : ∀ k, (st'.intn k).master = (st.intn k).master := fun k => by rw [hs.slots k]
  have hiff : ∀ k, Live st' k ↔ Live st k := fun k => by rw [Live, Live, hs.slots k]
  refine ⟨⟨fun k fd => ?_, fun k fd => ?_, fun j k fd => ?_, fun k => ?_, fun k => ?_⟩,
    ⟨fun fd => ?_, fun k p => ?_, fun p hp => ?_⟩⟩
  · rw [hiff, hsock, hs.fds]
    exact hd.opened k fd
  · rw [hiff, hsock, hs.selectset]
    exact hd.selected k fd
  · rw [hiff, hiff, hsock, hsock]
    exact hd.unique j k fd
  · rw [hiff, hsock, hmaster]
    exact hd.either k
  · rw [hiff, hmaster, hs.tunnelmode]
    exact hd.mode k
  · simp only [hs.selectset, hs.fds, hiff, hsock]
    exact hr.selectset fd
  · simp only [hiff, hmaster, hs.block, hs.fds, hsock]
    exact hr.masters k p
  · rw [hiff, hs.block]
    rcases hs.locals p hp with hp | rfl
    · exact hr.locals p hp
    · exact ⟨rfl, hlive⟩

/-! ## 6. Runs -/

/-- One call. -/
theorem refStep_iff (freed : IntPtr → IntNode) {st : Conf} {op : RefOp} (ha : Allowed st op)
    (hd : Devices st) (hr : RefsLive st) :
    Devices (refStep freed st op) ∧ (RefsLive (refStep freed st op) ↔ Safe st op) := by
  cases op with
  | create i tunnel probe bpf =>
    rcases hfind : intFind st i with - | k
    · rw [refStep, hfind]
      exact create_iff hfind hd hr ha
    · rw [refStep, hfind]
      refine ⟨hd, iff_of_true hr fun h => ?_⟩
      rw [hfind] at h
      exact nomatch h
  | destroy i => exact destroy_iff ha hd hr
  | store i ifa =>
    obtain ⟨hd', hr'⟩ := store_keeps (scanStore_stored freed st i ifa) ha hd hr
    exact ⟨hd', iff_of_true hr' trivial⟩

/-- **The references to interfaces.**  In every run of creations, destructions and stored addresses
from the start of the daemon, in which the callers and the kernel do their part, the references are
good all along if and only if all calls are safe. -/
theorem refsLive_iff (freed : IntPtr → IntNode) (o : Options) (ops : List RefOp)
    (hops : Runs.StepsMeet (refStep freed) Allowed (init o) ops) :
    Runs.Always (refStep freed) RefsLive (init o) ops ↔
      Runs.StepsMeet (refStep freed) Safe (init o) ops := by
  have hdead : ∀ k, ¬ Live (init o) k := fun k h => h rfl
  have hd : Devices (init o) := ⟨fun k _ h => absurd h (hdead k), fun k _ h => absurd h (hdead k),
    fun k _ _ h => absurd h (hdead k), fun k h => absurd h (hdead k),
    fun k h => absurd h (hdead k)⟩
  have hr : RefsLive (init o) := ⟨fun _ h => absurd h (Finset.notMem_empty _),
    fun k _ h => absurd h (hdead k), fun _ h => (nomatch h)⟩
  refine Runs.always_iff_stepsMeet_of (A := Allowed) (I := fun st => Devices st ∧ RefsLive st)
    ?_ ?_ ops (init o) ⟨hd, hr⟩ hr hops
  · rintro st op ⟨hd, hr⟩ ha hsafe
    obtain ⟨hd', hiff⟩ := refStep_iff freed ha hd hr
    exact ⟨hd', hiff.mpr hsafe⟩
  · rintro st op ⟨hd, hr⟩ ha
    exact (refStep_iff freed ha hd hr).2

/-- The creation of an Ethernet interface, whose BPF device is descriptor `fd`. -/
def createDevice (i fd : Nat) : RefOp := .create i false ethernetProbe (deviceProbe fd)

/-- The entry of a scan for its address, 192.0.2.1. -/
def deviceEntry : IfAddr :=
  { ifindex := 1, up := true, running := true, loopback := false, family := some .inet
    addr := ⟨[192, 0, 2, 1] ++ List.replicate 12 0, rfl⟩, probe := ethernetProbe
    pointopoint := false, bpf := deviceProbe 3 }

/-- A tunnel from this address. -/
def tunnelProbe : BpfProbe :=
  ⟨false, none, true, true, true, true, none, none, true, some ([192, 0, 2, 1], [192, 0, 2, 2])⟩

/-- An interface gets its address, and a tunnel over it comes and goes. -/
def tunnelOps : List RefOp :=
  [createDevice 1 3, .store 1 deviceEntry, .create 2 true ethernetProbe tunnelProbe, .destroy 2]

theorem tunnel_refsLive : Runs.Always (refStep fun _ => IntNode.zero) RefsLive
    (init ⟨none, true, true⟩) tunnelOps := by
  refine (refsLive_iff _ _ _ ?_).mpr ?_ <;>
    rw [tunnelOps, Runs.stepsMeet_cons, Runs.stepsMeet_cons, Runs.stepsMeet_cons,
      Runs.stepsMeet_cons]
  · refine ⟨fun _ _ => Finset.notMem_empty _, ?_, ?_, Or.inl ?_, Runs.stepsMeet_nil _ _⟩
    · unfold Allowed Live
      decide +kernel
    · rintro fd ⟨⟩
    · unfold Live
      decide +kernel
  · refine ⟨fun _ => ⟨fun h => absurd h.2 (by decide), fun h => absurd h (by decide)⟩, trivial,
      fun _ => ⟨fun h => absurd h.2 (by decide), ?_⟩, ⟨by decide +kernel, by decide +kernel⟩,
      Runs.stepsMeet_nil _ _⟩
    intro _ _ addr dstaddr master hphy hmaster
    obtain ⟨rfl, rfl⟩ := Prod.mk.inj (Option.some.inj hphy)
    have hone : masterOf (refStep (fun _ => IntNode.zero) (refStep (fun _ => IntNode.zero)
        (init ⟨none, true, true⟩) (createDevice 1 3)) (.store 1 deviceEntry)) 2 [192, 0, 2, 1]
        = some 1 := by decide +kernel
    obtain rfl := Option.some.inj (hone.symm.trans hmaster)
    exact ⟨by decide, by decide +kernel⟩

/-- An interface that is gone leaves its descriptor in `selectset`. -/
theorem closed_device_selected :
    Runs.StepsMeet (refStep fun _ => IntNode.zero) Allowed (init ⟨none, true, true⟩)
      [createDevice 1 3, .destroy 1] ∧
    ¬ RefsLive (Runs.run (refStep fun _ => IntNode.zero) (init ⟨none, true, true⟩)
      [createDevice 1 3, .destroy 1]) := by
  constructor
  · rw [Runs.stepsMeet_cons, Runs.stepsMeet_cons]
    refine ⟨fun _ _ => Finset.notMem_empty _, Or.inl ?_, Runs.stepsMeet_nil _ _⟩
    unfold Live
    decide
  · intro h
    have hopen := (h.selectset 3 (by decide)).1
    revert hopen
    decide

/-! ## 7. The calls of the daemon -/

/-- The kernel opens a new descriptor, if it comes to that. -/
def Opens (st : Conf) (ifa : IfAddr) : Prop := ∀ fd, ifa.bpf.opened = some fd → fd ∉ st.fds

/-- An entry of the scan is a run of such calls. -/
theorem scanEntry_run (freed : IntPtr → IntNode) {st : Conf} {ifa : IfAddr}
    (hopens : Opens st ifa) : ∃ ops, Runs.StepsMeet (refStep freed) Allowed st ops ∧
      Runs.run (refStep freed) st ops = scanEntry freed st ifa := by
  unfold scanEntry
  split
  · exact ⟨[], Runs.stepsMeet_nil _ _, rfl⟩
  rcases hfind : intFind st ifa.ifindex with - | i
  · have hcreate : refStep freed st (.create ifa.ifindex ifa.pointopoint ifa.probe ifa.bpf)
        = (intCreate st ifa.ifindex ifa.pointopoint ifa.probe ifa.bpf).1 := by
      rw [refStep, hfind]
    obtain ⟨hg, hout⟩ := intCreate_outcome st ifa.ifindex ifa.pointopoint ifa.probe ifa.bpf
    rcases hcr : intCreate st ifa.ifindex ifa.pointopoint ifa.probe ifa.bpf with ⟨st1, i⟩
    rw [hcr] at hcreate hout
    rcases i with - | i
    · exact ⟨[.create ifa.ifindex ifa.pointopoint ifa.probe ifa.bpf],
        Runs.stepsMeet_cons.mpr ⟨hopens, Runs.stepsMeet_nil _ _⟩, hcreate⟩
    · have hborn : i = ifa.ifindex ∧ Live st1 i := by
        rcases hout with ⟨h, -⟩ | ⟨h, -, fd, hn⟩ | ⟨h, -, master, ht⟩
        · exact nomatch h
        · obtain rfl := Option.some.inj h
          exact ⟨rfl, Nat.ne_of_gt (Nat.lt_of_lt_of_le (by decide) hn.mtu)⟩
        · obtain rfl := Option.some.inj h
          exact ⟨rfl, Nat.ne_of_gt (Nat.lt_of_lt_of_le (by decide) ht.mtu)⟩
      have hstored := scanStore_stored freed st1 i ifa
      rcases hst : scanStore freed st1 i ifa with ⟨st2, got⟩
      have hstore : refStep freed st1 (.store i ifa) = st2 := by
        rw [refStep, hst]
      rw [hst] at hstored
      cases got
      · -- nothing was stored: the interface is destroyed again
        refine ⟨[.create ifa.ifindex ifa.pointopoint ifa.probe ifa.bpf, .store i ifa, .destroy i],
          ?_, ?_⟩
        · rw [Runs.stepsMeet_cons, Runs.stepsMeet_cons, Runs.stepsMeet_cons, hcreate, hstore]
          refine ⟨hopens, hborn.2, Or.inl ?_, Runs.stepsMeet_nil _ _⟩
          rw [Live, hstored.slots i]
          exact hborn.2
        · rw [Runs.run_cons, Runs.run_cons, Runs.run_cons, hcreate, hstore]
          dsimp only
          rw [hst]
          rfl
      · refine ⟨[.create ifa.ifindex ifa.pointopoint ifa.probe ifa.bpf, .store i ifa], ?_, ?_⟩
        · rw [Runs.stepsMeet_cons, Runs.stepsMeet_cons, hcreate]
          exact ⟨hopens, hborn.2, Runs.stepsMeet_nil _ _⟩
        · rw [Runs.run_cons, Runs.run_cons, hcreate, hstore]
          dsimp only
          rw [hst]
          rfl
  · have hlive : Live st i := by
      intro hmtu
      unfold intFind at hfind
      split at hfind
      · exact nomatch hfind
      · rename_i hcond
        obtain rfl := Option.some.inj hfind
        exact hcond (Or.inr hmtu)
    exact ⟨[.store i ifa], Runs.stepsMeet_cons.mpr ⟨hlive, Runs.stepsMeet_nil _ _⟩, rfl⟩

/-- So is a whole scan, if the kernel opens new descriptors all along. -/
theorem scan_run (freed : IntPtr → IntNode) : ∀ (ifap : List IfAddr) (st : Conf),
    Runs.StepsMeet (scanEntry freed) Opens st ifap →
    ∃ ops, Runs.StepsMeet (refStep freed) Allowed st ops ∧
      Runs.run (refStep freed) st ops = ifap.foldl (scanEntry freed) st
  | [], _, _ => ⟨[], Runs.stepsMeet_nil _ _, rfl⟩
  | ifa :: ifap, st, h => by
    obtain ⟨hopens, hrest⟩ := Runs.stepsMeet_cons.mp h
    obtain ⟨ops, hops, hrun⟩ := scanEntry_run freed hopens
    obtain ⟨ops', hops', hrun'⟩ := scan_run freed ifap (scanEntry freed st ifa) hrest
    refine ⟨ops ++ ops', Runs.stepsMeet_append.mpr ⟨hops, hrun ▸ hops'⟩, ?_⟩
    rw [Runs.run_append, hrun, hrun', List.foldl_cons]

/-- And `ENXIO` in `sendpacket6` is a destruction. -/
theorem sendpacket6_enxio (e : Endian) (freed : IntPtr → IntNode) (st : Conf) (i : Nat) (iph : Mem)
    (len : Nat) :
    (sendpacket6 e freed st i .enxio iph len).1 = refStep freed st (.destroy i) := rfl

end Ecmh.Bpf
