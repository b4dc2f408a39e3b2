/-
# What the functions of the BPF build do to the interface table

One lemma for each function says everything it can do.  `int_create` ends in one of four ways
(`intCreate_outcome`): there was no socket for its questions; it gave up and took the interface out
of use again; the interface is in use with a BPF device of its own; it is in use as a tunnel, with a
master.
-/
import Ecmh.Bpf

namespace Ecmh.Bpf

open ByteMem

/-! ## 1. Slots -/

section

variable (st : Conf) (i j : Nat) (f : IntNode → IntNode)

/-- A write to a slot, seen from any slot. -/
theorem setInt_intn :
    (st.setInt i f).intn j = if i = j ∧ j < st.maxinterfaces then f (st.intn j) else st.intn j :=
  Slots.getD_modify st.ints i j f

@[simp] theorem setInt_maxinterfaces : (st.setInt i f).maxinterfaces = st.maxinterfaces := by
  simp [Conf.maxinterfaces, Conf.setInt]

/-- Two writes to one slot are one. -/
theorem setInt_setInt (g : IntNode → IntNode) :
    (st.setInt i f).setInt i g = st.setInt i (g ∘ f) := by
  simp [Conf.setInt, List.modify_modify_eq]

end

theorem setInt_intn_ne (st : Conf) {i j : Nat} (f : IntNode → IntNode) (h : i ≠ j) :
    (st.setInt i f).intn j = st.intn j :=
  Slots.getD_modify_ne st.ints f h

theorem setInt_intn_self {st : Conf} {i : Nat} (h : i < st.maxinterfaces)
    (f : IntNode → IntNode) : (st.setInt i f).intn i = f (st.intn i) := by
  rw [setInt_intn, if_pos ⟨rfl, h⟩]

/-- There is nothing behind the end of the table. -/
theorem intn_of_ge {st : Conf} {i : Nat} (h : st.maxinterfaces ≤ i) : st.intn i = IntNode.zero :=
  Slots.getD_of_length_le h

/-- An interface in use has a slot. -/
theorem lt_maxinterfaces {st : Conf} {i : Nat} (h : (st.intn i).mtu ≠ 0) :
    i < st.maxinterfaces := by
  refine Nat.lt_of_not_le fun hle => h ?_
  rw [intn_of_ge hle]
  rfl

section

variable (st : Conf) (i : Nat) (moved : Bool)

theorem intGrow_maxinterfaces :
    (intGrow st i moved).maxinterfaces = max st.maxinterfaces (i + 1) := by
  unfold intGrow
  split
  · exact Slots.length_grow st.ints i
  · omega

/-- The slots that were there keep their contents when the array grows. -/
theorem intGrow_intn (k : Nat) : (intGrow st i moved).intn k = st.intn k := by
  unfold intGrow
  split
  · exact Slots.getD_grow st.ints _ k
  · rfl

end

/-! ## 2. `int_destroy` -/

/-- The BPF devices that are open once the one of the interface is closed. -/
def closed (st : Conf) (i : Nat) : Finset Nat :=
  match (st.intn i).socket with
  | some fd => st.fds.erase fd
  | none => st.fds

/-- What `int_destroy` leaves. -/
structure Destroyed (st : Conf) (i : Nat) (st' : Conf) : Prop where
  maxinterfaces : st'.maxinterfaces = st.maxinterfaces
  others : ∀ k, k ≠ i → st'.intn k = st.intn k
  slot : i < st.maxinterfaces → st'.intn i = { st.intn i with socket := none, mtu := 0 }
  block : st'.block = st.block
  locals : st'.locals = st.locals
  tunnelmode : st'.tunnelmode = st.tunnelmode
  selectset : st'.selectset = st.selectset
  fds : st'.fds = closed st i

/-- **Every call of `int_destroy`.** -/
theorem intDestroy_destroyed (st : Conf) (i : Nat) : Destroyed st i (intDestroy st i) := by
  unfold intDestroy
  rcases hs : (st.intn i).socket with - | fd
  · dsimp only
    refine ⟨setInt_maxinterfaces _ _ _, fun k hk => setInt_intn_ne _ _ (Ne.symm hk), fun hlt => ?_,
      rfl, rfl, rfl, rfl, by rw [closed, hs]; rfl⟩
    rw [setInt_intn_self hlt, ← hs]
  · dsimp only
    refine ⟨?_, fun k hk => ?_, fun hlt => ?_, rfl, rfl, rfl, rfl,
      by rw [closed, hs]; rfl⟩
    · rw [setInt_maxinterfaces]
      exact setInt_maxinterfaces st i _
    · rw [setInt_intn_ne _ _ (Ne.symm hk)]
      exact setInt_intn_ne st _ (Ne.symm hk)
    · have h1 : Conf.intn { st.setInt i (fun intn => { intn with socket := none }) with
          fds := st.fds.erase fd } i = { st.intn i with socket := none } :=
        setInt_intn_self hlt _
      rw [setInt_intn_self, h1]
      exact (setInt_maxinterfaces st i _).symm ▸ hlt

/-- An interface that was destroyed is out of use. -/
theorem Destroyed.mtu {st st' : Conf} {i : Nat} (h : Destroyed st i st') :
    (st'.intn i).mtu = 0 := by
  rcases Nat.lt_or_ge i st.maxinterfaces with hlt | hge
  · rw [h.slot hlt]
  · rw [intn_of_ge (by rwa [h.maxinterfaces])]
    rfl

/-! ## 3. `int_create` -/

/-- The slot once the name and the MTU are known. -/
def named (ifindex : Nat) (name : String) (mtu : Nat) : IntNode :=
  { IntNode.zero with ifindex := ifindex, socket := none, name := name, mtu := mtu }

/-- The state in which `int_create_bpf` is called. -/
def opening (st : Conf) (ifindex : Nat) (moved : Bool) (name : String) (mtu : Nat) : Conf :=
  (intGrow st ifindex moved).setInt ifindex (fun _ => named ifindex name mtu)

/-- What a call of `int_create_bpf` does that has opened a BPF device: the writes to the slot. -/
def device (fd : Nat) (intn : IntNode) (dlt bufferlen : Nat) : IntNode :=
  { intn with socket := some fd, dlt := dlt, bufferlen := bufferlen }

/-- The ways through `int_create_bpf`: it opens nothing and fails; it opens a device and fails; it
opens a device for the interface; it finds the master of a tunnel. -/
theorem intCreateBpf_cases (st : Conf) (i : Nat) (tunnel : Bool) (probe : BpfProbe) :
    intCreateBpf st i tunnel probe = (st, false) ∨
    (∃ fd f, probe.opened = some fd ∧ (∀ a, (f a).socket = some fd) ∧
      intCreateBpf st i tunnel probe
        = ({ st.setInt i f with fds := insert fd st.fds }, false)) ∨
    (∃ fd dlt len, (!st.tunnelmode || !tunnel) = true ∧ probe.opened = some fd ∧
      intCreateBpf st i tunnel probe
        = ({ st.setInt i (fun a => device fd a dlt len) with
              fds := insert fd st.fds
              bufferlen := max len st.bufferlen
              selectset := insert fd st.selectset
              hifd := max fd st.hifd }, true)) ∨
    (∃ addr dstaddr master, (!st.tunnelmode || !tunnel) = false ∧
      probe.phyaddr = some (addr, dstaddr) ∧ intFindIpv4 st true addr = some master ∧
      intCreateBpf st i tunnel probe
        = (st.setInt i (fun a => { a with
              master := some ⟨st.block, master⟩
              addrs := (a.addrs.write 0 addr).write ipv4RemoteOff dstaddr }), true)) := by
  have hwrite : ∀ (f g : IntNode → IntNode) (fds : Finset Nat),
      ({ st.setInt i f with fds := fds } : Conf).setInt i g
        = { st.setInt i (g ∘ f) with fds := fds } := fun f g fds => by
    simp [Conf.setInt, List.modify_modify_eq]
  generalize hr : intCreateBpf st i tunnel probe = r
  unfold intCreateBpf at hr
  split at hr
  · rename_i hnative
    split at hr
    · exact Or.inl hr.symm
    rename_i fd ho
    dsimp only at hr
    refine Or.inr ?_
    split at hr
    · exact Or.inl ⟨fd, _, ho, fun _ => rfl, hr.symm⟩
    split at hr
    · exact Or.inl ⟨fd, _, ho, fun _ => rfl, hr.symm⟩
    split at hr
    · exact Or.inl ⟨fd, _, ho, fun _ => rfl, hr.symm⟩
    split at hr
    · exact Or.inl ⟨fd, _, ho, fun _ => rfl, hr.symm⟩
    split at hr
    · exact Or.inl ⟨fd, _, ho, fun _ => rfl, hr.symm⟩
    rename_i dlt _
    rw [hwrite] at hr
    split at hr
    · exact Or.inl ⟨fd, _, ho, fun _ => rfl, hr.symm⟩
    split at hr
    · exact Or.inl ⟨fd, _, ho, fun _ => rfl, hr.symm⟩
    rename_i len _
    rw [hwrite] at hr
    exact Or.inr (Or.inl ⟨fd, dlt, len, hnative, ho, hr.symm⟩)
  · rename_i hnative
    split at hr
    · exact Or.inl hr.symm
    split at hr
    · exact Or.inl hr.symm
    rename_i addr dstaddr hphy
    split at hr
    · exact Or.inl hr.symm
    rename_i master hmaster
    dsimp only at hr
    rw [setInt_setInt] at hr
    exact Or.inr (Or.inr (Or.inr ⟨addr, dstaddr, master, Bool.eq_false_iff.mpr hnative, hphy,
      hmaster, hr.symm⟩))

/-- What a call of `int_create` does to the rest of the state, whatever comes of it. -/
structure Grown (st : Conf) (i : Nat) (moved : Bool) (st' : Conf) : Prop where
  maxinterfaces : st'.maxinterfaces = max st.maxinterfaces (i + 1)
  block : st'.block = (intGrow st i moved).block
  others : ∀ k, k ≠ i → st'.intn k = st.intn k
  locals : st'.locals = st.locals
  tunnelmode : st'.tunnelmode = st.tunnelmode

/-- The call has failed: the slot is as before, or out of use without a device. -/
structure Failed (st : Conf) (i : Nat) (probe : BpfProbe) (st' : Conf) : Prop where
  slot : st'.intn i = st.intn i ∨ (st'.intn i).mtu = 0 ∧ (st'.intn i).socket = none
  selectset : st'.selectset = st.selectset
  fds : st'.fds = st.fds ∨ ∃ fd, probe.opened = some fd ∧ st'.fds = (insert fd st.fds).erase fd

/-- The interface is in use, with a BPF device. -/
structure Native (st : Conf) (i : Nat) (probe : BpfProbe) (fd : Nat) (st' : Conf) : Prop where
  opened : probe.opened = some fd
  ifindex : (st'.intn i).ifindex = i
  mtu : 1280 ≤ (st'.intn i).mtu
  socket : (st'.intn i).socket = some fd
  master : (st'.intn i).master = none
  selectset : st'.selectset = insert fd st.selectset
  fds : st'.fds = insert fd st.fds

/-- The slot that `int_find_ipv4` finds for a tunnel: the tunnel counts as an interface without
addresses by then. -/
def masterOf (st : Conf) (i : Nat) (addr : InAddr) : Option Nat :=
  intFindIpv4 (opening st i false "" 1280) true addr

/-- The interface is in use, as a tunnel. -/
structure Tunnel (st : Conf) (i : Nat) (probe : BpfProbe) (master : Nat) (st' : Conf) : Prop where
  found : ∃ addr dstaddr, probe.phyaddr = some (addr, dstaddr) ∧ masterOf st i addr = some master
  ifindex : (st'.intn i).ifindex = i
  mtu : 1280 ≤ (st'.intn i).mtu
  socket : (st'.intn i).socket = none
  master : (st'.intn i).master = some ⟨st'.block, master⟩
  selectset : st'.selectset = st.selectset
  fds : st'.fds = st.fds

section

variable {st : Conf} {i : Nat} {moved : Bool} {probe : BpfProbe}

/-- After the array has grown only one slot is written to. -/
theorem grown_setInt (f : IntNode → IntNode) :
    Grown st i moved ((intGrow st i moved).setInt i f) := by
  refine ⟨?_, rfl, fun k hk => ?_, ?_, ?_⟩
  · rw [setInt_maxinterfaces, intGrow_maxinterfaces]
  · rw [setInt_intn_ne _ _ (Ne.symm hk), intGrow_intn]
  · unfold intGrow
    split <;> rfl
  · unfold intGrow
    split <;> rfl

/-- More writes to that slot leave the others as well. -/
theorem Grown.setInt {st' : Conf} (h : Grown st i moved st') (f : IntNode → IntNode) :
    Grown st i moved (st'.setInt i f) :=
  ⟨(setInt_maxinterfaces st' i f).trans h.maxinterfaces, h.block,
    fun k hk => (setInt_intn_ne st' f (Ne.symm hk)).trans (h.others k hk), h.locals, h.tunnelmode⟩

/-- The slot is in the array then. -/
theorem Grown.lt {st' : Conf} (h : Grown st i moved st') : i < st'.maxinterfaces := by
  rw [h.maxinterfaces]
  omega

/-- `int_destroy` writes to that slot only, and closes its socket. -/
theorem Grown.destroy {st' : Conf} (h : Grown st i moved st') :
    Grown st i moved (intDestroy st' i) := by
  have hd := intDestroy_destroyed st' i
  exact ⟨hd.maxinterfaces.trans h.maxinterfaces, hd.block.trans h.block,
    fun k hk => (hd.others k hk).trans (h.others k hk), hd.locals.trans h.locals,
    hd.tunnelmode.trans h.tunnelmode⟩

/-- Growing touches neither the sockets nor the list of own addresses. -/
theorem intGrow_rest (st : Conf) (i : Nat) (moved : Bool) :
    (intGrow st i moved).selectset = st.selectset ∧ (intGrow st i moved).fds = st.fds ∧
      (intGrow st i moved).locals = st.locals ∧
      (intGrow st i moved).tunnelmode = st.tunnelmode := by
  unfold intGrow
  split <;> exact ⟨rfl, rfl, rfl, rfl⟩

/-- A call that gave up before a device was opened. -/
theorem failed_unopened {f : IntNode → IntNode} (hf : ∀ a, (f a).socket = none) :
    Failed st i probe (intDestroy ((intGrow st i moved).setInt i f) i) := by
  have hg : Grown st i moved ((intGrow st i moved).setInt i f) := grown_setInt f
  have hd := intDestroy_destroyed ((intGrow st i moved).setInt i f) i
  obtain ⟨hsel, hfds, -⟩ := intGrow_rest st i moved
  have hslot : ((intGrow st i moved).setInt i f).intn i = f (st.intn i) := by
    rw [setInt_intn_self (by rw [← setInt_maxinterfaces _ i f]; exact hg.lt), intGrow_intn]
  refine ⟨Or.inr ⟨hd.mtu, by rw [hd.slot hg.lt]⟩, hd.selectset.trans hsel, Or.inl ?_⟩
  rw [hd.fds, closed, hslot, hf]
  exact hfds

/-- A call that gave up and closed the device again. -/
theorem failed_opened {st' : Conf} (hg : Grown st i moved st')
    (hsel : st'.selectset = st.selectset) {fd : Nat} (ho : probe.opened = some fd)
    (hsock : (st'.intn i).socket = some fd) (hfds : st'.fds = insert fd st.fds) :
    Failed st i probe (intDestroy st' i) := by
  have hd := intDestroy_destroyed st' i
  refine ⟨Or.inr ⟨hd.mtu, by rw [hd.slot hg.lt]⟩, hd.selectset.trans hsel,
    Or.inr ⟨fd, ho, ?_⟩⟩
  rw [hd.fds, closed, hsock, ← hfds]

/-- `int_find_ipv4` looks at the addresses of the interfaces in use. -/
theorem intFindIpv4_congr {st st' : Conf} (hmax : st'.maxinterfaces = st.maxinterfaces)
    (hmtu : ∀ k, (st'.intn k).mtu ≠ 0 ↔ (st.intn k).mtu ≠ 0)
    (haddrs : ∀ k, (st'.intn k).addrs = (st.intn k).addrs) (isLocal : Bool) (ipv4 : InAddr) :
    intFindIpv4 st' isLocal ipv4 = intFindIpv4 st isLocal ipv4 := by
  unfold intFindIpv4
  rw [hmax]
  congr 1
  funext k
  have hhas : hasIpv4 isLocal (st'.intn k) ipv4 = hasIpv4 isLocal (st.intn k) ipv4 := by
    unfold hasIpv4 IntNode.ipv4Local IntNode.ipv4Remote
    rw [haddrs]
  rw [hhas, decide_eq_decide.mpr (hmtu k)]

/-- The search for the master does not depend on the name and the MTU. -/
theorem masterOf_eq (name : String) {mtu : Nat} (hmtu : mtu ≠ 0) (addr : InAddr) :
    intFindIpv4 (opening st i moved name mtu) true addr = masterOf st i addr := by
  have hslot : ∀ moved name mtu k, (opening st i moved name mtu).intn k
      = if k = i then named i name mtu else st.intn k := by
    intro moved name mtu k
    by_cases hk : k = i
    · subst hk
      rw [if_pos rfl]
      exact setInt_intn_self (by rw [intGrow_maxinterfaces]; omega) _
    · rw [if_neg hk]
      exact (setInt_intn_ne _ _ (Ne.symm hk)).trans (intGrow_intn st i moved k)
  refine intFindIpv4_congr ?_ (fun k => ?_) (fun k => ?_) true addr
  · simp only [opening, setInt_maxinterfaces, intGrow_maxinterfaces]
  · rw [hslot, hslot]
    split
    · simpa [named] using hmtu
    · exact Iff.rfl
  · rw [hslot, hslot]
    split <;> rfl

end

/-! ## 4. Every call of `int_create` -/

/-- The ways in which a call ends. -/
def Outcome (st : Conf) (i : Nat) (tunnel : Bool) (probe : BpfProbe)
    (created : Conf × Option Nat) : Prop :=
  created.2 = none ∧ Failed st i probe created.1 ∨
  created.2 = some i ∧ (st.tunnelmode && tunnel) = false ∧ (∃ fd, Native st i probe fd created.1) ∨
  created.2 = some i ∧ (st.tunnelmode && tunnel) = true ∧
    ∃ master, Tunnel st i probe master created.1

/-- The last write, to `upstream`. -/
theorem setUpstream_eq (st : Conf) (i : Nat) (name : String) : ∃ b upstreamId,
    setUpstream st i name
      = { st.setInt i (fun intn => { intn with upstream := b }) with
          upstreamId := upstreamId } := by
  unfold setUpstream
  split
  · split
    · exact ⟨true, i, rfl⟩
    · exact ⟨false, st.upstreamId, rfl⟩
  · exact ⟨false, st.upstreamId, rfl⟩

/-- The mark of the upstream interface is one more write to the slot. -/
theorem Grown.setUpstream {st st' : Conf} {i : Nat} {moved : Bool} (h : Grown st i moved st')
    (name : String) : Grown st i moved (setUpstream st' i name) := by
  obtain ⟨b, upstreamId, heq⟩ := setUpstream_eq st' i name
  have hset := h.setInt (fun intn => { intn with upstream := b })
  rw [heq]
  exact ⟨hset.maxinterfaces, hset.block, hset.others, hset.locals, hset.tunnelmode⟩

/-- It does not decide on the outcome. -/
theorem Outcome.setUpstream {st st' : Conf} {i : Nat} {tunnel : Bool} {probe : BpfProbe}
    (h : Outcome st i tunnel probe (st', some i)) (hlt : i < st'.maxinterfaces) (name : String) :
    Outcome st i tunnel probe (setUpstream st' i name, some i) := by
  obtain ⟨b, upstreamId, heq⟩ := setUpstream_eq st' i name
  have hslot : (Bpf.setUpstream st' i name).intn i = { st'.intn i with upstream := b } := by
    rw [heq]
    exact setInt_intn_self hlt _
  have hrest : (Bpf.setUpstream st' i name).selectset = st'.selectset ∧
      (Bpf.setUpstream st' i name).fds = st'.fds ∧
      (Bpf.setUpstream st' i name).block = st'.block := by
    rw [heq]
    exact ⟨rfl, rfl, rfl⟩
  obtain ⟨hsel, hfds, hblock⟩ := hrest
  rcases h with ⟨h, -⟩ | ⟨-, hnat, fd, h⟩ | ⟨-, htun, master, h⟩
  · exact nomatch h
  · refine Or.inr (Or.inl ⟨rfl, hnat, fd, h.opened, ?_, ?_, ?_, ?_, hsel.trans h.selectset,
      hfds.trans h.fds⟩) <;> rw [hslot]
    · exact h.ifindex
    · exact h.mtu
    · exact h.socket
    · exact h.master
  · refine Or.inr (Or.inr ⟨rfl, htun, master, h.found, ?_, ?_, ?_, ?_, hsel.trans h.selectset,
      hfds.trans h.fds⟩) <;> rw [hslot]
    · exact h.ifindex
    · exact h.mtu
    · exact h.socket
    · rw [hblock]
      exact h.master

/-- **Every call of `int_create`** leaves the other slots, and ends in one of the four ways. -/
theorem intCreate_outcome (st : Conf) (i : Nat) (tunnel : Bool) (probe : IfProbe)
    (bpf : BpfProbe) :
    Grown st i bpf.moved (intCreate st i tunnel probe bpf).1 ∧
      Outcome st i tunnel bpf (intCreate st i tunnel probe bpf) := by
  generalize hr : intCreate st i tunnel probe bpf = r
  unfold intCreate at hr
  dsimp only at hr
  -- the calls that end before `int_create_bpf`
  have hgiveup : ∀ f : IntNode → IntNode, (∀ a, (f a).socket = none) →
      (intDestroy ((intGrow st i bpf.moved).setInt i f) i, none) = r →
      Grown st i bpf.moved r.1 ∧ Outcome st i tunnel bpf r := by
    rintro f hf rfl
    exact ⟨(grown_setInt f).destroy, Or.inl ⟨rfl, failed_unopened hf⟩⟩
  split at hr
  · subst hr
    obtain ⟨hsel, hfds, hlocals, htun⟩ := intGrow_rest st i bpf.moved
    exact ⟨⟨intGrow_maxinterfaces st i bpf.moved, rfl, fun k _ => intGrow_intn st i bpf.moved k,
      hlocals, htun⟩, Or.inl ⟨rfl, Or.inl (intGrow_intn st i bpf.moved i), hsel, Or.inl hfds⟩⟩
  split at hr
  · exact hgiveup _ (fun _ => rfl) hr
  rename_i name _
  rw [setInt_setInt] at hr
  split at hr
  · exact hgiveup _ (fun _ => rfl) hr
  rename_i mtu _
  split at hr
  · exact hgiveup _ (fun _ => rfl) hr
  rename_i hmtu
  rw [setInt_setInt] at hr
  have hopening : ((intGrow st i bpf.moved).setInt i
      ((fun intn => { intn with mtu := mtu.toNat }) ∘ (fun intn => { intn with name := name }) ∘
        fun _ => { IntNode.zero with ifindex := i, socket := none }))
      = opening st i bpf.moved name mtu.toNat := rfl
  rw [hopening] at hr
  have hg : Grown st i bpf.moved (opening st i bpf.moved name mtu.toNat) := grown_setInt _
  have hslot : (opening st i bpf.moved name mtu.toNat).intn i = named i name mtu.toNat :=
    setInt_intn_self (by rw [intGrow_maxinterfaces]; omega) _
  obtain ⟨hsel, hfds, -⟩ := intGrow_rest st i bpf.moved
  have hdone : ∀ s, Grown st i bpf.moved s → Outcome st i tunnel bpf (s, some i) →
      (setUpstream s i name, some i) = r →
      Grown st i bpf.moved r.1 ∧ Outcome st i tunnel bpf r := by
    rintro s hs ho rfl
    exact ⟨hs.setUpstream name, ho.setUpstream hs.lt name⟩
  rcases intCreateBpf_cases (opening st i bpf.moved name mtu.toNat) i tunnel bpf with
    hc | ⟨fd, f, ho, hf, hc⟩ | ⟨fd, dlt, len, hnative, ho, hc⟩ |
      ⟨addr, dstaddr, master, htunnel, hphy, hmaster, hc⟩ <;> rw [hc] at hr
  · exact hgiveup _ (fun _ => rfl) hr
  · subst hr
    have hset := hg.setInt f
    have hslot' : ((opening st i bpf.moved name mtu.toNat).setInt i f).intn i = f _ :=
      setInt_intn_self hg.lt f
    exact ⟨Grown.destroy ⟨hset.1, hset.2, hset.3, hset.4, hset.5⟩, Or.inl ⟨rfl, failed_opened
      ⟨hset.1, hset.2, hset.3, hset.4, hset.5⟩ hsel ho ((congrArg _ hslot').trans (hf _))
      (congrArg (insert fd) hfds)⟩⟩
  · have hset := hg.setInt (fun a => device fd a dlt len)
    have hslot' : ((opening st i bpf.moved name mtu.toNat).setInt i
        (fun a => device fd a dlt len)).intn i = device fd (named i name mtu.toNat) dlt len := by
      rw [setInt_intn_self hg.lt, hslot]
    refine hdone _ ?_ (Or.inr (Or.inl ⟨rfl, ?_, fd, ?_⟩)) hr
    · exact ⟨hset.1, hset.2, hset.3, hset.4, hset.5⟩
    · rw [hg.tunnelmode] at hnative
      revert hnative
      cases st.tunnelmode <;> cases tunnel <;> decide
    exact ⟨ho, congrArg IntNode.ifindex hslot',
      (congrArg IntNode.mtu hslot').symm ▸ (by dsimp only [device, named]; omega),
      congrArg IntNode.socket hslot', congrArg IntNode.master hslot',
      congrArg (insert fd) hsel, congrArg (insert fd) hfds⟩
  · obtain ⟨htm, htun⟩ : (opening st i bpf.moved name mtu.toNat).tunnelmode = true ∧
        tunnel = true := by
      simpa using htunnel
    refine hdone _ (hg.setInt _) (Or.inr (Or.inr ⟨rfl, ?_, master, ?_⟩)) hr
    · rw [← hg.tunnelmode, htm, htun]
      rfl
    · have hslot' := setInt_intn_self hg.lt (fun a => { a with
        master := some ⟨(opening st i bpf.moved name mtu.toNat).block, master⟩
        addrs := (a.addrs.write 0 addr).write ipv4RemoteOff dstaddr })
      rw [hslot] at hslot'
      exact ⟨⟨addr, dstaddr, hphy, by rw [← hmaster, masterOf_eq name (by omega)]⟩,
        congrArg IntNode.ifindex hslot',
        (congrArg IntNode.mtu hslot').symm ▸ (by dsimp only [named]; omega),
        congrArg IntNode.socket hslot', congrArg IntNode.master hslot', hsel, hfds⟩

/-! ## 5. When a tunnel is created -/

/-- The answers are good enough for a tunnel, but for its two ends. -/
def tunnelAnswers (probe : IfProbe) (bpf : BpfProbe) : Bool :=
  probe.socket && probe.name.isSome && probe.mtu.any (fun mtu => 1280 ≤ mtu) && bpf.socket

/-- A tunnel is created exactly if its interface can be asked for the two addresses, and a master
has the near one. -/
theorem intCreateBpf_tunnel {st : Conf} (i : Nat) {tunnel : Bool} (probe : BpfProbe)
    (htunnel : (st.tunnelmode && tunnel) = true) : (intCreateBpf st i tunnel probe).2 = true ↔
      probe.socket = true ∧ ∃ addr dstaddr master, probe.phyaddr = some (addr, dstaddr) ∧
        intFindIpv4 st true addr = some master := by
  obtain ⟨htm, htun⟩ : st.tunnelmode = true ∧ tunnel = true := by simpa using htunnel
  unfold intCreateBpf
  rw [if_neg (by simp [htm, htun])]
  cases hs : probe.socket
  · simp
  rw [if_neg (by simp)]
  rcases hphy : probe.phyaddr with - | ⟨addr, dstaddr⟩
  · simp
  dsimp only
  rcases hm : intFindIpv4 st true addr with - | master
  · simp only [Bool.false_eq_true, true_and, false_iff]
    rintro ⟨_, _, master, ⟨⟩, hsome⟩
    rw [hm] at hsome
    exact nomatch hsome
  · exact iff_of_true rfl ⟨rfl, addr, dstaddr, master, rfl, hm⟩

/-- A tunnel is created when the answers are good and its master is found. -/
theorem intCreate_tunnel {st : Conf} (i : Nat) {tunnel : Bool} (probe : IfProbe) (bpf : BpfProbe)
    (htunnel : (st.tunnelmode && tunnel) = true) :
    (intCreate st i tunnel probe bpf).2 = some i ↔ tunnelAnswers probe bpf = true ∧
      ∃ addr dstaddr master, bpf.phyaddr = some (addr, dstaddr) ∧
        masterOf st i addr = some master := by
  obtain ⟨sock, name, mtu, hwaddr⟩ := probe
  unfold intCreate tunnelAnswers
  dsimp only
  cases sock
  · simp
  rw [if_neg (by simp)]
  rcases name with - | name
  · simp
  rcases mtu with - | mtu
  · simp
  dsimp only
  by_cases hmtu : mtu < 1280
  · rw [if_pos hmtu]
    simp
    omega
  rw [if_neg hmtu]
  have hopening : (((intGrow st i bpf.moved).setInt i
      (fun _ => { IntNode.zero with ifindex := i, socket := none })).setInt i
        (fun intn => { intn with name := name })).setInt i
          (fun intn => { intn with mtu := mtu.toNat })
      = opening st i bpf.moved name mtu.toNat := by
    rw [setInt_setInt, setInt_setInt]
    rfl
  have hmode : ((opening st i bpf.moved name mtu.toNat).tunnelmode && tunnel) = true := by
    rw [show (opening st i bpf.moved name mtu.toNat).tunnelmode = st.tunnelmode
      from (intGrow_rest st i bpf.moved).2.2.2, htunnel]
  have hbpf := intCreateBpf_tunnel i bpf hmode
  simp only [masterOf_eq name (show mtu.toNat ≠ 0 by omega)] at hbpf
  rw [hopening]
  have hanswers : (true && (some name).isSome && (some mtu).any (fun mtu => 1280 ≤ mtu) &&
      bpf.socket) = bpf.socket := by
    simp [Int.not_lt.mp hmtu]
  rw [hanswers, ← hbpf]
  rcases intCreateBpf (opening st i bpf.moved name mtu.toNat) i tunnel bpf with ⟨st', ok⟩
  cases ok <;> simp

end Ecmh.Bpf
