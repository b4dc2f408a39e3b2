/-
# The interface table over a run of creations and destructions

The table of either build is a pool of slots: `int_create` tries to put the slot of an `ifindex`
into use, with whatever the kernel answers, and `int_destroy` takes it out of use.
`linuxInts_lawful` and `bpfInts_lawful` say that both keep the laws of pools, where a slot in use
has its own index and an MTU fit for IPv6.
-/
import Ecmh.Create
import Ecmh.BpfTable

namespace Ecmh

open Slots

/-! ## 1. The two builds -/

/-- The interface table of the default build. -/
def linuxInts : Pool Conf IntNode IfProbe where
  size := Conf.maxinterfaces
  slot := Conf.intn
  InUse := fun intn => intn.mtu ≠ 0
  find := intFind
  create := intCreate
  destroy := intDestroy

/-- What the kernel of a BPF system answers to one `int_create`: whether the interface is
point-to-point, and the answers of the system calls. -/
structure BpfAnswers where
  tunnel : Bool
  probe : IfProbe
  bpf : Bpf.BpfProbe

/-- The interface table of the BPF build. -/
def bpfInts : Pool Bpf.Conf Bpf.IntNode BpfAnswers where
  size := Bpf.Conf.maxinterfaces
  slot := Bpf.Conf.intn
  InUse := fun intn => intn.mtu ≠ 0
  find := Bpf.intFind
  create := fun st i answers => Bpf.intCreate st i answers.tunnel answers.probe answers.bpf
  destroy := Bpf.intDestroy

/-- A slot in use has its own index, and an MTU fit for IPv6. -/
def GoodSlot (k : Nat) (intn : IntNode) : Prop := intn.ifindex = k ∧ 1280 ≤ intn.mtu

def GoodBpfSlot (k : Nat) (intn : Bpf.IntNode) : Prop := intn.ifindex = k ∧ 1280 ≤ intn.mtu

/-! ## 2. They are lawful -/

theorem linuxInts_lawful : linuxInts.Lawful GoodSlot where
  find := by
    intro st i hfind hmtu
    have hlt : i < st.maxinterfaces := Nat.lt_of_not_le fun hle => by
      rw [show linuxInts.slot st i = _ from intn_of_ge hle] at hmtu
      exact hmtu rfl
    have hsome := intFind_eq_some.mpr ⟨rfl, hlt, hmtu⟩
    exact absurd (hsome.symm.trans hfind) (by simp)
  beyond := by
    intro st k hle hmtu
    rw [show linuxInts.slot st k = _ from intn_of_ge hle] at hmtu
    exact hmtu rfl
  create_size := by
    intro st i probe
    exact Nat.le_trans (Nat.le_max_left _ (i + 1))
      (Nat.le_of_eq (intCreate_created st i probe).maxinterfaces.symm)
  create_other := fun st i probe => (intCreate_created st i probe).others
  create_answered := by
    intro st i probe hdead
    have hcr := intCreate_created st i probe
    rcases hcr.returned with hsome | hnone
    · refine Or.inl ⟨hsome, ?_⟩
      obtain ⟨-, hmtu, -⟩ := hcr.inUse hsome
      exact Nat.ne_of_gt (Nat.lt_of_lt_of_le (by decide) hmtu)
    · refine Or.inr ⟨hnone, fun hmtu => ?_⟩
      rcases hcr.failed hnone with hslot | hzero
      · rw [show linuxInts.slot (linuxInts.create st i probe).1 i = _ from hslot] at hmtu
        exact hdead hmtu
      · exact hmtu hzero
  create_good := by
    intro st i probe hsome
    obtain ⟨hindex, hmtu, -⟩ := (intCreate_created st i probe).inUse hsome
    exact ⟨hindex, hmtu⟩
  destroy_size := fun st i => setInt_maxinterfaces st i _
  destroy_other := fun st i k hk => setInt_intn_ne st _ (Ne.symm hk)
  destroy_self := fun st i hmtu => hmtu (intDestroy_mtu st i)

theorem bpfInts_lawful : bpfInts.Lawful GoodBpfSlot where
  find := by
    intro st i hfind hmtu
    have hlt : i < st.maxinterfaces := Bpf.lt_maxinterfaces hmtu
    have hcond : ¬ (i ≥ st.maxinterfaces ∨ (st.intn i).mtu = 0) := by
      rintro (hge | hzero)
      · omega
      · exact hmtu hzero
    have hsome : Bpf.intFind st i = some i := if_neg hcond
    exact absurd (hsome.symm.trans hfind) (by simp)
  beyond := by
    intro st k hle hmtu
    exact absurd (Bpf.lt_maxinterfaces hmtu) (Nat.not_lt.mpr hle)
  create_size := by
    intro st i answers
    have hg := (Bpf.intCreate_outcome st i answers.tunnel answers.probe answers.bpf).1
    exact Nat.le_trans (Nat.le_max_left _ (i + 1)) (Nat.le_of_eq hg.maxinterfaces.symm)
  create_other := fun st i answers =>
    (Bpf.intCreate_outcome st i answers.tunnel answers.probe answers.bpf).1.others
  create_answered := by
    intro st i answers hdead
    rcases (Bpf.intCreate_outcome st i answers.tunnel answers.probe answers.bpf).2 with
      ⟨hnone, hf⟩ | ⟨hsome, -, fd, hn⟩ | ⟨hsome, -, master, ht⟩
    · refine Or.inr ⟨hnone, fun hmtu => ?_⟩
      rcases hf.slot with hslot | ⟨hzero, -⟩
      · rw [show bpfInts.slot (bpfInts.create st i answers).1 i = _ from hslot] at hmtu
        exact hdead hmtu
      · exact hmtu hzero
    · exact Or.inl ⟨hsome, Nat.ne_of_gt (Nat.lt_of_lt_of_le (by decide) hn.mtu)⟩
    · exact Or.inl ⟨hsome, Nat.ne_of_gt (Nat.lt_of_lt_of_le (by decide) ht.mtu)⟩
  create_good := by
    intro st i answers hcreated
    rcases (Bpf.intCreate_outcome st i answers.tunnel answers.probe answers.bpf).2 with
      ⟨hnone, -⟩ | ⟨-, -, fd, hn⟩ | ⟨-, -, master, ht⟩
    · exact absurd (hcreated.symm.trans hnone) (by simp)
    · exact ⟨hn.ifindex, hn.mtu⟩
    · exact ⟨ht.ifindex, ht.mtu⟩
  destroy_size := fun st i => (Bpf.intDestroy_destroyed st i).maxinterfaces
  destroy_other := fun st i => (Bpf.intDestroy_destroyed st i).others
  destroy_self := fun st i hmtu => hmtu (Bpf.intDestroy_destroyed st i).mtu

/-! ## 3. Runs -/

/-- **The interface table of either build**, from the start of the daemon on.  After any sequence of
creations, of interfaces that are not in use, and of destructions, every slot in use is one of the
table, has its own index and an MTU of 1280 at least.  A creation gives the slot, which is in use
then, or nothing, and it is not; the table does not shrink, no other slot changes, and no slot that
the table has been grown by is in use. -/
theorem intTable_runs :
    (∀ (o : Options) (ops : List (PoolOp IfProbe)),
      Runs.Always linuxInts.step (linuxInts.Sound GoodSlot) (init o) ops ∧
      Runs.StepsMeet linuxInts.step linuxInts.StepOk (init o) ops) ∧
    (∀ (o : Bpf.Options) (ops : List (PoolOp BpfAnswers)),
      Runs.Always bpfInts.step (bpfInts.Sound GoodBpfSlot) (Bpf.init o) ops ∧
      Runs.StepsMeet bpfInts.step bpfInts.StepOk (Bpf.init o) ops) :=
  ⟨fun _ ops => linuxInts_lawful.run (fun _ hmtu => (hmtu rfl).elim) ops,
    fun _ ops => bpfInts_lawful.run (fun _ hmtu => (hmtu rfl).elim) ops⟩

end Ecmh
