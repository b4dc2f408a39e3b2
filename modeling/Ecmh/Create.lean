/-
# Creating an interface

`int_create` asks the kernel for the name, the MTU and the hardware address of an interface, and
gives up at the first answer that is missing or unfit.  `intCreates` says which answers are good
enough, and `Created` what the call leaves: the table is large enough, the slot of the interface is
in use if and only if the call succeeded, and every other slot is as before.
-/
import Ecmh.Interfaces

namespace Ecmh

/-! ## 1. Which answers are good enough -/

/-- `int_create` succeeds with these answers. -/
def intCreates (probe : IfProbe) : Bool :=
  probe.socket && probe.name.isSome && probe.mtu.any (fun mtu => 1280 ≤ mtu) &&
    probe.hwaddr.any (fun family => family ≠ arphrdLoopback)

/-- A slot that `int_create` has filled in. -/
def FilledIn (ifindex : Nat) (intn : IntNode) : Prop :=
  intn.ifindex = ifindex ∧ 1280 ≤ intn.mtu ∧ intn.linklocal = In6Addr.any ∧
    intn.global = In6Addr.any

/-- What a call of `int_create` for `ifindex` leaves. -/
structure Created (st : Conf) (ifindex : Nat) (created : Conf × Option Nat) : Prop where
  maxinterfaces : created.1.maxinterfaces = max st.maxinterfaces (ifindex + 1)
  others : ∀ k, k ≠ ifindex → created.1.intn k = st.intn k
  returned : created.2 = some ifindex ∨ created.2 = none
  inUse : created.2 = some ifindex → FilledIn ifindex (created.1.intn ifindex)
  failed : created.2 = none → created.1.intn ifindex = st.intn ifindex ∨
    (created.1.intn ifindex).mtu = 0

/-! ## 2. What it leaves -/

theorem intGrow_intn (st : Conf) (ifindex k : Nat) : (intGrow st ifindex).intn k = st.intn k :=
  Slots.getD_grow st.ints _ k

theorem intGrow_maxinterfaces (st : Conf) (ifindex : Nat) :
    ifindex < (intGrow st ifindex).maxinterfaces := by
  simp only [Conf.maxinterfaces, intGrow, List.length_append, List.length_replicate]
  omega

theorem intGrow_length (st : Conf) (ifindex : Nat) :
    (intGrow st ifindex).maxinterfaces = max st.maxinterfaces (ifindex + 1) :=
  Slots.length_grow st.ints ifindex

theorem intDestroy_mtu (st : Conf) (i : Nat) : ((intDestroy st i).intn i).mtu = 0 := by
  rw [intDestroy, setInt_intn]
  split
  · rfl
  · rename_i hlt
    rw [intn_of_ge (Nat.not_lt.mp fun h => hlt ⟨rfl, h⟩)]
    rfl

section

variable (st : Conf) (ifindex : Nat)

/-- The slot of a grown table, after a write to it. -/
theorem intGrow_setInt (f : IntNode → IntNode) :
    ((intGrow st ifindex).setInt ifindex f).intn ifindex = f (st.intn ifindex) := by
  rw [setInt_intn, if_pos ⟨rfl, intGrow_maxinterfaces st ifindex⟩, intGrow_intn]

theorem intGrow_setInt_ne (f : IntNode → IntNode) {k : Nat} (hk : k ≠ ifindex) :
    ((intGrow st ifindex).setInt ifindex f).intn k = st.intn k := by
  rw [setInt_intn_ne _ _ (Ne.symm hk), intGrow_intn]

/-- The ways through `int_create`: no socket for the questions, an answer that is not good enough,
and the interface in use. -/
theorem intCreate_cases (probe : IfProbe) :
    (intCreates probe = false ∧ intCreate st ifindex probe = (intGrow st ifindex, none)) ∨
    (intCreates probe = false ∧ ∃ f, intCreate st ifindex probe
      = (intDestroy ((intGrow st ifindex).setInt ifindex f) ifindex, none)) ∨
    (intCreates probe = true ∧ ∃ f upstreamId, (∀ a, FilledIn ifindex (f a)) ∧
      intCreate st ifindex probe = ({ (intGrow st ifindex).setInt ifindex f with
        upstreamId := upstreamId }, some ifindex)) := by
  obtain ⟨sock, name, mtu, hwaddr⟩ := probe
  unfold intCreate intCreates
  cases sock
  · exact Or.inl ⟨by simp, rfl⟩
  rcases name with - | name
  · exact Or.inr (Or.inl ⟨by simp, _, rfl⟩)
  rcases mtu with - | mtu
  · exact Or.inr (Or.inl ⟨by simp, _, congrArg (fun st => (intDestroy st ifindex, none))
      (setInt_setInt _ _ _ _)⟩)
  by_cases hmtu : mtu < 1280
  · refine Or.inr (Or.inl ⟨by simp; omega, ?_⟩)
    simp only [Bool.not_true, Bool.false_eq_true, hmtu, if_true, if_false, setInt_setInt]
    exact ⟨_, rfl⟩
  rcases hwaddr with - | family
  · refine Or.inr (Or.inl ⟨by simp, ?_⟩)
    simp only [Bool.not_true, Bool.false_eq_true, hmtu, if_false, setInt_setInt]
    exact ⟨_, rfl⟩
  by_cases hloop : family = arphrdLoopback
  · refine Or.inr (Or.inl ⟨by simp [hloop], ?_⟩)
    simp only [Bool.not_true, Bool.false_eq_true, hmtu, hloop, if_true, if_false, setInt_setInt]
    exact ⟨_, rfl⟩
  refine Or.inr (Or.inr ⟨by simp [hloop]; omega, ?_⟩)
  have hfilled : ∀ u, FilledIn ifindex
      { IntNode.zero with ifindex, name, mtu := mtu.toNat, hwaddr := family, upstream := u } :=
    fun _ => ⟨rfl, by dsimp only; omega, rfl, rfl⟩
  simp only [Bool.not_true, Bool.false_eq_true, hmtu, hloop, if_false, setInt_setInt]
  split
  · split
    · exact ⟨_, _, fun _ => hfilled true, rfl⟩
    · exact ⟨_, _, fun _ => hfilled false, rfl⟩
  · exact ⟨_, _, fun _ => hfilled false, rfl⟩

/-- **Every call of `int_create`.** -/
theorem intCreate_created (probe : IfProbe) :
    Created st ifindex (intCreate st ifindex probe) := by
  rcases intCreate_cases st ifindex probe with ⟨-, hcr⟩ | ⟨-, f, hcr⟩ | ⟨-, f, upstreamId, hf, hcr⟩
    <;> rw [hcr]
  · exact ⟨intGrow_length st ifindex, fun k _ => intGrow_intn st ifindex k, Or.inr rfl,
      fun h => (nomatch h), fun _ => Or.inl (intGrow_intn st ifindex ifindex)⟩
  · rw [intDestroy, setInt_setInt]
    refine ⟨?_, fun k hk => intGrow_setInt_ne st ifindex _ hk, Or.inr rfl, fun h => (nomatch h),
      fun _ => Or.inr ?_⟩
    · rw [setInt_maxinterfaces, intGrow_length]
    · rw [intGrow_setInt]
      rfl
  · refine ⟨?_, fun k hk => intGrow_setInt_ne st ifindex f hk, Or.inl rfl, fun _ => ?_,
      fun h => (nomatch h)⟩
    · exact (setInt_maxinterfaces _ _ _).trans (intGrow_length st ifindex)
    · have hslot : Conf.intn { (intGrow st ifindex).setInt ifindex f with
          upstreamId := upstreamId } ifindex = f (st.intn ifindex) := intGrow_setInt st ifindex f
      rw [hslot]
      exact hf _

theorem intCreate_eq_some_iff (probe : IfProbe) :
    (intCreate st ifindex probe).2 = some ifindex ↔ intCreates probe = true := by
  rcases intCreate_cases st ifindex probe with ⟨hp, hcr⟩ | ⟨hp, f, hcr⟩ | ⟨hp, f, u, -, hcr⟩ <;>
    simp [hcr, hp]

end

end Ecmh
