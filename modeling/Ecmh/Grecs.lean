/-
# The MLDv2 report handler, record by record

The loop of the handler as a run over the records that the walk finds: `grecStep` takes one record
into the table and announces its group if the flag `isnew` says so.  The flag is set by the last
record that came to `groupint_get`, which need not be the one that is announced.
-/
import Ecmh.TableOp

namespace Ecmh

open ByteMem

/-! ## 1. One record -/

/-- The table with a record in it. -/
def grecTable (now ifindex : Nat) (groups : Groups) (r : GrecSeen) : Groups :=
  match r.join with
  | none => groups
  | some j => joinTable now ifindex groups j

/-- The flag after a record. -/
def grecIsnew (now ifindex : Nat) (groups : Groups) (isnew : Bool) (r : GrecSeen) : Bool :=
  match r.join with
  | none => isnew
  | some j => (groupintGet now groups j.mca ifindex).2

/-- The body of the loop: the state, and the flag. -/
def grecStep (h : Host) (now i : Nat) (s : Conf × Bool) (r : GrecSeen) : Conf × Bool :=
  let ifindex := (s.1.intn i).ifindex
  let isnew := grecIsnew now ifindex s.1.groups s.2 r
  let st := s.1.setGroups (grecTable now ifindex s.1.groups r)
  (if r.srcs.isSome ∧ isnew then mldSendReportAll h st i r.mca else st, isnew)

section Step

variable {h : Host} {now i : Nat}

theorem grecStep_of_ignored {s : Conf × Bool} {r : GrecSeen} (hj : r.join = none) :
    grecStep h now i s r
      = (if r.srcs.isSome ∧ s.2 then mldSendReportAll h s.1 i r.mca else s.1, s.2) := by
  simp only [grecStep, grecTable, grecIsnew, hj]
  rfl

theorem grecStep_of_join {s : Conf × Bool} {r : GrecSeen} {j : Join} (hj : r.join = some j) :
    grecStep h now i s r
      = (if r.srcs.isSome ∧ (groupintGet now s.1.groups j.mca (s.1.intn i).ifindex).2 then
          mldSendReportAll h (s.1.setGroups (joinTable now (s.1.intn i).ifindex s.1.groups j)) i
            r.mca
        else s.1.setGroups (joinTable now (s.1.intn i).ifindex s.1.groups j),
        (groupintGet now s.1.groups j.mca (s.1.intn i).ifindex).2) := by
  simp only [grecStep, grecTable, grecIsnew, hj]

/-- What a step does besides taking in the record is sending. -/
theorem grecStep_sendsOnly (h : Host) (now i : Nat) (s : Conf × Bool) (r : GrecSeen) :
    SendsOnly (fun j => (s.1.intn j).ifindex ≠ (s.1.intn i).ifindex)
      (s.1.setGroups (grecTable now (s.1.intn i).ifindex s.1.groups r))
      (grecStep h now i s r).1 := by
  simp only [grecStep]
  split
  · exact mldSendReportAll_sendsOnly h
      (s.1.setGroups (grecTable now (s.1.intn i).ifindex s.1.groups r)) i r.mca
  · exact .refl _

theorem grecStep_groups (h : Host) (now i : Nat) (s : Conf × Bool) (r : GrecSeen) :
    (grecStep h now i s r).1.groups = grecTable now (s.1.intn i).ifindex s.1.groups r :=
  (grecStep_sendsOnly h now i s r).groups

/-! ## 2. All records -/

theorem mld2Grecs_run (mld2r : Mem) (plen : Nat) : ∀ (ngrec : Nat) (st : Conf) (grec : Nat)
    (isnew : Bool) (visits : List Visit),
    (mld2Grecs h now i mld2r plen ngrec st grec isnew visits).st
      = (Runs.run (grecStep h now i) (st, isnew)
          (grecWalk h.endian mld2r plen ngrec grec).1).1 := by
  intro ngrec
  induction ngrec with
  | zero => exact fun st _ _ _ => rfl
  | succ ngrec ih =>
    intro st grec isnew visits
    rw [mld2Grecs, grecWalk]
    split
    · rfl
    · dsimp only
      split
      · rename_i hknown
        rw [Runs.run_cons, grecStep_of_ignored (by simp [GrecSeen.join, hknown])]
        rfl
      · rename_i hknown
        rcases Bool.eq_false_or_eq_true (mld2Ignores (readAddr mld2r (grec + 4))) with hign | hign
        · split
          · rw [Runs.run_cons, grecStep_of_ignored (by simp [GrecSeen.join, hign])]
            simp
          · rw [ih, Runs.run_cons, grecStep_of_ignored (by simp [GrecSeen.join, hign])]
            simp
        · split
          · have hjoin : (GrecSeen.mk grec (mld2r grec).toNat (readAddr mld2r (grec + 4)) none).join
                = some ⟨readAddr mld2r (grec + 4), []⟩ := by
              simp [GrecSeen.join, hknown, hign]
            rw [Runs.run_cons, grecStep_of_join hjoin]
            simp [hign, joinTable_nil]
          · generalize readAddrs mld2r (grec + 20)
              (h.endian.htons (h.endian.load16 mld2r (grec + 2))) = srcs
            have hjoin : (GrecSeen.mk grec (mld2r grec).toNat (readAddr mld2r (grec + 4))
                (some srcs)).join
                = some ⟨readAddr mld2r (grec + 4), grecRows (mld2r grec).toNat srcs⟩ := by
              simp [GrecSeen.join, hknown, hign]
            rw [ih, Runs.run_cons, grecStep_of_join hjoin]
            simp [hign, joinTable, grecRefresh_eq]
            rfl

/-- The records that the handler goes through. -/
def mld2Records (e : Endian) (mld2r : Mem) (plen : Nat) : List GrecSeen :=
  let ngrec := e.htons (e.load16 mld2r 6)
  if 8 + ngrec * 20 > plen then [] else (grecWalk e mld2r plen ngrec 8).1

/-- **The handler is a run over the records.** -/
theorem mld2Report_run (st : Conf) (mld2r : Mem) (plen : Nat) :
    (l4Ipv6Icmpv6Mld2Report h now st i mld2r plen).st
      = (Runs.run (grecStep h now i) (intSetMldVersion now st i 2, false)
          (mld2Records h.endian mld2r plen)).1 := by
  unfold l4Ipv6Icmpv6Mld2Report mld2Records
  dsimp only
  split
  · rfl
  · exact mld2Grecs_run mld2r plen _ _ 8 false []

end Step

/-! ## 3. The account of the handler -/

/-- A record in the account of the handler, which comes to it in the state `s`. -/
def grecVisit (now i : Nat) (s : Conf × Bool) (r : GrecSeen) : Visit where
  off := r.off
  grecType := r.grecType
  mca := r.mca
  srcs := r.srcs.getD []
  isnew := r.join.map (fun j => (groupintGet now s.1.groups j.mca (s.1.intn i).ifindex).2)
  announced := r.srcs.isSome && grecIsnew now (s.1.intn i).ifindex s.1.groups s.2 r

/-- The account of all records. -/
def grecVisits (h : Host) (now i : Nat) : Conf × Bool → List GrecSeen → List Visit
  | _, [] => []
  | s, r :: rs => grecVisit now i s r :: grecVisits h now i (grecStep h now i s r) rs

section Visits

variable {h : Host} {now i : Nat}

theorem mld2Grecs_account (mld2r : Mem) (plen : Nat) : ∀ (ngrec : Nat) (st : Conf) (grec : Nat)
    (isnew : Bool) (visits : List Visit),
    (mld2Grecs h now i mld2r plen ngrec st grec isnew visits).visits
      = visits ++ grecVisits h now i (st, isnew) (grecWalk h.endian mld2r plen ngrec grec).1 := by
  intro ngrec
  induction ngrec with
  | zero => exact fun st _ _ visits => (List.append_nil visits).symm
  | succ ngrec ih =>
    intro st grec isnew visits
    rw [mld2Grecs, grecWalk]
    split
    · simp [grecVisits]
    · dsimp only
      split
      · rename_i hknown
        simp [grecVisits, grecVisit, GrecSeen.join, hknown]
      · rename_i hknown
        rcases Bool.eq_false_or_eq_true (mld2Ignores (readAddr mld2r (grec + 4))) with hign | hign
        · split
          · simp [grecVisits, grecVisit, GrecSeen.join, hign]
          · rw [ih, grecVisits, grecStep_of_ignored (by simp [GrecSeen.join, hign])]
            simp [grecVisit, grecIsnew, GrecSeen.join, hign]
        · split
          · simp [grecVisits, grecVisit, GrecSeen.join, hign, hknown]
          · generalize readAddrs mld2r (grec + 20)
              (h.endian.htons (h.endian.load16 mld2r (grec + 2))) = srcs
            have hjoin : (GrecSeen.mk grec (mld2r grec).toNat (readAddr mld2r (grec + 4))
                (some srcs)).join
                = some ⟨readAddr mld2r (grec + 4), grecRows (mld2r grec).toNat srcs⟩ := by
              simp [GrecSeen.join, hknown, hign]
            rw [ih, grecVisits, grecStep_of_join hjoin]
            simp [grecVisit, grecIsnew, hjoin, hign, joinTable, grecRefresh_eq]
            rfl

/-- The account is made step by step of the run over the records. -/
theorem forall_grecVisits {P : Visit → Prop} : ∀ (rs : List GrecSeen) (s : Conf × Bool),
    (∀ v ∈ grecVisits h now i s rs, P v) ↔
      Runs.StepsMeet (grecStep h now i) (fun s r => P (grecVisit now i s r)) s rs := by
  intro rs
  induction rs with
  | nil =>
    intro s
    refine ⟨fun _ => Runs.stepsMeet_nil _ s, fun _ v hv => absurd hv List.not_mem_nil⟩
  | cons r rs ih =>
    intro s
    rw [grecVisits, List.forall_mem_cons, Runs.stepsMeet_cons, ih]

theorem forall_mld2Visits {P : Visit → Prop} (st : Conf) (mld2r : Mem) (plen : Nat) :
    (∀ v ∈ (l4Ipv6Icmpv6Mld2Report h now st i mld2r plen).visits, P v) ↔
      Runs.StepsMeet (grecStep h now i) (fun s r => P (grecVisit now i s r))
        (intSetMldVersion now st i 2, false) (mld2Records h.endian mld2r plen) := by
  rw [← forall_grecVisits]
  unfold l4Ipv6Icmpv6Mld2Report mld2Records
  dsimp only
  split
  · rfl
  · rw [mld2Grecs_account, List.nil_append]

end Visits

end Ecmh
