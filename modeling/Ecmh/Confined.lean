/-
# What the MLDv2 report handler reads

Before its loop the handler asks for the room of all record headers, before each record whether the
record begins inside the message, and before the sources of a record for their room.  Only the
second question is too weak: a record that begins less than a header before the end, because the
ones before it have sources or auxiliary data, is read although its header is cut off.
-/
import Ecmh.Grecs

namespace Ecmh

open ByteMem

/-! ## 1. Where a record begins -/

/-- The number of sources in a record header. -/
def grecNsrcs (e : Endian) (m : Mem) (off : Nat) : Nat := e.htons (e.load16 m (off + 2))

/-- Where the handler looks for the record behind the one at `off`. -/
def nextGrec (e : Endian) (m : Mem) (off : Nat) : Nat :=
  off + 20 + 16 * grecNsrcs e m off + (m (off + 1)).toNat

/-- The handler takes the record at `off`: it knows the type, and the message has the room for the
sources. -/
def TakesGrec (e : Endian) (m : Mem) (plen off : Nat) : Prop :=
  mld2Known (m off).toNat = true ∧
    (grecNsrcs e m off = 0 ∨ off + 20 + 16 * grecNsrcs e m off ≤ plen)

instance (e : Endian) (m : Mem) (plen off : Nat) : Decidable (TakesGrec e m plen off) :=
  inferInstanceAs (Decidable (_ ∧ _))

/-- The record with number `k` of a message that counts `ngrec` of them begins at `off`: the first
one behind the header, and each other one behind the sources and the auxiliary data of a record that
the handler takes, counted in bytes. -/
inductive GrecBegins (e : Endian) (m : Mem) (plen ngrec : Nat) : (k off : Nat) → Prop
  | first (hcounted : 0 < ngrec) (hroom : 8 + ngrec * 20 ≤ plen) : GrecBegins e m plen ngrec 0 8
  | next {k off : Nat} (hbefore : GrecBegins e m plen ngrec k off) (hin : off ≤ plen)
      (htakes : TakesGrec e m plen off) (hcounted : k + 1 < ngrec) :
      GrecBegins e m plen ngrec (k + 1) (nextGrec e m off)

section Walk

variable {e : Endian} {m : Mem} {plen ngrec k off : Nat}

/-- The walk, at a record. -/
theorem grecWalk_taken (n : Nat) (hin : off ≤ plen) (htakes : TakesGrec e m plen off) :
    (grecWalk e m plen (n + 1) off).1 =
      ⟨off, (m off).toNat, readAddr m (off + 4),
        some (readAddrs m (off + 20) (grecNsrcs e m off))⟩ ::
        (grecWalk e m plen n (nextGrec e m off)).1 := by
  obtain ⟨hknown, hroom⟩ := htakes
  have hsrcs : ¬ (grecNsrcs e m off ≠ 0 ∧ off + 20 + 16 * grecNsrcs e m off > plen) := by
    omega
  rw [grecWalk, if_neg (Nat.not_lt.mpr hin)]
  dsimp only
  rw [if_neg (by simp [hknown])]
  exact congrArg Prod.fst (if_neg hsrcs)

theorem grecWalk_given_up (n : Nat) (hin : off ≤ plen) (htakes : ¬ TakesGrec e m plen off) :
    (grecWalk e m plen (n + 1) off).1 = [⟨off, (m off).toNat, readAddr m (off + 4), none⟩] := by
  rw [grecWalk, if_neg (Nat.not_lt.mpr hin)]
  dsimp only
  by_cases hknown : mld2Known (m off).toNat = true
  · have hsrcs : grecNsrcs e m off ≠ 0 ∧ off + 20 + 16 * grecNsrcs e m off > plen := by
      constructor
      · exact fun hzero => htakes ⟨hknown, Or.inl hzero⟩
      · exact Nat.not_le.mp fun hroom => htakes ⟨hknown, Or.inr hroom⟩
    rw [if_neg (by simp [hknown])]
    exact congrArg Prod.fst (if_pos hsrcs)
  · rw [if_pos (by simp [hknown])]

theorem grecWalk_outside (n : Nat) (hout : plen < off) : (grecWalk e m plen n off).1 = [] := by
  cases n with
  | zero => rfl
  | succ n => rw [grecWalk, if_pos hout]

theorem GrecBegins.counted (hb : GrecBegins e m plen ngrec k off) : k < ngrec := by
  cases hb with
  | first hcounted hroom => exact hcounted
  | next hbefore hin htakes hcounted => exact hcounted

theorem GrecBegins.room (hb : GrecBegins e m plen ngrec k off) : 8 + ngrec * 20 ≤ plen := by
  induction hb with
  | first hcounted hroom => exact hroom
  | next hbefore hin htakes hcounted ih => exact ih

/-- From each record on the walk is the walk from there. -/
theorem GrecBegins.walk (hb : GrecBegins e m plen ngrec k off) :
    ∀ r ∈ (grecWalk e m plen (ngrec - k) off).1, r ∈ (grecWalk e m plen ngrec 8).1 := by
  induction hb with
  | first hcounted hroom => exact fun r hr => hr
  | @next k off hbefore hin htakes hcounted ih =>
    intro r hr
    refine ih r ?_
    have hleft : ngrec - k = ngrec - (k + 1) + 1 := by
      omega
    rw [hleft, grecWalk_taken _ hin htakes]
    exact List.mem_cons_of_mem _ hr

/-- The walk meets a record where one begins, unless that is outside. -/
theorem GrecBegins.seen (hb : GrecBegins e m plen ngrec k off) (hin : off ≤ plen) :
    ∃ r ∈ (grecWalk e m plen ngrec 8).1, r.off = off := by
  have hleft : ngrec - k = ngrec - k - 1 + 1 := by
    have := hb.counted
    omega
  have hwalk := hb.walk
  rw [hleft] at hwalk
  by_cases htakes : TakesGrec e m plen off
  · rw [grecWalk_taken _ hin htakes] at hwalk
    exact ⟨_, hwalk _ List.mem_cons_self, rfl⟩
  · rw [grecWalk_given_up _ hin htakes] at hwalk
    exact ⟨_, hwalk _ List.mem_cons_self, rfl⟩

/-- What is known of a record that the walk meets: where it begins, and that there is room for its
sources. -/
structure GrecMet (e : Endian) (m : Mem) (plen ngrec : Nat) (r : GrecSeen) : Prop where
  begins : ∃ k, GrecBegins e m plen ngrec k r.off
  inside : r.off ≤ plen
  srcs : ∀ srcs, r.srcs = some srcs → srcs = [] ∨ r.off + 20 + 16 * srcs.length ≤ plen

theorem length_readAddrs (m : Mem) : ∀ (n off : Nat), (readAddrs m off n).length = n
  | 0, _ => rfl
  | n + 1, off => by rw [readAddrs, List.length_cons, length_readAddrs m n]

theorem grecWalk_met : ∀ (n k off : Nat), GrecBegins e m plen ngrec k off → n = ngrec - k →
    ∀ r ∈ (grecWalk e m plen n off).1, GrecMet e m plen ngrec r := by
  intro n
  induction n with
  | zero =>
    intro k off _ _ r hr
    exact absurd hr List.not_mem_nil
  | succ n ih =>
    intro k off hb hn r hr
    rcases Nat.lt_or_ge plen off with hout | hin
    · rw [grecWalk_outside _ hout] at hr
      exact absurd hr List.not_mem_nil
    · by_cases htakes : TakesGrec e m plen off
      · rw [grecWalk_taken _ hin htakes] at hr
        rcases List.mem_cons.mp hr with rfl | hr
        · refine ⟨⟨k, hb⟩, hin, fun srcs hsrcs => ?_⟩
          cases hsrcs
          rw [length_readAddrs]
          refine htakes.2.imp_left fun hzero => ?_
          rw [hzero]
          rfl
        · -- the walk goes on only where a further record is counted
          have hcounted : k + 1 < ngrec := by
            by_contra hlast
            have hzero : n = 0 := by
              omega
            rw [hzero] at hr
            exact absurd hr List.not_mem_nil
          exact ih (k + 1) _ (.next hb hin htakes hcounted) (by omega) r hr
      · rw [grecWalk_given_up _ hin htakes, List.mem_singleton] at hr
        subst hr
        exact ⟨⟨k, hb⟩, hin, fun srcs hsrcs => nomatch hsrcs⟩

/-- The sources of a record lie in the message. -/
theorem GrecMet.src_inside {r : GrecSeen} (hmet : GrecMet e m plen ngrec r) :
    ∀ k < (r.srcs.getD []).length, r.off + 20 + 16 * k + 16 ≤ plen := by
  intro k hk
  cases hsrcs : r.srcs with
  | none =>
    rw [hsrcs] at hk
    exact absurd hk (Nat.not_lt_zero k)
  | some srcs =>
    rw [hsrcs, Option.getD_some] at hk
    rcases hmet.srcs srcs hsrcs with rfl | hfit
    · exact absurd hk (Nat.not_lt_zero k)
    · omega

/-- The number of records that the message counts. -/
def mld2Ngrec (e : Endian) (m : Mem) : Nat := e.htons (e.load16 m 6)

theorem mld2Records_eq : mld2Records e m plen
    = if 8 + mld2Ngrec e m * 20 > plen then []
      else (grecWalk e m plen (mld2Ngrec e m) 8).1 := rfl

theorem mld2Records_met {r : GrecSeen} (hr : r ∈ mld2Records e m plen) :
    GrecMet e m plen (mld2Ngrec e m) r := by
  rw [mld2Records_eq] at hr
  split at hr
  · exact absurd hr List.not_mem_nil
  · rename_i hroom
    have hcounted : 0 < mld2Ngrec e m := by
      by_contra hzero
      rw [Nat.eq_zero_of_not_pos hzero] at hr
      exact absurd hr List.not_mem_nil
    exact grecWalk_met _ 0 8 (.first hcounted (Nat.not_lt.mp hroom)) rfl r hr

theorem GrecBegins.record (hb : GrecBegins e m plen (mld2Ngrec e m) k off) (hin : off ≤ plen) :
    ∃ r ∈ mld2Records e m plen, r.off = off := by
  rw [mld2Records_eq, if_neg (Nat.not_lt.mpr hb.room)]
  exact hb.seen hin

end Walk

/-! ## 2. The reads -/

/-- The header of a record, and the sources that go to `grpint_refresh`: where they are in the
message, and their length. -/
def Visit.reads (v : Visit) : List (Nat × Nat) :=
  (v.off, 20) :: if v.isnew.isSome then
    (List.range v.srcs.length).map (fun k => (v.off + 20 + 16 * k, 16)) else []

theorem forall_reads_iff {plen : Nat} (v : Visit) :
    (∀ a ∈ v.reads, a.1 + a.2 ≤ plen) ↔ v.off + 20 ≤ plen ∧
      (v.isnew.isSome = true → ∀ k < v.srcs.length, v.off + 20 + 16 * k + 16 ≤ plen) := by
  rw [Visit.reads, List.forall_mem_cons, and_congr_right_iff]
  intro _
  cases v.isnew.isSome with
  | false => simp
  | true => simp

/-- **When the handler reads inside the message only**: if no record begins in its last 19 bytes, or
at its end. -/
theorem mld2_reads_inside_iff (h : Host) (now : Nat) (st : Conf) (i : Nat) (mld2r : Mem)
    (plen : Nat) :
    (∀ v ∈ (l4Ipv6Icmpv6Mld2Report h now st i mld2r plen).visits,
      ∀ a ∈ v.reads, a.1 + a.2 ≤ plen) ↔
    ∀ k off, GrecBegins h.endian mld2r plen (h.endian.htons (h.endian.load16 mld2r 6)) k off →
      plen < off ∨ off + 20 ≤ plen := by
  rw [forall_mld2Visits]
  constructor
  · intro hall k off hb
    rcases Nat.lt_or_ge plen off with hout | hin
    · exact Or.inl hout
    · obtain ⟨r, hr, rfl⟩ := GrecBegins.record hb hin
      obtain ⟨pre, post, he⟩ := List.append_of_mem hr
      exact Or.inr ((forall_reads_iff _).mp (hall pre r post he)).1
  · intro hcond pre r post he
    have hmet : GrecMet h.endian mld2r plen (mld2Ngrec h.endian mld2r) r :=
      mld2Records_met (he ▸ List.mem_append_right _ List.mem_cons_self)
    obtain ⟨k, hb⟩ := hmet.begins
    rw [forall_reads_iff]
    exact ⟨(hcond k r.off hb).resolve_left (Nat.not_lt.mpr hmet.inside), fun _ => hmet.src_inside⟩

/-- A report of 48 bytes that counts two records: the first one has a source, and the second one
four bytes. -/
def cutOffReport : Mem :=
  Mem.ofList (List.replicate 6 0 ++ be16 2 ++ [4, 0, 0, 1] ++ siteGroup.s6Addr ++
    (globalHost 1).s6Addr ++ [4, 0, 0, 0])

/-- The second record is read up to the byte 64. -/
theorem cut_off_record_read : ¬ ∀ v ∈ (l4Ipv6Icmpv6Mld2Report (quietHost .little) 7 oneLink 1
      cutOffReport 48).visits, ∀ a ∈ v.reads, a.1 + a.2 ≤ 48 := by
  decide +kernel

end Ecmh
