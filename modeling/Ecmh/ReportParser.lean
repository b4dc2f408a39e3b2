/-
# Reading an MLDv2 report

What `l4_ipv6_icmpv6_mld2_report` makes of a well-formed report.  The handler steps over the
auxiliary data of a record as if `auxwords` counted bytes, so it finds the next record only where
there is none.  `report_parsed_iff` is the exact account, by induction on the records with the
offset of the next one as the invariant.
-/
import Ecmh.TableOp
import Ecmh.Wire

namespace Ecmh

open ByteMem

/-! ## 1. One record in memory -/

theorem readAddrs_of_read (m : Mem) : ∀ (l : List In6Addr) (off : Nat),
    m.read off (16 * l.length) = l.flatMap In6Addr.s6Addr → readAddrs m off l.length = l
  | [], _, _ => rfl
  | a :: l, off, h => by
    rw [List.flatMap_cons] at h
    obtain ⟨ha, hl⟩ := Mem.read_eq_append h
    rw [length_s6Addr] at ha hl
    rw [length_flatMap_s6Addr] at hl
    rw [List.length_cons, readAddrs, readAddr_of_read ha, readAddrs_of_read m l _ hl]

/-- What the handler reads of a record that stands in memory. -/
structure GrecAt (e : Endian) (m : Mem) (off : Nat) (r : WireGrec) : Prop where
  grecType : m off = r.grecType
  auxwords : (m (off + 1)).toNat = r.auxwords
  nsrcs : e.htons (e.load16 m (off + 2)) = r.srcs.length
  mca : readAddr m (off + 4) = r.mca
  srcs : readAddrs m (off + 20) r.srcs.length = r.srcs

theorem grecAt_of_read {e : Endian} {m : Mem} {off : Nat} {r : WireGrec}
    (h : m.read off r.encode.length = r.encode) : GrecAt e m off r := by
  obtain ⟨h0, h1, h2⟩ := getD_encode r []
  rw [List.append_nil, ← h] at h0 h1 h2
  have hlen := r.length_encode
  have hget : ∀ i, i < r.encode.length → (m.read off r.encode.length).getD i 0 = m (off + i) :=
    fun i hi => Mem.getD_read m hi
  rw [hget _ (by omega)] at h0 h1
  rw [hget _ (by omega), hget _ (by omega)] at h2
  -- the record behind its first four bytes, in pieces
  have hsplit : r.encode = [r.grecType, UInt8.ofNat r.auxwords,
      UInt8.ofNat (r.srcs.length / 256), UInt8.ofNat r.srcs.length] ++ (r.mca.s6Addr ++
      (r.srcs.flatMap In6Addr.s6Addr ++ r.aux)) := by
    simp [WireGrec.encode, be16, List.append_assoc]
  rw [hsplit] at h
  obtain ⟨-, hrest⟩ := Mem.read_eq_append h
  obtain ⟨hmca, hrest⟩ := Mem.read_eq_append hrest
  obtain ⟨hsrcs, -⟩ := Mem.read_eq_append hrest
  rw [length_s6Addr] at hmca hsrcs
  rw [length_flatMap_s6Addr] at hsrcs
  exact ⟨h0, h1, (Endian.htons_load16 e m _).trans h2, readAddr_of_read hmca,
    readAddrs_of_read m r.srcs _ hsrcs⟩

/-! ## 2. The records of a report -/

/-- A report with these records behind its six first bytes. -/
def HoldsReport (m : Mem) (rs : List WireGrec) : Prop :=
  m.read 6 (2 + (encodeGrecs rs).length) = be16 rs.length ++ encodeGrecs rs

instance (m : Mem) (rs : List WireGrec) : Decidable (HoldsReport m rs) :=
  inferInstanceAs (Decidable (_ = _))

/-- The length of the report. -/
def reportLength (rs : List WireGrec) : Nat := 8 + (encodeGrecs rs).length

theorem HoldsReport.records {m : Mem} {rs : List WireGrec} (hm : HoldsReport m rs) :
    m.read 8 (encodeGrecs rs).length = encodeGrecs rs :=
  (Mem.read_eq_append hm).2

/-- The header gives the number of records, and the message has the room for their headers. -/
theorem HoldsReport.ngrec {m : Mem} {rs : List WireGrec} (hm : HoldsReport m rs) (e : Endian)
    (hlen : reportLength rs < 65536) :
    e.htons (e.load16 m 6) = rs.length ∧ 8 + rs.length * 20 ≤ reportLength rs := by
  have hcount := length_encodeGrecs_ge rs
  rw [reportLength] at hlen ⊢
  have h6 : m.read 6 2 = be16 rs.length := (Mem.read_eq_append hm).1
  simp only [Mem.read_succ, Mem.read_zero, be16, List.cons.injEq, and_true] at h6
  rw [Endian.htons_load16, h6.1, h6.2, ofBe16_be16]
  omega

/-- Where the records are, and what they say. -/
def recordsFrom : Nat → List WireGrec → List (Nat × Nat × In6Addr × List In6Addr)
  | _, [] => []
  | off, r :: rs =>
    (off, r.grecType.toNat, r.mca, r.srcs) :: recordsFrom (off + r.encode.length) rs

/-- The handler visits exactly these records, in order, each where it is and with its own type,
address and sources, and comes to the regular end of its loop. -/
def ParsesAs (run : Mld2Run) (rs : List WireGrec) : Prop :=
  run.visits.map (fun v => (v.off, v.grecType, v.mca, v.srcs)) = recordsFrom 8 rs ∧
    run.exit = .done

instance (run : Mld2Run) (rs : List WireGrec) : Decidable (ParsesAs run rs) :=
  inferInstanceAs (Decidable (_ ∧ _))

/-- What is seen of a record. -/
def GrecSeen.fields (r : GrecSeen) : Nat × Nat × In6Addr × List In6Addr :=
  (r.off, r.grecType, r.mca, r.srcs.getD [])

/-- The walk, at a record: it takes the record as it is, and goes on `auxwords` bytes behind its
sources. -/
theorem grecWalk_record {e : Endian} {m : Mem} {plen off n : Nat} {r : WireGrec}
    (hr : GrecAt e m off r) (hknown : mld2Known r.grecType.toNat = true)
    (hfit : off + 20 + 16 * r.srcs.length ≤ plen) :
    grecWalk e m plen (n + 1) off =
      (⟨off, r.grecType.toNat, r.mca, some r.srcs⟩ ::
        (grecWalk e m plen n (off + 20 + 16 * r.srcs.length + r.auxwords)).1,
        (grecWalk e m plen n (off + 20 + 16 * r.srcs.length + r.auxwords)).2) := by
  rw [grecWalk, if_neg (by omega)]
  dsimp only
  rw [hr.grecType, hr.auxwords, hr.nsrcs, hr.mca, hr.srcs, if_neg (by simp [hknown]),
    if_neg (by omega)]

/-- The walk starts where it is told to. -/
theorem grecWalk_head (e : Endian) (m : Mem) (plen n off : Nat) :
    ∀ r ∈ (grecWalk e m plen n off).1.head?, r.off = off := by
  intro r hr
  cases n with
  | zero => simp [grecWalk] at hr
  | succ n =>
    rw [grecWalk] at hr
    split at hr
    · simp at hr
    · dsimp only at hr
      split at hr
      · simp at hr
        rw [← hr]
      · split at hr
        · simp at hr
          rw [← hr]
        · simp at hr
          rw [← hr]

/-- **The walk over a well-formed list of records**: it follows them exactly if no record but the
last has auxiliary data.  The induction is on the records, at any offset. -/
theorem grecWalk_follows_iff {e : Endian} {m : Mem} {plen : Nat} :
    ∀ (rs : List WireGrec) (off : Nat), m.read off (encodeGrecs rs).length = encodeGrecs rs →
    off + (encodeGrecs rs).length ≤ plen → (∀ r ∈ rs, mld2Known r.grecType.toNat = true) →
    (((grecWalk e m plen rs.length off).1.map GrecSeen.fields = recordsFrom off rs ∧
      (grecWalk e m plen rs.length off).2 = .done) ↔ ∀ r ∈ rs.dropLast, r.aux = [])
  | [], off, _, _, _ => by simp [grecWalk, recordsFrom]
  | r :: rs, off, hm, hfit, hknown => by
    rw [encodeGrecs_cons] at hm hfit
    rw [List.length_append] at hfit
    obtain ⟨hr, hrs⟩ := Mem.read_eq_append hm
    have hlen := r.length_encode
    have hat : GrecAt e m off r := grecAt_of_read hr
    have hrec := grecWalk_record (n := rs.length) hat (hknown r List.mem_cons_self)
      (show off + 20 + 16 * r.srcs.length ≤ plen by omega)
    rw [List.length_cons, hrec]
    have haux : r.aux = [] ↔ r.auxwords = 0 := by
      rw [← List.length_eq_zero_iff, r.length_aux]
      omega
    cases rs with
    | nil => simp [grecWalk, recordsFrom, GrecSeen.fields]
    | cons r' rs =>
      have ih := grecWalk_follows_iff (e := e) (r' :: rs) (off + r.encode.length) hrs
        (show off + r.encode.length + (encodeGrecs (r' :: rs)).length ≤ plen by omega)
        (fun x hx => hknown x (List.mem_cons_of_mem _ hx))
      rw [List.dropLast_cons_cons, List.forall_mem_cons, ← ih]
      simp only [List.map_cons, recordsFrom, List.cons.injEq]
      constructor
      · rintro ⟨⟨-, htail⟩, hdone⟩
        -- the next record was met, so the step to it was the right one
        have hoff : off + 20 + 16 * r.srcs.length + r.auxwords = off + r.encode.length := by
          have hhead := grecWalk_head e m plen (rs.length + 1)
            (off + 20 + 16 * r.srcs.length + r.auxwords)
          rw [List.length_cons] at htail
          cases hw : (grecWalk e m plen (rs.length + 1)
              (off + 20 + 16 * r.srcs.length + r.auxwords)).1 with
          | nil => rw [hw] at htail; simp at htail
          | cons x xs =>
            rw [hw] at htail hhead
            simp only [List.map_cons, List.cons.injEq, GrecSeen.fields, Prod.mk.injEq] at htail
            rw [← hhead x rfl]
            exact htail.1.1
        have hzero : r.auxwords = 0 := by omega
        rw [hoff] at htail hdone
        exact ⟨haux.mpr hzero, htail, hdone⟩
      · rintro ⟨hnil, htail, hdone⟩
        have hoff : off + 20 + 16 * r.srcs.length + r.auxwords = off + r.encode.length := by
          have := haux.mp hnil
          omega
        rw [hoff]
        exact ⟨⟨rfl, htail⟩, hdone⟩

/-! ## 3. The handler -/

/-- **What the handler makes of a well-formed report**: it visits exactly its records if and only
if no record but the last carries auxiliary data. -/
theorem report_parsed_iff (h : Host) (now : Nat) (st : Conf) (i : Nat) (m : Mem)
    (rs : List WireGrec) (hm : HoldsReport m rs)
    (hknown : ∀ r ∈ rs, mld2Known r.grecType.toNat = true) (hlen : reportLength rs < 65536) :
    ParsesAs (l4Ipv6Icmpv6Mld2Report h now st i m (reportLength rs)) rs ↔
      ∀ r ∈ rs.dropLast, r.aux = [] := by
  obtain ⟨hn, hfit⟩ := hm.ngrec h.endian hlen
  have hvisits := mld2Grecs_visits h now i m (reportLength rs) rs.length
    (intSetMldVersion now st i 2) 8 false []
  rw [List.map_nil, List.nil_append] at hvisits
  rw [ParsesAs, l4Ipv6Icmpv6Mld2Report, hn, if_neg (by omega), hvisits.1, hvisits.2]
  exact grecWalk_follows_iff rs 8 hm.records (Nat.le_refl _) hknown

/-- A listener that allows no source of `ff05::1`, with these auxiliary data. -/
def auxRecord (aux : List UInt8) (words : aux.length % 4 = 0 ∧ aux.length ≤ 1020) : WireGrec :=
  ⟨4, siteGroup, [], aux, WireGrec.noSrcs_lt, words⟩

/-- The report of two records, as a memory. -/
def twoRecords (r r' : WireGrec) : Mem :=
  Mem.ofList (List.replicate 6 0 ++ be16 2 ++ encodeGrecs [r, r'])

/-- Auxiliary data in the last record does no harm. -/
theorem report_parsed_auxLast : ParsesAs
    (l4Ipv6Icmpv6Mld2Report (quietHost .little) 0 (init plainOptions) 0
      (twoRecords (auxRecord [] (by decide)) (auxRecord [0, 0, 0, 0] (by decide)))
      (reportLength [auxRecord [] (by decide), auxRecord [0, 0, 0, 0] (by decide)]))
    [auxRecord [] (by decide), auxRecord [0, 0, 0, 0] (by decide)] :=
  (report_parsed_iff _ _ _ _ _ _ (by decide +kernel) (by decide +kernel) (by decide +kernel)).mpr
    (by decide +kernel)

/-- One word of auxiliary data in the first of two records, and the second is not found. -/
theorem auxiliary_data_desynchronises :
    HoldsReport (twoRecords (auxRecord [0, 0, 0, 0] (by decide)) (auxRecord [] (by decide)))
      [auxRecord [0, 0, 0, 0] (by decide), auxRecord [] (by decide)] ∧
    reportLength [auxRecord [0, 0, 0, 0] (by decide), auxRecord [] (by decide)] = 52 ∧
    ¬ ParsesAs
      (l4Ipv6Icmpv6Mld2Report (quietHost .little) 0 (init plainOptions) 0
        (twoRecords (auxRecord [0, 0, 0, 0] (by decide)) (auxRecord [] (by decide)))
        (reportLength [auxRecord [0, 0, 0, 0] (by decide), auxRecord [] (by decide)]))
      [auxRecord [0, 0, 0, 0] (by decide), auxRecord [] (by decide)] := by
  decide +kernel

end Ecmh
