/-
# The layout of an MLDv2 report

`mld2_send_report` writes group records one behind the other into its buffer and sends the buffer
when the next record or source does not fit.  `Laid` says what a well-formed packet under
construction looks like: the closed records are encoded as they should be, and the last one is
still open, its count in the byte order of the machine.  A step keeps this as long as a record
that it starts behind an open one comes to stand behind the sources of that one, and in a place
whose second byte is zero (`StepLaysOut`): the code swaps the count before it steps over the
sources, and never writes `grec_auxwords`.
-/
import Ecmh.ReportBuffer
import Ecmh.Wire

namespace Ecmh

open ByteMem

/-! ## 1. Records and packets -/

/-- A decoded record, as data. -/
def WireGrec.toGrec (r : WireGrec) : Grec := ⟨r.grecType.toNat, r.mca, r.srcs⟩

/-- The packet is a report with exactly these records, without auxiliary data. -/
def Encodes (recs : List Grec) (packet : List UInt8) : Prop :=
  ∃ rs, decodeReport packet = some rs ∧ rs.map WireGrec.toGrec = recs ∧ ∀ r ∈ rs, r.aux = []

/-- A record without auxiliary data, in the buffer, whose count is in the byte order of the
machine. -/
structure OpenAt (e : Endian) (m : Mem) (grec : Nat) (w : WireGrec) : Prop where
  grecType : m grec = w.grecType
  auxwords : m (grec + 1) = 0
  nsrcs : e.load16 m (grec + 2) = w.srcs.length
  mca : m.read (grec + 4) 16 = w.mca.s6Addr
  srcs : m.read (grec + 20) (16 * w.srcs.length) = w.srcs.flatMap In6Addr.s6Addr
  plain : w.aux = []

theorem WireGrec.length_encode_plain {w : WireGrec} (h : w.aux = []) :
    w.encode.length = 20 + 16 * w.srcs.length := by
  have := w.length_aux
  rw [h, List.length_nil] at this
  rw [w.length_encode]
  omega

/-- The swap of the count closes a record. -/
theorem OpenAt.closed {e : Endian} {m : Mem} {grec : Nat} {w : WireGrec} (h : OpenAt e m grec w) :
    (e.store16 m (grec + 2) (e.htons w.srcs.length)).read grec w.encode.length = w.encode := by
  have hpieces : (e.store16 m (grec + 2) (e.htons w.srcs.length)).read grec w.encode.length
      = [m grec, m (grec + 1)] ++ be16 w.srcs.length ++ m.read (grec + 4) 16
        ++ m.read (grec + 20) (16 * w.srcs.length) := by
    rw [WireGrec.length_encode_plain h.plain,
      show 20 + 16 * w.srcs.length = 2 + 2 + 16 + 16 * w.srcs.length by omega, Mem.read_add,
      Mem.read_add, Mem.read_add, Endian.read_store16_same, Endian.bytes16_htons,
      Endian.read_store16_disjoint e m _ (by omega), Endian.read_store16_disjoint e m _ (by omega),
      Endian.read_store16_disjoint e m _ (by omega)]
    rfl
  have haux : w.auxwords = 0 := by
    rw [WireGrec.auxwords, h.plain]
    rfl
  rw [hpieces, h.grecType, h.auxwords, h.mca, h.srcs, WireGrec.encode, haux, h.plain,
    List.append_nil]
  rfl

/-- A record does not see what happens elsewhere in the buffer. -/
theorem OpenAt.congr {e : Endian} {m m' : Mem} {grec : Nat} {w : WireGrec} (h : OpenAt e m grec w)
    (heq : ∀ i, grec ≤ i → i < grec + 20 + 16 * w.srcs.length → m' i = m i) :
    OpenAt e m' grec w where
  grecType := (heq grec (by omega) (by omega)).trans h.grecType
  auxwords := (heq (grec + 1) (by omega) (by omega)).trans h.auxwords
  nsrcs := by
    rw [← h.nsrcs]
    exact Endian.load16_eq_of_read (Mem.read_congr fun i h1 h2 => heq i (by omega) (by omega))
  mca := by
    rw [← h.mca]
    exact Mem.read_congr fun i h1 h2 => heq i (by omega) (by omega)
  srcs := by
    rw [← h.srcs]
    exact Mem.read_congr fun i h1 h2 => heq i (by omega) (by omega)
  plain := h.plain

/-! ## 2. The packet under construction -/

/-- The bytes of the buffer in front of the records that no step writes, and the second byte of
the first record. -/
structure HeadOk (m : Mem) : Prop where
  nxt : m 6 = 0
  hbhNxt : m 40 = 58
  hbhLen : m 41 = 0
  type : m 48 = 143
  auxwords : m 57 = 0

theorem HeadOk.congr {m m' : Mem} (h : HeadOk m)
    (heq : ∀ i, i = 6 ∨ i = 40 ∨ i = 41 ∨ i = 48 ∨ i = 57 → m' i = m i) : HeadOk m' :=
  ⟨(heq 6 (by omega)).trans h.nxt, (heq 40 (by omega)).trans h.hbhNxt,
    (heq 41 (by omega)).trans h.hbhLen, (heq 48 (by omega)).trans h.type,
    (heq 57 (by omega)).trans h.auxwords⟩

/-- The records `ws` are closed and `w`, at `grec`, is open. -/
structure Laid (e : Endian) (s : ReportLoop) (ws : List WireGrec) (w : WireGrec) (grec : Nat) :
    Prop where
  pointer : s.grec = some grec
  place : grec = 56 + (encodeGrecs ws).length
  closed : s.packet.read 56 (encodeGrecs ws).length = encodeGrecs ws
  last : OpenAt e s.packet grec w
  cur : s.cur = (ws ++ [w]).map WireGrec.toGrec
  plain : ∀ r ∈ ws, r.aux = []
  ngrec : e.load16 s.packet reportNgrec = ws.length + 1
  fits : grec + 20 + 16 * w.srcs.length ≤ 65535

/-- What is true of the loop as long as all its packets are well-formed. -/
structure LoopOk (e : Endian) (s : ReportLoop) : Prop where
  head : HeadOk s.packet
  empty : s.grec = none → s.cur = [] ∧ e.load16 s.packet reportNgrec = 0
  laid : ∀ grec, s.grec = some grec → ∃ ws w, Laid e s ws w grec

/-- The packets that were sent so far encode the records that were appended to them. -/
def SentOk (st : Conf) (s : ReportLoop) : Prop :=
  ∃ new, s.st.sent = st.sent ++ new ∧ List.Forall₂ Encodes s.out (new.map Sent.packet)

section Laid

variable {e : Endian} {s : ReportLoop} {ws : List WireGrec} {w : WireGrec} {grec : Nat}

theorem Laid.slot_eq (h : Laid e s ws w grec) : s.slot e grec = grec + 20 + 16 * w.srcs.length := by
  rw [ReportLoop.slot, ReportLoop.nsrcs, h.last.nsrcs]

theorem Laid.length_encode (h : Laid e s ws w grec) :
    (encodeGrecs (ws ++ [w])).length = (encodeGrecs ws).length + 20 + 16 * w.srcs.length := by
  rw [encodeGrecs_append, List.length_append, encodeGrecs_cons, encodeGrecs_nil,
    List.append_nil, WireGrec.length_encode_plain h.last.plain]
  omega

/-- All the records, once the last one is closed too. -/
theorem Laid.all_closed (h : Laid e s ws w grec) :
    (e.store16 s.packet (grec + 2) (e.htons w.srcs.length)).read 56
      (encodeGrecs (ws ++ [w])).length = encodeGrecs (ws ++ [w]) := by
  have hplace := h.place
  have hlen : (encodeGrecs (ws ++ [w])).length = (encodeGrecs ws).length + w.encode.length := by
    rw [h.length_encode, WireGrec.length_encode_plain h.last.plain]
    omega
  rw [hlen, Mem.read_add, Endian.read_store16_disjoint e _ _ (by omega), h.closed, ← hplace,
    h.last.closed, encodeGrecs_append, encodeGrecs_cons, encodeGrecs_nil, List.append_nil]

theorem Laid.map_toGrec_aux (h : Laid e s ws w grec) : ∀ r ∈ ws ++ [w], r.aux = [] := by
  intro r hr
  rcases List.mem_append.mp hr with hr | hr
  · exact h.plain r hr
  · rw [List.mem_singleton.mp hr]
    exact h.last.plain

end Laid

/-! ## 3. Sending the packet -/

/-- The bytes that a packet leaves in the buffer. -/
structure ClosedAt (m : Mem) (rs : List WireGrec) : Prop where
  head : HeadOk m
  plen : m.read 4 2 = be16 (16 + (encodeGrecs rs).length)
  ngrec : m.read 54 2 = be16 rs.length
  records : m.read 56 (encodeGrecs rs).length = encodeGrecs rs

/-- **A packet that is laid out well is sent as it should be.** -/
theorem Laid.send {h : Host} {i : Nat} {s : ReportLoop} {ws : List WireGrec} {w : WireGrec}
    {grec : Nat} (hl : Laid h.endian s ws w grec) (hhead : HeadOk s.packet) :
    ClosedAt (reportSend h i s grec).packet (ws ++ [w]) ∧
    s.length h.endian + 40 = 56 + (encodeGrecs (ws ++ [w])).length := by
  have hplace := hl.place
  have hfits := hl.fits
  have hlen := hl.length_encode
  have hlength : s.length h.endian + 40 = 56 + (encodeGrecs (ws ++ [w])).length := by
    rw [ReportLoop.length, hl.pointer]
    dsimp only
    rw [hl.slot_eq]
    omega
  refine ⟨?_, hlength⟩
  have hall := hl.all_closed
  obtain ⟨csum, hm⟩ := reportSend_packet h i s grec
  have hcount : h.endian.load16 (h.endian.store16 s.packet reportNgrec
      (h.endian.htons (h.endian.load16 s.packet reportNgrec))) (grec + 2) = w.srcs.length := by
    rw [← hl.last.nsrcs]
    exact Endian.load16_eq_of_read
      (Endian.read_store16_disjoint h.endian _ _ (by simp only [reportNgrec]; omega))
  rw [hcount, hl.ngrec] at hm
  refine ⟨hhead.congr fun k hk => ?_, ?_, ?_, ?_⟩
  · exact reportSend_apply h i s (by omega) (by omega) (by omega) (by omega) (by omega) (by omega)
      (by omega) (by omega)
  · rw [hm, Endian.read_store16_disjoint _ _ _ (by omega),
      Endian.read_store16_disjoint _ _ _ (by omega), ip6Plen, Endian.read_store16_same,
      Endian.bytes16_htons]
    congr 1
    omega
  · rw [hm, Endian.read_store16_disjoint _ _ _ (by omega),
      Endian.read_store16_disjoint _ _ _ (by omega),
      Endian.read_store16_disjoint _ _ _ (by simp only [ip6Plen]; omega),
      Endian.read_store16_disjoint _ _ _ (by omega), reportNgrec, Endian.read_store16_same,
      Endian.bytes16_htons, List.length_append, List.length_singleton]
  · -- the swap of the last count closes the records; the other writes are in front of them
    refine (Mem.read_congr fun k h1 h2 => ?_).trans hall
    by_cases hk : k = grec + 2 ∨ k = grec + 3
    · rw [hm, Endian.store16_apply_ne _ _ _ (by omega), Endian.store16_apply_ne _ _ _ (by omega),
        Endian.store16_apply_ne _ _ _ (by simp only [ip6Plen]; omega)]
      have hsame : ∀ m : Mem, (h.endian.store16 m (grec + 2) (h.endian.htons w.srcs.length)).read
          (grec + 2) 2 = be16 w.srcs.length := fun m => by
        rw [Endian.read_store16_same, Endian.bytes16_htons]
      have htwo := (hsame (h.endian.store16 s.packet reportNgrec
        (h.endian.htons (ws.length + 1)))).trans (hsame s.packet).symm
      rcases hk with rfl | rfl
      · exact Mem.eq_of_read_eq (i := 0) htwo (by omega)
      · exact Mem.eq_of_read_eq (i := 1) htwo (by omega)
    · rw [reportSend_apply h i s (by omega) (by omega) (by omega) (by omega) (by omega) (by omega)
        (by omega) (by omega), Endian.store16_apply_ne _ _ _ (by omega)]

/-- Such a packet decodes to its records. -/
theorem ClosedAt.decode {m : Mem} {rs : List WireGrec} (hc : ClosedAt m rs)
    (hfits : 56 + (encodeGrecs rs).length ≤ 65535) :
    decodeReport (m.read 0 (56 + (encodeGrecs rs).length)) = some rs := by
  have hcount := length_encodeGrecs_ge rs
  have hget : ∀ k, k < 56 → (m.read 0 (56 + (encodeGrecs rs).length)).getD k 0 = m k :=
    fun k hk => (Mem.getD_read m (by omega)).trans (by rw [Nat.zero_add])
  rw [decodeReport_eq_some, isReportPacket, hget 6 (by omega), hget 40 (by omega),
    hget 41 (by omega), hget 48 (by omega), hget 4 (by omega), hget 5 (by omega),
    hget 54 (by omega), hget 55 (by omega), ofBe16_of_read hc.plen, ofBe16_of_read hc.ngrec,
    Mem.length_read, Mem.drop_read m 0 (by omega)]
  refine ⟨by simp [hc.head.nxt, hc.head.hbhNxt, hc.head.hbhLen, hc.head.type], by omega, by omega,
    ?_⟩
  rw [Nat.zero_add, Nat.add_sub_cancel_left]
  exact hc.records

/-! ## 4. The changes of the packet -/

/-- The record that is started for a group. -/
def openRecord (mca : In6Addr) : WireGrec :=
  ⟨2, mca, [], [], WireGrec.noSrcs_lt, WireGrec.noAux_words⟩

theorem openRecord_toGrec (mca : In6Addr) :
    (openRecord mca).toGrec = ⟨mld2ModeIsExclude, mca, []⟩ := rfl

/-- The header of a new record is written, but for its second byte. -/
theorem openAt_new {e : Endian} {m : Mem} {grec : Nat} (mca : In6Addr) (haux : m (grec + 1) = 0) :
    OpenAt e (writeOpen e m grec mca) grec (openRecord mca) where
  grecType := writeHead_grecType
  auxwords := (writeOpen_apply mca (Or.inr rfl)).trans haux
  nsrcs := writeHead_nsrcs
  mca := by
    rw [writeOpen, Mem.read_congr fun k _ _ => writeHead_apply (by omega)]
    exact Mem.read_write_same' _ _ _ _ mca.size
  srcs := rfl
  plain := rfl

/-- A change of the record under construction only. -/
theorem Laid.relast {e : Endian} {s s' : ReportLoop} {ws : List WireGrec} {w w' : WireGrec}
    {grec : Nat} (hl : Laid e s ws w grec) (hgrec : s'.grec = some grec)
    (heq : ∀ k, k < grec → s'.packet k = s.packet k) (hlast : OpenAt e s'.packet grec w')
    (hcur : s'.cur = (ws ++ [w']).map WireGrec.toGrec)
    (hfits : grec + 20 + 16 * w'.srcs.length ≤ 65535) : Laid e s' ws w' grec := by
  have hplace := hl.place
  refine ⟨hgrec, hplace, ?_, hlast, hcur, hl.plain, ?_, hfits⟩
  · exact (Mem.read_congr fun k _ hk => heq k (by omega)).trans hl.closed
  · rw [← hl.ngrec]
    exact Endian.load16_eq_of_read (Mem.read_congr fun k _ hk => heq k
      (by simp only [reportNgrec] at hk; omega))

/-- The layout does not depend on the other variables of the loop. -/
theorem Laid.congr {e : Endian} {s s' : ReportLoop} {ws : List WireGrec} {w : WireGrec}
    {grec : Nat} (hl : Laid e s ws w grec) (hp : s'.packet = s.packet) (hg : s'.grec = s.grec)
    (hc : s'.cur = s.cur) : Laid e s' ws w grec :=
  hl.relast (hg.trans hl.pointer) (fun k _ => by rw [hp]) (by rw [hp]; exact hl.last)
    (hc.trans hl.cur) hl.fits

theorem LoopOk.congr {e : Endian} {s s' : ReportLoop} (hs : LoopOk e s)
    (hp : s'.packet = s.packet) (hg : s'.grec = s.grec) (hc : s'.cur = s.cur) : LoopOk e s' where
  head := by rw [hp]; exact hs.head
  empty := fun h => by
    rw [hc, hp]
    exact hs.empty (hg.symm.trans h)
  laid := fun grec h => by
    obtain ⟨ws, w, hl⟩ := hs.laid grec (hg.symm.trans h)
    exact ⟨ws, w, hl.congr hp hg hc⟩

theorem LoopOk.of_laid {e : Endian} {s : ReportLoop} {ws : List WireGrec} {w : WireGrec}
    {grec : Nat} (hhead : HeadOk s.packet) (hl : Laid e s ws w grec) : LoopOk e s where
  head := hhead
  empty := fun h => by
    rw [hl.pointer] at h
    cases h
  laid := fun g h => by
    obtain rfl := Option.some.inj (hl.pointer.symm.trans h)
    exact ⟨ws, w, hl⟩

theorem Laid.grec_cases {e : Endian} {s : ReportLoop} {ws : List WireGrec} {w : WireGrec}
    {grec : Nat} (hl : Laid e s ws w grec) : grec = 56 ∨ 76 ≤ grec := by
  have hplace := hl.place
  have hcount := length_encodeGrecs_ge ws
  cases ws with
  | nil => exact Or.inl hplace
  | cons r ws =>
    rw [List.length_cons] at hcount
    omega

/-- From the open record on, all but its second byte may change. -/
theorem Laid.headOk {e : Endian} {s : ReportLoop} {ws : List WireGrec} {w : WireGrec} {grec : Nat}
    (hl : Laid e s ws w grec) (hhead : HeadOk s.packet) {m : Mem}
    (heq : ∀ k, k < grec ∨ k = grec + 1 → m k = s.packet k) : HeadOk m :=
  hhead.congr fun k hk => heq k (by have := hl.grec_cases; omega)

theorem Laid.collapse {e : Endian} {s : ReportLoop} {ws : List WireGrec} {w : WireGrec}
    {grec : Nat} (hl : Laid e s ws w grec) (hhead : HeadOk s.packet) :
    LoopOk e (reportCollapse e s grec) := by
  have hfits := hl.fits
  have heq : ∀ k, (k < grec ∨ k = grec + 1 ∨ grec + 4 ≤ k) →
      (reportCollapse e s grec).packet k = s.packet k := fun k hk => writeHead_apply hk
  have hlast : OpenAt e (reportCollapse e s grec).packet grec (openRecord w.mca) := by
    refine ⟨writeHead_grecType, ?_, writeHead_nsrcs, ?_, rfl, rfl⟩
    · exact (heq _ (by omega)).trans hl.last.auxwords
    · exact (Mem.read_congr fun k h1 _ => heq k (by omega)).trans hl.last.mca
  refine LoopOk.of_laid (hl.headOk hhead fun k hk => heq k (by omega))
    (hl.relast hl.pointer (fun k hk => heq k (by omega)) hlast ?_ (by simp [openRecord]; omega))
  show ReportLoop.setLast _ s.cur = _
  rw [hl.cur, List.map_append, List.map_singleton, setLast_concat, List.map_append]
  rfl

/-- A source is appended to the open record. -/
theorem Laid.append {e : Endian} {s : ReportLoop} {ws : List WireGrec} {w : WireGrec} {grec : Nat}
    (hl : Laid e s ws w grec) (hhead : HeadOk s.packet) (ipv6 : In6Addr)
    (hfit : s.slot e grec + (if ipv6 = In6Addr.any then 0 else 16) ≤ 65535) :
    LoopOk e (reportAppend e s ipv6) := by
  by_cases hany : ipv6 = In6Addr.any
  · rw [reportAppend_any hl.pointer hany]
    exact (LoopOk.of_laid hhead hl).congr rfl rfl rfl
  · have hslot := hl.slot_eq
    have hn : s.nsrcs e grec = w.srcs.length := hl.last.nsrcs
    rw [if_neg hany, hslot] at hfit
    -- the record with the source, as data
    let w' : WireGrec := ⟨1, w.mca, w.srcs ++ [ipv6], [], by
      rw [List.length_append, List.length_singleton]; omega, by decide⟩
    have hlen : w'.srcs.length = w.srcs.length + 1 := by simp [w']
    have heq : ∀ k, (k < grec ∨ k = grec + 1 ∨ grec + 4 ≤ k ∧ k < s.slot e grec) →
        (reportAppend e s ipv6).packet k = s.packet k :=
      fun k hk => reportAppend_apply hl.pointer hk
    have hpacket := congrArg ReportLoop.packet (reportAppend_source hl.pointer hany (e := e))
    dsimp only at hpacket
    have hlast : OpenAt e (reportAppend e s ipv6).packet grec w' := by
      refine ⟨?_, ?_, ?_, ?_, ?_, rfl⟩
      · rw [hpacket, Mem.write_apply_of_lt _ _ (by omega)]
        exact writeHead_grecType
      · exact (heq _ (by omega)).trans hl.last.auxwords
      · have hcount : (reportAppend e s ipv6).nsrcs e grec = _ := reportAppend_nsrcs hl.pointer
        rw [if_neg hany, hn, Nat.mod_eq_of_lt (by omega)] at hcount
        exact hcount.trans hlen.symm
      · exact (Mem.read_congr fun k _ _ => heq k (by omega)).trans hl.last.mca
      · rw [hlen, Nat.mul_add, Mem.read_add, Mem.read_congr fun k _ _ => heq k (by omega),
          hl.last.srcs, ← hslot, hpacket, Mem.read_write_same' _ _ _ _ ipv6.size]
        simp [w']
    refine LoopOk.of_laid (hl.headOk hhead fun k hk => heq k (by omega))
      (hl.relast (reportAppend_grec hl.pointer) (fun k hk => heq k (by omega)) hlast ?_
        (by rw [hlen]; omega))
    rw [reportAppend_source hl.pointer hany]
    dsimp only
    rw [hl.cur, List.map_append, List.map_singleton, setLast_concat, List.map_append]
    rfl

/-- The first record of a packet. -/
theorem LoopOk.newGrec {e : Endian} {s : ReportLoop} (hs : LoopOk e s) (hgrec : s.grec = none)
    (mca : In6Addr) : Laid e (reportNewGrec e s mca) [] (openRecord mca) sizeofReport ∧
      HeadOk (reportNewGrec e s mca).packet := by
  obtain ⟨hcur, hngrec⟩ := hs.empty hgrec
  obtain ⟨hnew, hpacket⟩ := reportNewGrec_first (e := e) hgrec mca
  rw [hngrec] at hpacket
  have haux : (e.store16 s.packet reportNgrec (0 + 1)) (sizeofReport + 1) = 0 :=
    (Endian.store16_apply_ne _ _ _ (Or.inr (by decide))).trans hs.head.auxwords
  refine ⟨⟨hnew, rfl, rfl, ?_, ?_, by simp, ?_, by simp [openRecord, sizeofReport]⟩, ?_⟩
  · rw [hpacket]
    exact openAt_new mca haux
  · simp only [reportNewGrec, hcur]
    rfl
  · rw [reportNewGrec_ngrec (fun g hg => by rw [hgrec] at hg; cases hg), hngrec]
    rfl
  · rw [hpacket]
    refine hs.head.congr fun k hk => ?_
    rw [writeOpen_apply mca (by simp only [sizeofReport]; omega)]
    exact Endian.store16_apply_ne _ _ _ (by simp only [reportNgrec]; omega)

/-- A record behind the open one: its place is right if the swap leaves the count as it is. -/
theorem Laid.newGrec {e : Endian} {s : ReportLoop} {ws : List WireGrec} {w : WireGrec} {grec : Nat}
    (hl : Laid e s ws w grec) (hhead : HeadOk s.packet) (mca : In6Addr)
    (hswap : e.htons (s.nsrcs e grec) = s.nsrcs e grec) (haux : s.packet (s.slot e grec + 1) = 0)
    (hfit : s.slot e grec + 20 ≤ 65535) :
    Laid e (reportNewGrec e s mca) (ws ++ [w]) (openRecord mca) (s.slot e grec) ∧
      HeadOk (reportNewGrec e s mca).packet := by
  have hplace := hl.place
  have hlen := hl.length_encode
  have hcount := length_encodeGrecs_ge ws
  have hslot := hl.slot_eq
  have hn : s.nsrcs e grec = w.srcs.length := hl.last.nsrcs
  obtain ⟨hnew, hpacket⟩ := reportNewGrec_next (e := e) hl.pointer (by omega) mca
  rw [hswap] at hnew hpacket
  have hopen : OpenAt e (reportNewGrec e s mca).packet (s.slot e grec) (openRecord mca) := by
    rw [hpacket]
    exact openAt_new mca ((swapped_apply (by omega) (by omega) (by omega) (by omega)).trans haux)
  refine ⟨⟨hnew, by omega, ?_, hopen, ?_, hl.map_toGrec_aux, ?_, by simp [openRecord]; omega⟩, ?_⟩
  · -- the write of the count closes the record, and nothing else happens in front of the new one
    rw [hpacket]
    refine (Mem.read_congr fun k h1 h2 => ?_).trans hl.all_closed
    rw [writeOpen_apply mca (Or.inl (by omega))]
    by_cases hk : k = grec + 2 ∨ k = grec + 3
    · have htwo := (Endian.read_store16_same e (e.store16 s.packet reportNgrec
        (e.load16 s.packet reportNgrec + 1)) (grec + 2) (e.htons (s.nsrcs e grec))).trans
        (Endian.read_store16_same e s.packet (grec + 2) (e.htons (s.nsrcs e grec))).symm
      rw [← hn]
      rcases hk with rfl | rfl
      · exact Mem.eq_of_read_eq (i := 0) htwo (by omega)
      · exact Mem.eq_of_read_eq (i := 1) htwo (by omega)
    · rw [swapped_apply (by omega) (by omega) (by omega) (by omega),
        Endian.store16_apply_ne _ _ _ (by omega)]
  · show s.cur ++ [_] = _
    rw [hl.cur, ← openRecord_toGrec, List.map_append, List.map_append, List.map_append,
      List.map_singleton, List.map_singleton]
  · have hone : ∀ g, s.grec = some g → 56 ≤ g := fun g hg => by
      obtain rfl := Option.some.inj (hl.pointer.symm.trans hg)
      omega
    rw [reportNewGrec_ngrec hone, hl.ngrec, List.length_append, List.length_singleton]
    omega
  · rw [hpacket]
    refine hhead.congr fun k hk => ?_
    rw [writeOpen_apply mca (by omega), swapped_apply (by omega) (by omega) (by omega) (by omega)]

/-! ## 5. Steps that keep the layout -/

/-- What is written for a subscription behind the open record at `grec` comes to stand where it
belongs. -/
structure FitsBehind (e : Endian) (s : ReportLoop) (grec : Nat) (ipv6 : In6Addr) : Prop where
  swap : s.src = none → e.htons (s.nsrcs e grec) = s.nsrcs e grec
  auxwords : s.src = none → s.packet (s.slot e grec + 1) = 0
  length : s.slot e grec + (if s.src.isSome then 0 else 20) + (if ipv6 = In6Addr.any then 0 else 16)
    ≤ 65535

/-- The condition under which a step keeps the packets well-formed.  It only asks something of the
steps that write behind an open record. -/
def StepLaysOut (h : Host) (i : Nat) (s : ReportLoop) : ReportStep → Prop
  | .group => True
  | .subscr _ ipv6 => s.returned = false → goesOn h.endian s ipv6 →
      reportFull h.endian i s ipv6 = false →
      ∀ grec, s.grec = some grec → FitsBehind h.endian s grec ipv6

instance (e : Endian) (s : ReportLoop) (grec : Nat) (ipv6 : In6Addr) :
    Decidable (FitsBehind e s grec ipv6) :=
  decidable_of_iff ((s.src = none → e.htons (s.nsrcs e grec) = s.nsrcs e grec) ∧
      (s.src = none → s.packet (s.slot e grec + 1) = 0) ∧
      s.slot e grec + (if s.src.isSome then 0 else 20) + (if ipv6 = In6Addr.any then 0 else 16)
        ≤ 65535)
    ⟨fun h => ⟨h.1, h.2.1, h.2.2⟩, fun h => ⟨h.swap, h.auxwords, h.length⟩⟩

instance (h : Host) (i : Nat) (s : ReportLoop) : (x : ReportStep) → Decidable (StepLaysOut h i s x)
  | .group => .isTrue trivial
  | .subscr _ ipv6 => inferInstanceAs (Decidable (s.returned = false → goesOn h.endian s ipv6 →
      reportFull h.endian i s ipv6 = false →
      ∀ grec, s.grec = some grec → FitsBehind h.endian s grec ipv6))

theorem SentOk.congr {st : Conf} {s s' : ReportLoop} (hs : SentOk st s) (hst : s'.st = s.st)
    (hout : s'.out = s.out) : SentOk st s' := by
  rw [SentOk, hst, hout]
  exact hs

/-- After a well-formed packet the loop is where it began. -/
theorem Laid.sent {h : Host} {i : Nat} {s : ReportLoop} {ws : List WireGrec} {w : WireGrec}
    {grec : Nat} (hl : Laid h.endian s ws w grec) (hhead : HeadOk s.packet) {st : Conf}
    (hsent : SentOk st s) : SentOk st (reportSend h i s grec) ∧
      LoopOk h.endian (reportReset h.endian (reportSend h i s grec)) := by
  obtain ⟨hclosed, hlength⟩ := hl.send (i := i) hhead
  have hfits := hl.fits
  have hplace := hl.place
  have hlen := hl.length_encode
  constructor
  · obtain ⟨new, hnew, hall⟩ := hsent
    obtain ⟨x, hx, hxs⟩ := reportSend_sent h i s grec
    refine ⟨new ++ [x], by rw [hxs, hnew, List.append_assoc], ?_⟩
    rw [List.map_append, List.map_singleton]
    refine List.rel_append hall (List.Forall₂.cons ?_ List.Forall₂.nil)
    rw [hx, Nat.mod_eq_of_lt (by omega), hlength]
    exact ⟨_, hclosed.decode (by omega), hl.cur.symm, hl.map_toGrec_aux⟩
  · refine ⟨hclosed.head.congr fun k hk => ?_, fun _ => ⟨rfl, ?_⟩, fun g hg => by cases hg⟩
    · exact Endian.store16_apply_ne _ _ _ (by simp only [reportNgrec]; omega)
    · exact Endian.load16_store16 _ _ _ _

/-- A new record in an empty packet, and its first source. -/
theorem LoopOk.opens_first {e : Endian} {s : ReportLoop} (hs : LoopOk e s) (hgrec : s.grec = none)
    (mca ipv6 : In6Addr) : LoopOk e (reportAppend e (reportNewGrec e s mca) ipv6) := by
  obtain ⟨hl, hhead⟩ := hs.newGrec hgrec mca
  refine hl.append hhead ipv6 ?_
  rw [hl.slot_eq]
  simp only [openRecord, sizeofReport]
  split <;> decide

/-- **A step that meets the condition keeps the layout**, one case for each thing that the body can
do. -/
theorem step_laysOut {h : Host} {i : Nat} {st : Conf} {s : ReportLoop}
    (hs : LoopOk h.endian s ∧ SentOk st s) {x : ReportStep} (hx : StepLaysOut h i s x) :
    LoopOk h.endian (reportStep h i s x) ∧ SentOk st (reportStep h i s x) := by
  obtain ⟨hok, hsent⟩ := hs
  cases x with
  | group => exact ⟨hok.congr rfl rfl rfl, hsent.congr rfl rfl⟩
  | subscr mca ipv6 =>
    have hcases := reportSubscr_step h i mca s ipv6
    simp only [StepLaysOut] at hx
    simp only [reportStep]
    generalize reportSubscr h i mca s ipv6 = s'' at hcases
    cases hcases with
    | returned _ => exact ⟨hok, hsent⟩
    | known _ _ hk =>
      generalize hb : false = b at hk
      cases hk with
      | noSource _ => cases hb
      | fresh _ _ _ _ _ _ => cases hb
      | noGrec _ _ => exact ⟨hok, hsent⟩
      | collapse grec _ hgrec _ =>
        obtain ⟨ws, w, hl⟩ := hok.laid grec hgrec
        exact ⟨hl.collapse hok.head, hsent.congr rfl rfl⟩
      | dropped touched _ => exact ⟨hok.congr rfl rfl rfl, hsent.congr rfl rfl⟩
    | tooSmall _ _ _ => exact ⟨hok.congr rfl rfl rfl, hsent.congr rfl rfl⟩
    | split src touched grec _ _ hgrec _ =>
      obtain ⟨ws, w, hl⟩ := hok.laid grec hgrec
      obtain ⟨hsent', hok'⟩ := (hl.congr rfl rfl rfl : Laid h.endian { s with
        src := src, touched := touched } ws w grec).sent (i := i) hok.head hsent
      exact ⟨hok'.opens_first rfl mca ipv6,
        hsent'.congr (reportAppend_st _ _ _) (reportAppend_out _ _ _)⟩
    | opens hret hsrc hfull =>
      refine ⟨?_, hsent.congr (reportAppend_st _ _ _) (reportAppend_out _ _ _)⟩
      rcases Option.eq_none_or_eq_some s.grec with hgrec | ⟨grec, hgrec⟩
      · exact hok.opens_first hgrec mca ipv6
      · obtain ⟨ws, w, hl⟩ := hok.laid grec hgrec
        have hfit := hx hret (Or.inl hsrc) hfull grec hgrec
        have hlength := hfit.length
        rw [hsrc] at hlength
        simp only [Option.isSome_none, Bool.false_eq_true, if_false] at hlength
        obtain ⟨hl', hhead'⟩ := hl.newGrec hok.head mca (hfit.swap hsrc) (hfit.auxwords hsrc)
          (by omega)
        refine hl'.append hhead' ipv6 ?_
        rw [hl'.slot_eq]
        exact hlength
    | adds src touched grec hret hgo hsrc hgrec _ hfull =>
      obtain ⟨ws, w, hl⟩ := hok.laid grec hgrec
      have hlength := (hx hret hgo hfull grec hgrec).length
      rw [if_pos hsrc] at hlength
      refine ⟨?_, hsent.congr (reportAppend_st _ _ _) (reportAppend_out _ _ _)⟩
      exact (hl.congr rfl rfl rfl : Laid h.endian { s with
        src := some src, touched := touched } ws w grec).append hok.head ipv6 hlength

end Ecmh
