/-
# What the loops of `mld2_send_report` write

The changes of the loop state that write to the packet, each as one equation, and the bytes that
they leave alone: a record is started (`reportNewGrec_next`, `reportNewGrec_first`), gets a source
(`reportAppend_source`), or loses its sources (`reportCollapse_packet`).  All three write the type
and the count of a record, never the byte between them.
-/
import Ecmh.ReportSteps

namespace Ecmh

open ByteMem

/-! ## 1. The header of a record -/

/-- The type and the count of the record at `grec` are written. -/
def writeHead (e : Endian) (m : Mem) (grec nsrcs grecType : Nat) : Mem :=
  (e.store16 m (grec + 2) nsrcs).write grec [UInt8.ofNat grecType]

section writeHead

variable {e : Endian} {m : Mem} {grec nsrcs grecType : Nat}

theorem writeHead_apply {k : Nat} (h : k < grec ∨ k = grec + 1 ∨ grec + 4 ≤ k) :
    writeHead e m grec nsrcs grecType k = m k := by
  rw [writeHead]
  rcases (by omega : k < grec ∨ grec + 1 ≤ k) with hb | hb
  · rw [Mem.write_apply_of_lt _ _ hb, Endian.store16_apply_ne _ _ _ (by omega)]
  · rw [Mem.write_apply_of_ge _ _ (by simpa using hb), Endian.store16_apply_ne _ _ _ (by omega)]

theorem writeHead_grecType : writeHead e m grec nsrcs grecType grec = UInt8.ofNat grecType :=
  Mem.write_apply_at _ grec (i := 0) _ (by simp)

theorem writeHead_nsrcs : e.load16 (writeHead e m grec nsrcs grecType) (grec + 2) = nsrcs % 65536 :=
  (Endian.load16_eq_of_read (Mem.read_write_disjoint _ _ (by simp))).trans
    (Endian.load16_store16 e m (grec + 2) nsrcs)

end writeHead

/-- A 16-bit variable does not see what happens elsewhere. -/
theorem load16_congr {e : Endian} {m m' : Mem} {off : Nat} (h0 : m' off = m off)
    (h1 : m' (off + 1) = m (off + 1)) : e.load16 m' off = e.load16 m off :=
  Endian.load16_eq_of_read (by simp [Mem.read_succ, h0, h1])

/-! ## 2. The sources are removed, or one is added -/

theorem setLast_concat (f : Grec → Grec) (l : List Grec) (x : Grec) :
    ReportLoop.setLast f (l ++ [x]) = l ++ [f x] := by
  simp [ReportLoop.setLast]

theorem length_setLast (f : Grec → Grec) (cur : List Grec) :
    (ReportLoop.setLast f cur).length = cur.length := by
  rcases List.eq_nil_or_concat cur with rfl | ⟨l, x, rfl⟩
  · rfl
  · rw [List.concat_eq_append, setLast_concat, List.length_append, List.length_append]
    rfl

theorem reportCollapse_packet (e : Endian) (s : ReportLoop) (grec : Nat) :
    (reportCollapse e s grec).packet = writeHead e s.packet grec 0 mld2ModeIsExclude := rfl

theorem reportCollapse_nsrcs (e : Endian) (s : ReportLoop) (grec : Nat) :
    (reportCollapse e s grec).nsrcs e grec = 0 := by
  rw [ReportLoop.nsrcs, reportCollapse_packet, writeHead_nsrcs]

section reportAppend

variable {e : Endian} {s : ReportLoop} {grec : Nat} {ipv6 : In6Addr}

/-- For `::` nothing is written. -/
theorem reportAppend_any (hgrec : s.grec = some grec) (hany : ipv6 = In6Addr.any) :
    reportAppend e s ipv6 = { s with any := true } := by
  have huns := in6IsAddrUnspecified_iff.mpr hany
  unfold reportAppend
  split
  · rename_i hnone
    rw [hgrec] at hnone
    cases hnone
  · rw [if_pos huns]

theorem reportAppend_source (hgrec : s.grec = some grec) (hany : ipv6 ≠ In6Addr.any) :
    reportAppend e s ipv6 = { s with
      packet := (writeHead e s.packet grec (s.nsrcs e grec + 1) mld2ModeIsInclude).write
        (s.slot e grec) ipv6.s6Addr
      src := some (s.slot e grec)
      cur := ReportLoop.setLast
        (fun r => { r with grecType := mld2ModeIsInclude, srcs := r.srcs ++ [ipv6] }) s.cur
      touched := s.touched ++ [(s.slot e grec, 16)] } := by
  unfold reportAppend
  split
  · rename_i hnone
    rw [hgrec] at hnone
    cases hnone
  · rename_i g hg
    obtain rfl := Option.some.inj (hg.symm.trans hgrec)
    rw [if_neg (by simpa using hany)]
    rfl

theorem reportAppend_grec (hgrec : s.grec = some grec) :
    (reportAppend e s ipv6).grec = some grec := by
  by_cases hany : ipv6 = In6Addr.any
  · rw [reportAppend_any hgrec hany, hgrec]
  · rw [reportAppend_source hgrec hany, hgrec]

theorem reportAppend_apply (hgrec : s.grec = some grec) {k : Nat}
    (hk : k < grec ∨ k = grec + 1 ∨ grec + 4 ≤ k ∧ k < s.slot e grec) :
    (reportAppend e s ipv6).packet k = s.packet k := by
  have hslot : grec + 20 ≤ s.slot e grec := by
    rw [ReportLoop.slot]
    omega
  by_cases hany : ipv6 = In6Addr.any
  · rw [reportAppend_any hgrec hany]
  · rw [reportAppend_source hgrec hany]
    dsimp only
    rw [Mem.write_apply_of_lt _ _ (by omega), writeHead_apply (by omega)]

theorem reportAppend_nsrcs (hgrec : s.grec = some grec) : (reportAppend e s ipv6).nsrcs e grec
    = if ipv6 = In6Addr.any then s.nsrcs e grec else (s.nsrcs e grec + 1) % 65536 := by
  split
  · rename_i hany
    rw [reportAppend_any hgrec hany]
    rfl
  · rename_i hany
    rw [reportAppend_source hgrec hany]
    have hslot : grec + 20 ≤ s.slot e grec := by
      rw [ReportLoop.slot]
      omega
    exact (load16_congr (Mem.write_apply_of_lt _ _ (by omega))
      (Mem.write_apply_of_lt _ _ (by omega))).trans writeHead_nsrcs

end reportAppend

/-! ## 3. A record is started -/

/-- The buffer with a record without sources at `grec`. -/
def writeOpen (e : Endian) (m : Mem) (grec : Nat) (mca : In6Addr) : Mem :=
  writeHead e (m.write (grec + 4) mca.s6Addr) grec 0 mld2ModeIsExclude

theorem writeOpen_apply {e : Endian} {m : Mem} {grec k : Nat} (mca : In6Addr)
    (h : k < grec ∨ k = grec + 1) : writeOpen e m grec mca k = m k := by
  rw [writeOpen, writeHead_apply (by omega), Mem.write_apply_of_lt _ _ (by omega)]

/-- The first record of a packet. -/
theorem reportNewGrec_first {e : Endian} {s : ReportLoop} (hgrec : s.grec = none) (mca : In6Addr) :
    (reportNewGrec e s mca).grec = some sizeofReport ∧
    (reportNewGrec e s mca).packet = writeOpen e
      (e.store16 s.packet reportNgrec (e.load16 s.packet reportNgrec + 1)) sizeofReport mca := by
  simp only [reportNewGrec, hgrec]
  exact ⟨trivial, rfl⟩

/-- The buffer in which the next record is started: the open one is closed. -/
def swapped (e : Endian) (s : ReportLoop) (grec : Nat) : Mem :=
  e.store16 (e.store16 s.packet reportNgrec (e.load16 s.packet reportNgrec + 1)) (grec + 2)
    (e.htons (s.nsrcs e grec))

theorem swapped_apply {e : Endian} {s : ReportLoop} {grec k : Nat} (h54 : k ≠ 54) (h55 : k ≠ 55)
    (h2 : k ≠ grec + 2) (h3 : k ≠ grec + 3) : swapped e s grec k = s.packet k := by
  rw [swapped, Endian.store16_apply_ne _ _ _ (by omega),
    Endian.store16_apply_ne _ _ _ (by simp only [reportNgrec]; omega)]

/-- **The next record**: its place is computed with the swapped count. -/
theorem reportNewGrec_next {e : Endian} {s : ReportLoop} {grec : Nat} (hgrec : s.grec = some grec)
    (h56 : 56 ≤ grec) (mca : In6Addr) :
    (reportNewGrec e s mca).grec = some (grec + 20 + 16 * e.htons (s.nsrcs e grec)) ∧
    (reportNewGrec e s mca).packet = writeOpen e (swapped e s grec)
      (grec + 20 + 16 * e.htons (s.nsrcs e grec)) mca := by
  have hcount : e.load16 (e.store16 s.packet reportNgrec (e.load16 s.packet reportNgrec + 1))
      (grec + 2) = s.nsrcs e grec :=
    load16_congr (Endian.store16_apply_ne _ _ _ (by simp only [reportNgrec]; omega))
      (Endian.store16_apply_ne _ _ _ (by simp only [reportNgrec]; omega))
  have hnext : e.load16 (swapped e s grec) (grec + 2) = e.htons (s.nsrcs e grec) := by
    rw [swapped, Endian.load16_store16, Nat.mod_eq_of_lt (e.htons_lt _)]
  rw [swapped] at hnext
  simp only [reportNewGrec, hgrec, hcount, hnext]
  exact ⟨trivial, rfl⟩

/-- The number of records goes up by one. -/
theorem reportNewGrec_ngrec {e : Endian} {s : ReportLoop}
    (h56 : ∀ grec, s.grec = some grec → 56 ≤ grec) (mca : In6Addr) :
    e.load16 (reportNewGrec e s mca).packet reportNgrec
      = (e.load16 s.packet reportNgrec + 1) % 65536 := by
  have hopen : ∀ {m : Mem} {grec : Nat}, 56 ≤ grec →
      e.load16 (writeOpen e m grec mca) reportNgrec = e.load16 m reportNgrec := fun hge =>
    load16_congr (writeOpen_apply mca (Or.inl (by simp only [reportNgrec]; omega)))
      (writeOpen_apply mca (Or.inl (by simp only [reportNgrec]; omega)))
  rcases Option.eq_none_or_eq_some s.grec with hgrec | ⟨grec, hgrec⟩
  · rw [(reportNewGrec_first hgrec mca).2, hopen (by decide), Endian.load16_store16]
  · have hge := h56 grec hgrec
    rw [(reportNewGrec_next hgrec hge mca).2, hopen (by omega), swapped,
      load16_congr (Endian.store16_apply_ne _ _ _ (by simp only [reportNgrec]; omega))
        (Endian.store16_apply_ne _ _ _ (by simp only [reportNgrec]; omega)),
      Endian.load16_store16]

theorem reportNewGrec_nsrcs {e : Endian} {s : ReportLoop} {mca : In6Addr} {grec : Nat} {m : Mem}
    (hpacket : (reportNewGrec e s mca).packet = writeOpen e m grec mca) :
    (reportNewGrec e s mca).nsrcs e grec = 0 := by
  rw [ReportLoop.nsrcs, hpacket, writeOpen, writeHead_nsrcs]

/-! ## 4. The packet is sent -/

/-- The buffer after a packet was sent: the counts, the length and the checksum are filled in. -/
theorem reportSend_packet (h : Host) (i : Nat) (s : ReportLoop) (grec : Nat) : ∃ csum,
    (reportSend h i s grec).packet = h.endian.store16 (h.endian.store16 (h.endian.store16
      (h.endian.store16 (h.endian.store16 s.packet reportNgrec
        (h.endian.htons (h.endian.load16 s.packet reportNgrec)))
        (grec + 2) (h.endian.htons (h.endian.load16 (h.endian.store16 s.packet reportNgrec
          (h.endian.htons (h.endian.load16 s.packet reportNgrec))) (grec + 2))))
        ip6Plen (h.endian.htons (s.length h.endian % 65536))) 50 (h.endian.htons 0)) 50 csum :=
  ⟨_, rfl⟩

theorem reportSend_apply (h : Host) (i : Nat) (s : ReportLoop) {grec k : Nat} (h54 : k ≠ 54)
    (h55 : k ≠ 55) (h2 : k ≠ grec + 2) (h3 : k ≠ grec + 3) (h4 : k ≠ 4) (h5 : k ≠ 5) (h50 : k ≠ 50)
    (h51 : k ≠ 51) : (reportSend h i s grec).packet k = s.packet k := by
  obtain ⟨csum, hm⟩ := reportSend_packet h i s grec
  rw [hm, Endian.store16_apply_ne _ _ _ (by omega), Endian.store16_apply_ne _ _ _ (by omega),
    Endian.store16_apply_ne _ _ _ (by simp only [ip6Plen]; omega),
    Endian.store16_apply_ne _ _ _ (by omega),
    Endian.store16_apply_ne _ _ _ (by simp only [reportNgrec]; omega)]

theorem reportSend_sent (h : Host) (i : Nat) (s : ReportLoop) (grec : Nat) : ∃ x : Sent,
    x.packet = (reportSend h i s grec).packet.read 0 ((s.length h.endian + 40) % 65536) ∧
    (reportSend h i s grec).st.sent = s.st.sent ++ [x] :=
  ⟨_, rfl, sendpacket6_sent h (.mld2SendReport s.cur) s.st i _ _⟩

end Ecmh
