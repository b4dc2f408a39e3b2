/-
# Which MLDv2 reports are well-formed encodings

`report_encoded` follows the layout along the three loops of `mld2_send_report`: if all steps
write where they should (`StepLaysOut`), every packet decodes to the records that were appended to
it.  A step that does not spoils the packet it works on.  Behind a count that the swap changes the
packet is longer than its records (`Overlong`), and a byte that is left over where `auxwords` of a
record should be zero stays there (`Stained`); both last until the packet is sent.
`report_encoded_iff` is the exact account for the MTUs with which no record has more than 255
sources.
-/
import Ecmh.ReportSpoiled

namespace Ecmh

open ByteMem

/-! ## 1. The beginning and the end of the call -/

/-- The bytes in front of the records, as the buffer is set up. -/
theorem reportInit_headOk (h : Host) (st : Conf) (i : Nat) (hmtu : 58 ≤ (st.intn i).mtu) :
    HeadOk (reportInit h st i).packet := by
  generalize hb : mldHeader h.endian 16 (st.intn i).linklocal (linkScope 0x16)
    ++ [icmp6V2MembershipReport] = bytes
  have hsplit : bytes = ([0x60, 0, 0, 0] ++ h.endian.bytes16 (h.endian.htons 16) ++
      [ipprotoHopopts, 1]) ++ ((st.intn i).linklocal.s6Addr ++ ((linkScope 0x16).s6Addr ++
      [ipprotoIcmpv6, 0, 5, 2, 0, 0, 1, 0, icmp6V2MembershipReport])) := by
    rw [← hb]
    simp [mldHeader]
  have hlen : bytes.length = 49 := by simp [hsplit]
  have hbytes := Mem.read_write_same (h.calloc (st.intn i).mtu) 0 bytes
  -- the store to `ngrec` lies behind these bytes
  have hm : ∀ k, k < 54 ∨ 56 ≤ k → (reportInit h st i).packet k
      = ((h.calloc (st.intn i).mtu).write 0 bytes) k := by
    intro k hk
    rw [← hb]
    exact Endian.store16_apply_ne _ _ _ (by simp only [reportNgrec]; omega)
  have haux : ((h.calloc (st.intn i).mtu).write 0 bytes) 57 = 0 := by
    rw [Mem.write_apply_of_ge _ _ (by omega), Host.calloc, if_pos (by omega)]
  generalize (h.calloc (st.intn i).mtu).write 0 bytes = m at hbytes hm haux
  rw [hsplit] at hbytes
  obtain ⟨h1, hbytes⟩ := Mem.read_eq_append hbytes
  obtain ⟨-, hbytes⟩ := Mem.read_eq_append hbytes
  obtain ⟨-, h2⟩ := Mem.read_eq_append hbytes
  have hlen1 : ([0x60, 0, 0, 0] ++ h.endian.bytes16 (h.endian.htons 16) ++
      [ipprotoHopopts, 1]).length = 8 := by simp
  rw [hlen1, length_s6Addr, length_s6Addr] at h2
  refine ⟨?_, ?_, ?_, ?_, (hm 57 (by omega)).trans haux⟩
  · rw [hm 6 (by omega)]
    refine (Mem.apply_of_read h1 (k := 6) (by omega)).trans ?_
    cases h.endian <;> rfl
  · rw [hm 40 (by omega)]
    exact Mem.apply_of_read h2 (k := 0) (by simp)
  · rw [hm 41 (by omega)]
    exact Mem.apply_of_read h2 (k := 1) (by simp)
  · rw [hm 48 (by omega)]
    exact Mem.apply_of_read h2 (k := 8) (by simp)

theorem reportInit_loopOk (h : Host) (st : Conf) (i : Nat) (hmtu : 58 ≤ (st.intn i).mtu) :
    LoopOk h.endian (reportInit h st i) ∧ SentOk st (reportInit h st i) := by
  refine ⟨⟨reportInit_headOk h st i hmtu, fun _ => ⟨rfl, ?_⟩, fun grec hg => by cases hg⟩, [], ?_⟩
  · exact Endian.load16_store16 _ _ _ _
  · exact ⟨by rw [List.append_nil]; rfl, List.Forall₂.nil⟩

theorem reportFinish_sentOk {h : Host} {i : Nat} {st : Conf} {s : ReportLoop}
    (hok : LoopOk h.endian s) (hsent : SentOk st s) : SentOk st (reportFinish h i s) := by
  unfold reportFinish
  split
  · exact hsent
  · split
    · exact hsent
    · rename_i grec hgrec
      obtain ⟨ws, w, hl⟩ := hok.laid grec hgrec
      exact (hl.sent (i := i) hok.head hsent).1

/-! ## 2. Steps that lay out the records give well-formed packets -/

/-- The steps of a call. -/
def callSteps (st : Conf) (i : Nat) (mca : Option In6Addr) : List ReportStep :=
  reportSteps st.groups (st.intn i).ifindex mca

/-- All steps of a call write where they should. -/
def CallLaysOut (h : Host) (st : Conf) (i : Nat) (mca : Option In6Addr) : Prop :=
  Runs.StepsMeet (reportStep h i) (StepLaysOut h i) (reportInit h st i) (callSteps st i mca)

instance (h : Host) (st : Conf) (i : Nat) (mca : Option In6Addr) :
    Decidable (CallLaysOut h st i mca) := inferInstanceAs (Decidable (Runs.StepsMeet _ _ _ _))

/-- The packets of a call, and the records that the loops appended to each of them. -/
def callPackets (h : Host) (st : Conf) (i : Nat) (mca : Option In6Addr) : List (List UInt8) :=
  ((mld2SendReport h st i mca).sent.drop st.sent.length).map Sent.packet

def callRecords (h : Host) (st : Conf) (i : Nat) (mca : Option In6Addr) : List (List Grec) :=
  (reportFinish h i (reportLoops h st i mca)).out

/-- Every packet of the call is a well-formed encoding of its records. -/
def ReportEncoded (h : Host) (st : Conf) (i : Nat) (mca : Option In6Addr) : Prop :=
  List.Forall₂ Encodes (callRecords h st i mca) (callPackets h st i mca)

theorem SentOk.packets {h : Host} {st : Conf} {i : Nat} {mca : Option In6Addr}
    (hmtu : sizeofReport ≤ (st.intn i).mtu)
    (hs : SentOk st (reportFinish h i (reportLoops h st i mca))) : ReportEncoded h st i mca := by
  obtain ⟨new, hnew, hall⟩ := hs
  rw [ReportEncoded, callRecords, callPackets, mld2SendReport, if_neg (by omega), hnew,
    List.drop_left]
  exact hall

theorem CallLaysOut.loopOk {h : Host} {st : Conf} {i : Nat} {mca : Option In6Addr}
    (hsteps : CallLaysOut h st i mca) (hmtu : 58 ≤ (st.intn i).mtu) :
    LoopOk h.endian (reportLoops h st i mca) ∧ SentOk st (reportLoops h st i mca) := by
  rw [reportLoops_eq_run]
  exact (Runs.always_of_stepsMeet
    (P := fun s => LoopOk h.endian s ∧ SentOk st s) (fun s x hs hx => step_laysOut hs hx) _ _
    (reportInit_loopOk h st i hmtu) hsteps).last

/-- **Steps that write where they should give well-formed packets.** -/
theorem report_encoded {h : Host} {st : Conf} {i : Nat} {mca : Option In6Addr}
    (hmtu : 58 ≤ (st.intn i).mtu) (hsteps : CallLaysOut h st i mca) : ReportEncoded h st i mca := by
  obtain ⟨hok, hsent⟩ := hsteps.loopOk hmtu
  exact SentOk.packets (by simp only [sizeofReport]; omega) (reportFinish_sentOk hok hsent)

/-! ## 3. How long a packet can get -/

/-- What bounds the packet under construction while all steps write where they should: a record
with more than one source was appended to only while the packet was short enough. -/
structure Bounded (e : Endian) (i mtu : Nat) (s : ReportLoop) : Prop where
  mtu_le : (s.st.intn i).mtu ≤ mtu
  any : s.src.isSome → s.any = false
  place : ∀ grec, s.grec = some grec → 56 ≤ grec
  slot : ∀ grec, s.grec = some grec → s.slot e grec ≤ mtu + 36
  few : ∀ grec, s.grec = some grec → s.nsrcs e grec ≤ 1 ∨ s.slot e grec ≤ mtu

section Bounded

variable {e : Endian} {i mtu : Nat} {s : ReportLoop}

/-- A packet with a record that was just opened. -/
theorem bounded_opened {place : Nat} {ipv6 : In6Addr} (hmtu : (s.st.intn i).mtu ≤ mtu)
    (hgrec : s.grec = some place) (hn : s.nsrcs e place = 0) (hsrc : s.src = none)
    (hany : s.any = false) (h56 : 56 ≤ place) (hplace : place ≤ mtu) :
    Bounded e i mtu (reportAppend e s ipv6) := by
  have hgrec' : (reportAppend e s ipv6).grec = some place := reportAppend_grec hgrec
  have hn' : (reportAppend e s ipv6).nsrcs e place = _ := reportAppend_nsrcs hgrec
  have hone : (reportAppend e s ipv6).nsrcs e place ≤ 1 := by
    rw [hn', hn]
    split <;> omega
  have hat : ∀ g, (reportAppend e s ipv6).grec = some g → g = place := fun g hg =>
    Option.some.inj (hg.symm.trans hgrec')
  refine ⟨by rw [reportAppend_st]; exact hmtu, fun hsome => ?_, fun g hg => ?_, fun g hg => ?_,
    fun g hg => ?_⟩
  · by_cases ha : ipv6 = In6Addr.any
    · rw [reportAppend_any hgrec ha] at hsome
      rw [show s.src = none from hsrc] at hsome
      cases hsome
    · rw [reportAppend_source hgrec ha]
      exact hany
  · rw [hat g hg]
    exact h56
  · rw [hat g hg, ReportLoop.slot]
    omega
  · rw [hat g hg]
    exact Or.inl hone

/-- The length of a packet to which something was added. -/
theorem slot_of_not_full {ipv6 : In6Addr} (hfull : reportFull e i s ipv6 = false) {grec : Nat}
    (hgrec : s.grec = some grec) (h56 : 56 ≤ grec) :
    s.slot e grec + (if s.any = true ∨ ipv6 = In6Addr.any then 0 else 16) ≤ (s.st.intn i).mtu := by
  rw [reportFull, decide_eq_false_iff_not, ReportLoop.length, hgrec] at hfull
  dsimp only at hfull
  have hslot : 40 ≤ s.slot e grec := by
    rw [ReportLoop.slot]
    omega
  simp only [Option.isSome_some, if_true, Bool.or_eq_true, in6IsAddrUnspecified_iff] at hfull
  omega

theorem Bounded.passed (hs : Bounded e i mtu s) {src : Option Nat}
    (hsrc : src.isSome → s.src.isSome) (touched : List (Nat × Nat)) :
    Bounded e i mtu { s with src := src, touched := touched } :=
  ⟨hs.mtu_le, fun hsome => hs.any (hsrc hsome), hs.place, hs.slot, hs.few⟩

theorem Bounded.collapse (hs : Bounded e i mtu s) {grec : Nat} (hgrec : s.grec = some grec) :
    Bounded e i mtu (reportCollapse e s grec) := by
  have hn := reportCollapse_nsrcs e s grec
  have hat : ∀ g, (reportCollapse e s grec).grec = some g → g = grec := fun g hg =>
    Option.some.inj (hg.symm.trans hgrec)
  refine ⟨hs.mtu_le, fun hc => ?_, hs.place, fun g hg => ?_, fun g hg => ?_⟩
  · cases hc
  · have hold := hs.slot grec hgrec
    rw [hat g hg, ReportLoop.slot, hn]
    rw [ReportLoop.slot] at hold
    omega
  · rw [hat g hg, hn]
    exact Or.inl (Nat.zero_le 1)

theorem Bounded.opens (hs : Bounded e i mtu s) (hmtu : 1280 ≤ mtu) {ipv6 : In6Addr}
    (hfull : reportFull e i s ipv6 = false) (hsrc : s.src = none)
    (hswap : ∀ grec, s.grec = some grec → e.htons (s.nsrcs e grec) = s.nsrcs e grec)
    (mca : In6Addr) : Bounded e i mtu (reportAppend e (reportNewGrec e s mca) ipv6) := by
  rcases Option.eq_none_or_eq_some s.grec with hgrec | ⟨grec, hgrec⟩
  · obtain ⟨hnew, hpacket⟩ := reportNewGrec_first (e := e) hgrec mca
    exact bounded_opened hs.mtu_le hnew (reportNewGrec_nsrcs hpacket) hsrc rfl (by decide)
      (by simp only [sizeofReport]; omega)
  · have h56 := hs.place grec hgrec
    have hroom := slot_of_not_full hfull hgrec h56
    have hle := hs.mtu_le
    obtain ⟨hnew, hpacket⟩ := reportNewGrec_next (e := e) hgrec h56 mca
    rw [ReportLoop.slot] at hroom
    refine bounded_opened hle hnew (reportNewGrec_nsrcs hpacket) hsrc rfl (by omega) ?_
    rw [hswap grec hgrec]
    omega

theorem Bounded.adds (hs : Bounded e i mtu s) {ipv6 : In6Addr}
    (hfull : reportFull e i s ipv6 = false) (hsrc : s.src.isSome) (hany : ipv6 ≠ In6Addr.any)
    {grec : Nat} (hgrec : s.grec = some grec) : Bounded e i mtu (reportAppend e s ipv6) := by
  have h56 := hs.place grec hgrec
  have hroom := slot_of_not_full hfull hgrec h56
  have hle := hs.mtu_le
  have hn' : (reportAppend e s ipv6).nsrcs e grec = _ := reportAppend_nsrcs hgrec
  rw [if_neg hany] at hn'
  rw [if_neg (by simp [hs.any hsrc, hany]), ReportLoop.slot] at hroom
  have hat : ∀ g, (reportAppend e s ipv6).grec = some g → g = grec := fun g hg =>
    Option.some.inj (hg.symm.trans (reportAppend_grec hgrec))
  have hslot : (reportAppend e s ipv6).slot e grec ≤ mtu := by
    rw [ReportLoop.slot, hn']
    omega
  refine ⟨by rw [reportAppend_st]; exact hle, fun _ => ?_, fun g hg => ?_, fun g hg => ?_,
    fun g hg => ?_⟩
  · rw [reportAppend_source hgrec hany]
    exact hs.any hsrc
  · rw [hat g hg]
    exact h56
  · rw [hat g hg]
    omega
  · rw [hat g hg]
    exact Or.inr hslot

end Bounded

theorem step_bounded {h : Host} {i mtu : Nat} (hmtu : 1280 ≤ mtu) {s : ReportLoop}
    (hs : Bounded h.endian i mtu s) {x : ReportStep} (hx : StepLaysOut h i s x) :
    Bounded h.endian i mtu (reportStep h i s x) := by
  cases x with
  | group => exact hs.passed (by simp) s.touched
  | subscr mca ipv6 =>
    have hcases := reportSubscr_step h i mca s ipv6
    simp only [StepLaysOut] at hx
    simp only [reportStep]
    generalize reportSubscr h i mca s ipv6 = s'' at hcases
    cases hcases with
    | returned _ => exact hs
    | known _ _ hk =>
      generalize hb : false = b at hk
      cases hk with
      | noSource _ => cases hb
      | fresh _ _ _ _ _ _ => cases hb
      | noGrec _ _ => exact hs
      | collapse grec _ hgrec _ => exact hs.collapse hgrec
      | dropped touched _ => exact hs.passed (by simp) touched
    | tooSmall _ _ _ => exact ⟨hs.mtu_le, hs.any, hs.place, hs.slot, hs.few⟩
    | split src touched grec _ _ _ _ =>
      -- the new packet has one record
      have hsend := (reportSend_sendsOnly h i { s with src := src, touched := touched } grec).intn i
      obtain ⟨hnew, hpacket⟩ := reportNewGrec_first (e := h.endian) (s := reportReset h.endian
        (reportSend h i { s with src := src, touched := touched } grec)) rfl mca
      refine bounded_opened ?_ hnew (reportNewGrec_nsrcs hpacket) rfl rfl (by decide)
        (by simp only [sizeofReport]; omega)
      rcases hsend.1 with hle | hle
      · exact Nat.le_trans (Nat.le_of_eq hle) hs.mtu_le
      · exact Nat.le_trans (Nat.le_of_eq hle) (Nat.zero_le _)
    | opens hret hsrc hfull =>
      exact hs.opens hmtu hfull hsrc
        (fun grec hgrec => (hx hret (Or.inl hsrc) hfull grec hgrec).swap hsrc) mca
    | adds src touched grec _ _ hsrc hgrec hany hfull =>
      exact (hs.passed (fun _ => hsrc) touched).adds hfull rfl hany hgrec

/-! ## 4. The first step that writes elsewhere -/

section FirstBad

variable {e : Endian} {i mtu : Nat} {s : ReportLoop} {ws : List WireGrec} {w : WireGrec}
  {grec : Nat}

theorem Laid.weight_cur (hl : Laid e s ws w grec) : s.slot e grec = 56 + weight s.cur := by
  have hplace := hl.place
  have hlen := hl.length_encode
  rw [length_encodeGrecs_plain hl.map_toGrec_aux, ← hl.cur] at hlen
  rw [hl.slot_eq]
  omega

theorem Laid.pending (hl : Laid e s ws w grec) (hret : s.returned = false) (hle : grec ≤ 4200) :
    Pending e s grec := by
  have hplace := hl.place
  have hcount := length_encodeGrecs_ge ws
  have hcur : s.cur.length = ws.length + 1 := by
    rw [hl.cur, List.length_map, List.length_append, List.length_singleton]
  refine ⟨hl.pointer, hret, List.ne_nil_of_length_eq_add_one hcur, ?_, by omega, by omega⟩
  rw [hl.ngrec, hcur]

/-- The swap changes the count: the next record is started too far behind. -/
theorem Laid.overlong (hl : Laid e s ws w grec) (hp : Pending e s grec)
    (hroom : s.slot e grec ≤ mtu) (hmtu : mtu < 4172) (hfew : s.nsrcs e grec < 256)
    (hswap : e.htons (s.nsrcs e grec) ≠ s.nsrcs e grec) (mca ipv6 : In6Addr) :
    Overlong e mtu (reportAppend e (reportNewGrec e s mca) ipv6) := by
  have hweight := hl.weight_cur
  have h56 := hp.grec_ge
  rw [ReportLoop.slot] at hweight hroom
  -- only a little-endian machine swaps, and a count of one byte becomes 256 times as large
  have hlarge : e.htons (s.nsrcs e grec) = 256 * s.nsrcs e grec ∧ 0 < s.nsrcs e grec := by
    cases e with
    | big => exact absurd (Nat.mod_eq_of_lt (by omega)) hswap
    | little =>
      simp only [Endian.htons] at hswap ⊢
      omega
  have hnew := (hp.newGrec (by omega) mca).append ipv6
  have hcur : (reportNewGrec e s mca).cur = s.cur ++ [⟨mld2ModeIsExclude, mca, []⟩] := rfl
  obtain ⟨hgrec', hpacket⟩ := reportNewGrec_next (e := e) hp.pointer h56 mca
  have hn : (reportAppend e (reportNewGrec e s mca) ipv6).nsrcs e _ = _ := reportAppend_nsrcs hgrec'
  rw [reportNewGrec_nsrcs hpacket] at hn
  by_cases hany : ipv6 = In6Addr.any
  · refine ⟨_, s.cur, ⟨mld2ModeIsExclude, mca, []⟩, s.nsrcs e grec, hnew, ?_, ?_, by simp, ?_,
      hlarge.2, hfew, by omega, by omega⟩
    · rw [reportAppend_any hgrec' hany]
      exact hcur
    · rw [hn, if_pos hany]
      rfl
    · rw [hlarge.1]
      omega
  · refine ⟨_, s.cur, ⟨mld2ModeIsInclude, mca, [ipv6]⟩, s.nsrcs e grec, hnew, ?_, ?_, by simp, ?_,
      hlarge.2, hfew, by omega, by omega⟩
    · rw [reportAppend_source hgrec' hany]
      dsimp only
      rw [hcur, setLast_concat]
      rfl
    · rw [hn, if_neg hany]
      rfl
    · rw [hlarge.1]
      omega

/-- A byte that is left over becomes the `auxwords` of the next record. -/
theorem Laid.stained (hl : Laid e s ws w grec) (hp : Pending e s grec) (hle : grec ≤ 4200)
    (hswap : e.htons (s.nsrcs e grec) = s.nsrcs e grec) (haux : s.packet (s.slot e grec + 1) ≠ 0)
    (mca ipv6 : In6Addr) : Stained e (reportAppend e (reportNewGrec e s mca) ipv6) := by
  have hweight := hl.weight_cur
  have h56 := hp.grec_ge
  refine Stained.append ⟨_, s.cur, ⟨mld2ModeIsExclude, mca, []⟩, [], hp.newGrec hle mca, rfl, ?_,
    Or.inl ?_⟩ ipv6
  · have hslot : s.slot e grec = grec + 20 + 16 * s.nsrcs e grec := rfl
    rw [(reportNewGrec_next hp.pointer h56 mca).2, hswap, writeOpen_apply mca (by omega),
      swapped_apply (by omega) (by omega) (by omega) (by omega),
      show 57 + weight s.cur = s.slot e grec + 1 by omega]
    exact haux
  · rw [hswap]
    exact hweight

end FirstBad

/-- **A step that does not write where it should spoils the packet.** -/
theorem step_spoils {h : Host} {i mtu : Nat} (hmtu : mtu < 4172) {st : Conf} {s : ReportLoop}
    (hok : LoopOk h.endian s) (hsent : SentOk st s) (hb : Bounded h.endian i mtu s) {x : ReportStep}
    (hx : ¬ StepLaysOut h i s x) : Ruined h st i mtu (reportStep h i s x) := by
  cases x with
  | group => exact absurd trivial hx
  | subscr mca ipv6 =>
    simp only [StepLaysOut, not_forall] at hx
    obtain ⟨hret, hgo, hfull, grec, hgrec, hfit⟩ := hx
    obtain ⟨ws, w, hl⟩ := hok.laid grec hgrec
    have h56 := hb.place grec hgrec
    have hroom : s.slot h.endian grec ≤ mtu :=
      Nat.le_trans (Nat.le_add_right _ _)
        (Nat.le_trans (slot_of_not_full hfull hgrec h56) hb.mtu_le)
    have hslot : s.slot h.endian grec = grec + 20 + 16 * s.nsrcs h.endian grec := rfl
    have hp := hl.pending hret (by omega)
    -- with a source in the record there is nothing that could go wrong
    have hnone : s.src = none := by
      by_contra hsrc
      refine hfit ⟨fun hc => absurd hc hsrc, fun hc => absurd hc hsrc, ?_⟩
      rw [if_pos (Option.isSome_iff_ne_none.mpr hsrc)]
      split <;> omega
    have hspoiled : Spoiled h.endian mtu
        (reportAppend h.endian (reportNewGrec h.endian s mca) ipv6) := by
      by_cases hswap : h.endian.htons (s.nsrcs h.endian grec) = s.nsrcs h.endian grec
      · refine Or.inr (hl.stained hp (by omega) hswap ?_ mca ipv6)
        intro haux
        refine hfit ⟨fun _ => hswap, fun _ => haux, ?_⟩
        rw [hnone]
        simp only [Option.isSome_none, Bool.false_eq_true, if_false]
        split <;> omega
      · have hfew := hb.few grec hgrec
        exact Or.inl (hl.overlong hp hroom hmtu (by omega) hswap mca ipv6)
    -- the step starts a record behind the open one
    have hle := Nat.le_trans (reportSubscr_mtu h i mca s ipv6) hb.mtu_le
    have hcases := reportSubscr_step h i mca s ipv6
    simp only [reportStep]
    obtain ⟨new, hnew, hall⟩ := hsent
    have hlen := hall.length_eq
    rw [List.length_map] at hlen
    generalize reportSubscr h i mca s ipv6 = s'' at hcases hle
    cases hcases with
    | returned hr => exact absurd (hret.symm.trans hr) (by simp)
    | known _ _ hk => exact absurd (hk.goesOn_iff.mpr hgo) (by simp)
    | tooSmall _ _ hf => exact absurd (hfull.symm.trans hf) (by simp)
    | split _ _ _ _ _ _ hf => exact absurd (hfull.symm.trans hf) (by simp)
    | adds _ _ _ _ _ hsrc _ _ _ => exact absurd hsrc (by simp [hnone])
    | opens _ _ _ =>
      refine ⟨hle, new, ?_, ?_, Or.inr hspoiled⟩
      · rw [reportAppend_st]
        exact hnew
      · rw [reportAppend_out]
        exact hlen

/-- A run whose steps do not all write where they should ruins the call. -/
theorem run_meets_or_ruined {h : Host} {i mtu : Nat} (hlow : 1280 ≤ mtu) (hmtu : mtu < 4172)
    {st : Conf} : ∀ (xs : List ReportStep) (s : ReportLoop), LoopOk h.endian s → SentOk st s →
    Bounded h.endian i mtu s → Runs.StepsMeet (reportStep h i) (StepLaysOut h i) s xs ∨
      Ruined h st i mtu (Runs.run (reportStep h i) s xs) := by
  intro xs
  induction xs with
  | nil => exact fun s _ _ _ => Or.inl (Runs.stepsMeet_nil _ s)
  | cons x xs ih =>
    intro s hok hsent hb
    by_cases hx : StepLaysOut h i s x
    · obtain ⟨hok', hsent'⟩ := step_laysOut ⟨hok, hsent⟩ hx
      exact (ih _ hok' hsent' (step_bounded hlow hb hx)).imp_left
        fun hxs => Runs.stepsMeet_cons.mpr ⟨hx, hxs⟩
    · right
      rw [Runs.run_cons]
      exact Runs.run_invariant (P := Ruined h st i mtu) (fun s y hr => step_ruined hmtu hr y) xs _
        (step_spoils hmtu hok hsent hb hx)

/-- **When the packets of a call are well-formed encodings**: if all steps write where they should;
and for an MTU with which no record has more than 255 sources, only then. -/
theorem report_encoded_iff {h : Host} {st : Conf} {i : Nat} {mca : Option In6Addr}
    (hlow : 1280 ≤ (st.intn i).mtu) : (CallLaysOut h st i mca → ReportEncoded h st i mca) ∧
      ((st.intn i).mtu < 4172 → ReportEncoded h st i mca → CallLaysOut h st i mca) := by
  refine ⟨report_encoded (by omega), fun hmtu henc => ?_⟩
  obtain ⟨hok, hsent⟩ := reportInit_loopOk h st i (by omega)
  have hinit : Bounded h.endian i (st.intn i).mtu (reportInit h st i) :=
    ⟨Nat.le_refl _, fun hc => (by cases hc), fun g hg => (by cases hg), fun g hg => (by cases hg),
      fun g hg => (by cases hg)⟩
  refine (run_meets_or_ruined hlow hmtu (callSteps st i mca) _ hok hsent hinit).resolve_right
    fun hr => ?_
  rw [callSteps, ← reportLoops_eq_run] at hr
  obtain ⟨new, hnew, hbad⟩ := hr.finish
  rw [ReportEncoded, callRecords, callPackets, mld2SendReport,
    if_neg (by simp only [sizeofReport]; omega), hnew, List.drop_left] at henc
  exact hbad henc

/-- `ff05::x`. -/
def siteGroupOf (x : UInt8) : In6Addr := ⟨0xff :: 0x05 :: List.replicate 13 0 ++ [x], rfl⟩

/-- A record that asks for `2001:db8::x` in `ff05::g`. -/
def includeRecord (g x : UInt8) : WireGrec :=
  .plain 1 (siteGroupOf g) (some (globalHost x))

/-- An MLDv2 report. -/
def mld2ReportMessage (rs : List WireGrec) : List UInt8 :=
  [icmp6V2MembershipReport, 0, 0, 0, 0, 0] ++ be16 rs.length ++ encodeGrecs rs

/-- The first link asks for a source in each of two groups; the second one has jumbo frames. -/
def stateTwoGroups (e : Endian) : Conf :=
  run (quietHost e) (boot (quietHost e) plainOptions 0 none)
    [.frame 0 (mldFrame 1 (mld2ReportMessage [includeRecord 1 1, includeRecord 2 1])),
      .create 1 2 { ethernetProbe with mtu := some 9000 }]

/-- On a big-endian machine the two records are encoded as they should be. -/
theorem two_groups_encoded : ReportEncoded (quietHost .big) (stateTwoGroups .big) 2 none :=
  (report_encoded_iff (by decide +kernel)).1 (by decide +kernel)

/-- On a little-endian machine the second record is written 4080 bytes too far behind. -/
theorem two_groups_torn : Reachable (quietHost .little) (stateTwoGroups .little) ∧
    1280 ≤ ((stateTwoGroups .little).intn 2).mtu ∧
    ¬ ReportEncoded (quietHost .little) (stateTwoGroups .little) 2 none := by
  refine ⟨⟨plainOptions, 0, none, _, rfl⟩, by decide +kernel, fun henc => ?_⟩
  have hrecs : callRecords (quietHost .little) (stateTwoGroups .little) 2 none
      = [[⟨1, siteGroupOf 1, [globalHost 1]⟩, ⟨1, siteGroupOf 2, [globalHost 1]⟩]] := by
    decide +kernel
  have hlen : (callPackets (quietHost .little) (stateTwoGroups .little) 2 none).map List.length
      = [4208] := by
    decide +kernel
  rw [ReportEncoded, hrecs] at henc
  generalize callPackets (quietHost .little) (stateTwoGroups .little) 2 none = packets at henc hlen
  obtain ⟨packet, rest, hpacket, -, rfl⟩ := List.forall₂_cons_left_iff.mp henc
  have hlong := hpacket.length (by simp)
  rw [List.map_cons, List.cons.injEq, hlong] at hlen
  exact absurd hlen.1 (by decide)

end Ecmh
