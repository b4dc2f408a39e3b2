/-
# The first record of a report

Where a step does not write where it should, a record of an MLDv2 report may come to stand anywhere.
The first one does not: it begins behind `struct mld_report_packet`, in a place whose second byte
was cleared with the buffer, and nothing that is written later goes in front of byte 76.  So what is
meant first is what a receiver reads first (`mld2SendReport_first`), whatever comes behind it.
-/
import Ecmh.Announce
import Ecmh.ReportEncoded

namespace Ecmh

open ByteMem

/-! ## 1. The header of a record -/

/-- `struct mld2_grec`, as far as all records have it. -/
structure GrecHeader where
  grecType : UInt8
  auxwords : UInt8
  nsrcs : Nat
  mca : In6Addr
  deriving DecidableEq

/-- The header that is meant; the count has 16 bits. -/
def Grec.header (r : Grec) : GrecHeader :=
  ⟨UInt8.ofNat r.grecType, 0, r.srcs.length % 65536, r.grecMca⟩

/-- What a receiver reads where the first record of an MLDv2 report is. -/
def firstGrec (packet : List UInt8) : Option GrecHeader :=
  if isReportPacket packet ∧ 76 ≤ packet.length then
    some ⟨packet.getD 56 0, packet.getD 57 0, ofBe16 (packet.getD 58 0) (packet.getD 59 0),
      In6Addr.ofBytes ((packet.drop 60).take 16)⟩
  else none

/-- The first record is on the wire as it was meant, if the length that goes to `sendto` covers
it. -/
def Sent.FirstOnWire (x : Sent) : Prop := ∀ r recs, x.sender = .mld2SendReport (r :: recs) →
  76 ≤ x.packet.length → firstGrec x.packet = some r.header

/-- A header in the place of the first record, whose count is in this byte order. -/
structure FirstAt (e : Endian) (m : Mem) (r : Grec) : Prop where
  grecType : m 56 = UInt8.ofNat r.grecType
  nsrcs : e.load16 m 58 = r.srcs.length % 65536
  mca : m.read 60 16 = r.grecMca.s6Addr

section FirstAt

variable {e : Endian} {m m' : Mem} {r : Grec}

/-- It does not see what happens behind byte 76. -/
theorem FirstAt.congr (hf : FirstAt e m r) (heq : ∀ k, 56 ≤ k → k < 76 → m' k = m k) :
    FirstAt e m' r where
  grecType := (heq 56 (by omega) (by omega)).trans hf.grecType
  nsrcs := (load16_congr (heq 58 (by omega) (by omega)) (heq 59 (by omega) (by omega))).trans
    hf.nsrcs
  mca := (Mem.read_congr fun k h1 h2 => heq k (by omega) (by omega)).trans hf.mca

/-- The swap of the count closes it. -/
theorem FirstAt.closed (hf : FirstAt e m r) : FirstAt .big
    (e.store16 m 58 (e.htons (e.load16 m 58))) r where
  grecType := (Endian.store16_apply_ne _ _ _ (by omega)).trans hf.grecType
  nsrcs := by
    have hbytes := Endian.read_store16_same e m 58 (e.htons (e.load16 m 58))
    rw [Endian.bytes16_htons] at hbytes
    rw [Endian.load16, ofBe16_of_read hbytes, Nat.mod_eq_of_lt (Endian.load16_lt _ _ _), hf.nsrcs]
  mca := (Endian.read_store16_disjoint e m _ (by omega)).trans hf.mca

/-- The packet as a receiver gets it. -/
theorem FirstAt.firstGrec (hf : FirstAt .big m r) (hhead : HeadOk m) {len : Nat} (hlen : 76 ≤ len) :
    Ecmh.firstGrec (m.read 0 len) = some r.header := by
  have hget : ∀ k, k < 76 → (m.read 0 len).getD k 0 = m k := fun k hk =>
    (Mem.getD_read m (by omega)).trans (by rw [Nat.zero_add])
  have hreport : isReportPacket (m.read 0 len) = true := by
    rw [isReportPacket, hget 6 (by omega), hget 40 (by omega), hget 41 (by omega),
      hget 48 (by omega), hhead.nxt, hhead.hbhNxt, hhead.hbhLen, hhead.type]
    rfl
  have hgroup : ((m.read 0 len).drop 60).take 16 = r.grecMca.s6Addr := by
    obtain ⟨n, rfl⟩ : ∃ n, len = 60 + (16 + n) := ⟨len - 76, by omega⟩
    rw [Mem.drop_read m 0 (by omega), Nat.zero_add, Nat.add_sub_cancel_left, Mem.read_add,
      List.take_left' (Mem.length_read ..), hf.mca]
  have hnsrcs : ofBe16 (m 58) (m 59) = r.srcs.length % 65536 := hf.nsrcs
  rw [Ecmh.firstGrec, if_pos ⟨hreport, by rw [Mem.length_read]; exact hlen⟩, hget 56 (by omega),
    hget 57 (by omega), hget 58 (by omega), hget 59 (by omega), hgroup, ofBytes_s6Addr, hnsrcs,
    hf.grecType, hhead.auxwords]
  rfl

end FirstAt

/-! ## 2. What the steps leave in its place -/

/-- Where the first record of the packet under construction is: there is none, or it is the open
one, or another one behind it is. -/
inductive FirstCase (e : Endian) (s : ReportLoop) : Prop
  | empty (hgrec : s.grec = none) (hcur : s.cur = [])
  | alone (r : Grec) (hgrec : s.grec = some 56) (hcur : s.cur = [r])
      (hfirst : FirstAt e s.packet r)
  | more (grec : Nat) (r : Grec) (recs : List Grec) (hgrec : s.grec = some grec) (hge : 76 ≤ grec)
      (hrecs : recs ≠ []) (hcur : s.cur = r :: recs) (hfirst : FirstAt .big s.packet r)

/-- What is true of the loop whether its packets are well-formed or not. -/
structure FirstKept (e : Endian) (s : ReportLoop) : Prop where
  head : HeadOk s.packet
  first : FirstCase e s

/-- The records in front of the last one stay. -/
theorem setLast_behind (f : Grec → Grec) (r : Grec) {recs : List Grec} (hne : recs ≠ []) :
    ReportLoop.setLast f (r :: recs) = r :: ReportLoop.setLast f recs ∧
      ReportLoop.setLast f recs ≠ [] := by
  obtain ⟨l, x, rfl⟩ := (List.eq_nil_or_concat recs).resolve_left hne
  rw [List.concat_eq_append, setLast_concat, ← List.cons_append, setLast_concat]
  exact ⟨rfl, by simp⟩

section FirstKept

variable {h : Host} {e : Endian} {i : Nat} {s : ReportLoop} {grec : Nat}

theorem FirstKept.congr {s' : ReportLoop} (hs : FirstKept e s) (hpacket : s'.packet = s.packet)
    (hgrec : s'.grec = s.grec) (hcur : s'.cur = s.cur) : FirstKept e s' := by
  obtain ⟨hhead, hfirst⟩ := hs
  refine ⟨hpacket ▸ hhead, ?_⟩
  cases hfirst with
  | empty hg hc => exact .empty (hgrec.trans hg) (hcur.trans hc)
  | alone r hg hc hf => exact .alone r (hgrec.trans hg) (hcur.trans hc) (hpacket ▸ hf)
  | more grec r recs hg hge hne hc hf =>
    exact .more grec r recs (hgrec.trans hg) hge hne (hcur.trans hc) (hpacket ▸ hf)

/-- The open record is the first one, or it lies behind its header. -/
theorem FirstKept.place (hs : FirstKept e s) (hgrec : s.grec = some grec) :
    grec = 56 ∨ 76 ≤ grec := by
  cases hs.first with
  | empty hg _ =>
    rw [hg] at hgrec
    cases hgrec
  | alone r hg _ _ => exact Or.inl (Option.some.inj (hgrec.symm.trans hg))
  | more p r recs hg hge _ _ _ =>
    obtain rfl := Option.some.inj (hg.symm.trans hgrec)
    exact Or.inr hge

theorem FirstKept.collapse (hs : FirstKept e s) (hgrec : s.grec = some grec) :
    FirstKept e (reportCollapse e s grec) := by
  have hplace := hs.place hgrec
  obtain ⟨hhead, hfirst⟩ := hs
  refine ⟨hhead.congr fun k hk => ?_, ?_⟩
  · rw [reportCollapse_packet, writeHead_apply (by omega)]
  cases hfirst with
  | empty hg _ =>
    rw [hg] at hgrec
    cases hgrec
  | alone r hg hc hf =>
    obtain rfl := Option.some.inj (hg.symm.trans hgrec)
    refine .alone ⟨mld2ModeIsExclude, r.grecMca, []⟩ hg ?_ ⟨?_, ?_, ?_⟩
    · rw [show (reportCollapse e s 56).cur = ReportLoop.setLast _ s.cur from rfl, hc]
      rfl
    · rw [reportCollapse_packet]
      exact writeHead_grecType
    · exact reportCollapse_nsrcs e s 56
    · rw [← hf.mca, reportCollapse_packet]
      exact Mem.read_congr fun k h1 h2 => writeHead_apply (by omega)
  | more p r recs hg hge hne hc hf =>
    obtain rfl := Option.some.inj (hg.symm.trans hgrec)
    obtain ⟨hlast, hne'⟩ := setLast_behind
      (fun r => { r with grecType := mld2ModeIsExclude, srcs := [] }) r hne
    refine .more p r _ hg hge hne' ?_ (hf.congr fun k h1 h2 => writeHead_apply (by omega))
    rw [← hlast, ← hc]
    rfl

theorem FirstKept.append (hs : FirstKept e s) (hgrec : s.grec = some grec) (ipv6 : In6Addr) :
    FirstKept e (reportAppend e s ipv6) := by
  by_cases hany : ipv6 = In6Addr.any
  · rw [reportAppend_any hgrec hany]
    exact hs.congr rfl rfl rfl
  have hplace := hs.place hgrec
  have hgrec' : (reportAppend e s ipv6).grec = some grec := reportAppend_grec hgrec
  have hslot : grec + 20 ≤ s.slot e grec := by
    rw [ReportLoop.slot]
    omega
  obtain ⟨hhead, hfirst⟩ := hs
  refine ⟨hhead.congr fun k hk => reportAppend_apply hgrec (by omega), ?_⟩
  have hcur := congrArg ReportLoop.cur (reportAppend_source (e := e) hgrec hany)
  cases hfirst with
  | empty hg _ =>
    rw [hg] at hgrec
    cases hgrec
  | alone r hg hc hf =>
    obtain rfl := Option.some.inj (hg.symm.trans hgrec)
    refine .alone ⟨mld2ModeIsInclude, r.grecMca, r.srcs ++ [ipv6]⟩ hgrec' ?_ ⟨?_, ?_, ?_⟩
    · rw [hcur, hc]
      rfl
    · rw [reportAppend_source hgrec hany]
      exact (Mem.write_apply_of_lt _ _ (by omega)).trans writeHead_grecType
    · refine (reportAppend_nsrcs hgrec).trans ?_
      rw [if_neg hany, ReportLoop.nsrcs, hf.nsrcs, List.length_append, List.length_singleton]
      omega
    · rw [← hf.mca]
      exact Mem.read_congr fun k h1 h2 => reportAppend_apply hgrec (by omega)
  | more p r recs hg hge hne hc hf =>
    obtain rfl := Option.some.inj (hg.symm.trans hgrec)
    obtain ⟨hlast, hne'⟩ := setLast_behind
      (fun r => { r with grecType := mld2ModeIsInclude, srcs := r.srcs ++ [ipv6] }) r hne
    refine .more p r _ hgrec' hge hne' ?_
      (hf.congr fun k h1 h2 => reportAppend_apply hgrec (by omega))
    rw [← hlast, ← hc]
    exact hcur

theorem FirstKept.newGrec (hs : FirstKept e s) (mca : In6Addr) :
    FirstKept e (reportNewGrec e s mca) := by
  have hcur : (reportNewGrec e s mca).cur = s.cur ++ [⟨mld2ModeIsExclude, mca, []⟩] := rfl
  have hplaces : ∀ grec, s.grec = some grec → grec = 56 ∨ 76 ≤ grec := fun grec => hs.place
  obtain ⟨hhead, hfirst⟩ := hs
  rcases Option.eq_none_or_eq_some s.grec with hgrec | ⟨grec, hgrec⟩
  · obtain ⟨hgrec', hpacket⟩ := reportNewGrec_first (e := e) hgrec mca
    refine ⟨hhead.congr fun k hk => ?_, ?_⟩
    · rw [hpacket, writeOpen_apply mca (by simp only [sizeofReport]; omega)]
      exact Endian.store16_apply_ne _ _ _ (by simp only [reportNgrec]; omega)
    · have hnil : s.cur = [] := by
        cases hfirst with
        | empty _ hc => exact hc
        | alone r hg _ _ =>
          rw [hg] at hgrec
          cases hgrec
        | more p r recs hg _ _ _ _ =>
          rw [hg] at hgrec
          cases hgrec
      refine .alone ⟨mld2ModeIsExclude, mca, []⟩ hgrec' (by rw [hcur, hnil]; rfl) ⟨?_, ?_, ?_⟩
      · rw [hpacket]
        exact writeHead_grecType
      · exact reportNewGrec_nsrcs hpacket
      · rw [hpacket, writeOpen]
        have hmca := Mem.read_write_same (e.store16 s.packet reportNgrec
          (e.load16 s.packet reportNgrec + 1)) 60 mca.s6Addr
        rw [length_s6Addr] at hmca
        refine (Mem.read_congr fun k h1 h2 => writeHead_apply ?_).trans hmca
        simp only [sizeofReport]
        omega
  · have hplace := hplaces grec hgrec
    obtain ⟨hgrec', hpacket⟩ := reportNewGrec_next (e := e) hgrec (by omega) mca
    have hbefore : ∀ k, k < 76 → k ≠ 54 → k ≠ 55 → k ≠ grec + 2 → k ≠ grec + 3 →
        (reportNewGrec e s mca).packet k = s.packet k := by
      intro k hk h54 h55 h2 h3
      rw [hpacket, writeOpen_apply mca (by omega), swapped_apply h54 h55 h2 h3]
    refine ⟨hhead.congr fun k hk => ?_, ?_⟩
    · exact hbefore k (by omega) (by omega) (by omega) (by omega) (by omega)
    cases hfirst with
    | empty hg _ =>
      rw [hg] at hgrec
      cases hgrec
    | alone r hg hc hf =>
      obtain rfl := Option.some.inj (hg.symm.trans hgrec)
      refine .more _ r _ hgrec' (by omega) (List.cons_ne_nil _ _) (by rw [hcur, hc]; rfl) ?_
      have hopen : FirstAt e (e.store16 s.packet reportNgrec (e.load16 s.packet reportNgrec + 1))
          r := hf.congr fun k h1 h2 => Endian.store16_apply_ne _ _ _ (by
            simp only [reportNgrec]
            omega)
      have hclosed := hopen.closed
      rw [hopen.nsrcs, ← hf.nsrcs] at hclosed
      rw [hpacket]
      exact hclosed.congr fun k h1 h2 => writeOpen_apply mca (by omega)
    | more p r recs hg hge hne hc hf =>
      obtain rfl := Option.some.inj (hg.symm.trans hgrec)
      refine .more _ r _ hgrec' (by omega) (List.append_ne_nil_of_left_ne_nil hne _)
        (by rw [hcur, hc]; rfl) ?_
      exact hf.congr fun k h1 h2 => hbefore k h2 (by omega) (by omega) (by omega) (by omega)

/-- The count of the last record is swapped before a packet is sent. -/
theorem FirstKept.sends (hs : FirstKept h.endian s) (hgrec : s.grec = some grec) (i : Nat) :
    HeadOk (reportSend h i s grec).packet ∧
      ∃ r recs, s.cur = r :: recs ∧ FirstAt .big (reportSend h i s grec).packet r := by
  have hplace := hs.place hgrec
  obtain ⟨hhead, hfirst⟩ := hs
  refine ⟨hhead.congr fun k hk => ?_, ?_⟩
  · exact reportSend_apply h i s (by omega) (by omega) (by omega) (by omega) (by omega) (by omega)
      (by omega) (by omega)
  cases hfirst with
  | empty hg _ =>
    rw [hg] at hgrec
    cases hgrec
  | alone r hg hc hf =>
    obtain rfl := Option.some.inj (hg.symm.trans hgrec)
    refine ⟨r, [], hc, ?_⟩
    obtain ⟨csum, hpacket⟩ := reportSend_packet h i s 56
    have hopen : FirstAt h.endian (h.endian.store16 s.packet reportNgrec
        (h.endian.htons (h.endian.load16 s.packet reportNgrec))) r :=
      hf.congr fun k h1 h2 => Endian.store16_apply_ne _ _ _ (by simp only [reportNgrec]; omega)
    rw [hpacket]
    refine hopen.closed.congr fun k h1 h2 => ?_
    rw [Endian.store16_apply_ne _ _ _ (by omega), Endian.store16_apply_ne _ _ _ (by omega),
      Endian.store16_apply_ne _ _ _ (by simp only [ip6Plen]; omega)]
  | more p r recs hg hge _ hc hf =>
    obtain rfl := Option.some.inj (hg.symm.trans hgrec)
    refine ⟨r, recs, hc, hf.congr fun k h1 h2 => ?_⟩
    exact reportSend_apply h i s (by omega) (by omega) (by omega) (by omega) (by omega) (by omega)
      (by omega) (by omega)

/-- So the packet begins with the record that was meant first. -/
theorem FirstKept.send_first (hs : FirstKept h.endian s) (hgrec : s.grec = some grec) (i : Nat) :
    AllSent Sent.FirstOnWire s.st (reportSend h i s grec).st := by
  obtain ⟨hhead, r, recs, hcur, hfirst⟩ := hs.sends hgrec i
  obtain ⟨x, hx, hsent⟩ := reportSend_sent h i s grec
  have hsender : x.sender = .mld2SendReport s.cur := by
    have hsame := hsent.symm.trans (sendpacket6_sent h (.mld2SendReport s.cur) s.st i _ _)
    rw [List.append_cancel_left_eq, List.cons.injEq] at hsame
    rw [hsame.1]
    rfl
  refine ⟨[x], hsent, List.forall_mem_singleton.mpr fun r' recs' hr hlen => ?_⟩
  rw [hsender, hcur, Sender.mld2SendReport.injEq, List.cons.injEq] at hr
  rw [hx, Mem.length_read] at hlen
  rw [hx, ← hr.1]
  exact hfirst.firstGrec hhead hlen

theorem FirstKept.sent (hs : FirstKept h.endian s) (hgrec : s.grec = some grec) (i : Nat) :
    FirstKept h.endian (reportReset h.endian (reportSend h i s grec)) := by
  refine ⟨(hs.sends hgrec i).1.congr fun k hk => ?_, .empty rfl rfl⟩
  exact Endian.store16_apply_ne _ _ _ (by simp only [reportNgrec]; omega)

/-! ## 3. The call -/

theorem FirstKept.opens (hs : FirstKept e s) (mca ipv6 : In6Addr) :
    FirstKept e (reportAppend e (reportNewGrec e s mca) ipv6) := by
  obtain ⟨grec, hgrec⟩ : ∃ grec, (reportNewGrec e s mca).grec = some grec := ⟨_, rfl⟩
  exact (hs.newGrec mca).append hgrec ipv6

/-- One case for each thing that the body of the innermost loop can do. -/
theorem reportSubscr_first (hs : FirstKept h.endian s) (mca ipv6 : In6Addr) :
    FirstKept h.endian (reportSubscr h i mca s ipv6) ∧
      AllSent Sent.FirstOnWire s.st (reportSubscr h i mca s ipv6).st := by
  have hcases := reportSubscr_step h i mca s ipv6
  generalize reportSubscr h i mca s ipv6 = s' at hcases
  cases hcases with
  | returned _ => exact ⟨hs, .refl _⟩
  | known _ _ hk =>
    generalize hb : false = b at hk
    cases hk with
    | noSource _ => cases hb
    | noGrec _ _ => exact ⟨hs, .refl _⟩
    | collapse grec _ hgrec _ => exact ⟨hs.collapse hgrec, .of_eq rfl⟩
    | dropped _ _ => exact ⟨hs.congr rfl rfl rfl, .of_eq rfl⟩
    | fresh _ _ _ _ _ _ => cases hb
  | tooSmall _ _ _ => exact ⟨hs.congr rfl rfl rfl, .of_eq rfl⟩
  | split src touched grec _ _ hgrec _ =>
    have hs' : FirstKept h.endian { s with src := src, touched := touched } :=
      hs.congr rfl rfl rfl
    refine ⟨(hs'.sent hgrec i).opens mca ipv6, (hs'.send_first hgrec i).congr rfl ?_⟩
    rw [reportAppend_st]
    rfl
  | opens _ _ _ =>
    refine ⟨hs.opens mca ipv6, .of_eq ?_⟩
    rw [reportAppend_st]
    rfl
  | adds src touched grec _ _ _ hgrec _ _ =>
    have hs' : FirstKept h.endian { s with src := some src, touched := touched } :=
      hs.congr rfl rfl rfl
    refine ⟨hs'.append hgrec ipv6, .of_eq ?_⟩
    rw [reportAppend_st]

theorem reportFinish_first (hs : FirstKept h.endian s) (i : Nat) :
    AllSent Sent.FirstOnWire s.st (reportFinish h i s).st := by
  unfold reportFinish
  split
  · exact .refl _
  · split
    · exact .refl _
    · rename_i grec hgrec
      exact hs.send_first hgrec i

end FirstKept

theorem reportStep_first {h : Host} {i : Nat} {s : ReportLoop} (hs : FirstKept h.endian s)
    (x : ReportStep) : FirstKept h.endian (reportStep h i s x) ∧
      AllSent Sent.FirstOnWire s.st (reportStep h i s x).st := by
  cases x with
  | group => exact ⟨hs.congr rfl rfl rfl, .of_eq rfl⟩
  | subscr mca ipv6 => exact reportSubscr_first hs mca ipv6

/-- **The first record of every MLDv2 report is on the wire as it was meant.** -/
theorem mld2SendReport_first (h : Host) {st : Conf} {i : Nat} (hmtu : 58 ≤ (st.intn i).mtu)
    (mca : Option In6Addr) : AllSent Sent.FirstOnWire st (mld2SendReport h st i mca) := by
  have hinit : FirstKept h.endian (reportInit h st i) :=
    ⟨reportInit_headOk h st i hmtu, .empty rfl rfl⟩
  have hkept : FirstKept h.endian (reportLoops h st i mca) := by
    rw [reportLoops_eq_run]
    exact Runs.run_invariant (P := FirstKept h.endian)
      (fun s x hs => (reportStep_first hs x).1) _ _ hinit
  have hloops : AllSent Sent.FirstOnWire st (reportLoops h st i mca).st := by
    rw [reportLoops_eq_run]
    exact allSent_run ReportLoop.st (I := FirstKept h.endian)
      (fun s x hs => reportStep_first hs x) _ _ hinit
  unfold mld2SendReport
  split
  · exact .refl st
  · exact hloops.trans (reportFinish_first hkept i)

/-- A packet of a call for one group has records for that group only. -/
def Sent.OneGroup (x : Sent) : Prop := ∀ recs, x.sender = .mld2SendReport recs →
  ∃ g, ∀ r ∈ recs, r.grecMca = g ∧ r.Asks

theorem mld2SendReport_oneGroup (h : Host) (st : Conf) (i : Nat) (mca : In6Addr) :
    AllSent Sent.OneGroup st (mld2SendReport h st i (some mca)) := by
  obtain ⟨new, hnew, -, hall⟩ := mld2SendReport_sent h st i (some mca)
  refine ⟨new, hnew, fun x hx recs hs => ⟨mca, ?_⟩⟩
  obtain ⟨⟨recs', hrecs, hs'⟩, -⟩ := hall x hx
  obtain rfl := Sender.mld2SendReport.inj (hs'.symm.trans hs)
  refine callRecords_good h (P := (· = mca)) (fun y hy g a he => ?_) recs' hrecs
  subst he
  obtain ⟨-, -, -, hask, -⟩ := mem_callSteps hy
  rcases hask with hask | hask
  · cases hask
  · exact (Option.some.inj hask).symm

end Ecmh
