/-
# Packets that are spoiled

A step that starts a record in the wrong place, or where the byte of `auxwords` is not zero, spoils
the packet under construction.  In the first case the packet gets longer than its records
(`Overlong`), in the second a byte of it is wrong (`Stained`).  No later step repairs it
(`step_ruined`), and what is sent in the end does not decode to the records that were appended.
-/
import Ecmh.ReportLayout

namespace Ecmh

open ByteMem

/-! ## 1. What a well-formed packet must look like -/

/-- The bytes that records without auxiliary data take. -/
def weight (recs : List Grec) : Nat := (recs.map (fun r => 20 + 16 * r.srcs.length)).sum

@[simp] theorem weight_nil : weight [] = 0 := rfl

@[simp] theorem weight_cons (r : Grec) (recs : List Grec) :
    weight (r :: recs) = 20 + 16 * r.srcs.length + weight recs := by
  simp [weight]

@[simp] theorem weight_append (recs recs' : List Grec) :
    weight (recs ++ recs') = weight recs + weight recs' := by
  simp [weight]

theorem length_encodeGrecs_plain : ∀ {rs : List WireGrec}, (∀ r ∈ rs, r.aux = []) →
    (encodeGrecs rs).length = weight (rs.map WireGrec.toGrec)
  | [], _ => rfl
  | r :: rs, h => by
    rw [encodeGrecs_cons, List.length_append, List.map_cons, weight_cons,
      WireGrec.length_encode_plain (h r List.mem_cons_self),
      length_encodeGrecs_plain fun x hx => h x (List.mem_cons_of_mem r hx)]
    rfl

theorem Encodes.length {recs : List Grec} {packet : List UInt8} (h : Encodes recs packet)
    (hne : recs ≠ []) : packet.length = 56 + weight recs := by
  obtain ⟨rs, hdec, rfl, hplain⟩ := h
  obtain ⟨-, -, -, hbytes⟩ := decodeReport_eq_some.mp hdec
  have hlen := congrArg List.length hbytes
  rw [List.length_drop, length_encodeGrecs_plain hplain] at hlen
  cases rs with
  | nil => exact absurd rfl hne
  | cons r rs =>
    rw [List.map_cons, weight_cons] at hlen ⊢
    omega

/-- The byte of `auxwords` is zero in all its records. -/
theorem Encodes.auxwords {pre post : List Grec} {c : Grec} {packet : List UInt8}
    (h : Encodes (pre ++ c :: post) packet) : packet.getD (57 + weight pre) 0 = 0 := by
  obtain ⟨rs, hdec, hrs, hplain⟩ := h
  obtain ⟨-, -, -, hbytes⟩ := decodeReport_eq_some.mp hdec
  obtain ⟨ws, ws', rfl, rfl, hws'⟩ := List.map_eq_append_iff.mp hrs
  obtain ⟨r, ws', rfl, rfl, rfl⟩ := List.map_eq_cons_iff.mp hws'
  have hws : ∀ x ∈ ws, x.aux = [] := fun x hx => hplain x (List.mem_append_left _ hx)
  have hr : r.aux = [] := hplain r (List.mem_append_right _ List.mem_cons_self)
  have hbyte : (packet.drop 56).getD (1 + weight (ws.map WireGrec.toGrec)) 0
      = UInt8.ofNat r.auxwords := by
    rw [hbytes, encodeGrecs_append, encodeGrecs_cons, ← length_encodeGrecs_plain hws,
      List.getD_eq_getElem?_getD, Nat.add_comm 1, ← List.getElem?_drop, List.drop_left]
    rfl
  rw [List.getD_eq_getElem?_getD, List.getElem?_drop, ← List.getD_eq_getElem?_getD,
    ← Nat.add_assoc] at hbyte
  rw [hbyte, WireGrec.auxwords, hr]
  rfl

/-- Two lists with one element more are related if they were, and the last elements are. -/
theorem forall₂_concat {α β : Type} {R : α → β → Prop} {a : List α} {b : List β} {x : α} {y : β}
    (hlen : a.length = b.length) (h : List.Forall₂ R (a ++ [x]) (b ++ [y])) :
    List.Forall₂ R a b ∧ R x y := by
  constructor
  · have ht := List.forall₂_take a.length h
    rwa [List.take_left, hlen, List.take_left] at ht
  · have hd := List.forall₂_drop a.length h
    rw [List.drop_left, hlen, List.drop_left] at hd
    cases hd with
    | cons hxy _ => exact hxy

/-! ## 2. Packets under construction, whatever their bytes are

`Pending` says what is left to rely on when the bytes are wrong: how many records there are, and
that the open one is not before its place. -/

/-- The record at `grec` is open, and the packet is sent sooner or later. -/
structure Pending (e : Endian) (s : ReportLoop) (grec : Nat) : Prop where
  pointer : s.grec = some grec
  returned : s.returned = false
  nonempty : s.cur ≠ []
  ngrec : e.load16 s.packet reportNgrec = s.cur.length
  few : s.cur.length ≤ 300
  place : 36 + 20 * s.cur.length ≤ grec

section Pending

variable {e : Endian} {s : ReportLoop} {grec : Nat}

theorem Pending.grec_ge (hp : Pending e s grec) : 56 ≤ grec := by
  have := List.length_pos_iff.mpr hp.nonempty
  have := hp.place
  omega

/-- A change from the open record on. -/
theorem Pending.change (hp : Pending e s grec) {s' : ReportLoop} (hgrec : s'.grec = s.grec)
    (hret : s'.returned = s.returned) (hcur : s'.cur.length = s.cur.length)
    (heq : ∀ k, k < grec → s'.packet k = s.packet k) : Pending e s' grec where
  pointer := hgrec.trans hp.pointer
  returned := hret.trans hp.returned
  nonempty := by
    rw [← List.length_pos_iff, hcur]
    exact List.length_pos_iff.mpr hp.nonempty
  ngrec := by
    have h56 := hp.grec_ge
    rw [hcur, ← hp.ngrec]
    exact load16_congr (heq _ (by simp only [reportNgrec]; omega))
      (heq _ (by simp only [reportNgrec]; omega))
  few := by rw [hcur]; exact hp.few
  place := by rw [hcur]; exact hp.place

theorem Pending.collapse (hp : Pending e s grec) : Pending e (reportCollapse e s grec) grec :=
  hp.change rfl rfl (length_setLast _ _) fun _ hk => writeHead_apply (Or.inl hk)

theorem reportAppend_returned (ipv6 : In6Addr) :
    (reportAppend e s ipv6).returned = s.returned := by
  unfold reportAppend
  split
  · rfl
  · split <;> rfl

theorem Pending.append (hp : Pending e s grec) (ipv6 : In6Addr) :
    Pending e (reportAppend e s ipv6) grec := by
  refine hp.change ((reportAppend_grec hp.pointer).trans hp.pointer.symm)
    (reportAppend_returned ipv6) ?_ fun k hk => reportAppend_apply hp.pointer (Or.inl hk)
  by_cases hany : ipv6 = In6Addr.any
  · rw [reportAppend_any hp.pointer hany]
  · rw [reportAppend_source hp.pointer hany]
    exact length_setLast _ _

/-- A record behind the open one, wherever it comes to stand. -/
theorem Pending.newGrec (hp : Pending e s grec) (hplace : grec ≤ 4200) (mca : In6Addr) :
    Pending e (reportNewGrec e s mca) (grec + 20 + 16 * e.htons (s.nsrcs e grec)) := by
  have h56 := hp.grec_ge
  have hold := hp.place
  obtain ⟨hnew, hpacket⟩ := reportNewGrec_next (e := e) hp.pointer h56 mca
  have hcur : (reportNewGrec e s mca).cur.length = s.cur.length + 1 := List.length_append
  refine ⟨hnew, hp.returned, List.ne_nil_of_length_eq_add_one hcur, ?_, by omega, by omega⟩
  have hone : ∀ g, s.grec = some g → 56 ≤ g := fun g hg => by
    obtain rfl := Option.some.inj (hp.pointer.symm.trans hg)
    exact h56
  rw [reportNewGrec_ngrec hone, hp.ngrec, hcur]
  omega

theorem Pending.length_eq (hp : Pending e s grec) :
    s.length e + 40 = grec + 20 + 16 * s.nsrcs e grec := by
  have h56 := hp.grec_ge
  rw [ReportLoop.length, hp.pointer]
  dsimp only
  rw [ReportLoop.slot]
  omega

end Pending

/-! ## 3. The two ways to be spoiled

Both are kept by every step that does not send the packet, whether it writes where it should or
not. -/

/-- The packet is longer than its records: one of them was started `n` times 255 sources too far
behind.  Nothing more fits into it. -/
def Overlong (e : Endian) (mtu : Nat) (s : ReportLoop) : Prop :=
  ∃ grec cs c n, Pending e s grec ∧ s.cur = cs ++ [c] ∧ s.nsrcs e grec = c.srcs.length ∧
    c.srcs.length ≤ 1 ∧ grec = 56 + weight cs + 4080 * n ∧ 0 < n ∧ n < 256 ∧ weight cs ≤ 4200 ∧
    mtu < grec

/-- The byte of `auxwords` of a record that stands in its place is not zero. -/
def Stained (e : Endian) (s : ReportLoop) : Prop :=
  ∃ grec pre c post, Pending e s grec ∧ s.cur = pre ++ c :: post ∧ s.packet (57 + weight pre) ≠ 0 ∧
    (grec = 56 + weight pre ∨ 76 + weight pre ≤ grec)

/-- The last record changes, and the ones in front of it stay. -/
theorem setLast_cons (f : Grec → Grec) (pre post : List Grec) (c : Grec) :
    ∃ c' post', ReportLoop.setLast f (pre ++ c :: post) = pre ++ c' :: post' := by
  rcases List.eq_nil_or_concat post with rfl | ⟨l, x, rfl⟩
  · exact ⟨f c, [], setLast_concat f pre c⟩
  · refine ⟨c, l ++ [f x], ?_⟩
    rw [List.concat_eq_append, show pre ++ c :: (l ++ [x]) = (pre ++ c :: l) ++ [x] by simp,
      setLast_concat]
    simp

section Spoiled

variable {e : Endian} {s : ReportLoop} {mtu : Nat}

/-- The other variables of the loop play no part. -/
theorem Overlong.congr (hs : Overlong e mtu s) {s' : ReportLoop} (hp : s'.packet = s.packet)
    (hg : s'.grec = s.grec) (hr : s'.returned = s.returned) (hc : s'.cur = s.cur) :
    Overlong e mtu s' := by
  obtain ⟨grec, cs, c, n, hpend, hcur, hn, hrest⟩ := hs
  refine ⟨grec, cs, c, n, hpend.change hg hr (by rw [hc]) fun k _ => by rw [hp], hc.trans hcur, ?_,
    hrest⟩
  rw [ReportLoop.nsrcs, hp]
  exact hn

theorem Stained.congr (hs : Stained e s) {s' : ReportLoop} (hp : s'.packet = s.packet)
    (hg : s'.grec = s.grec) (hr : s'.returned = s.returned) (hc : s'.cur = s.cur) :
    Stained e s' := by
  obtain ⟨grec, pre, c, post, hpend, hcur, hbyte, hplace⟩ := hs
  exact ⟨grec, pre, c, post, hpend.change hg hr (by rw [hc]) fun k _ => by rw [hp], hc.trans hcur,
    by rw [hp]; exact hbyte, hplace⟩

theorem Overlong.collapse (hs : Overlong e mtu s) {grec : Nat} (hgrec : s.grec = some grec) :
    Overlong e mtu (reportCollapse e s grec) := by
  obtain ⟨g, cs, c, n, hpend, hcur, -, -, hrest⟩ := hs
  obtain rfl := Option.some.inj (hpend.pointer.symm.trans hgrec)
  refine ⟨g, cs, ⟨mld2ModeIsExclude, c.grecMca, []⟩, n, hpend.collapse, ?_,
    reportCollapse_nsrcs e s g, Nat.zero_le 1, hrest⟩
  show ReportLoop.setLast _ s.cur = _
  rw [hcur, setLast_concat]

theorem Stained.collapse (hs : Stained e s) {grec : Nat} (hgrec : s.grec = some grec) :
    Stained e (reportCollapse e s grec) := by
  obtain ⟨g, pre, c, post, hpend, hcur, hbyte, hplace⟩ := hs
  obtain rfl := Option.some.inj (hpend.pointer.symm.trans hgrec)
  obtain ⟨c', post', hset⟩ := setLast_cons
    (fun r => { r with grecType := mld2ModeIsExclude, srcs := [] }) pre post c
  refine ⟨g, pre, c', post', hpend.collapse, ?_, ?_, hplace⟩
  · rw [← hset, ← hcur]
    rfl
  · rw [reportCollapse_packet, writeHead_apply (by omega)]
    exact hbyte

/-- In an overlong packet there is no room for anything. -/
theorem Overlong.full (hs : Overlong e mtu s) {i : Nat} (hmtu : (s.st.intn i).mtu ≤ mtu)
    (ipv6 : In6Addr) : reportFull e i s ipv6 = true := by
  obtain ⟨grec, cs, c, n, hpend, -, -, -, -, -, -, -, hlong⟩ := hs
  have hlen := hpend.length_eq
  rw [reportFull, decide_eq_true_eq]
  omega

/-- A source is added to a stained packet, or a record. -/
theorem Stained.append (hs : Stained e s) (ipv6 : In6Addr) :
    Stained e (reportAppend e s ipv6) := by
  obtain ⟨grec, pre, c, post, hpend, hcur, hbyte, hplace⟩ := hs
  have hpend' := hpend.append ipv6
  by_cases hany : ipv6 = In6Addr.any
  · refine ⟨grec, pre, c, post, hpend', ?_, ?_, hplace⟩
    · rw [reportAppend_any hpend.pointer hany]
      exact hcur
    · rw [reportAppend_any hpend.pointer hany]
      exact hbyte
  · obtain ⟨c', post', hset⟩ := setLast_cons
      (fun r => { r with grecType := mld2ModeIsInclude, srcs := r.srcs ++ [ipv6] }) pre post c
    refine ⟨grec, pre, c', post', hpend', ?_, ?_, hplace⟩
    · rw [reportAppend_source hpend.pointer hany, ← hset, ← hcur]
    · have hslot : grec + 20 ≤ s.slot e grec := by
        rw [ReportLoop.slot]
        omega
      rw [reportAppend_apply hpend.pointer (by omega)]
      exact hbyte

theorem Stained.newGrec (hs : Stained e s) (hplace : ∀ grec, s.grec = some grec → grec ≤ 4200)
    (mca : In6Addr) : Stained e (reportNewGrec e s mca) := by
  obtain ⟨grec, pre, c, post, hpend, hcur, hbyte, hat⟩ := hs
  refine ⟨_, pre, c, post ++ [⟨mld2ModeIsExclude, mca, []⟩],
    hpend.newGrec (hplace grec hpend.pointer) mca, ?_, ?_, by omega⟩
  · show s.cur ++ [_] = _
    rw [hcur, List.append_assoc, List.cons_append]
  · rw [(reportNewGrec_next hpend.pointer hpend.grec_ge mca).2, writeOpen_apply mca (by omega),
      swapped_apply (by omega) (by omega) (by omega) (by omega)]
    exact hbyte

end Spoiled

/-! ## 4. A spoiled packet is sent in the end

The packet under construction goes out, at the latest when the loops are done, and the one that
went out stays sent. -/

/-- The packet under construction is spoiled. -/
def Spoiled (e : Endian) (mtu : Nat) (s : ReportLoop) : Prop := Overlong e mtu s ∨ Stained e s

theorem Spoiled.congr {e : Endian} {mtu : Nat} {s s' : ReportLoop} (hs : Spoiled e mtu s)
    (hp : s'.packet = s.packet) (hg : s'.grec = s.grec) (hr : s'.returned = s.returned)
    (hc : s'.cur = s.cur) : Spoiled e mtu s' :=
  hs.imp (fun h => h.congr hp hg hr hc) fun h => h.congr hp hg hr hc

theorem Spoiled.pending {e : Endian} {mtu : Nat} {s : ReportLoop} (hs : Spoiled e mtu s) :
    ∃ grec, Pending e s grec := by
  rcases hs with ⟨grec, _, _, _, hpend, _⟩ | ⟨grec, _, _, _, hpend, _⟩ <;> exact ⟨grec, hpend⟩

/-- What is sent of it does not encode its records. -/
theorem Spoiled.sent {h : Host} {i mtu : Nat} {s : ReportLoop} (hs : Spoiled h.endian mtu s)
    {grec : Nat} (hgrec : s.grec = some grec) {x : Sent}
    (hx : x.packet = (reportSend h i s grec).packet.read 0 ((s.length h.endian + 40) % 65536)) :
    ¬ Encodes s.cur x.packet := by
  intro henc
  rcases hs with ⟨g, cs, c, n, hpend, hcur, hn, hc, hg, hpos, hlt, hsmall, -⟩ |
    ⟨g, pre, c, post, hpend, hcur, hbyte, hplace⟩
  · -- the length gives it away
    obtain rfl := Option.some.inj (hpend.pointer.symm.trans hgrec)
    have hlen := henc.length hpend.nonempty
    rw [hx, Mem.length_read, hpend.length_eq, hn, hcur, weight_append, weight_cons, weight_nil]
      at hlen
    omega
  · obtain rfl := Option.some.inj (hpend.pointer.symm.trans hgrec)
    have hlen := henc.length hpend.nonempty
    rw [hx, Mem.length_read] at hlen
    rw [hcur] at henc hlen
    have hzero := henc.auxwords
    rw [weight_append, weight_cons] at hlen
    rw [hx, Mem.getD_read _ (by omega), Nat.zero_add, reportSend_apply h i s (by omega) (by omega)
      (by omega) (by omega) (by omega) (by omega) (by omega) (by omega)] at hzero
    exact hbyte hzero

/-- A packet of the call is not what it should be, or will not be. -/
def Ruined (h : Host) (st : Conf) (i mtu : Nat) (s : ReportLoop) : Prop :=
  (s.st.intn i).mtu ≤ mtu ∧ ∃ new, s.st.sent = st.sent ++ new ∧ s.out.length = new.length ∧
    (¬ List.Forall₂ Encodes s.out (new.map Sent.packet) ∨ Spoiled h.endian mtu s)

/-- Sending a spoiled packet, or any packet after one. -/
theorem Ruined.send {h : Host} {st : Conf} {i mtu : Nat} {s : ReportLoop}
    (hr : Ruined h st i mtu s) {grec : Nat} (hgrec : s.grec = some grec) :
    ∃ new, (reportSend h i s grec).st.sent = st.sent ++ new ∧
      (reportSend h i s grec).out.length = new.length ∧
      ¬ List.Forall₂ Encodes (reportSend h i s grec).out (new.map Sent.packet) := by
  obtain ⟨-, new, hnew, hlen, hbad⟩ := hr
  obtain ⟨x, hx, hsent⟩ := reportSend_sent h i s grec
  have hout : (reportSend h i s grec).out = s.out ++ [s.cur] := rfl
  refine ⟨new ++ [x], by rw [hsent, hnew, List.append_assoc], ?_, ?_⟩
  · rw [hout, List.length_append, List.length_append, hlen]
    rfl
  · intro hall
    rw [hout, List.map_append, List.map_singleton] at hall
    obtain ⟨h1, h2⟩ := forall₂_concat (by rw [List.length_map, hlen]) hall
    rcases hbad with hbad | hbad
    · exact hbad h1
    · exact hbad.sent hgrec hx h2

theorem reportSubscr_mtu (h : Host) (i : Nat) (mca : In6Addr) (s : ReportLoop) (ipv6 : In6Addr) :
    ((reportSubscr h i mca s ipv6).st.intn i).mtu ≤ (s.st.intn i).mtu := by
  rcases ((reportSubscr_sendsOnly h i mca s ipv6).intn i).1 with hm | hm <;> omega

theorem Ruined.passed {h : Host} {st : Conf} {i mtu : Nat} {s : ReportLoop}
    (hr : Ruined h st i mtu s) (src : Option Nat) (touched : List (Nat × Nat)) :
    Ruined h st i mtu { s with src := src, touched := touched } := by
  obtain ⟨hle, new, hnew, hlen, hbad⟩ := hr
  exact ⟨hle, new, hnew, hlen, hbad.imp_right fun hs => hs.congr rfl rfl rfl rfl⟩

/-- Where something still fits into a spoiled packet, it is a stained one. -/
theorem Spoiled.stained {e : Endian} {mtu i : Nat} {s : ReportLoop} (hs : Spoiled e mtu s)
    (hle : (s.st.intn i).mtu ≤ mtu) {ipv6 : In6Addr} (hfull : reportFull e i s ipv6 = false) :
    Stained e s ∧ ∀ grec, s.grec = some grec → grec ≤ mtu := by
  refine ⟨hs.resolve_left fun ho => ?_, fun grec hgrec => ?_⟩
  · rw [ho.full hle] at hfull
    cases hfull
  · obtain ⟨g, hpend⟩ := hs.pending
    obtain rfl := Option.some.inj (hpend.pointer.symm.trans hgrec)
    have hlen := hpend.length_eq
    rw [reportFull, decide_eq_false_iff_not] at hfull
    omega

/-- **Nothing repairs a spoiled packet.** -/
theorem step_ruined {h : Host} {st : Conf} {i mtu : Nat} (hmtu : mtu < 4172) {s : ReportLoop}
    (hr : Ruined h st i mtu s) (x : ReportStep) : Ruined h st i mtu (reportStep h i s x) := by
  cases x with
  | group => exact hr.passed none s.touched
  | subscr mca ipv6 =>
    have hcases := reportSubscr_step h i mca s ipv6
    have hle' := Nat.le_trans (reportSubscr_mtu h i mca s ipv6) hr.1
    simp only [reportStep]
    generalize reportSubscr h i mca s ipv6 = s'' at hcases hle'
    cases hcases with
    | returned _ => exact hr
    | known _ _ hk =>
      generalize hb : false = b at hk
      cases hk with
      | noSource _ => cases hb
      | fresh _ _ _ _ _ _ => cases hb
      | noGrec _ _ => exact hr
      | collapse grec _ hgrec _ =>
        obtain ⟨-, new, hnew, hlen, hbad⟩ := hr
        exact ⟨hle', new, hnew, hlen, hbad.imp_right fun hs =>
          hs.imp (fun ho => ho.collapse hgrec) fun ho => ho.collapse hgrec⟩
      | dropped touched _ => exact hr.passed none touched
    | tooSmall _ hgrec _ =>
      obtain ⟨-, new, hnew, hlen, hbad⟩ := hr
      refine ⟨hle', new, hnew, hlen, hbad.imp_right fun hs => ?_⟩
      obtain ⟨grec, hpend⟩ := hs.pending
      exact absurd (hpend.pointer.symm.trans hgrec) (by simp)
    | split src touched grec _ _ hgrec _ =>
      obtain ⟨new, hnew, hlen, hbad⟩ := (hr.passed src touched).send hgrec
      refine ⟨hle', new, ?_, ?_, Or.inl ?_⟩
      · rw [reportAppend_st]
        exact hnew
      · rw [reportAppend_out]
        exact hlen
      · rw [reportAppend_out]
        exact hbad
    | opens _ _ hfull =>
      obtain ⟨hle, new, hnew, hlen, hbad⟩ := hr
      refine ⟨hle', new, by rw [reportAppend_st]; exact hnew,
        by rw [reportAppend_out]; exact hlen, ?_⟩
      rw [reportAppend_out]
      refine hbad.imp_right fun hs => Or.inr ?_
      obtain ⟨hstained, hplace⟩ := hs.stained hle hfull
      exact (hstained.newGrec (fun g hg => by have := hplace g hg; omega) mca).append ipv6
    | adds src touched _ _ _ _ _ _ hfull =>
      obtain ⟨hle, new, hnew, hlen, hbad⟩ := hr.passed (some src) touched
      refine ⟨hle', new, by rw [reportAppend_st]; exact hnew,
        by rw [reportAppend_out]; exact hlen, ?_⟩
      rw [reportAppend_out]
      exact hbad.imp_right fun hs => Or.inr ((hs.stained hle hfull).1.append ipv6)

/-- In the end a packet is sent that does not encode its records. -/
theorem Ruined.finish {h : Host} {st : Conf} {i mtu : Nat} {s : ReportLoop}
    (hr : Ruined h st i mtu s) : ∃ new, (reportFinish h i s).st.sent = st.sent ++ new ∧
      ¬ List.Forall₂ Encodes (reportFinish h i s).out (new.map Sent.packet) := by
  have hsend := fun grec (hgrec : s.grec = some grec) => hr.send hgrec
  obtain ⟨-, new, hnew, hlen, hbad⟩ := hr
  -- nothing is left to be sent only where no packet is under construction
  have hbroken : (s.returned = true ∨ h.endian.load16 s.packet reportNgrec = 0 ∨ s.grec = none) →
      ¬ List.Forall₂ Encodes s.out (new.map Sent.packet) := by
    intro hend
    refine hbad.resolve_right fun hs => ?_
    obtain ⟨grec, hpend⟩ := hs.pending
    rcases hend with hend | hend | hend
    · rw [hpend.returned] at hend
      cases hend
    · rw [hpend.ngrec] at hend
      exact hpend.nonempty (List.length_eq_zero_iff.mp hend)
    · rw [hpend.pointer] at hend
      cases hend
  unfold reportFinish
  split
  · rename_i hend
    exact ⟨new, hnew, hbroken (hend.imp_right Or.inl)⟩
  · split
    · rename_i hgrec
      exact ⟨new, hnew, hbroken (Or.inr (Or.inr hgrec))⟩
    · rename_i grec hgrec
      obtain ⟨new', hnew', -, hbad'⟩ := hsend grec hgrec
      exact ⟨new', hnew', hbad'⟩

end Ecmh
