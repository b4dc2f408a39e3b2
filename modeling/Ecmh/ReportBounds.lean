/-
# Where `mld2_send_report` writes

The buffer has the size of the MTU, and the test "Would adding it not fit?" asks for the room of a
source at most.  It does not ask for the header of a record that is started behind another one, nor
knows that its place is computed with the swapped count; and the loop "Don't add sources twice",
which looks behind the last source, comes before it.  `report_inBuffer_iff` is the exact account.
-/
import Ecmh.ReportEncoded

namespace Ecmh

open ByteMem

/-! ## 1. What a step touches

`touched` has every place that the code writes to or compares with, as an offset and a length.
Each step adds to it. -/

/-- Every place that was written or compared lies in the buffer. -/
def InBuffer (mtu : Nat) (s : ReportLoop) : Prop := ∀ a ∈ s.touched, a.1 + a.2 ≤ mtu

/-- The loop over the sources of the record at `grec` makes a round for the subscription. -/
def ScansAt (e : Endian) (s : ReportLoop) (ipv6 : In6Addr) (grec : Nat) : Prop :=
  s.src.isSome = true ∧ s.any = false ∧ ipv6 ≠ In6Addr.any ∧ s.nsrcs e grec ≠ 0

instance (e : Endian) (s : ReportLoop) (ipv6 : In6Addr) (grec : Nat) :
    Decidable (ScansAt e s ipv6 grec) := inferInstanceAs (Decidable (_ ∧ _))

section Touched

variable {e : Endian} {i mtu : Nat} {s : ReportLoop} {ipv6 : In6Addr} {grec : Nat}

theorem inBuffer_concat {a : Nat × Nat} :
    (∀ x ∈ s.touched ++ [a], x.1 + x.2 ≤ mtu) ↔ InBuffer mtu s ∧ a.1 + a.2 ≤ mtu := by
  rw [List.forall_mem_append, List.forall_mem_singleton]
  rfl

/-- Every round looks at the same place. -/
theorem reportScan_touched (slot : Nat) (ipv6 : In6Addr) (a : Nat × Nat) : ∀ (n : Nat)
    (s : ReportLoop), a ∈ (reportScan s slot ipv6 n).touched ↔
      a ∈ s.touched ∨ (s.src.isSome = true ∧ s.any = false ∧ n ≠ 0) ∧ a = (slot, 16) := by
  intro n
  induction n with
  | zero => simp [reportScan]
  | succ n ih =>
    intro s
    rw [reportScan]
    by_cases hany : s.any = true
    · simp [hany]
    · rw [if_neg hany]
      rw [Bool.not_eq_true] at hany
      cases hsrc : s.src with
      | none => simp
      | some src =>
        dsimp only
        split
        · simp [hany]
        · have hsame : a = (slot, 16) ∨ ¬ n = 0 ∧ a = (slot, 16) ↔ a = (slot, 16) :=
            or_iff_left_of_imp And.right
          rw [ih]
          simp [hany, or_assoc, hsame]

theorem reportCollapse_scan (slot : Nat) (n : Nat) :
    reportScan (reportCollapse e s grec) slot ipv6 n = reportCollapse e s grec := by
  cases n <;> simp [reportScan, reportCollapse]

/-- What the part under `if (src)` compares: the place behind the sources, or it writes to the
header of the record. -/
theorem reportKnown_inBuffer (hgrec : s.grec = some grec) (hplace : grec + 20 ≤ mtu) :
    InBuffer mtu (reportKnown e s ipv6).1 ↔
      InBuffer mtu s ∧ (ScansAt e s ipv6 grec → s.slot e grec + 16 ≤ mtu) := by
  unfold reportKnown
  cases hsrc : s.src with
  | none => simp [ScansAt, hsrc]
  | some src =>
    rw [hgrec]
    dsimp only
    by_cases hany : ipv6 = In6Addr.any
    · rw [if_pos (in6IsAddrUnspecified_iff.mpr hany), reportCollapse_scan]
      have htouched : (reportCollapse e s grec).touched = s.touched ++ [(grec, 4)] := rfl
      rw [InBuffer, htouched, inBuffer_concat]
      refine and_congr_right fun _ => ⟨fun _ hscan => absurd hany hscan.2.2.1, fun _ => ?_⟩
      dsimp only
      omega
    · rw [if_neg (by simpa using hany)]
      simp only [InBuffer, reportScan_touched, ScansAt, hsrc, Option.isSome_some, true_and]
      constructor
      · intro hall
        exact ⟨fun a ha => hall a (Or.inl ha), fun hscan =>
          hall (s.slot e grec, 16) (Or.inr ⟨⟨hscan.1, hscan.2.2⟩, rfl⟩)⟩
      · rintro ⟨hall, hscan⟩ a (ha | ⟨⟨h1, h2⟩, rfl⟩)
        · exact hall a ha
        · exact hscan ⟨h1, hany, h2⟩

theorem reportAppend_inBuffer (hgrec : s.grec = some grec) :
    InBuffer mtu (reportAppend e s ipv6) ↔
      InBuffer mtu s ∧ (ipv6 ≠ In6Addr.any → s.slot e grec + 16 ≤ mtu) := by
  by_cases hany : ipv6 = In6Addr.any
  · rw [reportAppend_any hgrec hany]
    exact (and_iff_left fun hne => absurd hany hne).symm
  · rw [reportAppend_source hgrec hany, InBuffer, inBuffer_concat]
    exact and_congr_right fun _ => ⟨fun hle _ => hle, fun hle => hle hany⟩

/-- A record is started: its header is written. -/
theorem reportNewGrec_inBuffer {p : Nat} {mca : In6Addr}
    (hp : (reportNewGrec e s mca).grec = some p) :
    InBuffer mtu (reportNewGrec e s mca) ↔ InBuffer mtu s ∧ p + 20 ≤ mtu := by
  have htouched : (reportNewGrec e s mca).touched = s.touched ++ [(p, 20)] := by
    unfold reportNewGrec at hp ⊢
    dsimp only at hp ⊢
    rw [Option.some.inj hp]
  rw [InBuffer, htouched, inBuffer_concat]

theorem touched_known {a : Nat × Nat} (ha : a ∈ s.touched) :
    a ∈ (reportKnown e s ipv6).1.touched := by
  unfold reportKnown
  split
  · exact ha
  · split
    · exact ha
    · dsimp only
      rw [reportScan_touched]
      split
      · exact Or.inl (List.mem_append_left _ ha)
      · exact Or.inl ha

theorem touched_append {a : Nat × Nat} (ha : a ∈ s.touched) :
    a ∈ (reportAppend e s ipv6).touched := by
  unfold reportAppend
  split
  · exact ha
  · split
    · exact ha
    · exact List.mem_append_left _ ha

theorem touched_newGrec {a : Nat × Nat} (ha : a ∈ s.touched) (mca : In6Addr) :
    a ∈ (reportNewGrec e s mca).touched := List.mem_append_left _ ha

end Touched

/-! ## 2. The packets that are sent -/

/-- The packet is not longer than the MTU, and as long as its header says. -/
def PacketFits (mtu : Nat) (packet : List UInt8) : Prop :=
  packet.length ≤ mtu ∧ packet.length = 40 + ofBe16 (packet.getD 4 0) (packet.getD 5 0)

instance (mtu : Nat) (packet : List UInt8) : Decidable (PacketFits mtu packet) :=
  inferInstanceAs (Decidable (_ ∧ _))

/-- The packets that were sent so far. -/
def SentFit (st : Conf) (mtu : Nat) (s : ReportLoop) : Prop :=
  ∃ new, s.st.sent = st.sent ++ new ∧ ∀ x ∈ new, PacketFits mtu x.packet

/-- What is true of the loop as long as it stays in the buffer: the record that is open ends in it,
and `any` is not set while a source may follow. -/
structure Within (e : Endian) (i mtu : Nat) (s : ReportLoop) : Prop where
  mtu_le : (s.st.intn i).mtu ≤ mtu
  src : s.src.isSome = true → s.any = false
  place : ∀ grec, s.grec = some grec → 56 ≤ grec ∧ s.slot e grec ≤ mtu
  inBuffer : InBuffer mtu s

section Within

variable {e : Endian} {i mtu : Nat} {s : ReportLoop} {ipv6 : In6Addr} {grec : Nat}

theorem Within.known (hs : Within e i mtu s) {s' : ReportLoop} {b : Bool}
    (hk : KnownStep e s ipv6 s' b) (hin : InBuffer mtu s') : Within e i mtu s' := by
  cases hk with
  | noSource _ => exact hs
  | noGrec _ _ => exact hs
  | collapse grec _ hgrec _ =>
    refine ⟨hs.mtu_le, fun hc => (by cases hc), fun g hg => ?_, hin⟩
    obtain rfl := Option.some.inj (hgrec.symm.trans hg)
    obtain ⟨hge, hslot⟩ := hs.place grec hgrec
    rw [ReportLoop.slot] at hslot
    rw [ReportLoop.slot, reportCollapse_nsrcs]
    exact ⟨hge, by omega⟩
  | dropped touched hit => exact ⟨hs.mtu_le, fun hc => (by cases hc), hs.place, hin⟩
  | fresh src touched hsrc _ _ _ => exact ⟨hs.mtu_le, fun _ => hs.src hsrc, hs.place, hin⟩

theorem Within.append (hs : Within e i mtu s) (hhigh : mtu ≤ 65535) (hgrec : s.grec = some grec)
    (hany : if ipv6 = In6Addr.any then s.src = none else s.any = false)
    (hin : InBuffer mtu (reportAppend e s ipv6)) : Within e i mtu (reportAppend e s ipv6) := by
  obtain ⟨hge, hslot⟩ := hs.place grec hgrec
  refine ⟨?_, ?_, fun g hg => ?_, hin⟩
  · rw [reportAppend_st]
    exact hs.mtu_le
  · by_cases hunspec : ipv6 = In6Addr.any
    · rw [if_pos hunspec] at hany
      rw [reportAppend_any hgrec hunspec, hany]
      intro hc
      cases hc
    · rw [if_neg hunspec] at hany
      rw [reportAppend_source hgrec hunspec]
      exact fun _ => hany
  · obtain rfl := Option.some.inj ((reportAppend_grec hgrec).symm.trans hg)
    refine ⟨hge, ?_⟩
    have hroom := ((reportAppend_inBuffer hgrec).mp hin).2
    rw [ReportLoop.slot] at hslot hroom ⊢
    rw [reportAppend_nsrcs hgrec]
    split
    · exact hslot
    · rename_i hunspec
      have := hroom hunspec
      omega

/-- A record is started where it fits. -/
theorem Within.newGrec (hs : Within e i mtu s) {mca : In6Addr} {p : Nat}
    (hp : (reportNewGrec e s mca).grec = some p) (hfit : p + 20 ≤ mtu) :
    Within e i mtu (reportNewGrec e s mca) ∧ (reportNewGrec e s mca).slot e p = p + 20 := by
  have hnew : 56 ≤ p ∧ (reportNewGrec e s mca).nsrcs e p = 0 := by
    cases hgrec : s.grec with
    | none =>
      obtain ⟨hfirst, hpacket⟩ := reportNewGrec_first (e := e) hgrec mca
      obtain rfl := Option.some.inj (hfirst.symm.trans hp)
      exact ⟨Nat.le_refl 56, reportNewGrec_nsrcs hpacket⟩
    | some grec =>
      have hge := (hs.place grec hgrec).1
      obtain ⟨hnext, hpacket⟩ := reportNewGrec_next (e := e) hgrec hge mca
      obtain rfl := Option.some.inj (hnext.symm.trans hp)
      exact ⟨by omega, reportNewGrec_nsrcs hpacket⟩
  have hslot : (reportNewGrec e s mca).slot e p = p + 20 := by
    rw [ReportLoop.slot, hnew.2]
  refine ⟨⟨hs.mtu_le, fun _ => rfl, fun g hg => ?_, ?_⟩, hslot⟩
  · obtain rfl := Option.some.inj (hp.symm.trans hg)
    rw [hslot]
    exact ⟨hnew.1, hfit⟩
  · exact (reportNewGrec_inBuffer hp).mpr ⟨hs.inBuffer, hfit⟩

/-- The length of a packet that ends in the buffer is the one in its header. -/
theorem SentFit.send {h : Host} {st : Conf} (hsent : SentFit st mtu s) (hgrec : s.grec = some grec)
    (hge : 56 ≤ grec) (hslot : s.slot h.endian grec ≤ mtu) (hhigh : mtu ≤ 65535) :
    SentFit st mtu (reportSend h i s grec) := by
  obtain ⟨new, hnew, hall⟩ := hsent
  obtain ⟨x, hx, hsent⟩ := reportSend_sent h i s grec
  have hlength : s.length h.endian + 40 = s.slot h.endian grec := by
    rw [ReportLoop.length, hgrec]
    dsimp only
    rw [ReportLoop.slot]
    omega
  have hslot20 : grec + 20 ≤ s.slot h.endian grec := by
    rw [ReportLoop.slot]
    omega
  have hplen : (reportSend h i s grec).packet.read 4 2 = be16 (s.length h.endian % 65536) := by
    obtain ⟨csum, hm⟩ := reportSend_packet h i s grec
    rw [hm, Endian.read_store16_disjoint _ _ _ (by omega),
      Endian.read_store16_disjoint _ _ _ (by omega), ip6Plen, Endian.read_store16_same,
      Endian.bytes16_htons]
  refine ⟨new ++ [x], by rw [hsent, hnew, List.append_assoc], ?_⟩
  rw [List.forall_mem_append, List.forall_mem_singleton]
  refine ⟨hall, ?_⟩
  rw [hx, PacketFits, Mem.length_read, Mem.getD_read _ (by omega), Mem.getD_read _ (by omega),
    Nat.zero_add, Nat.zero_add, ofBe16_of_read hplen]
  omega

/-- A record is started, and gets the subscription. -/
theorem Within.opens (hs : Within e i mtu s) (hhigh : mtu ≤ 65535) (hsrc : s.src = none)
    {mca : In6Addr} {p : Nat} (hp : (reportNewGrec e s mca).grec = some p) :
    (InBuffer mtu (reportAppend e (reportNewGrec e s mca) ipv6) ↔
      p + 20 + (if ipv6 = In6Addr.any then 0 else 16) ≤ mtu) ∧
    (InBuffer mtu (reportAppend e (reportNewGrec e s mca) ipv6) →
      Within e i mtu (reportAppend e (reportNewGrec e s mca) ipv6)) := by
  have hin : InBuffer mtu (reportAppend e (reportNewGrec e s mca) ipv6) ↔ _ ∧ _ :=
    reportAppend_inBuffer hp
  have hnew : InBuffer mtu (reportNewGrec e s mca) ↔ _ ∧ _ := reportNewGrec_inBuffer hp
  have hany : if ipv6 = In6Addr.any then (reportNewGrec e s mca).src = none
      else (reportNewGrec e s mca).any = false := by
    split
    · exact hsrc
    · rfl
  refine ⟨?_, fun hbuf => ?_⟩
  · rw [hin, hnew, and_iff_right hs.inBuffer]
    constructor
    · rintro ⟨hfit, hroom⟩
      rw [(hs.newGrec hp hfit).2] at hroom
      split
      · exact hfit
      · rename_i hunspec
        exact hroom hunspec
    · intro hle
      have hfit : p + 20 ≤ mtu := Nat.le_trans (Nat.le_add_right _ _) hle
      refine ⟨hfit, fun hunspec => ?_⟩
      rw [(hs.newGrec hp hfit).2]
      rwa [if_neg hunspec] at hle
  · exact (hs.newGrec hp (hnew.mp (hin.mp hbuf).1).2).1.append hhigh hp hany hbuf

/-- After a packet was sent the next one is empty. -/
theorem Within.reset {h : Host} (hs : Within h.endian i mtu s) :
    Within h.endian i mtu (reportReset h.endian (reportSend h i s grec)) := by
  refine ⟨?_, fun hc => (by cases hc), fun _ hc => (by cases hc), hs.inBuffer⟩
  rcases ((reportSend_sendsOnly h i s grec).intn i).1 with hm | hm
  · exact Nat.le_trans (Nat.le_of_eq hm) hs.mtu_le
  · exact Nat.le_trans (Nat.le_of_eq hm) (Nat.zero_le mtu)

end Within

/-! ## 3. One step

A step stays in the buffer exactly if it finds the room that it takes without asking (`HasRoom`).
Conversely a place outside is touched for good. -/

/-- What a subscription has to find, where a record is open: room for the source that is looked for
behind the last one, and for the header of a record that is started behind the open one, and its
source. -/
def HasRoom (h : Host) (i mtu : Nat) (s : ReportLoop) (ipv6 : In6Addr) : Prop :=
  ∀ grec ∈ s.grec,
    (ScansAt h.endian s ipv6 grec → s.slot h.endian grec + 16 ≤ mtu) ∧
    (s.src = none → reportFull h.endian i s ipv6 = false →
      grec + 20 + 16 * h.endian.htons (s.nsrcs h.endian grec) + 20 +
        (if ipv6 = In6Addr.any then 0 else 16) ≤ mtu)

instance (h : Host) (i mtu : Nat) (s : ReportLoop) (ipv6 : In6Addr) :
    Decidable (HasRoom h i mtu s ipv6) := inferInstanceAs (Decidable (∀ grec ∈ s.grec, _))

/-- The step finds the room that it takes. -/
def StepInBuffer (h : Host) (i mtu : Nat) (s : ReportLoop) : ReportStep → Prop
  | .group => True
  | .subscr _ ipv6 => s.returned = false → HasRoom h i mtu s ipv6

instance (h : Host) (i mtu : Nat) (s : ReportLoop) (x : ReportStep) :
    Decidable (StepInBuffer h i mtu s x) :=
  match x with
  | .group => .isTrue trivial
  | .subscr _ _ => inferInstanceAs (Decidable (_ → _))

section Step

variable {h : Host} {i mtu : Nat} {s : ReportLoop} {st : Conf}

/-- The packet is sent, and another one begun: the first record always fits. -/
theorem Within.split (hs : Within h.endian i mtu s) (hlow : 1280 ≤ mtu) (hhigh : mtu ≤ 65535)
    {grec : Nat} (mca ipv6 : In6Addr) :
    Within h.endian i mtu (reportAppend h.endian (reportNewGrec h.endian
      (reportReset h.endian (reportSend h i s grec)) mca) ipv6) := by
  have hempty : Within h.endian i mtu (reportReset h.endian (reportSend h i s grec)) := hs.reset
  have hfirst := (reportNewGrec_first (e := h.endian)
    (show (reportReset h.endian (reportSend h i s grec)).grec = none from rfl) mca).1
  refine (hempty.opens hhigh rfl hfirst).2 ((hempty.opens hhigh rfl hfirst).1.mpr ?_)
  simp only [sizeofReport]
  split <;> omega

/-- What is known of the subscriptions that the body goes on with. -/
theorem KnownStep.goes {ipv6 : In6Addr} {k : ReportLoop} (hk : KnownStep h.endian s ipv6 k true) :
    k = { s with src := k.src, touched := k.touched } ∧
      (s.src = none ∧ k = s ∨ s.src.isSome = true ∧ k.src.isSome = true ∧ ipv6 ≠ In6Addr.any ∧
        s.grec.isSome = true) := by
  generalize hb : true = b at hk
  cases hk with
  | noSource hsrc => exact ⟨rfl, Or.inl ⟨hsrc, rfl⟩⟩
  | noGrec _ _ => cases hb
  | collapse _ _ _ _ => cases hb
  | dropped _ _ => cases hb
  | fresh src touched hsrc hgrec hany _ => exact ⟨rfl, Or.inr ⟨hsrc, rfl, hany, hgrec⟩⟩

theorem KnownStep.stops {ipv6 : In6Addr} {k : ReportLoop} (hk : KnownStep h.endian s ipv6 k false) :
    s.src.isSome = true ∧ (s.grec = none → k = s) := by
  generalize hb : false = b at hk
  cases hk with
  | noSource _ => cases hb
  | noGrec hsrc _ => exact ⟨hsrc, fun _ => rfl⟩
  | collapse grec hsrc hgrec _ => exact ⟨hsrc, fun hc => nomatch hgrec.symm.trans hc⟩
  | dropped touched hit =>
    obtain ⟨grec, hgrec, hsrc, -⟩ := hit
    exact ⟨hsrc, fun hc => nomatch hgrec.symm.trans hc⟩
  | fresh _ _ _ _ _ _ => cases hb

/-- The ways through the body behind the part under `if (src)`, which left the state `k`. -/
inductive BodyEnds (h : Host) (i : Nat) (mca ipv6 : In6Addr) (k : ReportLoop) :
    Bool → ReportLoop → Prop
  | stops : BodyEnds h i mca ipv6 k false k
  | gives_up (hgrec : k.grec = none) : BodyEnds h i mca ipv6 k true { k with returned := true }
  | splits (grec : Nat) (hfull : reportFull h.endian i k ipv6 = true) (hgrec : k.grec = some grec) :
      BodyEnds h i mca ipv6 k true (reportAppend h.endian (reportNewGrec h.endian
        (reportReset h.endian (reportSend h i k grec)) mca) ipv6)
  | opens (hfull : reportFull h.endian i k ipv6 = false) (hsrc : k.src = none) :
      BodyEnds h i mca ipv6 k true (reportAppend h.endian (reportNewGrec h.endian k mca) ipv6)
  | adds (hfull : reportFull h.endian i k ipv6 = false) (hsrc : k.src.isSome = true) :
      BodyEnds h i mca ipv6 k true (reportAppend h.endian k ipv6)

theorem reportSubscr_ends (hret : s.returned = false) (mca ipv6 : In6Addr) :
    BodyEnds h i mca ipv6 (reportKnown h.endian s ipv6).1 (reportKnown h.endian s ipv6).2
      (reportSubscr h i mca s ipv6) := by
  unfold reportSubscr
  rw [if_neg (by rw [hret]; exact Bool.false_ne_true)]
  dsimp only
  generalize reportKnown h.endian s ipv6 = known
  obtain ⟨k, go⟩ := known
  dsimp only
  cases go with
  | false =>
    rw [if_pos (by rfl)]
    exact .stops
  | true =>
    rw [if_neg (by simp)]
    split
    · rename_i hfull
      split
      · rename_i hgrec
        exact .gives_up hgrec
      · rename_i grec hgrec
        exact .splits grec hfull hgrec
    · rename_i hfull
      rw [Bool.not_eq_true] at hfull
      cases hsrc : k.src with
      | none =>
        rw [if_pos (by rfl)]
        exact .opens hfull hsrc
      | some src =>
        rw [if_neg (by simp)]
        exact .adds hfull (by rw [hsrc]; rfl)

theorem hasRoom_of_closed {ipv6 : In6Addr} (hgrec : s.grec = none) : HasRoom h i mtu s ipv6 := by
  intro grec hc
  rw [hgrec] at hc
  cases hc

/-- With a source in the record only the place behind it matters. -/
theorem hasRoom_of_source {ipv6 : In6Addr} {grec : Nat} (hgrec : s.grec = some grec)
    (hsrc : s.src.isSome = true) : HasRoom h i mtu s ipv6 ↔
      (ScansAt h.endian s ipv6 grec → s.slot h.endian grec + 16 ≤ mtu) := by
  rw [HasRoom, hgrec]
  simp only [Option.mem_def, Option.some.injEq, forall_eq', Option.isSome_iff_ne_none.mp hsrc,
    false_implies, and_true]

/-- Without one only the next record does. -/
theorem hasRoom_of_none {ipv6 : In6Addr} {grec : Nat} (hgrec : s.grec = some grec)
    (hsrc : s.src = none) : HasRoom h i mtu s ipv6 ↔ (reportFull h.endian i s ipv6 = false →
      grec + 20 + 16 * h.endian.htons (s.nsrcs h.endian grec) + 20 +
        (if ipv6 = In6Addr.any then 0 else 16) ≤ mtu) := by
  rw [HasRoom, hgrec]
  simp [ScansAt, hsrc]

/-- A packet that is not full has room for a source. -/
theorem room_of_not_full {grec : Nat} {ipv6 : In6Addr} (hmtu : (s.st.intn i).mtu ≤ mtu)
    (hgrec : s.grec = some grec) (hany : s.any = false) (hne : ipv6 ≠ In6Addr.any)
    (hfull : reportFull h.endian i s ipv6 = false) : s.slot h.endian grec + 16 ≤ mtu := by
  have hunspec : in6IsAddrUnspecified ipv6 = false := by simpa using hne
  simp only [reportFull, ReportLoop.length, hgrec, hany, hunspec, Option.isSome_some,
    decide_eq_false_iff_not, ReportLoop.slot, Bool.or_false, Bool.false_eq_true, if_true,
    if_false] at hfull ⊢
  omega

section Body

variable {mca ipv6 : In6Addr} {k : ReportLoop}

/-- The part under `if (src)` has compared what it has room for. -/
theorem Within.knownRoom (hs : Within h.endian i mtu s) {grec : Nat} (hgrec : s.grec = some grec)
    (hsrc : s.src.isSome = true) :
    InBuffer mtu (reportKnown h.endian s ipv6).1 ↔ HasRoom h i mtu s ipv6 := by
  have hslot := (hs.place grec hgrec).2
  rw [ReportLoop.slot] at hslot
  rw [reportKnown_inBuffer hgrec (by omega), and_iff_right hs.inBuffer,
    hasRoom_of_source hgrec hsrc]

/-- The body stops behind the part under `if (src)`. -/
theorem Within.stopped (hs : Within h.endian i mtu s)
    (hstop : (reportKnown h.endian s ipv6).2 = false) :
    InBuffer mtu (reportKnown h.endian s ipv6).1 ↔ HasRoom h i mtu s ipv6 := by
  have hstep := reportKnown_step h.endian s ipv6
  rw [hstop] at hstep
  obtain ⟨hsrc, hnone⟩ := hstep.stops
  cases hgrec : s.grec with
  | none =>
    rw [hnone hgrec]
    exact iff_of_true hs.inBuffer (hasRoom_of_closed hgrec)
  | some grec => exact hs.knownRoom hgrec hsrc

/-- The body goes on, in a state that differs in `src` only. -/
theorem Within.goes (hs : Within h.endian i mtu s) (hgo : (reportKnown h.endian s ipv6).2 = true)
    (hk : (reportKnown h.endian s ipv6).1 = k) :
    k = { s with src := k.src, touched := k.touched } ∧
      (s.src = none ∧ k = s ∨ k.src.isSome = true ∧ ipv6 ≠ In6Addr.any ∧ s.any = false ∧
        ∃ grec, s.grec = some grec ∧ (InBuffer mtu k ↔ HasRoom h i mtu s ipv6)) := by
  have hstep := reportKnown_step h.endian s ipv6
  rw [hgo, hk] at hstep
  obtain ⟨heq, hnone | ⟨hsrc, hsome, hne, hgrec⟩⟩ := hstep.goes
  · exact ⟨heq, Or.inl hnone⟩
  · obtain ⟨grec, hgrec⟩ := Option.isSome_iff_exists.mp hgrec
    refine ⟨heq, Or.inr ⟨hsome, hne, hs.src hsrc, grec, hgrec, ?_⟩⟩
    rw [← hk]
    exact hs.knownRoom hgrec hsrc

end Body

/-- **What one subscription touches**: the step keeps in the buffer if it finds the room. -/
theorem reportSubscr_inBuffer (hs : Within h.endian i mtu s) (hlow : 1280 ≤ mtu)
    (hhigh : mtu ≤ 65535) (mca ipv6 : In6Addr) :
    (InBuffer mtu (reportSubscr h i mca s ipv6) ↔ StepInBuffer h i mtu s (.subscr mca ipv6)) ∧
    (InBuffer mtu (reportSubscr h i mca s ipv6) →
      Within h.endian i mtu (reportSubscr h i mca s ipv6)) := by
  cases hret : s.returned with
  | true =>
    have hsame : reportSubscr h i mca s ipv6 = s := if_pos hret
    rw [hsame]
    exact ⟨iff_of_true hs.inBuffer (fun hc => nomatch hret.symm.trans hc), fun _ => hs⟩
  | false =>
    have hcond : StepInBuffer h i mtu s (.subscr mca ipv6) ↔ HasRoom h i mtu s ipv6 :=
      ⟨fun hc => hc hret, fun hc _ => hc⟩
    have hknown : InBuffer mtu (reportKnown h.endian s ipv6).1 →
        Within h.endian i mtu (reportKnown h.endian s ipv6).1 :=
      hs.known (reportKnown_step h.endian s ipv6)
    have hstopped := @Within.stopped h i mtu s ipv6 hs
    have hgoes := @Within.goes h i mtu s ipv6 (reportKnown h.endian s ipv6).1 hs
    have hends := @reportSubscr_ends h i s hret mca ipv6
    rw [hcond]
    generalize reportSubscr h i mca s ipv6 = s' at hends ⊢
    generalize reportKnown h.endian s ipv6 = known at hends hknown hstopped hgoes
    obtain ⟨k, go⟩ := known
    dsimp only at hends hknown hstopped hgoes
    cases hends with
    | stops => exact ⟨hstopped rfl, hknown⟩
    | gives_up hgrec =>
      obtain ⟨heq, ⟨-, rfl⟩ | ⟨-, -, -, grec, hsome, -⟩⟩ := hgoes rfl rfl
      · exact ⟨iff_of_true hs.inBuffer (hasRoom_of_closed hgrec), fun _ =>
          ⟨hs.mtu_le, hs.src, hs.place, hs.inBuffer⟩⟩
      · exact nomatch (hgrec.symm.trans (congrArg ReportLoop.grec heq)).trans hsome
    | splits grec hfull hgrec =>
      obtain ⟨heq, hcase⟩ := hgoes rfl rfl
      -- what is begun behind the packet that is sent fits in any case
      have hsplit : InBuffer mtu (reportAppend h.endian (reportNewGrec h.endian
          (reportReset h.endian (reportSend h i k grec)) mca) ipv6) ↔ InBuffer mtu k := by
        constructor
        · exact fun hb a ha => hb a (touched_append (touched_newGrec
            (show a ∈ (reportReset h.endian (reportSend h i k grec)).touched from ha) mca))
        · exact fun hb => ((hknown hb).split hlow hhigh mca ipv6).inBuffer
      refine ⟨hsplit.trans ?_, fun hb => (hknown (hsplit.mp hb)).split hlow hhigh mca ipv6⟩
      rcases hcase with ⟨hsrc, rfl⟩ | ⟨-, -, -, g, -, hroom⟩
      · refine iff_of_true hs.inBuffer ((hasRoom_of_none hgrec hsrc).mpr fun hc => ?_)
        rw [hfull] at hc
        cases hc
      · exact hroom
    | opens hfull hsrc =>
      obtain ⟨-, ⟨-, rfl⟩ | ⟨hsome, -⟩⟩ := hgoes rfl rfl
      · cases hgrec : k.grec with
        | none =>
          obtain ⟨hiff, hwithin⟩ := @Within.opens h.endian i mtu k ipv6 hs hhigh hsrc mca _
            (reportNewGrec_first hgrec mca).1
          refine ⟨hiff.trans (iff_of_true ?_ (hasRoom_of_closed hgrec)), hwithin⟩
          simp only [sizeofReport]
          split <;> omega
        | some grec =>
          obtain ⟨hiff, hwithin⟩ := @Within.opens h.endian i mtu k ipv6 hs hhigh hsrc mca _
            (reportNewGrec_next hgrec (hs.place grec hgrec).1 mca).1
          rw [hasRoom_of_none hgrec hsrc]
          exact ⟨hiff.trans ⟨fun hle _ => hle, fun hc => hc hfull⟩, hwithin⟩
      · rw [hsrc] at hsome
        cases hsome
    | adds hfull hsrc =>
      obtain ⟨heq, ⟨hnone, rfl⟩ | ⟨-, hne, hany, grec, hgrec, hroom⟩⟩ := hgoes rfl rfl
      · rw [hnone] at hsrc
        cases hsrc
      · have hgrec' : k.grec = some grec := (congrArg ReportLoop.grec heq).trans hgrec
        have hany' : k.any = false := (congrArg ReportLoop.any heq).trans hany
        have happend : InBuffer mtu (reportAppend h.endian k ipv6) ↔ InBuffer mtu k := by
          rw [reportAppend_inBuffer hgrec']
          refine and_iff_left fun _ => room_of_not_full ?_ hgrec' hany' hne hfull
          rw [congrArg ReportLoop.st heq]
          exact hs.mtu_le
        refine ⟨happend.trans hroom, fun hb =>
          (hknown (happend.mp hb)).append hhigh hgrec' ?_ hb⟩
        rw [if_neg hne]
        exact hany'

theorem reportSubscr_sentFit (hs : Within h.endian i mtu s) (hhigh : mtu ≤ 65535)
    (hsent : SentFit st mtu s) (mca ipv6 : In6Addr) :
    SentFit st mtu (reportSubscr h i mca s ipv6) := by
  have hstep := reportSubscr_step h i mca s ipv6
  generalize reportSubscr h i mca s ipv6 = s' at hstep
  cases hstep with
  | returned _ => exact hsent
  | known _ _ hk =>
    cases hk with
    | noGrec _ _ => exact hsent
    | collapse _ _ _ _ => exact hsent
    | dropped _ _ => exact hsent
  | tooSmall _ _ _ => exact hsent
  | split src touched grec _ _ hgrec _ =>
    obtain ⟨hge, hslot⟩ := hs.place grec hgrec
    rw [SentFit, reportAppend_st]
    have hpassed : SentFit st mtu { s with src := src, touched := touched } := hsent
    exact hpassed.send hgrec hge hslot hhigh
  | opens _ _ _ =>
    rw [SentFit, reportAppend_st]
    exact hsent
  | adds src touched _ _ _ _ _ _ _ =>
    rw [SentFit, reportAppend_st]
    exact hsent

theorem touched_step {a : Nat × Nat} (ha : a ∈ s.touched) (x : ReportStep) :
    a ∈ (reportStep h i s x).touched := by
  cases x with
  | group => exact ha
  | subscr mca ipv6 =>
    show a ∈ (reportSubscr h i mca s ipv6).touched
    cases hret : s.returned with
    | true =>
      have hsame : reportSubscr h i mca s ipv6 = s := if_pos hret
      rw [hsame]
      exact ha
    | false =>
      have hends := @reportSubscr_ends h i s hret mca ipv6
      have hk : a ∈ (reportKnown h.endian s ipv6).1.touched := touched_known ha
      generalize reportSubscr h i mca s ipv6 = s' at hends ⊢
      generalize (reportKnown h.endian s ipv6).2 = go at hends
      cases hends with
      | stops => exact hk
      | gives_up _ => exact hk
      | splits grec _ _ => exact touched_append (touched_newGrec
          (show a ∈ (reportReset h.endian (reportSend h i _ grec)).touched from hk) mca)
      | opens _ _ => exact touched_append (touched_newGrec hk mca)
      | adds _ _ => exact touched_append hk

/-- **One step of the loops.** -/
theorem reportStep_inBuffer (hs : Within h.endian i mtu s) (hlow : 1280 ≤ mtu) (hhigh : mtu ≤ 65535)
    (x : ReportStep) :
    (InBuffer mtu (reportStep h i s x) ↔ StepInBuffer h i mtu s x) ∧
    (InBuffer mtu (reportStep h i s x) → Within h.endian i mtu (reportStep h i s x)) := by
  cases x with
  | group =>
    refine ⟨iff_of_true hs.inBuffer trivial, fun _ => ?_⟩
    exact ⟨hs.mtu_le, fun hc => (by cases hc), hs.place, hs.inBuffer⟩
  | subscr mca ipv6 => exact reportSubscr_inBuffer hs hlow hhigh mca ipv6

theorem reportStep_sentFit (hs : Within h.endian i mtu s) (hhigh : mtu ≤ 65535)
    (hsent : SentFit st mtu s) (x : ReportStep) : SentFit st mtu (reportStep h i s x) := by
  cases x with
  | group => exact hsent
  | subscr mca ipv6 => exact reportSubscr_sentFit hs hhigh hsent mca ipv6

theorem reportFinish_sentFit (hs : Within h.endian i mtu s) (hhigh : mtu ≤ 65535)
    (hsent : SentFit st mtu s) : SentFit st mtu (reportFinish h i s) := by
  unfold reportFinish
  split
  · exact hsent
  · split
    · exact hsent
    · rename_i grec hgrec
      obtain ⟨hge, hslot⟩ := hs.place grec hgrec
      exact hsent.send hgrec hge hslot hhigh

theorem reportFinish_touched (s : ReportLoop) : (reportFinish h i s).touched = s.touched := by
  unfold reportFinish
  split
  · rfl
  · split <;> rfl

end Step

/-! ## 4. The whole call -/

/-- The law: every place that the call writes or compares lies in the buffer, and every packet that
it sends is not longer than the MTU, and as long as its header says. -/
def CallInBuffer (h : Host) (st : Conf) (i : Nat) (mca : Option In6Addr) : Prop :=
  InBuffer (st.intn i).mtu (reportFinish h i (reportLoops h st i mca)) ∧
    ∀ packet ∈ callPackets h st i mca, PacketFits (st.intn i).mtu packet

section Call

variable {h : Host} {st : Conf} {i : Nat} {mca : Option In6Addr}

theorem reportInit_within : Within h.endian i (st.intn i).mtu (reportInit h st i) :=
  ⟨Nat.le_refl _, fun hc => (by cases hc), fun _ hc => (by cases hc),
    fun a ha => absurd ha List.not_mem_nil⟩

/-- The places that the loops touch: what was touched once stays in the list. -/
theorem reportLoops_inBuffer_iff (hlow : 1280 ≤ (st.intn i).mtu) (hhigh : (st.intn i).mtu ≤ 65535) :
    InBuffer (st.intn i).mtu (reportLoops h st i mca) ↔
      Runs.StepsMeet (reportStep h i) (StepInBuffer h i (st.intn i).mtu) (reportInit h st i)
        (callSteps st i mca) := by
  have hback : ∀ s x, InBuffer (st.intn i).mtu (reportStep h i s x) →
      InBuffer (st.intn i).mtu s := fun s x hb a ha => hb a (touched_step ha x)
  have hstart : Within h.endian i (st.intn i).mtu (reportInit h st i) := reportInit_within
  rw [reportLoops_eq_run, ← callSteps, ← Runs.always_iff_last hback]
  refine Runs.always_iff_stepsMeet_of (A := fun _ _ => True) (fun s x hs _ hx => ?_)
    (fun s x hs _ => (reportStep_inBuffer hs hlow hhigh x).1) _ _ hstart hstart.inBuffer
    (Runs.stepsMeet_true _ _)
  obtain ⟨hiff, hwithin⟩ := reportStep_inBuffer hs hlow hhigh x
  exact hwithin (hiff.mpr hx)

/-- What the loops leave, where all steps find room. -/
theorem reportLoops_within (hlow : 1280 ≤ (st.intn i).mtu) (hhigh : (st.intn i).mtu ≤ 65535)
    (hsteps : Runs.StepsMeet (reportStep h i) (StepInBuffer h i (st.intn i).mtu)
      (reportInit h st i) (callSteps st i mca)) :
    Within h.endian i (st.intn i).mtu (reportLoops h st i mca) ∧
      SentFit st (st.intn i).mtu (reportLoops h st i mca) := by
  have hstart : SentFit st (st.intn i).mtu (reportInit h st i) :=
    ⟨[], by rw [List.append_nil]; rfl, fun x hx => absurd hx List.not_mem_nil⟩
  rw [reportLoops_eq_run]
  refine (Runs.always_of_stepsMeet (P := fun s => Within h.endian i (st.intn i).mtu s ∧
    SentFit st (st.intn i).mtu s) (fun s x hs hx => ?_) _ _ ⟨reportInit_within, hstart⟩ hsteps).last
  obtain ⟨hiff, hwithin⟩ := reportStep_inBuffer hs.1 hlow hhigh x
  exact ⟨hwithin (hiff.mpr hx), reportStep_sentFit hs.1 hhigh hs.2 x⟩

/-- **When `mld2_send_report` stays in its buffer**: if every step of the loops finds the room that
it takes. -/
theorem report_inBuffer_iff (hlow : 1280 ≤ (st.intn i).mtu) (hhigh : (st.intn i).mtu ≤ 65535) :
    CallInBuffer h st i mca ↔
      Runs.StepsMeet (reportStep h i) (StepInBuffer h i (st.intn i).mtu) (reportInit h st i)
        (callSteps st i mca) := by
  have hplaces := @reportLoops_inBuffer_iff h st i mca hlow hhigh
  rw [CallInBuffer, InBuffer, reportFinish_touched]
  refine ⟨fun hcall => hplaces.mp hcall.1, fun hsteps => ⟨hplaces.mpr hsteps, ?_⟩⟩
  obtain ⟨hwithin, hsent⟩ := reportLoops_within hlow hhigh hsteps
  obtain ⟨new, hnew, hall⟩ := reportFinish_sentFit hwithin hhigh hsent
  rw [callPackets, mld2SendReport, if_neg (by simp only [sizeofReport]; omega), hnew,
    List.drop_left]
  intro packet hpacket
  obtain ⟨x, hx, rfl⟩ := List.mem_map.mp hpacket
  exact hall x hx

end Call

/-- On a big-endian machine the second record fits behind the first one. -/
theorem two_groups_inBuffer : CallInBuffer (quietHost .big) (stateTwoGroups .big) 2 none :=
  (report_inBuffer_iff (by decide +kernel) (by decide +kernel)).mpr (by decide +kernel)

/-- A link that asks for a source in each of two groups, and another one of the same MTU. -/
def stateEthernet : Conf :=
  run (quietHost .little) (boot (quietHost .little) plainOptions 0 none)
    [.frame 0 (mldFrame 1 (mld2ReportMessage [includeRecord 1 1, includeRecord 2 1])),
      .create 1 2 ethernetProbe]

/-- On a little-endian machine its header is written 2672 bytes behind the buffer. -/
theorem ethernet_overflow : Reachable (quietHost .little) stateEthernet ∧
    (stateEthernet.intn 2).mtu = 1500 ∧
    ¬ CallInBuffer (quietHost .little) stateEthernet 2 none := by
  refine ⟨⟨plainOptions, 0, none, _, rfl⟩, by decide +kernel, fun hcall => ?_⟩
  have hmtu : (stateEthernet.intn 2).mtu = 1500 := by decide +kernel
  have htouched : (4172, 20) ∈ (reportFinish (quietHost .little) 2
      (reportLoops (quietHost .little) stateEthernet 2 none)).touched := by
    decide +kernel
  have hle := hcall.1 (4172, 20) htouched
  rw [hmtu] at hle
  exact absurd hle (by decide)

end Ecmh
