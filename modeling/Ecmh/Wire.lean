/-
# The MLDv2 group record on the wire

`struct mld2_grec` and what follows it in a packet (`mld.h`): a header of 20 bytes, 16 bytes for
each source, and the auxiliary data in 32-bit words; counts are in network order.  `encode` lays a
record out and `decodeGrec` takes one off the front of a list of bytes; the length fields are part
of the type, so that every record has an encoding and decoding undoes it (`decodeGrecs_encode`).

This is the format itself, independent of how the daemon reads it (`mld2Grecs`) or writes it
(`mld2SendReport`); the two are compared with it in later modules.
-/
import Ecmh.Addr

namespace Ecmh

open ByteMem

/-! ## 1. Records -/

/-- A group record whose counts fit their fields. -/
structure WireGrec where
  grecType : UInt8
  mca : In6Addr
  srcs : List In6Addr
  aux : List UInt8
  srcs_lt : srcs.length < 65536
  aux_words : aux.length % 4 = 0 ∧ aux.length ≤ 1020
  deriving DecidableEq

namespace WireGrec

/-- `auxwords`. -/
def auxwords (r : WireGrec) : Nat := r.aux.length / 4

/-- The number of words fits its byte. -/
theorem auxwords_lt (r : WireGrec) : r.auxwords < 256 := by
  have := r.aux_words
  unfold auxwords
  omega

/-- Auxiliary data is counted in words of four bytes. -/
theorem length_aux (r : WireGrec) : r.aux.length = 4 * r.auxwords := by
  have := r.aux_words
  unfold auxwords
  omega

/-- The bytes of a record. -/
def encode (r : WireGrec) : List UInt8 :=
  [r.grecType, UInt8.ofNat r.auxwords] ++ be16 r.srcs.length ++ r.mca.s6Addr ++
    r.srcs.flatMap In6Addr.s6Addr ++ r.aux

theorem noSrcs_lt : ([] : List In6Addr).length < 65536 := by decide

theorem noAux_words :
    ([] : List UInt8).length % 4 = 0 ∧ ([] : List UInt8).length ≤ 1020 := by decide

/-- A record with at most one source, and without auxiliary data. -/
def plain (grecType : UInt8) (mca : In6Addr) (src : Option In6Addr) : WireGrec where
  grecType := grecType
  mca := mca
  srcs := src.toList
  aux := []
  srcs_lt := by cases src <;> simp
  aux_words := noAux_words

end WireGrec

@[simp] theorem length_s6Addr (a : In6Addr) : a.s6Addr.length = 16 := a.size

/-- Sixteen bytes for each source. -/
theorem length_flatMap_s6Addr (l : List In6Addr) :
    (l.flatMap In6Addr.s6Addr).length = 16 * l.length := by
  induction l with
  | nil => rfl
  | cons a l ih =>
    rw [List.flatMap_cons, List.length_append, ih, length_s6Addr, List.length_cons]
    omega

/-- The length of a record is told by its two counts. -/
theorem WireGrec.length_encode (r : WireGrec) :
    r.encode.length = 20 + 16 * r.srcs.length + 4 * r.auxwords := by
  simp only [encode, List.length_append, length_be16, length_s6Addr, length_flatMap_s6Addr,
    length_aux, List.length_cons, List.length_nil]

/-- The bytes of the records of a report, laid end to end. -/
def encodeGrecs (rs : List WireGrec) : List UInt8 := rs.flatMap WireGrec.encode

@[simp] theorem encodeGrecs_nil : encodeGrecs [] = [] := rfl

theorem encodeGrecs_cons (r : WireGrec) (rs : List WireGrec) :
    encodeGrecs (r :: rs) = r.encode ++ encodeGrecs rs := rfl

theorem encodeGrecs_append (rs ss : List WireGrec) :
    encodeGrecs (rs ++ ss) = encodeGrecs rs ++ encodeGrecs ss := List.flatMap_append

/-- A record has at least its header. -/
theorem length_encodeGrecs_ge (rs : List WireGrec) : 20 * rs.length ≤ (encodeGrecs rs).length := by
  induction rs with
  | nil => exact Nat.le_refl 0
  | cons r rs ih =>
    rw [encodeGrecs_cons, List.length_append, r.length_encode, List.length_cons]
    omega

/-! ## 2. Decoding -/

/-- The `n` addresses at the front of a list of bytes. -/
def takeAddrs : Nat → List UInt8 → List In6Addr
  | 0, _ => []
  | n + 1, bs => In6Addr.ofBytes (bs.take 16) :: takeAddrs n (bs.drop 16)

theorem length_takeAddrs : ∀ (n : Nat) (bs : List UInt8), (takeAddrs n bs).length = n
  | 0, _ => rfl
  | n + 1, bs => by rw [takeAddrs, List.length_cons, length_takeAddrs n]

/-- An address is its sixteen bytes. -/
theorem ofBytes_s6Addr (a : In6Addr) : In6Addr.ofBytes a.s6Addr = a := by
  rw [In6Addr.ofBytes, dif_pos a.size]

/-- The sources are read back, whatever follows them. -/
theorem takeAddrs_flatMap : ∀ (l : List In6Addr) (rest : List UInt8),
    takeAddrs l.length (l.flatMap In6Addr.s6Addr ++ rest) = l
  | [], _ => rfl
  | a :: l, rest => by
    rw [List.length_cons, takeAddrs, List.flatMap_cons, List.append_assoc,
      List.take_left' a.size, List.drop_left' a.size, ofBytes_s6Addr, takeAddrs_flatMap l rest]

/-- A count of sources is below 2¹⁶. -/
theorem ofBe16_getD_lt (bs : List UInt8) : ofBe16 (bs.getD 2 0) (bs.getD 3 0) < 65536 :=
  ofBe16_lt _ _

/-- One record off the front. -/
def decodeGrec (bs : List UInt8) : Option (WireGrec × List UInt8) :=
  if h : 20 + 16 * ofBe16 (bs.getD 2 0) (bs.getD 3 0) + 4 * (bs.getD 1 0).toNat ≤ bs.length then
    some ({
      grecType := bs.getD 0 0
      mca := In6Addr.ofBytes ((bs.drop 4).take 16)
      srcs := takeAddrs (ofBe16 (bs.getD 2 0) (bs.getD 3 0)) (bs.drop 20)
      aux := (bs.drop (20 + 16 * ofBe16 (bs.getD 2 0) (bs.getD 3 0))).take (4 * (bs.getD 1 0).toNat)
      srcs_lt := by rw [length_takeAddrs]; exact ofBe16_getD_lt bs
      aux_words := by
        have := (bs.getD 1 0).toNat_lt
        rw [List.length_take, List.length_drop]
        omega },
      bs.drop (20 + 16 * ofBe16 (bs.getD 2 0) (bs.getD 3 0) + 4 * (bs.getD 1 0).toNat))
  else none

/-- `ngrec` records, one after the other. -/
def decodeGrecs : Nat → List UInt8 → Option (List WireGrec × List UInt8)
  | 0, bs => some ([], bs)
  | n + 1, bs =>
    match decodeGrec bs with
    | none => none
    | some (r, bs) =>
      match decodeGrecs n bs with
      | none => none
      | some (rs, bs) => some (r :: rs, bs)

/-- The header fields of an encoded record, wherever its bytes stand. -/
theorem getD_encode (r : WireGrec) (rest : List UInt8) :
    (r.encode ++ rest).getD 0 0 = r.grecType ∧
    ((r.encode ++ rest).getD 1 0).toNat = r.auxwords ∧
    ofBe16 ((r.encode ++ rest).getD 2 0) ((r.encode ++ rest).getD 3 0) = r.srcs.length := by
  refine ⟨rfl, ?_, ?_⟩
  · show (UInt8.ofNat r.auxwords).toNat = r.auxwords
    rw [toNat_ofNat8, Nat.mod_eq_of_lt r.auxwords_lt]
  · show ofBe16 (UInt8.ofNat (r.srcs.length / 256)) (UInt8.ofNat r.srcs.length) = r.srcs.length
    rw [ofBe16_be16, Nat.mod_eq_of_lt r.srcs_lt]

/-- **A record is read back**, whatever follows it. -/
theorem decodeGrec_encode (r : WireGrec) (rest : List UInt8) :
    decodeGrec (r.encode ++ rest) = some (r, rest) := by
  obtain ⟨h0, h1, h2⟩ := getD_encode r rest
  have hlen := r.length_encode
  have hsplit : r.encode ++ rest = [r.grecType, UInt8.ofNat r.auxwords,
      UInt8.ofNat (r.srcs.length / 256), UInt8.ofNat r.srcs.length] ++ (r.mca.s6Addr ++
      (r.srcs.flatMap In6Addr.s6Addr ++ (r.aux ++ rest))) := by
    simp [WireGrec.encode, be16, List.append_assoc]
  have hsrcs : (r.encode ++ rest).drop 20
      = r.srcs.flatMap In6Addr.s6Addr ++ (r.aux ++ rest) := by
    rw [hsplit, ← List.append_assoc]
    exact List.drop_left' (by simp)
  have haux : (r.encode ++ rest).drop (20 + 16 * r.srcs.length) = r.aux ++ rest := by
    rw [← List.drop_drop, hsrcs]
    exact List.drop_left' (length_flatMap_s6Addr _)
  unfold decodeGrec
  rw [dif_pos (by rw [h1, h2, List.length_append, hlen]; omega)]
  simp only [h0, h1, h2, hsrcs, haux]
  congr 2
  · have hmca : ((r.encode ++ rest).drop 4).take 16 = r.mca.s6Addr := by
      rw [hsplit]
      exact List.take_left' r.mca.size
    congr 1
    · rw [hmca, ofBytes_s6Addr]
    · exact takeAddrs_flatMap _ _
    · exact List.take_left' r.length_aux
  · rw [← hlen]
    exact List.drop_left

/-- So is a list of them, if their number is known. -/
theorem decodeGrecs_encode (rest : List UInt8) : ∀ rs : List WireGrec,
    decodeGrecs rs.length (encodeGrecs rs ++ rest) = some (rs, rest)
  | [] => rfl
  | r :: rs => by
    rw [List.length_cons, decodeGrecs, encodeGrecs_cons, List.append_assoc, decodeGrec_encode]
    dsimp only
    rw [decodeGrecs_encode rest rs]

/-! ## 3. What is accepted is well formed -/

/-- Sixteen bytes are an address. -/
theorem s6Addr_ofBytes {bs : List UInt8} (h : bs.length = 16) :
    (In6Addr.ofBytes bs).s6Addr = bs := by
  rw [In6Addr.ofBytes, dif_pos h]

/-- What is read as sources is there, byte for byte. -/
theorem flatMap_takeAddrs : ∀ (n : Nat) (bs : List UInt8), 16 * n ≤ bs.length →
    (takeAddrs n bs).flatMap In6Addr.s6Addr = bs.take (16 * n) := by
  intro n
  induction n with
  | zero => exact fun _ _ => rfl
  | succ n ih =>
    intro bs h
    rw [takeAddrs, List.flatMap_cons, ih _ (by rw [List.length_drop]; omega),
      s6Addr_ofBytes (by rw [List.length_take]; omega), show 16 * (n + 1) = 16 + 16 * n by omega,
      List.take_add]

/-- The first four bytes of a list, one by one. -/
theorem take_four {bs : List UInt8} (h : 4 ≤ bs.length) :
    bs.take 4 = [bs.getD 0 0, bs.getD 1 0, bs.getD 2 0, bs.getD 3 0] := by
  match bs, h with
  | a :: b :: c :: d :: bs, _ => rfl

theorem drop_split (bs : List UInt8) (a k : Nat) :
    bs.drop a = (bs.drop a).take k ++ bs.drop (a + k) := by
  rw [← List.drop_drop, List.take_append_drop]

/-- A record that is decoded stands at the front of the bytes. -/
theorem encode_of_decodeGrec {bs rest : List UInt8} {r : WireGrec}
    (h : decodeGrec bs = some (r, rest)) : bs = r.encode ++ rest := by
  unfold decodeGrec at h
  split at h
  · rename_i hlen
    rw [Option.some.injEq, Prod.mk.injEq] at h
    obtain ⟨rfl, rfl⟩ := h
    have hbe := be16_ofBe16 (bs.getD 2 0) (bs.getD 3 0)
    simp only [WireGrec.encode, WireGrec.auxwords, length_takeAddrs, List.length_take,
      List.length_drop]
    generalize ofBe16 (bs.getD 2 0) (bs.getD 3 0) = n at hlen hbe ⊢
    have hwords : (4 * (bs.getD 1 0).toNat) / 4 = (bs.getD 1 0).toNat := by omega
    -- the bytes in pieces, as the fields of the record take them
    have hpieces : bs = bs.take 4 ++ ((bs.drop 4).take 16 ++ ((bs.drop 20).take (16 * n) ++
        ((bs.drop (20 + 16 * n)).take (4 * (bs.getD 1 0).toNat) ++
          bs.drop (20 + 16 * n + 4 * (bs.getD 1 0).toNat)))) := by
      rw [← drop_split bs (20 + 16 * n), ← drop_split bs 20, ← drop_split bs 4 16,
        List.take_append_drop]
    rw [take_four (by omega)] at hpieces
    rw [hbe, s6Addr_ofBytes (by rw [List.length_take, List.length_drop]; omega),
      flatMap_takeAddrs n _ (by rw [List.length_drop]; omega),
      Nat.min_eq_left (by omega), hwords, UInt8.ofNat_toNat]
    simpa [List.append_assoc] using hpieces
  · cases h

/-- What is decoded is the encoding of the records that it is decoded to. -/
theorem encodeGrecs_of_decode : ∀ {n : Nat} {bs rest : List UInt8} {rs : List WireGrec},
    decodeGrecs n bs = some (rs, rest) → bs = encodeGrecs rs ++ rest ∧ rs.length = n := by
  intro n
  induction n with
  | zero =>
    intro bs rest rs h
    simp only [decodeGrecs, Option.some.injEq, Prod.mk.injEq] at h
    obtain ⟨rfl, rfl⟩ := h
    exact ⟨rfl, rfl⟩
  | succ n ih =>
    intro bs rest rs h
    rw [decodeGrecs] at h
    split at h
    · cases h
    · rename_i r bs' hr
      split at h
      · cases h
      · rename_i rs' rest' hrs
        simp only [Option.some.injEq, Prod.mk.injEq] at h
        obtain ⟨rfl, rfl⟩ := h
        obtain ⟨hbs', hlen⟩ := ih hrs
        refine ⟨?_, by rw [List.length_cons, hlen]⟩
        rw [encode_of_decodeGrec hr, hbs', encodeGrecs_cons, List.append_assoc]

/-! ## 4. A report packet -/

/-- The next headers and the ICMPv6 type of an MLDv2 report with a hop-by-hop header of eight
bytes. -/
def isReportPacket (packet : List UInt8) : Bool :=
  packet.getD 6 0 = 0 && packet.getD 40 0 = 58 && packet.getD 41 0 = 0 && packet.getD 48 0 = 143

/-- The records of a whole packet: as many as `ngrec` says, and as many bytes as `ip6_plen`
says. -/
def decodeReport (packet : List UInt8) : Option (List WireGrec) :=
  if isReportPacket packet ∧
      40 + ofBe16 (packet.getD 4 0) (packet.getD 5 0) = packet.length then
    match decodeGrecs (ofBe16 (packet.getD 54 0) (packet.getD 55 0)) (packet.drop 56) with
    | some (rs, []) => some rs
    | _ => none
  else none

/-- **What is accepted as a report**, spelled out: its type, its length, the number of its records,
and their bytes. -/
theorem decodeReport_eq_some {packet : List UInt8} {rs : List WireGrec} :
    decodeReport packet = some rs ↔ isReportPacket packet = true ∧
      40 + ofBe16 (packet.getD 4 0) (packet.getD 5 0) = packet.length ∧
      ofBe16 (packet.getD 54 0) (packet.getD 55 0) = rs.length ∧
      packet.drop 56 = encodeGrecs rs := by
  unfold decodeReport
  constructor
  · intro h
    split at h
    · rename_i hhead
      split at h
      · rename_i rs' hrs
        cases h
        obtain ⟨hbytes, hlen⟩ := encodeGrecs_of_decode hrs
        rw [List.append_nil] at hbytes
        exact ⟨hhead.1, hhead.2, hlen.symm, hbytes⟩
      · cases h
    · cases h
  · rintro ⟨hhead, hplen, hngrec, hbytes⟩
    have hdec := decodeGrecs_encode [] rs
    rw [List.append_nil] at hdec
    rw [if_pos ⟨hhead, hplen⟩, hngrec, hbytes, hdec]

end Ecmh
