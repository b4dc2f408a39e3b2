/-
# The IPv4 aliases of an interface

The scan stores the IPv4 addresses of an interface in the four slots of `ipv4_local`.  It compares
and copies sixteen bytes for an address of four: the twelve behind it are those of `sin_zero` and
four more of the stack, and in the structure the slots that follow, `ipv4_remote` and the beginning
of `linklocal`.  `recorded` is the memory that should come of it, and `Fits` says that the twelve
bytes are the same on both sides; `aliases_iff`: this is exactly when the addresses are recorded
without damage.
-/
import Ecmh.BpfTable
import Mathlib.Data.List.GetD

namespace Ecmh.Bpf

open ByteMem

/-! ## 1. What should be recorded -/

/-- The addresses of a list, each where it comes first. -/
def distinct (seen : List InAddr) : List InAddr :=
  seen.foldl (fun found a => if a ∈ found then found else found ++ [a]) []

/-- The bytes from `ipv4_local` on, once the addresses have been recorded: the first four of them,
then zeros up to `ipv4_remote`, and nothing else is changed. -/
def recorded (m : Mem) (found : List InAddr) : Mem := fun k =>
  if k < 4 * intnodeMaxipv4 then (found.getD (k / 4) inAddrAny).getD (k % 4) 0 else m k

/-- The interface with the addresses recorded. -/
structure Recorded (before : IntNode) (seen : List InAddr) (intn : IntNode) : Prop where
  slots : ∀ num, num < intnodeMaxipv4 → intn.ipv4Local num = (distinct seen).getD num inAddrAny
  behind : ∀ k, 4 * intnodeMaxipv4 ≤ k → intn.addrs k = before.addrs k
  rest : intn = { before with addrs := intn.addrs }

/-- The IPv4 address at the beginning of the variable `addr`. -/
def ipv4Of (addr : In6Addr) : InAddr := addr.s6Addr.take 4

/-- The twelve bytes behind the address are the ones that stand behind the slot it belongs to: the
one it has been recorded in, or the next one; or all slots are taken. -/
def Fits (m : Mem) (seen : List InAddr) (addr : In6Addr) : Prop :=
  intnodeMaxipv4 ≤ (distinct seen).length ∨
  (recorded m (distinct seen)).read (4 * (distinct seen).idxOf (ipv4Of addr) + 4) 12
    = addr.s6Addr.drop 4

instance (m : Mem) (seen : List InAddr) (addr : In6Addr) : Decidable (Fits m seen addr) :=
  inferInstanceAs (Decidable (_ ∨ _))

theorem distinct_concat (seen : List InAddr) (a : InAddr) : distinct (seen ++ [a])
    = if a ∈ distinct seen then distinct seen else distinct seen ++ [a] := by
  rw [distinct, List.foldl_concat]
  rfl

/-- The addresses found are among those seen, and none is there twice. -/
theorem distinct_spec (seen : List InAddr) :
    (distinct seen).Nodup ∧ ∀ a ∈ distinct seen, a ∈ seen := by
  induction seen using List.reverseRecOn with
  | nil => exact ⟨List.nodup_nil, fun _ h => h⟩
  | append_singleton seen a ih =>
    rw [distinct_concat]
    split
    · exact ⟨ih.1, fun b hb => List.mem_append_left _ (ih.2 b hb)⟩
    · rename_i ha
      refine ⟨ih.1.append (List.nodup_singleton a) ?_, fun b hb => ?_⟩
      · rwa [List.disjoint_singleton]
      · rcases List.mem_append.mp hb with hb | hb
        · exact List.mem_append_left _ (ih.2 b hb)
        · exact List.mem_append_right _ hb

/-! ## 2. Memory -/

/-- The rest of a write changes nothing where it is there already. -/
theorem write_append_eq_iff (m : Mem) (off : Nat) (a b : List UInt8) :
    m.write off (a ++ b) = m.write off a ↔ m.read (off + a.length) b.length = b := by
  have hin : ∀ j, j < b.length →
      m.write off (a ++ b) (off + a.length + j) = b.getD j 0 ∧
        m.write off a (off + a.length + j) = m (off + a.length + j) := by
    intro j hj
    constructor
    · rw [Nat.add_assoc, Mem.write_apply_at m off _ (by simpa using hj), List.getD_append_right]
      · simp
      · omega
    · exact Mem.write_apply_of_ge m a (by omega)
  constructor
  · intro h
    refine List.ext_getElem? fun j => ?_
    rcases Nat.lt_or_ge j b.length with hj | hj
    · obtain ⟨h1, h2⟩ := hin j hj
      rw [Mem.getElem?_read m _ _ j hj, ← h2, ← h, h1, List.getElem?_eq_getElem hj]
      simp [hj]
    · rw [List.getElem?_eq_none (by simpa using hj), List.getElem?_eq_none hj]
  · intro h
    funext k
    rcases Nat.lt_or_ge k off with hk | hk
    · rw [Mem.write_apply_of_lt m _ hk, Mem.write_apply_of_lt m _ hk]
    rcases Nat.lt_or_ge k (off + a.length) with hka | hka
    · obtain ⟨j, rfl⟩ := Nat.exists_eq_add_of_le hk
      rw [Mem.write_apply_at m off _ (by simp; omega), Mem.write_apply_at m off _ (by omega),
        List.getD_append _ _ _ _ (by omega)]
    rcases Nat.lt_or_ge k (off + a.length + b.length) with hkb | hkb
    · obtain ⟨j, rfl⟩ := Nat.exists_eq_add_of_le hka
      obtain ⟨h1, h2⟩ := hin j (by omega)
      rw [h1, h2, ← Mem.getD_read m (by omega : j < b.length), h]
    · rw [Mem.write_apply_of_ge m _ (by simp; omega), Mem.write_apply_of_ge m _ hka]

section

variable (m : Mem) {found : List InAddr} (h4 : ∀ a ∈ found, a.length = 4)

include h4 in
theorem length_getD (num : Nat) : (found.getD num inAddrAny).length = 4 := by
  rcases Nat.lt_or_ge num found.length with h | h
  · rw [List.getD_eq_getElem _ _ h]
    exact h4 _ (List.getElem_mem h)
  · rw [Slots.getD_of_length_le h]
    rfl

include h4 in
/-- The slots of a recorded memory. -/
theorem recorded_slot {num : Nat} (hnum : num < intnodeMaxipv4) :
    (recorded m found).read (4 * num) 4 = found.getD num inAddrAny := by
  have hlen := length_getD h4 num
  refine List.ext_getElem? fun j => ?_
  rcases Nat.lt_or_ge j 4 with hj | hj
  · have hlt : 4 * num + j < 4 * intnodeMaxipv4 := by omega
    have hdiv : (4 * num + j) / 4 = num := by omega
    have hmod : (4 * num + j) % 4 = j := by omega
    rw [Mem.getElem?_read _ _ _ j hj, recorded, if_pos hlt, hdiv, hmod,
      List.getElem?_eq_getElem (by omega), List.getD_eq_getElem _ _ (by omega)]
  · rw [List.getElem?_eq_none (by simpa using hj), List.getElem?_eq_none (by omega)]

/-- One more address is recorded in the next slot. -/
theorem recorded_concat {a : InAddr} (ha : a.length = 4) (hlt : found.length < intnodeMaxipv4) :
    recorded m (found ++ [a]) = (recorded m found).write (4 * found.length) a := by
  funext k
  rcases Nat.lt_or_ge k (4 * found.length) with hk | hk
  · rw [Mem.write_apply_of_lt _ _ hk, recorded, recorded,
      List.getD_append _ _ _ _ (by omega)]
  rcases Nat.lt_or_ge k (4 * found.length + 4) with hk' | hk'
  · obtain ⟨j, rfl⟩ := Nat.exists_eq_add_of_le hk
    have hdiv : (4 * found.length + j) / 4 = found.length := by omega
    have hmod : (4 * found.length + j) % 4 = j := by omega
    rw [Mem.write_apply_at _ _ _ (by omega), recorded, if_pos (by omega), hdiv, hmod,
      List.getD_append_right _ _ _ _ (Nat.le_refl _), Nat.sub_self]
    rfl
  · rw [Mem.write_apply_of_ge _ _ (by omega), recorded, recorded,
      Slots.getD_of_length_le (l := found ++ [a]) (i := k / 4) (by simp; omega),
      Slots.getD_of_length_le (l := found) (i := k / 4) (by omega)]

end

/-! ## 3. The search of a slot -/

/-- Slots that hold other addresses are passed. -/
theorem ipv4Slot_append {m : Mem} {addr : In6Addr} : ∀ (pre post : List Nat),
    (∀ num ∈ pre, m.read (4 * num) 4 ≠ inAddrAny ∧ m.read (4 * num) 16 ≠ addr.s6Addr) →
    ipv4Slot m addr false (pre ++ post) = ipv4Slot m addr false post
  | [], _, _ => rfl
  | num :: pre, post, h => by
    obtain ⟨hany, hne⟩ := h num List.mem_cons_self
    rw [List.cons_append, ipv4Slot, if_neg hany, if_neg hne, if_neg Bool.false_ne_true]
    exact ipv4Slot_append pre post fun k hk => h k (List.mem_cons_of_mem num hk)

/-- Where all slots are taken, none is found. -/
theorem ipv4Slot_full {m : Mem} {addr : In6Addr} : ∀ (nums : List Nat),
    (∀ num ∈ nums, m.read (4 * num) 4 ≠ inAddrAny) → ipv4Slot m addr false nums = none
  | [], _ => rfl
  | num :: nums, h => by
    rw [ipv4Slot, if_neg (h num List.mem_cons_self), if_neg Bool.false_ne_true]
    split
    · rfl
    · exact ipv4Slot_full nums fun k hk => h k (List.mem_cons_of_mem num hk)

theorem range_split {n k : Nat} (h : n < k) :
    ∃ post, List.range k = List.range n ++ n :: post := by
  obtain ⟨d, rfl⟩ := Nat.exists_eq_add_of_lt h
  refine ⟨List.range' (n + 1) d, ?_⟩
  rw [List.range_eq_range', List.range_eq_range', Nat.add_assoc, ← List.range'_append_1,
    Nat.zero_add]
  rfl

/-! ## 4. One address -/

/-- What the scan leaves of the bytes from `ipv4_local` on. -/
def storeAddr (m : Mem) (addr : In6Addr) : Mem :=
  match ipv4Slot m addr false (List.range intnodeMaxipv4) with
  | some num => m.write (4 * num) addr.s6Addr
  | none => m

section

variable {found : List InAddr} {m : Mem} {addr : In6Addr}

/-- Every address recorded so far has four bytes, and is not 0.0.0.0. -/
def Addresses (found : List InAddr) : Prop := ∀ a ∈ found, a.length = 4 ∧ a ≠ inAddrAny

theorem length_ipv4Of (addr : In6Addr) : (ipv4Of addr).length = 4 := by
  simp [ipv4Of, addr.size]

theorem ipv4Of_append (addr : In6Addr) : ipv4Of addr ++ addr.s6Addr.drop 4 = addr.s6Addr :=
  List.take_append_drop 4 addr.s6Addr

/-- Sixteen bytes of a slot are the variable `addr` if the slot holds the address and the rest is
the same. -/
theorem read16_eq_iff (m : Mem) (off : Nat) (addr : In6Addr) : m.read off 16 = addr.s6Addr ↔
    m.read off 4 = ipv4Of addr ∧ m.read (off + 4) 12 = addr.s6Addr.drop 4 := by
  rw [show (16 : Nat) = 4 + 12 by rfl, Mem.read_add]
  constructor
  · intro h
    rw [ipv4Of, ← h]
    exact ⟨(List.take_left' (Mem.length_read m off 4)).symm,
      (List.drop_left' (Mem.length_read m off 4)).symm⟩
  · rintro ⟨h1, h2⟩
    rw [h1, h2, ipv4Of_append]

theorem slot_ne_any (hf : Addresses found) {num : Nat} (hnum : num < found.length)
    (h4 : num < intnodeMaxipv4) : (recorded m found).read (4 * num) 4 ≠ inAddrAny := by
  rw [recorded_slot m (fun a ha => (hf a ha).1) h4, List.getD_eq_getElem _ _ hnum]
  exact (hf _ (List.getElem_mem hnum)).2

/-- The next slot is found where the address is not recognised before. -/
theorem storeAddr_next (hf : Addresses found) (hlt : found.length < intnodeMaxipv4)
    (hnew : ∀ num, num < found.length →
      (recorded m found).read (4 * num) 16 ≠ addr.s6Addr) :
    storeAddr (recorded m found) addr
      = (recorded m found).write (4 * found.length) addr.s6Addr := by
  obtain ⟨post, hsplit⟩ := range_split hlt
  have hempty : (recorded m found).read (4 * found.length) 4 = inAddrAny := by
    rw [recorded_slot m (fun a ha => (hf a ha).1) hlt, Slots.getD_of_length_le (Nat.le_refl _)]
  have hslot : ipv4Slot (recorded m found) addr false (List.range intnodeMaxipv4)
      = some found.length := by
    rw [hsplit, ipv4Slot_append _ _ fun num hnum => ?_, ipv4Slot, if_pos hempty]
    have hnum := List.mem_range.mp hnum
    exact ⟨slot_ne_any hf hnum (by omega), hnew num hnum⟩
  rw [storeAddr, hslot]

/-- An address that is recognised is not stored again. -/
theorem storeAddr_found (hf : Addresses found) (hlt : found.length < intnodeMaxipv4) {p : Nat}
    (hp : p < found.length)
    (hbefore : ∀ num, num < p → (recorded m found).read (4 * num) 16 ≠ addr.s6Addr)
    (heq : (recorded m found).read (4 * p) 16 = addr.s6Addr) :
    storeAddr (recorded m found) addr = recorded m found := by
  obtain ⟨post, hsplit⟩ := range_split (Nat.lt_trans hp hlt)
  have hslot : ipv4Slot (recorded m found) addr false (List.range intnodeMaxipv4) = none := by
    rw [hsplit, ipv4Slot_append _ _ fun num hnum => ?_, ipv4Slot,
      if_neg (slot_ne_any hf hp (by omega)), if_pos heq]
    have hnum := List.mem_range.mp hnum
    exact ⟨slot_ne_any hf (by omega) (by omega), hbefore num hnum⟩
  rw [storeAddr, hslot]

/-- Where all slots are taken, nothing is stored. -/
theorem storeAddr_full (hf : Addresses found) (hge : intnodeMaxipv4 ≤ found.length) :
    storeAddr (recorded m found) addr = recorded m found := by
  have hslot : ipv4Slot (recorded m found) addr false (List.range intnodeMaxipv4) = none :=
    ipv4Slot_full _ fun num hnum =>
      slot_ne_any hf (Nat.lt_of_lt_of_le (List.mem_range.mp hnum) hge) (List.mem_range.mp hnum)
  rw [storeAddr, hslot]

/-- A slot that holds another address is not taken for this one. -/
theorem read16_ne (hf : Addresses found) {num : Nat} (hnum : num < found.length)
    (h4 : num < intnodeMaxipv4) (hne : found[num] ≠ ipv4Of addr) :
    (recorded m found).read (4 * num) 16 ≠ addr.s6Addr := by
  rw [Ne, read16_eq_iff, recorded_slot m (fun a ha => (hf a ha).1) h4,
    List.getD_eq_getElem _ _ hnum]
  exact fun h => hne h.1

/-- **One address** is recorded without damage exactly when the twelve bytes fit. -/
theorem storeAddr_iff {seen : List InAddr} (hf : Addresses (distinct seen))
    (hany : ipv4Of addr ≠ inAddrAny) :
    storeAddr (recorded m (distinct seen)) addr
      = recorded m (distinct (seen ++ [ipv4Of addr])) ↔ Fits m seen addr := by
  have h4 : ∀ a ∈ distinct seen, a.length = 4 := fun a ha => (hf a ha).1
  rw [distinct_concat]
  rcases Nat.lt_or_ge (distinct seen).length intnodeMaxipv4 with hlt | hge
  · have hfits : Fits m seen addr ↔ (recorded m (distinct seen)).read
        (4 * (distinct seen).idxOf (ipv4Of addr) + 4) 12 = addr.s6Addr.drop 4 :=
      or_iff_right (Nat.not_le.mpr hlt)
    rw [hfits]
    by_cases hmem : ipv4Of addr ∈ distinct seen
    · -- the address has been recorded before, in slot `p`
      rw [if_pos hmem]
      have hp := List.idxOf_lt_length_iff.mpr hmem
      have hbefore : ∀ num, num < (distinct seen).idxOf (ipv4Of addr) →
          (recorded m (distinct seen)).read (4 * num) 16 ≠ addr.s6Addr := fun num hnum =>
        read16_ne hf (by omega) (by omega) (by simpa using List.not_of_lt_findIdx hnum)
      have hslot : (recorded m (distinct seen)).read
          (4 * (distinct seen).idxOf (ipv4Of addr)) 4 = ipv4Of addr := by
        rw [recorded_slot m h4 (by omega), List.getD_eq_getElem _ _ hp, List.getElem_idxOf]
      have hsame := read16_eq_iff (recorded m (distinct seen))
        (4 * (distinct seen).idxOf (ipv4Of addr)) addr
      rw [← and_iff_right hslot (b := _ = List.drop 4 _), ← hsame]
      constructor
      · intro hstore
        by_contra hne
        -- the address would be stored a second time, in the next slot
        have hnew : ∀ num, num < (distinct seen).length →
            (recorded m (distinct seen)).read (4 * num) 16 ≠ addr.s6Addr := by
          intro num hnum
          by_cases hpos : num = (distinct seen).idxOf (ipv4Of addr)
          · rwa [hpos]
          · refine read16_ne hf hnum (by omega) fun heq => hpos ?_
            rw [← heq, (distinct_spec seen).1.idxOf_getElem num hnum]
        rw [storeAddr_next hf hlt hnew] at hstore
        have hwritten := ((read16_eq_iff _ _ addr).mp (Mem.read_write_same'
          (recorded m (distinct seen)) (4 * (distinct seen).length) 16 addr.s6Addr addr.size)).1
        rw [hstore, recorded_slot m h4 hlt, Slots.getD_of_length_le (Nat.le_refl _)] at hwritten
        exact hany hwritten.symm
      · exact storeAddr_found hf hlt hp hbefore
    · rw [if_neg hmem, List.idxOf_eq_length hmem, recorded_concat m (length_ipv4Of addr) hlt,
        storeAddr_next hf hlt fun num hnum =>
          read16_ne hf hnum (by omega) fun h => hmem (h ▸ List.getElem_mem hnum)]
      have hwrite := write_append_eq_iff (recorded m (distinct seen)) (4 * (distinct seen).length)
        (ipv4Of addr) (addr.s6Addr.drop 4)
      rw [ipv4Of_append, length_ipv4Of, List.length_drop, addr.size] at hwrite
      exact hwrite
  · rw [storeAddr_full hf hge]
    refine iff_of_true ?_ (Or.inl hge)
    split
    · rfl
    · funext k
      unfold recorded
      split
      · rw [List.getD_append _ _ _ _ (by omega)]
      · rfl

end

/-! ## 5. All addresses of an interface -/

/-- An entry with an IPv4 address for the interface, which is up and running and not
point-to-point. -/
structure IsAlias (i : Nat) (ifa : IfAddr) : Prop where
  ifindex : ifa.ifindex = i
  up : ifa.up = true
  running : ifa.running = true
  loopback : ifa.loopback = false
  family : ifa.family = some .inet
  pointopoint : ifa.pointopoint = false
  addr : ipv4Of ifa.addr ≠ inAddrAny

/-- An entry of the scan, and the addresses seen so far. -/
def aliasStep (freed : IntPtr → IntNode) (s : Conf × List InAddr) (ifa : IfAddr) :
    Conf × List InAddr :=
  (scanEntry freed s.1 ifa, s.2 ++ [ipv4Of ifa.addr])

theorem localUpdate_ints (freed : IntPtr → IntNode) (st : Conf) (i : Nat) :
    (localUpdate freed st i).ints = st.ints := by
  refine Runs.foldl_frame Conf.ints (fun st num => ?_) _ st
  split
  · rfl
  · split <;> rfl

/-- What the entry does to its interface. -/
theorem scanEntry_alias (freed : IntPtr → IntNode) {st : Conf} {i : Nat} {ifa : IfAddr}
    (hlive : (st.intn i).mtu ≠ 0) (ha : IsAlias i ifa) : (scanEntry freed st ifa).intn i
      = { st.intn i with addrs := storeAddr (st.intn i).addrs ifa.addr } := by
  have hlt := lt_maxinterfaces hlive
  have hskip : scanSkips ifa.toIfAddr = false := by
    simp [scanSkips, ha.family, ha.up, ha.running, ha.loopback]
  have hfind : intFind st ifa.ifindex = some ifa.ifindex := by
    rw [ha.ifindex]
    exact if_neg (not_or.mpr ⟨Nat.not_le.mpr hlt, hlive⟩)
  have hinet6 : ifa.family ≠ some .inet6 := by
    rw [ha.family]
    decide
  unfold scanEntry
  rw [hskip, if_neg Bool.false_ne_true, hfind, ha.ifindex]
  dsimp only
  unfold scanStore storeIpv4 storeAddr
  rw [if_neg hinet6, if_pos ha.family, ha.pointopoint]
  rcases ipv4Slot (st.intn i).addrs ifa.addr false (List.range intnodeMaxipv4) with - | num
  · rfl
  · dsimp only
    rw [if_pos (by rfl), Conf.intn, localUpdate_ints]
    exact setInt_intn_self hlt _

theorem recorded_iff {before intn : IntNode} {seen : List InAddr}
    (hf : Addresses (distinct seen)) : Recorded before seen intn ↔
      intn = { before with addrs := recorded before.addrs (distinct seen) } := by
  have h4 : ∀ a ∈ distinct seen, a.length = 4 := fun a ha => (hf a ha).1
  constructor
  · rintro ⟨hslots, hbehind, hrest⟩
    have haddrs : intn.addrs = recorded before.addrs (distinct seen) := by
      funext k
      rcases Nat.lt_or_ge k (4 * intnodeMaxipv4) with hk | hk
      · have hslot := hslots (k / 4) (by omega)
        have hrec := recorded_slot before.addrs h4 (show k / 4 < intnodeMaxipv4 by omega)
        have hsame := Mem.eq_of_read_eq (hslot.trans hrec.symm) (i := k % 4) (by omega)
        rwa [Nat.div_add_mod] at hsame
      · rw [hbehind k hk, recorded, if_neg (Nat.not_lt.mpr hk)]
    rw [hrest, haddrs]
  · rintro rfl
    exact ⟨fun num hnum => recorded_slot before.addrs h4 hnum,
      fun k hk => if_neg (Nat.not_lt.mpr hk), rfl⟩

theorem Addresses.concat {seen : List InAddr} (hf : Addresses (distinct seen)) {addr : In6Addr}
    (hany : ipv4Of addr ≠ inAddrAny) : Addresses (distinct (seen ++ [ipv4Of addr])) := by
  rw [distinct_concat]
  split
  · exact hf
  · intro a ha
    rcases List.mem_append.mp ha with ha | ha
    · exact hf a ha
    · rw [List.mem_singleton.mp ha]
      exact ⟨length_ipv4Of addr, hany⟩

/-- One entry of the scan. -/
theorem aliasStep_iff (freed : IntPtr → IntNode) {before : IntNode} {i : Nat}
    {s : Conf × List InAddr} {ifa : IfAddr} (hlive : before.mtu ≠ 0) (ha : IsAlias i ifa)
    (hrec : Recorded before s.2 (s.1.intn i)) (hf : Addresses (distinct s.2)) :
    Recorded before (aliasStep freed s ifa).2 ((aliasStep freed s ifa).1.intn i) ↔
      Fits before.addrs s.2 ifa.addr := by
  have hslot := (recorded_iff hf).mp hrec
  have hmtu : (s.1.intn i).mtu ≠ 0 := by rwa [hslot]
  rw [← storeAddr_iff hf ha.addr, aliasStep, recorded_iff (hf.concat ha.addr),
    scanEntry_alias freed hmtu ha, hslot]
  constructor
  · exact fun h => congrArg IntNode.addrs h
  · exact fun h => by rw [h]

/-- **The IPv4 aliases of an interface.**  For every sequence of IPv4 addresses that the scan finds
for an interface whose slots are empty: the addresses are recorded without damage, all along,
exactly when the twelve bytes behind each of them fit. -/
theorem aliases_iff (freed : IntPtr → IntNode) {st : Conf} {i : Nat} {l : List IfAddr}
    (hlive : (st.intn i).mtu ≠ 0)
    (hempty : ∀ num, num < intnodeMaxipv4 → (st.intn i).ipv4Local num = inAddrAny)
    (hl : ∀ ifa ∈ l, IsAlias i ifa) :
    Runs.Always (aliasStep freed) (fun s => Recorded (st.intn i) s.2 (s.1.intn i)) (st, []) l ↔
      Runs.StepsMeet (aliasStep freed) (fun s ifa => Fits (st.intn i).addrs s.2 ifa.addr)
        (st, []) l := by
  have hstart : Recorded (st.intn i) [] (st.intn i) := ⟨hempty, fun _ _ => rfl, rfl⟩
  refine Runs.always_iff_stepsMeet_of (A := fun _ ifa => IsAlias i ifa)
    (I := fun s => Recorded (st.intn i) s.2 (s.1.intn i) ∧ Addresses (distinct s.2)) ?_ ?_ l
    (st, []) ⟨hstart, fun _ ha => (nomatch ha)⟩ hstart ?_
  · rintro s ifa ⟨hrec, hf⟩ ha hfits
    exact ⟨(aliasStep_iff freed hlive ha hrec hf).mpr hfits, hf.concat ha.addr⟩
  · rintro s ifa ⟨hrec, hf⟩ ha
    exact aliasStep_iff freed hlive ha hrec hf
  · rintro pre ifa post rfl
    exact hl ifa (by simp)

/-- The daemon with the default options, and an Ethernet interface. -/
def oneDevice : Conf :=
  (intCreate (init ⟨none, true, true⟩) 1 false ethernetProbe (deviceProbe 3)).1

/-- An entry with the address 192.0.2.x, and nothing but zeros behind it. -/
def aliasEntry (x : UInt8) : IfAddr :=
  { ifindex := 1, up := true, running := true, loopback := false, family := some .inet
    addr := ⟨[192, 0, 2, x] ++ List.replicate 12 0, rfl⟩, probe := ethernetProbe
    pointopoint := false, bpf := deviceProbe 4 }

theorem two_aliases_recorded : Runs.Always (aliasStep fun _ => IntNode.zero)
    (fun s => Recorded (oneDevice.intn 1) s.2 (s.1.intn 1)) (oneDevice, [])
    [aliasEntry 1, aliasEntry 2] :=
  (aliases_iff _ (by decide) (by decide) (by
    intro ifa h
    rcases List.mem_pair.mp h with rfl | rfl <;>
      exact ⟨rfl, rfl, rfl, rfl, rfl, rfl, by decide⟩)).mpr (by decide)

/-- The first of two addresses, found again, is stored a second time. -/
theorem alias_stored_twice : ¬ Recorded (oneDevice.intn 1) [[192, 0, 2, 1], [192, 0, 2, 2],
    [192, 0, 2, 1]] (([aliasEntry 1, aliasEntry 2, aliasEntry 1].foldl
      (scanEntry fun _ => IntNode.zero) oneDevice).intn 1) := by
  intro h
  have htwice := h.slots 2 (by decide)
  revert htwice
  decide

end Ecmh.Bpf
