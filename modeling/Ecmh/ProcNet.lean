/-
# Interfaces from `/proc/net/if_inet6`

Built without `ECMH_GETIFADDR`, `update_interfaces` reads the addresses of the machine from a text
file with a line for each of them, and takes from there on the way that the entries of `getifaddrs`
take in the other build.

* **The two builds agree** (`proc_scan_agrees`): a file in the format that the source gives leaves
  what a list of the same addresses leaves, on interfaces that are up, running and no loopbacks.
* **A line that does not begin with an address ends the daemon** (`proc_scan_aborts_iff`).  The
  source means to ignore broken lines, but looks at the address first, by `nibble2int`, which has an
  assertion for what is no digit.
-/
import Ecmh.Daemon
import Ecmh.Lib.Stdio

namespace Ecmh

open ByteMem Stdio

/-! ## 1. A line -/

/-- `tolower`, in the C locale. -/
def tolower (c : UInt8) : UInt8 := if 65 ≤ c.toNat ∧ c.toNat ≤ 90 then c + 32 else c

/-- `nibble2int`; `none` is the assertion that fails. -/
def nibble2int (c : UInt8) : Option UInt8 :=
  let c := tolower c
  if 48 ≤ c.toNat ∧ c.toNat ≤ 57 then some (c - 48)
  else if 97 ≤ c.toNat ∧ c.toNat ≤ 102 then some (c - 97 + 10)
  else none

/-- The loop over the bytes of the address, of which `n` are left. -/
def procBytes (buf : Mem) : Nat → Nat → Option (List UInt8)
  | _, 0 => some []
  | off, n + 1 => do
    let high ← nibble2int (buf off)
    let low ← nibble2int (buf (off + 1))
    let bytes ← procBytes buf (off + 2) n
    some (((high <<< 4) + low) :: bytes)

/-- `sizeof(buf)`. -/
def procBufSize : Nat := 256

/-- The string at the offset, up to its NUL or the end of the buffer. -/
def procString (buf : Mem) (off : Nat) : List UInt8 :=
  (buf.read off (procBufSize - off)).takeWhile (· ≠ 0)

/-- `sscanf` with `"%x %x %x %x %8s"`: the index, if all five are there. -/
def procFields (big : Nat → Nat) (s : List UInt8) : Option Nat := do
  let (ifindex, s) ← scanX big s
  let (_, s) ← scanX big (skipSpace s)
  let (_, s) ← scanX big (skipSpace s)
  let (_, s) ← scanX big (skipSpace s)
  let _ ← scanS 8 (skipSpace s)
  some ifindex

/-- What becomes of a line: the daemon is gone, the line is ignored, or it is an entry. -/
inductive ProcLine
  | aborted
  | broken
  | entry (ifindex : Nat) (addr : In6Addr)
  deriving DecidableEq

def procLine (big : Nat → Nat) (buf : Mem) : ProcLine :=
  match procBytes buf 0 16 with
  | none => .aborted
  | some bytes =>
    match procFields big (procString buf 33) with
    | none => .broken
    | some ifindex => .entry ifindex (In6Addr.ofBytes bytes)

/-- `fgets` puts the line in front of what the buffer holds. -/
def procFgets (buf : Mem) (line : List UInt8) : Mem := buf.write 0 (line ++ [0])

/-! ## 2. `update_interfaces` -/

/-- "Skip everything we don't care about". -/
def procSkips (addr : In6Addr) : Bool :=
  !in6IsAddrLinklocal addr &&
    (in6IsAddrUnspecified addr || in6IsAddrLoopback addr || in6IsAddrMulticast addr)

/-- The address is stored in slot `i`. -/
def procStore (s : ScanLoop) (i : Nat) (addr : In6Addr) : ScanLoop :=
  if in6IsAddrLinklocal addr then
    { s with
      st := s.st.setInt i (fun intn => { intn with linklocal := addr })
      gotlinkl := true }
  else
    { s with
      st := s.st.setInt i (fun intn => { intn with global := addr })
      gotglobal := true }

/-- An entry, in the loop for all interfaces. -/
def procEntry (st : Conf) (ifindex : Nat) (addr : In6Addr) (probe : IfProbe) : Conf :=
  if procSkips addr then st
  else match intFind st ifindex with
    | some i => (procStore ⟨st, false, false⟩ i addr).st
    | none =>
      match intCreate st ifindex probe with
      | (st, none) => st
      | (st, some i) =>
        let s := procStore ⟨st, false, false⟩ i addr
        if s.gotlinkl || s.gotglobal then s.st else intDestroy s.st i

/-- The loop for all interfaces, at line `n`; `none` where the daemon is gone. -/
def procAll (big : Nat → Nat) (probe : Nat → IfProbe) :
    Conf → Mem → Nat → List (List UInt8) → Option Conf
  | st, _, _, [] => some st
  | st, buf, n, line :: lines =>
    let buf := procFgets buf line
    match procLine big buf with
    | .aborted => none
    | .broken => procAll big probe st buf (n + 1) lines
    | .entry ifindex addr =>
      procAll big probe (procEntry st ifindex addr (probe n)) buf (n + 1) lines

/-- The loop for one interface. -/
def procSpecific (big : Nat → Nat) (i : Nat) : ScanLoop → Mem → List (List UInt8) → Option Conf
  | s, _, [] => some s.st
  | s, buf, line :: lines =>
    let buf := procFgets buf line
    match procLine big buf with
    | .aborted => none
    | .broken => procSpecific big i s buf lines
    | .entry ifindex addr =>
      if procSkips addr then procSpecific big i s buf lines
      else if (s.st.intn i).ifindex = ifindex then procSpecific big i s buf lines
      else
        let s := procStore s i addr
        if s.gotlinkl && s.gotglobal then some s.st else procSpecific big i s buf lines

/-- What the program does not decide: what `sscanf` makes of numbers that do not fit, what the
buffer holds before the first line, and the answers that `int_create` gets if a line leads to it. -/
structure ProcInputs where
  big : Nat → Nat
  buf : Mem
  probe : Nat → IfProbe

/-- `update_interfaces` without `ECMH_GETIFADDR`; `file` is `none` where the file cannot be opened,
and the result where the daemon is gone. -/
def updateInterfacesProc (k : ProcInputs) (now : Nat) (st : Conf) (specific : Option Nat)
    (file : Option (List UInt8)) : Option Conf :=
  if st.lastUpdate + 5 * 60 > now then some st
  else
    let st := { st with lastUpdate := now }
    match file with
    | none => some st
    | some file =>
      match specific with
      | some i => procSpecific k.big i ⟨st, false, false⟩ k.buf (fgetsAll procBufSize file)
      | none => procAll k.big k.probe st k.buf 0 (fgetsAll procBufSize file)

/-! ## 3. An address -/

theorem forall_byte {P : UInt8 → Prop} (h : ∀ n : Fin 256, P (UInt8.ofNat n)) (c : UInt8) :
    P c := by
  have hc := h ⟨c.toNat, UInt8.toNat_lt c⟩
  rwa [UInt8.ofNat_toNat] at hc

/-- The assertion holds of digits, and of them only. -/
theorem nibble2int_eq_none : ∀ c, nibble2int c = none ↔ isDigit c = false :=
  forall_byte (by decide +kernel)

/-- The text of a byte. -/
def byteText (b : UInt8) : List UInt8 := [digit (b.toNat / 16), digit (b.toNat % 16)]

/-- A byte is read back from its two digits. -/
theorem nibbles_byteText : ∀ b : UInt8,
    nibble2int (digit (b.toNat / 16)) = some (UInt8.ofNat (b.toNat / 16)) ∧
    nibble2int (digit (b.toNat % 16)) = some (UInt8.ofNat (b.toNat % 16)) ∧
    (UInt8.ofNat (b.toNat / 16) <<< 4) + UInt8.ofNat (b.toNat % 16) = b :=
  forall_byte (by decide +kernel)

/-- The bytes are read back from their text. -/
theorem procBytes_text {buf : Mem} : ∀ (l : List UInt8) (off : Nat),
    buf.read off (2 * l.length) = l.flatMap byteText → procBytes buf off l.length = some l := by
  intro l
  induction l with
  | nil => exact fun _ _ => rfl
  | cons b l ih =>
    intro off hread
    obtain ⟨hhigh, hlow, hb⟩ := nibbles_byteText b
    rw [List.length_cons, Nat.mul_succ, Mem.read_succ, Mem.read_succ, List.flatMap_cons, byteText,
      List.cons_append, List.cons_append, List.nil_append, List.cons.injEq,
      List.cons.injEq] at hread
    obtain ⟨h0, h1, hrest⟩ := hread
    rw [List.length_cons, procBytes, h0, h1, hhigh, hlow, ih (off + 2) hrest]
    simp only [Option.bind_eq_bind, Option.bind_some, hb]

/-- The loop stops at what is no digit. -/
theorem procBytes_eq_none {buf : Mem} : ∀ (n off : Nat),
    procBytes buf off n = none ↔ ∃ c ∈ buf.read off (2 * n), isDigit c = false := by
  intro n
  induction n with
  | zero => simp [procBytes]
  | succ n ih =>
    intro off
    have hcases : procBytes buf off (n + 1) = none ↔ nibble2int (buf off) = none ∨
        nibble2int (buf (off + 1)) = none ∨ procBytes buf (off + 2) n = none := by
      rw [procBytes]
      cases nibble2int (buf off) <;> cases nibble2int (buf (off + 1)) <;>
        cases procBytes buf (off + 2) n <;> simp
    rw [hcases, ih, nibble2int_eq_none, nibble2int_eq_none, Nat.mul_succ, Mem.read_succ,
      Mem.read_succ]
    simp only [List.mem_cons, exists_eq_or_imp]

/-! ## 4. A line in the format -/

/-- What a line says of an address. -/
structure ProcEntry where
  addr : In6Addr
  ifindex : Nat
  prefixlen : Nat
  scope : Nat
  flags : Nat
  name : List UInt8
  fits : ifindex < 2 ^ 32 ∧ prefixlen < 2 ^ 32 ∧ scope < 2 ^ 32 ∧ flags < 2 ^ 32
  named : name ≠ [] ∧ name.length ≤ 15 ∧ ∀ c ∈ name, isSpace c = false ∧ c ≠ 0

namespace ProcEntry

/-- What follows the address and the blank: `02 0a 20 80     eth0`. -/
def fields (e : ProcEntry) : List UInt8 :=
  printX 2 e.ifindex ++ 32 :: (printX 2 e.prefixlen ++ 32 :: (printX 2 e.scope ++
    32 :: (printX 2 e.flags ++ 32 :: (List.replicate (8 - e.name.length) 32 ++ e.name))))

/-- A line in the format that the source gives. -/
def line (e : ProcEntry) : List UInt8 :=
  e.addr.s6Addr.flatMap byteText ++ 32 :: e.fields ++ [10]

/-- The same address in the list of `getifaddrs`, on an interface that is up. -/
def ifAddr (e : ProcEntry) (probe : IfProbe) : IfAddr :=
  ⟨e.ifindex, true, true, false, some .inet6, e.addr, probe⟩

variable (e : ProcEntry)

theorem length_text (l : List UInt8) : (l.flatMap byteText).length = 2 * l.length := by
  induction l with
  | nil => rfl
  | cons b l ih =>
    rw [List.flatMap_cons, List.length_append, ih, List.length_cons]
    simp only [byteText, List.length_cons, List.length_nil]
    omega

theorem length_line : e.line.length < procBufSize := by
  obtain ⟨h1, h2, h3, h4⟩ := e.fits
  have hn := e.named.2.1
  have hwidth : ∀ {n : Nat}, n < 2 ^ 32 → (printX 2 n).length ≤ 8 := fun h =>
    length_printX_le (by simpa using h) (by decide)
  have := hwidth h1
  have := hwidth h2
  have := hwidth h3
  have := hwidth h4
  simp only [line, fields, List.length_append, List.length_cons, length_text, e.addr.size,
    List.length_replicate, List.length_nil, procBufSize]
  omega

/-- All five fields are read, and the index is that of the line. -/
theorem fields_read (big : Nat → Nat) : procFields big (e.fields ++ [10]) = some e.ifindex := by
  obtain ⟨h1, h2, h3, h4⟩ := e.fits
  obtain ⟨hne, -, hname⟩ := e.named
  obtain ⟨c, name, heq⟩ := List.exists_cons_of_ne_nil hne
  have hsome : (scanS 8 (List.replicate (8 - e.name.length) 32 ++ c :: (name ++ [10]))).isSome :=
    scanS_isSome (by decide) _ (hname c (heq ▸ List.mem_cons_self)).1 _
  obtain ⟨word, hword⟩ := Option.isSome_iff_exists.mp hsome
  rw [← List.cons_append, ← List.append_assoc, ← heq] at hword
  have hblank : ∀ (s : List UInt8), ∀ c ∈ (32 :: s).head?, isSpace c = true := by
    intro s c hc
    rw [← Option.some.inj hc]
    rfl
  rw [List.append_assoc] at hword
  unfold procFields fields
  simp only [Option.bind_eq_bind, List.append_assoc, List.cons_append]
  rw [scanX_printX big (by decide) h1 (hblank _), Option.bind_some]
  dsimp only
  rw [scanX_skipSpace, scanX_printX big (by decide) h2 (hblank _), Option.bind_some]
  dsimp only
  rw [scanX_skipSpace, scanX_printX big (by decide) h3 (hblank _), Option.bind_some]
  dsimp only
  rw [scanX_skipSpace, scanX_printX big (by decide) h4 (hblank _), Option.bind_some]
  dsimp only
  rw [scanS_skipSpace, hword]
  rfl

theorem text_isDigit : ∀ c ∈ e.addr.s6Addr.flatMap byteText, isDigit c = true := by
  intro c hc
  obtain ⟨b, -, hb⟩ := List.mem_flatMap.mp hc
  have hlt := UInt8.toNat_lt b
  simp only [byteText, List.mem_cons, List.not_mem_nil, or_false] at hb
  rcases hb with rfl | rfl
  · exact isDigit_digit (by omega)
  · exact isDigit_digit (by omega)

/-- There is no NUL and no newline in it. -/
theorem fields_plain : ∀ c ∈ e.fields, c ≠ 0 ∧ c ≠ 10 := by
  have hdigit : ∀ {n : Nat} {c : UInt8}, c ∈ printX 2 n → c ≠ 0 ∧ c ≠ 10 := by
    intro n c hc
    have hd := isDigit_of_mem_printX hc
    constructor <;>
    · rintro rfl
      cases hd
  intro c hc
  simp only [fields, List.mem_append, List.mem_cons, List.mem_replicate] at hc
  rcases hc with hc | rfl | hc | rfl | hc | rfl | hc | rfl | ⟨-, rfl⟩ | hc
  · exact hdigit hc
  · decide
  · exact hdigit hc
  · decide
  · exact hdigit hc
  · decide
  · exact hdigit hc
  · decide
  · decide
  · obtain ⟨hspace, hzero⟩ := e.named.2.2 c hc
    refine ⟨hzero, ?_⟩
    rintro rfl
    cases hspace

theorem line_whole : WholeLine procBufSize e.line := by
  refine ⟨⟨_, rfl, fun hmem => ?_⟩, e.length_line⟩
  rcases List.mem_append.mp hmem with hmem | hmem
  · cases e.text_isDigit 10 hmem
  · rcases List.mem_cons.mp hmem with hmem | hmem
    · cases hmem
    · exact (e.fields_plain 10 hmem).2 rfl

/-- **A line is read back**, whatever is in the buffer behind it. -/
theorem line_read (big : Nat → Nat) (buf : Mem) :
    procLine big (procFgets buf e.line) = .entry e.ifindex e.addr := by
  have hread : (procFgets buf e.line).read 0 (e.line.length + 1) = e.line ++ [0] := by
    have h := Mem.read_write_same buf 0 (e.line ++ [0])
    rwa [List.length_append, List.length_singleton] at h
  generalize procFgets buf e.line = m at hread
  have htext : (e.addr.s6Addr.flatMap byteText).length = 32 := by
    rw [length_text, e.addr.size]
  have hsplit : e.line ++ [0]
      = (e.addr.s6Addr.flatMap byteText ++ [32]) ++ (e.fields ++ [10] ++ [0]) := by
    simp only [line, List.append_assoc, List.cons_append, List.nil_append]
  rw [hsplit] at hread
  obtain ⟨hfront, hfields⟩ := Mem.read_eq_append hread
  have haddr := (Mem.read_eq_append hfront).1
  have hbehind : m.read 33 (e.fields.length + 2) = e.fields ++ [10] ++ [0] := by
    simpa [htext] using hfields
  rw [htext] at haddr
  -- the address
  have hbytes : procBytes m 0 16 = some e.addr.s6Addr := by
    have h : procBytes m 0 e.addr.s6Addr.length = some e.addr.s6Addr :=
      procBytes_text _ 0 (by rw [e.addr.size]; exact haddr)
    rwa [e.addr.size] at h
  -- the string behind it ends with the NUL of `fgets`
  have hlen : e.fields.length + 34 < procBufSize := by
    have h := e.length_line
    simp only [line, List.length_append, htext, List.length_cons, List.length_nil] at h
    omega
  have hstring : procString m 33 = e.fields ++ [10] := by
    have hroom : procBufSize - 33
        = e.fields.length + 2 + (procBufSize - 33 - (e.fields.length + 2)) := by omega
    have hplain : ∀ c ∈ e.fields ++ [10], c ≠ 0 := by
      intro c hc
      rcases List.mem_append.mp hc with hc | hc
      · exact (e.fields_plain c hc).1
      · rw [List.mem_singleton.mp hc]
        decide
    rw [procString, hroom, Mem.read_add, hbehind, List.append_assoc,
      List.takeWhile_append_of_pos fun c hc => by simpa using hplain c hc]
    exact List.append_nil _
  rw [procLine, hbytes]
  dsimp only
  rw [hstring, e.fields_read big, In6Addr.ofBytes, dif_pos e.addr.size]

end ProcEntry

/-! ## 5. The two builds -/

section Builds

variable (e : ProcEntry) (probe : IfProbe)

theorem scanSkips_ifAddr : scanSkips (e.ifAddr probe) = procSkips e.addr := by
  simp [scanSkips, procSkips, ProcEntry.ifAddr]

theorem scanStore_ifAddr (s : ScanLoop) (i : Nat) :
    scanStore s i (e.ifAddr probe) = procStore s i e.addr := by
  have hfamily : (e.ifAddr probe).family = some .inet6 := rfl
  unfold scanStore procStore
  rw [if_pos hfamily]
  rfl

/-- An entry of the file does what the same entry of the list does. -/
theorem scanEntry_ifAddr (st : Conf) :
    scanEntry st (e.ifAddr probe) = procEntry st e.ifindex e.addr probe := by
  simp only [scanEntry, procEntry, scanSkips_ifAddr, scanStore_ifAddr]
  rfl

end Builds

/-- The list of `getifaddrs` with the addresses of the lines from `n` on. -/
def procList (probe : Nat → IfProbe) (n : Nat) (es : List ProcEntry) : List IfAddr :=
  (es.zipIdx n).map fun e => e.1.ifAddr (probe e.2)

section Loops

variable (big : Nat → Nat) (probe : Nat → IfProbe)

theorem procAll_lines : ∀ (es : List ProcEntry) (st : Conf) (buf : Mem) (n : Nat),
    procAll big probe st buf n (es.map ProcEntry.line)
      = some ((procList probe n es).foldl scanEntry st) := by
  intro es
  induction es with
  | nil => exact fun _ _ _ => rfl
  | cons e es ih =>
    intro st buf n
    rw [List.map_cons, procAll, e.line_read big buf]
    dsimp only
    rw [ih, procList, procList, List.zipIdx_cons, List.map_cons, List.foldl_cons, scanEntry_ifAddr]

theorem procSpecific_lines (i : Nat) : ∀ (es : List ProcEntry) (s : ScanLoop) (buf : Mem) (n : Nat),
    procSpecific big i s buf (es.map ProcEntry.line)
      = some (scanSpecific i s (procList probe n es)) := by
  intro es
  induction es with
  | nil => exact fun _ _ _ => rfl
  | cons e es ih =>
    intro s buf n
    rw [List.map_cons, procSpecific, e.line_read big buf, procList, List.zipIdx_cons, List.map_cons,
      scanSpecific, scanSkips_ifAddr, scanStore_ifAddr]
    have hindex : (e.ifAddr (probe n)).ifindex = e.ifindex := rfl
    have hrest : (es.zipIdx (n + 1)).map (fun e => e.1.ifAddr (probe e.2))
        = procList probe (n + 1) es := rfl
    simp only [hindex, hrest, ih _ _ (n + 1)]
    split
    · rfl
    · split
      · rfl
      · split
        · rfl
        · rfl

end Loops

/-- **The two builds agree** on what they are told of the machine: a file with a line for each entry
leaves what the list of these entries leaves, in a scan for all interfaces and in one for a single
interface, whatever is in the buffer. -/
theorem proc_scan_agrees (k : ProcInputs) (now : Nat) (st : Conf) (specific : Option Nat)
    (es : List ProcEntry) :
    updateInterfacesProc k now st specific (some (es.map ProcEntry.line).flatten)
      = some (updateInterfaces now st specific (some (procList k.probe 0 es))) := by
  have hlines : fgetsAll procBufSize (es.map ProcEntry.line).flatten = es.map ProcEntry.line := by
    refine fgetsAll_flatten procBufSize _ fun line hline => ?_
    obtain ⟨e, -, rfl⟩ := List.mem_map.mp hline
    exact e.line_whole
  unfold updateInterfacesProc updateInterfaces
  split
  · rfl
  · dsimp only
    rw [hlines]
    cases specific with
    | none => exact procAll_lines k.big k.probe es _ k.buf 0
    | some i => exact procSpecific_lines k.big k.probe i es _ k.buf 0

/-! ## 6. The daemons of the two builds -/

/-- `handleinterfaces` up to the interface of the frame; its list of addresses is not looked at. -/
def frameInterfaceProc (k : ProcInputs) (file : Option (List UInt8)) (now : Nat) (st : Conf)
    (f : Frame) : Option (Conf × Option Nat) :=
  match intFind st f.ifindex with
  | some i => some (st, some i)
  | none =>
    match intCreate st f.ifindex f.probe with
    | (st, none) => some (st, none)
    | (st, some i) => (updateInterfacesProc k now st (some i) file).map fun st => (st, some i)

def handleinterfacesProc (h : Host) (k : ProcInputs) (file : Option (List UInt8)) (now : Nat)
    (st : Conf) (f : Frame) : Option Conf :=
  let len := min f.len bufferlen
  if f.hatype = arphrdLoopback ∨ f.outgoing then some st
  else
    (frameInterfaceProc k file now (countReceived st len) f).map fun
      | (st, none) => st
      | (st, some i) => l2Ethtype h now (countIntReceived st i len) i f.buffer len f.protocol

def timeoutProc (h : Host) (k : ProcInputs) (file : Option (List UInt8)) (now : Nat) (st : Conf) :
    Option Conf :=
  (updateInterfacesProc k now st none file).map fun st =>
    sendMldQuerys h (st.setGroups (listLoop2 (timeoutGroup now) st.groups))

/-- What happens to the daemon, with what it reads in the file. -/
inductive ProcEvent
  | frame (now : Nat) (f : Frame) (k : ProcInputs) (file : Option (List UInt8))
  | timeout (now : Nat) (k : ProcInputs) (file : Option (List UInt8))
  | sigusr2 (now : Nat)

def stepProc (h : Host) (st : Conf) : ProcEvent → Option Conf
  | .frame now f k file => handleinterfacesProc h k file now st f
  | .timeout now k file => timeoutProc h k file now st
  | .sigusr2 _ => some (sigusr2 h st)

def bootProc (h : Host) (o : Options) (now : Nat) (k : ProcInputs) (file : Option (List UInt8)) :
    Option Conf :=
  (updateInterfacesProc k now (init o) none file).map (sendMldQuerys h)

/-- The daemon over its events; `none` once it is gone. -/
def runProc (h : Host) (st : Conf) (es : List ProcEvent) : Option Conf := es.foldlM (stepProc h) st

/-- The file and the list say the same of the machine. -/
inductive FileLists (k : ProcInputs) : Option (List UInt8) → Option (List IfAddr) → Prop
  | unknown : FileLists k none none
  | lines (es : List ProcEntry) :
      FileLists k (some (es.map ProcEntry.line).flatten) (some (procList k.probe 0 es))

/-- The same happens to the daemons of the two builds. -/
inductive SameEvent : ProcEvent → Event → Prop
  | frame (now : Nat) (f : Frame) (k : ProcInputs) (file : Option (List UInt8))
      (h : FileLists k file f.ifap) : SameEvent (.frame now f k file) (.frame now f)
  | timeout (now : Nat) (k : ProcInputs) (file : Option (List UInt8)) (ifap : Option (List IfAddr))
      (h : FileLists k file ifap) : SameEvent (.timeout now k file) (.timeout now ifap)
  | sigusr2 (now : Nat) : SameEvent (.sigusr2 now) (.sigusr2 now)

theorem FileLists.updates {k : ProcInputs} {file : Option (List UInt8)}
    {ifap : Option (List IfAddr)} (hl : FileLists k file ifap) (now : Nat) (st : Conf)
    (specific : Option Nat) :
    updateInterfacesProc k now st specific file
      = some (updateInterfaces now st specific ifap) := by
  cases hl with
  | unknown =>
    unfold updateInterfacesProc updateInterfaces
    split
    · rfl
    · rfl
  | lines es => exact proc_scan_agrees k now st specific es

theorem SameEvent.steps {h : Host} {ev : ProcEvent} {e : Event} (hs : SameEvent ev e) (st : Conf) :
    stepProc h st ev = some (step h st e) := by
  cases hs with
  | frame now f k file hl =>
    have hinterface : ∀ st, frameInterfaceProc k file now st f
        = some (frameInterface now st f) := by
      intro st
      unfold frameInterfaceProc frameInterface
      rcases intFind st f.ifindex with - | i
      · rcases intCreate st f.ifindex f.probe with ⟨st1, - | i⟩
        · rfl
        · dsimp only
          rw [hl.updates]
          rfl
      · rfl
    simp only [stepProc, step, handleinterfacesProc, handleinterfaces, hinterface]
    split
    · rfl
    · rfl
  | timeout now k file ifap hl =>
    rw [stepProc, timeoutProc, hl.updates]
    rfl
  | sigusr2 now => rfl

/-- **Over every run** the daemon that reads the file is the one that is told the list, as long as
the file says what the list says, in the format that the source gives. -/
theorem proc_daemon_agrees (h : Host) (o : Options) (now : Nat) (k : ProcInputs)
    (file : Option (List UInt8)) (ifap : Option (List IfAddr)) (evs : List ProcEvent)
    (es : List Event) (hboot : FileLists k file ifap) (hevents : List.Forall₂ SameEvent evs es) :
    (bootProc h o now k file).bind (runProc h · evs) = some (run h (boot h o now ifap) es) := by
  have hrun : ∀ st, runProc h st evs = some (run h st es) := by
    induction hevents with
    | nil => exact fun _ => rfl
    | cons hone _ ih =>
      intro st
      rw [runProc, List.foldlM_cons, hone.steps]
      exact ih _
  rw [bootProc, hboot.updates, Option.map_some, Option.bind_some, hrun]
  rfl

theorem eth0_named : ([101, 116, 104, 48] : List UInt8) ≠ [] ∧
    ([101, 116, 104, 48] : List UInt8).length ≤ 15 ∧
    ∀ c ∈ ([101, 116, 104, 48] : List UInt8), isSpace c = false ∧ c ≠ 0 := by decide +kernel

/-- `fe80::290:27ff:fe24:bbab` on `eth0`, the example that the source gives. -/
def exampleEntry : ProcEntry where
  addr := ⟨[0xfe, 0x80, 0, 0, 0, 0, 0, 0, 0x02, 0x90, 0x27, 0xff, 0xfe, 0x24, 0xbb, 0xab], rfl⟩
  ifindex := 2
  prefixlen := 10
  scope := 32
  flags := 128
  name := [101, 116, 104, 48]
  fits := by decide
  named := eth0_named

example : exampleEntry.line = ("fe80000000000000029027fffe24bbab 02 0a 20 80     eth0\n".toList.map
    fun c => UInt8.ofNat c.toNat) := by decide +kernel

/-- Numbers that do not fit are cut off, and every interface is an Ethernet one. -/
def exampleInputs : ProcInputs := ⟨(· % 2 ^ 32), fun _ => 0, fun _ => ethernetProbe⟩

theorem exampleLine_listed : FileLists exampleInputs (some exampleEntry.line)
    (some [exampleEntry.ifAddr ethernetProbe]) := by
  have hlines := FileLists.lines (k := exampleInputs) [exampleEntry]
  rwa [List.map_singleton, List.flatten_singleton] at hlines

/-- The daemon finds nothing at first, and that interface later on. -/
theorem example_agrees :
    (bootProc (quietHost .little) plainOptions 0 exampleInputs none).bind
        (runProc (quietHost .little) ·
          [.timeout 300 exampleInputs (some exampleEntry.line), .sigusr2 301])
      = some (run (quietHost .little) (boot (quietHost .little) plainOptions 0 none)
        [.timeout 300 (some [exampleEntry.ifAddr ethernetProbe]), .sigusr2 301]) :=
  proc_daemon_agrees (quietHost .little) plainOptions 0 exampleInputs none none _ _ .unknown
    (.cons (.timeout 300 exampleInputs _ _ exampleLine_listed) (.cons (.sigusr2 301) .nil))

/-! ## 7. Broken lines -/

/-- The line begins with an address. -/
def BeginsWithAddr (line : List UInt8) : Prop :=
  32 ≤ line.length ∧ ∀ c ∈ line.take 32, isDigit c = true

instance (line : List UInt8) : Decidable (BeginsWithAddr line) :=
  inferInstanceAs (Decidable (_ ∧ ∀ c ∈ _, _))

/-- What the address is read from does not depend on what was in the buffer. -/
theorem procLine_aborted_iff (big : Nat → Nat) (buf : Mem) (line : List UInt8) :
    procLine big (procFgets buf line) = .aborted ↔ ¬ BeginsWithAddr line := by
  have hread : (procFgets buf line).read 0 (line.length + 1) = line ++ [0] := by
    have h := Mem.read_write_same buf 0 (line ++ [0])
    rwa [List.length_append, List.length_singleton] at h
  generalize procFgets buf line = m at hread
  have hnone : procLine big m = .aborted ↔ procBytes m 0 16 = none := by
    rw [procLine]
    cases procBytes m 0 16 with
    | none => simp
    | some bytes =>
      dsimp only
      split <;> simp
  rw [hnone, procBytes_eq_none, BeginsWithAddr]
  by_cases hlen : 32 ≤ line.length
  · have htake : m.read 0 (2 * 16) = line.take 32 := by
      have hsplit : line.length + 1 = 32 + (line.length + 1 - 32) := by omega
      rw [hsplit, Mem.read_add] at hread
      have h := congrArg (List.take 32) hread
      rwa [List.take_left' (Mem.length_read m 0 32), List.take_append_of_le_length hlen] at h
    rw [htake]
    simp [hlen]
  · -- the NUL behind a short line is no digit
    have hnul : m line.length = 0 := by
      have h := (Mem.read_eq_append hread).2
      rw [Nat.zero_add] at h
      exact (List.cons.inj h).1
    have hmem : m line.length ∈ m.read 0 (2 * 16) := by
      refine List.mem_of_getElem? (i := line.length) ?_
      rw [Mem.getElem?_read m 0 _ _ (by omega), Nat.zero_add]
    refine ⟨fun _ hc => hlen hc.1, fun _ => ⟨_, hmem, ?_⟩⟩
    rw [hnul]
    rfl

theorem procAll_eq_none_iff (big : Nat → Nat) (probe : Nat → IfProbe) :
    ∀ (lines : List (List UInt8)) (st : Conf) (buf : Mem) (n : Nat),
      procAll big probe st buf n lines = none ↔ ∃ line ∈ lines, ¬ BeginsWithAddr line := by
  intro lines
  induction lines with
  | nil => simp [procAll]
  | cons line lines ih =>
    intro st buf n
    have hline := procLine_aborted_iff big buf line
    rw [procAll, List.exists_mem_cons_iff, ← hline]
    split
    · rename_i haborted
      simp [haborted]
    · rename_i hbroken
      rw [ih, hbroken]
      simp
    · rename_i ifindex addr hentry
      rw [ih, hentry]
      simp

/-- **What ends the daemon**: a scan that is due, of a file that can be opened, with a line that
does not begin with an address. -/
theorem proc_scan_aborts_iff (k : ProcInputs) (now : Nat) (st : Conf) (file : Option (List UInt8)) :
    updateInterfacesProc k now st none file = none ↔ st.lastUpdate + 5 * 60 ≤ now ∧
      ∃ text, file = some text ∧ ∃ line ∈ fgetsAll procBufSize text, ¬ BeginsWithAddr line := by
  unfold updateInterfacesProc
  split
  · rename_i hdue
    simp
    omega
  · rename_i hdue
    cases file with
    | none => simp
    | some text =>
      dsimp only
      rw [procAll_eq_none_iff]
      simp
      omega

end Ecmh
