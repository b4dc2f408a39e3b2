/-
# The dump file

At SIGUSR1, and once more at its end, the daemon writes what it knows into a file: the groups with
their interfaces and subscriptions, the interfaces, and its counters.  `sigusr1` is the text of the
file.

An entry of the table is looked up in what the file shows by the group, the name of the interface
and the source, and `dump_shows_memberships` says that in every run this finds what the daemon
itself finds: every membership on an interface in use, with its mode and its age, and no other one.
An age is the difference of two times in an `int`; where it is negative, the signal number is
negated in its place (`shownAge_of_future`).
-/
import Ecmh.Expiry
import Ecmh.Lib.Printed

namespace Ecmh

open Printed

/-! ## 1. The text -/

/-- What `sigusr1` has from elsewhere: what `inet_ntop` makes of an address and `strftime` of a
time, and the version and the hash that the build is given. -/
structure DumpTexts where
  ntop : In6Addr → List Char
  strftime : Nat → List Char
  version : List Char
  githash : List Char

/-- `SIGUSR1`. -/
def sigUsr1 : Nat := 10

def arphrdEther : Nat := 1
def arphrdSit : Nat := 776

/-- An assignment to an `int`. -/
def toInt32 (n : Nat) : Int := (BitVec.ofNat 32 n).toInt

/-- What `%u` makes of the age of a subscription at the signal `i`. -/
def shownAge (i now refreshtime : Nat) : Nat :=
  let d := toInt32 (sub64 now refreshtime)
  let d := if d < 0 then -(i : Int) else d
  (BitVec.ofInt 32 d).toNat

def modeText (isInclude : Bool) : List Char := (if isInclude then "INCLUDE" else "EXCLUDE").toList

def subscrLine (ipv6 : List Char) (isInclude : Bool) (age : Nat) : List Char :=
  "\t\t".toList ++ ipv6 ++ " ".toList ++ modeText isInclude ++ " (".toList ++ printU age
    ++ " seconds old)\n".toList

def grpintLine (name : List Char) (count : Int) : List Char :=
  "\tInterface: ".toList ++ name ++ " (".toList ++ printD count ++ ")\n".toList

def groupLines (mca : List Char) (bytes packets : Nat) : List Char :=
  labelled '\n' ["Group : ".toList, "\tBytes  : ".toList, "\tPackets: ".toList]
    [mca, printU bytes, printU packets]

/-- "Interface Type". -/
def typeText (hwaddr : Nat) : List Char :=
  (if hwaddr = arphrdEther then "Ethernet"
    else if hwaddr = arphrdSit then "sit" else "Unknown").toList
    ++ " (".toList ++ printU hwaddr ++ ")".toList

/-- "MLD version". -/
def versionText (mldVersion : Nat) : List Char :=
  if mldVersion = 0 then "none".toList else "v".toList ++ printU mldVersion

def intLabels : List (List Char) :=
  ["Interface: ", "  Index number           : ", "  MTU                    : ",
    "  Interface Type         : ", "  Link-local address     : ", "  Global unicast address : ",
    "  MLD version            : ", "  Packets received       : ", "  Packets sent           : ",
    "  Bytes received         : ", "  Bytes sent             : ", "  ICMP's received        : ",
    "  ICMP's sent            : ", ""].map String.toList

/-- What is behind the labels, with an empty line at the end. -/
def intWords (texts : DumpTexts) (intn : IntNode) : List (List Char) :=
  [intn.name.toList, printU intn.ifindex, printU intn.mtu, typeText intn.hwaddr,
    texts.ntop intn.linklocal, texts.ntop intn.global, versionText intn.mldVersion,
    printU intn.statPacketsReceived, printU intn.statPacketsSent, printU intn.statBytesReceived,
    printU intn.statBytesSent, printU intn.statIcmpReceived, printU intn.statIcmpSent, []]

def intLines (texts : DumpTexts) (intn : IntNode) : List Char :=
  labelled '\n' intLabels (intWords texts intn)

/-- What has been written, and the `unsigned int` that counts what is in it. -/
structure DumpLoop where
  text : List Char
  count : Nat

/-- `fprintf`. -/
def DumpLoop.print (s : DumpLoop) (text : List Char) : DumpLoop := { s with text := s.text ++ text }

/-- `subscriptions++`, `count++`. -/
def DumpLoop.more (s : DumpLoop) : DumpLoop := { s with count := (s.count + 1) % 2 ^ 32 }

def dumpSubscr (texts : DumpTexts) (i now : Nat) (s : DumpLoop) (subscrn : SubscrNode) : DumpLoop :=
  (s.print (subscrLine (texts.ntop subscrn.ipv6) (subscrn.mode = mld2ModeIsInclude)
    (shownAge i now subscrn.refreshtime))).more

def dumpGrpint (texts : DumpTexts) (i now : Nat) (st : Conf) (s : DumpLoop) (grpintn : GrpIntNode) :
    DumpLoop :=
  match intFind st grpintn.ifindex with
  | none => s
  | some k =>
    grpintn.subscriptions.nodes.foldl (dumpSubscr texts i now)
      (s.print (grpintLine (st.intn k).name.toList grpintn.subscriptions.count))

def dumpGroup (texts : DumpTexts) (i now : Nat) (st : Conf) (s : DumpLoop) (groupn : GroupNode) :
    DumpLoop :=
  let s := s.print (groupLines (texts.ntop groupn.mca) groupn.bytes groupn.packets)
  let s := groupn.interfaces.nodes.foldl (dumpGrpint texts i now st) s
  s.print "\n".toList

def dumpInt (texts : DumpTexts) (st : Conf) (s : DumpLoop) (j : Nat) : DumpLoop :=
  if (st.intn j).mtu = 0 then s else s.more.print (intLines texts (st.intn j))

/-- `%02u`. -/
def printU2 (n : Nat) : List Char := if n < 10 then '0' :: printU n else printU n

/-- "Uptime". -/
def uptimeText (starttime now : Nat) : List Char :=
  let uptime := sub64 now starttime % 2 ^ 32
  let d := uptime / (24 * 60 * 60)
  let uptime := uptime - d * (24 * 60 * 60)
  let h := uptime / (60 * 60)
  let uptime := uptime - h * (60 * 60)
  let m := uptime / 60
  let uptime := uptime - m * 60
  printU d ++ " days ".toList ++ printU2 h ++ ":".toList ++ printU2 m ++ ":".toList
    ++ printU2 uptime

def statLabels : List (List Char) :=
  ["*** Statistics Dump", "", "Version              : ecmh ", "Git Hash             : ",
    "Started              : ", "Uptime               : ", "", "Interfaces Monitored : ",
    "Groups Managed       : ", "Total Subscriptions  : ", "v2 Robustness Factor : ",
    "Subscription Timeout : ", "", "Packets Received     : ", "Packets Sent         : ",
    "Bytes Received       : ", "Bytes Sent           : ", "ICMP's received      : ",
    "ICMP's sent          : ", "Hop Limit Exceeded   : ", "", "*** Statistics Dump (end)"].map
    String.toList

def statWords (texts : DumpTexts) (starttime now : Nat) (st : Conf) (ints subscriptions : Nat) :
    List (List Char) :=
  [[], [], texts.version, texts.githash, texts.strftime starttime ++ " GMT".toList,
    uptimeText starttime now, [], printU ints, printD st.groups.count, printU subscriptions,
    printU ecmhRobustnessFactor, printU (ecmhSubscriptionTimeout * ecmhRobustnessFactor), [],
    printU st.statPacketsReceived, printU st.statPacketsSent, printU st.statBytesReceived,
    printU st.statBytesSent, printU st.statIcmpReceived, printU st.statIcmpSent,
    printU st.statHlimExceeded, [], []]

/-- `sigusr1`, at the signal `i`: what is in the file then. -/
def sigusr1 (texts : DumpTexts) (starttime i now : Nat) (st : Conf) : List Char :=
  let s := st.groups.nodes.foldl (dumpGroup texts i now st)
    ⟨"*** Subscription Information Dump\n\n".toList, 0⟩
  let s := s.print ("*** Subscription Information Dump (end - ".toList ++ printD st.groups.count
    ++ " groups, ".toList ++ printU s.count ++ " subscriptions)\n\n".toList)
  let s := s.print "*** Interface Dump\n\n".toList
  let ints := (List.range st.maxinterfaces).foldl (dumpInt texts st) ⟨s.text, 0⟩
  let ints := ints.print ("*** Interface Dump (end - ".toList ++ printU ints.count
    ++ " interfaces)\n\n".toList)
  (ints.print (labelled '\n' statLabels (statWords texts starttime now st ints.count s.count))).text

/-! ## 2. What the file shows -/

structure ShownSubscr where
  ipv6 : In6Addr
  isInclude : Bool
  age : Nat
  deriving DecidableEq

structure ShownGrpint where
  name : String
  count : Int
  subscriptions : List ShownSubscr
  deriving DecidableEq

structure ShownGroup where
  mca : In6Addr
  bytes : Nat
  packets : Nat
  interfaces : List ShownGrpint
  deriving DecidableEq

def shownSubscr (i now : Nat) (subscrn : SubscrNode) : ShownSubscr :=
  ⟨subscrn.ipv6, subscrn.mode = mld2ModeIsInclude, shownAge i now subscrn.refreshtime⟩

/-- A group-interface is shown if its interface is there. -/
def shownGrpint (i now : Nat) (st : Conf) (grpintn : GrpIntNode) : Option ShownGrpint :=
  (intFind st grpintn.ifindex).map fun k =>
    ⟨(st.intn k).name, grpintn.subscriptions.count,
      grpintn.subscriptions.nodes.map (shownSubscr i now)⟩

def shownGroup (i now : Nat) (st : Conf) (groupn : GroupNode) : ShownGroup :=
  ⟨groupn.mca, groupn.bytes, groupn.packets,
    groupn.interfaces.nodes.filterMap (shownGrpint i now st)⟩

def shownGroups (i now : Nat) (st : Conf) : List ShownGroup :=
  st.groups.nodes.map (shownGroup i now st)

/-- The slots of the interfaces that are shown. -/
def shownInts (st : Conf) : List Nat :=
  (List.range st.maxinterfaces).filter fun j => (st.intn j).mtu ≠ 0

def ShownSubscr.text (texts : DumpTexts) (s : ShownSubscr) : List Char :=
  subscrLine (texts.ntop s.ipv6) s.isInclude s.age

def ShownGrpint.text (texts : DumpTexts) (g : ShownGrpint) : List Char :=
  grpintLine g.name.toList g.count ++ g.subscriptions.flatMap (ShownSubscr.text texts)

def ShownGroup.text (texts : DumpTexts) (g : ShownGroup) : List Char :=
  groupLines (texts.ntop g.mca) g.bytes g.packets
    ++ g.interfaces.flatMap (ShownGrpint.text texts) ++ "\n".toList

/-- The subscriptions in it. -/
def ShownGrpint.size (g : ShownGrpint) : Nat := g.subscriptions.length

def ShownGroup.size (g : ShownGroup) : Nat := (g.interfaces.map ShownGrpint.size).sum

/-- A loop writes this text, and counts this many subscriptions or interfaces. -/
structure DumpAdds (s s' : DumpLoop) (text : List Char) (n : Nat) : Prop where
  text : s'.text = s.text ++ text
  count : s.count < 2 ^ 32 → s'.count = (s.count + n) % 2 ^ 32

namespace DumpAdds

variable {s s' s'' : DumpLoop} {text text' : List Char} {n n' : Nat}

theorem refl (s : DumpLoop) : DumpAdds s s [] 0 :=
  ⟨(List.append_nil _).symm, fun h => (Nat.mod_eq_of_lt h).symm⟩

theorem trans (h : DumpAdds s s' text n) (h' : DumpAdds s' s'' text' n') :
    DumpAdds s s'' (text ++ text') (n + n') := by
  refine ⟨by rw [h'.text, h.text, List.append_assoc], fun hlt => ?_⟩
  have hcount := h.count hlt
  have hlt' : s'.count < 2 ^ 32 := by omega
  rw [h'.count hlt', hcount, Nat.mod_add_mod, Nat.add_assoc]

theorem print (s : DumpLoop) (text : List Char) : DumpAdds s (s.print text) text 0 :=
  ⟨rfl, fun h => (Nat.mod_eq_of_lt h).symm⟩

theorem more (s : DumpLoop) : DumpAdds s s.more [] 1 := ⟨(List.append_nil _).symm, fun _ => rfl⟩

/-- A loop that passes over what is not shown. -/
theorem foldl {ε δ : Type} {f : DumpLoop → ε → DumpLoop} {e : ε → Option δ} {t : δ → List Char}
    {size : δ → Nat} (h : ∀ s x, DumpAdds s (f s x) ((e x).elim [] t) ((e x).elim 0 size)) :
    ∀ (l : List ε) (s : DumpLoop), DumpAdds s (l.foldl f s) ((l.filterMap e).flatMap t)
      ((l.filterMap e).map size).sum := by
  intro l
  induction l with
  | nil => exact refl
  | cons x l ih =>
    intro s
    have hx := (h s x).trans (ih (f s x))
    cases he : e x with
    | none =>
      rw [he, Option.elim_none, Option.elim_none, List.nil_append, Nat.zero_add] at hx
      rwa [List.foldl_cons, List.filterMap_cons_none he]
    | some y =>
      rw [he, Option.elim_some, Option.elim_some] at hx
      rwa [List.foldl_cons, List.filterMap_cons_some he, List.flatMap_cons, List.map_cons,
        List.sum_cons]

theorem foldl_map {ε δ : Type} {f : DumpLoop → ε → DumpLoop} (e : ε → δ) (t : δ → List Char)
    (size : δ → Nat) (h : ∀ s x, DumpAdds s (f s x) (t (e x)) (size (e x))) (l : List ε)
    (s : DumpLoop) : DumpAdds s (l.foldl f s) ((l.map e).flatMap t) ((l.map e).map size).sum := by
  have hall := foldl (e := fun x => some (e x)) (t := t) h l s
  rwa [List.filterMap_eq_map'] at hall

end DumpAdds

section Loops

variable (texts : DumpTexts) (i now : Nat) (st : Conf)

theorem dumpSubscr_adds (s : DumpLoop) (subscrn : SubscrNode) :
    DumpAdds s (dumpSubscr texts i now s subscrn) ((shownSubscr i now subscrn).text texts) 1 := by
  have h := (DumpAdds.print s ((shownSubscr i now subscrn).text texts)).trans (.more _)
  rwa [List.append_nil] at h

theorem dumpGrpint_adds (s : DumpLoop) (grpintn : GrpIntNode) :
    DumpAdds s (dumpGrpint texts i now st s grpintn)
      ((shownGrpint i now st grpintn).elim [] (ShownGrpint.text texts))
      ((shownGrpint i now st grpintn).elim 0 ShownGrpint.size) := by
  unfold dumpGrpint shownGrpint
  cases intFind st grpintn.ifindex with
  | none => exact .refl s
  | some k =>
    have h := (DumpAdds.print s (grpintLine (st.intn k).name.toList
      grpintn.subscriptions.count)).trans
      (DumpAdds.foldl_map (shownSubscr i now) (ShownSubscr.text texts) (fun _ => 1)
        (dumpSubscr_adds texts i now) grpintn.subscriptions.nodes _)
    rw [List.map_const', List.sum_replicate_nat, Nat.mul_one, Nat.zero_add] at h
    exact h

theorem dumpGroup_adds (s : DumpLoop) (groupn : GroupNode) :
    DumpAdds s (dumpGroup texts i now st s groupn) ((shownGroup i now st groupn).text texts)
      (shownGroup i now st groupn).size := by
  have h := ((DumpAdds.print s (groupLines (texts.ntop groupn.mca) groupn.bytes
    groupn.packets)).trans (DumpAdds.foldl (dumpGrpint_adds texts i now st)
      groupn.interfaces.nodes _)).trans (.print _ "\n".toList)
  rw [Nat.zero_add, Nat.add_zero] at h
  exact h

theorem dumpGroups_adds (s : DumpLoop) :
    DumpAdds s (st.groups.nodes.foldl (dumpGroup texts i now st) s)
      ((shownGroups i now st).flatMap (ShownGroup.text texts))
      ((shownGroups i now st).map ShownGroup.size).sum :=
  DumpAdds.foldl_map (shownGroup i now st) (ShownGroup.text texts) ShownGroup.size
    (dumpGroup_adds texts i now st) st.groups.nodes s

theorem dumpInts_adds (s : DumpLoop) :
    DumpAdds s ((List.range st.maxinterfaces).foldl (dumpInt texts st) s)
      ((shownInts st).flatMap fun j => intLines texts (st.intn j)) (shownInts st).length := by
  have hone : ∀ (s : DumpLoop) (j : Nat), DumpAdds s (dumpInt texts st s j)
      ((Option.guard (fun j => (st.intn j).mtu ≠ 0) j).elim [] fun j => intLines texts (st.intn j))
      ((Option.guard (fun j => (st.intn j).mtu ≠ 0) j).elim 0 fun _ => 1) := by
    intro s j
    unfold dumpInt
    by_cases hmtu : (st.intn j).mtu = 0
    · rw [if_pos hmtu, Option.guard, if_neg (by simp [hmtu])]
      exact .refl s
    · rw [if_neg hmtu, Option.guard, if_pos (by simp [hmtu])]
      exact (DumpAdds.more s).trans (.print _ _)
  have h := DumpAdds.foldl hone (List.range st.maxinterfaces) s
  rw [List.filterMap_eq_filter, List.map_const', List.sum_replicate_nat, Nat.mul_one] at h
  exact h

end Loops

/-- Behind the interfaces. -/
def dumpEnd (texts : DumpTexts) (starttime now : Nat) (st : Conf) (ints subscriptions : Nat) :
    List Char :=
  "*** Interface Dump (end - ".toList ++ printU ints ++ " interfaces)\n\n".toList
    ++ labelled '\n' statLabels (statWords texts starttime now st ints subscriptions)

/-- **The text of the file**, by what is shown. -/
theorem sigusr1_eq (texts : DumpTexts) (starttime i now : Nat) (st : Conf) :
    sigusr1 texts starttime i now st
      = "*** Subscription Information Dump\n\n".toList
        ++ (shownGroups i now st).flatMap (ShownGroup.text texts)
        ++ ("*** Subscription Information Dump (end - ".toList ++ printD st.groups.count
          ++ " groups, ".toList
          ++ printU (((shownGroups i now st).map ShownGroup.size).sum % 2 ^ 32)
          ++ " subscriptions)\n\n".toList)
        ++ "*** Interface Dump\n\n".toList
        ++ ((shownInts st).flatMap fun j => intLines texts (st.intn j))
        ++ dumpEnd texts starttime now st ((shownInts st).length % 2 ^ 32)
            (((shownGroups i now st).map ShownGroup.size).sum % 2 ^ 32) := by
  obtain ⟨htext, hcount⟩ := dumpGroups_adds texts i now st
    ⟨"*** Subscription Information Dump\n\n".toList, 0⟩
  have hsubscriptions := hcount (by decide)
  have hints := fun text => dumpInts_adds texts st ⟨text, 0⟩
  have hcounted := fun text => (hints text).count (Nat.two_pow_pos 32)
  simp only [Nat.zero_add] at hsubscriptions hcounted
  unfold sigusr1 dumpEnd
  simp only [DumpLoop.print]
  rw [(hints _).text, hcounted, hsubscriptions, htext]
  simp only [List.append_assoc]

/-! ## 3. Ages -/

theorem toInt32_of_lt {n : Nat} (h : n < 2 ^ 31) : toInt32 n = n := by
  rw [toInt32, BitVec.toInt_eq_toNat_bmod, BitVec.toNat_ofNat]
  simp only [Int.bmod]
  omega

theorem sub64_of_le {a b : Nat} (h : b ≤ a) : sub64 a b = (a - b) % 2 ^ 64 := by
  unfold sub64
  omega

theorem shownAge_of_lt {i now refreshtime : Nat} (hle : refreshtime ≤ now)
    (hlt : now - refreshtime < 2 ^ 31) : shownAge i now refreshtime = now - refreshtime := by
  have hsub : sub64 now refreshtime = now - refreshtime := by
    rw [sub64_of_le hle]
    omega
  unfold shownAge
  rw [hsub, toInt32_of_lt hlt]
  dsimp only
  rw [if_neg (by omega), BitVec.toNat_ofInt]
  omega

/-- A refresh in the future is shown with the number of the signal in the place of its age. -/
theorem shownAge_of_future {i now refreshtime : Nat} (hi : 0 < i) (hi' : i < 2 ^ 32)
    (hlt : now < refreshtime) (hle : refreshtime ≤ now + 2 ^ 31) :
    shownAge i now refreshtime = 2 ^ 32 - i := by
  have hneg : toInt32 (sub64 now refreshtime) < 0 := by
    rw [toInt32, BitVec.toInt_eq_toNat_bmod, BitVec.toNat_ofNat]
    simp only [Int.bmod, sub64]
    omega
  unfold shownAge
  dsimp only
  rw [if_pos hneg, BitVec.toNat_ofInt]
  omega

/-- Two seconds. -/
example : shownAge sigUsr1 5 7 = 4294967286 := by decide

/-! ## 4. What is looked up -/

/-- The entry of a source under the interface of this name and the group. -/
def lookUp (shown : List ShownGroup) (mca : In6Addr) (name : String) (ipv6 : In6Addr) :
    Option ShownSubscr :=
  (shown.find? (·.mca = mca)).bind fun g => (g.interfaces.find? (·.name = name)).bind fun i =>
    i.subscriptions.find? (·.ipv6 = ipv6)

/-- What the entries are for: a group, the name of an interface, and a source. -/
def shownKeys (shown : List ShownGroup) : List (In6Addr × String × In6Addr) :=
  shown.flatMap fun g => g.interfaces.flatMap fun i =>
    i.subscriptions.map fun s => (g.mca, i.name, s.ipv6)

/-- No two interfaces in use have one name. -/
def NamesDistinct (st : Conf) : Prop :=
  ∀ i j, (intFind st i).isSome → (intFind st j).isSome → (st.intn i).name = (st.intn j).name → i = j

section LookUp

variable {P : SubscrNode → Prop} {st : Conf} {sig now i : Nat} {g src : In6Addr}

theorem intFind_self (hi : (intFind st i).isSome) : intFind st i = some i := by
  obtain ⟨k, hk⟩ := Option.isSome_iff_exists.mp hi
  rw [hk, (intFind_eq_some.mp hk).1]

/-- The interface of a group-interface is told by its name. -/
theorem shownGrpint_name (hnames : NamesDistinct st) (hi : (intFind st i).isSome)
    (grpintn : GrpIntNode) : (shownGrpint sig now st grpintn).any
      (fun x => decide (x.name = (st.intn i).name)) = decide (grpintn.ifindex = i) := by
  unfold shownGrpint
  by_cases hidx : grpintn.ifindex = i
  · rw [hidx, intFind_self hi]
    simp
  · cases hk : intFind st grpintn.ifindex with
    | none => simp [hidx]
    | some k =>
      have hsome : (intFind st grpintn.ifindex).isSome := by rw [hk]; rfl
      obtain rfl := (intFind_eq_some.mp hk).1
      have hne : (st.intn grpintn.ifindex).name ≠ (st.intn i).name := fun hc =>
        hidx (hnames _ _ hsome hi hc)
      simp [hidx, hne]

/-- **A look into the file is a look into the table.** -/
theorem lookUp_shownGroups (hnames : NamesDistinct st) (hi : (intFind st i).isSome) :
    lookUp (shownGroups sig now st) g (st.intn i).name src
      = (membershipOf st.groups g i src).map (shownSubscr sig now) := by
  have hgroup : (shownGroups sig now st).find? (·.mca = g)
      = (groupFind st.groups g).map (shownGroup sig now st) := List.find?_map
  have hgrpint : ∀ l : List GrpIntNode,
      (l.filterMap (shownGrpint sig now st)).find? (·.name = (st.intn i).name)
        = (KeyedList.find GrpIntNode.ifindex i l).bind (shownGrpint sig now st) := by
    intro l
    rw [List.find?_filterMap, KeyedList.find]
    simp only [shownGrpint_name hnames hi]
  unfold lookUp membershipOf groupintFind
  rw [hgroup]
  cases groupFind st.groups g with
  | none => rfl
  | some groupn =>
    dsimp only [Option.map_some, Option.bind_some, shownGroup, grpintFind]
    rw [hgrpint]
    cases hfound : KeyedList.find GrpIntNode.ifindex i groupn.interfaces.nodes with
    | none => rfl
    | some grpintn =>
      have hidx : grpintn.ifindex = i := KeyedList.key_of_find hfound
      simp only [Option.bind_some, shownGrpint, hidx, intFind_self hi, Option.map_some, subscrFind,
        KeyedList.find]
      exact List.find?_map

theorem shownKeys_nodup (hok : TableOk P st.groups) (hnames : NamesDistinct st) :
    (shownKeys (shownGroups sig now st)).Nodup := by
  have hgroups : KeyedList.Unique ShownGroup.mca (shownGroups sig now st) := by
    rw [KeyedList.Unique, shownGroups, List.map_map]
    exact hok.unique
  refine hgroups.nodup_flatMap Prod.fst (fun g _ y hy => ?_) fun g hg => ?_
  · obtain ⟨x, -, hy⟩ := List.mem_flatMap.mp hy
    obtain ⟨s, -, rfl⟩ := List.mem_map.mp hy
    rfl
  · obtain ⟨groupn, hmem, rfl⟩ := List.mem_map.mp hg
    have hgroup := hok.all groupn hmem
    have hints : KeyedList.Unique ShownGrpint.name
        (groupn.interfaces.nodes.filterMap (shownGrpint sig now st)) := by
      refine hgroup.unique.filterMap fun a b x y hx hy he => ?_
      obtain ⟨k, hk, rfl⟩ := Option.map_eq_some_iff.mp hx
      obtain ⟨j, hj, rfl⟩ := Option.map_eq_some_iff.mp hy
      obtain rfl := (intFind_eq_some.mp hk).1
      obtain rfl := (intFind_eq_some.mp hj).1
      exact hnames _ _ (Option.isSome_of_eq_some hk) (Option.isSome_of_eq_some hj) he
    refine hints.nodup_flatMap (fun y => y.2.1) (fun x _ y hy => ?_) fun x hx => ?_
    · obtain ⟨s, -, rfl⟩ := List.mem_map.mp hy
      rfl
    · obtain ⟨grpintn, hi, hx⟩ := List.mem_filterMap.mp hx
      obtain ⟨k, -, rfl⟩ := Option.map_eq_some_iff.mp hx
      refine List.Nodup.of_map (fun y => y.2.2) ?_
      rw [List.map_map, List.map_map]
      exact (hgroup.all grpintn hi).unique

/-- The file shows what is known of the interfaces in use. -/
theorem mem_shownKeys (hok : TableOk P st.groups) {name : String} :
    (g, name, src) ∈ shownKeys (shownGroups sig now st) ↔
      ∃ i, (intFind st i).isSome ∧ (st.intn i).name = name ∧
        (membershipOf st.groups g i src).isSome := by
  constructor
  · intro hmem
    obtain ⟨x, hx, hmem⟩ := List.mem_flatMap.mp hmem
    obtain ⟨groupn, hg, rfl⟩ := List.mem_map.mp hx
    obtain ⟨y, hy, hmem⟩ := List.mem_flatMap.mp hmem
    obtain ⟨grpintn, hi, hy⟩ := List.mem_filterMap.mp hy
    obtain ⟨k, hk, rfl⟩ := Option.map_eq_some_iff.mp hy
    obtain ⟨z, hz, he⟩ := List.mem_map.mp hmem
    obtain ⟨s, hs, rfl⟩ := List.mem_map.mp hz
    cases he
    obtain rfl := (intFind_eq_some.mp hk).1
    have hfound : membershipOf st.groups groupn.mca grpintn.ifindex s.ipv6 = some s :=
      (membershipOf_eq_some hok).mpr
        ⟨(mem_subscriptionsOf hok).mpr ⟨groupn, hg, rfl, grpintn, hi, rfl, hs⟩, rfl⟩
    exact ⟨grpintn.ifindex, Option.isSome_of_eq_some hk, rfl, Option.isSome_of_eq_some hfound⟩
  · rintro ⟨i, hi, rfl, hm⟩
    obtain ⟨s, hs⟩ := Option.isSome_iff_exists.mp hm
    obtain ⟨hmem, rfl⟩ := (membershipOf_eq_some hok).mp hs
    obtain ⟨groupn, hg, rfl, grpintn, hgi, rfl, hin⟩ := (mem_subscriptionsOf hok).mp hmem
    have hshown : shownGrpint sig now st grpintn = some ⟨(st.intn grpintn.ifindex).name,
        grpintn.subscriptions.count, grpintn.subscriptions.nodes.map (shownSubscr sig now)⟩ := by
      rw [shownGrpint, intFind_self hi]
      rfl
    refine List.mem_flatMap.mpr ⟨shownGroup sig now st groupn, List.mem_map_of_mem hg,
      List.mem_flatMap.mpr ⟨_, List.mem_filterMap.mpr ⟨grpintn, hgi, hshown⟩, ?_⟩⟩
    exact List.mem_map.mpr ⟨shownSubscr sig now s, List.mem_map_of_mem hin, rfl⟩

end LookUp

theorem length_shownKeys (shown : List ShownGroup) :
    (shownKeys shown).length = (shown.map ShownGroup.size).sum := by
  have hints : ∀ (g : ShownGroup) (l : List ShownGrpint),
      (l.flatMap fun i => i.subscriptions.map fun s => (g.mca, i.name, s.ipv6)).length
        = (l.map ShownGrpint.size).sum := by
    intro g l
    simp [List.length_flatMap]
    rfl
  rw [shownKeys, List.length_flatMap]
  simp only [hints]
  rfl

/-! ## 5. Runs -/

/-- In a run no subscription is refreshed before it or after it. -/
theorem run_refreshed {h : Host} {t now : Nat} : ∀ {es : List Event} {st : Conf},
    TableOk (fun s => ValidSubscr s ∧ t ≤ s.refreshtime ∧ s.refreshtime ≤ now) st.groups →
    (∀ e ∈ es, t ≤ e.now ∧ e.now ≤ now) →
    TableOk (fun s => ValidSubscr s ∧ t ≤ s.refreshtime ∧ s.refreshtime ≤ now)
      (run h st es).groups := by
  intro es
  induction es with
  | nil => exact fun hok _ => hok
  | cons e es ih =>
    intro st hok hes
    obtain ⟨he, hrest⟩ := List.forall_mem_cons.mp hes
    refine ih (step_tableOk e hok fun s hv hr => ⟨hv, ?_, ?_⟩) hrest
    · exact hr ▸ he.1
    · exact hr ▸ he.2

/-- The daemon was started at `t`, and its clock, which does not run backwards, has not passed
`now`. -/
def UpSince (h : Host) (t now : Nat) (st : Conf) : Prop :=
  ∃ (o : Options) (ifap : Option (List IfAddr)) (es : List Event),
    Clocked t es ∧ (∀ e ∈ es, e.now ≤ now) ∧ st = run h (boot h o t ifap) es

theorem UpSince.refreshed {h : Host} {t now : Nat} {st : Conf} (hup : UpSince h t now st) :
    TableOk (fun s => ValidSubscr s ∧ t ≤ s.refreshtime ∧ s.refreshtime ≤ now) st.groups := by
  obtain ⟨o, ifap, es, hclock, hes, rfl⟩ := hup
  refine run_refreshed ?_ fun e he => ⟨?_, hes e he⟩
  · rw [boot_groups]
    exact tableOk_new
  · exact (List.pairwise_cons.mp hclock).1 _ (List.mem_map_of_mem he)

theorem UpSince.reachable {h : Host} {t now : Nat} {st : Conf} (hup : UpSince h t now st) :
    Reachable h st := by
  obtain ⟨o, ifap, es, -, -, hst⟩ := hup
  exact ⟨o, t, ifap, es, hst⟩

/-- Then the ages are true. -/
theorem shownSubscr_young {t now : Nat} (hlt : now < t + 2 ^ 31) {s : SubscrNode}
    (ht : t ≤ s.refreshtime) (hnow : s.refreshtime ≤ now) :
    shownSubscr sigUsr1 now s
      = ⟨s.ipv6, s.mode = mld2ModeIsInclude, now - s.refreshtime⟩ := by
  rw [shownSubscr, shownAge_of_lt hnow (by omega)]

/-- **The dump file is the table.**  In every state of a daemon that has been up for less than 2³¹
seconds by a clock that does not run backwards, the file shows each membership of an interface in
use once, with its mode and the seconds since it was refreshed, and nothing else, and counts them,
if no two interfaces in use have one name. -/
theorem dump_shows_memberships (h : Host) (t now : Nat) (st : Conf) (texts : DumpTexts)
    (starttime : Nat) (hup : UpSince h t now st) (hlt : now < t + 2 ^ 31)
    (hnames : NamesDistinct st) :
    ∃ (shown : List ShownGroup) (rest : List Char),
      sigusr1 texts starttime sigUsr1 now st
        = "*** Subscription Information Dump\n\n".toList
          ++ shown.flatMap (ShownGroup.text texts)
          ++ ("*** Subscription Information Dump (end - ".toList ++ printD st.groups.count
            ++ " groups, ".toList ++ printU ((shownKeys shown).length % 2 ^ 32)
            ++ " subscriptions)\n\n".toList) ++ rest ∧
      (shownKeys shown).Nodup ∧
      (∀ g name src, (g, name, src) ∈ shownKeys shown ↔ ∃ i, (intFind st i).isSome ∧
        (st.intn i).name = name ∧ (membershipOf st.groups g i src).isSome) ∧
      ∀ g i src, (intFind st i).isSome → lookUp shown g (st.intn i).name src
        = (membershipOf st.groups g i src).map fun s =>
            ⟨src, s.mode = mld2ModeIsInclude, now - s.refreshtime⟩ := by
  have hok := hup.refreshed
  refine ⟨shownGroups sigUsr1 now st, "*** Interface Dump\n\n".toList
    ++ ((shownInts st).flatMap fun j => intLines texts (st.intn j))
    ++ dumpEnd texts starttime now st ((shownInts st).length % 2 ^ 32)
      ((shownKeys (shownGroups sigUsr1 now st)).length % 2 ^ 32), ?_, shownKeys_nodup hok hnames,
    fun g name src => mem_shownKeys hok, fun g i src hi => ?_⟩
  · rw [length_shownKeys, sigusr1_eq]
    simp only [List.append_assoc]
  · rw [lookUp_shownGroups hnames hi]
    refine Option.map_congr fun s hs => ?_
    obtain ⟨hmem, rfl⟩ := (membershipOf_eq_some hok).mp hs
    have hyoung := subscriptionsOf_ok hok s hmem
    exact shownSubscr_young hlt hyoung.2.1 hyoung.2.2

instance (st : Conf) : Decidable (NamesDistinct st) :=
  decidable_of_iff (∀ i < st.maxinterfaces, ∀ j < st.maxinterfaces, (intFind st i).isSome →
    (intFind st j).isSome → (st.intn i).name = (st.intn j).name → i = j) <| by
  have hlt : ∀ k, (intFind st k).isSome → k < st.maxinterfaces := fun k hk =>
    (intFind_eq_some.mp (intFind_self hk)).2.1
  exact ⟨fun h i j hi hj => h i (hlt i hi) j (hlt j hj) hi hj, fun h i _ j _ hi hj => h i j hi hj⟩

/-- The byte of an address, and a dot. -/
def plainByte (b : UInt8) : List Char := printU b.toNat ++ ".".toList

/-- With the two addresses that there are as `inet_ntop` has them, and all others byte by byte. -/
def exampleTexts : DumpTexts where
  ntop addr :=
    if addr = siteGroup then "ff05::1".toList
    else if addr = In6Addr.any then "::".toList
    else addr.s6Addr.flatMap plainByte
  strftime _ := "1970-01-01 00:00:00".toList
  version := "2019.03.08".toList
  githash := "unknown".toList

theorem dump_after_join : ∃ (shown : List ShownGroup) (rest : List Char),
    sigusr1 exampleTexts 0 sigUsr1 5 stateAfterJoin
      = "*** Subscription Information Dump\n\n".toList
        ++ shown.flatMap (ShownGroup.text exampleTexts)
        ++ ("*** Subscription Information Dump (end - ".toList
          ++ printD stateAfterJoin.groups.count ++ " groups, ".toList
          ++ printU ((shownKeys shown).length % 2 ^ 32) ++ " subscriptions)\n\n".toList) ++ rest ∧
    (shownKeys shown).Nodup ∧
    (∀ g name src, (g, name, src) ∈ shownKeys shown ↔ ∃ i, (intFind stateAfterJoin i).isSome ∧
      (stateAfterJoin.intn i).name = name ∧ (membershipOf stateAfterJoin.groups g i src).isSome) ∧
    ∀ g i src, (intFind stateAfterJoin i).isSome →
      lookUp shown g (stateAfterJoin.intn i).name src
        = (membershipOf stateAfterJoin.groups g i src).map fun s =>
            ⟨src, s.mode = mld2ModeIsInclude, 5 - s.refreshtime⟩ :=
  dump_shows_memberships (quietHost .little) 0 5 stateAfterJoin exampleTexts 0
    ⟨plainOptions, none, [.frame 0 (mldFrame 1 mld1JoinMessage)], by decide, by decide, rfl⟩
    (by decide) (by decide +kernel)

end Ecmh
