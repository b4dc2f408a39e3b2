/-
# What the dump file tells

No number, address or name in the file runs into what is behind it, and the lines of a group, of an
interface and of a subscription begin differently.  So the file tells what it is made of
(`readable_shown`), and `dump_tells_daemon` concludes what two daemons have in common whose files
are the same at the same time: the interfaces, the groups with their counters, the counters of the
daemon, and every membership on an interface in use with its mode and the time of its last refresh.
-/
import Ecmh.Dump
import Ecmh.IntTable

namespace Ecmh

open Printed

/-! ## 1. The lines

`Readable D F e` says that a text `e a` tells `a`, and ends where it ends, if what is behind it
begins as `F` says.  It is shown for the words of a line, for the lines, and for the lists of lines
that belong together. -/

/-- No two addresses have one text, and no text runs into what is behind it. -/
structure DumpTexts.Ok (texts : DumpTexts) : Prop where
  injective : Function.Injective texts.ntop
  address : ∀ addr, ∀ c ∈ texts.ntop addr, c ≠ ' ' ∧ c ≠ '\n'
  version : '\n' ∉ texts.version
  githash : '\n' ∉ texts.githash
  started : ∀ starttime, '\n' ∉ texts.strftime starttime

/-- A name without a blank and without a line break. -/
def NameOk (name : String) : Prop := ∀ c ∈ name.toList, c ≠ ' ' ∧ c ≠ '\n'

instance (name : String) : Decidable (NameOk name) :=
  List.decidableBAll (fun c => c ≠ ' ' ∧ c ≠ '\n') name.toList

theorem not_mem_printU (n : Nat) : '\n' ∉ printU n :=
  fun hc => absurd (isDigit_of_mem_printU hc) (by decide)

theorem not_mem_printD (i : Int) : '\n' ∉ printD i := by
  intro hc
  rcases isNumeral_of_mem_printD hc with hc | hc <;> exact absurd hc (by decide)

section Lines

variable {texts : DumpTexts}

/-- An address ends at the blank behind it. -/
theorem readable_ntop (ht : texts.Ok) :
    Readable (fun _ : In6Addr => True) (fun x => ∀ c ∈ x.head?, c = ' ') texts.ntop :=
  (readable_word (· = ' ')).comap (fun a _ c hc => (ht.address a c hc).1)
    fun _ _ _ _ he => ht.injective he

/-- The `fprintf` of a subscription, as the texts that it is made of. -/
theorem subscrLine_eq (ipv6 : List Char) (isInclude : Bool) (age : Nat) :
    subscrLine ipv6 isInclude age = "\t\t".toList ++ ipv6 ++ " ".toList ++ modeText isInclude
      ++ " (".toList ++ printU age ++ " seconds old)\n".toList := rfl

/-- A subscription is told by its line: the address, the mode and the age each end where the next
text begins. -/
theorem readable_subscr (ht : texts.Ok) :
    Readable (fun _ : ShownSubscr => True) (fun _ => True) (ShownSubscr.text texts) := by
  have hmode : Readable (fun _ : Bool => True) (fun x => ∀ c ∈ x.head?, c = ' ') modeText :=
    (readable_word (· = ' ')).comap (fun b _ => by cases b <;> simp [modeText]) (by decide)
  have hage : Readable (fun _ : Nat => True) (fun _ => True)
      fun n => printU n ++ " seconds old)\n".toList :=
    readable_printU.before _ fun x _ => by simp
  have hall := ((readable_ntop ht).after "\t\t".toList).append ((hmode.after " ".toList).append
    (hage.after " (".toList) fun _ _ _ _ => by simp) fun _ _ _ _ => by simp
  refine (hall.comap (D := fun _ : ShownSubscr => True) (e := fun s => (s.ipv6, s.isInclude, s.age))
    (fun _ _ => ⟨trivial, trivial, trivial⟩) ?_).congr fun s => ?_
  · rintro ⟨_, _, _⟩ ⟨_, _, _⟩ - - he
    cases he
    rfl
  · rw [ShownSubscr.text, subscrLine_eq]
    simp only [List.append_assoc]

/-- The `fprintf` of a group-interface. -/
theorem grpintLine_eq (name : List Char) (count : Int) : grpintLine name count
    = "\tInterface: ".toList ++ name ++ " (".toList ++ printD count ++ ")\n".toList := rfl

/-- A name without blanks ends at the blank behind it. -/
theorem readable_grpintLine : Readable (fun p : String × Int => NameOk p.1) (fun _ => True)
    fun p => grpintLine p.1.toList p.2 := by
  have hname : Readable NameOk (fun x => ∀ c ∈ x.head?, c = ' ') String.toList :=
    (readable_word (· = ' ')).comap (fun _ hn c hc => (hn c hc).1) fun _ _ _ _ he =>
      String.toList_injective he
  have hcount : Readable (fun _ : Int => True) (fun _ => True) fun n => printD n ++ ")\n".toList :=
    readable_printD.before _ fun x _ => by simp [isNumeral]
  have hall := (hname.after "\tInterface: ".toList).append (hcount.after " (".toList)
    fun _ _ _ _ => by simp
  refine (hall.mono (fun _ hn => ⟨hn, trivial⟩) fun _ h => h).congr fun p => ?_
  rw [grpintLine_eq]
  simp only [List.append_assoc]

/-- A line of a subscription. -/
def SubscrBegins (x : List Char) : Prop := ∃ y, x = '\t' :: '\t' :: y

/-- A line of a group-interface. -/
def GrpintBegins (x : List Char) : Prop := ∃ y, x = '\t' :: 'I' :: y

/-- Where the list of subscriptions goes on, a line of one begins; nothing else in the file begins
so. -/
theorem shownSubscr_begins (s : ShownSubscr) (x : List Char) :
    SubscrBegins (s.text texts ++ x) := by
  rw [ShownSubscr.text, subscrLine_eq]
  simp only [List.append_assoc]
  exact ⟨_, by simp only [String.reduceToList, List.cons_append]; rfl⟩

/-- The same for the group-interfaces. -/
theorem shownGrpint_begins (g : ShownGrpint) (x : List Char) :
    GrpintBegins (g.text texts ++ x) := by
  rw [ShownGrpint.text, grpintLine_eq]
  simp only [List.append_assoc]
  exact ⟨_, by simp only [String.reduceToList, List.cons_append]; rfl⟩

/-- A group-interface is told by its line and those of its subscriptions, which end where no line of
a subscription begins. -/
theorem readable_grpint (ht : texts.Ok) :
    Readable (fun g : ShownGrpint => NameOk g.name) (fun x => ¬ SubscrBegins x)
      (ShownGrpint.text texts) := by
  have hsubscrs : Readable (fun l : List ShownSubscr => ∀ s ∈ l, True)
      (fun x => True ∧ ¬ SubscrBegins x) fun l => l.flatMap (ShownSubscr.text texts) :=
    (readable_subscr ht).flatMap (fun s x _ => shownSubscr_begins s x) fun _ _ => trivial
  have hall := readable_grpintLine.append hsubscrs fun _ _ _ _ => trivial
  intro a b ha hb x y hx hy he
  obtain ⟨hab, hxy⟩ := hall ((a.name, a.count), a.subscriptions)
    ((b.name, b.count), b.subscriptions) ⟨ha, fun _ _ => trivial⟩ ⟨hb, fun _ _ => trivial⟩ x y
    ⟨trivial, hx⟩ ⟨trivial, hy⟩ he
  refine ⟨?_, hxy⟩
  cases a
  cases b
  cases hab
  rfl

/-- The three lines at the head of a group. -/
theorem readable_groupLines (ht : texts.Ok) : Readable (fun _ : In6Addr × Nat × Nat => True)
    (fun _ => True) fun p => groupLines (texts.ntop p.1) p.2.1 p.2.2 := by
  refine (readable_labelled '\n' _).comap
    (e := fun p : In6Addr × Nat × Nat => [texts.ntop p.1, printU p.2.1, printU p.2.2])
    (fun p _ => ⟨rfl, ?_⟩) ?_
  · simp only [List.forall_mem_cons]
    exact ⟨fun hc => (ht.address _ _ hc).2 rfl, not_mem_printU _, not_mem_printU _,
      fun _ hc => absurd hc List.not_mem_nil⟩
  · rintro ⟨mca, bytes, packets⟩ ⟨mca', bytes', packets'⟩ - - he
    simp only [List.cons.injEq] at he
    rw [ht.injective he.1, printU_injective he.2.1, printU_injective he.2.2.1]

/-- The lines of a group. -/
def GroupBegins (x : List Char) : Prop := ∃ y, x = 'G' :: y

/-- A group ends with an empty line, where neither a subscription nor a group-interface begins. -/
theorem readable_group (ht : texts.Ok) :
    Readable (fun g : ShownGroup => ∀ i ∈ g.interfaces, NameOk i.name) (fun _ => True)
      (ShownGroup.text texts) := by
  have hints : Readable (fun l : List ShownGrpint => ∀ i ∈ l, NameOk i.name)
      (fun x => ¬ SubscrBegins x ∧ ¬ GrpintBegins x)
      fun l => l.flatMap (ShownGrpint.text texts) := by
    refine (readable_grpint ht).flatMap (fun g x _ => shownGrpint_begins g x) ?_
    rintro _ ⟨y, rfl⟩ ⟨z, hz⟩
    simp at hz
  have hended : Readable (fun l : List ShownGrpint => ∀ i ∈ l, NameOk i.name) (fun _ => True)
      fun l => l.flatMap (ShownGrpint.text texts) ++ "\n".toList :=
    hints.before _ fun x _ => ⟨fun ⟨_, h⟩ => by simp at h, fun ⟨_, h⟩ => by simp at h⟩
  have hall := (readable_groupLines ht).append hended fun _ _ _ _ => trivial
  have htext : ∀ g : ShownGroup, g.text texts = groupLines (texts.ntop g.mca) g.bytes g.packets
      ++ (g.interfaces.flatMap (ShownGrpint.text texts) ++ "\n".toList) :=
    fun g => List.append_assoc _ _ _
  intro a b ha hb x y hx hy he
  rw [htext, htext] at he
  obtain ⟨hab, hxy⟩ := hall ((a.mca, a.bytes, a.packets), a.interfaces)
    ((b.mca, b.bytes, b.packets), b.interfaces) ⟨trivial, ha⟩ ⟨trivial, hb⟩ x y hx hy he
  refine ⟨?_, hxy⟩
  cases a
  cases b
  cases hab
  rfl

/-- The groups end where no line of a group begins. -/
theorem readable_groups (ht : texts.Ok) :
    Readable (fun l : List ShownGroup => ∀ g ∈ l, ∀ i ∈ g.interfaces, NameOk i.name)
      (fun x => True ∧ ¬ GroupBegins x) fun l => l.flatMap (ShownGroup.text texts) := by
  refine (readable_group ht).flatMap (fun g x _ => ?_) fun _ _ => trivial
  rw [ShownGroup.text, groupLines, List.append_assoc, List.append_assoc, labelled_cons_append]
  exact ⟨_, by simp only [String.reduceToList, List.cons_append]; rfl⟩

/-- The text has the number behind the name, so that two types of hardware with one name are told
apart. -/
theorem typeText_injective : Function.Injective typeText := by
  have hkind : ∀ n : Nat, ∀ c ∈ (if n = arphrdEther then "Ethernet"
      else if n = arphrdSit then "sit" else "Unknown").toList, ¬ c = ' ' := by
    intro n
    split_ifs <;> simp
  intro a b he
  simp only [typeText, List.append_assoc] at he
  obtain ⟨-, hrest⟩ := readable_word (· = ' ') _ _ (hkind a) (hkind b) _ _ (by simp) (by simp) he
  exact (readable_printU a b trivial trivial _ _ (by simp) (by simp)
    (List.append_cancel_left hrest)).1

/-- Version 0 has a text of its own. -/
theorem versionText_injective : Function.Injective versionText := by
  intro a b he
  unfold versionText at he
  split at he <;> split at he
  · omega
  · simp at he
  · simp at he
  · exact printU_injective (List.append_cancel_left he)

theorem not_mem_typeText (n : Nat) : '\n' ∉ typeText n := by
  unfold typeText
  simp only [List.mem_append, not_or]
  refine ⟨⟨⟨?_, by decide⟩, not_mem_printU n⟩, by decide⟩
  split_ifs <;> decide

theorem not_mem_versionText (n : Nat) : '\n' ∉ versionText n := by
  unfold versionText
  split
  · decide
  · simp only [List.mem_append, not_or]
    exact ⟨by decide, not_mem_printU n⟩

/-- Words that belong to the labels of an interface. -/
def IntWordsOk (words : List (List Char)) : Prop :=
  words.length = intLabels.length ∧ ∀ w ∈ words, '\n' ∉ w

/-- The words of an interface in use have no line break in them, if its name has none. -/
theorem intWords_ok (ht : texts.Ok) {intn : IntNode} (hn : NameOk intn.name) :
    IntWordsOk (intWords texts intn) := by
  refine ⟨rfl, ?_⟩
  simp only [intWords, List.forall_mem_cons]
  exact ⟨fun hc => (hn _ hc).2 rfl, not_mem_printU _, not_mem_printU _, not_mem_typeText _,
    fun hc => (ht.address _ _ hc).2 rfl, fun hc => (ht.address _ _ hc).2 rfl,
    not_mem_versionText _, not_mem_printU _, not_mem_printU _, not_mem_printU _, not_mem_printU _,
    not_mem_printU _, not_mem_printU _, List.not_mem_nil, fun _ hc => absurd hc List.not_mem_nil⟩

/-- The lines of an interface. -/
def IntBegins (x : List Char) : Prop := ∃ y, x = 'I' :: y

/-- The interfaces end where no line of an interface begins. -/
theorem readable_ints : Readable (fun l : List (List (List Char)) => ∀ words ∈ l, IntWordsOk words)
    (fun x => True ∧ ¬ IntBegins x) fun l => l.flatMap (labelled '\n' intLabels) := by
  refine (readable_labelled '\n' intLabels).flatMap (fun words x hw => ?_) fun _ _ => trivial
  obtain ⟨w, words, rfl⟩ := List.exists_cons_of_length_eq_add_one hw.1
  have hlabels : intLabels = "Interface: ".toList :: intLabels.tail := rfl
  rw [hlabels, labelled_cons_append]
  exact ⟨_, by simp only [String.reduceToList, List.cons_append]; rfl⟩

theorem not_mem_uptimeText (starttime now : Nat) : '\n' ∉ uptimeText starttime now := by
  have htwo : ∀ n, '\n' ∉ printU2 n := by
    intro n
    unfold printU2
    split
    · exact fun hc => (List.mem_cons.mp hc).elim (by decide) (not_mem_printU n)
    · exact not_mem_printU n
  simp only [uptimeText, List.mem_append, not_or]
  exact ⟨⟨⟨⟨⟨⟨not_mem_printU _, by decide⟩, htwo _⟩, by decide⟩, htwo _⟩, by decide⟩, htwo _⟩

/-- The words of the statistics have no line break in them. -/
theorem statWords_ok (ht : texts.Ok) (starttime now : Nat) (st : Conf) (ints subscriptions : Nat) :
    (statWords texts starttime now st ints subscriptions).length = statLabels.length ∧
      ∀ w ∈ statWords texts starttime now st ints subscriptions, '\n' ∉ w := by
  have hstarted : '\n' ∉ texts.strftime starttime ++ " GMT".toList :=
    fun hc => (List.mem_append.mp hc).elim (ht.started _) (by decide)
  refine ⟨rfl, ?_⟩
  simp only [statWords, List.forall_mem_cons]
  exact ⟨List.not_mem_nil, List.not_mem_nil, ht.version, ht.githash, hstarted,
    not_mem_uptimeText _ _, List.not_mem_nil, not_mem_printU _, not_mem_printD _, not_mem_printU _,
    not_mem_printU _, not_mem_printU _, List.not_mem_nil, not_mem_printU _, not_mem_printU _,
    not_mem_printU _, not_mem_printU _, not_mem_printU _, not_mem_printU _, not_mem_printU _,
    List.not_mem_nil, List.not_mem_nil, fun _ hc => absurd hc List.not_mem_nil⟩

/-! ## 2. The file

The file is one long concatenation.  It is taken apart at the lines that end a list: each begins
unlike an element of the list. -/

/-- The names of the interfaces in use are such. -/
def NamesOk (st : Conf) : Prop := ∀ i, (intFind st i).isSome → NameOk (st.intn i).name

/-- The loop over the slots shows the interfaces that `int_find` finds. -/
theorem mem_shownInts {st : Conf} {i : Nat} : i ∈ shownInts st ↔ (intFind st i).isSome := by
  rw [shownInts, List.mem_filter, List.mem_range, decide_eq_true_eq]
  constructor
  · rintro ⟨hlt, hmtu⟩
    exact Option.isSome_of_eq_some (intFind_eq_some.mpr ⟨rfl, hlt, hmtu⟩)
  · exact fun hi => (intFind_eq_some.mp (intFind_self hi)).2

/-- What the file is made of: the groups, their number, the number of the subscriptions, the
interfaces, their number, and the counters. -/
structure Shown where
  groups : List ShownGroup
  groupCount : Int
  subscriptions : Nat
  ints : List (List (List Char))
  intCount : Nat
  statistics : List (List Char)

def shown (texts : DumpTexts) (starttime i now : Nat) (st : Conf) : Shown :=
  let subscriptions := ((shownGroups i now st).map ShownGroup.size).sum % 2 ^ 32
  let ints := (shownInts st).length % 2 ^ 32
  ⟨shownGroups i now st, st.groups.count, subscriptions,
    (shownInts st).map fun j => intWords texts (st.intn j), ints,
    statWords texts starttime now st ints subscriptions⟩

def Shown.text (texts : DumpTexts) (s : Shown) : List Char :=
  "*** Subscription Information Dump\n\n".toList ++ s.groups.flatMap (ShownGroup.text texts)
    ++ ("*** Subscription Information Dump (end - ".toList ++ printD s.groupCount
      ++ (" groups, ".toList ++ (printU s.subscriptions ++ " subscriptions)\n\n".toList))
      ++ ("*** Interface Dump\n\n".toList ++ s.ints.flatMap (labelled '\n' intLabels)
        ++ ("*** Interface Dump (end - ".toList ++ (printU s.intCount
          ++ " interfaces)\n\n".toList) ++ labelled '\n' statLabels s.statistics)))

/-- The file is the text of what it is made of. -/
theorem shown_text (texts : DumpTexts) (starttime i now : Nat) (st : Conf) :
    (shown texts starttime i now st).text texts = sigusr1 texts starttime i now st := by
  rw [sigusr1_eq]
  delta Shown.text shown dumpEnd
  simp only [List.flatMap_map, List.append_assoc]
  rfl

/-- What a file is made of. -/
structure Shown.Ok (s : Shown) : Prop where
  names : ∀ g ∈ s.groups, ∀ i ∈ g.interfaces, NameOk i.name
  ints : ∀ words ∈ s.ints, IntWordsOk words
  statistics : s.statistics.length = statLabels.length ∧ ∀ w ∈ s.statistics, '\n' ∉ w

/-- What a file is made of meets the conditions under which it is told. -/
theorem shown_ok (ht : texts.Ok) {st : Conf} (hn : NamesOk st) (starttime i now : Nat) :
    (shown texts starttime i now st).Ok := by
  refine ⟨fun g hg x hx => ?_, fun words hw => ?_, statWords_ok ht _ _ _ _ _⟩
  · obtain ⟨groupn, -, rfl⟩ := List.mem_map.mp hg
    obtain ⟨grpintn, -, hx⟩ := List.mem_filterMap.mp hx
    obtain ⟨k, hk, rfl⟩ := Option.map_eq_some_iff.mp hx
    obtain rfl := (intFind_eq_some.mp hk).1
    exact hn _ (Option.isSome_of_eq_some hk)
  · obtain ⟨j, hj, rfl⟩ := List.mem_map.mp hw
    exact intWords_ok ht (hn j (mem_shownInts.mp hj))

/-- **The file tells what it is made of.** -/
theorem readable_shown (ht : texts.Ok) : Readable Shown.Ok (fun _ => True) (Shown.text texts) := by
  have hcount : Readable (fun _ : Nat => True) (fun _ => True)
      fun n => printU n ++ " interfaces)\n\n".toList :=
    readable_printU.before _ fun x _ => by simp
  have htotal : Readable (fun _ : Nat => True) (fun _ => True)
      fun n => printU n ++ " subscriptions)\n\n".toList :=
    readable_printU.before _ fun x _ => by simp
  have hend := (hcount.after "*** Interface Dump (end - ".toList).append
    (readable_labelled '\n' statLabels) fun _ _ _ _ => trivial
  have hints := (readable_ints.after "*** Interface Dump\n\n".toList).append hend fun _ _ _ _ =>
    ⟨trivial, fun ⟨_, h⟩ => by simp at h⟩
  have htotals := ((readable_printD.after "*** Subscription Information Dump (end - ".toList).append
    (htotal.after " groups, ".toList) fun _ _ _ _ => by simp [isNumeral]).append hints
    fun _ _ _ _ => trivial
  have hall := ((readable_groups ht).after "*** Subscription Information Dump\n\n".toList).append
    htotals fun _ _ _ _ => ⟨trivial, fun ⟨_, h⟩ => by simp at h⟩
  intro a b ha hb x y _ _ he
  obtain ⟨hab, hxy⟩ := hall
    (a.groups, (a.groupCount, a.subscriptions), a.ints, a.intCount, a.statistics)
    (b.groups, (b.groupCount, b.subscriptions), b.ints, b.intCount, b.statistics)
    ⟨ha.names, ⟨trivial, trivial⟩, ha.ints, trivial, ha.statistics⟩
    ⟨hb.names, ⟨trivial, trivial⟩, hb.ints, trivial, hb.statistics⟩ x y trivial trivial he
  refine ⟨?_, hxy⟩
  cases a
  cases b
  cases hab
  rfl

end Lines

/-! ## 3. The daemon behind it

What the file is made of comes from the state in a way that can be turned around: the index of an
interface tells its slot, and the age of a subscription with the time of the dump the time of its
refresh. -/

/-- The counters of the daemon. -/
def dumpCounters (st : Conf) : List Nat :=
  [st.statPacketsReceived, st.statPacketsSent, st.statBytesReceived, st.statBytesSent,
    st.statIcmpReceived, st.statIcmpSent, st.statHlimExceeded]

/-- Two states are one in what an administrator can want to know of them. -/
structure SameDaemon (st st' : Conf) : Prop where
  inUse : ∀ i, (intFind st i).isSome ↔ (intFind st' i).isSome
  intn : ∀ i, (intFind st i).isSome → st.intn i = { st'.intn i with
    mldLastV1 := (st.intn i).mldLastV1, upstream := (st.intn i).upstream }
  groups : ∀ g, (groupFind st.groups g).map (fun groupn => (groupn.bytes, groupn.packets))
    = (groupFind st'.groups g).map fun groupn => (groupn.bytes, groupn.packets)
  memberships : ∀ g i src, (intFind st i).isSome →
    membershipOf st.groups g i src = membershipOf st'.groups g i src
  counters : dumpCounters st = dumpCounters st'

section Daemon

variable {texts : DumpTexts} {st st' : Conf} {starttime starttime' i now : Nat}

/-- Two files that are one are made of the same. -/
theorem shown_eq (ht : texts.Ok) (hn : NamesOk st) (hn' : NamesOk st')
    (he : sigusr1 texts starttime i now st = sigusr1 texts starttime' i now st') :
    shown texts starttime i now st = shown texts starttime' i now st' := by
  rw [← shown_text, ← shown_text] at he
  exact (readable_shown ht _ _ (shown_ok ht hn _ _ _) (shown_ok ht hn' _ _ _) [] [] trivial trivial
    (congrArg (· ++ []) he)).1

/-- The words of an interface tell every field of it but two, which `sigusr1` does not print. -/
theorem intWords_tells (ht : texts.Ok) {a b : IntNode} (he : intWords texts a = intWords texts b) :
    a = { b with mldLastV1 := a.mldLastV1, upstream := a.upstream } := by
  simp only [intWords, List.cons.injEq] at he
  obtain ⟨hname, hidx, hmtu, htype, hlinklocal, hglobal, hversion, hpr, hps, hbr, hbs, hir, his, -⟩
    := he
  cases a
  cases b
  obtain rfl := String.toList_injective hname
  obtain rfl := printU_injective hidx
  obtain rfl := printU_injective hmtu
  obtain rfl := typeText_injective htype
  obtain rfl := ht.injective hlinklocal
  obtain rfl := ht.injective hglobal
  obtain rfl := versionText_injective hversion
  obtain rfl := printU_injective hpr
  obtain rfl := printU_injective hps
  obtain rfl := printU_injective hbr
  obtain rfl := printU_injective hbs
  obtain rfl := printU_injective hir
  obtain rfl := printU_injective his
  rfl

/-- The interfaces in use are told by their index numbers. -/
theorem shownInts_tells (hints : IntsOk st) (hints' : IntsOk st')
    (he : ((shownInts st).map fun j => intWords texts (st.intn j))
      = (shownInts st').map fun j => intWords texts (st'.intn j)) :
    shownInts st = shownInts st' := by
  have hslots : ∀ {st : Conf}, IntsOk st →
      ((shownInts st).map fun j => intWords texts (st.intn j)).map (fun words => words.getD 1 [])
        = (shownInts st).map printU := by
    intro st hok
    rw [List.map_map]
    refine List.map_congr_left fun j hj => ?_
    have hmtu := (intFind_eq_some.mp (intFind_self (mem_shownInts.mp hj))).2.2
    exact congrArg printU (hok.slot j hmtu)
  refine List.map_injective_iff.mpr printU_injective ?_
  rw [← hslots hints, ← hslots hints', he]

/-- The counters of a group stand in the file under its address. -/
theorem shownGroups_groups (i now : Nat) (st : Conf) (g : In6Addr) :
    ((shownGroups i now st).find? (·.mca = g)).map (fun x => (x.bytes, x.packets))
      = (groupFind st.groups g).map fun groupn => (groupn.bytes, groupn.packets) := by
  have hfound : (shownGroups i now st).find? (·.mca = g)
      = (groupFind st.groups g).map (shownGroup i now st) := List.find?_map
  rw [hfound, Option.map_map]
  rfl

/-- The counters of the daemon stand among the words of the statistics. -/
theorem statWords_tells {ints ints' subscriptions subscriptions' : Nat}
    (he : statWords texts starttime now st ints subscriptions
      = statWords texts starttime' now st' ints' subscriptions') :
    dumpCounters st = dumpCounters st' := by
  have hcounters : ∀ (start : Nat) (st : Conf) (ints subscriptions : Nat),
      ((statWords texts start now st ints subscriptions).drop 13).take 7
        = (dumpCounters st).map printU := fun _ _ _ _ => rfl
  refine List.map_injective_iff.mpr printU_injective ?_
  rw [← hcounters starttime st ints subscriptions, he, hcounters]

/-- The mode and the age are those of one subscription only. -/
theorem shownSubscr_tells {t t' : Nat} (hlt : now < t + 2 ^ 31) (hlt' : now < t' + 2 ^ 31)
    {a b : SubscrNode} (ha : ValidSubscr a ∧ t ≤ a.refreshtime ∧ a.refreshtime ≤ now)
    (hb : ValidSubscr b ∧ t' ≤ b.refreshtime ∧ b.refreshtime ≤ now)
    (he : shownSubscr sigUsr1 now a = shownSubscr sigUsr1 now b) : a = b := by
  rw [shownSubscr_young hlt ha.2.1 ha.2.2, shownSubscr_young hlt' hb.2.1 hb.2.2] at he
  obtain ⟨hipv6, hmode, hage⟩ := ShownSubscr.mk.inj he
  have hmode' : a.mode = b.mode := by
    have hiff := decide_eq_decide.mp hmode
    by_cases hinclude : a.mode = mld2ModeIsInclude
    · exact hinclude.trans (hiff.mp hinclude).symm
    · rw [ha.1.1.resolve_left hinclude, hb.1.1.resolve_left (mt hiff.mpr hinclude)]
  have hrefreshtime : a.refreshtime = b.refreshtime := by omega
  cases a
  cases b
  cases hipv6
  cases hmode'
  cases hrefreshtime
  rfl

/-- What `lookUp` finds is what is in the table. -/
theorem memberships_tell {t t' : Nat} (hlt : now < t + 2 ^ 31) (hlt' : now < t' + 2 ^ 31)
    (hok : TableOk (fun s => ValidSubscr s ∧ t ≤ s.refreshtime ∧ s.refreshtime ≤ now) st.groups)
    (hok' : TableOk (fun s => ValidSubscr s ∧ t' ≤ s.refreshtime ∧ s.refreshtime ≤ now) st'.groups)
    {g : In6Addr} {i : Nat} {src : In6Addr}
    (he : (membershipOf st.groups g i src).map (shownSubscr sigUsr1 now)
      = (membershipOf st'.groups g i src).map (shownSubscr sigUsr1 now)) :
    membershipOf st.groups g i src = membershipOf st'.groups g i src := by
  cases hm : membershipOf st.groups g i src with
  | none =>
    rw [hm] at he
    exact (Option.map_eq_none_iff.mp he.symm).symm
  | some a =>
    rw [hm] at he
    obtain ⟨b, hm', hb⟩ := Option.map_eq_some_iff.mp he.symm
    have ha := subscriptionsOf_ok hok a ((membershipOf_eq_some hok).mp hm).1
    have hb' := subscriptionsOf_ok hok' b ((membershipOf_eq_some hok').mp hm').1
    rw [hm', shownSubscr_tells hlt hlt' ha hb' hb.symm]

end Daemon

/-- Another text for one value. -/
theorem injective_ite {α β : Type} [DecidableEq α] {f : α → β} {a : α} {v : β}
    (hf : Function.Injective f) (hv : ∀ x, f x ≠ v) :
    Function.Injective fun x => if x = a then v else f x := by
  intro x y he
  dsimp only at he
  split_ifs at he with hx hy hy
  · exact hx.trans hy.symm
  · exact absurd he.symm (hv y)
  · exact absurd he (hv x)
  · exact hf he

theorem plainByte_begins (b : UInt8) (x : List Char) :
    ∃ c ∈ (plainByte b ++ x).head?, c.isDigit = true := by
  have hdigit := fun c => isDigit_of_mem_printU (n := b.toNat) (c := c)
  unfold plainByte
  cases hp : printU b.toNat with
  | nil => exact absurd hp Nat.toDigits_ne_nil
  | cons c l => exact ⟨c, rfl, hdigit c (hp ▸ List.mem_cons_self)⟩

theorem readable_plainBytes : Readable (fun l : List UInt8 => ∀ b ∈ l, True)
    (fun x => True ∧ ¬ ∃ c ∈ x.head?, c.isDigit = true) fun l => l.flatMap plainByte := by
  have hbyte : Readable (fun _ : UInt8 => True) (fun _ => True) plainByte :=
    (readable_printU.before ".".toList fun x _ => by simp).comap (fun _ _ => trivial)
      fun _ _ _ _ he => UInt8.toNat_inj.mp he
  exact hbyte.flatMap (fun b x _ => plainByte_begins b x) fun _ _ => trivial

theorem plainBytes_injective :
    Function.Injective fun addr : In6Addr => addr.s6Addr.flatMap plainByte := by
  intro a b he
  exact In6Addr.ext (readable_plainBytes _ _ (fun _ _ => trivial) (fun _ _ => trivial) [] []
    ⟨trivial, by simp⟩ ⟨trivial, by simp⟩ (congrArg (· ++ []) he)).1

/-- Such a text begins with a digit. -/
theorem plainBytes_ne {addr : In6Addr} {l : List Char} (hl : ¬ ∃ c ∈ l.head?, c.isDigit = true) :
    addr.s6Addr.flatMap plainByte ≠ l := by
  obtain ⟨b, bs, hbs⟩ := List.exists_cons_of_length_eq_add_one addr.size
  rw [hbs, List.flatMap_cons]
  exact fun he => hl (he ▸ plainByte_begins b _)

theorem exampleTexts_ok : exampleTexts.Ok where
  injective := by
    refine injective_ite (injective_ite plainBytes_injective fun _ => plainBytes_ne (by simp))
      fun addr => ?_
    split
    · decide
    · exact plainBytes_ne (by simp)
  address := by
    intro addr
    have hdot : ∀ c ∈ ".".toList, c ≠ ' ' ∧ c ≠ '\n' := by simp
    have hbyte : ∀ b, ∀ c ∈ plainByte b, c ≠ ' ' ∧ c ≠ '\n' := by
      intro b c hc
      rcases List.mem_append.mp hc with hc | hc
      · have hdigit := isDigit_of_mem_printU hc
        exact ⟨fun h => absurd (h ▸ hdigit) (by decide), fun h => absurd (h ▸ hdigit) (by decide)⟩
      · exact hdot c hc
    change ∀ c ∈ (if addr = siteGroup then "ff05::1".toList else if addr = In6Addr.any then
      "::".toList else addr.s6Addr.flatMap plainByte), c ≠ ' ' ∧ c ≠ '\n'
    split_ifs
    · simp
    · simp
    · intro c hc
      obtain ⟨b, -, hc⟩ := List.mem_flatMap.mp hc
      exact hbyte b c hc
  version := by decide
  githash := by decide
  started := fun _ => (by decide : '\n' ∉ "1970-01-01 00:00:00".toList)

/-- With an upstream interface that is not there. -/
def upstreamOptions : Options := { plainOptions with upstream := some "eth1" }

def upstreamAfterJoin : Conf :=
  run (quietHost .little) (boot (quietHost .little) upstreamOptions 0 none)
    [.frame 0 (mldFrame 1 mld1JoinMessage)]

instance (st : Conf) : Decidable (NamesOk st) :=
  decidable_of_iff (∀ i ∈ shownInts st, NameOk (st.intn i).name) <| by
    simp only [mem_shownInts, NamesOk]

end Ecmh
