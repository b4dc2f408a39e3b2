/-
# Joins that are not announced

A report is announced on the other interfaces if `groupint_get` calls its group new: the group node
was not there, or was not touched for 125 seconds.  What the interfaces want does not come into it,
and every report for the group touches the node, from whatever interface.  So the first listener
that the other interfaces of an interface `K` get is passed over when the group is there already,
for the listeners of `K` itself for example.

That a group is reported is said of what was meant.  A report for one group begins with its record
however the others are written, so that who gets it is told (`report_tells_first`).
-/
import Ecmh.Backed
import Ecmh.QueryAnswer
import Ecmh.ReportFirst
import Ecmh.Versions

namespace Ecmh

open ByteMem

/-! ## 1. What `mld_send_report_all` tells -/

/-- The packet is meant to announce the group on the interface. -/
def AnnouncesOn (ifindex : Nat) (g : In6Addr) (x : Sent) : Prop :=
  x.ifindex = ifindex ∧ x.Announces g

/-- The group is announced on the interface between the two states. -/
def Reported (st st' : Conf) (ifindex : Nat) (g : In6Addr) : Prop :=
  ∃ x ∈ newSent st st', x.ifindex = ifindex ∧ x.Announces g

/-- The interface `j` is another one in use, and gets a report for the group: one in MLDv1, or one
in MLDv2 if somebody elsewhere wants the group. -/
def Reached (st : Conf) (i j : Nat) (g : In6Addr) : Prop :=
  passedOn st i j ∧ (mld1Reports st j = true ∨
    mld2Reports st j = true ∧ ∃ a, WantedElsewhere st.groups j g a)

section All

variable {h : Host} {st : Conf} {i j : Nat} {mca g : In6Addr}

/-- An interface in use has a slot. -/
theorem passedOn_slot (hp : passedOn st i j) : j < st.maxinterfaces := by
  by_contra hge
  refine hp.1 ?_
  rw [intn_of_ge (Nat.le_of_not_lt hge)]
  rfl

/-- Where another interface wants the group, the report names it. -/
theorem mldSendReport_tells (hok : TableOk ValidSubscr st.groups) (hints : IntsOk st)
    (hr : Reached st i j mca) (hmtu : mld1Reports st j = true ∨ (st.intn j).mtu < 2 ^ 20) :
    SomeSent (AnnouncesOn j mca) st (mldSendReport h st j mca) := by
  obtain ⟨⟨hused, -⟩, hv⟩ := hr
  have hidx := hints.slot j hused
  by_cases h1 : mld1Reports st j = true
  · refine (mldSendReport_mld1 h h1 mca).mono ?_
    rintro x ⟨hs, hx, -⟩
    exact ⟨hx.trans hidx, (Sent.announces_mld1 hs).mpr rfl⟩
  · obtain ⟨h2, hw⟩ := hv.resolve_left h1
    have hsend : mldSendReport h st j mca = mld2SendReport h st j (some mca) := by
      rw [mldSendReport, if_neg h1]
      exact if_pos h2
    rw [← hidx] at hw
    obtain ⟨x, hx, hxi, -, recs, hs, hr⟩ := @mld2SendReport_tells h st j (some mca) hok
      (hints.mtu j hused) (hmtu.resolve_left h1) mca (Or.inr rfl) hw
    rw [hsend]
    exact SomeSent.of_mem (mld2SendReport_sendsOnly h st j (some mca)).allSent hx
      ⟨hxi.trans hidx, (Sent.announces_mld2 hs).mpr hr⟩

/-- The loop over the interfaces comes to this one. -/
theorem mldSendReportAll_tells (hok : TableOk ValidSubscr st.groups) (hints : IntsOk st)
    (hr : Reached st i j mca) (hmtu : mld1Reports st j = true ∨ (st.intn j).mtu < 2 ^ 20) :
    SomeSent (AnnouncesOn j mca) st (mldSendReportAll h st i mca) := by
  obtain ⟨s, hs, hbefore, hafter⟩ := mldSendReportAll_each h hok (passedOn_slot hr.1) hr.1 mca
  have hintn := hs.left j (List.mem_singleton_self j)
  have hs1 := mld1Reports_of_sendsOnly hs.sends j
  have hreached : Reached s i j mca := by
    rw [Reached, passedOn, hs.sends.ifindex, hintn, hs1, mld2Reports_of_sendsOnly hs.sends,
      hs.sends.groups]
    exact hr
  have hok' : TableOk ValidSubscr s.groups := by
    rw [hs.sends.groups]
    exact hok
  have hone := mldSendReport_tells (h := h) hok' (hs.sends.keepsInts.intsOk hints) hreached
    (by rw [hs1, hintn]; exact hmtu)
  exact (SomeSent.after hbefore hone).then hafter

/-- Conversely, who is told of a group is told of the one that was announced, and is reached. -/
theorem reached_of_told (hok : TableOk ValidSubscr st.groups) (hints : IntsOk st)
    (htold : SomeSent (AnnouncesOn j g) st (mldSendReportAll h st i mca)) :
    g = mca ∧ Reached st i j mca := by
  obtain ⟨x, -, ⟨hxj, hannounce⟩, k, hp, hfor⟩ :=
    (htold.and (mldSendReportAll_for h hok i mca)).exists
  have hkj : k = j := by rw [← hxj, hfor.ifindex, hints.slot k hp.1]
  subst hkj
  rcases hfor.sender with ⟨hs, hv⟩ | ⟨recs, hs, hv, hrecs⟩
  · exact ⟨(Sent.announces_mld1 hs).mp hannounce, hp, Or.inl hv⟩
  · obtain ⟨r, hr, rfl, -⟩ := (Sent.announces_mld2 hs).mp hannounce
    obtain ⟨rfl, -, hw⟩ := hrecs r hr
    rw [hints.slot k hp.1] at hw
    exact ⟨rfl, hp, Or.inr ⟨hv, hw⟩⟩

end All

/-! ## 2. New groups -/

/-- What `groupint_get` calls a new group: no node, or one that was not touched for 125 seconds. -/
def GroupNew (now : Nat) (groups : Groups) (g : In6Addr) : Prop :=
  ∀ groupn, groupFind groups g = some groupn →
    ecmhSubscriptionTimeout ≤ sub64 now groupn.lastforward

section GroupNew

variable {now ifindex : Nat} {groups : Groups} {g : In6Addr}

/-- The flag that `groupint_get` returns says what its name says. -/
theorem groupintGet_isnew (now : Nat) (groups : Groups) (g : In6Addr) (ifindex : Nat) :
    (groupintGet now groups g ifindex).2 = true ↔ GroupNew now groups g := by
  unfold groupintGet GroupNew
  cases groupFind groups g with
  | none => simp
  | some groupn => simp

/-- A group that was touched in this second is not new. -/
theorem Stamped.not_new (hs : Stamped now groups g ifindex) : ¬ GroupNew now groups g := by
  obtain ⟨groupn, hfind, hlast, -⟩ := hs
  intro hnew
  have hle := hnew groupn hfind
  rw [hlast, sub64_self] at hle
  exact absurd hle (by decide)

/-- Whether a group is new depends on nothing but the group. -/
theorem groupNew_congr {groups' : Groups} (h : groupFind groups' g = groupFind groups g) :
    GroupNew now groups' g ↔ GroupNew now groups g := by
  rw [GroupNew, GroupNew, h]

theorem wantedElsewhere_congr {groups' : Groups} (h : groupFind groups' g = groupFind groups g)
    (J : Nat) (a : In6Addr) : WantedElsewhere groups' J g a ↔ WantedElsewhere groups J g a := by
  simp only [WantedElsewhere, subscriptionsOf, groupintFind, h]

/-- A report for another group leaves the group alone. -/
theorem groupFind_joinTable (now ifindex : Nat) (groups : Groups) {j : Join} (hj : j.mca ≠ g) :
    groupFind (joinTable now ifindex groups j) g = groupFind groups g := by
  have hget : groupFind (groupintGet now groups j.mca ifindex).1 g = groupFind groups g := by
    unfold groupintGet
    cases groupFind groups j.mca with
    | none =>
      dsimp only
      rw [groupFind_setGroup _ _ (groupTouch_mca now ifindex), if_neg hj.symm, groupFind,
        listnodeAdd, KeyedList.find_concat_ne _ (show (groupCreate j.mca).mca ≠ g from hj)]
      rfl
    | some groupn =>
      dsimp only
      rw [groupFind_setGroup _ _ (groupTouch_mca now ifindex), if_neg hj.symm]
  rw [joinTable, setGroupint, groupFind_setGroup _ _ (setGrpint_mca ifindex _), if_neg hj.symm,
    hget]

/-- A record for another group leaves this one. -/
theorem groupFind_grecTable (now ifindex : Nat) (groups : Groups) {r : GrecSeen}
    (hr : ∀ j, r.join = some j → j.mca ≠ g) :
    groupFind (grecTable now ifindex groups r) g = groupFind groups g := by
  unfold grecTable
  split
  · rfl
  · rename_i j hj
    exact groupFind_joinTable now ifindex groups (hr j hj)

end GroupNew

/-! ## 3. The records of a report -/

/-- The walk ends at a record that it does not go through, and goes only through those that it
knows. -/
theorem grecWalk_known (e : Endian) (mld2r : Mem) (plen : Nat) : ∀ (ngrec grec : Nat)
    {pre post : List GrecSeen} {r : GrecSeen},
    (grecWalk e mld2r plen ngrec grec).1 = pre ++ r :: post →
      (∀ r' ∈ pre, r'.srcs.isSome = true ∧ mld2Known r'.grecType = true) ∧
      (r.srcs.isSome = true → mld2Known r.grecType = true) := by
  intro ngrec
  induction ngrec with
  | zero =>
    intro grec pre post r he
    exact absurd he.symm (by simp [grecWalk])
  | succ ngrec ih =>
    intro grec pre post r he
    -- the record at `grec` is the first one
    have hlast : ∀ r0 : GrecSeen, [r0] = pre ++ r :: post → pre = [] ∧ r = r0 := by
      intro r0 h0
      cases pre with
      | nil =>
        rw [List.nil_append, List.cons.injEq] at h0
        exact ⟨rfl, h0.1.symm⟩
      | cons x pre => simp at h0
    rw [grecWalk] at he
    split at he
    · exact absurd he.symm (by simp)
    · dsimp only at he
      split at he
      · obtain ⟨rfl, rfl⟩ := hlast _ he
        exact ⟨List.forall_mem_nil _, fun hc => absurd hc Bool.false_ne_true⟩
      · rename_i hknown
        rw [Bool.not_eq_true', Bool.not_eq_false] at hknown
        split at he
        · obtain ⟨rfl, rfl⟩ := hlast _ he
          exact ⟨List.forall_mem_nil _, fun _ => hknown⟩
        · dsimp only at he
          cases pre with
          | nil =>
            rw [List.nil_append, List.cons.injEq] at he
            rw [← he.1]
            exact ⟨List.forall_mem_nil _, fun _ => hknown⟩
          | cons x pre =>
            rw [List.cons_append, List.cons.injEq] at he
            obtain ⟨hpre, hr⟩ := ih _ he.2
            refine ⟨List.forall_mem_cons.mpr ⟨?_, hpre⟩, hr⟩
            rw [← he.1]
            exact ⟨rfl, hknown⟩

/-- A record that the loop comes to has only whole records of known types before it. -/
theorem mld2Records_known {e : Endian} {mld2r : Mem} {plen : Nat} {pre post : List GrecSeen}
    {r : GrecSeen} (he : mld2Records e mld2r plen = pre ++ r :: post) :
    (∀ r' ∈ pre, r'.srcs.isSome = true ∧ mld2Known r'.grecType = true) ∧
      (r.srcs.isSome = true → mld2Known r.grecType = true) := by
  unfold mld2Records at he
  dsimp only at he
  split at he
  · exact absurd he.symm (by simp)
  · exact grecWalk_known e mld2r plen _ 8 he

/-- A record that the handler knows goes into the table where its scope is not ignored. -/
theorem GrecSeen.join_isSome {r : GrecSeen} (hknown : mld2Known r.grecType = true)
    (hscope : mld2Ignores r.mca = false) : ∃ j, r.join = some j := by
  simp [GrecSeen.join, hknown, hscope]

/-- The state at a record of a report whose handling began in the state `st`: the indices and the
versions are those of `st`, and an interface may have fallen out of use. -/
structure AtRecord (st : Conf) (s : Conf × Bool) : Prop where
  table : TableOk ValidSubscr s.1.groups
  ifindex : ∀ j, (s.1.intn j).ifindex = (st.intn j).ifindex
  reports1 : ∀ j, mld1Reports s.1 j = mld1Reports st j
  reports2 : ∀ j, mld2Reports s.1 j = mld2Reports st j
  mtu : ∀ j, (s.1.intn j).mtu = (st.intn j).mtu ∨ (s.1.intn j).mtu = 0

/-- It holds before the first record. -/
theorem AtRecord.start {st : Conf} (hok : TableOk ValidSubscr st.groups) (isnew : Bool) :
    AtRecord st (st, isnew) := ⟨hok, fun _ => rfl, fun _ => rfl, fun _ => rfl, fun _ => Or.inl rfl⟩

/-- **One record** keeps it. -/
theorem AtRecord.step {h : Host} {now i : Nat} {st : Conf} {s : Conf × Bool} (hs : AtRecord st s)
    (r : GrecSeen) : AtRecord st (grecStep h now i s r) := by
  have hsends := grecStep_sendsOnly h now i s r
  refine ⟨?_, fun j => (hsends.ifindex j).trans (hs.ifindex j),
    fun j => (mld1Reports_of_sendsOnly hsends j).trans (hs.reports1 j),
    fun j => (mld2Reports_of_sendsOnly hsends j).trans (hs.reports2 j), fun j => ?_⟩
  · rw [grecStep_groups]
    exact grecTable_ok hs.table r
  · rcases (hsends.intn j).1 with hm | hm
    · rw [hm]
      exact hs.mtu j
    · exact Or.inr hm

/-- The records of a report keep it. -/
theorem AtRecord.run {h : Host} {now i : Nat} {st : Conf} {s : Conf × Bool} (hs : AtRecord st s)
    (rs : List GrecSeen) : AtRecord st (Runs.run (grecStep h now i) s rs) :=
  Runs.run_invariant (P := AtRecord st) (fun _ r hs => hs.step r) rs s hs

section Records

variable {h : Host} {now i j : Nat} {st : Conf} {g : In6Addr}

theorem AtRecord.keepsInts {s : Conf × Bool} (hs : AtRecord st s) : KeepsInts st s.1 :=
  fun k => ⟨hs.ifindex k, hs.mtu k⟩

/-- Records for other groups leave the group alone. -/
theorem run_untouched : ∀ (pre : List GrecSeen) (s : Conf × Bool),
    (∀ r ∈ pre, ∀ jn, r.join = some jn → jn.mca ≠ g) →
    groupFind (Runs.run (grecStep h now i) s pre).1.groups g = groupFind s.1.groups g := by
  intro pre
  induction pre with
  | nil => exact fun s _ => rfl
  | cons r pre ih =>
    intro s hpre
    obtain ⟨hr, hpre⟩ := List.forall_mem_cons.mp hpre
    rw [Runs.run_cons, ih _ hpre, grecStep_groups, groupFind_grecTable _ _ _ hr]

/-- A record leaves the stamp of a group. -/
theorem Stamped.grecTable {groups : Groups} {ifindex : Nat} (hs : Stamped now groups g ifindex)
    (k : Nat) (r : GrecSeen) : Stamped now (grecTable now k groups r) g ifindex := by
  unfold Ecmh.grecTable
  split
  · exact hs
  · exact hs.joinTable k _

/-- After a record for the group it is not new any more. -/
theorem run_not_new {pre : List GrecSeen} {r : GrecSeen} (hr : r ∈ pre) {jn : Join}
    (hj : r.join = some jn) (s : Conf × Bool) :
    ¬ GroupNew now (Runs.run (grecStep h now i) s pre).1.groups jn.mca := by
  obtain ⟨p1, p2, rfl⟩ := List.append_of_mem hr
  rw [Runs.run_append, Runs.run_cons]
  generalize Runs.run (grecStep h now i) s p1 = s1
  have hstart : Stamped now (grecStep h now i s1 r).1.groups jn.mca (s1.1.intn i).ifindex := by
    rw [grecStep_groups, Ecmh.grecTable, hj]
    exact stamped_joinTable now _ _ jn
  refine (?_ : Stamped now _ jn.mca (s1.1.intn i).ifindex).not_new
  refine Runs.run_invariant (P := fun s : Conf × Bool =>
    Stamped now s.1.groups jn.mca (s1.1.intn i).ifindex) (fun s x hs => ?_) p2 _ hstart
  rw [grecStep_groups]
  exact hs.grecTable _ x

/-- What a record announces. -/
theorem reached_of_grecStep {s : Conf × Bool} (hok : TableOk ValidSubscr s.1.groups)
    (hints : IntsOk s.1) {r : GrecSeen}
    (htold : SomeSent (AnnouncesOn j g) s.1 (grecStep h now i s r).1) :
    (r.srcs.isSome = true ∧ grecIsnew now (s.1.intn i).ifindex s.1.groups s.2 r = true) ∧
      r.mca = g ∧
      Reached (s.1.setGroups (grecTable now (s.1.intn i).ifindex s.1.groups r)) i j g := by
  by_cases hsend : r.srcs.isSome = true ∧
      grecIsnew now (s.1.intn i).ifindex s.1.groups s.2 r = true
  · have hstep : (grecStep h now i s r).1 = mldSendReportAll h
        (s.1.setGroups (grecTable now (s.1.intn i).ifindex s.1.groups r)) i r.mca := if_pos hsend
    rw [hstep] at htold
    have hsome : SomeSent (AnnouncesOn j g)
        (s.1.setGroups (grecTable now (s.1.intn i).ifindex s.1.groups r)) _ := htold.congr rfl rfl
    obtain ⟨rfl, hr⟩ := reached_of_told (grecTable_ok hok r)
      ((setGroups_keepsInts s.1 _).intsOk hints) hsome
    exact ⟨hsend, rfl, hr⟩
  · have hstep : (grecStep h now i s r).1
        = s.1.setGroups (grecTable now (s.1.intn i).ifindex s.1.groups r) := if_neg hsend
    rw [hstep] at htold
    exact absurd rfl htold.ne

/-- A record that announces its group tells who is reached. -/
theorem grecStep_tells {s : Conf × Bool} (hok : TableOk ValidSubscr s.1.groups)
    (hints : IntsOk s.1) {r : GrecSeen} (hsend : r.srcs.isSome = true ∧
      grecIsnew now (s.1.intn i).ifindex s.1.groups s.2 r = true)
    (hr : Reached (s.1.setGroups (grecTable now (s.1.intn i).ifindex s.1.groups r)) i j r.mca)
    (hmtu : mld1Reports s.1 j = true ∨ (s.1.intn j).mtu < 2 ^ 20) :
    SomeSent (AnnouncesOn j r.mca) s.1 (grecStep h now i s r).1 := by
  have hstep : (grecStep h now i s r).1 = mldSendReportAll h
      (s.1.setGroups (grecTable now (s.1.intn i).ifindex s.1.groups r)) i r.mca := if_pos hsend
  rw [hstep]
  exact (mldSendReportAll_tells (h := h) (grecTable_ok hok r)
    ((setGroups_keepsInts s.1 _).intsOk hints) hr hmtu).congr rfl rfl

end Records

/-! ## 4. When a join is announced -/

/-- The first interfaces other than `ifindex` that want the group come in between the two tables. -/
structure TurnsWanted (groups groups' : Groups) (ifindex : Nat) (g : In6Addr) : Prop where
  before : ∀ a, ¬ WantedElsewhere groups ifindex g a
  after : ∃ a, WantedElsewhere groups' ifindex g a

/-- The first record for the group is gone through while the interface `j` is in use, and asks for
traffic if `j` gets no MLDv1 reports. -/
def FirstTold (h : Host) (now : Nat) (st : Conf) (i j : Nat) (g : In6Addr) (rs : List GrecSeen) :
    Prop :=
  ∃ pre r post, rs = pre ++ r :: post ∧ (∀ r' ∈ pre, r'.mca ≠ g) ∧ r.mca = g ∧
    r.srcs.isSome = true ∧ ((Runs.run (grecStep h now i) (st, false) pre).1.intn j).mtu ≠ 0 ∧
    (mld1Reports st j = true ∨ r.Includes)

/-- A group that becomes wanted is written to. -/
theorem TurnsWanted.touched {groups groups' : Groups} {ifindex : Nat} {g : In6Addr}
    (ht : TurnsWanted groups groups' ifindex g) : groupFind groups' g ≠ groupFind groups g := by
  intro hc
  obtain ⟨a, ha⟩ := ht.after
  exact ht.before a ((wantedElsewhere_congr hc ifindex a).mp ha)

section Reports

variable {h : Host} {now i j : Nat} {st : Conf} {g : In6Addr}

/-- The records that turn a group into a wanted one have a scope that is not ignored. -/
theorem TurnsWanted.scope {rs : List GrecSeen} {isnew : Bool}
    (ht : TurnsWanted st.groups (Runs.run (grecStep h now i) (st, isnew) rs).1.groups j g) :
    mld2Ignores g = false := by
  by_contra hc
  refine ht.touched (run_untouched rs (st, isnew) fun r _ jn hj he => ?_)
  have hign : mld2Ignores r.mca = true := by
    rw [← (r.join_rows hj).1, he]
    exact Bool.not_eq_false _ ▸ hc
  simp [GrecSeen.join, hign] at hj

theorem atRecord_run (hok : TableOk ValidSubscr st.groups) (rs : List GrecSeen) :
    AtRecord st (Runs.run (grecStep h now i) (st, false) rs) := (AtRecord.start hok false).run rs

/-- An interface is told of a group exactly if one of the records tells it. -/
theorem records_told_iff (hok : TableOk ValidSubscr st.groups) (rs : List GrecSeen) :
    SomeSent (AnnouncesOn j g) st (Runs.run (grecStep h now i) (st, false) rs).1 ↔
      ∃ pre r post, rs = pre ++ r :: post ∧
        SomeSent (AnnouncesOn j g) (Runs.run (grecStep h now i) (st, false) pre).1
          (grecStep h now i (Runs.run (grecStep h now i) (st, false) pre) r).1 :=
  someSent_run_iff (I := AtRecord st) Prod.fst (fun s r hs => ⟨hs.step r,
    (grecStep_sendsOnly h now i s r).allSent.congr rfl rfl⟩) rs (st, false) (.start hok false)

variable {e : Endian} {mld2r : Mem} {plen : Nat}

/-- A group that is announced while the records are gone through was new, and is announced at its
first record. -/
theorem firstTold_of_told (hok : TableOk ValidSubscr st.groups) (hints : IntsOk st)
    (ht : TurnsWanted st.groups
      (Runs.run (grecStep h now i) (st, false) (mld2Records e mld2r plen)).1.groups j g)
    (htold : SomeSent (AnnouncesOn j g) st
      (Runs.run (grecStep h now i) (st, false) (mld2Records e mld2r plen)).1) :
    GroupNew now st.groups g ∧ FirstTold h now st i j g (mld2Records e mld2r plen) := by
  have hscope := ht.scope
  obtain ⟨pre, r, post, he, hsome⟩ := (records_told_iff hok _).mp htold
  have hs : AtRecord st (Runs.run (grecStep h now i) (st, false) pre) := atRecord_run hok pre
  obtain ⟨hknown, hr⟩ := mld2Records_known he
  obtain ⟨hsend, rfl, hreach⟩ := reached_of_grecStep hs.table (hs.keepsInts.intsOk hints) hsome
  obtain ⟨jn, hj⟩ := r.join_isSome (hr hsend.1) hscope
  have hnew : GroupNew now (Runs.run (grecStep h now i) (st, false) pre).1.groups r.mca := by
    have hisnew := hsend.2
    rw [grecIsnew, hj] at hisnew
    rw [← (r.join_rows hj).1]
    exact (groupintGet_isnew ..).mp hisnew
  have hpre : ∀ r' ∈ pre, r'.mca ≠ r.mca := by
    intro r' hr' hc
    obtain ⟨jn', hj'⟩ := r'.join_isSome (hknown r' hr').2 (hc ▸ hscope)
    have hold := @run_not_new h now i pre r' hr' jn' hj' (st, false)
    rw [(r'.join_rows hj').1, hc] at hold
    exact hold hnew
  have hsame : groupFind (Runs.run (grecStep h now i) (st, false) pre).1.groups r.mca
      = groupFind st.groups r.mca :=
    run_untouched pre (st, false) fun r' hr' jn' hj' hc =>
      hpre r' hr' ((r'.join_rows hj').1.symm.trans hc)
  refine ⟨(groupNew_congr hsame).mp hnew, pre, r, post, he, hpre, rfl, hsend.1, hreach.1.1, ?_⟩
  rcases hreach.2 with hv | ⟨-, hw⟩
  · exact Or.inl ((hs.reports1 j).symm.trans hv)
  · have hne : j ≠ ((Runs.run (grecStep h now i) (st, false) pre).1.intn i).ifindex := by
      have hidx : ((Runs.run (grecStep h now i) (st, false) pre).1.intn j).ifindex = j :=
        (hs.keepsInts.intsOk hints).slot j hreach.1.1
      exact fun hc => hreach.1.2 (hc.symm.trans hidx.symm)
    rcases (wanted_grecTable_iff hs.table hne r).mp hw with hinc | ⟨k, hk, s, hsub, hm, -⟩
    · exact Or.inr hinc
    · refine absurd ?_ (ht.before s.ipv6)
      exact (wantedElsewhere_congr hsame j s.ipv6).mp ⟨k, hk, s, hsub, hm, rfl⟩

/-- A group that is new is announced at its first record. -/
theorem told_of_firstTold (hok : TableOk ValidSubscr st.groups) (hints : IntsOk st)
    (hver : VersionsOk st) (hp : passedOn st i j)
    (hmtu : mld1Reports st j = true ∨ (st.intn j).mtu < 2 ^ 20) (hscope : mld2Ignores g = false)
    (hnew : GroupNew now st.groups g)
    (hfirst : FirstTold h now st i j g (mld2Records e mld2r plen)) :
    SomeSent (AnnouncesOn j g) st
      (Runs.run (grecStep h now i) (st, false) (mld2Records e mld2r plen)).1 := by
  obtain ⟨pre, r, post, he, hpre, rfl, hsrcs, hused, hv⟩ := hfirst
  have hs : AtRecord st (Runs.run (grecStep h now i) (st, false) pre) := atRecord_run hok pre
  refine (records_told_iff hok _).mpr ⟨pre, r, post, he, ?_⟩
  obtain ⟨jn, hj⟩ := r.join_isSome ((mld2Records_known he).2 hsrcs) hscope
  have hsame : groupFind (Runs.run (grecStep h now i) (st, false) pre).1.groups r.mca
      = groupFind st.groups r.mca :=
    run_untouched pre (st, false) fun r' hr' jn' hj' hc =>
      hpre r' hr' ((r'.join_rows hj').1.symm.trans hc)
  have hisnew : grecIsnew now ((Runs.run (grecStep h now i) (st, false) pre).1.intn i).ifindex
      (Runs.run (grecStep h now i) (st, false) pre).1.groups
      (Runs.run (grecStep h now i) (st, false) pre).2 r = true := by
    rw [grecIsnew, hj]
    refine (groupintGet_isnew ..).mpr ?_
    rw [(r.join_rows hj).1]
    exact (groupNew_congr hsame).mpr hnew
  have hpass : passedOn (Runs.run (grecStep h now i) (st, false) pre).1 i j := by
    refine ⟨hused, ?_⟩
    rw [hs.ifindex, hs.ifindex]
    exact hp.2
  have hidx := (hs.keepsInts.intsOk hints).slot j hused
  refine grecStep_tells hs.table (hs.keepsInts.intsOk hints) ⟨hsrcs, hisnew⟩ ⟨hpass, ?_⟩ ?_
  · by_cases h1 : mld1Reports st j = true
    · exact Or.inl ((hs.reports1 j).trans h1)
    · refine Or.inr ⟨(hs.reports2 j).trans ((hver.reports_some j).resolve_left h1), ?_⟩
      refine (wanted_grecTable_iff hs.table ?_ r).mpr (Or.inl (hv.resolve_left h1))
      exact fun hc => hpass.2 (hc.symm.trans hidx.symm)
  · rcases hmtu with hmtu | hmtu
    · exact Or.inl ((hs.reports1 j).trans hmtu)
    · exact Or.inr (by rw [(hs.mtu j).resolve_right hused]; exact hmtu)

/-- What an MLDv1 report for a group that turns wanted announces. -/
theorem mld1Told_iff (hok : TableOk ValidSubscr st.groups) (hints : IntsOk st)
    (hver : VersionsOk st) (hp : passedOn st i j) {mld1 : Mem}
    (ht : TurnsWanted st.groups (l4Ipv6Icmpv6Mld1Report h now st i mld1).groups j g) :
    (SomeSent (AnnouncesOn j g) st (l4Ipv6Icmpv6Mld1Report h now st i mld1) →
      GroupNew now st.groups g) ∧
    (mld1Reports (intSetMldVersion now st i 1) j = true ∨ (st.intn j).mtu < 2 ^ 20 →
      GroupNew now st.groups g →
      SomeSent (AnnouncesOn j g) st (l4Ipv6Icmpv6Mld1Report h now st i mld1)) := by
  have hsent : (intSetMldVersion now st i 1).sent = st.sent := intSetMldVersion_sent ..
  have hgroups : (intSetMldVersion now st i 1).groups = st.groups := intSetMldVersion_groups ..
  have hints1 := (intSetMldVersion_handles now st i 1).keepsInts.intsOk hints
  have hver1 := (intSetMldVersion_keepsVersions now st i (Nat.le_succ 1)).versionsOk hver
  have hp1 : passedOn (intSetMldVersion now st i 1) i j := by
    rw [passedOn, intSetMldVersion_intn now st i 1 i, intSetMldVersion_intn now st i 1 j]
    exact hp
  have hmtu1 : ((intSetMldVersion now st i 1).intn j).mtu = (st.intn j).mtu := by
    rw [intSetMldVersion_intn]
  have hreport : l4Ipv6Icmpv6Mld1Report h now st i mld1
      = if mld1Ignores (mld1Mca mld1) then intSetMldVersion now st i 1
        else if (groupintGet now st.groups (mld1Mca mld1) (st.intn i).ifindex).2 then
          mldSendReportAll h ((intSetMldVersion now st i 1).setGroups
            (joinTable now (st.intn i).ifindex st.groups (mld1Join (mld1Mca mld1)))) i
            (mld1Mca mld1)
        else (intSetMldVersion now st i 1).setGroups
          (joinTable now (st.intn i).ifindex st.groups (mld1Join (mld1Mca mld1))) := by
    rw [← hgroups, ← intSetMldVersion_ifindex now st i 1 i]
    rfl
  rw [hreport] at ht ⊢
  generalize intSetMldVersion now st i 1 = st1 at *
  by_cases hign : mld1Ignores (mld1Mca mld1) = true
  · rw [if_pos hign] at ht
    exact absurd (congrArg (groupFind · g) hgroups) ht.touched
  · rw [if_neg hign] at ht ⊢
    have hok1 : TableOk ValidSubscr
        (joinTable now (st.intn i).ifindex st.groups (mld1Join (mld1Mca mld1))) :=
      mld1Join_ok hok _ _
    have hmca : mld1Mca mld1 = g := by
      by_contra hne
      refine ht.touched ?_
      rw [← groupFind_joinTable (j := mld1Join (mld1Mca mld1)) now (st.intn i).ifindex st.groups
        hne]
      split
      · rw [(mldSendReportAll_sendsOnly h _ i _).groups]
        rfl
      · rfl
    subst hmca
    by_cases hnew : GroupNew now st.groups (mld1Mca mld1)
    · rw [if_pos ((groupintGet_isnew ..).mpr hnew)] at ht ⊢
      refine ⟨fun _ => hnew, fun hmtu _ => ?_⟩
      have hreached : Reached (st1.setGroups
          (joinTable now (st.intn i).ifindex st.groups (mld1Join (mld1Mca mld1)))) i j
          (mld1Mca mld1) := by
        refine ⟨hp1, (hver1.reports_some j).imp_right fun hv => ⟨hv, ?_⟩⟩
        rw [← (mldSendReportAll_sendsOnly h _ i _).groups]
        exact ht.after
      refine (mldSendReportAll_tells (h := h) hok1 ((setGroups_keepsInts st1 _).intsOk hints1)
        hreached ?_).congr hsent.symm rfl
      exact hmtu.imp_right fun hlt => lt_of_eq_of_lt hmtu1 hlt
    · rw [if_neg fun hc => hnew ((groupintGet_isnew ..).mp hc)]
      exact ⟨fun htold => absurd hsent htold.ne, fun _ hc => absurd hc hnew⟩

/-- What the announcement of a report on the interface `j` depends on: its group is new, and in
MLDv2 the first record for the group is told. -/
def Message.Told (h : Host) (now : Nat) (st : Conf) (i j : Nat) (g : In6Addr) : Message → Prop
  | .mld1Report _ => GroupNew now st.groups g
  | .mld2Report mld2r plen => GroupNew now st.groups g ∧
    FirstTold h now (intSetMldVersion now (countIcmpReceived st i) i 2) i j g
      (mld2Records h.endian mld2r plen)
  | _ => False

/-- A membership report. -/
def Message.IsReport : Message → Prop
  | .mld1Report _ => True
  | .mld2Report _ _ => True
  | _ => False

/-- The version of an interface does not depend on what comes in on another one. -/
theorem mld1Reports_other (hij : i ≠ j) (newversion : Nat) :
    mld1Reports (intSetMldVersion now (countIcmpReceived st i) i newversion) j
      = mld1Reports st j := by
  obtain ⟨h1, h2, -⟩ := intSetMldVersion_modes now (countIcmpReceived st i) i newversion
  obtain ⟨f, hf, -⟩ := intSetMldVersion_eq now (countIcmpReceived st i) i newversion
  obtain ⟨n, hn⟩ := countIcmpReceived_intn st i j
  rw [mld1Reports, mld1Reports, h1, h2, hf, setInt_intn_ne _ _ hij, hn]
  rfl

/-- Interfaces that stay in use are still passed on to. -/
theorem passedOn_of_keepsInts {st' : Conf} (hp : passedOn st i j) (hk : KeepsInts st st')
    (hmtu : (st'.intn j).mtu = (st.intn j).mtu) : passedOn st' i j := by
  rw [passedOn, hmtu, (hk i).1, (hk j).1]
  exact hp

/-- **When a report that makes a group a wanted one is announced.** -/
theorem handle_told_iff (hok : TableOk ValidSubscr st.groups) (hints : IntsOk st)
    (hver : VersionsOk st) (hp : passedOn st i j) {m : Message} (hrep : m.IsReport) {len : Nat}
    (ht : TurnsWanted st.groups (m.handle h now st i len).groups j g) :
    (SomeSent (AnnouncesOn j g) st (m.handle h now st i len) → m.Told h now st i j g) ∧
    (mld1Reports st j = true ∨ (st.intn j).mtu < 2 ^ 20 → m.Told h now st i j g →
      SomeSent (AnnouncesOn j g) st (m.handle h now st i len)) := by
  have hij : i ≠ j := fun hc => hp.2 (hc ▸ rfl)
  have hsent : (countIcmpReceived st i).sent = st.sent := rfl
  have hcount := (countIcmpReceived_handles st i).keepsInts
  have hver1 := (countIcmpReceived_keepsVersions st i).versionsOk hver
  have hmtu1 : ((countIcmpReceived st i).intn j).mtu = (st.intn j).mtu := by
    obtain ⟨n, hn⟩ := countIcmpReceived_intn st i j
    rw [hn]
  have hp1 := passedOn_of_keepsInts hp hcount hmtu1
  cases m with
  | mld1Report mld1 =>
    have hone := @mld1Told_iff h now i j (countIcmpReceived st i) g hok (hcount.intsOk hints) hver1
      hp1 mld1 ht
    rw [mld1Reports_other hij, hmtu1] at hone
    exact ⟨fun htold => hone.1 (htold.congr hsent rfl),
      fun hmtu hnew => (hone.2 hmtu hnew).congr hsent.symm rfl⟩
  | mld2Report mld2r plen =>
    have hset := intSetMldVersion_handles now (countIcmpReceived st i) i 2
    have hsent2 := intSetMldVersion_sent now (countIcmpReceived st i) i 2
    have hgroups2 := intSetMldVersion_groups now (countIcmpReceived st i) i 2
    have hreports2 := @mld1Reports_other now i j st hij 2
    have hver2 := (intSetMldVersion_keepsVersions now (countIcmpReceived st i) i
      (Nat.le_refl 2)).versionsOk hver1
    have hmtu2 : ((intSetMldVersion now (countIcmpReceived st i) i 2).intn j).mtu
        = (st.intn j).mtu := by
      rw [intSetMldVersion_intn]
      exact hmtu1
    rw [Message.handle, mld2Report_run] at ht ⊢
    rw [Message.Told]
    have hints2 := hset.keepsInts.intsOk (hcount.intsOk hints)
    have hp2 := passedOn_of_keepsInts hp (hcount.trans hset.keepsInts) hmtu2
    generalize intSetMldVersion now (countIcmpReceived st i) i 2 = st2 at *
    rw [← show st2.groups = st.groups from hgroups2] at ht hok ⊢
    rw [← hreports2, ← hmtu2]
    exact ⟨fun htold => firstTold_of_told hok hints2 ht (htold.congr hsent2 rfl), fun hmtu htold =>
      (told_of_firstTold hok hints2 hver2 hp2 hmtu ht.scope htold.1 htold.2).congr hsent2.symm rfl⟩
  | dropped => exact absurd hrep id
  | ignored => exact absurd hrep id
  | exceeded => exact absurd hrep id
  | data iph => exact absurd hrep id
  | echoExceeded iph off plen => exact absurd hrep id
  | echo iph => exact absurd hrep id
  | mld1Reduction mld1 => exact absurd hrep id
  | query plen => exact absurd hrep id

end Reports

/-- The two ways to say that a group was announced are one. -/
theorem reported_iff {h : Host} {st : Conf} (ev : Event) (j : Nat) (g : In6Addr) :
    Reported st (step h st ev) j g ↔ SomeSent (AnnouncesOn j g) st (step h st ev) := by
  constructor
  · rintro ⟨x, hx, hp⟩
    exact .of_mem (step_allSent ev) hx hp
  · intro hsome
    exact hsome.exists

/-- **When no join is swallowed**: a report that turns the interfaces other than `j` into ones that
want the group is announced on `j` if its group is new and, in MLDv2, the first record for it is
told; and only then. -/
theorem join_told_iff {h : Host} {st : Conf} (hr : Reachable h st) {now : Nat} {f : Frame}
    {st1 : Conf} {i j : Nat} (hin : f.Enters now st st1 i) (hp : passedOn st1 i j) {m : Message}
    (hm : l3Message h.endian (st1.intn i) f.buffer (min f.len bufferlen) = m) (hrep : m.IsReport)
    {g : In6Addr}
    (ht : TurnsWanted st.groups (step h st (.frame now f)).groups (st1.intn j).ifindex g) :
    (Reported st (step h st (.frame now f)) (st1.intn j).ifindex g →
      m.Told h now (countIntReceived st1 i (min f.len bufferlen)) i j g) ∧
    (mld1Reports st1 j = true ∨ (st1.intn j).mtu < 2 ^ 20 →
      m.Told h now (countIntReceived st1 i (min f.len bufferlen)) i j g →
      Reported st (step h st (.frame now f)) (st1.intn j).ifindex g) := by
  have hints1 : IntsOk st1 := by
    have hints := frameInterface_intsOk now (intsOk_of_intn (reachable_intsOk hr) fun _ => rfl :
      IntsOk (countReceived st (min f.len bufferlen))) f
    rw [hin.interface] at hints
    exact hints
  have hver1 : VersionsOk st1 := by
    have hver := (frameInterface_keepsVersions now (countReceived st (min f.len bufferlen))
      f).versionsOk ⟨(reachable_versionsOk hr).one, (reachable_versionsOk hr).version⟩
    rw [hin.interface] at hver
    exact hver
  rw [hints1.slot j hp.1] at ht ⊢
  rw [reported_iff]
  rcases frame_cases h now st f with ⟨st2, k, hin2, he⟩ | ⟨hout, -, -⟩
  · obtain ⟨rfl, rfl⟩ := hin.unique hin2
    have hstep : step h st (.frame now f)
        = m.handle h now (countIntReceived st2 k (min f.len bufferlen)) k
            (min f.len bufferlen) := by
      rw [← hm]
      exact he
    rw [hstep] at ht ⊢
    have hkeeps := countIntReceived_keepsInts st2 k (min f.len bufferlen)
    have hver2 := (countIntReceived_keepsVersions st2 k (min f.len bufferlen)).versionsOk hver1
    obtain ⟨p, b, hpb⟩ := countIntReceived_intn st2 k (min f.len bufferlen) j
    have hmtu : ((countIntReceived st2 k (min f.len bufferlen)).intn j).mtu = (st2.intn j).mtu := by
      rw [hpb]
    have hreports : mld1Reports (countIntReceived st2 k (min f.len bufferlen)) j
        = mld1Reports st2 j := by
      rw [mld1Reports, mld1Reports, hpb]
      rfl
    have hp2 := passedOn_of_keepsInts hp hkeeps hmtu
    have hsent : (countIntReceived st2 k (min f.len bufferlen)).sent = st.sent := hin.sent
    have hgroups : (countIntReceived st2 k (min f.len bufferlen)).groups = st.groups := hin.groups
    have hok := reachable_tableOk hr
    have hints2 := hkeeps.intsOk hints1
    rw [← hreports, ← hmtu]
    rw [← hgroups] at ht hok
    have hone := handle_told_iff hok hints2 hver2 hp2 hrep ht
    exact ⟨fun htold => hone.1 (htold.congr hsent rfl),
      fun hbound htold => (hone.2 hbound htold).congr hsent.symm rfl⟩
  · exact absurd hin (hout st1 i)

/-! ## 5. What a receiver is told -/

/-- The packet decodes to an announcement of the group, or it is an MLDv2 report that begins with
one whatever comes behind (as long as the length that goes to `sendto` covers it). -/
def TellsFirst (packet : List UInt8) (g : In6Addr) : Prop :=
  Announced packet g ∨
    ∃ r : Grec, r.grecMca = g ∧ r.Asks ∧ (76 ≤ packet.length → firstGrec packet = some r.header)

/-- A packet of one group whose first record is on the wire as it was meant tells of the group. -/
theorem Sent.tellsFirst {x : Sent} (hon : x.OnWire) (hfirst : x.FirstOnWire) (hone : x.OneGroup)
    {g : In6Addr} (hx : x.Announces g) : TellsFirst x.packet g := by
  rcases hx with hs | ⟨recs, hs, r, hr, rfl, -⟩
  · exact Or.inl ((hon.mld1 hs g).mpr rfl)
  · obtain ⟨g, hg⟩ := hone recs hs
    cases recs with
    | nil => cases hr
    | cons r0 recs =>
      obtain ⟨hmca, hasks⟩ := hg r0 List.mem_cons_self
      exact Or.inr ⟨r0, hmca.trans (hg r hr).1.symm, hasks, hfirst r0 recs hs⟩

/-- For a report only calls for one group are made. -/
theorem Message.calls_of_isReport {h : Host} {now : Nat} {st : Conf} {i : Nat} {m : Message}
    (hrep : m.IsReport) : m.Calls (fun _ _ mca => mca.isSome) h now st i := by
  have hall : ∀ (st : Conf) (mca : In6Addr),
      AllCalls (fun _ _ mca => mca.isSome) h st i mca := fun st mca _ _ _ _ _ _ _ => rfl
  cases m with
  | mld1Report mld1 => exact fun _ _ => hall _ _
  | mld2Report mld2r plen => exact fun _ _ _ _ _ _ => hall _ _
  | _ => exact absurd hrep id

/-- **A group that is announced for a report is what the receiver reads first.** -/
theorem report_tells_first {h : Host} {st : Conf} (hr : Reachable h st) {now : Nat} {f : Frame}
    {st1 : Conf} {i : Nat} (hin : f.Enters now st st1 i)
    (hrep : (l3Message h.endian (st1.intn i) f.buffer (min f.len bufferlen)).IsReport) {j : Nat}
    {g : In6Addr} (htold : Reported st (step h st (.frame now f)) j g) :
    ∃ x ∈ newSent st (step h st (.frame now f)), x.ifindex = j ∧ TellsFirst x.packet g := by
  have hrule : CallRule (fun _ _ mca => mca.isSome)
      (fun x => x.FirstOnWire ∧ x.OneGroup) h := by
    refine ⟨fun x hx => ⟨fun r recs hs => absurd hs (hx _), fun recs hs => absurd hs (hx recs)⟩, ?_⟩
    intro st i mca hints hmtu hsome
    obtain ⟨mca, rfl⟩ := Option.isSome_iff_exists.mp hsome
    have hlow := hints.mtu i hmtu
    exact (mld2SendReport_first h (by omega) _).and (mld2SendReport_oneGroup h st i mca)
  have hcalls : EventCalls (fun _ _ mca => mca.isSome) h st (.frame now f) := by
    intro st2 k hin2
    obtain ⟨rfl, rfl⟩ := hin.unique hin2
    exact Message.calls_of_isReport hrep
  have hall := ((step_onWire (.frame now f)).and
    (step_calls hrule (reachable_intsOk hr) hcalls)).forall
  obtain ⟨x, hx, hidx, hannounce⟩ := htold
  obtain ⟨hon, hfirst, hone⟩ := hall x hx
  exact ⟨x, hx, hidx, Sent.tellsFirst hon hfirst hone hannounce⟩

/-- The table after the report of a host on the first link. -/
theorem stateTwo_wanted (joined : Bool) : TurnsWanted (stateTwo joined).groups
    (step (quietHost .little) (stateTwo joined) (.frame 2 firstJoins)).groups 2 siteGroup := by
  have hbefore : ∀ k ≠ 2, subscriptionsOf (stateTwo joined).groups siteGroup k = [] := by
    intro k hk
    have hgroups : (stateTwo joined).groups = if joined then
        ⟨[⟨siteGroup, ⟨[⟨2, ⟨[⟨In6Addr.any, 1, 1⟩], 1⟩⟩], 1⟩, 1, 0, 0⟩], 1⟩ else listNew := by
      cases joined <;> decide +kernel
    rw [hgroups]
    cases joined with
    | true => simp [subscriptionsOf, groupintFind, groupFind, grpintFind, KeyedList.find, hk.symm]
    | false => rfl
  have hafter : (⟨In6Addr.any, mld2ModeIsInclude, 2⟩ : SubscrNode) ∈ subscriptionsOf
      (step (quietHost .little) (stateTwo joined) (.frame 2 firstJoins)).groups siteGroup 1 := by
    cases joined <;> decide +kernel
  refine ⟨?_, In6Addr.any, 1, by decide, _, hafter, rfl, rfl⟩
  rintro a ⟨k, hk, s, hs, -⟩
  rw [hbefore k hk] at hs
  cases hs

theorem stateTwo_reachable (joined : Bool) : Reachable (quietHost .little) (stateTwo joined) :=
  ⟨plainOptions, 0, none, _, rfl⟩

theorem stateTwo_passedOn (joined : Bool) :
    passedOn (countReceived (stateTwo joined) (min firstJoins.len bufferlen)) 1 2 := by
  cases joined <;> exact ⟨by decide +kernel, by decide +kernel⟩

/-- Nobody else has joined: the report is announced on the second interface. -/
theorem first_join_told : Reported (stateTwo false)
    (step (quietHost .little) (stateTwo false) (.frame 2 firstJoins)) 2 siteGroup := by
  have htold := (join_told_iff (stateTwo_reachable false) (stateTwo_enters false)
    (stateTwo_passedOn false) (stateTwo_message false) trivial (stateTwo_wanted false)).2
    (Or.inr (by decide +kernel))
  refine htold fun groupn hfind => ?_
  have hnone : groupFind (countIntReceived (countReceived (stateTwo false)
      (min firstJoins.len bufferlen)) 1 (min firstJoins.len bufferlen)).groups siteGroup
        = none := by
    decide +kernel
  rw [hnone] at hfind
  cases hfind

/-- A host on the second link has joined a second before: the second interface, which gets MLDv1
reports, is not told of the first listener elsewhere. -/
theorem second_join_swallowed : Reachable (quietHost .little) (stateTwo true) ∧
    firstJoins.Enters 2 (stateTwo true)
      (countReceived (stateTwo true) (min firstJoins.len bufferlen)) 1 ∧
    passedOn (countReceived (stateTwo true) (min firstJoins.len bufferlen)) 1 2 ∧
    (l3Message .little ((countReceived (stateTwo true) (min firstJoins.len bufferlen)).intn 1)
      firstJoins.buffer (min firstJoins.len bufferlen)).IsReport ∧
    TurnsWanted (stateTwo true).groups
      (step (quietHost .little) (stateTwo true) (.frame 2 firstJoins)).groups 2 siteGroup ∧
    ¬ Reported (stateTwo true)
      (step (quietHost .little) (stateTwo true) (.frame 2 firstJoins)) 2 siteGroup := by
  refine ⟨stateTwo_reachable true, stateTwo_enters true, stateTwo_passedOn true, ?_,
    stateTwo_wanted true, ?_⟩
  · rw [stateTwo_message]
    trivial
  · rintro ⟨x, hx, -⟩
    have hnone : newSent (stateTwo true)
        (step (quietHost .little) (stateTwo true) (.frame 2 firstJoins)) = [] := by decide +kernel
    rw [hnone] at hx
    cases hx

end Ecmh
