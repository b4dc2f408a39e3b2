/-
# Forwarding as a function of the history

The table is an intermediate: what is forwarded to whom is settled by what was received before.
`membership_history` says which subscription a run leaves, and which it does not: the one of the
last report for the group, the interface and the source, unless an MLDv1 reduction came after it, or
a timeout more than 250 seconds later.

`forwarding_history` puts this together with the loops of `l4_ipv6_multicast`: a packet is copied to
an interface if and only if the last word of that interface on the group, for all sources or for the
source of the packet, was `INCLUDE`.
-/
import Ecmh.Unchanged
import Ecmh.Expiry
import Ecmh.Forward

namespace Ecmh

/-! ## 1. One event and one entry -/

/-- The mode that a report sets for the source: that of its last row for it. -/
def TableOp.sets (mca : In6Addr) (ifindex : Nat) (src : In6Addr) : TableOp → Option Nat
  | .refresh k joins =>
    if k = ifindex then Writes.last (joins.flatMap Join.cells) (mca, src) else none
  | _ => none

/-- The entry of the map after an operation. -/
theorem applyMap_entry (now : Nat) (op : TableOp) (m : MemberMap) (mca : In6Addr) (ifindex : Nat)
    (src : In6Addr) : op.applyMap now m mca ifindex src =
      match op.sets mca ifindex src with
      | some mode => some ⟨src, mode, now⟩
      | none =>
        if op = .reduce mca ifindex ∧ src = In6Addr.any then none
        else if op = .sweep then (m mca ifindex src).filter (fun s => !deadTooLong now s)
        else m mca ifindex src := by
  cases op with
  | keep => simp [TableOp.applyMap, TableOp.sets]
  | count dst len => simp [TableOp.applyMap, TableOp.sets]
  | refresh k joins =>
    simp only [TableOp.applyMap, TableOp.sets, joins_eq_run]
    by_cases hk : k = ifindex
    · rw [if_pos hk, ← hk, run_set_apply]
      cases Writes.last (joins.flatMap Join.cells) (mca, src) <;> simp
    · rw [if_neg hk, run_set_other (Ne.symm hk)]
      simp
  | reduce g k =>
    simp only [TableOp.applyMap, TableOp.sets, MemberMap.leave]
    by_cases hc : mca = g ∧ ifindex = k ∧ src = In6Addr.any
    · obtain ⟨rfl, rfl, rfl⟩ := hc
      simp
    · rw [if_neg hc, if_neg, if_neg (by simp)]
      rintro ⟨h, hsrc⟩
      obtain ⟨rfl, rfl⟩ := TableOp.reduce.inj h
      exact hc ⟨rfl, rfl, hsrc⟩
  | sweep => simp [TableOp.applyMap, TableOp.sets, MemberMap.expire]

/-- The event leaves the subscription as it is: no report for it, no reduction that takes it away,
and no timeout that finds it expired. -/
def Leaves (h : Host) (mca : In6Addr) (ifindex : Nat) (s : SubscrNode) (st : Conf) (ev : Event) :
    Prop :=
  (tableOp h st ev).sets mca ifindex s.ipv6 = none ∧
  ¬ (tableOp h st ev = .reduce mca ifindex ∧ s.ipv6 = In6Addr.any) ∧
  (tableOp h st ev = .sweep → ¬ Expired ev.now s)

/-- The event is a report that sets the subscription. -/
def Sets (h : Host) (mca : In6Addr) (ifindex : Nat) (s : SubscrNode) (st : Conf) (ev : Event) :
    Prop :=
  (tableOp h st ev).sets mca ifindex s.ipv6 = some s.mode ∧ s.refreshtime = ev.now

/-- **One event**: the subscription is there afterwards if the event sets it, or if it was there
before and the event leaves it. -/
theorem step_entry {h : Host} {P : SubscrNode → Prop} {st : Conf} (hok : TableOk P st.groups)
    (ev : Event) {mca : In6Addr} {ifindex : Nat} {s : SubscrNode} :
    membershipOf (step h st ev).groups mca ifindex s.ipv6 = some s ↔
      Sets h mca ifindex s st ev ∨
        (membershipOf st.groups mca ifindex s.ipv6 = some s ∧ Leaves h mca ifindex s st ev) := by
  rw [step_membership h st ev hok, applyMap_entry]
  unfold Sets Leaves
  cases hset : (tableOp h st ev).sets mca ifindex s.ipv6 with
  | some mode =>
    constructor
    · intro hs
      have heq : ⟨s.ipv6, mode, ev.now⟩ = s := Option.some.inj hs
      exact Or.inl ⟨congrArg (some ·.mode) heq, (congrArg SubscrNode.refreshtime heq).symm⟩
    · rintro (⟨hm, ht⟩ | ⟨-, hl⟩)
      · rw [← ht, Option.some.inj hm]
      · exact absurd hl.1 (by simp)
  | none =>
    dsimp only
    by_cases hred : tableOp h st ev = .reduce mca ifindex ∧ s.ipv6 = In6Addr.any
    · rw [if_pos hred]
      simp [hred]
    · rw [if_neg hred]
      by_cases hsw : tableOp h st ev = .sweep
      · rw [if_pos hsw, Option.filter_eq_some_iff]
        have hdead : (!deadTooLong ev.now s) = true ↔ ¬ Expired ev.now s := by
          rw [← deadTooLong_iff]
          simp
        simp [hsw, hdead]
      · rw [if_neg hsw]
        simp [hsw, hred]

/-! ## 2. Runs -/

/-- The subscription is the last word of the interface on the group and the source: a report of the
run set it, and every later event left it. -/
def LastWord (h : Host) (st : Conf) (es : List Event) (mca : In6Addr) (ifindex : Nat)
    (s : SubscrNode) : Prop :=
  ∃ pre e post, es = pre ++ e :: post ∧ Sets h mca ifindex s (run h st pre) e ∧
    Runs.StepsMeet (step h) (Leaves h mca ifindex s) (run h st (pre ++ [e])) post

theorem lastWord_nil {h : Host} {st : Conf} {mca : In6Addr} {ifindex : Nat} {s : SubscrNode} :
    ¬ LastWord h st [] mca ifindex s := by
  rintro ⟨pre, e, post, he, -⟩
  simp at he

/-- The last event of a run sets the subscription, or leaves the last word. -/
theorem lastWord_concat {h : Host} {st : Conf} {es : List Event} {e : Event} {mca : In6Addr}
    {ifindex : Nat} {s : SubscrNode} : LastWord h st (es ++ [e]) mca ifindex s ↔
      Sets h mca ifindex s (run h st es) e ∨
        (LastWord h st es mca ifindex s ∧ Leaves h mca ifindex s (run h st es) e) := by
  constructor
  · rintro ⟨pre, x, post, he, hx, hpost⟩
    rcases List.eq_nil_or_concat post with rfl | ⟨post, y, rfl⟩
    · obtain ⟨rfl, rfl⟩ := List.append_inj' he rfl |>.imp_right List.singleton_inj.mp
      exact Or.inl hx
    · rw [List.concat_eq_append, ← List.cons_append, ← List.append_assoc] at he
      obtain ⟨rfl, rfl⟩ := List.append_inj' he rfl |>.imp_right List.singleton_inj.mp
      rw [List.concat_eq_append, Runs.stepsMeet_append] at hpost
      refine Or.inr ⟨⟨pre, x, post, rfl, hx, hpost.1⟩, ?_⟩
      have hlast := hpost.2 [] e [] rfl
      rwa [Runs.run_nil, ← Runs.run_append, List.append_assoc] at hlast
  · rintro (hx | ⟨⟨pre, x, post, rfl, hx, hpost⟩, hl⟩)
    · exact ⟨es, e, [], rfl, hx, Runs.stepsMeet_nil _ _⟩
    · refine ⟨pre, x, post ++ [e], by simp, hx, Runs.stepsMeet_append.mpr ⟨hpost, ?_⟩⟩
      rw [← Runs.run_append, List.append_assoc]
      exact Runs.stepsMeet_cons.mpr ⟨hl, Runs.stepsMeet_nil _ _⟩

/-- **The table is the last word of every interface.**  After any run of the daemon a subscription
is in the table if and only if a report of the run set it, with the mode and at the time that it
has, and every later event left it: no report for the same group, interface and source, no MLDv1
reduction that takes it away, and no timeout more than 250 seconds off. -/
theorem membership_history (h : Host) (o : Options) (now : Nat) (ifap : Option (List IfAddr))
    (es : List Event) (mca : In6Addr) (ifindex : Nat) (s : SubscrNode) :
    s ∈ subscriptionsOf (run h (boot h o now ifap) es).groups mca ifindex ↔
      LastWord h (boot h o now ifap) es mca ifindex s := by
  have hok : ∀ es, TableOk ValidSubscr (run h (boot h o now ifap) es).groups := fun es =>
    reachable_tableOk ⟨o, now, ifap, es, rfl⟩
  have hmap : ∀ es, s ∈ subscriptionsOf (run h (boot h o now ifap) es).groups mca ifindex ↔
      membershipOf (run h (boot h o now ifap) es).groups mca ifindex s.ipv6 = some s := fun es =>
    (and_iff_left rfl).symm.trans (membershipOf_eq_some (hok es)).symm
  induction es using List.reverseRecOn with
  | nil =>
    rw [hmap]
    refine iff_of_false (fun hs => ?_) lastWord_nil
    rw [run, Runs.run_nil, boot_groups] at hs
    cases hs
  | append_singleton es e ih =>
    have hrun : run h (boot h o now ifap) (es ++ [e])
        = step h (run h (boot h o now ifap) es) e := Runs.run_concat _ _ _
    rw [hmap, lastWord_concat, hrun, step_entry (hok es), ← hmap]
    exact or_congr_right (and_congr_left fun _ => ih)

/-- The interfaces that a routable packet is copied to, as the table has them. -/
theorem copied_iff {h : Host} {st : Conf} (hr : Reachable h st) {f : Frame}
    (hf : Forwardable h st f) (now : Nat)
    (hroute : ¬ Unroutable (f.buffer ip6Hlim) (readAddr f.buffer ip6Src)
      (readAddr f.buffer ip6Dst)) (j : Nat) :
    j ∈ (copies st (step h st (.frame now f))).map Sent.ifindex ↔
      (intFind st j).isSome ∧ j ≠ f.ifindex ∧
        ∃ s ∈ subscriptionsOf st.groups (readAddr f.buffer ip6Dst) j,
          lets (readAddr f.buffer ip6Src) s = true := by
  rcases forwardable_cases hr hf now with ⟨-, hno⟩ | ⟨hdst, hh, iph, hway, hcopies⟩
  · exact absurd (hno.elim (fun hno => Or.inr (Or.inr (Or.inl hno))) Or.inl) hroute
  · have hroutes : multicastIgnores (readAddr f.buffer ip6Src) (readAddr f.buffer ip6Dst) = false :=
      Bool.eq_false_iff.mpr fun hc => hroute ((multicastIgnores_iff hdst hh).mp hc)
    rw [hcopies.mem_iff j]
    simp only [hroutes, true_and]

theorem lets_iff {src : In6Addr} {s : SubscrNode} : lets src s = true ↔
    s.mode = mld2ModeIsInclude ∧ (s.ipv6 = In6Addr.any ∨ s.ipv6 = src) := by
  simp [lets, and_comm]

/-- **Who gets a packet is settled by what was received before.**  After any run of the daemon, a
packet that comes past the filters and whose hop limit, source and destination allow it is copied
to another interface if and only if that is in use and its last word on the group of the packet, for
all sources or for the source of the packet, was `INCLUDE`. -/
theorem forwarding_history (h : Host) (o : Options) (t : Nat) (ifap : Option (List IfAddr))
    (es : List Event) (now : Nat) {f : Frame}
    (hf : Forwardable h (run h (boot h o t ifap) es) f)
    (hroute : ¬ Unroutable (f.buffer ip6Hlim) (readAddr f.buffer ip6Src)
      (readAddr f.buffer ip6Dst)) (j : Nat) :
    j ∈ (copies (run h (boot h o t ifap) es)
        (step h (run h (boot h o t ifap) es) (.frame now f))).map Sent.ifindex ↔
      (intFind (run h (boot h o t ifap) es) j).isSome ∧ j ≠ f.ifindex ∧
        ∃ s, LastWord h (boot h o t ifap) es (readAddr f.buffer ip6Dst) j s ∧
          s.mode = mld2ModeIsInclude ∧
            (s.ipv6 = In6Addr.any ∨ s.ipv6 = readAddr f.buffer ip6Src) := by
  have hword := membership_history h o t ifap es (readAddr f.buffer ip6Dst) j
  rw [copied_iff ⟨o, t, ifap, es, rfl⟩ hf now hroute j]
  simp only [hword, lets_iff]

/-- A report for `ff05::1` on the first interface, and a second interface. -/
def twoLinksEvents : List Event :=
  [.frame 0 (mldFrame 1 mld1JoinMessage), .create 1 2 ethernetProbe]

/-- The report is the last word of the first interface: a packet from the second is copied to it. -/
theorem twoLinks_history :
    1 ∈ (copies (run (quietHost .little) (boot (quietHost .little) plainOptions 0 none)
        twoLinksEvents) (step (quietHost .little) (run (quietHost .little)
          (boot (quietHost .little) plainOptions 0 none) twoLinksEvents)
          (.frame 2 (ethernetFrame 2 dataPacket)))).map Sent.ifindex ↔
      (intFind (run (quietHost .little) (boot (quietHost .little) plainOptions 0 none)
        twoLinksEvents) 1).isSome ∧ 1 ≠ (ethernetFrame 2 dataPacket).ifindex ∧
        ∃ s, LastWord (quietHost .little) (boot (quietHost .little) plainOptions 0 none)
            twoLinksEvents (readAddr (ethernetFrame 2 dataPacket).buffer ip6Dst) 1 s ∧
          s.mode = mld2ModeIsInclude ∧ (s.ipv6 = In6Addr.any ∨
            s.ipv6 = readAddr (ethernetFrame 2 dataPacket).buffer ip6Src) := by
  refine forwarding_history _ plainOptions 0 none twoLinksEvents 2 (f := ethernetFrame 2 dataPacket)
    ?_ ?_ 1
  · exact ⟨by decide, rfl, rfl, by decide +kernel, by decide +kernel, by decide +kernel,
      17, 40, 8, by decide +kernel, by decide⟩
  · simp only [Unroutable]
    decide +kernel

end Ecmh
