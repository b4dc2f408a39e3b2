/-
# Links are isolated from each other

The groups are shared by all interfaces, and a report on one link works on the nodes that another
link created.  On the membership map that the table stands for, a packet is an operation on the
entries of the interface it came in on, and so packets on two links can be exchanged.
-/
import Ecmh.IntTable
import Ecmh.Membership

namespace Ecmh

open ByteMem

/-! ## 1. Operations on one interface -/

/-- The operation is one on the entries of an interface, or on none. -/
def TableOp.Local (ifindex : Nat) : TableOp → Prop
  | .keep => True
  | .count _ _ => True
  | .refresh i _ => i = ifindex
  | .reduce _ i => i = ifindex
  | .sweep => False

theorem multicastOp_local (ifindex : Nat) (iph : Mem) (len : Nat) :
    (multicastOp iph len).Local ifindex := by
  unfold multicastOp
  split <;> trivial

/-- A packet is an operation on the interface that it comes in on. -/
theorem Message.op_local (e : Endian) (ifindex len : Nat) (m : Message) :
    (m.op e ifindex len).Local ifindex := by
  cases m with
  | dropped => trivial
  | ignored => trivial
  | exceeded => trivial
  | data iph => exact multicastOp_local ifindex iph len
  | echoExceeded iph off plen => trivial
  | echo iph => exact multicastOp_local ifindex iph len
  | mld1Report mld1 =>
    rw [Message.op]
    split
    · trivial
    · rfl
  | mld1Reduction mld1 =>
    rw [Message.op]
    split
    · trivial
    · rfl
  | mld2Report mld2r plen =>
    rw [Message.op, mld2Op]
    split
    · trivial
    · rfl
  | query plen => trivial

section Map

variable {now ifindex : Nat} {op : TableOp}

theorem join_other {i : Nat} (hi : i ≠ ifindex) (m : MemberMap) (j : Join) (g : In6Addr) :
    m.join now ifindex j g i = m g i := by
  funext src
  exact refresh_other now (fun hc => hi hc.2) src j.rows m

/-- The entries of the other interfaces stay as they are. -/
theorem applyMap_other (hl : op.Local ifindex) {i : Nat} (hi : i ≠ ifindex) (m : MemberMap)
    (g : In6Addr) : op.applyMap now m g i = m g i := by
  cases op with
  | keep => rfl
  | count dst len => rfl
  | refresh k joins =>
    obtain rfl : k = ifindex := hl
    simp only [TableOp.applyMap]
    induction joins generalizing m with
    | nil => rfl
    | cons j joins ih => rw [List.foldl_cons, ih, join_other hi]
  | reduce mca k =>
    obtain rfl : k = ifindex := hl
    funext src
    rw [TableOp.applyMap, MemberMap.leave, if_neg fun hc => hi hc.2.1]
  | sweep => cases hl

/-- Two maps have the same entries of the interface. -/
def SameOn (ifindex : Nat) (m m' : MemberMap) : Prop := ∀ g, m g ifindex = m' g ifindex

theorem SameOn.join {m m' : MemberMap} (hm : SameOn ifindex m m') (j : Join) :
    SameOn ifindex (m.join now ifindex j) (m'.join now ifindex j) := by
  simp only [MemberMap.join]
  generalize j.rows = rows
  induction rows generalizing m m' with
  | nil => exact hm
  | cons row rows ih =>
    refine ih fun g => ?_
    funext src
    simp only [MemberMap.refresh, hm g]

/-- The entries of the interface itself are made of those it had. -/
theorem SameOn.applyMap (hl : op.Local ifindex) {m m' : MemberMap} (hm : SameOn ifindex m m') :
    SameOn ifindex (op.applyMap now m) (op.applyMap now m') := by
  cases op with
  | keep => exact hm
  | count dst len => exact hm
  | refresh k joins =>
    obtain rfl : k = ifindex := hl
    simp only [TableOp.applyMap]
    induction joins generalizing m m' with
    | nil => exact hm
    | cons j joins ih => exact ih (hm.join j)
  | reduce mca k =>
    obtain rfl : k = ifindex := hl
    intro g
    funext src
    simp only [TableOp.applyMap, MemberMap.leave, hm g]
  | sweep => cases hl

/-- **Operations on two interfaces commute.** -/
theorem applyMap_comm {i j : Nat} {op' : TableOp} (hij : i ≠ j) (hi : op.Local i)
    (hj : op'.Local j) (m : MemberMap) :
    op'.applyMap now (op.applyMap now m) = op.applyMap now (op'.applyMap now m) := by
  funext g k
  by_cases hki : k = i
  · subst hki
    rw [applyMap_other hj hij]
    exact (SameOn.applyMap hi (fun g => (applyMap_other hj hij m g).symm)) g
  · rw [applyMap_other hi hki]
    by_cases hkj : k = j
    · subst hkj
      exact (SameOn.applyMap hj (fun g => applyMap_other hi (Ne.symm hij) m g)) g
    · rw [applyMap_other hj hkj, applyMap_other hj hkj, applyMap_other hi hki]

end Map

/-! ## 2. Packets -/

/-- Two tables have the same subscriptions for the group on the interface. -/
def SameSubscriptions (groups groups' : Groups) (g : In6Addr) (ifindex : Nat) : Prop :=
  ∀ s, s ∈ subscriptionsOf groups g ifindex ↔ s ∈ subscriptionsOf groups' g ifindex

/-- The subscriptions of a table are the entries of its map. -/
theorem sameSubscriptions_iff {P : SubscrNode → Prop} {groups groups' : Groups}
    (h : TableOk P groups) (h' : TableOk P groups') {g : In6Addr} {ifindex : Nat} :
    SameSubscriptions groups groups' g ifindex ↔
      membershipOf groups g ifindex = membershipOf groups' g ifindex := by
  have hiff : ∀ {t : Groups}, TableOk P t → ∀ s, s ∈ subscriptionsOf t g ifindex ↔
      membershipOf t g ifindex s.ipv6 = some s := by
    intro t ht s
    rw [membershipOf_eq_some ht]
    simp
  constructor
  · intro hs
    funext src
    refine Option.ext fun s => ?_
    rw [membershipOf_eq_some h, membershipOf_eq_some h', hs s]
  · intro hm s
    rw [hiff h, hiff h', hm]

section Packet

variable {h : Host} {st : Conf} {i : Nat}

theorem l3_tableOk (hok : TableOk ValidSubscr st.groups) (now : Nat) (iph : Mem) (len : Nat) :
    TableOk ValidSubscr (l3Ipv6 h now st i iph len).groups := by
  rw [l3_groups]
  exact apply_ok (l3Op_shape h.endian (st.intn i) iph len).modesOk hok fun s hv _ => hv

/-- The map after a packet, with the operation that the packet is. -/
theorem l3_membership (hok : TableOk ValidSubscr st.groups) {ifindex : Nat}
    (hi : (st.intn i).ifindex = ifindex) (now : Nat) (iph : Mem) (len : Nat) :
    membershipOf (l3Ipv6 h now st i iph len).groups
      = ((l3Message h.endian (st.intn i) iph len).op h.endian ifindex len).applyMap now
          (membershipOf st.groups) := by
  rw [l3_groups_op, hi, membershipOf_apply now _ hok]

/-- What a packet is depends on the two addresses of the interface. -/
theorem l3Message_congr {a b : IntNode} (hl : a.linklocal = b.linklocal) (hg : a.global = b.global)
    (e : Endian) (iph : Mem) (len : Nat) : l3Message e a iph len = l3Message e b iph len := by
  simp only [l3Message, hl, hg]

/-- Another packet in between does not change what a packet is. -/
theorem l3Message_after (now : Nat) (iph : Mem) (len : Nat) (j : Nat) (iph' : Mem) (len' : Nat) :
    l3Message h.endian ((l3Ipv6 h now st i iph len).intn j) iph' len'
      = l3Message h.endian (st.intn j) iph' len' := by
  have hs := l3_handles h now st i iph len
  exact l3Message_congr (hs.linklocal j) (hs.global j) h.endian iph' len'

/-- **Links are isolated, and packets on two links commute.**  A packet that came in on the
interface in slot `i` leaves the subscriptions of every other interface as they are; those of its
own interface depend on the packet, the clock, the two addresses of the interface and its former
subscriptions; and with a packet on another interface it can be exchanged. -/
theorem links_isolated (hr : Reachable h st) (hi : (intFind st i).isSome) (now : Nat) (iph : Mem)
    (len : Nat) :
    (∀ g j, j ≠ i →
      SameSubscriptions (l3Ipv6 h now st i iph len).groups st.groups g j) ∧
    (∀ (h' : Host) (st' : Conf), Reachable h' st' → (intFind st' i).isSome →
      h'.endian = h.endian → (st'.intn i).linklocal = (st.intn i).linklocal →
      (st'.intn i).global = (st.intn i).global →
      (∀ g, SameSubscriptions st'.groups st.groups g i) →
      ∀ g, SameSubscriptions (l3Ipv6 h' now st' i iph len).groups
        (l3Ipv6 h now st i iph len).groups g i) ∧
    (∀ (j : Nat) (iph' : Mem) (len' : Nat), j ≠ i → (intFind st j).isSome → ∀ g k,
      SameSubscriptions (l3Ipv6 h now (l3Ipv6 h now st i iph len) j iph' len').groups
        (l3Ipv6 h now (l3Ipv6 h now st j iph' len') i iph len).groups g k) := by
  have hok := reachable_tableOk hr
  have hindex : ∀ {h : Host} {st : Conf} {k : Nat}, Reachable h st → (intFind st k).isSome →
      (st.intn k).ifindex = k := by
    intro h st k hr hk
    obtain ⟨k', hk'⟩ := Option.isSome_iff_exists.mp hk
    exact (reachable_intsOk hr).slot k (intFind_eq_some.mp hk').2.2
  have hlocal : ∀ m : Message, (m.op h.endian i len).Local i := Message.op_local h.endian i len
  have hmap := l3_membership (h := h) hok (hindex hr hi) now iph len
  refine ⟨fun g j hj => ?_, ?_, ?_⟩
  · rw [sameSubscriptions_iff (l3_tableOk hok now iph len) hok, hmap,
      applyMap_other (hlocal _) hj]
  · intro h' st' hr' hi' he hl hg hsame g
    have hok' := reachable_tableOk hr'
    have hmap' := l3_membership (h := h') hok' (hindex hr' hi') now iph len
    have hown : SameOn i (membershipOf st'.groups) (membershipOf st.groups) := fun g =>
      (sameSubscriptions_iff hok' hok).mp (hsame g)
    rw [sameSubscriptions_iff (l3_tableOk hok' now iph len) (l3_tableOk hok now iph len), hmap,
      hmap', he, l3Message_congr hl hg]
    exact SameOn.applyMap (hlocal _) hown g
  · intro j iph' len' hj hfind g k
    have hij := hindex hr hfind
    have hokj : TableOk ValidSubscr (l3Ipv6 h now st j iph' len').groups :=
      l3_tableOk hok now iph' len'
    have hoki : TableOk ValidSubscr (l3Ipv6 h now st i iph len).groups :=
      l3_tableOk hok now iph len
    have hmapj := l3_membership (h := h) hok hij now iph' len'
    have hi2 := ((l3_handles h now st j iph' len').ifindex i).trans (hindex hr hi)
    have hj2 := ((l3_handles h now st i iph len).ifindex j).trans hij
    rw [sameSubscriptions_iff (l3_tableOk hoki now iph' len') (l3_tableOk hokj now iph len),
      l3_membership hoki hj2, l3_membership hokj hi2, hmap, hmapj, l3Message_after,
      l3Message_after]
    exact congrFun (congrFun (applyMap_comm (Ne.symm hj) (hlocal _)
      (Message.op_local h.endian j len' _) _) g) k

end Packet

/-- Two interfaces. -/
def twoLinks : Conf :=
  run (quietHost .little) (boot (quietHost .little) plainOptions 0 none)
    [.create 0 1 ethernetProbe, .create 0 2 ethernetProbe]

/-- A join on the first link leaves the second as it is, and can be exchanged with a join there. -/
theorem two_links_isolated :
    SameSubscriptions
      (l3Ipv6 (quietHost .little) 5 twoLinks 1 (mldFrame 1 mld1JoinMessage).buffer 64).groups
      twoLinks.groups siteGroup 2 ∧
    SameSubscriptions
      (l3Ipv6 (quietHost .little) 5
        (l3Ipv6 (quietHost .little) 5 twoLinks 1 (mldFrame 1 mld1JoinMessage).buffer 64)
        2 (mldFrame 2 mld1JoinMessage).buffer 64).groups
      (l3Ipv6 (quietHost .little) 5
        (l3Ipv6 (quietHost .little) 5 twoLinks 2 (mldFrame 2 mld1JoinMessage).buffer 64)
        1 (mldFrame 1 mld1JoinMessage).buffer 64).groups siteGroup 1 :=
  have hall := @links_isolated (quietHost .little) twoLinks 1
    ⟨plainOptions, 0, none, _, rfl⟩ (by decide +kernel) 5 (mldFrame 1 mld1JoinMessage).buffer 64
  ⟨hall.1 siteGroup 2 (by decide), hall.2.2 2 _ _ (by decide) (by decide +kernel) siteGroup 1⟩

end Ecmh
