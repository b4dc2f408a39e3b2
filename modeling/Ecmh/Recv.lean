/-
# The packets the daemon receives

The receiving half of `ecmh.c`: the MLD handlers, `l4_ipv6_multicast`, `l4_ipv6_icmpv6`, the
header walk of `l3_ipv6`, and `l2_ethtype`.

A packet is the `Mem` behind the pointer that the source passes around, with the length that
came with it.  Nothing stops the code from reading behind that length: it then sees whatever the
receive buffer holds there, which is why the functions take a memory and not a list of bytes.
Both the checksum and the hop limit are rewritten in this memory before the packet is sent on.

The gates `#ifdef ECMH_SUPPORT_MLDV2` in the handlers name a macro that no build defines
(`ECMH_SUPPORT_MLD2` is the one), so they are not in the model.  Logging is left out.
-/
import Ecmh.Send

namespace Ecmh

open ByteMem

/-! ## 1. MLDv1 -/

/-- The scope test of both MLDv1 handlers: groups that are not multicast, or node-local or
link-local multicast, are ignored. -/
def mld1Ignores (mca : In6Addr) : Bool :=
  !in6IsAddrMulticast mca || in6IsAddrMcNodelocal mca || in6IsAddrMcLinklocal mca

/-- `mld1->mca`. -/
def mld1Mca (mld1 : Mem) : In6Addr := readAddr mld1 8

/-- `l4_ipv6_icmpv6_mld1_report`. -/
def l4Ipv6Icmpv6Mld1Report (h : Host) (now : Nat) (st : Conf) (i : Nat) (mld1 : Mem) : Conf :=
  let st := intSetMldVersion now st i 1
  let mca := mld1Mca mld1
  if mld1Ignores mca then st
  else
    let ifindex := (st.intn i).ifindex
    let got := groupintGet now st.groups mca ifindex
    let st := st.setGroups (setGroupint got.1 mca ifindex
      (fun grpintn => grpintRefresh now grpintn In6Addr.any mld2ModeIsInclude))
    if got.2 then mldSendReportAll h st i mca else st

/-- `l4_ipv6_icmpv6_mld1_reduction`. -/
def l4Ipv6Icmpv6Mld1Reduction (h : Host) (now : Nat) (st : Conf) (i : Nat) (mld1 : Mem) : Conf :=
  let st := intSetMldVersion now st i 1
  let mca := mld1Mca mld1
  if mld1Ignores mca then st
  else match groupFind st.groups mca with
    | none => st
    | some groupn =>
      let ifindex := (st.intn i).ifindex
      match grpintFind groupn.interfaces ifindex with
      | none => st
      | some grpintn =>
        let unsub := subscrUnsub grpintn.subscriptions In6Addr.any
        if !unsub.2 then st
        else
          let st := st.setGroups (setGroupint st.groups mca ifindex
            (fun grpintn => { grpintn with subscriptions := unsub.1 }))
          if unsub.1.count ≤ 0 then
            -- ask for other listeners, and mark the interface for removal
            let st := mldSendQuery h st i mca
            st.setGroups (setGroupint st.groups mca ifindex
              (fun grpintn => { grpintn with
                subscriptions := { grpintn.subscriptions with count := -ecmhRobustnessFactor } }))
          else st

/-! ## 2. MLDv2 -/

def mld2ChangeToInclude : Nat := 3
def mld2ChangeToExclude : Nat := 4
def mld2AllowNewSources : Nat := 5
def mld2BlockOldSources : Nat := 6

/-- The record types that the handler knows. -/
def mld2Known (grecType : Nat) : Bool :=
  grecType = mld2ModeIsInclude || grecType = mld2ModeIsExclude || grecType = mld2ChangeToInclude ||
    grecType = mld2ChangeToExclude || grecType = mld2AllowNewSources ||
    grecType = mld2BlockOldSources

/-- The three types that both `?:` expressions of the handler test for. -/
def mld2Excludes (grecType : Nat) : Bool :=
  grecType = mld2ModeIsExclude || grecType = mld2ChangeToExclude || grecType = mld2BlockOldSources

/-- The mode of the `::` subscription that a record without sources refreshes. -/
def mld2AnyMode (grecType : Nat) : Nat :=
  if mld2Excludes grecType then mld2ModeIsInclude else mld2ModeIsExclude

/-- The mode of the subscriptions that a record with sources refreshes. -/
def mld2SrcMode (grecType : Nat) : Nat :=
  if mld2Excludes grecType then mld2ModeIsExclude else mld2ModeIsInclude

/-- The scope test of the MLDv2 handler. -/
def mld2Ignores (mca : In6Addr) : Bool := in6IsAddrMcNodelocal mca || in6IsAddrMcLinklocal mca

/-- The `n` addresses from offset `off` on. -/
def readAddrs (m : Mem) (off : Nat) : Nat → List In6Addr
  | 0 => []
  | n + 1 => readAddr m off :: readAddrs m (off + 16) n

/-- A record that the handler looked at: where, what its header says, the sources it went
through, the `isnew` that `groupint_get` returned for it (`none` where it was not called), and
whether `mld_send_report_all` was called. -/
structure Visit where
  off : Nat
  grecType : Nat
  mca : In6Addr
  srcs : List In6Addr
  isnew : Option Bool
  announced : Bool
  deriving DecidableEq

/-- How the handler ended. -/
inductive Mld2Exit
  | done
  | tooManyGrecs
  | outside
  | unknownType
  | tooManySources
  deriving DecidableEq

/-- What a run of the handler leaves: the state, the records it looked at, and its exit. -/
structure Mld2Run where
  st : Conf
  visits : List Visit
  exit : Mld2Exit

/-- The effect of a record on the group-interface that `groupint_get` found for it: the
subscription of `::`, or of each source, is refreshed. -/
def grecRefresh (now : Nat) (grecType : Nat) (srcs : List In6Addr) (grpintn : GrpIntNode) :
    GrpIntNode :=
  match srcs with
  | [] => grpintRefresh now grpintn In6Addr.any (mld2AnyMode grecType)
  | _ =>
    srcs.foldl (fun grpintn src => grpintRefresh now grpintn src (mld2SrcMode grecType)) grpintn

/-- `while (ngrec > 0)`, on the interface in slot `i`; `grec` is the offset of the next record
in the message. -/
def mld2Grecs (h : Host) (now i : Nat) (mld2r : Mem) (plen : Nat) :
    (ngrec : Nat) → Conf → (grec : Nat) → (isnew : Bool) → List Visit → Mld2Run
  | 0, st, _, _, visits => ⟨st, visits, .done⟩
  | ngrec + 1, st, grec, isnew, visits =>
    if grec > plen then ⟨st, visits, .outside⟩
    else
      let grecType := (mld2r grec).toNat
      let auxwords := (mld2r (grec + 1)).toNat
      let nsrcs := h.endian.htons (h.endian.load16 mld2r (grec + 2))
      let mca := readAddr mld2r (grec + 4)
      let src := grec + 20
      if !mld2Known grecType then
        ⟨st, visits ++ [⟨grec, grecType, mca, [], none, false⟩], .unknownType⟩
      else
        let ifindex := (st.intn i).ifindex
        -- `isnew` keeps its value from the record before where the scope is ignored
        let got := if mld2Ignores mca then none else some (groupintGet now st.groups mca ifindex)
        let st := match got with
          | none => st
          | some got => st.setGroups got.1
        let isnew := match got with
          | none => isnew
          | some got => got.2
        if nsrcs ≠ 0 ∧ src + 16 * nsrcs > plen then
          ⟨st, visits ++ [⟨grec, grecType, mca, [], got.map Prod.snd, false⟩], .tooManySources⟩
        else
          let srcs := readAddrs mld2r src nsrcs
          let st := if got.isSome then
              st.setGroups (setGroupint st.groups mca ifindex (grecRefresh now grecType srcs))
            else st
          let st := if isnew then mldSendReportAll h st i mca else st
          -- the auxiliary data is stepped over as if `auxwords` counted bytes
          mld2Grecs h now i mld2r plen ngrec st (src + 16 * nsrcs + auxwords) isnew
            (visits ++ [⟨grec, grecType, mca, srcs, got.map Prod.snd, isnew⟩])

/-- `l4_ipv6_icmpv6_mld2_report`. -/
def l4Ipv6Icmpv6Mld2Report (h : Host) (now : Nat) (st : Conf) (i : Nat) (mld2r : Mem) (plen : Nat) :
    Mld2Run :=
  let ngrec := h.endian.htons (h.endian.load16 mld2r 6)
  let st := intSetMldVersion now st i 2
  if 8 + ngrec * 20 > plen then ⟨st, [], .tooManyGrecs⟩
  else mld2Grecs h now i mld2r plen ngrec st 8 false []

/-! ## 3. Queries -/

/-- The body of the loop over the groups with which a query is answered in MLDv1: a report for
every group-interface of the group that is the interface in slot `i`. -/
def queryGroup (h : Host) (i : Nat) (st : Conf) (groupn : GroupNode) : Conf :=
  groupn.interfaces.nodes.foldl
    (fun st grpintn => if grpintn.ifindex ≠ (st.intn i).ifindex then st
      else mldSendReport h st i groupn.mca) st

/-- `l4_ipv6_icmpv6_mld_query`. -/
def l4Ipv6Icmpv6MldQuery (h : Host) (now : Nat) (st : Conf) (i : Nat) (plen : Nat) : Conf :=
  -- `sizeof(struct mld1)`
  let st := intSetMldVersion now st i (if plen = 24 then 1 else 2)
  let version := (st.intn i).mldVersion
  if !st.mld2only ∧ (st.mld1only ∨ version = 0 ∨ version = 1) then
    st.groups.nodes.foldl (queryGroup h i) st
  else if !st.mld1only ∧ (st.mld2only ∨ version = 2) then mld2SendReport h st i none
  else st

/-! ## 4. Forwarding -/

/-- The loop over the subscriptions of a group-interface in `l4_ipv6_multicast`; it ends with
the first subscription that lets the packet through. -/
def multicastSubscrs (h : Host) (iph : Mem) (len : Nat) (src : In6Addr) (ifindex : Nat)
    (st : Conf) : List SubscrNode → Conf
  | [] => st
  | subscrn :: next =>
    if subscrn.ipv6 ≠ In6Addr.any ∧ subscrn.ipv6 ≠ src then
      multicastSubscrs h iph len src ifindex st next
    else if subscrn.mode ≠ mld2ModeIsInclude then
      multicastSubscrs h iph len src ifindex st next
    else match intFind st ifindex with
      | none => multicastSubscrs h iph len src ifindex st next
      | some interface => sendpacket6 h .l4Ipv6Multicast st interface iph len

/-- The body of the loop over the group-interfaces in `l4_ipv6_multicast`. -/
def multicastGrpint (h : Host) (iph : Mem) (len : Nat) (src : In6Addr) (i : Nat) (st : Conf)
    (grpintn : GrpIntNode) : Conf :=
  if (st.intn i).ifindex = grpintn.ifindex then st
  else multicastSubscrs h iph len src grpintn.ifindex st grpintn.subscriptions.nodes

/-- The packets that `l4_ipv6_multicast` does not route. -/
def multicastIgnores (src dst : In6Addr) : Bool :=
  in6IsAddrMulticast src || in6IsAddrUnspecified src || in6IsAddrUnspecified dst ||
    in6IsAddrLinklocal src || in6IsAddrMcNodelocal dst || in6IsAddrMcLinklocal dst

/-- `l4_ipv6_multicast`. -/
def l4Ipv6Multicast (h : Host) (st : Conf) (i : Nat) (iph : Mem) (len : Nat) : Conf :=
  let src := readAddr iph ip6Src
  let dst := readAddr iph ip6Dst
  if multicastIgnores src dst then st
  else match groupFind st.groups dst with
    | none => st
    | some groupn =>
      let st := st.setGroups (setGroup st.groups dst
        (fun groupn => { groupn with bytes := groupn.bytes + len, packets := groupn.packets + 1 }))
      groupn.interfaces.nodes.foldl (multicastGrpint h iph len src i) st

/-! ## 5. ICMPv6 and the header walk -/

/-- The ICMPv6 types that `l4_ipv6_icmpv6` goes on with. -/
def icmpv6Wanted (type : UInt8) : Bool :=
  type = icmp6MembershipReport || type = icmp6MembershipReduction ||
    type = icmp6V2MembershipReport || type = icmp6V2MembershipReportExp ||
    type = icmp6MembershipQuery || type = icmp6EchoRequest

/-- "Decrease the hoplimit, but only if not 0 yet". -/
def decreaseHlim (iph : Mem) : Mem :=
  if iph ip6Hlim > 0 then iph.write ip6Hlim [iph ip6Hlim - 1] else iph

/-- The checksum field at offset `off + 2` is cleared, computed again and left so.  A difference
from the received value is logged, and nothing else. -/
def icmpv6Rechecksum (e : Endian) (iph : Mem) (off plen : Nat) : Mem :=
  let iph := e.store16 iph (off + 2) 0
  e.store16 iph (off + 2) (ipv6Checksum e iph ipprotoIcmpv6 (iph.shift off) plen)

/-- The two counters of received ICMPv6 messages. -/
def countIcmpReceived (st : Conf) (i : Nat) : Conf :=
  { st.setInt i (fun intn => { intn with statIcmpReceived := intn.statIcmpReceived + 1 }) with
    statIcmpReceived := st.statIcmpReceived + 1 }

theorem countIcmpReceived_intn (st : Conf) (i j : Nat) :
    ∃ n, (countIcmpReceived st i).intn j = { st.intn j with statIcmpReceived := n } := by
  have h := setInt_intn st i j
    (fun intn => { intn with statIcmpReceived := intn.statIcmpReceived + 1 })
  split at h
  · exact ⟨_, h⟩
  · exact ⟨_, h⟩

/-- The counter of packets whose hop limit ran out. -/
def countHlimExceeded (st : Conf) : Conf := { st with statHlimExceeded := st.statHlimExceeded + 1 }

/-- `l4_ipv6_icmpv6`, for the ICMPv6 message at offset `off` of the packet. -/
def l4Ipv6Icmpv6 (h : Host) (now : Nat) (st : Conf) (i : Nat) (iph : Mem) (len off plen : Nat) :
    Conf :=
  let st := countIcmpReceived st i
  let type := iph off
  if !icmpv6Wanted type then st
  else
    let iph := icmpv6Rechecksum h.endian iph off plen
    if type = icmp6EchoRequest then
      let iph := decreaseHlim iph
      if iph ip6Hlim = 0 then
        icmp6Send h (countHlimExceeded st) i (readAddr iph ip6Src) icmp6EchoReply
          icmp6TimeExceedTransit (iph.shift (off + 4)) ((plen + (2 ^ 32 - 4)) % 2 ^ 32)
      else l4Ipv6Multicast h st i iph len
    else if !in6IsAddrLinklocal (readAddr iph ip6Src) then st
    else if type = icmp6MembershipReport then l4Ipv6Icmpv6Mld1Report h now st i (iph.shift off)
    else if type = icmp6MembershipReduction then
      l4Ipv6Icmpv6Mld1Reduction h now st i (iph.shift off)
    else if type = icmp6V2MembershipReport ∨ type = icmp6V2MembershipReportExp then
      (l4Ipv6Icmpv6Mld2Report h now st i (iph.shift off) plen).st
    else if type = icmp6MembershipQuery then l4Ipv6Icmpv6MldQuery h now st i plen
    else st

/-- "Skip the headers that we know". -/
def isExtHeader (type : UInt8) : Bool :=
  type = ipprotoHopopts || type = ipprotoRouting || type = ipprotoDstopts || type = ipprotoAh

/-- The loop over the extension headers, at offset `ipe`: the type and the offset of the header
behind them and the 16-bit `plen` that is left, or `none` where the chain leaves the packet.
Every round goes at least eight bytes on, so `len + 1` rounds are enough for every packet. -/
def skipHeaders (iph : Mem) (len : Nat) :
    (fuel : Nat) → (type : UInt8) → (ipe plen : Nat) → Option (UInt8 × Nat × Nat)
  | 0, _, _, _ => none
  | fuel + 1, type, ipe, plen =>
    if isExtHeader type then
      let l := (iph (ipe + 1)).toNat * 8 + 8
      if ipe + l > len then none
      else skipHeaders iph len fuel (iph ipe) (ipe + l) ((plen + 65536 - l) % 65536)
    else some (type, ipe, plen)

/-- The header walk of `l3_ipv6`. -/
def headerWalk (e : Endian) (iph : Mem) (len : Nat) : Option (UInt8 × Nat × Nat) :=
  skipHeaders iph len (len + 1) (iph ip6Nxt) 40 (e.htons (e.load16 iph ip6Plen))

/-- `l3_ipv6`; `len` is a `uint16_t`. -/
def l3Ipv6 (h : Host) (now : Nat) (st : Conf) (i : Nat) (iph : Mem) (len : Nat) : Conf :=
  let src := readAddr iph ip6Src
  let dst := readAddr iph ip6Dst
  if !in6IsAddrMulticast dst then st
  else if src = (st.intn i).linklocal ∨ src = (st.intn i).global then st
  else match headerWalk h.endian iph len with
    | none => st
    | some (type, off, plen) =>
      if type = ipprotoIcmpv6 then l4Ipv6Icmpv6 h now st i iph len off plen
      else if in6IsAddrMulticast dst then
        let iph := decreaseHlim iph
        if iph ip6Hlim = 0 then countHlimExceeded st
        else l4Ipv6Multicast h st i iph len
      else st

/-- `ETH_P_IPV6`. -/
def ethPIpv6 : Nat := 0x86dd

/-- `l2_ethtype`.  The default build does nothing with IPv4, and `len` becomes a `uint16_t`. -/
def l2Ethtype (h : Host) (now : Nat) (st : Conf) (i : Nat) (packet : Mem) (len etherType : Nat) :
    Conf :=
  if etherType = ethPIpv6 then l3Ipv6 h now st i packet (len % 65536) else st

end Ecmh
