/-
# Cgen.MatcherSizes -- how much code a matcher takes

`matcherLen` is the number of instructions of a matcher and `matcherLead` the
number of those in front of its first jump to the next rule.  Both are read off
the matcher and the sets of its chain, and agree with the slots the generator
emits (`length_matcherSlots`, `bfMatcherGenerate_leads`).  Every closed jump
inside a matcher is short (`sound_matcherSlots`).
-/
import Bpfilter.Cgen.MatcherSlots

namespace Bpfilter

set_option autoImplicit false

open Ebpf

/-! ## Matcher slots are sound -/

@[simp] theorem sound_nextSlot (i : BpfInsn) : (nextSlot i).sound = true := rfl

@[simp] theorem sound_plain (i : BpfInsn) : Emitted.sound { insn := i } = true := rfl

theorem all_sound_of_settled {es : List Emitted} (settled : es.all Emitted.settled = true) :
    es.all Emitted.sound = true :=
  List.all_eq_true.mpr fun e mem => Emitted.sound_of_settled (List.all_eq_true.mp settled e mem)

theorem sound_ip4Slots (m : BfMatcher) : (ip4Slots m).all Emitted.sound = true := by
  have mask : ∀ v, (ip4MaskSlots v).all Emitted.sound = true := by
    intro v
    unfold ip4MaskSlots
    split <;> rfl
  unfold ip4Slots
  cases m.type <;>
    simp [ip4AddrSlots, ip4ProtoSlots, ip4NetSlots, mask, -List.all_eq_true]

theorem sound_addrHalfSlots (addr : List Byte) (i : Nat) :
    (addrHalfSlots addr i).all Emitted.sound = true := rfl

theorem sound_addrCompareSlots (op : BfMatcherOp) (addr : List Byte) :
    (addrCompareSlots op addr).all Emitted.sound = true := by
  unfold addrCompareSlots
  split <;> simp [sound_addrHalfSlots, -List.all_eq_true]

theorem sound_ip6Slots (m : BfMatcher) : (ip6Slots m).all Emitted.sound = true := by
  have mask : ∀ v, (ip6MaskSlots v).all Emitted.sound = true := by
    intro v
    unfold ip6MaskSlots
    split <;> simp [sound_addrHalfSlots, -List.all_eq_true]
  have nexthdr : (ip6NexthdrSlots m).all Emitted.sound = true := by
    unfold ip6NexthdrSlots
    split <;> rfl
  unfold ip6Slots
  cases m.type <;>
    simp [ip6AddrSlots, ip6NetSlots, ip6LoadSlots, sound_addrCompareSlots, mask, nexthdr,
      -List.all_eq_true]

theorem sound_portSlots (m : BfMatcher) : (portSlots m).all Emitted.sound = true := by
  unfold portSlots
  cases m.op <;> rfl

theorem sound_tcpSlots (m : BfMatcher) : (tcpSlots m).all Emitted.sound = true := by
  have flags : (tcpFlagsSlots m).all Emitted.sound = true := by
    unfold tcpFlagsSlots
    cases m.op <;> rfl
  unfold tcpSlots l4Slots
  cases m.type <;> simp [sound_portSlots, flags, -List.all_eq_true]

theorem sound_udpSlots (m : BfMatcher) : (udpSlots m).all Emitted.sound = true := by
  unfold udpSlots l4Slots
  cases m.type <;> simp [sound_portSlots, -List.all_eq_true]

theorem sound_icmpSlots (m : BfMatcher) : (icmpSlots m).all Emitted.sound = true := by
  have field : ∀ proto off, (icmpFieldSlots m proto off).all Emitted.sound = true := by
    intro proto off
    unfold icmpFieldSlots l4Slots
    cases m.op <;> rfl
  unfold icmpSlots
  cases m.type <;> first | exact field _ _ | rfl

theorem sound_metaSlots (host : Host) (chain : BfChain) (m : BfMatcher) :
    (metaSlots host chain m).all Emitted.sound = true := by
  have port : (metaPortSlots m).all Emitted.sound = true := by
    simp [metaPortSlots, sound_portSlots, all_sound_of_settled (settled_swich2Slots ..),
      -List.all_eq_true]
  have mark : (metaMarkSlots host (bfHookToFlavor chain.hook) m).all Emitted.sound = true := by
    unfold metaMarkSlots
    cases bfHookToFlavor chain.hook <;> cases m.op <;> rfl
  unfold metaSlots
  cases m.type <;> first | exact port | exact mark | rfl

theorem sound_stxPayloadSlots (hdrOffset offset src remaining : Nat) :
    (stxPayloadSlots hdrOffset offset src remaining).all Emitted.sound = true := by
  fun_induction stxPayloadSlots with
  | case1 => rfl
  | case2 src remaining some ih => simpa [-List.all_eq_true] using ih

theorem sound_setSlots (chain : BfChain) (m : BfMatcher) :
    (setSlots chain m).all Emitted.sound = true := by
  have check : ∀ info, (checkProtocolSlots info).all Emitted.sound = true := by
    intro info
    unfold checkProtocolSlots
    cases info.layer <;> rfl
  have load : ∀ info, (loadHeaderSlots info).all Emitted.sound = true := by
    intro info
    unfold loadHeaderSlots
    cases info.layer <;> rfl
  have lookup : ∀ index off, (setLookupSlots index off).all Emitted.sound = true := fun _ _ => rfl
  have protocols : ∀ key, (setProtocolsSlots key).all Emitted.sound = true := by
    intro key
    induction key with
    | nil => rfl
    | cons type rest ih =>
        rw [setProtocolsSlots, List.all_append, ih, Bool.and_true]
        cases bfMatcherGetMeta type with
        | none => rfl
        | some info => exact check info
  have build : ∀ key offset, (setKeySlots offset key).all Emitted.sound = true := by
    intro key
    induction key with
    | nil => exact fun _ => rfl
    | cons type rest ih =>
        intro offset
        unfold setKeySlots
        cases bfMatcherGetMeta type with
        | none => rfl
        | some info =>
            simp only [List.all_append, load, sound_stxPayloadSlots, ih, Bool.and_true]
  have trie : ∀ index type, (setTrieSlots index type).all Emitted.sound = true := by
    intro index type
    unfold setTrieSlots
    cases bfMatcherGetMeta type with
    | none => rfl
    | some info =>
        simp only [List.all_append, check, load, lookup, Bool.and_true, Bool.true_and]
        cases type <;> rfl
  unfold setSlots
  cases bfChainGetSetForMatcher chain m with
  | none => rfl
  | some set =>
      simp only
      split
      · split
        · rfl
        · exact trie _ _
      · simp only [List.all_append, protocols, build, lookup, Bool.and_true]

theorem sound_matcherSlots (host : Host) (chain : BfChain) (m : BfMatcher) :
    (matcherSlots host chain m).all Emitted.sound = true := by
  unfold matcherSlots
  cases m.type <;>
    first
      | exact sound_metaSlots host chain m
      | exact sound_ip4Slots m
      | exact sound_ip6Slots m
      | exact sound_tcpSlots m
      | exact sound_udpSlots m
      | exact sound_icmpSlots m
      | exact sound_setSlots chain m

/-! ## Sizes -/

/-- Instructions of a port comparison. -/
def portLen : BfMatcherOp → Nat
  | .eq => 1
  | .ne => 1
  | .range => 3
  | _ => 0

/-- Instructions that load the packet's mark. -/
def markLen : BfFlavor → Nat
  | .nf => 3
  | .tc => 2
  | .cgroup => 2
  | .xdp => 0

/-- Instructions of an equality or inequality test; other operators are refused. -/
def eqNeLen : BfMatcherOp → Nat
  | .eq => 1
  | .ne => 1
  | _ => 0

/-- Instructions of a TCP flags comparison. -/
def flagsLen : BfMatcherOp → Nat
  | .eq => 1
  | .ne => 1
  | .any => 2
  | .all => 2
  | _ => 0

/-- Instructions of an IPv6 address comparison. -/
def addrCompareLen (op : BfMatcherOp) : Nat := if op = .eq then 10 else 11

/-- Header components are at layer 3 or 4. -/
def BfMatcherMeta.inHeader (info : BfMatcherMeta) : Nat :=
  match info.layer with
  | .layer3 => 1
  | .layer4 => 1
  | _ => 0

/-- Load and store pairs of one component copy. -/
def stxPayloadLen (offset remaining : Nat) : Nat :=
  if remaining = 0 then 0
  else 2 + stxPayloadLen offset (remaining - (stxCopySize offset remaining).bytes)
termination_by remaining
decreasing_by
  have := stxCopySize_bytes_pos offset remaining
  omega

def setProtocolsLen : List BfMatcherType → Nat
  | [] => 0
  | type :: rest =>
      ((bfMatcherGetMeta type).map BfMatcherMeta.inHeader).getD 0 + setProtocolsLen rest

def setKeyLen : Nat → List BfMatcherType → Nat
  | _, [] => 0
  | offset, type :: rest =>
      match bfMatcherGetMeta type with
      | none => 0
      | some info =>
          info.inHeader + stxPayloadLen offset info.hdrPayloadSize +
            setKeyLen (offset + info.hdrPayloadSize) rest

/-- Instructions that build the key of a trie. -/
def trieKeyLen : BfMatcherType → Nat
  | .ip4Snet => 4
  | .ip4Dnet => 4
  | .ip6Snet => 6
  | .ip6Dnet => 6
  | _ => 0

def setTrieLen (type : BfMatcherType) : Nat :=
  match bfMatcherGetMeta type with
  | none => 0
  | some info => 2 * info.inHeader + trieKeyLen type + 6

def setLen (chain : BfChain) (m : BfMatcher) : Nat :=
  match bfChainGetSetForMatcher chain m with
  | none => 0
  | some set =>
      if set.useTrie then
        match set.key with
        | [] => 0
        | type :: _ => setTrieLen type
      else setProtocolsLen set.key + setKeyLen 0 set.key + 6

/-- Number of instructions of a matcher. -/
def matcherLen (chain : BfChain) (m : BfMatcher) : Nat :=
  match m.type with
  | .metaIface => 2
  | .metaL3Proto => 1
  | .metaL4Proto => 1
  | .metaProbability => 2
  | .metaSport => 10 + portLen m.op
  | .metaDport => 10 + portLen m.op
  | .metaMark => markLen (bfHookToFlavor chain.hook) + eqNeLen m.op
  | .ip4Saddr => 5
  | .ip4Daddr => 5
  | .ip4Snet => if (m.payloadU32 0).toNat = 32 then 5 else 8
  | .ip4Dnet => if (m.payloadU32 0).toNat = 32 then 5 else 8
  | .ip4Proto => 4
  | .ip6Saddr => 4 + addrCompareLen m.op
  | .ip6Daddr => 4 + addrCompareLen m.op
  | .ip6Snet => (if (m.payloadU32 0).toNat = 128 then 4 else 14) + addrCompareLen m.op
  | .ip6Dnet => (if (m.payloadU32 0).toNat = 128 then 4 else 14) + addrCompareLen m.op
  | .ip6Nexthdr => if bfIpv6EhBit m.payloadU8 ≠ 0 then 5 else 3
  | .tcpSport => 3 + portLen m.op
  | .tcpDport => 3 + portLen m.op
  | .tcpFlags => 3 + flagsLen m.op
  | .udpSport => 3 + portLen m.op
  | .udpDport => 3 + portLen m.op
  | .icmpType => 3 + eqNeLen m.op
  | .icmpCode => 3 + eqNeLen m.op
  | .icmpv6Type => 3 + eqNeLen m.op
  | .icmpv6Code => 3 + eqNeLen m.op
  | .set => setLen chain m

/-- A set without components has no protocol to check: its only jump follows the lookup. -/
def setLead (chain : BfChain) (m : BfMatcher) : Nat :=
  match bfChainGetSetForMatcher chain m with
  | none => 0
  | some set => if set.key = [] then 5 else 0

/-- Instructions of a matcher in front of its first jump to the next rule. -/
def matcherLead (chain : BfChain) (m : BfMatcher) : Nat :=
  match m.type with
  | .metaIface => 1
  | .metaProbability => 1
  | .metaSport => 9
  | .metaDport => 9
  | .metaMark => markLen (bfHookToFlavor chain.hook)
  | .set => setLead chain m
  | _ => 0

/-- Number of instructions behind the matchers of a rule. -/
def actionLen (rule : BfRule) : Nat :=
  (if rule.mark.isSome then 3 else 0) + (if rule.log ≠ 0 then 7 else 0) +
    (if rule.counters then 6 else 0) + (if rule.verdict.isTerminal then 2 else 0)

/-- Number of instructions of a rule. -/
def ruleLen (chain : BfChain) (rule : BfRule) : Nat :=
  (rule.matchers.map (matcherLen chain)).sum + actionLen rule

/-- Distance from the first jump of a rule to the end of the rule. -/
def ruleSpan (chain : BfChain) (rule : BfRule) : Nat :=
  match rule.matchers with
  | [] => 0
  | m :: _ => ruleLen chain rule - matcherLead chain m - 1

theorem ip4Mask_full_iff (prefixlen : Nat) :
    leBits 32 (netMask 4 prefixlen) = 0xffffffff ↔ prefixlen = 32 := by
  by_cases long : 32 < prefixlen
  · have empty : netMask 4 prefixlen = [] := by
      simp [netMask, bfPrefixToMask, long]
    rw [empty]
    constructor
    · intro h; exact absurd h (by decide)
    · omega
  · have all : ∀ n ≤ 32, leBits 32 (netMask 4 n) = 0xffffffff ↔ n = 32 := by decide
    exact all prefixlen (by omega)

theorem ip6Mask_full_iff (prefixlen : Nat) :
    (netMask 16 prefixlen).getD 15 0 = 0xff ↔ prefixlen = 128 := by
  by_cases long : 128 < prefixlen
  · have empty : netMask 16 prefixlen = [] := by
      simp [netMask, bfPrefixToMask, long]
    rw [empty]
    constructor
    · intro h; exact absurd h (by decide)
    · omega
  · have all : ∀ n ≤ 128, (netMask 16 n).getD 15 0 = 0xff ↔ n = 128 := by decide +kernel
    exact all prefixlen (by omega)

theorem length_portSlots (m : BfMatcher) : (portSlots m).length = portLen m.op := by
  unfold portSlots
  cases m.op <;> rfl

theorem length_addrCompareSlots (op : BfMatcherOp) (addr : List Byte) :
    (addrCompareSlots op addr).length = addrCompareLen op := by
  unfold addrCompareSlots addrCompareLen
  split <;> rfl

theorem length_ip4NetSlots (m : BfMatcher) :
    (ip4NetSlots m).length = if (m.payloadU32 0).toNat = 32 then 3 else 6 := by
  unfold ip4NetSlots ip4MaskSlots
  by_cases full : (m.payloadU32 0).toNat = 32
  · rw [if_neg (not_not.mpr ((ip4Mask_full_iff _).mpr full)), if_pos full]
    rfl
  · rw [if_pos (mt (ip4Mask_full_iff _).mp full), if_neg full]
    rfl

theorem length_ip6NetSlots (m : BfMatcher) :
    (ip6NetSlots m).length =
      (if (m.payloadU32 0).toNat = 128 then 2 else 12) + addrCompareLen m.op := by
  unfold ip6NetSlots ip6MaskSlots
  rw [List.length_append, List.length_append, length_addrCompareSlots, ← Nat.add_assoc]
  by_cases full : (m.payloadU32 0).toNat = 128
  · rw [if_neg (not_not.mpr ((ip6Mask_full_iff _).mpr full)), if_pos full]
    rfl
  · rw [if_pos (mt (ip6Mask_full_iff _).mp full), if_neg full]
    rfl

theorem length_stxPayloadSlots (hdrOffset offset src remaining : Nat) :
    (stxPayloadSlots hdrOffset offset src remaining).length = stxPayloadLen offset remaining := by
  fun_induction stxPayloadSlots with
  | case1 => simp [stxPayloadLen]
  | case2 src remaining some ih =>
      rw [stxPayloadLen, if_neg some]
      simp only [List.length_cons, ih]
      omega

theorem length_checkProtocolSlots (info : BfMatcherMeta) :
    (checkProtocolSlots info).length = info.inHeader := by
  unfold checkProtocolSlots BfMatcherMeta.inHeader
  cases info.layer <;> rfl

theorem length_loadHeaderSlots (info : BfMatcherMeta) :
    (loadHeaderSlots info).length = info.inHeader := by
  unfold loadHeaderSlots BfMatcherMeta.inHeader
  cases info.layer <;> rfl

theorem length_setProtocolsSlots (key : List BfMatcherType) :
    (setProtocolsSlots key).length = setProtocolsLen key := by
  induction key with
  | nil => rfl
  | cons type rest ih =>
      rw [setProtocolsSlots, List.length_append, ih, setProtocolsLen]
      cases bfMatcherGetMeta type with
      | none => rfl
      | some info => simp [length_checkProtocolSlots]

theorem length_setKeySlots (offset : Nat) (key : List BfMatcherType) :
    (setKeySlots offset key).length = setKeyLen offset key := by
  induction key generalizing offset with
  | nil => rfl
  | cons type rest ih =>
      unfold setKeySlots setKeyLen
      cases bfMatcherGetMeta type with
      | none => rfl
      | some info =>
          simp only [List.length_append, length_loadHeaderSlots, length_stxPayloadSlots, ih]
          omega

theorem length_setLookupSlots (index keyOff : Nat) : (setLookupSlots index keyOff).length = 6 := rfl

theorem length_setTrieSlots (index : Nat) (type : BfMatcherType) :
    (setTrieSlots index type).length = setTrieLen type := by
  have key : ∀ off, (trieKeySlots type off).length = trieKeyLen type := by
    intro off
    cases type <;> rfl
  unfold setTrieSlots setTrieLen
  cases bfMatcherGetMeta type with
  | none => rfl
  | some info =>
      simp only [List.length_append, length_checkProtocolSlots, length_loadHeaderSlots, key,
        length_setLookupSlots]
      omega

theorem length_setSlots (chain : BfChain) (m : BfMatcher) :
    (setSlots chain m).length = setLen chain m := by
  unfold setSlots setLen
  cases bfChainGetSetForMatcher chain m with
  | none => rfl
  | some set =>
      simp only
      split
      · cases set.key with
        | nil => rfl
        | cons type _ => exact length_setTrieSlots _ type
      · simp only [List.length_append, length_setProtocolsSlots, length_setKeySlots,
          length_setLookupSlots]
        omega

/-- The size of a matcher's code. -/
theorem length_matcherSlots (host : Host) (chain : BfChain) (m : BfMatcher) :
    (matcherSlots host chain m).length = matcherLen chain m := by
  have flags : (tcpFlagsSlots m).length = 1 + flagsLen m.op := by
    unfold tcpFlagsSlots
    cases m.op <;> rfl
  have mark : (metaMarkSlots host (bfHookToFlavor chain.hook) m).length =
      markLen (bfHookToFlavor chain.hook) + eqNeLen m.op := by
    unfold metaMarkSlots
    cases bfHookToFlavor chain.hook <;> cases m.op <;> rfl
  have nexthdr : (ip6NexthdrSlots m).length = if bfIpv6EhBit m.payloadU8 ≠ 0 then 3 else 1 := by
    unfold ip6NexthdrSlots
    split <;> rfl
  have icmp : ∀ proto off, (icmpFieldSlots m proto off).length = 3 + eqNeLen m.op := by
    intro proto off
    unfold icmpFieldSlots l4Slots
    cases m.op <;> rfl
  have port : (metaPortSlots m).length = 10 + portLen m.op := by
    simp only [metaPortSlots, List.length_cons, List.length_append, length_portSlots]
    simp only [swich2Slots, List.length_cons, List.length_nil]
    omega
  have ip4Addr : (ip4AddrSlots m).length = 3 := rfl
  have ip4Proto : (ip4ProtoSlots m).length = 2 := rfl
  have ip6Addr : (ip6AddrSlots m).length = 2 + addrCompareLen m.op := by
    rw [ip6AddrSlots, List.length_append, length_addrCompareSlots]
    rfl
  unfold matcherSlots matcherLen
  cases type : m.type <;>
    simp only [metaSlots, ip4Slots, ip6Slots, tcpSlots, udpSlots, icmpSlots, l4Slots, type,
      List.length_cons, List.length_nil, flags, mark, nexthdr, icmp, port, ip4Addr, ip4Proto,
      ip6Addr, length_ip4NetSlots, length_ip6NetSlots, length_portSlots, length_setSlots] <;>
    grind

/-! ## The first jump of a rule -/

/-- The first jump to the next rule is at position `k`. -/
def LeadsAt (k : Nat) (es : List Emitted) : Prop :=
  (∃ e, es[k]? = some e ∧ e.fixup = some .jmpNextRule) ∧
    ∀ j < k, ∀ e, es[j]? = some e → e.fixup ≠ some .jmpNextRule

theorem LeadsAt.append {k : Nat} {es : List Emitted} (leads : LeadsAt k es) (rest : List Emitted) :
    LeadsAt k (es ++ rest) := by
  obtain ⟨⟨e, at_, isOpen⟩, before⟩ := leads
  have inside := (List.getElem?_eq_some_iff.mp at_).1
  refine ⟨⟨e, by rw [List.getElem?_append_left inside, at_], isOpen⟩, fun j less e' at' => ?_⟩
  rw [List.getElem?_append_left (by omega)] at at'
  exact before j less e' at'

theorem leadsAt_zero (i : BpfInsn) (rest : List Emitted) : LeadsAt 0 (nextSlot i :: rest) :=
  ⟨⟨nextSlot i, rfl, rfl⟩, fun j less => absurd less (by omega)⟩

theorem LeadsAt.cons {k : Nat} {es : List Emitted} {e : Emitted}
    (quiet : e.fixup ≠ some .jmpNextRule) (leads : LeadsAt k es) : LeadsAt (k + 1) (e :: es) := by
  obtain ⟨⟨e', at_, isOpen⟩, before⟩ := leads
  refine ⟨⟨e', by rw [List.getElem?_cons_succ, at_], isOpen⟩, fun j less e'' at' => ?_⟩
  cases j with
  | zero =>
      cases at'
      exact quiet
  | succ j => exact before j (by omega) e'' at'

theorem LeadsAt.settled_append {k : Nat} {es lead : List Emitted}
    (settled : lead.all Emitted.settled = true) (leads : LeadsAt k es) :
    LeadsAt (lead.length + k) (lead ++ es) := by
  induction lead with
  | nil => simpa using leads
  | cons e lead ih =>
      rw [List.all_cons, Bool.and_eq_true] at settled
      have tail := LeadsAt.cons (Emitted.not_open_of_settled settled.1) (ih settled.2)
      rwa [Nat.add_right_comm] at tail

theorem checkProtocol_leads {info : BfMatcherMeta} {p p' : BfProgram} (rest : List Emitted)
    (ran : bfStubRuleCheckProtocol info p = .ok ((), p')) :
    LeadsAt 0 (checkProtocolSlots info ++ rest) := by
  unfold bfStubRuleCheckProtocol at ran
  unfold checkProtocolSlots
  cases layer : info.layer <;> simp only [layer] at ran ⊢
  case layer3 => exact leadsAt_zero _ _
  case layer4 => exact leadsAt_zero _ _
  all_goals cases ran

theorem bfMatcherGenerateSet_leads {m : BfMatcher} {p p' : BfProgram}
    (ran : bfMatcherGenerateSet m p = .ok ((), p')) :
    LeadsAt (setLead p.chain m) (setSlots p.chain m) := by
  unfold bfMatcherGenerateSet at ran
  rw [gen_bind_ok (gen_get p)] at ran
  unfold setSlots setLead
  cases found : bfChainGetSetForMatcher p.chain m with
  | none =>
      rw [found] at ran
      cases ran
  | some set =>
      simp only [found] at ran
      cases trie : set.useTrie <;> cases key : set.key <;>
        simp only [trie, key, if_true, Bool.false_eq_true, if_false, reduceCtorEq] at ran ⊢
      case false.nil =>
          have quiet : ∀ i : BpfInsn, ({ insn := i } : Emitted).fixup ≠ some .jmpNextRule :=
            fun _ => nofun
          exact .cons nofun (.cons (quiet _) (.cons (quiet _) (.cons (quiet _) (.cons (quiet _)
            (leadsAt_zero _ [])))))
      case true.nil => cases ran
      case false.cons type rest =>
          obtain ⟨_, p₁, checks, ran⟩ := gen_bind_inv ran
          unfold setCheckProtocols at checks
          unfold setProtocolsSlots
          cases known : bfMatcherGetMeta type with
          | none => simp [known, gen_bind, gen_throw] at checks
          | some info =>
              simp only [known] at checks ⊢
              obtain ⟨_, p₂, first, -⟩ := gen_bind_inv checks
              rw [List.append_assoc]
              exact checkProtocol_leads _ first
      case true.cons type rest =>
          unfold bfMatcherGenerateSetTrie at ran
          unfold setTrieSlots
          cases known : bfMatcherGetMeta type with
          | none => simp [known, gen_throw] at ran
          | some info =>
              simp only [known] at ran ⊢
              obtain ⟨_, p₁, first, -⟩ := gen_bind_inv ran
              exact checkProtocol_leads _ first

theorem bfMatcherGenerateMetaMark_leads {m : BfMatcher} {p p' : BfProgram}
    (ran : bfMatcherGenerateMetaMark m p = .ok ((), p')) :
    LeadsAt (markLen p.flavor) (metaMarkSlots p.host p.flavor m) := by
  unfold bfMatcherGenerateMetaMark at ran
  rw [gen_bind_ok (gen_get p)] at ran
  have settled : (getMarkSlots p.host p.flavor).all Emitted.settled = true := by
    cases p.flavor <;> rfl
  have length : (getMarkSlots p.host p.flavor).length = markLen p.flavor := by
    cases p.flavor <;> rfl
  have lead : ∀ i, LeadsAt (markLen p.flavor) (getMarkSlots p.host p.flavor ++ [nextSlot i]) := by
    intro i
    have tail := LeadsAt.settled_append settled (leadsAt_zero i [])
    rwa [length] at tail
  unfold metaMarkSlots
  cases known : (bfFlavorOpsGet p.flavor).genInlineGetMark with
  | none =>
      rw [known] at ran
      cases ran
  | some getMark =>
      simp only [known] at ran
      obtain ⟨_, p₁, -, ran⟩ := gen_bind_inv ran
      cases op : m.op <;> simp only [op] at ran ⊢
      case eq => exact lead _
      case ne => exact lead _
      all_goals cases ran

/-- Every matcher that is generated has a jump to the next rule. -/
theorem bfMatcherGenerate_leads {m : BfMatcher} {p p' : BfProgram}
    (ran : bfMatcherGenerate m p = .ok ((), p')) :
    LeadsAt (matcherLead p.chain m) (matcherSlots p.host p.chain m) := by
  have port : LeadsAt 9 (metaPortSlots m) := by
    refine .cons nofun ?_
    exact LeadsAt.settled_append (settled_swich2Slots ..) (leadsAt_zero _ _)
  unfold bfMatcherGenerate at ran
  unfold matcherSlots matcherLead
  cases type : m.type <;>
    simp only [metaSlots, ip4Slots, ip6Slots, tcpSlots, udpSlots, icmpSlots, icmpFieldSlots,
      l4Slots, type] at ran ⊢ <;>
    first
      | exact leadsAt_zero _ _
      | exact port
      | exact .cons nofun (leadsAt_zero _ _)
      | exact bfMatcherGenerateSet_leads ran
      | skip
  case metaMark =>
      simp only [bfMatcherGenerateMeta, type] at ran
      exact bfMatcherGenerateMetaMark_leads ran

end Bpfilter
