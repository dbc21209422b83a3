/-
# Cgen.NexthdrMatch -- the next-header matcher

`ip6.nexthdr` tests the record of extension headers for the types that have a bit in
it, and the protocol register for all other values.  Both come from the walk that the
code in front of the rules makes (Cgen.Protocols): it starts only at first values that
the mask covers, it reads lengths as `stubAdvance` does, and protocols without a parser
are forgotten.

`ip6Nexthdr_exact_iff` says for which packets and values the matcher, in both of its
forms, decides whether the value occurs in the chain of headers.  On chains without a
marked fragment header that is the case when the value does not occur, or when the mask
covers the first value and the one asked for is an extension header or has a parser.
-/
import Bpfilter.Cgen.ProtoMatch

namespace Bpfilter

set_option autoImplicit false

open Ebpf

variable {W : Type} {env : Env W BfElfstubId} {maps : BfMaps} {packet : W → Packet}
  {copies : W → BitVec 32 → Addr → Nat → Bool} {others : List (Addr × Nat)}
  {readable : W → BitVec 32 → Bool}

/-! ## What the matcher sees -/

/-- The walk of the stubs comes across a value: as one of the headers it passes, or as the
protocol behind them. -/
def WalkSees (slice : Slice) (first : BitVec 8) (offset : BitVec 32) (value : BitVec 8) : Prop :=
  WalkPasses stubAdvance slice value bfIpv6ExtMaxChain first offset ∨
    ∃ headers stop, HeaderChain stubAdvance slice first offset headers value stop ∧
      headers.length ≤ bfIpv6ExtMaxChain

/-- The values the code can tell: extension headers, and protocols that have a parser. -/
def tellsNexthdr (value : BitVec 8) : Bool := isExtHeader value || hasParser value

/-- A value is seen: the walk starts, the code can tell the value, and the walk comes across it. -/
structure NexthdrSeen (slice : Slice) (first : BitVec 8) (offset : BitVec 32) (value : BitVec 8) :
    Prop where
  covered : maskMisses first = false
  tells : tellsNexthdr value = true
  sees : WalkSees slice first offset value

section Seen

variable {size : HeaderSize} {slice : Slice} {flags : BfChainFlags} {first value upper : BitVec 8}
  {offset stop : BitVec 32} {headers : List (BitVec 8)} {n : Nat}

theorem WalkPasses.isExt (exact_ : size.Exact) (passes : WalkPasses size slice value n first offset) :
    isExtHeader value = true := by
  induction passes with
  | here found long => exact exact_.ext long
  | later found long rest ih => exact ih

/-- On a chain that is not too long, the walk sees the values that occur. -/
theorem walkSees_iff (chain : HeaderChain stubAdvance slice first offset headers upper stop)
    (short : headers.length ≤ bfIpv6ExtMaxChain) :
    WalkSees slice first offset value ↔ value ∈ headers ∨ value = upper := by
  refine or_congr (chain.passes_iff stubAdvance_exact short) ?_
  constructor
  · rintro ⟨headers', stop', other, -⟩
    exact (other.unique stubAdvance_exact chain).2.1
  · rintro rfl
    exact ⟨headers, stop, chain, short⟩

theorem ehBit_iff (value : BitVec 8) : bfIpv6EhBit value ≠ 0 ↔ isExtHeader value = true := by
  revert value
  decide +kernel

/-- The test of the matcher, on the record and the register that the walk leaves. -/
theorem nexthdrTest_iff (store : flags.storeNexthdr = true) :
    (if bfIpv6EhBit value ≠ 0 then
        (ipv6View flags slice offset first).ipv6Eh &&& bfIpv6EhBit value ≠ 0
      else (if hasParser (ipv6View flags slice offset first).proto then
        (ipv6View flags slice offset first).proto else 0) = value) ↔
      NexthdrSeen slice first (offset + 40) value := by
  cases ext : isExtHeader value with
  | true =>
      rw [if_pos ((ehBit_iff value).mpr ext), ipv6View_ipv6Eh_iff store ext]
      constructor
      · rintro ⟨covered, passes⟩
        exact ⟨covered, by rw [tellsNexthdr, ext, Bool.true_or], .inl passes⟩
      · rintro ⟨covered, -, passes | ⟨headers, stop, chain, -⟩⟩
        · exact ⟨covered, passes⟩
        · cases ext.symm.trans chain.upper_not_ext
  | false =>
      have noBit : ¬ bfIpv6EhBit value ≠ 0 := by
        rw [ehBit_iff, ext]
        exact Bool.false_ne_true
      have noPass : ¬ WalkPasses stubAdvance slice value bfIpv6ExtMaxChain first (offset + 40) := by
        intro passes
        cases ext.symm.trans (passes.isExt stubAdvance_exact)
      have nonzero : value ≠ 0 := by
        rintro rfl
        cases ext
      rw [if_neg noBit]
      constructor
      · intro holds
        have parsed : hasParser value = true := by
          split at holds
          · next parsed => exact holds ▸ parsed
          · exact absurd holds.symm nonzero
        have known : (ipv6View flags slice offset first).proto = value := by
          split at holds
          · exact holds
          · exact absurd holds.symm nonzero
        obtain ⟨headers, stop, walk⟩ := (ipv6View_proto_iff parsed).mp known
        refine ⟨walk.covered, ?_, .inr ⟨headers, stop, walk.chain, walk.short⟩⟩
        rw [tellsNexthdr, parsed, Bool.or_true]
      · rintro ⟨covered, tells, sees⟩
        obtain ⟨headers, stop, chain, short⟩ := sees.resolve_left noPass
        have parsed : hasParser value = true := by
          rwa [tellsNexthdr, ext, Bool.false_or] at tells
        have walk : WalkReaches flags slice first (offset + 40) value headers stop :=
          ⟨covered, chain, short, .inr (.inl store)⟩
        rw [(ipv6View_proto_iff parsed).mpr ⟨headers, stop, walk⟩, if_pos parsed]

end Seen

/-! ## The matcher -/

section Matcher

variable {p : BfProgram} {c d : Core W}

/-- The packet is one of IPv6: its ethertype says so, or, on hooks that do not see layer 2, what
the code made of the kernel's address family. -/
def IsIpv6 (flavor : BfFlavor) (packet : Packet) (d : Core W) : Prop :=
  if flavor.parsesL2 then ethertype packet = ethPIpv6 else d.regs 7 = ipv6Reg

/-- A chain with a rule on the next header has its headers recorded. -/
theorem storeNexthdr_of_rule {name : String} {hook : BfHook} {policy : BfVerdict}
    {sets : List BfSet} {rules : List BfRule}
    (asked : ∃ rule ∈ rules, ∃ m ∈ rule.matchers, m.type = .ip6Nexthdr) :
    (bfChainNew name hook policy sets rules).flags.storeNexthdr = true := by
  obtain ⟨rule, inRules, m, inRule, isNexthdr⟩ := asked
  have needs : rules.any BfRule.needsNexthdr = true :=
    List.any_eq_true.mpr ⟨rule, inRules, List.any_eq_true.mpr ⟨m, inRule, by simp [isNexthdr]⟩⟩
  rw [show (bfChainNew name hook policy sets rules).flags =
    rules.foldl bfChainUpdateFeatures {} from rfl, foldl_storeNexthdr, needs, Bool.or_true]

/-- **The matcher** of either operator, on a packet of IPv6. -/
theorem ip6Nexthdr_decides {host : Host} {chain : BfChain} (op : BfMatcherOp)
    (known : op = .eq ∨ op = .ne) (value : BitVec 8) {proto : BitVec 8}
    (ipv6 : d.regs 7 = ipv6Reg) (reg : d.regs 8 = proto.setWidth 64) :
    Continues env maps (matcherSlots host chain ⟨.ip6Nexthdr, op, [value]⟩) d ↔
      ((if bfIpv6EhBit value ≠ 0 then ehByte d &&& bfIpv6EhBit value ≠ 0 else proto = value) ↔
        op = .eq) := by
  let header := d.setReg 6 (d.mem.load (ctxAddr (d.regs 10) .l3Hdr) 8)
  obtain ⟨e, ran⟩ := @eval_ip6Nexthdr W env maps ⟨.ip6Nexthdr, op, [value]⟩ known header proto
    (ehByte d) reg rfl
  have slots : matcherSlots host chain ⟨.ip6Nexthdr, op, [value]⟩ =
      nextSlot (bpfJmpImm .ne 7 ((htobe16 ethPIpv6).setWidth 32) 0) ::
        { insn := bpfLdxMem .dw 6 10 (ctxOff .l3Hdr) } ::
        ip6NexthdrSlots ⟨.ip6Nexthdr, op, [value]⟩ := rfl
  have start := (@eval_ip6Opens W env maps (ip6NexthdrSlots ⟨.ip6Nexthdr, op, [value]⟩) d
    ipv6).trans ran
  rw [slots, (decides_of_eval start).1, nexthdrHolds, payloadU8_singleton]
  split
  · exact beq_iff_eq.trans decide_eq_decide
  · exact beq_iff_eq.trans decide_eq_decide

/-- The matcher is always generated. -/
theorem ip6Nexthdr_generated {op : BfMatcherOp} (known : op = .eq ∨ op = .ne) (value : BitVec 8)
    (q : BfProgram) : bfMatcherGenerate ⟨.ip6Nexthdr, op, [value]⟩ q =
      .ok ((), q.append (matcherSlots q.host q.chain ⟨.ip6Nexthdr, op, [value]⟩)) := by
  have supported : ¬ (op ≠ .eq ∧ op ≠ .ne) := fun both => known.elim both.1 both.2
  simp only [bfMatcherGenerate, bfMatcherGenerateIp6, bfMatcherGenerateIp6Nexthdr, gen_bind,
    emitFixupJmpNextRule, emitFixup_eq, emit_eq, BfProgram.append_append, matcherSlots, ip6Slots,
    ip6NexthdrSlots, if_neg supported]
  split
  · simp only [gen_bind, emit_eq, emitFixup_eq, BfProgram.append_append]
    rfl
  · simp only [emitFixup_eq, BfProgram.append_append]
    rfl

/-- `ip6.nexthdr` decides whether a value occurs in a chain of headers. -/
structure NexthdrExact (env : Env W BfElfstubId) (maps : BfMaps) (p : BfProgram) (value : BitVec 8)
    (headers : List (BitVec 8)) (upper : BitVec 8) (d : Core W) : Prop where
  eq : Continues env maps (matcherSlots p.host p.chain ⟨.ip6Nexthdr, .eq, [value]⟩) d ↔
    value ∈ headers ∨ value = upper
  ne : Continues env maps (matcherSlots p.host p.chain ⟨.ip6Nexthdr, .ne, [value]⟩) d ↔
    ¬ (value ∈ headers ∨ value = upper)

/-- The value occurs and is seen, or it does neither. -/
inductive NexthdrSettled (slice : Slice) (first : BitVec 8) (offset : BitVec 32)
    (value : BitVec 8) (headers : List (BitVec 8)) (upper : BitVec 8) : Prop
  | present (occurs : value ∈ headers ∨ value = upper)
      (seen : NexthdrSeen slice first offset value)
  | absent (absent : ¬ (value ∈ headers ∨ value = upper))
      (unseen : ¬ NexthdrSeen slice first offset value)

theorem nexthdrSettled_iff {slice : Slice} {first value upper : BitVec 8} {offset : BitVec 32}
    {headers : List (BitVec 8)} :
    (NexthdrSeen slice first offset value ↔ value ∈ headers ∨ value = upper) ↔
      NexthdrSettled slice first offset value headers upper := by
  constructor
  · intro same
    by_cases seen : NexthdrSeen slice first offset value
    · exact .present (same.mp seen) seen
    · exact .absent (mt same.mpr seen) seen
  · intro settled
    cases settled with
    | present occurs seen => exact iff_of_true seen occurs
    | absent absent unseen => exact iff_of_false unseen absent

/-- A matcher that decides whether the value is seen. -/
theorem nexthdrExact_iff {slice : Slice} {first value upper : BitVec 8} {offset : BitVec 32}
    {headers : List (BitVec 8)} (decides : ∀ op, op = .eq ∨ op = .ne →
      (Continues env maps (matcherSlots p.host p.chain ⟨.ip6Nexthdr, op, [value]⟩) d ↔
        (NexthdrSeen slice first offset value ↔ op = .eq))) :
    NexthdrExact env maps p value headers upper d ↔
      NexthdrSettled slice first offset value headers upper := by
  rw [← nexthdrSettled_iff]
  have eq := (decides .eq (.inl rfl)).trans (iff_true_right rfl)
  constructor
  · intro holds
    exact eq.symm.trans holds.eq
  · intro same
    refine ⟨eq.trans same, (decides .ne (.inr rfl)).trans ?_⟩
    rw [same]
    simp

/-- On a plain chain, only values that occur can be missed. -/
theorem nexthdrSettled_of_plain {slice : Slice} {first value upper : BitVec 8}
    {offset stop : BitVec 32} {headers : List (BitVec 8)}
    (plain : HeaderChain plainAdvance slice first offset headers upper stop)
    (short : headers.length ≤ bfIpv6ExtMaxChain) :
    NexthdrSettled slice first offset value headers upper ↔
      (value ∈ headers ∨ value = upper → maskMisses first = false ∧ tellsNexthdr value = true) := by
  have sees := @walkSees_iff slice first value upper offset stop headers plain.of_plain.2 short
  constructor
  · intro settled occurs
    cases settled with
    | present _ seen => exact ⟨seen.covered, seen.tells⟩
    | absent absent => exact absurd occurs absent
  · intro covers
    by_cases occurs : value ∈ headers ∨ value = upper
    · exact .present occurs ⟨(covers occurs).1, (covers occurs).2, sees.mpr occurs⟩
    · exact .absent occurs fun seen => occurs (sees.mp seen.sees)

/-- **Next headers.**  At any matcher of a program for a chain with a rule on the next header, on
an IPv6 packet with at most six extension headers, the matcher decides whether the value occurs
exactly when the value occurs and is seen, or does neither. -/
theorem ip6Nexthdr_exact_iff {host : Host} {name : String} {hook : BfHook} {policy : BfVerdict}
    {sets : List BfSet} {rules : List BfRule}
    (asked : ∃ rule ∈ rules, ∃ m ∈ rule.matchers, m.type = .ip6Nexthdr) {p : BfProgram}
    (program : p = bfProgramNew host (bfChainNew name hook policy sets rules) maps)
    (parse : ParseEnv env host packet copies (c.regs 10) others)
    (stubs : ParseStubs env packet readable) (aside : Aside (c.regs 10) others)
    (here : AtMatcher env maps p others c d)
    (ipv6 : IsIpv6 (bfHookToFlavor hook) (packet c.world) d)
    {first upper : BitVec 8} {offset stop : BitVec 32} {headers : List (BitVec 8)}
    (firstIs : first = packet c.world ((bfHookToFlavor hook).l3Start + 6))
    (offsetIs : offset = (bfHookToFlavor hook).l3Start + 40)
    (chain : HeaderChain refAdvance ((packet c.world).slice (readable c.world)) first offset headers
      upper stop)
    (short : headers.length ≤ bfIpv6ExtMaxChain) (value : BitVec 8) :
    (∀ op, op = .eq ∨ op = .ne → ∀ q : BfProgram, bfMatcherGenerate ⟨.ip6Nexthdr, op, [value]⟩ q =
      .ok ((), q.append (matcherSlots q.host q.chain ⟨.ip6Nexthdr, op, [value]⟩))) ∧
    (NexthdrExact env maps p value headers upper d ↔
      NexthdrSettled ((packet c.world).slice (readable c.world)) first offset value headers upper) ∧
    (HeaderChain plainAdvance ((packet c.world).slice (readable c.world)) first offset headers
        upper stop →
      (NexthdrExact env maps p value headers upper d ↔
        (value ∈ headers ∨ value = upper →
          maskMisses first = false ∧ tellsNexthdr value = true))) := by
  subst program firstIs offsetIs
  have store := @storeNexthdr_of_rule name hook policy sets rules asked
  obtain ⟨r7, known, isEther⟩ := here.known parse stubs aside
  have six : r7 = ipv6Reg ∧ d.regs 7 = ipv6Reg := by
    have kept : l3Kept ipv6Reg = ipv6Reg := rfl
    cases l2 : (bfHookToFlavor hook).parsesL2 with
    | true =>
        have ether : r7 = etherReg (packet c.world) := isEther l2
        rw [IsIpv6, if_pos l2] at ipv6
        have is : r7 = ipv6Reg := ether.trans ((etherReg_ipv6 _).mpr ipv6)
        refine ⟨is, ?_⟩
        rw [known.l3, is, kept]
    | false =>
        rw [IsIpv6, l2, if_neg Bool.false_ne_true] at ipv6
        refine ⟨?_, ipv6⟩
        have same := known.l3.symm.trans ipv6
        unfold l3Kept at same
        split at same
        · exact same
        · exact absurd same (by decide)
  obtain ⟨rfl, ipv6Here⟩ := six
  obtain ⟨walk, walkIs⟩ : ∃ walk, walk = ipv6View (bfChainNew name hook policy sets rules).flags
      ((packet c.world).slice (readable c.world)) (bfHookToFlavor hook).l3Start
      (packet c.world ((bfHookToFlavor hook).l3Start + 6)) := ⟨_, rfl⟩
  have view : d.regs 8 = (if hasParser walk.proto then walk.proto else 0).setWidth 64 := by
    rw [known.l4, upperRead, if_neg ipv4Reg_ne_ipv6Reg.symm, if_pos rfl, l4Kept_byte, walkIs]
    rfl
  have record : ehByte d = walk.ipv6Eh := (known.eh rfl store).trans (by rw [walkIs]; rfl)
  have test := @nexthdrTest_iff ((packet c.world).slice (readable c.world))
    (bfChainNew name hook policy sets rules).flags
    (packet c.world ((bfHookToFlavor hook).l3Start + 6)) value (bfHookToFlavor hook).l3Start store
  rw [← walkIs, ← record] at test
  have decides := fun op isOp => (@ip6Nexthdr_decides W env maps d host
    (bfChainNew name hook policy sets rules) op isOp value _ ipv6Here view).trans
    (iff_congr test Iff.rfl)
  have exact_iff := @nexthdrExact_iff W env maps (bfProgramNew host
    (bfChainNew name hook policy sets rules) maps) d _ _ value upper _ headers decides
  refine ⟨fun op isOp q => ip6Nexthdr_generated isOp value q, exact_iff, fun plain => ?_⟩
  exact exact_iff.trans (nexthdrSettled_of_plain plain short)

end Matcher

/-! ## Sample packets -/

section Samples

/-- A rule on the next header. -/
def nexthdrRule : BfRule where
  matchers := [⟨.ip6Nexthdr, .eq, [ipprotoRouting]⟩]
  verdict := .drop

def nexthdrProgram : BfProgram :=
  bfProgramNew sampleHost (bfChainNew "c" .tcIngress .accept [] [nexthdrRule]) sampleMaps

theorem nexthdrRule_asked :
    ∃ rule ∈ [nexthdrRule], ∃ m ∈ rule.matchers, m.type = .ip6Nexthdr :=
  ⟨nexthdrRule, List.mem_cons_self, _, List.mem_cons_self, rfl⟩

/-- An IPv6 packet with one extension header in front of TCP, and its Ethernet header. -/
def extPacket (first : BitVec 8) : Packet := fun o =>
  if o = 12 then 0x86 else if o = 13 then 0xdd else if o = 14 then 0x60
  else if o = 20 then first else if o = 54 then ipprotoTcp else 0

theorem extPacket_chain {size : HeaderSize} {first : BitVec 8}
    (long : size first 0 = some 8) :
    HeaderChain size ((extPacket first).slice fun _ => true) first (14 + 40) [first] ipprotoTcp
      62 := by
  have header : ((extPacket first).slice fun _ => true) (14 + 40) = some ⟨ipprotoTcp, 0⟩ := rfl
  exact .ext header long (.upper (by decide))

theorem extPacket_isIpv6 (first : BitVec 8) (d : Core Packet) :
    IsIpv6 (bfHookToFlavor .tcIngress) (extPacket first) d :=
  show ethertype (extPacket first) = ethPIpv6 from
    show (0x86 : BitVec 8) ++ (0xdd : BitVec 8) = ethPIpv6 by decide

/-- A hop-by-hop header is seen. -/
theorem hopoptsPacket_exact : ∃ d,
    AtMatcher recordEnv sampleMaps nexthdrProgram [] (arrival (extPacket ipprotoHopopts)) d ∧
      NexthdrExact recordEnv sampleMaps nexthdrProgram ipprotoHopopts [ipprotoHopopts] ipprotoTcp
        d := by
  obtain ⟨d, here⟩ := @atMatcher_of_falls nexthdrProgram (extPacket ipprotoHopopts)
    (by decide +kernel)
  have plain : HeaderChain plainAdvance ((extPacket ipprotoHopopts).slice fun _ => true)
      ipprotoHopopts (14 + 40) [ipprotoHopopts] ipprotoTcp 62 := extPacket_chain (by decide)
  refine ⟨d, here, ?_⟩
  obtain ⟨-, -, exact_iff⟩ := ip6Nexthdr_exact_iff nexthdrRule_asked rfl recordEnv_parse
    recordEnv_stubs (arrival_aside _) here (extPacket_isIpv6 _ d) rfl rfl plain.of_plain.1 (by decide)
    ipprotoHopopts
  exact (exact_iff plain).mpr fun _ => ⟨by decide, by decide⟩

/-- A routing header in front is not. -/
theorem routingPacket_not_exact :
    bfParseL4Proto (some ipprotoRouting) 0 [] = .ok [ipprotoRouting] ∧
    ParseEnv recordEnv sampleHost (fun w => w) (fun _ _ _ _ => true) 8192 [] ∧
    ParseStubs recordEnv (fun w => w) (fun _ _ => true) ∧
    HeaderChain refAdvance ((extPacket ipprotoRouting).slice fun _ => true) ipprotoRouting (14 + 40)
      [ipprotoRouting] ipprotoTcp 62 ∧
    ∃ d, AtMatcher recordEnv sampleMaps nexthdrProgram [] (arrival (extPacket ipprotoRouting)) d ∧
      IsIpv6 (bfHookToFlavor .tcIngress) (extPacket ipprotoRouting) d ∧
      ¬ Continues recordEnv sampleMaps (matcherSlots nexthdrProgram.host nexthdrProgram.chain
        ⟨.ip6Nexthdr, .eq, [ipprotoRouting]⟩) d ∧
      ¬ NexthdrExact recordEnv sampleMaps nexthdrProgram ipprotoRouting [ipprotoRouting] ipprotoTcp
        d := by
  obtain ⟨d, here⟩ := @atMatcher_of_falls nexthdrProgram (extPacket ipprotoRouting)
    (by decide +kernel)
  obtain ⟨r7, known, isEther⟩ := here.known recordEnv_parse recordEnv_stubs (arrival_aside _)
  obtain rfl : r7 = etherReg (extPacket ipprotoRouting) := isEther rfl
  have seven : d.regs 7 = ipv6Reg := known.l3.trans (by decide)
  have eight : d.regs 8 = (0 : BitVec 8).setWidth 64 := known.l4.trans (by decide)
  have record : ehByte d = 0 := (known.eh (by decide) (by decide)).trans (by decide)
  have blind : ¬ Continues recordEnv sampleMaps (matcherSlots nexthdrProgram.host
      nexthdrProgram.chain ⟨.ip6Nexthdr, .eq, [ipprotoRouting]⟩) d := by
    rw [ip6Nexthdr_decides .eq (.inl rfl) ipprotoRouting seven eight, record]
    decide
  refine ⟨rfl, recordEnv_parse, recordEnv_stubs, extPacket_chain (by decide), d, here,
    extPacket_isIpv6 _ d, blind, fun exact_ => ?_⟩
  exact blind (exact_.eq.mpr (.inl List.mem_cons_self))

end Samples

end Bpfilter
