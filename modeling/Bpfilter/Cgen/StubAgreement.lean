/-
# Cgen.StubAgreement -- the choice of the IPv6 stub and the verdict

A chain with a rule on `ip6.nexthdr` uses the NH stub, any other chain the EH
stub, so adding such a rule changes the code every packet goes through.
`ipv6Verdict` is the verdict of a chain on an IPv6 packet: the view of the layer 3
code (`ipv6View`), the layer 4 step with its error exit, then the rules in order.
Matchers other than `ip6.nexthdr` are a parameter; they see the packet through the
protocol register and the layer 4 offset.  `eval_ip6Nexthdr` is the link from
`nexthdrHolds` to the emitted matcher.

`stubs_agree_iff` says when the two stubs agree on a packet, and that a rule that
never matches is then invisible.  `Cgen.StubVerdicts` carries this verdict over to the
generated programs.
-/
import Bpfilter.Cgen.Ipv6Walk
import Bpfilter.Cgen.MatcherSlots

namespace Bpfilter

set_option autoImplicit false

open Ebpf

/-! ## The next-header matcher -/

/-- `ip6.nexthdr` on a protocol register and the recorded extension headers. -/
def nexthdrHolds (m : BfMatcher) (proto ipv6Eh : BitVec 8) : Bool :=
  if bfIpv6EhBit m.payloadU8 ≠ 0 then
    (ipv6Eh &&& bfIpv6EhBit m.payloadU8 ≠ 0) == (m.op = .eq)
  else (proto = m.payloadU8) == (m.op = .eq)

section Code

variable {W : Type} {env : Env W BfElfstubId} {maps : BfMaps}

/-- A byte mask sees the lowest byte. -/
theorem and_byte (x : BitVec 64) (b : BitVec 8) :
    x &&& b.setWidth 64 = (x.setWidth 8 &&& b).setWidth 64 := by
  apply BitVec.eq_of_getLsbD_eq
  intro i inside
  simp only [BitVec.getLsbD_and, BitVec.getLsbD_setWidth]
  by_cases low : i < 8
  · simp [low, inside]
  · simp [low, BitVec.getLsbD_of_ge b i (by omega)]

/-- The emitted matcher falls through exactly when the matcher holds. -/
theorem eval_ip6Nexthdr (m : BfMatcher) (known : m.op = .eq ∨ m.op = .ne) {c : Core W}
    {proto ipv6Eh : BitVec 8} (reg : c.regs 8 = proto.setWidth 64)
    (seen : c.mem (ctxAddr (c.regs 10) .ipv6Eh) = ipv6Eh) :
    ∃ d, eval env 0 ((ip6NexthdrSlots m).map (Emitted.link maps)) c =
      if nexthdrHolds m proto ipv6Eh then .fall 0 d else .out d := by
  unfold ip6NexthdrSlots nexthdrHolds
  by_cases extension : bfIpv6EhBit m.payloadU8 ≠ 0
  · rw [if_pos extension, if_pos extension]
    let d := c.setReg 1 ((ipv6Eh &&& bfIpv6EhBit m.payloadU8).setWidth 64)
    refine ⟨d, ?_⟩
    have masked : AluOp.and.eval (c.mem.load (c.regs 10 + (ctxOff .ipv6Eh).signExtend 64) 8)
        (((bfIpv6EhBit m.payloadU8).setWidth 32).signExtend 64) =
          (ipv6Eh &&& bfIpv6EhBit m.payloadU8).setWidth 64 := by
      rw [AluOp.eval, signExtend_byte, and_byte, add_ctxOff, Mem.setWidth_load, seen]
    have zero := setWidth64_inj (by decide) (ipv6Eh &&& bfIpv6EhBit m.payloadU8) 0
    simp only [List.map_cons, List.map_nil, link_insn]
    rw [eval_ldx, eval_alu64Imm, Core.setReg_setReg, Core.setReg_regs, if_pos rfl,
      show Size.dw.bytes = 8 from rfl, masked]
    rw [show c.setReg 1 _ = d from rfl, eval_nextSlot rfl, eval_nil, taken_imm]
    have reg1 : d.regs 1 = (ipv6Eh &&& bfIpv6EhBit m.payloadU8).setWidth 64 := rfl
    rw [reg1, show (0 : BitVec 32).signExtend 64 = 0 from rfl]
    clear_value d
    generalize ipv6Eh &&& bfIpv6EhBit m.payloadU8 = bit at zero
    by_cases set : bit = 0
    · rcases known with op | op <;> simp [op, set, JmpOp.eval]
    · have nonzero : ¬ bit.setWidth 64 = 0 := mt zero.mp set
      have isSet : ¬ bit = 0#8 := set
      have isNonzero : ¬ bit.setWidth 64 = 0#64 := nonzero
      rcases known with op | op <;> simp [op, isSet, isNonzero, JmpOp.eval]
  · rw [if_neg extension, if_neg extension]
    refine ⟨c, ?_⟩
    rw [List.map_cons, List.map_nil, eval_nextSlot rfl, eval_nil, taken_imm, reg, signExtend_byte]
    have same := setWidth64_inj (by decide) proto m.payloadU8
    by_cases equal : proto = m.payloadU8
    · rcases known with op | op <;> simp [op, equal, mismatchJmp, JmpOp.eval]
    · have differ := mt same.mp equal
      rcases known with op | op <;> simp [op, equal, differ, mismatchJmp, JmpOp.eval]

end Code

/-! ## Verdicts -/

section Verdicts

-- Matchers other than `ip6.nexthdr`: on the packet's mark, the protocol register and the
-- layer 4 offset.
variable (reads : BfMatcher → BitVec 32 → BitVec 8 → BitVec 32 → Bool)

def matcherHolds (view : NhResult) (mark : BitVec 32) (m : BfMatcher) : Bool :=
  if m.type = .ip6Nexthdr then nexthdrHolds m view.proto view.ipv6Eh
  else reads m mark view.proto view.l4Offset

/-- The rules in order; a matching rule without terminal verdict may set the mark. -/
def rulesVerdict (policy : BfVerdict) (view : NhResult) : List BfRule → BitVec 32 → BfVerdict
  | [], _ => policy
  | rule :: rest, mark =>
      if rule.matchers.all (matcherHolds reads view mark) then
        if rule.verdict.isTerminal then rule.verdict
        else rulesVerdict policy view rest (rule.mark.getD mark)
      else rulesVerdict policy view rest mark

/-- Size of a supported layer 4 header. -/
def l4HdrSize (proto : BitVec 8) : Option Nat :=
  if proto = ipprotoTcp then some 20
  else if proto = ipprotoUdp ∨ proto = ipprotoIcmp ∨ proto = ipprotoIcmpv6 then some 8
  else none

/-- The layer 4 step: an unsupported protocol clears the register, and `none` is the error
exit taken when the header can not be read. -/
def l4View (readable : BitVec 32 → Nat → Bool) (view : NhResult) : Option NhResult :=
  match l4HdrSize view.proto with
  | none => some { view with proto := 0 }
  | some size => if readable view.l4Offset size then some view else none

/-- The verdict of a chain on an IPv6 packet. -/
def ipv6Verdict (chain : BfChain) (slice : Slice) (readable : BitVec 32 → Nat → Bool)
    (l3Offset : BitVec 32) (nexthdr : BitVec 8) (mark : BitVec 32) : BfVerdict :=
  match l4View readable (ipv6View chain.flags slice l3Offset nexthdr) with
  | none => .accept
  | some view => rulesVerdict reads chain.policy view chain.rules mark

/-- A rule that matches no packet. -/
def NeverMatches (rule : BfRule) : Prop :=
  ∀ view mark, rule.matchers.all (matcherHolds reads view mark) = false

/-- A rule on `ip6.nexthdr`. -/
def BfRule.needsNexthdr (rule : BfRule) : Bool := rule.matchers.any (·.type == .ip6Nexthdr)

theorem foldl_storeNexthdr (rules : List BfRule) (flags : BfChainFlags) :
    (rules.foldl bfChainUpdateFeatures flags).storeNexthdr =
      (flags.storeNexthdr || rules.any BfRule.needsNexthdr) := by
  induction rules generalizing flags with
  | nil => simp
  | cons rule rest ih =>
      rw [List.foldl_cons, ih, List.any_cons, ← Bool.or_assoc]
      rfl

/-- Renumbering rules does not change the verdict. -/
theorem rulesVerdict_number (policy : BfVerdict) (view : NhResult) (n : Nat) (rules : List BfRule)
    (mark : BitVec 32) :
    rulesVerdict reads policy view (bfChainNumber n rules) mark =
      rulesVerdict reads policy view rules mark := by
  induction rules generalizing n mark with
  | nil => rfl
  | cons rule rest ih => simp only [bfChainNumber, rulesVerdict, ih]

/-- A rule that never matches can be left out. -/
theorem rulesVerdict_skip (policy : BfVerdict) (view : NhResult) {rule : BfRule}
    (never : NeverMatches reads rule) (pre post : List BfRule) (mark : BitVec 32) :
    rulesVerdict reads policy view (pre ++ rule :: post) mark =
      rulesVerdict reads policy view (pre ++ post) mark := by
  induction pre generalizing mark with
  | nil => simp only [List.nil_append, rulesVerdict, never view mark, Bool.false_eq_true, if_false]
  | cons first pre ih => simp only [List.cons_append, rulesVerdict, ih]

/-- Rules that do not look at the extension headers do not see them. -/
theorem rulesVerdict_congr (policy : BfVerdict) {view view' : NhResult}
    (proto : view.proto = view'.proto) (offset : view.l4Offset = view'.l4Offset)
    (rules : List BfRule) (free : rules.any BfRule.needsNexthdr = false) (mark : BitVec 32) :
    rulesVerdict reads policy view rules mark = rulesVerdict reads policy view' rules mark := by
  induction rules generalizing mark with
  | nil => rfl
  | cons rule rest ih =>
      rw [List.any_cons, Bool.or_eq_false_iff] at free
      have same : rule.matchers.all (matcherHolds reads view mark) =
          rule.matchers.all (matcherHolds reads view' mark) := by
        rw [Bool.eq_iff_iff, List.all_eq_true, List.all_eq_true]
        refine forall₂_congr fun m mem => ?_
        have other : m.type ≠ .ip6Nexthdr := by
          have := List.any_eq_false.mp free.1 m mem
          simpa using this
        simp only [matcherHolds, if_neg other, proto, offset]
      simp only [rulesVerdict, same, ih free.2]

/-- The layer 4 step reads the protocol and the offset only. -/
theorem l4View_congr (readable : BitVec 32 → Nat → Bool) {view view' : NhResult}
    (proto : view.proto = view'.proto) (offset : view.l4Offset = view'.l4Offset) :
    (l4View readable view).map (fun v => (v.proto, v.l4Offset)) =
      (l4View readable view').map (fun v => (v.proto, v.l4Offset)) := by
  unfold l4View
  rw [proto, offset]
  split
  · rfl
  · split <;> simp [proto, offset]

end Verdicts

/-! ## Agreement -/

/-- Both stubs return the same protocol and leave the same offset. -/
def StubsAgree (slice : Slice) (l3Offset : BitVec 32) (nexthdr : BitVec 8) : Prop :=
  ((bfParseIpv6Nh slice l3Offset nexthdr).proto, (bfParseIpv6Nh slice l3Offset nexthdr).l4Offset) =
    bfParseIpv6Eh slice l3Offset nexthdr

/-- A rule on `ip6.nexthdr` that never matches does not change the verdict of the packet. -/
def RuleInvisible (slice : Slice) (l3Offset : BitVec 32) (nexthdr : BitVec 8) : Prop :=
  ∀ (reads : BfMatcher → BitVec 32 → BitVec 8 → BitVec 32 → Bool)
    (readable : BitVec 32 → Nat → Bool) (name : String) (hook : BfHook) (policy : BfVerdict)
    (sets : List BfSet) (pre post : List BfRule) (rule : BfRule) (mark : BitVec 32),
    rule.needsNexthdr = true → NeverMatches reads rule →
    ipv6Verdict reads (bfChainNew name hook policy sets (pre ++ rule :: post)) slice readable
        l3Offset nexthdr mark =
      ipv6Verdict reads (bfChainNew name hook policy sets (pre ++ post)) slice readable
        l3Offset nexthdr mark

theorem ipv6View_agree {slice : Slice} {l3Offset : BitVec 32} {nexthdr : BitVec 8}
    (agree : StubsAgree slice l3Offset nexthdr) (flags flags' : BfChainFlags) :
    (ipv6View flags slice l3Offset nexthdr).proto =
        (ipv6View flags' slice l3Offset nexthdr).proto ∧
      (ipv6View flags slice l3Offset nexthdr).l4Offset =
        (ipv6View flags' slice l3Offset nexthdr).l4Offset := by
  have proto := congrArg Prod.fst agree
  have offset := congrArg Prod.snd agree
  simp only at proto offset
  unfold ipv6View
  cases callsEhStub nexthdr <;> cases flags.storeNexthdr <;> cases flags'.storeNexthdr <;>
    simp [proto, offset]

theorem ruleInvisible_of_agree {slice : Slice} {l3Offset : BitVec 32} {nexthdr : BitVec 8}
    (agree : StubsAgree slice l3Offset nexthdr) : RuleInvisible slice l3Offset nexthdr := by
  intro reads readable name hook policy sets pre post rule mark needs never
  let flags := (pre ++ rule :: post).foldl bfChainUpdateFeatures {}
  let flags' := (pre ++ post).foldl bfChainUpdateFeatures {}
  have stored : flags.storeNexthdr = true := by
    rw [foldl_storeNexthdr, List.any_append, List.any_cons, needs]
    simp
  simp only [ipv6Verdict, bfChainNew, rulesVerdict_number]
  rw [show List.foldl bfChainUpdateFeatures {} (pre ++ rule :: post) = flags from rfl,
    show List.foldl bfChainUpdateFeatures {} (pre ++ post) = flags' from rfl]
  cases before : flags'.storeNexthdr with
  | true =>
      -- the NH stub was used already
      have same : ipv6View flags slice l3Offset nexthdr =
          ipv6View flags' slice l3Offset nexthdr := by
        simp only [ipv6View, stored, before]
      rw [same]
      split
      · rfl
      · exact rulesVerdict_skip reads policy _ never pre post mark
  | false =>
      have free : (pre ++ post).any BfRule.needsNexthdr = false := by
        have := foldl_storeNexthdr (pre ++ post) {}
        rw [show List.foldl bfChainUpdateFeatures {} (pre ++ post) = flags' from rfl, before] at this
        simpa using this.symm
      obtain ⟨proto, offset⟩ := ipv6View_agree agree flags flags'
      have step := l4View_congr readable proto offset
      cases left : l4View readable (ipv6View flags slice l3Offset nexthdr) with
      | none =>
          cases right : l4View readable (ipv6View flags' slice l3Offset nexthdr) with
          | none => rfl
          | some view' => simp [left, right] at step
      | some view =>
          cases right : l4View readable (ipv6View flags' slice l3Offset nexthdr) with
          | none => simp [left, right] at step
          | some view' =>
              simp only [left, right, Option.map_some, Option.some.injEq, Prod.mk.injEq] at step
              simp only [rulesVerdict_skip reads policy view never]
              exact rulesVerdict_congr reads policy step.1 step.2 _ free mark

/-- **Agreement of the stubs.**  The stubs agree on a packet, and a rule on `ip6.nexthdr` that
never matches is invisible to it, exactly when the walk is not cut short by a failing slice
at a next-header value other than 0. -/
theorem stubs_agree_iff (slice : Slice) (l3Offset : BitVec 32) (nexthdr : BitVec 8) :
    StubsAgree slice l3Offset nexthdr ∧ RuleInvisible slice l3Offset nexthdr ↔
      ∀ value, truncatedAt slice bfIpv6ExtMaxChain nexthdr (l3Offset + 40) = some value →
        value = 0 := by
  have agree := loops_agree_iff slice bfIpv6ExtMaxChain nexthdr (l3Offset + 40) 0
  constructor
  · rintro ⟨agrees, -⟩
    exact agree.mp agrees
  · intro whole
    exact ⟨agree.mpr whole, ruleInvisible_of_agree (agree.mpr whole)⟩

/-! ## A truncated packet -/

/-- A hop-by-hop header in front of TCP, cut after the first byte of the TCP header. -/
def cutReadable (offset : BitVec 32) (size : Nat) : Bool := offset.toNat + size ≤ 49

def cutSlice : Slice := fun offset =>
  if cutReadable offset 2 then some ⟨if offset = 40 then ipprotoTcp else 0, 0⟩ else none

/-- Rules that never match: a header is recorded and is not. -/
def contradiction : BfRule where
  matchers := [⟨.ip6Nexthdr, .eq, [0]⟩, ⟨.ip6Nexthdr, .ne, [0]⟩]
  verdict := .accept

theorem contradiction_never (reads : BfMatcher → BitVec 32 → BitVec 8 → BitVec 32 → Bool) :
    NeverMatches reads contradiction := by
  intro view mark
  cases recorded : decide (view.ipv6Eh &&& 1 = 0) <;>
    simp_all [contradiction, matcherHolds, nexthdrHolds, BfMatcher.payloadU8, bfIpv6EhBit]

/-- The EH stub reports no protocol and the NH stub TCP; adding the rule turns the policy's
drop into the accept of the error exit. -/
theorem cutPacket_disagrees :
    bfParseIpv6Eh cutSlice 0 ipprotoHopopts = (0, 48) ∧
      bfParseIpv6Nh cutSlice 0 ipprotoHopopts = ⟨ipprotoTcp, 48, 1⟩ ∧
      ¬ StubsAgree cutSlice 0 ipprotoHopopts ∧ ¬ RuleInvisible cutSlice 0 ipprotoHopopts := by
  refine ⟨by decide +kernel, by decide +kernel, ?_, ?_⟩
  · unfold StubsAgree
    decide +kernel
  · intro invisible
    have same := invisible (fun _ _ _ _ => false) cutReadable "cut" .xdp .drop [] [] []
      contradiction 0 (by decide) (contradiction_never _)
    exact absurd same (by decide +kernel)

end Bpfilter
