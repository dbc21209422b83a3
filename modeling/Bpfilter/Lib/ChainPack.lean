/-
# Lib.ChainPack -- chains on the wire

The four encoder and decoder pairs a chain goes through between client and daemon
(`matcher.c`, `set.c`, `rule.c`, `chain.c`).  The decoders read an enumerator as any
integer and do not check it, so they produce `WireMatcher`, `WireRule` and
`WireChain`, whose enumerators are integers; `WireChain.toChain` is the chain these
stand for when all of them are in range.

Indices, flags, element sizes and the kind of a set are not taken from the message
but recomputed by `bfSetNew` and `bfChainNew`.  `bfChainNewFromPack_bfChainPack` says
that they come out as they were, with everything else, for a chain a client built;
`BfChain.Decoded.round_trip` says so for every chain the daemon has read.
-/
import Bpfilter.Lib.Chain
import Bpfilter.Lib.Pack
import Bpfilter.Lib.Set
import Bpfilter.Cgen.Program

namespace Bpfilter

set_option autoImplicit false

open Ebpf (Byte)

/-! ## Enumerations -/

/-- `enum bf_hook` -/
def bfHooks : List BfHook :=
  [.xdp, .tcIngress, .nfPreRouting, .nfLocalIn, .nfForward, .cgroupIngress, .cgroupEgress,
    .nfLocalOut, .nfPostRouting, .tcEgress]

/-- `enum bf_verdict` -/
def bfVerdicts : List BfVerdict := [.accept, .drop, .continue]

/-- `enum bf_matcher_type` -/
def bfMatcherTypes : List BfMatcherType :=
  [.metaIface, .metaL3Proto, .metaL4Proto, .metaProbability, .metaSport, .metaDport, .metaMark,
    .ip4Saddr, .ip4Snet, .ip4Daddr, .ip4Dnet, .ip4Proto,
    .ip6Saddr, .ip6Snet, .ip6Daddr, .ip6Dnet, .ip6Nexthdr,
    .tcpSport, .tcpDport, .tcpFlags, .udpSport, .udpDport,
    .icmpType, .icmpCode, .icmpv6Type, .icmpv6Code, .set]

/-- `enum bf_matcher_op` -/
def bfMatcherOps : List BfMatcherOp := [.eq, .ne, .any, .all, .inSet, .range]

theorem bfHook_back (hook : BfHook) : enumOf bfHooks (enumCode bfHooks hook) = some hook := by
  cases hook <;> rfl

theorem bfVerdict_back (verdict : BfVerdict) :
    enumOf bfVerdicts (enumCode bfVerdicts verdict) = some verdict := by
  cases verdict <;> rfl

theorem bfMatcherType_back (type : BfMatcherType) :
    enumOf bfMatcherTypes (enumCode bfMatcherTypes type) = some type := by
  cases type <;> rfl

theorem bfMatcherOp_back (op : BfMatcherOp) :
    enumOf bfMatcherOps (enumCode bfMatcherOps op) = some op := by
  cases op <;> rfl

/-- `_BF_TERMINAL_VERDICT_MAX` -/
def bfTerminalVerdictMax : Nat := 2

/-! ## Errors of a reader -/

/-- A reader's error code, where assertions can fail too. -/
def orErrno {α : Type} : Except Errno α → Except GenErr α
  | .ok a => .ok a
  | .error e => .error (.errno e)

/-- `bf_assert` -/
def bfAssert (ndebug : Bool) (cond : Bool) : Except GenErr Unit :=
  if ndebug || cond then .ok () else .error .abort

/-! ## Matchers -/

structure WireMatcher where
  type : BitVec 32
  op : BitVec 32
  payload : List Byte
  deriving DecidableEq, Repr

def bfMatcherPack (m : BfMatcher) : Pack :=
  .map [("type", bfWpackInt (enumCode bfMatcherTypes m.type)),
    ("op", bfWpackInt (enumCode bfMatcherOps m.op)),
    ("payload", .bin m.payload)]

/-- `bf_matcher_new_from_pack`; `bf_matcher_new` asserts that there is a payload. -/
def bfMatcherNewFromPack (ndebug : Bool) (node : Pack) : Except GenErr WireMatcher := do
  let type ← orErrno (bfRpackKv bfRpackInt node "type")
  let op ← orErrno (bfRpackKv bfRpackInt node "op")
  let payload ← orErrno (bfRpackKv bfRpackBin node "payload")
  bfAssert ndebug (payload.length != 0)
  .ok ⟨type, op, payload⟩

def WireMatcher.toMatcher (m : WireMatcher) : Option BfMatcher := do
  let type ← enumOf bfMatcherTypes m.type
  let op ← enumOf bfMatcherOps m.op
  some ⟨type, op, m.payload⟩

/-! ## Sets -/

def bfSetPack (set : BfSet) : Pack :=
  .map [("name", match set.name with
      | some name => .str name
      | none => .nil),
    ("key", .arr (set.key.map fun type => bfWpackInt (enumCode bfMatcherTypes type))),
    ("elements", .arr (set.elems.map fun elem => .bin (elem.take set.elemSize)))]

/-- The name of a set, absent when nil. -/
def bfRpackSetName (child : Pack) : Except Errno (Option String) :=
  if bfRpackIsNil child then .ok none
  else do
    let name ← bfRpackStr child
    .ok (some name)

/-- The key loop of `bf_set_new_from_pack`: at most eight components are read. -/
def bfRpackSetKey : Nat → List Pack → Except Errno (List (BitVec 32))
  | _, [] => .ok []
  | count, node :: rest =>
      if bfSetMaxNComps < count + 1 then .error .e2big
      else do
        let comp ← bfRpackInt node
        let comps ← bfRpackSetKey (count + 1) rest
        .ok (comp :: comps)

/-- `bf_set_new` on a key read from a message: no operator is known for a type that is
out of range. -/
def bfSetNewOfCodes (name : Option String) (codes : List (BitVec 32)) : Except Errno BfSet :=
  match codes.mapM (enumOf bfMatcherTypes) with
  | some key => bfSetNew name key
  | none => .error .enotsup

/-- One iteration of the element loop of `bf_set_new_from_pack`. -/
def bfSetUnpackElem (set : BfSet) (node : Pack) : Except Errno BfSet := do
  let elem ← bfRpackBin node
  if elem.length ≠ set.elemSize then .error .einval
  else .ok (bfSetAddElem set elem)

def bfSetNewFromPack (node : Pack) : Except Errno BfSet := do
  let name ← bfRpackSetName (← bfRpackKvNode node "name")
  let codes ← bfRpackSetKey 0 (← bfRpackKv bfRpackArray node "key")
  let set ← bfSetNewOfCodes name codes
  (← bfRpackKv bfRpackArray node "elements").foldlM bfSetUnpackElem set

/-! ## Rules -/

structure WireRule where
  index : BitVec 32
  log : BitVec 8
  counters : Bool
  mark : BitVec 64
  verdict : BitVec 32
  matchers : List WireMatcher
  deriving DecidableEq, Repr

/-- `rule->mark`: the upper half is set when there is a mark. -/
def bfRuleMarkBits : Option (BitVec 32) → BitVec 64
  | none => 0
  | some mark => (0xffffffff : BitVec 32) ++ mark

/-- `bf_rule_mark_get`, when `bf_rule_mark_is_set` -/
def bfRuleMarkOf (bits : BitVec 64) : Option (BitVec 32) :=
  if bits >>> 32 = 0 then none else some (bits.setWidth 32)

def bfRulePack (rule : BfRule) : Pack :=
  .map [("index", bfWpackUint rule.index),
    ("log", bfWpackUint rule.log),
    ("counters", .bool rule.counters),
    ("mark", bfWpackUint (bfRuleMarkBits rule.mark)),
    ("verdict", bfWpackInt (enumCode bfVerdicts rule.verdict)),
    ("matchers", .arr (rule.matchers.map bfMatcherPack))]

def bfRuleNewFromPack (ndebug : Bool) (node : Pack) : Except GenErr WireRule := do
  let index ← orErrno (bfRpackKv (bfRpackUint 32) node "index")
  let log ← orErrno (bfRpackKv (bfRpackUint 8) node "log")
  let counters ← orErrno (bfRpackKv bfRpackBool node "counters")
  let mark ← orErrno (bfRpackKv (bfRpackUint 64) node "mark")
  let verdict ← orErrno (bfRpackKv bfRpackInt node "verdict")
  let nodes ← orErrno (bfRpackKv bfRpackArray node "matchers")
  let matchers ← nodes.mapM (bfMatcherNewFromPack ndebug)
  .ok ⟨index, log, counters, mark, verdict, matchers⟩

def WireRule.toRule (rule : WireRule) : Option BfRule := do
  let matchers ← rule.matchers.mapM WireMatcher.toMatcher
  let verdict ← enumOf bfVerdicts rule.verdict
  some {
    index := rule.index, matchers, log := rule.log, mark := bfRuleMarkOf rule.mark
    counters := rule.counters, verdict }

/-! ## Chains -/

structure WireChain where
  name : String
  hook : BitVec 32
  policy : BitVec 32
  sets : List BfSet
  rules : List WireRule
  deriving DecidableEq, Repr

def bfChainPack (chain : BfChain) : Pack :=
  .map [("name", .str chain.name),
    ("hook", bfWpackInt (enumCode bfHooks chain.hook)),
    ("policy", bfWpackInt (enumCode bfVerdicts chain.policy)),
    ("sets", .arr (chain.sets.map bfSetPack)),
    ("rules", .arr (chain.rules.map bfRulePack))]

/-- `bf_chain_new_from_pack`; `bf_chain_new` asserts that the policy is terminal. -/
def bfChainNewFromPack (ndebug : Bool) (node : Pack) : Except GenErr WireChain := do
  let name ← orErrno (bfRpackKv bfRpackStr node "name")
  let hook ← orErrno (bfRpackKv bfRpackInt node "hook")
  let policy ← orErrno (bfRpackKv bfRpackInt node "policy")
  let sets ← orErrno (bfRpackKv bfRpackArray node "sets")
  let sets ← orErrno (sets.mapM bfSetNewFromPack)
  let rules ← orErrno (bfRpackKv bfRpackArray node "rules")
  let rules ← rules.mapM (bfRuleNewFromPack ndebug)
  bfAssert ndebug (policy.toNat < bfTerminalVerdictMax)
  .ok ⟨name, hook, policy, sets, rules⟩

/-- The chain `bf_chain_new` makes of what was read. -/
def WireChain.toChain (chain : WireChain) : Option BfChain := do
  let hook ← enumOf bfHooks chain.hook
  let policy ← enumOf bfVerdicts chain.policy
  let rules ← chain.rules.mapM WireRule.toRule
  some (bfChainNew chain.name hook policy chain.sets rules)

/-! ## Chains a client can build -/

/-- Sets made with `bf_set_new` and `bf_set_add_elem`. -/
inductive BfSet.Built : BfSet → Prop where
  | new {name : Option String} {key : List BfMatcherType} {set : BfSet}
      (ok : bfSetNew name key = .ok set) : Built set
  | addElem {set : BfSet} {elem : List Byte} (built : Built set)
      (enough : set.elemSize ≤ elem.length) : Built (bfSetAddElem set elem)

/-- Every matcher has a payload. -/
def BfRule.HasPayloads (rule : BfRule) : Prop := ∀ m ∈ rule.matchers, m.payload ≠ []

/-- Chains made with `bf_chain_new` and `bf_chain_add_rule`. -/
inductive BfChain.Built : BfChain → Prop where
  | new {name : String} {hook : BfHook} {policy : BfVerdict} {sets : List BfSet}
      {rules : List BfRule} (terminal : policy.isTerminal = true)
      (sets_built : ∀ set ∈ sets, set.Built) (payloads : ∀ rule ∈ rules, rule.HasPayloads) :
      Built (bfChainNew name hook policy sets rules)
  | addRule {chain : BfChain} {rule : BfRule} (built : Built chain)
      (payloads : rule.HasPayloads) : Built (bfChainAddRule chain rule)

/-- A built set is what `bf_set_new` makes of its name and key, with elements of the right
size. -/
theorem BfSet.Built.shape {set : BfSet} (built : set.Built) :
    AcceptedKey set.key ∧ bfSetNew set.name set.key = .ok { set with elems := [] } ∧
      ∀ elem ∈ set.elems, elem.length = set.elemSize := by
  induction built with
  | new ok =>
      obtain ⟨accepted, rfl⟩ := bfSetNew_inv ok
      exact ⟨accepted, ok, nofun⟩
  | addElem built enough ih =>
      rename_i set elem
      obtain ⟨accepted, ok, sizes⟩ := ih
      refine ⟨accepted, ok, ?_⟩
      intro other mem
      rcases List.mem_append.mp mem with old | new
      · exact sizes other old
      · rw [List.mem_singleton.mp new, List.length_take, min_eq_left enough]
        rfl

/-! ## Numbering -/

theorem bfChainNumber_length (ridx : Nat) (rules : List BfRule) :
    (bfChainNumber ridx rules).length = rules.length := by
  induction rules generalizing ridx with
  | nil => rfl
  | cons rule rest ih => rw [bfChainNumber, List.length_cons, ih, List.length_cons]

theorem bfChainNumber_idem (ridx : Nat) (rules : List BfRule) :
    bfChainNumber ridx (bfChainNumber ridx rules) = bfChainNumber ridx rules := by
  induction rules generalizing ridx with
  | nil => rfl
  | cons rule rest ih => rw [bfChainNumber, bfChainNumber, ih]

theorem bfChainNumber_append (ridx : Nat) (rules : List BfRule) (rule : BfRule) :
    bfChainNumber ridx (rules ++ [rule]) =
      bfChainNumber ridx rules ++ [{ rule with index := BitVec.ofNat 32 (ridx + rules.length) }] := by
  induction rules generalizing ridx with
  | nil => rfl
  | cons first rest ih =>
      rw [List.cons_append, bfChainNumber, ih, bfChainNumber, List.cons_append, List.length_cons,
        Nat.add_right_comm, Nat.add_assoc]

/-- The flags do not depend on the numbering. -/
theorem foldl_features_number (flags : BfChainFlags) (ridx : Nat) (rules : List BfRule) :
    (bfChainNumber ridx rules).foldl bfChainUpdateFeatures flags =
      rules.foldl bfChainUpdateFeatures flags := by
  induction rules generalizing flags ridx with
  | nil => rfl
  | cons rule rest ih =>
      rw [bfChainNumber, List.foldl_cons, ih, List.foldl_cons]
      rfl

theorem mem_bfChainNumber {ridx : Nat} {rules : List BfRule} {rule : BfRule}
    (mem : rule ∈ bfChainNumber ridx rules) :
    ∃ old ∈ rules, ∃ index, rule = { old with index } := by
  induction rules generalizing ridx with
  | nil => cases mem
  | cons first rest ih =>
      rcases List.mem_cons.mp mem with rfl | mem
      · exact ⟨first, List.mem_cons_self .., _, rfl⟩
      · obtain ⟨old, here, found⟩ := ih mem
        exact ⟨old, List.mem_cons_of_mem _ here, found⟩

/-- What every built chain is: flags and indices are the ones `bf_chain_new` computes. -/
structure BfChain.Normal (chain : BfChain) : Prop where
  flags : chain.flags = chain.rules.foldl bfChainUpdateFeatures {}
  rules : bfChainNumber 0 chain.rules = chain.rules
  policy : chain.policy.isTerminal = true
  sets : ∀ set ∈ chain.sets, set.Built
  payloads : ∀ rule ∈ chain.rules, rule.HasPayloads

theorem BfChain.Built.normal {chain : BfChain} (built : chain.Built) : chain.Normal := by
  induction built with
  | new terminal sets payloads =>
      refine ⟨?_, bfChainNumber_idem _ _, terminal, sets, ?_⟩
      · exact (foldl_features_number _ _ _).symm
      · intro rule mem
        obtain ⟨old, here, index, rfl⟩ := mem_bfChainNumber mem
        exact payloads old here
  | addRule built payloads ih =>
      rename_i chain rule
      refine ⟨?_, ?_, ih.policy, ih.sets, ?_⟩
      · rw [bfChainAddRule, List.foldl_append, ← ih.flags]
        rfl
      · rw [bfChainAddRule, bfChainNumber_append, ih.rules, Nat.zero_add]
      · intro other mem
        rcases List.mem_append.mp mem with old | new
        · exact ih.payloads other old
        · rw [List.mem_singleton.mp new]
          exact payloads

theorem BfChain.Normal.eq_new {chain : BfChain} (normal : chain.Normal) :
    bfChainNew chain.name chain.hook chain.policy chain.sets chain.rules = chain := by
  rw [bfChainNew, normal.rules, ← normal.flags]

/-! ## Round trips -/

def BfMatcher.wire (m : BfMatcher) : WireMatcher :=
  ⟨enumCode bfMatcherTypes m.type, enumCode bfMatcherOps m.op, m.payload⟩

theorem BfMatcher.wire_toMatcher (m : BfMatcher) : m.wire.toMatcher = some m := by
  simp only [WireMatcher.toMatcher, BfMatcher.wire, bfMatcherType_back, bfMatcherOp_back,
    Option.bind_eq_bind, Option.bind_some]

theorem bfMatcherNewFromPack_pack {ndebug : Bool} {m : BfMatcher}
    (payload : ndebug = true ∨ m.payload ≠ []) :
    bfMatcherNewFromPack ndebug (bfMatcherPack m) = .ok m.wire := by
  have asserted : bfAssert ndebug (m.payload.length != 0) = .ok () := by
    rw [bfAssert, if_pos (by simpa using payload)]
  simp [bfMatcherNewFromPack, bfMatcherPack, bfRpackKv, bfRpackKvNode, orErrno, bfRpackBin,
    asserted, BfMatcher.wire, -bne_iff_ne, -List.length_eq_zero_iff]

theorem bfRpackSetKey_pack (count : Nat) (key : List BfMatcherType)
    (short : count + key.length ≤ bfSetMaxNComps) :
    bfRpackSetKey count (key.map fun type => bfWpackInt (enumCode bfMatcherTypes type)) =
      .ok (key.map (enumCode bfMatcherTypes)) := by
  induction key generalizing count with
  | nil => rfl
  | cons type rest ih =>
      rw [List.length_cons] at short
      rw [List.map_cons, bfRpackSetKey, if_neg (by omega), bfRpackInt_write,
        ih (count + 1) (by omega)]
      rfl

theorem bfSetUnpackElem_pack {set : BfSet} {elem : List Byte} (size : elem.length = set.elemSize) :
    bfSetUnpackElem set (.bin (elem.take set.elemSize)) =
      .ok { set with elems := set.elems ++ [elem] } := by
  have whole : elem.take set.elemSize = elem := List.take_of_length_le size.le
  rw [whole]
  simp [bfSetUnpackElem, bfRpackBin, size, bfSetAddElem, whole]

theorem foldlM_unpackElem (set : BfSet) (elems : List (List Byte))
    (sizes : ∀ elem ∈ elems, elem.length = set.elemSize) :
    (elems.map fun elem => Pack.bin (elem.take set.elemSize)).foldlM bfSetUnpackElem set =
      .ok { set with elems := set.elems ++ elems } := by
  induction elems generalizing set with
  | nil => simp only [List.map_nil, List.foldlM_nil, List.append_nil]; rfl
  | cons elem rest ih =>
      rw [List.map_cons, List.foldlM_cons, bfSetUnpackElem_pack (sizes elem (List.mem_cons_self ..))]
      have later := ih { set with elems := set.elems ++ [elem] }
        fun other mem => sizes other (List.mem_cons_of_mem _ mem)
      simp only [List.append_assoc, List.singleton_append] at later
      exact later

theorem bfSetNewFromPack_pack {set : BfSet} (built : set.Built) :
    bfSetNewFromPack (bfSetPack set) = .ok set := by
  obtain ⟨accepted, ok, sizes⟩ := built.shape
  have name : bfRpackSetName (match set.name with | some name => .str name | none => .nil) =
      .ok set.name := by
    cases set.name <;> rfl
  have key := bfRpackSetKey_pack 0 set.key (by rw [Nat.zero_add]; exact accepted.short)
  have codes : (set.key.map (enumCode bfMatcherTypes)).mapM (enumOf bfMatcherTypes) =
      some set.key := by
    rw [mapM_write set.key fun type _ => bfMatcherType_back type, List.map_id']
    rfl
  have blank : bfSetNewOfCodes set.name (set.key.map (enumCode bfMatcherTypes)) =
      .ok { set with elems := [] } := by
    rw [bfSetNewOfCodes, codes]
    exact ok
  have elems := foldlM_unpackElem { set with elems := [] } set.elems sizes
  rw [List.nil_append] at elems
  simp [bfSetNewFromPack, bfSetPack, bfRpackKv, bfRpackKvNode, bfRpackArray, name, key, blank,
    elems]

def BfRule.wire (rule : BfRule) : WireRule where
  index := rule.index
  log := rule.log
  counters := rule.counters
  mark := bfRuleMarkBits rule.mark
  verdict := enumCode bfVerdicts rule.verdict
  matchers := rule.matchers.map BfMatcher.wire

theorem bfRuleMark_back (mark : Option (BitVec 32)) : bfRuleMarkOf (bfRuleMarkBits mark) = mark := by
  cases mark with
  | none => rfl
  | some mark =>
      have set : ((0xffffffff : BitVec 32) ++ mark).getLsbD 32 = true := by
        rw [BitVec.getLsbD_append]
        rfl
      have upper : ((0xffffffff : BitVec 32) ++ mark) >>> 32 ≠ 0 := by
        intro zero
        have bit := congrArg (fun v => v.getLsbD 0) zero
        rw [BitVec.getLsbD_ushiftRight] at bit
        exact absurd (set.symm.trans bit) (by decide)
      have lower : ((0xffffffff : BitVec 32) ++ mark).setWidth 32 = mark :=
        BitVec.setWidth_append_eq_right
      rw [bfRuleMarkBits, bfRuleMarkOf, if_neg upper, lower]

theorem BfRule.wire_toRule (rule : BfRule) : rule.wire.toRule = some rule := by
  have matchers : (rule.matchers.map BfMatcher.wire).mapM WireMatcher.toMatcher =
      some rule.matchers := by
    rw [mapM_write rule.matchers fun m _ => m.wire_toMatcher, List.map_id']
    rfl
  simp only [WireRule.toRule, BfRule.wire, matchers, bfVerdict_back, bfRuleMark_back,
    Option.bind_eq_bind, Option.bind_some]

theorem bfRuleNewFromPack_pack {ndebug : Bool} {rule : BfRule}
    (payloads : ndebug = true ∨ rule.HasPayloads) :
    bfRuleNewFromPack ndebug (bfRulePack rule) = .ok rule.wire := by
  have matchers : (rule.matchers.map bfMatcherPack).mapM (bfMatcherNewFromPack ndebug) =
      .ok (rule.matchers.map BfMatcher.wire) :=
    mapM_write rule.matchers fun m mem => bfMatcherNewFromPack_pack (payloads.imp_right (· m mem))
  simp [bfRuleNewFromPack, bfRulePack, bfRpackKv, bfRpackKvNode, orErrno, bfRpackBool,
    bfRpackArray, matchers, BfRule.wire, -List.mapM_map]

def BfChain.wire (chain : BfChain) : WireChain where
  name := chain.name
  hook := enumCode bfHooks chain.hook
  policy := enumCode bfVerdicts chain.policy
  sets := chain.sets
  rules := chain.rules.map BfRule.wire

theorem BfChain.wire_toChain {chain : BfChain}
    (new : bfChainNew chain.name chain.hook chain.policy chain.sets chain.rules = chain) :
    chain.wire.toChain = some chain := by
  have rules : (chain.rules.map BfRule.wire).mapM WireRule.toRule = some chain.rules := by
    rw [mapM_write chain.rules fun rule _ => rule.wire_toRule, List.map_id']
    rfl
  simp only [WireChain.toChain, BfChain.wire, bfHook_back, bfVerdict_back, rules, new,
    Option.bind_eq_bind, Option.bind_some]

/-- The policies the assertion of `bf_chain_new` lets pass. -/
theorem enumCode_terminal (policy : BfVerdict) :
    (enumCode bfVerdicts policy).toNat < bfTerminalVerdictMax ↔ policy.isTerminal = true := by
  cases policy <;> decide

theorem bfChainNewFromPack_pack {ndebug : Bool} {chain : BfChain}
    (built : ∀ set ∈ chain.sets, set.Built)
    (payloads : ndebug = true ∨ ∀ rule ∈ chain.rules, rule.HasPayloads)
    (terminal : ndebug = true ∨ chain.policy.isTerminal = true) :
    bfChainNewFromPack ndebug (bfChainPack chain) = .ok chain.wire := by
  have sets : (chain.sets.map bfSetPack).mapM bfSetNewFromPack = .ok chain.sets := by
    rw [mapM_write chain.sets fun set mem => bfSetNewFromPack_pack (built set mem), List.map_id']
    rfl
  have rules : (chain.rules.map bfRulePack).mapM (bfRuleNewFromPack ndebug) =
      .ok (chain.rules.map BfRule.wire) :=
    mapM_write chain.rules fun rule mem =>
      bfRuleNewFromPack_pack (payloads.imp_right (· rule mem))
  have asserted : bfAssert ndebug
      (decide ((enumCode bfVerdicts chain.policy).toNat < bfTerminalVerdictMax)) = .ok () := by
    rw [bfAssert, if_pos]
    simpa [enumCode_terminal] using terminal
  simp [bfChainNewFromPack, bfChainPack, bfRpackKv, bfRpackKvNode, orErrno, bfRpackStr,
    bfRpackArray, sets, rules, asserted, BfChain.wire, -List.mapM_map]

/-- **Round trip.**  A chain built by a client arrives as it was: name, hook, policy, flags,
indices, sets, rules, matchers and payloads. -/
theorem bfChainNewFromPack_bfChainPack (mpack : Mpack) (ndebug : Bool) {chain : BfChain}
    (built : chain.Built) (inverse : mpack.Inverse (bfChainPack chain)) :
    ∃ node wire, mpack.read (mpack.write (bfChainPack chain)) = some node ∧
      bfChainNewFromPack ndebug node = .ok wire ∧ wire.toChain = some chain :=
  have normal := built.normal
  ⟨_, chain.wire, inverse,
    bfChainNewFromPack_pack normal.sets (.inr normal.payloads) (.inr normal.policy),
    BfChain.wire_toChain normal.eq_new⟩

/-! ## Chains a daemon has read -/

/-- A chain that was read from a message. -/
def BfChain.Decoded (ndebug : Bool) (chain : BfChain) : Prop :=
  ∃ node wire, bfChainNewFromPack ndebug node = .ok wire ∧ wire.toChain = some chain

/-- A built chain can be sent. -/
theorem BfChain.Built.decoded (ndebug : Bool) {chain : BfChain} (built : chain.Built) :
    chain.Decoded ndebug :=
  have normal := built.normal
  ⟨_, _, bfChainNewFromPack_pack normal.sets (.inr normal.payloads) (.inr normal.policy),
    BfChain.wire_toChain normal.eq_new⟩

theorem orErrno_eq_ok {α : Type} {x : Except Errno α} {a : α} (ok : orErrno x = .ok a) :
    x = .ok a := by
  cases x with
  | error e => cases ok
  | ok b =>
      cases ok
      rfl

/-- Every value of a list read in `Except` was read from one of the nodes. -/
theorem mem_of_mapM_ok {ε α β : Type} {read : α → Except ε β} {nodes : List α} {values : List β}
    (ok : nodes.mapM read = .ok values) {value : β} (mem : value ∈ values) :
    ∃ node ∈ nodes, read node = .ok value := by
  induction nodes generalizing values with
  | nil =>
      cases ok
      cases mem
  | cons first rest ih =>
      rw [List.mapM_cons] at ok
      obtain ⟨a, here, ok⟩ := bind_eq_ok ok
      obtain ⟨others, later, ok⟩ := bind_eq_ok ok
      cases ok
      obtain rfl | mem := List.mem_cons.mp mem
      · exact ⟨first, List.mem_cons_self, here⟩
      · obtain ⟨node, there, read⟩ := ih later mem
        exact ⟨node, List.mem_cons_of_mem _ there, read⟩

/-- The same in `Option`. -/
theorem mem_of_mapM_some {α β : Type} {read : α → Option β} {nodes : List α} {values : List β}
    (ok : nodes.mapM read = some values) {value : β} (mem : value ∈ values) :
    ∃ node ∈ nodes, read node = some value := by
  induction nodes generalizing values with
  | nil =>
      cases ok
      cases mem
  | cons first rest ih =>
      rw [List.mapM_cons] at ok
      obtain ⟨a, here, ok⟩ := Option.bind_eq_some_iff.mp ok
      obtain ⟨others, later, ok⟩ := Option.bind_eq_some_iff.mp ok
      cases ok
      obtain rfl | mem := List.mem_cons.mp mem
      · exact ⟨first, List.mem_cons_self, here⟩
      · obtain ⟨node, there, read⟩ := ih later mem
        exact ⟨node, List.mem_cons_of_mem _ there, read⟩

theorem foldlM_unpackElem_built {nodes : List Pack} {start set : BfSet} (built : start.Built)
    (ok : nodes.foldlM bfSetUnpackElem start = .ok set) : set.Built := by
  induction nodes generalizing start with
  | nil =>
      cases ok
      exact built
  | cons node rest ih =>
      rw [List.foldlM_cons] at ok
      obtain ⟨next, added, ok⟩ := bind_eq_ok ok
      obtain ⟨elem, -, added⟩ := bind_eq_ok added
      split at added
      · cases added
      · rename_i size
        cases added
        exact ih (.addElem built (not_not.mp size).ge) ok

theorem bfSetNewFromPack_built {node : Pack} {set : BfSet} (ok : bfSetNewFromPack node = .ok set) :
    set.Built := by
  unfold bfSetNewFromPack at ok
  obtain ⟨nameNode, -, ok⟩ := bind_eq_ok ok
  obtain ⟨name, -, ok⟩ := bind_eq_ok ok
  obtain ⟨keyNodes, -, ok⟩ := bind_eq_ok ok
  obtain ⟨codes, -, ok⟩ := bind_eq_ok ok
  obtain ⟨start, new, ok⟩ := bind_eq_ok ok
  obtain ⟨elems, -, ok⟩ := bind_eq_ok ok
  unfold bfSetNewOfCodes at new
  split at new
  · exact foldlM_unpackElem_built (.new new) ok
  · cases new

theorem bfAssert_ok {ndebug cond : Bool} (ok : bfAssert ndebug cond = .ok ()) :
    ndebug = true ∨ cond = true := by
  unfold bfAssert at ok
  split at ok
  · rename_i passed
    simpa using passed
  · cases ok

theorem bfMatcherNewFromPack_payload {ndebug : Bool} {node : Pack} {wire : WireMatcher}
    (ok : bfMatcherNewFromPack ndebug node = .ok wire) : ndebug = true ∨ wire.payload ≠ [] := by
  unfold bfMatcherNewFromPack at ok
  obtain ⟨type, -, ok⟩ := bind_eq_ok ok
  obtain ⟨op, -, ok⟩ := bind_eq_ok ok
  obtain ⟨payload, -, ok⟩ := bind_eq_ok ok
  obtain ⟨_, asserted, ok⟩ := bind_eq_ok ok
  cases ok
  simpa using bfAssert_ok asserted

theorem bfRuleNewFromPack_payloads {ndebug : Bool} {node : Pack} {wire : WireRule} {rule : BfRule}
    (ok : bfRuleNewFromPack ndebug node = .ok wire) (made : wire.toRule = some rule) :
    ndebug = true ∨ rule.HasPayloads := by
  unfold bfRuleNewFromPack at ok
  obtain ⟨index, -, ok⟩ := bind_eq_ok ok
  obtain ⟨log, -, ok⟩ := bind_eq_ok ok
  obtain ⟨counters, -, ok⟩ := bind_eq_ok ok
  obtain ⟨mark, -, ok⟩ := bind_eq_ok ok
  obtain ⟨verdict, -, ok⟩ := bind_eq_ok ok
  obtain ⟨nodes, -, ok⟩ := bind_eq_ok ok
  obtain ⟨wires, read, ok⟩ := bind_eq_ok ok
  cases ok
  obtain ⟨matchers, converted, made⟩ := Option.bind_eq_some_iff.mp made
  obtain ⟨verdict', -, made⟩ := Option.bind_eq_some_iff.mp made
  cases made
  refine or_iff_not_imp_left.mpr fun debug m mem => ?_
  obtain ⟨wire, there, same⟩ := mem_of_mapM_some converted mem
  obtain ⟨node, -, matcher⟩ := mem_of_mapM_ok read there
  obtain ⟨type, -, same⟩ := Option.bind_eq_some_iff.mp same
  obtain ⟨op, -, same⟩ := Option.bind_eq_some_iff.mp same
  cases same
  exact (bfMatcherNewFromPack_payload matcher).resolve_left debug

/-- **A chain that was read once is read again.**  Saving it and loading it gives the chain back,
also where assertions are compiled out and the chain could not have been built by a client. -/
theorem BfChain.Decoded.round_trip {ndebug : Bool} {chain : BfChain}
    (decoded : chain.Decoded ndebug) :
    bfChainNewFromPack ndebug (bfChainPack chain) = .ok chain.wire ∧
      chain.wire.toChain = some chain := by
  obtain ⟨node, wire, ok, made⟩ := decoded
  unfold bfChainNewFromPack at ok
  obtain ⟨name, -, ok⟩ := bind_eq_ok ok
  obtain ⟨hookCode, -, ok⟩ := bind_eq_ok ok
  obtain ⟨policyCode, -, ok⟩ := bind_eq_ok ok
  obtain ⟨setNodes, -, ok⟩ := bind_eq_ok ok
  obtain ⟨sets, readSets, ok⟩ := bind_eq_ok ok
  obtain ⟨ruleNodes, -, ok⟩ := bind_eq_ok ok
  obtain ⟨wires, readRules, ok⟩ := bind_eq_ok ok
  obtain ⟨_, asserted, ok⟩ := bind_eq_ok ok
  cases ok
  obtain ⟨hook, -, made⟩ := Option.bind_eq_some_iff.mp made
  obtain ⟨policy, known, made⟩ := Option.bind_eq_some_iff.mp made
  obtain ⟨rules, converted, made⟩ := Option.bind_eq_some_iff.mp made
  cases made
  refine ⟨bfChainNewFromPack_pack ?_ ?_ ?_, BfChain.wire_toChain ?_⟩
  · intro set mem
    obtain ⟨setNode, -, read⟩ := mem_of_mapM_ok (orErrno_eq_ok readSets) mem
    exact bfSetNewFromPack_built read
  · refine or_iff_not_imp_left.mpr fun debug rule mem => ?_
    obtain ⟨old, here, index, rfl⟩ := mem_bfChainNumber mem
    obtain ⟨wire, there, same⟩ := mem_of_mapM_some converted here
    obtain ⟨ruleNode, -, read⟩ := mem_of_mapM_ok readRules there
    exact (bfRuleNewFromPack_payloads read same).resolve_left debug
  · refine (bfAssert_ok asserted).imp_right fun small => ?_
    have small := of_decide_eq_true small
    match code : policyCode.toNat, small with
    | 0, _ =>
        rw [enumOf, code] at known
        cases known
        rfl
    | 1, _ =>
        rw [enumOf, code] at known
        cases known
        rfl
  · rw [bfChainNew, bfChainNew]
    simp only [bfChainNumber_idem, foldl_features_number]

/-! ## A message -/

/-- Drop TCP on the way in. -/
def inputRules : List BfRule :=
  [{ matchers := [⟨.ip4Proto, .eq, [6]⟩], counters := true, verdict := .drop }]

def inputChain : BfChain := bfChainNew "in" .nfLocalIn .accept [] inputRules

/-- The message of `inputChain`, byte for byte. -/
def inputBytes : List Byte :=
  [0x85, 0xa4, 0x6e, 0x61, 0x6d, 0x65, 0xa2, 0x69, 0x6e,
    0xa4, 0x68, 0x6f, 0x6f, 0x6b, 0x03,
    0xa6, 0x70, 0x6f, 0x6c, 0x69, 0x63, 0x79, 0x00,
    0xa4, 0x73, 0x65, 0x74, 0x73, 0x90,
    0xa5, 0x72, 0x75, 0x6c, 0x65, 0x73, 0x91,
    0x86, 0xa5, 0x69, 0x6e, 0x64, 0x65, 0x78, 0x00,
    0xa3, 0x6c, 0x6f, 0x67, 0x00,
    0xa8, 0x63, 0x6f, 0x75, 0x6e, 0x74, 0x65, 0x72, 0x73, 0xc3,
    0xa4, 0x6d, 0x61, 0x72, 0x6b, 0x00,
    0xa7, 0x76, 0x65, 0x72, 0x64, 0x69, 0x63, 0x74, 0x01,
    0xa8, 0x6d, 0x61, 0x74, 0x63, 0x68, 0x65, 0x72, 0x73, 0x91,
    0x83, 0xa4, 0x74, 0x79, 0x70, 0x65, 0x0b,
    0xa2, 0x6f, 0x70, 0x00,
    0xa7, 0x70, 0x61, 0x79, 0x6c, 0x6f, 0x61, 0x64, 0xc4, 0x01, 0x06]

/-- A library that knows one message. -/
def inputMpack : Mpack where
  write _ := inputBytes
  read bytes := if bytes = inputBytes then some (bfChainPack inputChain) else none

theorem inputChain_round_trip :
    ∃ node wire, inputMpack.read inputBytes = some node ∧
      bfChainNewFromPack false node = .ok wire ∧ wire.toChain = some inputChain :=
  bfChainNewFromPack_bfChainPack inputMpack false
    (.new rfl nofun fun rule mem m here => by
      rw [List.mem_singleton.mp mem, List.mem_singleton] at here
      rw [here]
      decide)
    (by simp only [Mpack.Inverse, inputMpack, if_true])

end Bpfilter
