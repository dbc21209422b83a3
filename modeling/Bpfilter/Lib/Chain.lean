/-
# Lib.Chain -- verdicts, hooks, sets, rules and chains

The values a program is generated from (`libbpfilter`): a chain is a hook, a
policy, a list of sets and a list of rules; a rule is a list of matchers with
the effects and the verdict it has on the packets it matches.

`bfSetNew` is the constructor of sets, with its checks in source order;
`bfChainNew` and `bfChainAddRule` number the rules and accumulate the feature
flags.  Memory allocation always succeeds here.
-/
import Bpfilter.Lib.Matcher

namespace Bpfilter

set_option autoImplicit false

open Ebpf (Byte)

/-! ## Verdicts, hooks and flavors -/

inductive BfVerdict where
  | accept | drop | continue
  deriving DecidableEq, Repr

/-- Verdicts below `_BF_TERMINAL_VERDICT_MAX` stop the processing of a packet. -/
def BfVerdict.isTerminal : BfVerdict → Bool
  | .accept => true
  | .drop => true
  | .continue => false

inductive BfHook where
  | xdp
  | tcIngress
  | nfPreRouting
  | nfLocalIn
  | nfForward
  | cgroupIngress
  | cgroupEgress
  | nfLocalOut
  | nfPostRouting
  | tcEgress
  deriving DecidableEq, Repr

inductive BfFlavor where
  | tc | nf | xdp | cgroup
  deriving DecidableEq, Repr

def bfHookToFlavor : BfHook → BfFlavor
  | .xdp => .xdp
  | .tcIngress => .tc
  | .nfPreRouting => .nf
  | .nfLocalIn => .nf
  | .cgroupIngress => .cgroup
  | .cgroupEgress => .cgroup
  | .nfForward => .nf
  | .nfLocalOut => .nf
  | .nfPostRouting => .nf
  | .tcEgress => .tc

/-! ## Sets -/

/-- `BF_SET_MAX_N_COMPS` -/
def bfSetMaxNComps : Nat := 8

structure BfSet where
  name : Option String
  key : List BfMatcherType
  elemSize : Nat
  elems : List (List Byte)
  useTrie : Bool
  deriving DecidableEq, Repr

/-- The component loop of `bf_set_new`: add up the payload sizes, failing on the
first type that does not support `in`. -/
def bfSetElemSize : List BfMatcherType → Except Errno Nat
  | [] => .ok 0
  | type :: rest =>
      match bfMatcherGetOps type .inSet with
      | none => .error .enotsup
      | some size =>
          match bfSetElemSize rest with
          | .ok total => .ok (size + total)
          | .error e => .error e

def bfSetNew (name : Option String) (key : List BfMatcherType) : Except Errno BfSet :=
  if key.length = 0 then .error .einval
  else if bfSetMaxNComps < key.length then .error .e2big
  else
    match bfSetElemSize key with
    | .error e => .error e
    | .ok elemSize =>
        if 1 < key.length ∧ key.any (·.isNet) then .error .einval
        else .ok {
          name, key, elemSize, elems := [],
          useTrie := key.length == 1 && key.any (·.isNet) }

/-- `bf_set_add_elem`: the element is `elem_size` bytes. -/
def bfSetAddElem (set : BfSet) (elem : List Byte) : BfSet :=
  { set with elems := set.elems ++ [elem.take set.elemSize] }

/-! ## Rules and chains -/

/-- `struct bf_rule`; `mark` is `none` when its upper half is zero. -/
structure BfRule where
  index : BitVec 32 := 0
  matchers : List BfMatcher
  log : BitVec 8 := 0
  mark : Option (BitVec 32) := none
  counters : Bool := false
  verdict : BfVerdict
  deriving DecidableEq, Repr

/-- The bits of `chain->flags`. -/
structure BfChainFlags where
  log : Bool := false
  storeNexthdr : Bool := false
  setMark : Bool := false
  getMark : Bool := false
  deriving DecidableEq, Repr

structure BfChain where
  name : String
  flags : BfChainFlags
  hook : BfHook
  policy : BfVerdict
  sets : List BfSet
  rules : List BfRule
  deriving DecidableEq, Repr

/-- `_bf_chain_update_features` -/
def bfChainUpdateFeatures (flags : BfChainFlags) (rule : BfRule) : BfChainFlags :=
  { log := flags.log || rule.log != 0
    setMark := flags.setMark || rule.mark.isSome
    storeNexthdr := flags.storeNexthdr || rule.matchers.any (·.type == .ip6Nexthdr)
    getMark := flags.getMark || rule.matchers.any (·.type == .metaMark) }

/-- The rule loop of `bf_chain_new`: rules are numbered from `ridx` on. -/
def bfChainNumber : Nat → List BfRule → List BfRule
  | _, [] => []
  | ridx, rule :: rest => { rule with index := BitVec.ofNat 32 ridx } :: bfChainNumber (ridx + 1) rest

def bfChainNew (name : String) (hook : BfHook) (policy : BfVerdict) (sets : List BfSet)
    (rules : List BfRule) : BfChain :=
  { name, hook, policy, sets
    flags := rules.foldl bfChainUpdateFeatures {}
    rules := bfChainNumber 0 rules }

def bfChainAddRule (chain : BfChain) (rule : BfRule) : BfChain :=
  { chain with
    flags := bfChainUpdateFeatures chain.flags rule
    rules := chain.rules ++ [{ rule with index := BitVec.ofNat 32 chain.rules.length }] }

/-- `bf_chain_get_set_for_matcher` -/
def bfChainGetSetForMatcher (chain : BfChain) (m : BfMatcher) : Option BfSet :=
  if m.type = .set then chain.sets[(m.payloadU32 0).toNat]? else none

/-- `bf_chain_validate` -/
def bfChainValidate (chain : BfChain) : Bool :=
  if chain.flags.setMark &&
      (bfHookToFlavor chain.hook == .xdp || bfHookToFlavor chain.hook == .nf) then false
  else if chain.flags.getMark && bfHookToFlavor chain.hook == .xdp then false
  else true

end Bpfilter
