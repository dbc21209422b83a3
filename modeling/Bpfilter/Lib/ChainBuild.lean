/-
# Lib.ChainBuild -- chains built rule by rule

A chain is built by `bf_chain_new` from a list of rules, or from a part of it, and then
`bf_chain_add_rule` for each rule that is left.  `Builds` is any mix of the two.

All of them give the same chain (`Builds.eq_new`), so its flags and indices can be read
off the list of rules: a flag is set exactly when a rule uses the feature, and
`rule->index` is the position of the rule, narrowed to 32 bits
(`chain_indexed_and_flagged`).  Past 2^32 rules the indices start again
(`hugeChain_not_indexed`).
-/
import Bpfilter.Lib.ChainPack

namespace Bpfilter

set_option autoImplicit false

/-! ## Building -/

/-- The chains that can be built from a list of rules. -/
inductive Builds (name : String) (hook : BfHook) (policy : BfVerdict) (sets : List BfSet) :
    List BfRule → BfChain → Prop
  | new (rules : List BfRule) :
      Builds name hook policy sets rules (bfChainNew name hook policy sets rules)
  | addRule {rules : List BfRule} {chain : BfChain} (rule : BfRule) :
      Builds name hook policy sets rules chain →
      Builds name hook policy sets (rules ++ [rule]) (bfChainAddRule chain rule)

variable {name : String} {hook : BfHook} {policy : BfVerdict} {sets : List BfSet}
  {rules : List BfRule} {chain : BfChain}

/-- The step: adding a rule to a new chain is making the chain with one rule more. -/
theorem bfChainAddRule_new (rule : BfRule) :
    bfChainAddRule (bfChainNew name hook policy sets rules) rule =
      bfChainNew name hook policy sets (rules ++ [rule]) := by
  have flags : bfChainUpdateFeatures (rules.foldl bfChainUpdateFeatures {}) rule =
      (rules ++ [rule]).foldl bfChainUpdateFeatures {} := by
    rw [List.foldl_append, List.foldl_cons, List.foldl_nil]
  have numbered : bfChainNumber 0 rules ++
      [{ rule with index := BitVec.ofNat 32 (bfChainNumber 0 rules).length }] =
        bfChainNumber 0 (rules ++ [rule]) := by
    rw [bfChainNumber_append, bfChainNumber_length, Nat.zero_add]
  simp only [bfChainAddRule, bfChainNew, flags, numbered]

/-- The run: every way to build a chain gives the chain made from all rules at once. -/
theorem Builds.eq_new (built : Builds name hook policy sets rules chain) :
    chain = bfChainNew name hook policy sets rules := by
  induction built with
  | new rules => rfl
  | addRule rule _ ih => rw [ih, bfChainAddRule_new]

/-! ## Indices -/

theorem getElem?_bfChainNumber (ridx : Nat) (rules : List BfRule) (i : Nat) :
    (bfChainNumber ridx rules)[i]? =
      rules[i]?.map fun rule => { rule with index := BitVec.ofNat 32 (ridx + i) } := by
  induction rules generalizing ridx i with
  | nil => rfl
  | cons first rest ih =>
      cases i with
      | zero => rfl
      | succ i =>
          rw [bfChainNumber, List.getElem?_cons_succ, ih, List.getElem?_cons_succ,
            Nat.add_right_comm, Nat.add_assoc]

theorem getElem?_bfChainNew (i : Nat) :
    (bfChainNew name hook policy sets rules).rules[i]? =
      rules[i]?.map fun rule => { rule with index := BitVec.ofNat 32 i } := by
  have numbered := getElem?_bfChainNumber 0 rules i
  rwa [Nat.zero_add] at numbered

/-! ## Flags -/

/-- The flags of a chain are those it started with and those of its rules. -/
theorem foldl_features_iff (rules : List BfRule) (flags : BfChainFlags) :
    ((rules.foldl bfChainUpdateFeatures flags).log = true ↔
        flags.log = true ∨ ∃ rule ∈ rules, rule.log ≠ 0) ∧
      ((rules.foldl bfChainUpdateFeatures flags).setMark = true ↔
        flags.setMark = true ∨ ∃ rule ∈ rules, rule.mark.isSome = true) ∧
      ((rules.foldl bfChainUpdateFeatures flags).storeNexthdr = true ↔
        flags.storeNexthdr = true ∨ ∃ rule ∈ rules, ∃ m ∈ rule.matchers, m.type = .ip6Nexthdr) ∧
      ((rules.foldl bfChainUpdateFeatures flags).getMark = true ↔
        flags.getMark = true ∨ ∃ rule ∈ rules, ∃ m ∈ rule.matchers, m.type = .metaMark) := by
  induction rules generalizing flags with
  | nil => simp
  | cons first rest ih =>
      obtain ⟨log, setMark, storeNexthdr, getMark⟩ := ih (bfChainUpdateFeatures flags first)
      refine ⟨log.trans ?_, setMark.trans ?_, storeNexthdr.trans ?_, getMark.trans ?_⟩ <;>
        simp [bfChainUpdateFeatures, or_assoc]

/-- The flags of a chain are the features its rules use. -/
def BfChain.FlagsUsed (chain : BfChain) : Prop :=
  (chain.flags.log = true ↔ ∃ rule ∈ chain.rules, rule.log ≠ 0) ∧
    (chain.flags.setMark = true ↔ ∃ rule ∈ chain.rules, rule.mark.isSome = true) ∧
    (chain.flags.storeNexthdr = true ↔
      ∃ rule ∈ chain.rules, ∃ m ∈ rule.matchers, m.type = .ip6Nexthdr) ∧
    (chain.flags.getMark = true ↔ ∃ rule ∈ chain.rules, ∃ m ∈ rule.matchers, m.type = .metaMark)

theorem bfChainNew_flagsUsed (name : String) (hook : BfHook) (policy : BfVerdict)
    (sets : List BfSet) (rules : List BfRule) :
    (bfChainNew name hook policy sets rules).FlagsUsed := by
  have used := foldl_features_iff (bfChainNumber 0 rules) {}
  rw [foldl_features_number] at used
  simp only [Bool.false_eq_true, false_or] at used
  exact used

/-! ## Result -/

/-- Every rule has the index of its place in the chain. -/
def BfChain.Indexed (chain : BfChain) : Prop :=
  ∀ (i : Nat) (rule : BfRule), chain.rules[i]? = some rule → rule.index.toNat = i

/-- **Chains.**  However a chain is built, it is the chain `bf_chain_new` makes from all its
rules; the rules are those it was given, each with its place as index, as far as 32 bits
hold it; and its flags are the features the rules use. -/
theorem chain_indexed_and_flagged (built : Builds name hook policy sets rules chain) :
    chain = bfChainNew name hook policy sets rules ∧
      (∀ i : Nat, chain.rules[i]? =
        rules[i]?.map fun rule : BfRule => { rule with index := BitVec.ofNat 32 i }) ∧
      (rules.length ≤ 2 ^ 32 → chain.Indexed) ∧ chain.FlagsUsed := by
  obtain rfl := built.eq_new
  refine ⟨rfl, fun i => getElem?_bfChainNew i, ?_, bfChainNew_flagsUsed ..⟩
  intro few i rule here
  rw [getElem?_bfChainNew] at here
  obtain ⟨old, inside, rfl⟩ := Option.map_eq_some_iff.mp here
  obtain ⟨below, -⟩ := List.getElem?_eq_some_iff.mp inside
  exact Nat.mod_eq_of_lt (below.trans_le few)

/-- A rule that logs, and one that reads the mark, added to it. -/
theorem addedRule_indexed :
    let logs : BfRule := { matchers := [], log := 1, verdict := .drop }
    let reads : BfRule :=
      { matchers := [⟨.metaMark, .eq, [1, 0, 0, 0]⟩], verdict := .accept }
    let chain := bfChainAddRule (bfChainNew "c" .tcIngress .accept [] [logs]) reads
    chain.rules.map (·.index) = [0, 1] ∧
      chain.flags = { log := true, getMark := true } ∧ chain.Indexed ∧ chain.FlagsUsed := by
  intro logs reads chain
  have built : Builds "c" .tcIngress .accept [] ([logs] ++ [reads]) chain :=
    .addRule reads (.new [logs])
  obtain ⟨-, -, indexed, used⟩ := chain_indexed_and_flagged built
  exact ⟨rfl, rfl, indexed (by decide), used⟩

/-- Behind 2^32 rules, an index is 0 again. -/
theorem hugeChain_not_indexed :
    ¬ (bfChainNew "c" .xdp .accept []
      (List.replicate (2 ^ 32 + 1) { matchers := [], verdict := .drop })).Indexed := by
  have wraps : ∀ n, n < 2 ^ 32 + 1 → ∀ rule : BfRule,
      (List.replicate (2 ^ 32 + 1) rule)[n]? = some rule := by
    intro n inside rule
    rw [List.getElem?_replicate, if_pos inside]
  intro indexed
  have last := indexed (2 ^ 32) _ (by
    rw [getElem?_bfChainNew, wraps (2 ^ 32) (Nat.lt_succ_self _), Option.map_some])
  rw [BitVec.toNat_ofNat, Nat.mod_self] at last
  exact absurd last (by decide)

end Bpfilter
