/-
# Bfcli.Meaning -- what the text of a chain decides

The text of a chain is a filter of its own.  A matcher asks what its operator and its payload
say, a set is a choice between the equalities of its elements (`WrittenSet.Holds`), and a name
stands for the first set that is declared with it.  The options of a rule are its effects
(`RuleText.asked`), and rules are tried in order (`ChainText.decide`).

The parser keeps this meaning (`ruleset_means`): a chain it makes of a text decides what the
text decides, leaves the packet as the text does, and does what the text asks for.  It may log
more headers than were asked for, from the memory the log action does not initialise.
-/
import Bpfilter.Bfcli.LogMask
import Bpfilter.Bfcli.SetRefs
import Bpfilter.Cgen.Logging
import Bpfilter.Cgen.RuleTexts
import Bpfilter.Lib.ChainBuild

namespace Bpfilter

set_option autoImplicit false

open Ebpf (Byte)
open Cstr (tokens)

/-! ## The meaning of matchers -/

/-- `matcher_op` -/
def opText : Option (List Char) → Option BfMatcherOp
  | none => some .eq
  | some s => bfMatcherOpFromStr s

/-- A chain in which to read matchers that are about no set. -/
def bareChain : BfChain := bfChainNew "" .xdp .accept [] []

/-- A packet is in a set as it is written: for some element, all the equalities hold that its
components stand for. -/
def WrittenSet.Holds (names : Names) (set : WrittenSet) (v : PacketView) : Prop :=
  ∃ key, KeyText set.rawKey key ∧ ∃ seg ∈ elemTexts set.payload, ∃ ms,
    Equalities names key (strtokR [','] seg) ms ∧ ∀ m ∈ ms, m.holds bareChain v = true

namespace MatcherText

/-- What a matcher asks of a packet, where these sets are declared. -/
def Holds (names : Names) (declared : List SetText) (v : PacketView) : MatcherText → Prop
  | .payload type op raw => ∃ type' op' fresh m, bfMatcherTypeFromStr type = some type' ∧
      opText op = some op' ∧ bfMatcherNewFromRaw names fresh type' op' raw = .ok m ∧
      m.holds bareChain v = true
  | .anonymous rawKey _ elems => WrittenSet.Holds names ⟨none, rawKey, elems⟩ v
  | .named _ _ name => ∃ set, declared.find? (fun set => set.name == name) = some set ∧
      set.written.Holds names v

/-- A probability draws a number. -/
def viewAfter (v : PacketView) : MatcherText → PacketView
  | .payload type _ _ =>
      if bfMatcherTypeFromStr type = some .metaProbability then
        { v with draws := fun n => v.draws (n + 1) }
      else v
  | .anonymous _ _ _ | .named _ _ _ => v

end MatcherText

/-! ## The meaning of rules -/

/-- What the options of a rule ask for. -/
inductive Asked where
  | mark (value : BitVec 32)
  | log (index : BitVec 32) (headers : List BfPkthdr)
  | counter (index : BitVec 32)
  deriving DecidableEq, Repr

/-- An effect does what was asked for; a record may have more headers. -/
def Effect.Does : Effect → Asked → Prop
  | .mark value, .mark value' => value = value'
  | .log index mask, .log index' headers =>
      index = index' ∧ ∀ hdr ∈ headers, requests mask hdr = true
  | .counter index, .counter index' => index = index'
  | _, _ => False

/-- What an option asks the packet to become. -/
def Asked.onView : Asked → PacketView → PacketView
  | .mark value, v => { v with mark := value }
  | .log _ _, v => v
  | .counter _, v => v

/-- The mark an option asks for. -/
def RuleOptionText.value : RuleOptionText → Option (BitVec 32)
  | .mark rawMark => yyMark rawMark
  | .log _ => none
  | .counter => none

namespace RuleText

/-- The mark a rule asks for. -/
def mark (text : RuleText) : Option (BitVec 32) := text.options.findSome? RuleOptionText.value

/-- The options of the rule at an index. -/
def asked (index : BitVec 32) (text : RuleText) : List Asked :=
  (text.mark.map Asked.mark).toList ++
    (text.logs.map (fun headers =>
        .log index ((tokens (· = ',') headers).filterMap bfPkthdrFromStr)) ++
      (if .counter ∈ text.options then [.counter index] else []))

def toFilter (index : BitVec 32) (text : RuleText) : Filter.Rule MatcherText Asked BfVerdict where
  tests := text.matchers
  effects := text.asked index
  verdict := (bfVerdictFromStr text.verdict).filter (·.isTerminal)

/-- Rules are numbered from an index on. -/
def toFilters : Nat → List RuleText → List (Filter.Rule MatcherText Asked BfVerdict)
  | _, [] => []
  | ridx, text :: rest => text.toFilter (BitVec.ofNat 32 ridx) :: toFilters (ridx + 1) rest

end RuleText

open Classical in
/-- Texts of matchers by their meaning. -/
noncomputable def textMachine (names : Names) (declared : List SetText) :
    Filter.Machine MatcherText Asked PacketView where
  attempt t v := (decide (t.Holds names declared v), t.viewAfter v)
  perform e v := e.onView v

/-- **What the text of a chain decides** about a packet.  The parser has refused what is no
verdict. -/
noncomputable def ChainText.decide (names : Names) (text : ChainText) (v : PacketView) :
    Filter.Decision Asked BfVerdict PacketView :=
  (textMachine names text.sets).run
    ([.counter (BitVec.ofNat 32 text.rules.length)], (bfVerdictFromStr text.verdict).getD .accept)
    (RuleText.toFilters 0 text.rules) v

/-! ## What the parser makes of a text -/

/-- What the lexer returns: it reads the operator `in` behind the key of a set only, and a list of
headers has names. -/
def MatcherText.Lexed : MatcherText → Prop
  | .payload _ op _ => opText op ≠ some .inSet
  | .anonymous _ _ _ | .named _ _ _ => True

structure RuleText.Lexed (text : RuleText) : Prop where
  matchers : ∀ t ∈ text.matchers, t.Lexed
  headers : ∀ headers ∈ text.logs, tokens (· = ',') headers ≠ []

def ChainText.Lexed (text : ChainText) : Prop := ∀ rule ∈ text.rules, rule.Lexed

theorem ChainText.Lexed.matcher {text : ChainText} (lexed : text.Lexed) {i : Nat} {t : MatcherText}
    (here : text.matchers[i]? = some t) : t.Lexed := by
  obtain ⟨rule, inText, inRule⟩ := List.mem_flatMap.mp (List.mem_of_getElem? here)
  exact (lexed rule inText).matchers t inRule

/-- A matcher is made of its text; those about sets are in `RefersTo`. -/
def MatcherParsed (names : Names) (t : MatcherText) (m : BfMatcher) : Prop :=
  match t with
  | .payload type op raw => ∃ type' op' fresh, bfMatcherTypeFromStr type = some type' ∧
      opText op = some op' ∧ bfMatcherNewFromRaw names fresh type' op' raw = .ok m
  | .anonymous _ _ _ | .named _ _ _ => ∃ setId, m = setMatcher setId

/-- A rule is made of its text. -/
structure RuleParsed (names : Names) (text : RuleText) (rule : BfRule) : Prop where
  matchers : List.Forall₂ (MatcherParsed names) text.matchers rule.matchers
  verdict : bfVerdictFromStr text.verdict = some rule.verdict
  mark : rule.mark = text.mark
  log : text.logs = [] ∧ rule.log = 0 ∨ ∃ headers hdrs, text.logs = [headers] ∧
    Listed headers hdrs ∧ ∀ hdr ∈ hdrs, rule.log.getLsbD hdr.index = true
  counters : rule.counters = decide (.counter ∈ text.options)

/-- A chain is made of its text. -/
structure ChainParsed (names : Names) (text : ChainText) (chain : BfChain) : Prop where
  rules : ∃ rules, chain.rules = bfChainNumber 0 rules ∧
    List.Forall₂ (RuleParsed names) text.rules rules
  policy : bfVerdictFromStr text.verdict = some chain.policy
  terminal : chain.policy.isTerminal = true
  hook : ∀ hook, bfHookFromStr text.hook = some hook → chain.hook = hook
  flags : chain.FlagsUsed
  valid : bfChainValidate chain = true

section Parses

variable {env : YyEnv} {st st' : YyState}

theorem yyMatcherOp_text {text : Option (List Char)} {op : BfMatcherOp}
    (ran : YyRuns (yyMatcherOp text) st op st') : opText text = some op ∧ st' = st := by
  cases text with
  | none =>
      obtain ⟨rfl, rfl⟩ := yyRuns_pure_iff.mp ran
      exact ⟨rfl, rfl⟩
  | some s => exact yyRuns_orAbort_iff.mp ran

/-- Actions of a list, one for each member. -/
theorem yyAll_forall₂ {α β : Type} {action : α → YyParse β} {R : α → β → Prop}
    (one : ∀ {st a b st'}, YyRuns (action a) st b st' → R a b) {as : List α} {bs : List β}
    (ran : YyRuns (yyAll action as) st bs st') : List.Forall₂ R as bs := by
  induction as generalizing st bs with
  | nil =>
      obtain ⟨rfl, -⟩ := yyRuns_yyAll_nil_iff.mp ran
      exact .nil
  | cons a as ih =>
      obtain ⟨b, mid, rest, first, others, rfl⟩ := yyRuns_yyAll_cons_iff.mp ran
      exact .cons (one first) (ih others)

theorem yyMatcher_parsed {t : MatcherText} {m : BfMatcher}
    (ran : YyRuns (yyMatcher env t) st m st') : MatcherParsed env.names t m := by
  cases t with
  | payload type op raw =>
      simp only [yyMatcher, yyRuns_bind_iff, yyRuns_orAbort_iff] at ran
      obtain ⟨type', mid, ⟨known, rfl⟩, op', mid', parsed, made⟩ := ran
      obtain ⟨text, rfl⟩ := yyMatcherOp_text parsed
      simp only [YyRuns, yyMatcherNewFromRaw] at made
      split at made
      · cases made
      · next matcher new =>
          cases made
          exact ⟨type', op', _, known, text, new⟩
  | anonymous rawKey op elems =>
      simp only [yyMatcher, yyRuns_bind_iff, yyRuns_pure_iff] at ran
      obtain ⟨-, -, -, -, -, -, -, -, -, -, -, -, -, -, -, rfl, -⟩ := ran
      exact ⟨_, rfl⟩
  | named rawKey op name =>
      simp only [yyMatcher, yyRuns_bind_iff, yyRuns_pure_iff] at ran
      obtain ⟨-, -, -, -, -, -, -, -, -, -, -, -, -, -, -, -, -, -, rfl, -⟩ := ran
      exact ⟨_, rfl⟩

theorem yyRuleOption_parsed {text : RuleOptionText} {options : BfRuleOptions}
    (ran : YyRuns (yyRuleOption env text) st options st') :
    options.mark = text.value ∧ options.counter = if text = .counter then some true else none := by
  cases text with
  | log headers =>
      simp only [yyRuleOption, yyRuns_bind_iff, yyRuns_get_iff, yyRuns_modify_iff,
        yyRuns_orAbort_iff, yyRuns_pure_iff] at ran
      obtain ⟨st₁, mid, ⟨rfl, rfl⟩, u, mid₁, rfl, log, mid₂, -, rfl, -⟩ := ran
      exact ⟨rfl, rfl⟩
  | counter =>
      obtain ⟨rfl, -⟩ := yyRuns_pure_iff.mp ran
      exact ⟨rfl, rfl⟩
  | mark rawMark =>
      simp only [yyRuleOption, yyRuns_bind_iff, yyRuns_orAbort_iff, yyRuns_pure_iff] at ran
      obtain ⟨mark, mid, ⟨value, -⟩, rfl, -⟩ := ran
      exact ⟨value.symm, rfl⟩

theorem mergeOption_or {α : Type} {old new merged : Option α}
    (ran : YyRuns (mergeOption old new) st merged st') : merged = old.or new := by
  rcases (mergeOption_runs ran).2 with ⟨rfl, rfl⟩ | ⟨rfl, rfl⟩
  · exact Option.or_none.symm
  · exact Option.none_or.symm

theorem yyRuleOptions_parsed {texts : List RuleOptionText} {options options' : BfRuleOptions}
    (ran : YyRuns (yyRuleOptions env texts options) st options' st') :
    options'.mark = options.mark.or (texts.findSome? RuleOptionText.value) ∧
      options'.counter = options.counter.or (if .counter ∈ texts then some true else none) := by
  induction texts generalizing st options with
  | nil =>
      obtain ⟨rfl, -⟩ := yyRuns_pure_iff.mp ran
      simp
  | cons text rest ih =>
      simp only [yyRuleOptions, yyRuns_bind_iff] at ran
      obtain ⟨new, mid, option, log, mid₁, -, counter, mid₂, counters, mark, mid₃, marks,
        others⟩ := ran
      obtain ⟨value, counts⟩ := yyRuleOption_parsed option
      obtain ⟨laterMark, laterCounter⟩ := ih others
      have merged := mergeOption_or marks
      have merged' := mergeOption_or counters
      constructor
      · rw [laterMark]
        show mark.or _ = _
        rw [merged, Option.or_assoc, value, List.findSome?_cons]
        cases text.value <;> rfl
      · rw [laterCounter]
        show counter.or _ = _
        rw [merged', Option.or_assoc, counts]
        by_cases here : text = .counter
        · simp [here]
        · simp [here, Ne.symm here]

/-- A mask has the bits of the listed headers. -/
theorem LogParsed.listed {n : Nat} {headers : List Char} {log : Byte}
    (parsed : LogParsed env n headers log) :
    ∃ hdrs, Listed headers hdrs ∧ ∀ hdr ∈ hdrs, log.getLsbD hdr.index = true := by
  obtain ⟨hdrs, listed, bits⟩ := logHeadersLoop_bits parsed
  exact ⟨hdrs, listed, fun hdr mem => (bits _).mpr (.inr ⟨hdr, mem, rfl⟩)⟩

theorem yyRule_parsed {text : RuleText} {rule : BfRule} (ran : YyRuns (yyRule env text) st rule st') :
    RuleParsed env.names text rule := by
  simp only [yyRule, yyRuns_bind_iff, yyRuns_orAbort_iff, yyRuns_pure_iff] at ran
  obtain ⟨matchers, mid, parsed, options, mid₁, merged, verdict, mid₂, ⟨known, rfl⟩, rfl, rfl⟩ := ran
  obtain ⟨mark, counter⟩ := yyRuleOptions_parsed merged
  refine ⟨yyAll_forall₂ yyMatcher_parsed parsed, known, mark, ?_, ?_⟩
  · rcases (yyRuleOptions_log merged).2 with ⟨none, unset⟩ | ⟨-, headers, log, single, listed, set⟩
    · refine .inl ⟨none, ?_⟩
      show options.log.getD 0 = 0
      rw [unset]
      rfl
    · obtain ⟨hdrs, listed, bits⟩ := listed.listed
      refine .inr ⟨headers, hdrs, single, listed, ?_⟩
      show ∀ hdr ∈ hdrs, (options.log.getD 0).getLsbD hdr.index = true
      rw [set]
      exact bits
  · show options.counter.getD false = _
    rw [counter]
    by_cases here : RuleOptionText.counter ∈ text.options <;> simp [here]

/-- The last chain is the one of the text. -/
theorem yyChain_parsed {text : ChainText} {u : Unit} (ran : YyRuns (yyChain env text) st u st') :
    ∃ before chain, st'.chains = before ++ [chain] ∧ ChainParsed env.names text chain := by
  simp only [yyChain, yyRuns_bind_iff, yyRuns_orAbort_iff, yyRuns_yyCheck_iff, yyRuns_get_iff,
    yyRuns_modify_iff] at ran
  obtain ⟨hookopts, mid, -, policy, mid₁, ⟨known, rfl⟩, us, mid₂, -, rules, mid₃, ruled, u₁,
    mid₄, ⟨terminal, rfl⟩, st₁, mid₅, ⟨rfl, rfl⟩, u₂, mid₆, rfl, u₃, mid₇, ⟨valid, rfl⟩, u₄, mid₈,
    ⟨-, rfl⟩, rfl⟩ := ran
  refine ⟨_, _, rfl, ⟨rules, rfl, yyAll_forall₂ yyRule_parsed ruled⟩, known, terminal, ?_,
    bfChainNew_flagsUsed .., valid⟩
  intro hook found
  show (bfHookFromStr text.hook).getD env.strayHook = hook
  rw [found]
  rfl

/-- A chain is made of its text, and its matchers have the sets they stand for. -/
structure Parsed (names : Names) (text : ChainText) (chain : BfChain) : Prop where
  parsed : ChainParsed names text chain
  refer : SetsRefer names text chain

theorem yyChains_parsed {texts : List ChainText} {us : List Unit} (empty : st.sets = [])
    (ran : YyRuns (yyAll (yyChain env) texts) st us st') :
    ∃ chains, st'.chains = st.chains ++ chains ∧ List.Forall₂ (Parsed env.names) texts chains := by
  induction texts generalizing st us with
  | nil =>
      obtain ⟨-, rfl⟩ := yyRuns_yyAll_nil_iff.mp ran
      exact ⟨[], (List.append_nil _).symm, .nil⟩
  | cons text texts ih =>
      obtain ⟨u, mid, rest, first, others, -⟩ := yyRuns_yyAll_cons_iff.mp ran
      obtain ⟨empty', chain, grown, refer⟩ := yyChain_runs empty first
      obtain ⟨before, chain', grown', parsed⟩ := yyChain_parsed first
      obtain rfl : chain = chain' :=
        List.singleton_injective (List.append_inj_right' (grown.symm.trans grown') rfl)
      obtain ⟨chains, later, all⟩ := ih empty' others
      refine ⟨chain :: chains, ?_, .cons ⟨parsed, refer⟩ all⟩
      rw [later, grown, List.append_assoc, List.singleton_append]

end Parses

/-- The parser makes the chains of a ruleset of their texts. -/
theorem parsed_of_accepted {env : YyEnv} {texts : List ChainText} {ruleset : YyState}
    (accepted : yyparse env texts = some (.ok ruleset)) :
    List.Forall₂ (Parsed env.names) texts ruleset.chains := by
  unfold yyparse at accepted
  split at accepted
  · cases accepted
  · cases accepted
  · next us st ran =>
      cases accepted
      obtain ⟨chains, grown, all⟩ := yyChains_parsed rfl ran
      rwa [show ruleset.chains = chains from grown]

/-! ## Texts and matchers side by side -/

section Positions

variable {α β γ δ : Type} {P : γ → δ → Prop} {R : α → β → Prop}

/-- Related members stand at one place. -/
theorem forall₂_indexed {cs : List γ} {ds : List δ} (related : List.Forall₂ P cs ds) :
    List.Forall₂ (fun c d => P c d ∧ ∃ i : Nat, cs[i]? = some c ∧ ds[i]? = some d) cs ds := by
  induction related with
  | nil => exact .nil
  | cons head _ ih =>
      refine .cons ⟨head, 0, rfl, rfl⟩ (ih.imp ?_)
      rintro c d ⟨same, i, here, there⟩
      exact ⟨same, i + 1, here, there⟩

/-- Related members of related lists stand at one place of all of them. -/
theorem forall₂_flatMap {f : α → List γ} {g : β → List δ} {as : List α} {bs : List β}
    (related : List.Forall₂ (fun a b => R a b ∧ List.Forall₂ P (f a) (g b)) as bs) :
    List.Forall₂ (fun a b => R a b ∧ List.Forall₂ (fun c d => P c d ∧
      ∃ i : Nat, (as.flatMap f)[i]? = some c ∧ (bs.flatMap g)[i]? = some d) (f a) (g b)) as bs := by
  induction related with
  | nil => exact .nil
  | @cons a b as bs head _ ih =>
      obtain ⟨here, members⟩ := head
      have length := members.length_eq
      refine .cons ⟨here, (forall₂_indexed members).imp ?_⟩
        (ih.imp fun a' b' rest => ⟨rest.1, rest.2.imp ?_⟩)
      · rintro c d ⟨same, i, here, there⟩
        have low := (List.getElem?_eq_some_iff.mp here).1
        refine ⟨same, i, ?_, ?_⟩
        · rw [List.flatMap_cons, List.getElem?_append_left low, here]
        · rw [List.flatMap_cons, List.getElem?_append_left (length ▸ low), there]
      · rintro c d ⟨same, i, here, there⟩
        refine ⟨same, (f a).length + i, ?_, ?_⟩
        · rw [List.flatMap_cons, List.getElem?_append_right (Nat.le_add_right _ _),
            Nat.add_sub_cancel_left, here]
        · rw [List.flatMap_cons, length, List.getElem?_append_right (Nat.le_add_right _ _),
            Nat.add_sub_cancel_left, there]

end Positions

section Matchers

variable {names : Names} {text : ChainText} {chain : BfChain} {v : PacketView}

/-- No set of the text has `ip6.nexthdr` in its key: there it is the byte of the IPv6 header, and
not what the walk over the extension headers found. -/
def ChainText.NexthdrFree (text : ChainText) : Prop :=
  ∀ set ∈ text.written, ∀ key, KeyText set.rawKey key → .ip6Nexthdr ∉ key

/-- A set that is made of a text means what the text says. -/
theorem MadeFrom.isIn_iff {w : WrittenSet} {set : BfSet} (made : MadeFrom names w set)
    (other : ∀ key, KeyText w.rawKey key → .ip6Nexthdr ∉ key) :
    v.isIn set = true ↔ w.Holds names v := by
  have key := made.key
  obtain ⟨fresh, fuel, ran⟩ := made
  have means : v.isIn set = true ↔ ∃ seg ∈ elemTexts w.payload, ∃ ms,
      Equalities names set.key (strtokR [','] seg) ms ∧
        ∀ m ∈ ms, m.holds bareChain v = true := isIn_iff_equalities ran (other _ key)
  rw [means]
  constructor
  · exact fun elem => ⟨set.key, key, elem⟩
  · rintro ⟨key', text, elem⟩
    rwa [text.unique key] at elem

/-- A matcher asks what its text asks, and leaves the packet as the text does. -/
def MatcherMeans (names : Names) (text : ChainText) (chain : BfChain) (m : BfMatcher)
    (t : MatcherText) : Prop :=
  ∀ v, (m.holds chain v = true ↔ t.Holds names text.sets v) ∧ m.viewAfter v = t.viewAfter v

theorem payload_means {type raw : List Char} {op : Option (List Char)} {m : BfMatcher}
    (lexed : opText op ≠ some .inSet) (parsed : MatcherParsed names (.payload type op raw) m) :
    MatcherMeans names text chain m (.payload type op raw) := by
  obtain ⟨type', op', fresh, known, operator, made⟩ := parsed
  have plain : op' ≠ .inSet := by
    rintro rfl
    exact lexed operator
  intro v
  constructor
  · constructor
    · intro holds
      refine ⟨type', op', fresh, m, known, operator, made, ?_⟩
      rw [← holds]
      exact holds_made made made plain
    · rintro ⟨type'', op'', fresh', m', known', operator', made', holds⟩
      cases known.symm.trans known'
      cases operator.symm.trans operator'
      rw [← holds]
      exact holds_made made made' plain
  · obtain ⟨size, ops, bytes, -, -, -, rfl⟩ := bfMatcherNewFromRaw_inv made
    rw [MatcherText.viewAfter, known]
    cases type' <;> rfl

/-- A matcher about a set means what the text of the set says. -/
theorem set_means {t : MatcherText} {m : BfMatcher} {w : WrittenSet} {set : BfSet}
    (isSet : m.type = .set) (found : bfChainGetSetForMatcher chain m = some set)
    (made : MadeFrom names w set) (other : ∀ key, KeyText w.rawKey key → .ip6Nexthdr ∉ key)
    (holds : ∀ v, t.Holds names text.sets v ↔ w.Holds names v)
    (after : ∀ v, t.viewAfter v = v) : MatcherMeans names text chain m t := by
  intro v
  rw [set_holds isSet found, made.isIn_iff other, holds, after]
  refine ⟨Iff.rfl, ?_⟩
  simp only [BfMatcher.viewAfter, isSet]

/-- The rules of a text and of its chain, matcher by matcher, at their places in the chain. -/
theorem Parsed.placed (parsed : Parsed names text chain) : ∃ rules,
    chain.rules = bfChainNumber 0 rules ∧
    List.Forall₂ (fun ruleText rule => RuleParsed names ruleText rule ∧
      List.Forall₂ (fun t m => MatcherParsed names t m ∧ ∃ i : Nat, text.matchers[i]? = some t ∧
        chain.matchers[i]? = some m) ruleText.matchers rule.matchers) text.rules rules := by
  obtain ⟨rules, numbered, made⟩ := parsed.parsed.rules
  have flat : chain.matchers = rules.flatMap (·.matchers) := by
    rw [BfChain.matchers, numbered, List.flatMap_def, bfChainNumber_matchers, ← List.flatMap_def]
  refine ⟨rules, numbered, ?_⟩
  rw [flat]
  exact forall₂_flatMap (made.imp fun _ _ rule => ⟨rule, rule.matchers⟩)

/-- **Matchers.**  Every matcher of a chain means what its text says. -/
theorem Parsed.matcher_means (parsed : Parsed names text chain)
    (short : chain.sets.length ≤ 2 ^ 32) (free : text.NexthdrFree) {t : MatcherText}
    {m : BfMatcher} (lexed : t.Lexed) (made : MatcherParsed names t m) {i : Nat}
    (here : text.matchers[i]? = some t) (here' : chain.matchers[i]? = some m) :
    MatcherMeans names text chain m t := by
  have resolve := parsed.refer.resolve short
  cases t with
  | payload type op raw => exact payload_means lexed made
  | anonymous rawKey op elems =>
      obtain ⟨setId, rfl⟩ := made
      obtain ⟨p, set, rfl, inside, -, found⟩ := resolve.resolves i _ _ here here' rfl
      have written := written_anonymous here
      obtain ⟨set', inside', from'⟩ := getElem?_of_forall₂ resolve.sets written
      cases inside.symm.trans inside'
      exact set_means rfl found from' (free _ (List.mem_of_getElem? written)) (fun _ => Iff.rfl)
        fun _ => rfl
  | named rawKey op name =>
      obtain ⟨setId, rfl⟩ := made
      obtain ⟨p, set, ⟨⟨declared, there, named⟩, before⟩, inside, -, found⟩ :=
        resolve.resolves i _ _ here here' rfl
      obtain ⟨low, at_⟩ := List.getElem?_eq_some_iff.mp there
      have written : text.written[p]? = some declared.written := by
        rw [ChainText.written, List.getElem?_append_left (by rwa [List.length_map]),
          List.getElem?_map, there]
        rfl
      obtain ⟨set', inside', from'⟩ := getElem?_of_forall₂ resolve.sets written
      cases inside.symm.trans inside'
      have first : text.sets.find? (fun set => set.name == name) = some declared := by
        rw [List.find?_eq_some_iff_getElem]
        refine ⟨by rw [named, beq_self_eq_true], p, low, at_, fun q lower => ?_⟩
        have other := before q _ lower (List.getElem?_eq_getElem (lower.trans low))
        rw [beq_false_of_ne other]
        rfl
      refine set_means rfl found from' (free _ (List.mem_of_getElem? written)) (fun v => ?_)
        fun _ => rfl
      rw [MatcherText.Holds, first]
      simp

end Matchers

/-! ## Texts and rules side by side -/

theorem requests_of_bit {mask : BitVec 8} {hdr : BfPkthdr} (bit : mask.getLsbD hdr.index = true) :
    requests mask hdr = true := by
  have each : ∀ mask : BitVec 8, mask.getLsbD hdr.index = true → requests mask hdr = true := by
    cases hdr <;> decide +kernel
  exact each mask bit

theorem Listed.headers {headers : List Char} {hdrs : List BfPkthdr} (listed : Listed headers hdrs) :
    (tokens (· = ',') headers).filterMap bfPkthdrFromStr = hdrs := by
  unfold Listed at listed
  generalize tokens (· = ',') headers = words at listed
  induction listed with
  | nil => rfl
  | cons known _ ih => rw [List.filterMap_cons_some known, ih]

section Rules

variable {names : Names} {text : RuleText} {rule : BfRule}

/-- The effects of a rule are what its options ask for. -/
theorem RuleParsed.does (parsed : RuleParsed names text rule) (lexed : text.Lexed)
    (index : BitVec 32) :
    List.Forall₂ Effect.Does { rule with index }.effects (text.asked index) := by
  refine List.rel_append ?_ (List.rel_append ?_ ?_)
  · rw [show ({ rule with index } : BfRule).mark = rule.mark from rfl, parsed.mark]
    cases text.mark with
    | none => exact .nil
    | some value => exact .cons rfl .nil
  · show List.Forall₂ _ (if rule.log ≠ 0 then [Effect.log index rule.log] else []) _
    rcases parsed.log with ⟨none, log⟩ | ⟨headers, hdrs, single, listed, bits⟩
    · rw [none, log]
      exact .nil
    · have given := lexed.headers headers (single ▸ List.mem_singleton_self _)
      obtain ⟨hdr, mem⟩ : ∃ hdr, hdr ∈ hdrs := by
        apply List.exists_mem_of_ne_nil
        rintro rfl
        exact given (List.eq_nil_of_length_eq_zero listed.length_eq)
      have set : rule.log ≠ 0 := by
        intro zero
        have bit := bits hdr mem
        rw [zero] at bit
        exact absurd bit (by cases hdr <;> decide)
      rw [if_pos set, single, List.map_singleton, listed.headers]
      exact .cons ⟨rfl, fun hdr mem => requests_of_bit (bits hdr mem)⟩ .nil
  · show List.Forall₂ _ (if rule.counters = true then [Effect.counter index] else []) _
    rw [parsed.counters]
    by_cases counts : RuleOptionText.counter ∈ text.options
    · rw [if_pos (decide_eq_true counts), if_pos counts]
      exact .cons rfl .nil
    · rw [if_neg (by simp [counts]), if_neg counts]
      exact .nil

theorem RuleParsed.toFilter_verdict (parsed : RuleParsed names text rule) (index : BitVec 32) :
    ({ rule with index } : BfRule).toFilter.verdict = (text.toFilter index).verdict := by
  rw [RuleText.toFilter, parsed.verdict, Option.filter_some]
  rfl

end Rules

section Chains

variable {names : Names} {text : ChainText} {chain : BfChain}

/-- Rules whose matchers mean what their texts say, numbered alike, are related. -/
theorem related_toFilters {texts : List RuleText} {rules : List BfRule}
    (lexed : ∀ text ∈ texts, text.Lexed)
    (parsed : List.Forall₂ (fun ruleText rule => RuleParsed names ruleText rule ∧
      List.Forall₂ (fun t m => MatcherMeans names text chain m t) ruleText.matchers rule.matchers)
      texts rules)
    (ridx : Nat) : List.Forall₂
      (Filter.RuleRelated (MatcherMeans names text chain) Effect.Does)
      ((bfChainNumber ridx rules).map BfRule.toFilter) (RuleText.toFilters ridx texts) := by
  induction parsed generalizing ridx with
  | nil => exact .nil
  | cons head _ ih =>
      obtain ⟨rule, matchers⟩ := head
      refine .cons ⟨matchers.flip, rule.does (lexed _ List.mem_cons_self) _,
        rule.toFilter_verdict _⟩ (ih (fun text mem => lexed text (List.mem_cons_of_mem _ mem)) _)

/-- What an effect does to a packet was asked for. -/
theorem Effect.Does.onView {e : Effect} {asked : Asked} (does : e.Does asked) (v : PacketView) :
    e.onView v = asked.onView v := by
  cases e <;> cases asked <;> first
    | exact does.elim
    | rfl
    | exact congrArg (fun value => { v with mark := value }) does

open Classical in
/-- Matchers that mean what texts say, and effects that do what was asked for. -/
theorem texts_simulated (names : Names) (text : ChainText) (chain : BfChain) :
    Filter.Simulates (viewMachine chain) (textMachine names text.sets) Eq
      (MatcherMeans names text chain) Effect.Does := by
  constructor
  · rintro m t v _ means rfl
    obtain ⟨holds, after⟩ := means v
    refine ⟨?_, after⟩
    show m.holds chain v = decide _
    rw [Bool.eq_iff_iff, holds, decide_eq_true_iff]
  · rintro e asked v _ does rfl
    exact does.onView v

/-- A chain decides about a packet what its text decides, leaves it as the text does, and does
what the text asks for. -/
structure DecidesAs (names : Names) (text : ChainText) (chain : BfChain) (v : PacketView) :
    Prop where
  effects : List.Forall₂ Effect.Does (chain.decide v).effects (text.decide names v).effects
  verdict : (chain.decide v).verdict = (text.decide names v).verdict
  state : (chain.decide v).state = (text.decide names v).state

/-- The chain the parser makes of a text decides as the text does. -/
theorem Parsed.decides (parsed : Parsed names text chain) (short : chain.sets.length ≤ 2 ^ 32)
    (lexed : text.Lexed) (free : text.NexthdrFree) (v : PacketView) :
    DecidesAs names text chain v := by
  obtain ⟨rules, numbered, placed⟩ := parsed.placed
  have both : List.Forall₂ (fun ruleText rule => RuleParsed names ruleText rule ∧
      List.Forall₂ (fun t m => MatcherMeans names text chain m t) ruleText.matchers rule.matchers)
      text.rules rules := by
    refine placed.imp fun _ _ rule => ⟨rule.1, rule.2.imp ?_⟩
    rintro t m ⟨made, i, here, here'⟩
    exact parsed.matcher_means short free (lexed.matcher here) made here here'
  have length : chain.rules.length = text.rules.length := by
    rw [numbered, bfChainNumber_length, placed.length_eq]
  have default_ : List.Forall₂ Effect.Does chain.default.1
      [.counter (BitVec.ofNat 32 text.rules.length)] :=
    .cons (congrArg (BitVec.ofNat 32) length) .nil
  have policy : chain.policy = (bfVerdictFromStr text.verdict).getD .accept := by
    rw [parsed.parsed.policy]
    rfl
  have related := related_toFilters lexed both 0
  rw [← numbered] at related
  have decided : List.Forall₂ Effect.Does (chain.decide v).effects (text.decide names v).effects ∧
      (chain.decide v).verdict = (text.decide names v).verdict ∧
        (chain.decide v).state = (text.decide names v).state :=
    (texts_simulated names text chain).run default_ policy related rfl
  exact ⟨decided.1, decided.2.1, decided.2.2⟩

end Chains

/-! ## Rulesets -/

/-- **The parser keeps the meaning of a ruleset.**  Of every accepted ruleset, each chain decides
about each packet what its text decides, does what the text asks for, and leaves the packet as the
text does; sets with `ip6.nexthdr` in their key are left out. -/
theorem ruleset_means {env : YyEnv} {texts : List ChainText} {ruleset : YyState}
    (accepted : yyparse env texts = some (.ok ruleset)) :
    List.Forall₂ (fun text chain => text.Lexed → text.NexthdrFree → chain.sets.length ≤ 2 ^ 32 →
      ∀ v, DecidesAs env.names text chain v) texts ruleset.chains := by
  refine (parsed_of_accepted accepted).imp fun text chain parsed lexed free short v => ?_
  exact parsed.decides short lexed free v

theorem nexthdrFree_of_tokens {text : ChainText} (absent : ∀ set ∈ text.written,
    bfMatcherTypeToStr .ip6Nexthdr ∉ (keyTokens set.rawKey).map bfTrim) : text.NexthdrFree := by
  intro set mem key keyed has
  refine absent set mem ?_
  rw [keyed.1]
  exact List.mem_map_of_mem has

/-- The chain with a named and an anonymous set decides about a packet what its text decides. -/
theorem webText_means : ∃ ruleset chain, yyparse zeroEnv [webText] = some (.ok ruleset) ∧
    ruleset.chains = [chain] ∧ ∀ v, DecidesAs plainNames webText chain v := by
  obtain ⟨ruleset, accepted, ran⟩ : ∃ ruleset, yyparse zeroEnv [webText] = some (.ok ruleset) ∧
      (ruleset.chains.all fun chain => chain.sets.length == 2) = true :=
    accepted_of_test _ (by decide +kernel)
  have lexed : webText.Lexed := by
    intro rule inText
    obtain rfl := List.mem_singleton.mp inText
    refine ⟨fun t inRule => ?_, by simp [RuleText.logs]⟩
    rcases List.mem_pair.mp inRule with rfl | rfl <;> trivial
  have means := ruleset_means accepted
  obtain ⟨chains, shape⟩ : ∃ chains, ruleset.chains = chains := ⟨_, rfl⟩
  rw [shape] at means ran
  cases means with
  | @cons _ chain _ _ here rest =>
      cases rest
      refine ⟨ruleset, chain, accepted, shape,
        here lexed (nexthdrFree_of_tokens (by decide +kernel)) ?_⟩
      simp only [List.all_cons, List.all_nil, Bool.and_true, beq_iff_eq] at ran
      rw [ran]
      decide

end Bpfilter
