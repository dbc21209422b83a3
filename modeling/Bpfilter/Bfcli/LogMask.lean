/-
# Bfcli.LogMask -- the headers a rule logs

The action of a log option collects the bits of the listed headers in a local variable that it
does not initialise.  What was on the stack stays in the mask (`logHeadersLoop_bits`), so
`logMask_exact_iff` is about what was there.  A rule has at most one such option
(`yyRule_log`), and the chain is marked as logging whatever is left over.
-/
import Bpfilter.Bfcli.Parser

namespace Bpfilter

set_option autoImplicit false

open Ebpf (Byte)
open Cstr (tokens)

/-! ## Masks -/

/-- The names of a list, and the headers they stand for. -/
def Listed (headers : List Char) (hdrs : List BfPkthdr) : Prop :=
  List.Forall₂ (fun token hdr => bfPkthdrFromStr token = some hdr) (tokens (· = ',') headers) hdrs

/-- The bits of a byte are those of the headers. -/
def IsMask (hdrs : List BfPkthdr) (log : Byte) : Prop :=
  ∀ i, log.getLsbD i = true ↔ ∃ hdr ∈ hdrs, hdr.index = i

/-- The bits of a byte are among those of the listed headers. -/
def Within (headers : List Char) (log : Byte) : Prop :=
  ∃ hdrs, Listed headers hdrs ∧ ∀ i, log.getLsbD i = true → ∃ hdr ∈ hdrs, hdr.index = i

/-- A rule logs the listed headers, and its chain logs. -/
structure LogExact (headers : List Char) (chain : BfChain) (rule : BfRule) : Prop where
  mask : ∃ hdrs, Listed headers hdrs ∧ IsMask hdrs rule.log
  flag : chain.flags.log = true

theorem BfPkthdr.bit (hdr : BfPkthdr) (i : Nat) :
    ((1 : Byte) <<< hdr.index).getLsbD i = true ↔ hdr.index = i := by
  have low : ∀ i < 8, ((1 : Byte) <<< hdr.index).getLsbD i = true ↔ hdr.index = i := by
    cases hdr <;> decide
  by_cases small : i < 8
  · exact low i small
  · rw [BitVec.getLsbD_of_ge _ i (by omega)]
    refine iff_of_false Bool.false_ne_true ?_
    rintro rfl
    exact small (by cases hdr <;> decide)

theorem Listed.unique {headers : List Char} {hdrs hdrs' : List BfPkthdr}
    (listed : Listed headers hdrs) (listed' : Listed headers hdrs') : hdrs = hdrs' := by
  unfold Listed at listed listed'
  generalize tokens (· = ',') headers = names at listed listed'
  induction listed generalizing hdrs' with
  | nil =>
      cases listed'
      rfl
  | cons first _ ih =>
      cases listed' with
      | cons first' rest' =>
          rw [first] at first'
          rw [Option.some.inj first', ih rest']

/-- **The loop.**  What was there is kept, and the bits of the headers are added. -/
theorem logHeadersLoop_bits {names : List (List Char)} {log log' : Byte}
    (parsed : logHeadersLoop names log = some log') :
    ∃ hdrs, List.Forall₂ (fun token hdr => bfPkthdrFromStr token = some hdr) names hdrs ∧
      ∀ i, log'.getLsbD i = true ↔ log.getLsbD i = true ∨ ∃ hdr ∈ hdrs, hdr.index = i := by
  induction names generalizing log with
  | nil =>
      cases parsed
      exact ⟨[], .nil, fun i => by simp⟩
  | cons token rest ih =>
      rw [logHeadersLoop] at parsed
      split at parsed
      · cases parsed
      · rename_i hdr found
        obtain ⟨hdrs, listed, bits⟩ := ih parsed
        refine ⟨hdr :: hdrs, .cons found listed, fun i => ?_⟩
        rw [bits i, BitVec.getLsbD_or, Bool.or_eq_true, hdr.bit]
        simp only [List.mem_cons, exists_eq_or_imp, or_assoc]

/-! ## Log options in a text -/

def RuleOptionText.logs : RuleOptionText → List (List Char)
  | .log headers => [headers]
  | .counter => []
  | .mark _ => []

def RuleText.logs (text : RuleText) : List (List Char) := text.options.flatMap RuleOptionText.logs

def ChainText.logs (text : ChainText) : List (List Char) := text.rules.flatMap RuleText.logs

/-- What the `n`-th log option makes of its list. -/
def LogParsed (env : YyEnv) (n : Nat) (headers : List Char) (log : Byte) : Prop :=
  logHeadersLoop (tokens (· = ',') headers) (env.log n) = some log

/-- An action had `n` log options, and leaves the chains alone. -/
structure Counts (n : Nat) (st st' : YyState) : Prop where
  logs : st'.logs = st.logs + n
  chains : st'.chains = st.chains

section Steps

variable {env : YyEnv} {st mid st' : YyState}

theorem Counts.trans {m n : Nat} (first : Counts m st mid) (second : Counts n mid st') :
    Counts (m + n) st st' :=
  ⟨by rw [second.logs, first.logs, Nat.add_assoc], second.chains.trans first.chains⟩

/-- One member of a list, with the actions before it. -/
theorem yyAll_get {α β : Type} {action : α → YyParse β} {as : List α} {bs : List β} {i : Nat}
    {a : α} (ran : YyRuns (yyAll action as) st bs st') (here : as[i]? = some a) :
    ∃ b mid mid', bs[i]? = some b ∧ YyRuns (yyAll action (as.take i)) st (bs.take i) mid ∧
      YyRuns (action a) mid b mid' := by
  induction as generalizing st bs i with
  | nil => cases here
  | cons first as ih =>
      obtain ⟨b, mid, rest, ran', others, rfl⟩ := yyRuns_yyAll_cons_iff.mp ran
      cases i with
      | zero =>
          cases here
          exact ⟨b, st, mid, rfl, yyRuns_yyAll_nil_iff.mpr ⟨rfl, rfl⟩, ran'⟩
      | succ i =>
          obtain ⟨b', mid₁, mid₂, inside, before, at'⟩ := ih others here
          exact ⟨b', mid₁, mid₂, inside,
            yyRuns_yyAll_cons_iff.mpr ⟨b, mid, _, ran', before, rfl⟩, at'⟩

/-- A list of actions counts the log options of its members. -/
theorem yyAll_logs {α β : Type} {action : α → YyParse β} (logs : α → List (List Char))
    (one : ∀ {st a b st'}, YyRuns (action a) st b st' → Counts (logs a).length st st')
    {as : List α} {bs : List β} (ran : YyRuns (yyAll action as) st bs st') :
    Counts (as.flatMap logs).length st st' := by
  induction as generalizing st bs with
  | nil =>
      obtain ⟨-, rfl⟩ := yyRuns_yyAll_nil_iff.mp ran
      exact ⟨rfl, rfl⟩
  | cons a as ih =>
      obtain ⟨b, mid, rest, first, others, -⟩ := yyRuns_yyAll_cons_iff.mp ran
      rw [List.flatMap_cons, List.length_append]
      exact (one first).trans (ih others)

/-- A list of actions without log options. -/
theorem yyAll_noLogs {α β : Type} {action : α → YyParse β}
    (one : ∀ {st a b st'}, YyRuns (action a) st b st' → Counts 0 st st')
    {as : List α} {bs : List β} (ran : YyRuns (yyAll action as) st bs st') : Counts 0 st st' := by
  have counts := yyAll_logs (fun _ => []) one ran
  rwa [show (as.flatMap fun _ => ([] : List (List Char))).length = 0 by simp] at counts

theorem yySetNewFromRaw_logs {name : Option String} {rawKey payload : List Char} {set : BfSet}
    (ran : YyRuns (yySetNewFromRaw env name rawKey payload) st set st') : Counts 0 st st' := by
  simp only [YyRuns, yySetNewFromRaw] at ran
  split at ran
  · cases ran
  · cases ran
  · cases ran
    exact ⟨rfl, rfl⟩

theorem yySet_logs {text : SetText} {u : Unit} (ran : YyRuns (yySet env text) st u st') :
    Counts 0 st st' := by
  simp only [yySet, yyAddSet, yyRuns_bind_iff, yyRuns_yyCheck_iff, yyRuns_modify_iff] at ran
  obtain ⟨op, mid, parsed, -, mid', ⟨-, rfl⟩, set, mid'', made, rfl⟩ := ran
  obtain rfl := yyMatcherOp_runs parsed
  have counts := yySetNewFromRaw_logs made
  exact ⟨counts.logs, counts.chains⟩

theorem yyMatcher_logs {text : MatcherText} {m : BfMatcher}
    (ran : YyRuns (yyMatcher env text) st m st') : Counts 0 st st' := by
  cases text with
  | payload type op payload =>
      simp only [yyMatcher, yyRuns_bind_iff, yyRuns_orAbort_iff] at ran
      obtain ⟨type', mid, ⟨-, rfl⟩, op', mid', parsed, made⟩ := ran
      obtain rfl := yyMatcherOp_runs parsed
      simp only [YyRuns, yyMatcherNewFromRaw] at made
      split at made
      · cases made
      · cases made
        exact ⟨rfl, rfl⟩
  | anonymous rawKey op payload =>
      simp only [yyMatcher, yyAddSet, yyRuns_bind_iff, yyRuns_get_iff, yyRuns_yyCheck_iff,
        yyRuns_modify_iff, yyRuns_pure_iff] at ran
      obtain ⟨op', mid, parsed, st₁, mid₁, ⟨rfl, rfl⟩, -, mid₂, ⟨-, rfl⟩, set, mid₃, made, u, mid₄,
        rfl, -, rfl⟩ := ran
      obtain rfl := yyMatcherOp_runs parsed
      have counts := yySetNewFromRaw_logs made
      exact ⟨counts.logs, counts.chains⟩
  | named rawKey op name =>
      simp only [yyMatcher, yyRuns_bind_iff, yyRuns_get_iff, yyRuns_yyCheck_iff,
        yyRuns_orAbort_iff, yyRuns_pure_iff] at ran
      obtain ⟨op', mid, parsed, -, mid₁, ⟨-, rfl⟩, testKey, mid₂, made, st₁, mid₃, ⟨rfl, rfl⟩, found,
        mid₄, ⟨-, rfl⟩, -, mid₅, ⟨-, rfl⟩, -, rfl⟩ := ran
      obtain rfl := yyMatcherOp_runs parsed
      exact yySetNewFromRaw_logs made

/-- One option. -/
theorem yyRuleOption_log {text : RuleOptionText} {options : BfRuleOptions}
    (ran : YyRuns (yyRuleOption env text) st options st') :
    Counts text.logs.length st st' ∧
      (text.logs = [] ∧ options.log = none ∨
        ∃ headers log, text.logs = [headers] ∧ LogParsed env st.logs headers log ∧
          options.log = some log) := by
  cases text with
  | log headers =>
      simp only [yyRuleOption, yyRuns_bind_iff, yyRuns_get_iff, yyRuns_modify_iff,
        yyRuns_orAbort_iff, yyRuns_pure_iff] at ran
      obtain ⟨st₁, mid, ⟨rfl, rfl⟩, u, mid₁, rfl, log, mid₂, ⟨parsed, rfl⟩, rfl, rfl⟩ := ran
      exact ⟨⟨rfl, rfl⟩, .inr ⟨headers, log, rfl, parsed, rfl⟩⟩
  | counter =>
      obtain ⟨rfl, rfl⟩ := yyRuns_pure_iff.mp ran
      exact ⟨⟨rfl, rfl⟩, .inl ⟨rfl, rfl⟩⟩
  | mark rawMark =>
      simp only [yyRuleOption, yyRuns_bind_iff, yyRuns_orAbort_iff, yyRuns_pure_iff] at ran
      obtain ⟨mark, mid, ⟨-, rfl⟩, rfl, rfl⟩ := ran
      exact ⟨⟨rfl, rfl⟩, .inl ⟨rfl, rfl⟩⟩

/-- All options of a rule: at most one of them is a log option. -/
theorem yyRuleOptions_log {texts : List RuleOptionText} {options options' : BfRuleOptions}
    (ran : YyRuns (yyRuleOptions env texts options) st options' st') :
    Counts (texts.flatMap RuleOptionText.logs).length st st' ∧
      (texts.flatMap RuleOptionText.logs = [] ∧ options'.log = options.log ∨
        options.log = none ∧ ∃ headers log, texts.flatMap RuleOptionText.logs = [headers] ∧
          LogParsed env st.logs headers log ∧ options'.log = some log) := by
  induction texts generalizing st options with
  | nil =>
      obtain ⟨rfl, rfl⟩ := yyRuns_pure_iff.mp ran
      exact ⟨⟨rfl, rfl⟩, .inl ⟨rfl, rfl⟩⟩
  | cons text rest ih =>
      simp only [yyRuleOptions, yyRuns_bind_iff] at ran
      obtain ⟨new, mid, option, log, mid₁, logs, counter, mid₂, counters, mark, mid₃, marks,
        others⟩ := ran
      obtain ⟨rfl, merged⟩ := mergeOption_runs logs
      obtain ⟨rfl, -⟩ := mergeOption_runs counters
      obtain ⟨rfl, -⟩ := mergeOption_runs marks
      obtain ⟨count, first⟩ := yyRuleOption_log option
      obtain ⟨count', more⟩ := ih others
      rw [List.flatMap_cons]
      refine ⟨by rw [List.length_append]; exact count.trans count', ?_⟩
      rcases first with ⟨none, unset⟩ | ⟨headers, log', here, parsed, set⟩
      · -- This option is no log option.
        have kept : log = options.log := by
          rcases merged with ⟨-, same⟩ | ⟨old, same⟩
          · exact same
          · rw [same, unset, old]
        rw [none, List.nil_append]
        have same : mid₃.logs = st.logs := by rw [count.logs, none, List.length_nil, Nat.add_zero]
        rw [same, kept] at more
        exact more
      · -- It is one, so there is none before it, and none behind it.
        rcases merged with ⟨unset, -⟩ | ⟨old, same⟩
        · rw [set] at unset
          cases unset
        · rcases more with ⟨none, last⟩ | ⟨unset, -⟩
          · rw [none, here, List.append_nil]
            exact .inr ⟨old, headers, log', rfl, parsed, last.trans (same.trans set)⟩
          · rw [show log = some log' from same.trans set] at unset
            cases unset

/-- **A rule.**  Its mask is that of its only log option. -/
theorem yyRule_log {text : RuleText} {rule : BfRule} (ran : YyRuns (yyRule env text) st rule st') :
    Counts text.logs.length st st' ∧
      ∀ headers ∈ text.logs, LogParsed env st.logs headers rule.log := by
  simp only [yyRule, yyRuns_bind_iff, yyRuns_orAbort_iff, yyRuns_pure_iff] at ran
  obtain ⟨matchers, mid, parsed, options, mid₁, merged, verdict, mid₂, ⟨-, rfl⟩, rfl, rfl⟩ := ran
  have before := yyAll_noLogs (fun ran => yyMatcher_logs ran) parsed
  obtain ⟨count, shape⟩ := yyRuleOptions_log merged
  rw [show mid.logs = st.logs from before.logs] at shape
  have total := before.trans count
  rw [Nat.zero_add] at total
  refine ⟨total, ?_⟩
  rcases shape with ⟨none, -⟩ | ⟨-, headers, log, single, parsed', set⟩
  · intro headers mem
    rw [RuleText.logs, none] at mem
    cases mem
  · intro headers' mem
    rw [RuleText.logs, single, List.mem_singleton] at mem
    show LogParsed env st.logs headers' (options.log.getD 0)
    rw [mem, set]
    exact parsed'

end Steps

/-! ## Chains -/

/-- The rules of a chain have the masks of their log options, the first of which is number `n` of
the ruleset, and a rule with a mask makes the chain log. -/
structure ChainLogs (env : YyEnv) (n : Nat) (text : ChainText) (chain : BfChain) : Prop where
  masks : ∀ (j : Nat) (ruleText : RuleText), text.rules[j]? = some ruleText →
    ∃ rule, chain.rules[j]? = some rule ∧ ∀ headers ∈ ruleText.logs,
      LogParsed env (n + ((text.rules.take j).flatMap RuleText.logs).length) headers rule.log
  flag : ∀ (j : Nat) (rule : BfRule), chain.rules[j]? = some rule → rule.log ≠ 0 →
    chain.flags.log = true

section Chains

variable {env : YyEnv} {st st' : YyState}

theorem foldl_log (rules : List BfRule) (flags : BfChainFlags) :
    (rules.foldl bfChainUpdateFeatures flags).log =
      (flags.log || rules.any fun rule => rule.log != 0) := by
  induction rules generalizing flags with
  | nil => simp
  | cons rule rest ih =>
      rw [List.foldl_cons, ih, List.any_cons, ← Bool.or_assoc]
      rfl

/-- Numbering the rules keeps their masks. -/
theorem bfChainNumber_log (ridx : Nat) (rules : List BfRule) :
    (bfChainNumber ridx rules).map (·.log) = rules.map (·.log) := by
  induction rules generalizing ridx with
  | nil => rfl
  | cons rule rest ih => rw [bfChainNumber, List.map_cons, List.map_cons, ih]

/-- Members at one place of lists with the same images. -/
theorem getElem?_of_map_eq {α β : Type} {f : α → β} {as bs : List α} {i : Nat} {a : α}
    (same : as.map f = bs.map f) (here : as[i]? = some a) : ∃ b, bs[i]? = some b ∧ f b = f a := by
  have image := congrArg (·[i]?) same
  simp only [List.getElem?_map, here, Option.map_some] at image
  obtain ⟨b, inside, equal⟩ := Option.map_eq_some_iff.mp image.symm
  exact ⟨b, inside, equal⟩

/-- One chain. -/
theorem yyChain_logs {text : ChainText} {u : Unit} (ran : YyRuns (yyChain env text) st u st') :
    st'.logs = st.logs + text.logs.length ∧
      ∃ chain, st'.chains = st.chains ++ [chain] ∧ ChainLogs env st.logs text chain := by
  simp only [yyChain, yyRuns_bind_iff, yyRuns_orAbort_iff, yyRuns_yyCheck_iff, yyRuns_get_iff,
    yyRuns_modify_iff] at ran
  obtain ⟨hookopts, mid, parsed, policy, mid₁, ⟨-, rfl⟩, us, mid₂, sets, rules, mid₃, ruled, u₁,
    mid₄, ⟨-, rfl⟩, st₁, mid₅, ⟨rfl, rfl⟩, u₂, mid₆, rfl, u₃, mid₇, ⟨-, rfl⟩, u₄, mid₈, ⟨-, rfl⟩,
    rfl⟩ := ran
  obtain rfl := yyHookopts_runs parsed
  have before := yyAll_noLogs (fun ran => yySet_logs ran) sets
  have count := yyAll_logs RuleText.logs (fun ran => (yyRule_log ran).1) ruled
  have total := before.trans count
  rw [Nat.zero_add] at total
  refine ⟨total.logs, bfChainNew (String.ofList text.name)
    ((bfHookFromStr text.hook).getD env.strayHook) policy mid₅.sets rules, ?_, ?_, ?_⟩
  · show mid₅.chains ++ _ = _
    rw [total.chains]
  · intro j ruleText here
    obtain ⟨rule, mid, mid', inside, prior, this⟩ := yyAll_get ruled here
    obtain ⟨rule', inside', same⟩ :=
      getElem?_of_map_eq (bfChainNumber_log 0 rules).symm inside
    refine ⟨rule', inside', fun headers mem => ?_⟩
    have position := (yyAll_logs RuleText.logs (fun ran => (yyRule_log ran).1) prior).logs
    rw [before.logs, Nat.add_zero] at position
    rw [same, ← position]
    exact (yyRule_log this).2 headers mem
  · intro j rule here some
    obtain ⟨rule', inside, same⟩ := getElem?_of_map_eq (bfChainNumber_log 0 rules) here
    show (rules.foldl bfChainUpdateFeatures {}).log = true
    rw [foldl_log, Bool.false_or, List.any_eq_true]
    exact ⟨rule', List.mem_of_getElem? inside, bne_iff_ne.mpr (same.trans_ne some)⟩

/-- All chains. -/
theorem yyChains_logs {texts : List ChainText} {us : List Unit}
    (ran : YyRuns (yyAll (yyChain env) texts) st us st') :
    ∃ chains, st'.chains = st.chains ++ chains ∧
      ∀ (c : Nat) (text : ChainText), texts[c]? = some text → ∃ chain, chains[c]? = some chain ∧
        ChainLogs env (st.logs + ((texts.take c).flatMap ChainText.logs).length) text chain := by
  induction texts generalizing st us with
  | nil =>
      obtain ⟨-, rfl⟩ := yyRuns_yyAll_nil_iff.mp ran
      exact ⟨[], (List.append_nil _).symm, fun c text here => nomatch here⟩
  | cons text texts ih =>
      obtain ⟨u, mid, rest, first, others, -⟩ := yyRuns_yyAll_cons_iff.mp ran
      obtain ⟨count, chain, grown, logs⟩ := yyChain_logs first
      obtain ⟨chains, grown', all⟩ := ih others
      refine ⟨chain :: chains, ?_, ?_⟩
      · rw [grown', grown, List.append_assoc, List.singleton_append]
      · intro c text' here
        cases c with
        | zero =>
            cases here
            exact ⟨chain, rfl, logs⟩
        | succ c =>
            obtain ⟨chain', inside, logs'⟩ := all c text' here
            rw [count, Nat.add_assoc, ← List.length_append, ← List.flatMap_cons] at logs'
            exact ⟨chain', inside, logs'⟩

end Chains

/-- **Log masks.**  A rule logs exactly the listed headers when nothing else was left on the
stack; its chain is marked as logging in any case. -/
theorem logMask_exact_iff {env : YyEnv} {text : List ChainText} {ruleset : YyState}
    (accepted : yyparse env text = some (.ok ruleset)) {c j : Nat} {chainText : ChainText}
    {ruleText : RuleText} {headers : List Char} (inText : text[c]? = some chainText)
    (inChain : chainText.rules[j]? = some ruleText) (option : .log headers ∈ ruleText.options)
    (listed : tokens (· = ',') headers ≠ []) :
    ∃ chain rule, ruleset.chains[c]? = some chain ∧ chain.rules[j]? = some rule ∧
      chain.flags.log = true ∧
      (LogExact headers chain rule ↔ Within headers (env.log
        (((text.take c).flatMap ChainText.logs).length +
          ((chainText.rules.take j).flatMap RuleText.logs).length))) := by
  obtain ⟨us, ran⟩ : ∃ us, YyRuns (yyAll (yyChain env) text) {} us ruleset := by
    unfold yyparse at accepted
    split at accepted
    · cases accepted
    · cases accepted
    · rename_i us st ran
      cases accepted
      exact ⟨us, ran⟩
  obtain ⟨chains, grown, all⟩ := yyChains_logs ran
  obtain ⟨chain, here, logs⟩ := all c chainText inText
  obtain ⟨rule, there, parsed⟩ := logs.masks j ruleText inChain
  have mem : headers ∈ ruleText.logs :=
    List.mem_flatMap.mpr ⟨.log headers, option, List.mem_singleton_self _⟩
  rw [show ({} : YyState).logs = 0 from rfl, Nat.zero_add] at parsed
  obtain ⟨hdrs, names, bits⟩ := logHeadersLoop_bits (parsed headers mem)
  -- There is a name in the list, so a bit is set.
  have some : rule.log ≠ 0 := by
    intro zero
    obtain ⟨hdr, inside⟩ : ∃ hdr, hdr ∈ hdrs := by
      apply List.exists_mem_of_ne_nil
      rintro rfl
      exact listed (List.forall₂_nil_right_iff.mp names)
    have set := (bits hdr.index).mpr (.inr ⟨hdr, inside, rfl⟩)
    rw [zero, show (0 : Byte).getLsbD hdr.index = false from BitVec.getLsbD_zero] at set
    cases set
  refine ⟨chain, rule, ?_, there, logs.flag j rule there some, ?_⟩
  · rw [show ruleset.chains = chains from grown]
    exact here
  · constructor
    · rintro ⟨⟨hdrs', names', mask⟩, -⟩
      exact ⟨hdrs', names', fun i left => (mask i).mp ((bits i).mpr (.inl left))⟩
    · rintro ⟨hdrs', names', within⟩
      obtain rfl := Listed.unique names names'
      refine ⟨⟨hdrs, names, fun i => ?_⟩, logs.flag j rule there some⟩
      rw [bits i]
      exact or_iff_right_of_imp (within i)

/-- A chain with a rule that logs. -/
def logText (headers : List Char) : ChainText :=
  { name := "log".toList, hook := "BF_HOOK_TC_INGRESS".toList, hookopts := []
    verdict := "ACCEPT".toList, sets := []
    rules := [{
      matchers := [.payload "tcp.dport".toList (some "eq".toList) "22".toList]
      options := [.log headers], verdict := "DROP".toList }] }

/-- With one of the listed bits on the stack, a list with a duplicate is read exactly. -/
theorem internetLink_logExact :
    ∃ ruleset chain rule,
      yyparse { zeroEnv with log := fun _ => 1 } [logText "internet,link,internet".toList] =
        some (.ok ruleset) ∧
      ruleset.chains[0]? = some chain ∧ chain.rules[0]? = some rule ∧
      LogExact "internet,link,internet".toList chain rule := by
  obtain ⟨ruleset, accepted, -⟩ : ∃ ruleset, yyparse { zeroEnv with log := fun _ => 1 }
      [logText "internet,link,internet".toList] = some (.ok ruleset) ∧ true = true :=
    accepted_of_test (fun _ => true) (by decide +kernel)
  obtain ⟨chain, rule, here, there, -, exact_iff⟩ := @logMask_exact_iff _ _ _ accepted 0 0 _ _
    "internet,link,internet".toList rfl rfl (List.mem_singleton_self _) (by decide)
  refine ⟨ruleset, chain, rule, accepted, here, there, exact_iff.mpr ?_⟩
  refine ⟨[.internet, .link, .internet], ?_, ?_⟩
  · have names : tokens (· = ',') "internet,link,internet".toList =
        ["internet".toList, "link".toList, "internet".toList] := by decide
    rw [Listed, names]
    exact .cons (by decide) (.cons (by decide) (.cons (by decide) .nil))
  · intro i left
    have bit := (BfPkthdr.link.bit i).mp left
    exact ⟨.link, by decide, bit⟩

/-- With other bits on the stack, `log link` logs other headers. -/
theorem logLink_not_exact :
    ∃ ruleset chain rule,
      yyparse { zeroEnv with log := fun _ => 6 } [logText "link".toList] = some (.ok ruleset) ∧
      ruleset.chains[0]? = some chain ∧ chain.rules[0]? = some rule ∧
      ¬ LogExact "link".toList chain rule := by
  obtain ⟨ruleset, accepted, ran⟩ : ∃ ruleset,
      yyparse { zeroEnv with log := fun _ => 6 } [logText "link".toList] = some (.ok ruleset) ∧
      (ruleset.chains[0]?.any fun chain => chain.rules[0]?.any fun rule => rule.log == 7) = true :=
    accepted_of_test _ (by decide +kernel)
  obtain ⟨chain, here, ran⟩ := (Option.any_eq_true _ _).mp ran
  obtain ⟨rule, there, ran⟩ := (Option.any_eq_true _ _).mp ran
  refine ⟨ruleset, chain, rule, accepted, here, there, ?_⟩
  rintro ⟨⟨hdrs, listed, mask⟩, -⟩
  have names : tokens (· = ',') "link".toList = ["link".toList] := by decide
  obtain ⟨hdr, inside, index⟩ := (mask 1).mp (by rw [eq_of_beq ran]; decide)
  rw [Listed, names] at listed
  obtain ⟨token, mem, found⟩ := Cstr.exists_of_forall₂ listed inside
  rw [List.mem_singleton.mp mem, show bfPkthdrFromStr "link".toList = some .link by decide]
    at found
  cases found
  cases index

end Bpfilter
