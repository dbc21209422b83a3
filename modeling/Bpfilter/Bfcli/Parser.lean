/-
# Bfcli.Parser -- the semantic actions of the ruleset parser

A ruleset text is given by its derivation tree: a node has the strings of its tokens
(`ChainText` and below).  The parser runs the action of a production when it has seen all of it,
so the actions run from left to right, the one of a node behind those of its children.  No action
runs while a token is looked ahead.

The actions share the ruleset: sets are appended to its list as they are parsed, and the list is
moved into the chain when the chain is complete.  `YyEnv` is what the actions find in memory they
have not written, and what they ask the system.
-/
import Bpfilter.Lib.HookText
import Bpfilter.Lib.SetParse

namespace Bpfilter

set_option autoImplicit false

open Ebpf (Byte)
open Cstr

/-! ## Names -/

/-- The loops of the `*_from_str` functions. -/
def fromStrs {α : Type} (table : List (α × String)) (s : List Char) : Option α :=
  (table.find? fun entry => entry.2.toList = s).map Prod.fst

/-- `_bf_verdict_strs` -/
def bfVerdictStrs : List (BfVerdict × String) :=
  [(.accept, "ACCEPT"), (.drop, "DROP"), (.continue, "CONTINUE")]

/-- `bf_verdict_from_str` -/
def bfVerdictFromStr : List Char → Option BfVerdict := fromStrs bfVerdictStrs

/-- `_bf_hook_strs` -/
def bfHookStrs : List (BfHook × String) :=
  [(.xdp, "BF_HOOK_XDP"), (.tcIngress, "BF_HOOK_TC_INGRESS"),
    (.nfPreRouting, "BF_HOOK_NF_PRE_ROUTING"), (.nfLocalIn, "BF_HOOK_NF_LOCAL_IN"),
    (.nfForward, "BF_HOOK_NF_FORWARD"), (.cgroupIngress, "BF_HOOK_CGROUP_INGRESS"),
    (.cgroupEgress, "BF_HOOK_CGROUP_EGRESS"), (.nfLocalOut, "BF_HOOK_NF_LOCAL_OUT"),
    (.nfPostRouting, "BF_HOOK_NF_POST_ROUTING"), (.tcEgress, "BF_HOOK_TC_EGRESS")]

/-- `bf_hook_from_str` -/
def bfHookFromStr : List Char → Option BfHook := fromStrs bfHookStrs

/-- `_bf_matcher_ops_strs` -/
def bfMatcherOpsStrs : List (BfMatcherOp × String) :=
  [(.eq, "eq"), (.ne, "not"), (.any, "any"), (.all, "all"), (.inSet, "in"), (.range, "range")]

/-- `bf_matcher_op_from_str` -/
def bfMatcherOpFromStr : List Char → Option BfMatcherOp := fromStrs bfMatcherOpsStrs

/-- `enum bf_pkthdr` -/
inductive BfPkthdr where
  | link | internet | transport
  deriving DecidableEq, Repr

/-- The value of the enumerator. -/
def BfPkthdr.index : BfPkthdr → Nat
  | .link => 0
  | .internet => 1
  | .transport => 2

/-- `_bf_pkthdr_strs` -/
def bfPkthdrStrs : List (BfPkthdr × String) :=
  [(.link, "link"), (.internet, "internet"), (.transport, "transport")]

/-- `bf_pkthdr_from_str` -/
def bfPkthdrFromStr (s : List Char) : Option BfPkthdr :=
  (bfPkthdrStrs.find? fun entry => bfStreqI s entry.2.toList).map Prod.fst

/-! ## Derivation trees -/

/-- `set` -/
structure SetText where
  name : List Char
  rawKey : List Char
  op : Option (List Char)
  payload : List Char
  deriving DecidableEq, Repr

/-- `matcher`: a payload, a set in place, or the name of a set. -/
inductive MatcherText where
  | payload (type : List Char) (op : Option (List Char)) (payload : List Char)
  | anonymous (rawKey : List Char) (op : Option (List Char)) (payload : List Char)
  | named (rawKey : List Char) (op : Option (List Char)) (name : List Char)
  deriving DecidableEq, Repr

/-- `rule_option` -/
inductive RuleOptionText where
  | log (headers : List Char)
  | counter
  | mark (rawMark : List Char)
  deriving DecidableEq, Repr

/-- `rule` -/
structure RuleText where
  matchers : List MatcherText
  options : List RuleOptionText
  verdict : List Char
  deriving DecidableEq, Repr

/-- `chain` -/
structure ChainText where
  name : List Char
  hook : List Char
  hookopts : List (List Char)
  verdict : List Char
  sets : List SetText
  rules : List RuleText
  deriving DecidableEq, Repr

/-! ## State -/

/-- `struct bfc_ruleset`, and how many log options and allocations there were. -/
structure YyState where
  chains : List BfChain := []
  hookopts : List (Option BfHookopts) := []
  sets : List BfSet := []
  logs : Nat := 0
  allocs : Nat := 0

/-- What the actions depend on besides the text. -/
structure YyEnv where
  names : Names
  /-- What a hook name that is not in the table stands for: `-EINVAL` is no enumerator. -/
  strayHook : BfHook
  /-- The local variable `log` of each log option before it is written. -/
  log : Nat → Byte
  /-- What `malloc` returned for matchers and for the elements of sets. -/
  matcher : Nat → Nat → Byte
  set : Nat → Nat → Nat → Byte
  /-- Fuel for the loops of `bf_set_new_from_raw`. -/
  fuel : Nat

/-- An action.  `YYABORT` makes the callers of `yyparse` return `-EINVAL`. -/
abbrev YyParse (α : Type) := StateT YyState (ExceptT Errno Option) α

/-- `bf_parse_err`, when a lookup fails. -/
def orAbort {α : Type} : Option α → YyParse α
  | some a => pure a
  | none => throw .einval

/-- `bf_parse_err`, unless a check succeeds. -/
def yyCheck (passed : Bool) : YyParse Unit := if passed then pure () else throw .einval

/-- A list of the grammar: the actions of its members, from left to right. -/
def yyAll {α β : Type} (action : α → YyParse β) : List α → YyParse (List β)
  | [] => pure []
  | a :: as => do
      let b ← action a
      let bs ← yyAll action as
      pure (b :: bs)

/-! ## Sets and matchers -/

section Actions

variable (env : YyEnv)

/-- `bf_set_new_from_raw`, called by an action. -/
def yySetNewFromRaw (name : Option String) (rawKey payload : List Char) : YyParse BfSet :=
  fun st =>
    match bfSetNewFromRaw (setParseOps env.names) (env.set st.allocs) env.fuel name rawKey
        payload with
    | none => none
    | some (.error _) => some (.error .einval)
    | some (.ok set) => some (.ok (set, { st with allocs := st.allocs + 1 }))

/-- `bf_list_add_tail(&ruleset->sets, set)` -/
def yyAddSet (set : BfSet) : YyParse Unit := modify fun st => { st with sets := st.sets ++ [set] }

def yyMatcherOp : Option (List Char) → YyParse BfMatcherOp
  | none => pure .eq
  | some s => orAbort (bfMatcherOpFromStr s)

def yySet (text : SetText) : YyParse Unit := do
  let op ← yyMatcherOp text.op
  yyCheck (op == .inSet)
  let set ← yySetNewFromRaw env (some (String.ofList text.name)) text.rawKey text.payload
  yyAddSet set

/-- `bf_matcher_new(BF_MATCHER_SET, BF_MATCHER_IN, &set_id, sizeof(set_id))` -/
def setMatcher (setId : BitVec 32) : BfMatcher := ⟨.set, .inSet, leBytes32 setId⟩

/-- The loop over the sets of the ruleset: the first one of that name, and its index. -/
def findSet (name : String) : List BfSet → BitVec 32 → Option (BitVec 32 × BfSet)
  | [], _ => none
  | set :: rest, setId =>
      if set.name = some name then some (setId, set) else findSet name rest (setId + 1)

/-- `bf_matcher_new_from_raw`, called by an action. -/
def yyMatcherNewFromRaw (type : BfMatcherType) (op : BfMatcherOp) (payload : List Char) :
    YyParse BfMatcher := fun st =>
  match bfMatcherNewFromRaw env.names (env.matcher st.allocs) type op payload with
  | .error _ => some (.error .einval)
  | .ok matcher => some (.ok (matcher, { st with allocs := st.allocs + 1 }))

def yyMatcher : MatcherText → YyParse BfMatcher
  | .payload type op payload => do
      let type ← orAbort (bfMatcherTypeFromStr type)
      let op ← yyMatcherOp op
      yyMatcherNewFromRaw env type op payload
  | .anonymous rawKey op payload => do
      let op ← yyMatcherOp op
      let st ← get
      yyCheck (op == .inSet)
      let set ← yySetNewFromRaw env none rawKey payload
      yyAddSet set
      pure (setMatcher (BitVec.ofNat 32 st.sets.length))
  | .named rawKey op name => do
      let op ← yyMatcherOp op
      yyCheck (op == .inSet)
      let testKey ← yySetNewFromRaw env none rawKey "{}".toList
      let st ← get
      let found ← orAbort (findSet (String.ofList name) st.sets 0)
      yyCheck (found.2.key == testKey.key)
      pure (setMatcher found.1)

/-! ## Rules -/

/-- `struct bf_rule_options`: an option is there when its bit is set in `flags`. -/
structure BfRuleOptions where
  log : Option Byte := none
  counter : Option Bool := none
  mark : Option (BitVec 32) := none
  deriving DecidableEq, Repr

/-- The loop over packet headers; `log` is what was there. -/
def logHeadersLoop : List (List Char) → Byte → Option Byte
  | [], log => some log
  | token :: rest, log =>
      match bfPkthdrFromStr token with
      | none => none
      | some header => logHeadersLoop rest (log ||| (1 : Byte) <<< header.index)

/-- The value of the option `mark`. -/
def yyMark (rawMark : List Char) : Option (BitVec 32) :=
  let mark := strtoll 0 rawMark
  if mark.endptr ≠ [] then none
  else if mark.value < 0 then none
  else if 0xffffffff < mark.value then none
  else some (BitVec.ofInt 32 mark.value)

def yyRuleOption : RuleOptionText → YyParse BfRuleOptions
  | .log headers => do
      let st ← get
      modify fun st => { st with logs := st.logs + 1 }
      let log ← orAbort (logHeadersLoop (tokens (· = ',') headers) (env.log st.logs))
      pure { log := some log }
  | .counter => pure { counter := some true }
  | .mark rawMark => do
      let mark ← orAbort (yyMark rawMark)
      pure { mark := some mark }

/-- An option that is given twice is an error. -/
def mergeOption {α : Type} : Option α → Option α → YyParse (Option α)
  | old, none => pure old
  | none, some new => pure (some new)
  | some _, some _ => throw .einval

def yyRuleOptions : List RuleOptionText → BfRuleOptions → YyParse BfRuleOptions
  | [], options => pure options
  | text :: rest, options => do
      let new ← yyRuleOption env text
      let log ← mergeOption options.log new.log
      let counter ← mergeOption options.counter new.counter
      let mark ← mergeOption options.mark new.mark
      yyRuleOptions rest { log, counter, mark }

def yyRule (text : RuleText) : YyParse BfRule := do
  let matchers ← yyAll (yyMatcher env) text.matchers
  let options ← yyRuleOptions env text.options {}
  let verdict ← orAbort (bfVerdictFromStr text.verdict)
  pure { matchers, verdict, log := options.log.getD 0, mark := options.mark,
         counters := options.counter.getD false }

/-! ## Chains -/

def yyHookopts : List (List Char) → Option BfHookopts → YyParse (Option BfHookopts)
  | [], hookopts => pure hookopts
  | rawOpt :: rest, hookopts =>
      match bfHookoptsParseOpt (hookopts.getD {}) rawOpt with
      | (.error _, _) => throw .einval
      | (.ok _, hookopts) => yyHookopts rest (some hookopts)

/-- `bf_hookopts_validate`, where there are options. -/
def hookoptsValid (hookopts : Option BfHookopts) (hook : BfHook) : Bool :=
  match hookopts with
  | none => true
  | some hookopts => (bfHookoptsValidate hookopts hook).isOk

/-- The sets are moved out of the ruleset, whether the chain is valid or not. -/
def yyChain (text : ChainText) : YyParse Unit := do
  let hook := (bfHookFromStr text.hook).getD env.strayHook
  let hookopts ← yyHookopts text.hookopts none
  let policy ← orAbort (bfVerdictFromStr text.verdict)
  let _ ← yyAll (yySet env) text.sets
  let rules ← yyAll (yyRule env) text.rules
  yyCheck policy.isTerminal
  let st ← get
  let chain := bfChainNew (String.ofList text.name) hook policy st.sets rules
  modify fun st => { st with sets := [] }
  yyCheck (bfChainValidate chain)
  yyCheck (hookoptsValid hookopts chain.hook)
  modify fun st =>
    { st with chains := st.chains ++ [chain], hookopts := st.hookopts ++ [hookopts] }

/-- `yyparse` on an empty ruleset. -/
def yyparse (text : List ChainText) : Option (Except Errno YyState) :=
  match yyAll (yyChain env) text {} with
  | none => none
  | some (.error e) => some (.error e)
  | some (.ok (_, st)) => some (.ok st)

end Actions

/-- Memory full of zeroes. -/
def zeroEnv : YyEnv :=
  { names := plainNames, strayHook := .xdp, log := fun _ => 0, matcher := fun _ _ => 0
    set := fun _ _ _ => 0, fuel := 9 }

/-! ## Actions that succeed -/

section Succeed

variable {α β : Type} {st st' : YyState}

/-- An action succeeds on a state. -/
def YyRuns (action : YyParse α) (st : YyState) (a : α) (st' : YyState) : Prop :=
  action st = some (.ok (a, st'))

theorem yyRuns_bind_iff {x : YyParse α} {f : α → YyParse β} {b : β} :
    YyRuns (x >>= f) st b st' ↔ ∃ a mid, YyRuns x st a mid ∧ YyRuns (f a) mid b st' := by
  have run : (x >>= f) st =
      match x st with
      | none => none
      | some (.error e) => some (.error e)
      | some (.ok (a, mid)) => f a mid := by
    show ExceptT.bind (x st) _ = _
    cases x st with
    | none => rfl
    | some r => cases r <;> rfl
  unfold YyRuns
  rw [run]
  constructor
  · intro ok
    split at ok
    · cases ok
    · cases ok
    · rename_i a mid ran
      exact ⟨a, mid, ran, ok⟩
  · rintro ⟨a, mid, ran, ok⟩
    rw [ran]
    exact ok

theorem yyRuns_pure_iff {a b : α} : YyRuns (pure a) st b st' ↔ b = a ∧ st' = st := by
  show some (Except.ok (a, st)) = some (.ok (b, st')) ↔ _
  simp [eq_comm]

theorem not_yyRuns_throw {e : Errno} {b : α} : ¬ YyRuns (throw e : YyParse α) st b st' := by
  show ¬ some (Except.error e) = some (.ok (b, st'))
  simp

theorem yyRuns_get_iff {b : YyState} : YyRuns get st b st' ↔ b = st ∧ st' = st := by
  show some (Except.ok (st, st)) = some (.ok (b, st')) ↔ _
  simp [eq_comm]

theorem yyRuns_modify_iff {f : YyState → YyState} {u : Unit} :
    YyRuns (modify f) st u st' ↔ st' = f st := by
  show some (Except.ok ((), f st)) = some (.ok (u, st')) ↔ _
  simp [eq_comm]

theorem yyRuns_orAbort_iff {o : Option α} {a : α} :
    YyRuns (orAbort o) st a st' ↔ o = some a ∧ st' = st := by
  cases o with
  | none =>
      refine iff_of_false not_yyRuns_throw ?_
      rintro ⟨none, -⟩
      cases none
  | some b =>
      rw [orAbort, yyRuns_pure_iff, Option.some.injEq, eq_comm]

theorem yyRuns_yyCheck_iff {passed : Bool} {u : Unit} :
    YyRuns (yyCheck passed) st u st' ↔ passed = true ∧ st' = st := by
  cases passed with
  | false =>
      refine iff_of_false not_yyRuns_throw ?_
      rintro ⟨absurd, -⟩
      cases absurd
  | true =>
      show YyRuns (pure ()) st u st' ↔ _
      rw [yyRuns_pure_iff]
      simp

theorem yyRuns_yyAll_nil_iff {action : α → YyParse β} {bs : List β} :
    YyRuns (yyAll action []) st bs st' ↔ bs = [] ∧ st' = st := yyRuns_pure_iff

theorem yyRuns_yyAll_cons_iff {action : α → YyParse β} {a : α} {as : List α} {bs : List β} :
    YyRuns (yyAll action (a :: as)) st bs st' ↔
      ∃ b mid rest, YyRuns (action a) st b mid ∧ YyRuns (yyAll action as) mid rest st' ∧
        bs = b :: rest := by
  simp only [yyAll, yyRuns_bind_iff, yyRuns_pure_iff]
  constructor
  · rintro ⟨b, mid, first, rest, last, others, rfl, rfl⟩
    exact ⟨b, mid, rest, first, others, rfl⟩
  · rintro ⟨b, mid, rest, first, others, rfl⟩
    exact ⟨b, mid, first, rest, st', others, rfl, rfl⟩

theorem yyMatcherOp_runs {text : Option (List Char)} {op : BfMatcherOp}
    (ran : YyRuns (yyMatcherOp text) st op st') : st' = st := by
  cases text with
  | none => exact (yyRuns_pure_iff.mp ran).2
  | some s => exact (yyRuns_orAbort_iff.mp ran).2

/-- An option is taken over unless both are there. -/
theorem mergeOption_runs {old new merged : Option α}
    (ran : YyRuns (mergeOption old new) st merged st') :
    st' = st ∧ (new = none ∧ merged = old ∨ old = none ∧ merged = new) := by
  cases new with
  | none =>
      obtain ⟨rfl, rfl⟩ := yyRuns_pure_iff.mp ran
      exact ⟨rfl, .inl ⟨rfl, rfl⟩⟩
  | some a =>
      cases old with
      | none =>
          obtain ⟨rfl, rfl⟩ := yyRuns_pure_iff.mp ran
          exact ⟨rfl, .inr ⟨rfl, rfl⟩⟩
      | some b => exact absurd ran not_yyRuns_throw

/-- A run that passes a test on what it returns has returned. -/
theorem accepted_of_test {r : Option (Except Errno α)} (test : α → Bool)
    (passed : (r.any fun result => result.toOption.any test) = true) :
    ∃ a, r = some (.ok a) ∧ test a = true := by
  rcases r with _ | e | a
  · exact absurd passed Bool.false_ne_true
  · exact absurd passed Bool.false_ne_true
  · exact ⟨a, rfl, passed⟩

theorem yyHookopts_runs {rawOpts : List (List Char)} {hookopts hookopts' : Option BfHookopts}
    (ran : YyRuns (yyHookopts rawOpts hookopts) st hookopts' st') : st' = st := by
  induction rawOpts generalizing hookopts with
  | nil => exact (yyRuns_pure_iff.mp ran).2
  | cons rawOpt rest ih =>
      rw [yyHookopts] at ran
      split at ran
      · exact absurd ran not_yyRuns_throw
      · exact ih ran

end Succeed

end Bpfilter
