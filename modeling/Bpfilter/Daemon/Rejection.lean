/-
# Daemon.Rejection -- chains that are refused

`bf_cgen_new` hands out the codegen before it validates the chain, so the caller frees
a codegen without chain when the chain is refused; `bf_cgen_free` reads the chain's name as
soon as it can open the directory of pins.

`rejected_cleanly_iff` says when each of the three requests that carry a chain to be set
answers with an error: `FreedSafely` says that the name is not read, and what is left is
whether the request gets as far as creating the codegen.
-/
import Bpfilter.Daemon.Context
import Bpfilter.Daemon.Validation

namespace Bpfilter

set_option autoImplicit false

open Hoare

/-- A codegen without chain is freed without looking at the chain: the daemon is transient, or the
directory of pins does not open. -/
def FreedSafely (fate : Fate) (d : Daemon) : Prop :=
  d.sys.persist = false ∨ fate.freeDir.isSome = true

/-- The request is answered with an error. -/
def Refuses (request : Request) (d : Daemon) : Prop :=
  ∃ r d', step request d = .ok (r, d') ∧ r ≠ .ok

/-- The request is answered with an error, and nothing has changed. -/
def RefusesUnchanged (request : Request) (d : Daemon) : Prop :=
  ∃ r, step request d = .ok (r, d) ∧ r ≠ .ok

/-! ## Creating a codegen -/

section New

variable {fate : Fate} {front : BfFront} {chain : BfChain} {d : Daemon}
  (rejected : bfChainValidate chain = false)

include rejected

theorem bfCgenNew_refused (safe : FreedSafely fate d) :
    onSys (bfCgenNew fate front chain) d = .ok (.error .einval, d) := by
  have kept : (d.sys.persist && fate.freeDir.isNone) = false := by
    obtain transient | closed := safe
    · rw [transient, Bool.false_and]
    · obtain ⟨e, closed⟩ := Option.isSome_iff_exists.mp closed
      rw [closed, Option.isNone_some, Bool.and_false]
  rw [onSys, bfCgenNew, rejected, if_neg Bool.false_ne_true, bind_run (get_run d.sys), kept,
    if_neg Bool.false_ne_true]
  rfl

theorem bfCgenNew_dies (reads : ¬ FreedSafely fate d) :
    onSys (bfCgenNew fate front chain) d = .error .undefined := by
  have read : (d.sys.persist && fate.freeDir.isNone) = true := by
    obtain ⟨persist, opens⟩ := not_or.mp reads
    rw [Bool.and_eq_true]
    exact ⟨by simpa using persist, by simpa using opens⟩
  rw [onSys, bfCgenNew, rejected, if_neg Bool.false_ne_true, bind_run (get_run d.sys), read,
    if_pos rfl]
  rfl

/-- A request that goes on from a refused chain to an error code answers with an error exactly when
the codegen is freed safely. -/
theorem refused_iff {rest : Except Errno BfCgen → Handle Ret}
    (answer : ∀ e, rest (.error e) = pure (.err e)) :
    (∃ r, (onSys (bfCgenNew fate front chain) >>= rest) d = .ok (r, d) ∧ r ≠ .ok) ↔
      FreedSafely fate d := by
  constructor
  · rintro ⟨r, ran, -⟩
    by_contra reads
    rw [bind_error (bfCgenNew_dies rejected reads)] at ran
    cases ran
  · intro safe
    refine ⟨.err .einval, ?_, Ret.noConfusion⟩
    rw [bind_run (bfCgenNew_refused rejected safe), answer]
    rfl

end New

/-! ## One chain -/

theorem chainSet_refuses_iff {chain : DecodedChain} (rejected : bfChainValidate chain.chain = false)
    (fate : Fate) (client : BfNs) (hookopts : Option BfHookopts) (failsOld : Option Errno)
    (d : Daemon) :
    RefusesUnchanged (.chainSet fate client chain hookopts failsOld) d ↔ FreedSafely fate d :=
  refused_iff rejected fun _ => rfl

theorem bfCtxGetCgen_run {name : String} {d : Daemon} {found : Option (Nat × BfCgen)}
    (search : findCgen name d.cgens = .ok found) : bfCtxGetCgen name d = .ok (found, d) := by
  rw [bfCtxGetCgen, search]

/-- Loading a chain looks for one of the same name first. -/
theorem chainLoad_refuses_iff {chain : DecodedChain} (rejected : bfChainValidate chain.chain = false)
    (fate : Fate) (d : Daemon) :
    RefusesUnchanged (.chainLoad fate chain) d ↔
      (∃ entry, findCgen chain.chain.name d.cgens = .ok (some entry)) ∨
        findCgen chain.chain.name d.cgens = .ok none ∧ FreedSafely fate d := by
  unfold RefusesUnchanged step bfCliChainLoad
  cases search : findCgen chain.chain.name d.cgens with
  | error e =>
      have died : bfCtxGetCgen chain.chain.name d = .error e := by rw [bfCtxGetCgen, search]
      simp [bind_error died]
  | ok found =>
      cases found with
      | some entry =>
          simp only [bind_run (bfCtxGetCgen_run search)]
          exact iff_of_true ⟨_, rfl, Ret.noConfusion⟩ (.inl ⟨_, rfl⟩)
      | none =>
          simp only [bind_run (bfCtxGetCgen_run search)]
          rw [refused_iff rejected fun _ => rfl]
          simp

/-! ## A chain of a ruleset -/

/-- Flushing the command line's codegens reads no freed entry and no missing program. -/
def Daemon.Flushable (d : Daemon) : Prop :=
  ∀ entry ∈ d.cgens, ∃ cgen, entry = some cgen ∧ (cgen.front = .cli → cgen.program.isSome = true)

theorem flushCgens_works (fails : String → Option Errno) {cgens : List (Option BfCgen)}
    (ready : ∀ entry ∈ cgens, ∃ cgen, entry = some cgen ∧
      (cgen.front = .cli → cgen.program.isSome = true)) (s : Sys) :
    ∃ left s', flushCgens fails .cli cgens s = .ok (left, s') := by
  induction cgens generalizing s with
  | nil => exact ⟨[], s, rfl⟩
  | cons head rest ih =>
      obtain ⟨⟨cgen, rfl, program⟩, others⟩ := List.forall_mem_cons.mp ready
      rw [flushCgens]
      by_cases own : cgen.front = .cli
      · obtain ⟨prog, present⟩ := Option.isSome_iff_exists.mp (program own)
        obtain ⟨s', unloaded⟩ : ∃ s', bfCgenUnload (fails cgen.chain.name) cgen s = .ok ((), s') := by
          unfold bfCgenUnload
          cases fails cgen.chain.name with
          | some e => exact ⟨s, rfl⟩
          | none => exact ⟨_, by rw [present]; rfl⟩
        rw [if_pos own, bind_run unloaded]
        exact ih others s'
      · obtain ⟨left, s', flushed⟩ := ih others s
        rw [if_neg own, bind_run flushed]
        exact ⟨_, _, rfl⟩

theorem bfCtxFlush_works (fails : String → Option Errno) {d : Daemon} (ready : d.Flushable) :
    ∃ d', bfCtxFlush fails .cli d = .ok ((), d') := by
  obtain ⟨left, s', flushed⟩ := flushCgens_works fails ready d.sys
  refine ⟨{ d with sys := s', cgens := left }, ?_⟩
  rw [bfCtxFlush, bind_run (get_run d)]
  have flushed : onSys (flushCgens fails .cli d.cgens) d = .ok (left, { d with sys := s' }) := by
    rw [onSys, flushed]
  rw [bind_run flushed]
  rfl

/-- A flush that returns has read every entry, and those of the command line are gone. -/
theorem flushCgens_live {fails : String → Option Errno} {cgens left : List (Option BfCgen)}
    {s s' : Sys} (ran : flushCgens fails .cli cgens s = .ok (left, s')) :
    ∀ entry ∈ left, ∃ cgen, entry = some cgen ∧ cgen.front ≠ .cli := by
  induction cgens generalizing s left with
  | nil =>
      cases ran
      exact fun _ mem => nomatch mem
  | cons head rest ih =>
      cases head with
      | none => cases ran
      | some cgen =>
          rw [flushCgens] at ran
          by_cases own : cgen.front = .cli
          · rw [if_pos own] at ran
            obtain ⟨_, t, unload, ran⟩ := bind_inv ran
            exact ih ran
          · rw [if_neg own] at ran
            obtain ⟨left', t, flush, ran⟩ := bind_inv ran
            cases ran
            exact List.forall_mem_cons.mpr ⟨⟨cgen, rfl, own⟩, ih flush⟩

theorem bfCtxFlush_flushable {fails : String → Option Errno} {d d' : Daemon}
    (ran : bfCtxFlush fails .cli d = .ok ((), d')) : d'.Flushable := by
  unfold bfCtxFlush at ran
  rw [bind_run (get_run d)] at ran
  obtain ⟨left, t, flush, ran⟩ := bind_inv ran
  obtain ⟨sys, flushed, rfl⟩ := onSys_inv flush
  cases ran
  intro entry mem
  obtain ⟨cgen, rfl, other⟩ := flushCgens_live flushed entry mem
  exact ⟨cgen, rfl, fun own => absurd own other⟩

theorem setChain_flushable {fate : Fate} {client : BfNs} {cgen : BfCgen}
    {hookopts : Option BfHookopts} {d d' : Daemon} {r : Ret} (ready : d.Flushable)
    (ran : setChain fate client cgen hookopts d = .ok (r, d')) : d'.Flushable := by
  unfold setChain at ran
  obtain ⟨⟨r', cgen'⟩, t, set, ran⟩ := bind_inv ran
  obtain ⟨s', acted, rfl⟩ := onSys_inv set
  have outcome := bfCgenSet_inv acted
  cases r' with
  | err e =>
      cases ran
      exact ready
  | ok =>
      obtain ⟨found, u, insert, ran⟩ := bind_inv ran
      obtain ⟨rfl, absent, rfl⟩ | ⟨entry, rfl, present, rfl⟩ := bfCtxSetCgen_outcome insert
      · cases ran
        obtain ⟨prog, running, -⟩ := outcome.ready
        intro entry mem
        obtain mem | mem := List.mem_append.mp mem
        · exact ready entry mem
        · exact ⟨cgen', List.mem_singleton.mp mem, fun _ => by rw [running]; rfl⟩
      · obtain ⟨_, v, unload, ran⟩ := bind_inv ran
        obtain ⟨s'', unloaded, rfl⟩ := onSys_inv unload
        cases ran
        exact ready

theorem setChains_flushable {client : BfNs} {entries : List (Except Errno RulesetEntry)}
    {d d' : Daemon} {r : Ret} (ready : d.Flushable)
    (ran : setChains client entries d = .ok (r, d')) : d'.Flushable := by
  induction entries generalizing d with
  | nil =>
      cases ran
      exact ready
  | cons head rest ih =>
      cases head with
      | error e =>
          cases ran
          exact ready
      | ok entry =>
          rw [setChains] at ran
          obtain ⟨result, t, new, ran⟩ := bind_inv ran
          obtain ⟨rfl, ⟨e, rfl⟩ | rfl⟩ := bfCgenNew_outcome new
          · cases ran
            exact ready
          · obtain ⟨r', u, set, ran⟩ := bind_inv ran
            have ready := setChain_flushable ready set
            cases r' with
            | ok => exact ih ready ran
            | err e =>
                cases ran
                exact ready

/-- The loop stops at the first chain that fails, and otherwise goes on behind the chains that were
set. -/
theorem setChains_append (client : BfNs) (before after : List (Except Errno RulesetEntry)) :
    setChains client (before ++ after) =
      (do
        match ← setChains client before with
        | .ok => setChains client after
        | r => pure r) := by
  induction before with
  | nil => rfl
  | cons head rest ih =>
      cases head with
      | error e => rfl
      | ok entry =>
          rw [List.cons_append, setChains, setChains, bind_assoc]
          congr 1
          funext result
          cases result with
          | error e => rfl
          | ok cgen =>
              simp only [bind_assoc]
              congr 1
              funext r
              cases r with
              | ok => exact ih
              | err e => rfl

/-- What a ruleset request does before it gets to a chain: the old chains are removed and those in
front of it are set. -/
def earlierChains (client : BfNs) (fails : String → Option Errno)
    (before : List (Except Errno RulesetEntry)) : Handle Ret := do
  bfCtxFlush fails .cli
  setChains client before

theorem rulesetSet_refuses_iff {entry : RulesetEntry}
    (rejected : bfChainValidate entry.chain.chain = false) (client : BfNs)
    (fails failsAgain : String → Option Errno) (before after : List (Except Errno RulesetEntry))
    (d : Daemon) :
    Refuses (.rulesetSet client fails failsAgain (.ok (before ++ .ok entry :: after))) d ↔
      ∃ r d', earlierChains client fails before d = .ok (r, d') ∧
        (r = .ok → FreedSafely entry.fate d') := by
  have loop : ∀ d' : Daemon, FreedSafely entry.fate d' →
      setChains client (.ok entry :: after) d' = .ok (.err .einval, d') := by
    intro d' safe
    rw [setChains, bind_run (bfCgenNew_refused rejected safe)]
    rfl
  have dies : ∀ d' : Daemon, ¬ FreedSafely entry.fate d' →
      setChains client (.ok entry :: after) d' = .error .undefined := by
    intro d' reads
    rw [setChains, bind_error (bfCgenNew_dies rejected reads)]
  constructor
  · rintro ⟨r, d', ran, -⟩
    unfold step bfCliRulesetSet at ran
    obtain ⟨_, d₁, flush, ran⟩ := bind_inv ran
    obtain ⟨r', d₂, set, -⟩ := bind_inv ran
    rw [setChains_append] at set
    obtain ⟨r₁, d₃, earlier, last⟩ := bind_inv set
    refine ⟨r₁, d₃, ?_, ?_⟩
    · rw [earlierChains, bind_run flush, earlier]
    · rintro rfl
      by_contra reads
      cases (dies d₃ reads).symm.trans last
  · rintro ⟨r₁, d₃, ran, safe⟩
    unfold earlierChains at ran
    obtain ⟨_, d₁, flush, earlier⟩ := bind_inv ran
    have failed : ∃ r, r ≠ .ok ∧
        setChains client (before ++ .ok entry :: after) d₁ = .ok (r, d₃) := by
      rw [setChains_append, bind_run earlier]
      cases r₁ with
      | ok => exact ⟨_, Ret.noConfusion, loop d₃ (safe rfl)⟩
      | err e => exact ⟨_, Ret.noConfusion, rfl⟩
    obtain ⟨r, error, set⟩ := failed
    obtain ⟨d₄, again⟩ := bfCtxFlush_works failsAgain
      (setChains_flushable (bfCtxFlush_flushable flush) earlier)
    refine ⟨r, d₄, ?_, error⟩
    rw [step, bfCliRulesetSet, bind_run flush]
    simp only [bind_run set]
    cases r with
    | ok => exact absurd rfl error
    | err e =>
        rw [bind_run again]
        rfl

/-! ## Result -/

/-- **Refused chains.**  A request that carries a chain validation refuses is answered with an error
(and changes nothing, when the chain is not part of a ruleset) exactly when it does not free a
codegen without chain next to an open directory of pins: setting a chain always creates the
codegen; loading one does unless the context has a chain of its name; a ruleset does when the
chains in front of it were set. -/
theorem rejected_cleanly_iff {chain : DecodedChain}
    (rejected : bfChainValidate chain.chain = false) (d : Daemon) :
    (∀ fate client hookopts failsOld,
      RefusesUnchanged (.chainSet fate client chain hookopts failsOld) d ↔ FreedSafely fate d) ∧
    (∀ fate, RefusesUnchanged (.chainLoad fate chain) d ↔
      (∃ entry, findCgen chain.chain.name d.cgens = .ok (some entry)) ∨
        findCgen chain.chain.name d.cgens = .ok none ∧ FreedSafely fate d) ∧
    ∀ client fails failsAgain before hookopts fate after,
      Refuses (.rulesetSet client fails failsAgain
        (.ok (before ++ .ok ⟨chain, hookopts, fate⟩ :: after))) d ↔
      ∃ r d', earlierChains client fails before d = .ok (r, d') ∧
        (r = .ok → FreedSafely fate d') := by
  refine ⟨?_, ?_, ?_⟩
  · intro fate client hookopts failsOld
    exact chainSet_refuses_iff rejected fate client hookopts failsOld d
  · intro fate
    exact chainLoad_refuses_iff rejected fate d
  · intro client fails failsAgain before hookopts fate after
    have refused : bfChainValidate (RulesetEntry.mk chain hookopts fate).chain.chain = false :=
      rejected
    exact rulesetSet_refuses_iff refused client fails failsAgain before after d

/-- A transient daemon refuses an XDP chain that reads the mark. -/
theorem transient_refuses_markChain :
    RefusesUnchanged (.chainSet {} ⟨1, 1⟩ markChain none none)
      (.init sampleHost false ⟨1, 1⟩ plainPaths) :=
  ((rejected_cleanly_iff (by decide) _).1 {} ⟨1, 1⟩ none none).mpr (.inl rfl)

/-- In persistent mode it dies, on each of the three requests. -/
theorem persistent_dies_on_markChain :
    ¬ RefusesUnchanged (.chainSet {} ⟨1, 1⟩ markChain none none) nfDaemon ∧
      ¬ RefusesUnchanged (.chainLoad {} markChain) nfDaemon ∧
      ¬ Refuses (.rulesetSet ⟨1, 1⟩ (fun _ => none) (fun _ => none)
        (.ok [.ok ⟨markChain, none, {}⟩])) nfDaemon := by
  have reads : ¬ FreedSafely {} nfDaemon := by
    rintro (transient | closed)
    · cases transient
    · cases closed
  have rejected : bfChainValidate markChain.chain = false := by decide
  refine ⟨?_, ?_, ?_⟩
  · rw [chainSet_refuses_iff rejected]
    exact reads
  · rw [chainLoad_refuses_iff rejected]
    rintro (⟨entry, found⟩ | ⟨-, safe⟩)
    · cases found
    · exact reads safe
  · intro refuses
    obtain ⟨r, d', ran, safe⟩ := (@rulesetSet_refuses_iff ⟨markChain, none, {}⟩ rejected ⟨1, 1⟩
      (fun _ => none) (fun _ => none) [] [] nfDaemon).mp refuses
    cases ran
    exact reads (safe rfl)

end Bpfilter
