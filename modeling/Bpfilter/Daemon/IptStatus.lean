/-
# Daemon.IptStatus -- what an iptables request reports

`_bf_ipt_ruleset_set` walks the hooks with one status variable: a hook that fails is
skipped, and the next hook overwrites what it left.  `IptStep` is one turn of the
loop with everything it can do; `iptOutcomes` are the statuses the enabled hooks end
with, in order, and the request returns the last of them.

`ipt_status_iff` says when that status is right: when the request returns at all, and
its last enabled hook fails if and only if some enabled hook fails that did not have
its chain already.  It does not return from a context that refers to a freed codegen.
-/
import Bpfilter.Daemon.Context

namespace Bpfilter

set_option autoImplicit false

open Hoare

/-! ## One hook -/

/-- What becomes of a hook without codegen. -/
inductive IptNew (fate : Fate) (client : BfNs) (chain : BfChain) (d : Daemon) :
    Ret → Daemon → Prop where
  | notLoaded {r : Ret} {cgen : BfCgen} {s' : Sys}
      (load : CgenSet fate { front := .ipt, chain } client none d.sys r cgen s')
      (refused : r ≠ .ok) : IptNew fate client chain d r { d with sys := s' }
  | notAttached {r : Ret} {cgen cgen' : BfCgen} {t s' : Sys}
      (load : CgenSet fate { front := .ipt, chain } client none d.sys .ok cgen t)
      (attach : CgenAttach fate cgen client iptHookopts t r cgen' s') (refused : r ≠ .ok) :
      IptNew fate client chain d r { d with sys := s' }
  | conflict {cgen cgen' : BfCgen} {t s' : Sys} {entry : Nat × BfCgen}
      (load : CgenSet fate { front := .ipt, chain } client none d.sys .ok cgen t)
      (attach : CgenAttach fate cgen client iptHookopts t .ok cgen' s')
      (present : findCgen cgen'.chain.name d.cgens = .ok (some entry)) :
      IptNew fate client chain d (.err .eexist) { d with sys := s' }
  | inserted {cgen cgen' : BfCgen} {t s' : Sys}
      (load : CgenSet fate { front := .ipt, chain } client none d.sys .ok cgen t)
      (attach : CgenAttach fate cgen client iptHookopts t .ok cgen' s')
      (absent : findCgen cgen'.chain.name d.cgens = .ok none) :
      IptNew fate client chain d .ok { sys := s', cgens := d.cgens ++ [some cgen'] }

/-- A hook without codegen is loaded, then attached, then inserted, up to a failure. -/
theorem iptNewCgen_runs {fate : Fate} {client : BfNs} {chain : BfChain} {d d' : Daemon}
    {result : Bool × Ret} (valid : bfChainValidate chain = true)
    (ran : iptNewCgen fate client chain d = .ok (result, d')) :
    result.1 = true ∧ ∃ r cgen t, CgenSet fate { front := .ipt, chain } client none d.sys r cgen t ∧
      (r ≠ .ok ∧ result.2 = r ∧ d' = { d with sys := t } ∨
        r = .ok ∧ ∃ r' cgen' s',
          bfCgenAttach fate cgen client iptHookopts t = .ok ((r', cgen'), s') ∧
          (r' ≠ .ok ∧ result.2 = r' ∧ d' = { d with sys := s' } ∨
            r' = .ok ∧ ∃ found, bfCtxSetCgen cgen' { d with sys := s' } = .ok (found, d') ∧
              result.2 = match found with
                | none => .ok
                | some e => .err e)) := by
  unfold iptNewCgen at ran
  obtain ⟨made, t, new, ran⟩ := bind_inv ran
  obtain ⟨sys, acted, rfl⟩ := onSys_inv new
  obtain ⟨rfl, ⟨e, rfl, invalid⟩ | ⟨rfl, -⟩⟩ := bfCgenNew_inv acted
  · rw [valid] at invalid
    cases invalid
  obtain ⟨⟨r, cgen⟩, t, load, ran⟩ := bind_inv ran
  obtain ⟨sys, loaded, rfl⟩ := onSys_inv load
  have set := bfCgenSet_inv (show bfCgenSet fate _ client none d.sys = .ok ((r, cgen), sys) from
    loaded)
  cases r with
  | err e =>
      cases ran
      exact ⟨rfl, _, _, _, set, .inl ⟨Ret.noConfusion, rfl, rfl⟩⟩
  | ok =>
      obtain ⟨⟨r, cgen'⟩, t, attach, ran⟩ := bind_inv ran
      obtain ⟨sys', attached, rfl⟩ := onSys_inv attach
      cases r with
      | err e =>
          cases ran
          exact ⟨rfl, _, _, _, set, .inr ⟨rfl, _, _, _, attached, .inl ⟨Ret.noConfusion, rfl, rfl⟩⟩⟩
      | ok =>
          obtain ⟨found, u, insert, ran⟩ := bind_inv ran
          refine ⟨?_, _, _, _, set, .inr ⟨rfl, _, _, _, attached, .inr ⟨rfl, found, ?_, ?_⟩⟩⟩
          · cases found <;> cases ran <;> rfl
          · cases found <;> cases ran <;> exact insert
          · cases found <;> cases ran <;> rfl

theorem iptNewCgen_outcome {fate : Fate} {client : BfNs} {chain : BfChain} {d d' : Daemon}
    {result : Bool × Ret} (valid : bfChainValidate chain = true)
    (ran : iptNewCgen fate client chain d = .ok (result, d')) :
    result.1 = true ∧ IptNew fate client chain d result.2 d' := by
  obtain ⟨go, status⟩ := result
  obtain ⟨rfl, r, cgen, t, set, ⟨refused, rfl, rfl⟩ | ⟨rfl, r', cgen', s', attached, ran⟩⟩ :=
    iptNewCgen_runs valid ran
  · exact ⟨rfl, .notLoaded set refused⟩
  · have attaching := bfCgenAttach_inv attached
    obtain ⟨refused, rfl, rfl⟩ | ⟨rfl, found, insert, rfl⟩ := ran
    · exact ⟨rfl, .notAttached set attaching refused⟩
    · obtain ⟨rfl, absent, rfl⟩ | ⟨entry, rfl, present, rfl⟩ := bfCtxSetCgen_outcome insert
      · exact ⟨rfl, .inserted set attaching absent⟩
      · exact ⟨rfl, .conflict set attaching present⟩

/-- One turn of the loop, from the status before it to the status after it. -/
inductive IptStep (fates : BfNfInetHook → Fate) (client : BfNs) (cur : CurCgens) (d : Daemon) :
    BfNfInetHook → Option BfChain → Ret → Ret → Daemon → Prop where
  | skipped {hook : BfNfInetHook} {r : Ret} (free : cur hook = none) :
      IptStep fates client cur d hook none r r d
  | dropped {hook : BfNfInetHook} {r : Ret} {i : Nat} (found : cur hook = some i) :
      IptStep fates client cur d hook none r r { d with cgens := d.cgens.set i none }
  | new {hook : BfNfInetHook} {chain : BfChain} {r r' : Ret} {d' : Daemon} (free : cur hook = none)
      (new : IptNew (fates hook) client chain d r' d') :
      IptStep fates client cur d hook (some chain) r r' d'
  | updated {hook : BfNfInetHook} {chain : BfChain} {r r' : Ret} {i : Nat} {cgen cgen' : BfCgen}
      {s' : Sys} (found : cur hook = some i) (at_ : d.cgens[i]? = some (some cgen))
      (update : CgenUpdate (fates hook) cgen chain d.sys r' cgen' s') :
      IptStep fates client cur d hook (some chain) r r'
        { sys := s', cgens := d.cgens.set i (some cgen') }

/-- The status an enabled hook ends with. -/
def iptHook (fates : BfNfInetHook → Fate) (client : BfNs) (cur : CurCgens) (hook : BfNfInetHook)
    (chain : BfChain) : Handle Ret := do
  match cur hook with
  | none => do
      let (_, r) ← iptNewCgen (fates hook) client chain
      pure r
  | some i => do
      match (← get).cgens[i]? with
      | some (some cgen) => do
          let (r, cgen) ← onSys (bfCgenUpdate (fates hook) cgen chain)
          putCgen i (some cgen)
          pure r
      | _ => throw .undefined

/-- A hook that is not enabled loses its codegen. -/
def iptDrop (cur : CurCgens) (hook : BfNfInetHook) (d : Daemon) : Daemon :=
  match cur hook with
  | none => d
  | some i => { d with cgens := d.cgens.set i none }

/-- The statuses the enabled hooks end with, in the order of the loop. -/
def iptOutcomes (fates : BfNfInetHook → Fate) (client : BfNs) (cur : CurCgens) :
    List (BfNfInetHook × Option BfChain) → Daemon → List (BfNfInetHook × BfChain × Ret)
  | [], _ => []
  | (hook, none) :: rest, d => iptOutcomes fates client cur rest (iptDrop cur hook d)
  | (hook, some chain) :: rest, d =>
      match iptHook fates client cur hook chain d with
      | .ok (r, d') => (hook, chain, r) :: iptOutcomes fates client cur rest d'
      | .error _ => []

section Loop

variable {fates : BfNfInetHook → Fate} {client : BfNs} {cur : CurCgens} {hook : BfNfInetHook}
  {rest : List (BfNfInetHook × Option BfChain)} {r r' : Ret} {d d' : Daemon}

theorem iptDrop_step : IptStep fates client cur d hook none r r (iptDrop cur hook d) := by
  unfold iptDrop
  cases found : cur hook with
  | none => exact .skipped found
  | some i => exact .dropped found

/-- A hook that has a codegen updates it where it is. -/
theorem iptHook_found {chain : BfChain} {i : Nat} (found : cur hook = some i)
    (ran : iptHook fates client cur hook chain d = .ok (r', d')) :
    ∃ cgen cgen' s', d.cgens[i]? = some (some cgen) ∧
      bfCgenUpdate (fates hook) cgen chain d.sys = .ok ((r', cgen'), s') ∧
      d' = { sys := s', cgens := d.cgens.set i (some cgen') } := by
  unfold iptHook at ran
  simp only [found] at ran
  rw [bind_run (get_run d)] at ran
  cases live : d.cgens[i]? with
  | none =>
      simp only [live] at ran
      cases ran
  | some stored =>
      cases stored with
      | none =>
          simp only [live] at ran
          cases ran
      | some cgen =>
          simp only [live] at ran
          obtain ⟨⟨r₁, cgen'⟩, t, update, ran⟩ := bind_inv ran
          obtain ⟨sys, updated, rfl⟩ := onSys_inv update
          obtain ⟨_, u, store, ran⟩ := bind_inv ran
          cases store
          cases ran
          exact ⟨cgen, cgen', sys, rfl, updated, rfl⟩

theorem iptHook_free {chain : BfChain} (free : cur hook = none)
    (ran : iptHook fates client cur hook chain d = .ok (r', d')) :
    ∃ go, iptNewCgen (fates hook) client chain d = .ok ((go, r'), d') := by
  unfold iptHook at ran
  simp only [free] at ran
  obtain ⟨⟨go, r₁⟩, t, new, ran⟩ := bind_inv ran
  cases ran
  exact ⟨go, new⟩

theorem iptHook_step {chain : BfChain} (valid : bfChainValidate chain = true)
    (ran : iptHook fates client cur hook chain d = .ok (r', d')) :
    IptStep fates client cur d hook (some chain) r r' d' := by
  cases found : cur hook with
  | none =>
      obtain ⟨go, new⟩ := iptHook_free found ran
      exact .new found (iptNewCgen_outcome valid new).2
  | some i =>
      obtain ⟨cgen, cgen', sys, live, updated, rfl⟩ := iptHook_found found ran
      exact .updated found live (bfCgenUpdate_inv updated)

theorem iptSetHooks_off (r : Ret) (d : Daemon) :
    iptSetHooks fates client cur ((hook, none) :: rest) r d =
      iptSetHooks fates client cur rest r (iptDrop cur hook d) := by
  rw [iptSetHooks.eq_def]
  unfold iptDrop
  cases found : cur hook with
  | none => simp only [found]
  | some i =>
      simp only [found]
      rfl

/-- The turn of an enabled hook is that of its steps. -/
theorem iptSetHooks_on {chain : BfChain} (valid : bfChainValidate chain = true) (r : Ret)
    (d : Daemon) :
    iptSetHooks fates client cur ((hook, some chain) :: rest) r d =
      (iptHook fates client cur hook chain >>= iptSetHooks fates client cur rest) d := by
  rw [iptSetHooks.eq_def]
  unfold iptHook
  cases found : cur hook with
  | none =>
      simp only [found, bind_assoc, pure_bind]
      cases new : iptNewCgen (fates hook) client chain d with
      | error e => rw [bind_error new, bind_error new]
      | ok result =>
          obtain ⟨⟨go, r₁⟩, t⟩ := result
          obtain ⟨rfl, -⟩ := iptNewCgen_outcome valid new
          rw [bind_run new, bind_run new]
          rfl
  | some i =>
      simp only [found, bind_assoc]
      rw [bind_run (get_run d), bind_run (get_run d)]
      cases d.cgens[i]? with
      | none => rfl
      | some stored =>
          cases stored with
          | none => rfl
          | some cgen => simp only [bind_assoc, pure_bind]

end Loop

/-! ## What a step leaves of the codegens -/

theorem CgenAttach.same {fate : Fate} {cgen cgen' : BfCgen} {client : BfNs} {opts : BfHookopts}
    {r : Ret} {s s' : Sys} (attach : CgenAttach fate cgen client opts s r cgen' s') :
    cgen'.chain = cgen.chain ∧ cgen'.front = cgen.front := by
  cases attach <;> exact ⟨rfl, rfl⟩

/-- An update succeeds with the new chain, or leaves the codegen. -/
theorem CgenUpdate.result {fate : Fate} {cgen cgen' : BfCgen} {chain : BfChain} {r : Ret}
    {s s' : Sys} (update : CgenUpdate fate cgen chain s r cgen' s') :
    cgen'.front = cgen.front ∧ (r = .ok ∧ cgen'.chain = chain ∨ r ≠ .ok ∧ cgen' = cgen) := by
  cases update with
  | notBuilt e t state => exact ⟨rfl, .inr ⟨Ret.noConfusion, rfl⟩⟩
  | refused e present made => exact ⟨rfl, .inr ⟨Ret.noConfusion, rfl⟩⟩
  | swapped present made update => exact ⟨rfl, .inl ⟨rfl, rfl⟩⟩

/-- The codegen a new hook ends up with, in the context or not. -/
theorem IptNew.result {fate : Fate} {client : BfNs} {chain : BfChain} {d d' : Daemon} {r : Ret}
    (new : IptNew fate client chain d r d') :
    (r ≠ .ok ∧ d'.cgens = d.cgens) ∨
      r = .ok ∧ ∃ cgen, cgen.front = .ipt ∧ cgen.chain = chain ∧
        d'.cgens = d.cgens ++ [some cgen] := by
  cases new with
  | notLoaded load refused => exact .inl ⟨refused, rfl⟩
  | notAttached load attach refused => exact .inl ⟨refused, rfl⟩
  | conflict load attach present => exact .inl ⟨Ret.noConfusion, rfl⟩
  | inserted load attach absent =>
      refine .inr ⟨rfl, _, ?_, ?_, rfl⟩
      · rw [attach.same.2, load.front]
      · rw [attach.same.1, load.chain]

/-- The table of the loop is right about a hook. -/
def CurAt (cur : CurCgens) (d : Daemon) (hook : BfNfInetHook) : Prop :=
  ∀ i, cur hook = some i ↔ ∃ cgen, IptCgenAt d i hook cgen

/-- The context holds an iptables codegen of a chain. -/
def Daemon.EnforcesIpt (d : Daemon) (chain : BfChain) : Prop :=
  ∃ cgen, some cgen ∈ d.cgens ∧ cgen.front = .ipt ∧ cgen.chain = chain

theorem enforcesIpt_iff {d : Daemon} {chain : BfChain} {hook : BfNfInetHook}
    (ipt : chain.hook = bfHookFromNfHook hook) :
    d.EnforcesIpt chain ↔ ∃ i cgen, IptCgenAt d i hook cgen ∧ cgen.chain = chain := by
  constructor
  · rintro ⟨cgen, mem, front, rfl⟩
    obtain ⟨i, at_⟩ := List.getElem?_of_mem mem
    exact ⟨i, cgen, ⟨at_, front, by rw [ipt, bfHookToNfHook_from]⟩, rfl⟩
  · rintro ⟨i, cgen, ⟨at_, front, -⟩, same⟩
    exact ⟨cgen, List.mem_of_getElem? at_, front, same⟩

/-- A position that is replaced, seen from a codegen of another hook. -/
theorem iptCgenAt_set {d : Daemon} {s : Sys} {i j : Nat} {hook other : BfNfInetHook}
    {old cgen : BfCgen} {entry : Option BfCgen} (there : IptCgenAt d i hook old)
    (differs : other ≠ hook)
    (new : ∀ c, entry = some c → c.front = .ipt → bfHookToNfHook c.chain.hook = some hook) :
    IptCgenAt { sys := s, cgens := d.cgens.set i entry } j other cgen ↔
      IptCgenAt d j other cgen := by
  obtain ⟨at_, -, nf⟩ := there
  have inside := (List.getElem?_eq_some_iff.mp at_).1
  unfold IptCgenAt
  simp only [List.getElem?_set]
  by_cases same : i = j
  · subst same
    rw [if_pos rfl, if_pos inside]
    constructor
    · rintro ⟨stored, front, here⟩
      have clash := new cgen (Option.some.inj stored) front
      cases here.symm.trans clash
      exact absurd rfl differs
    · rintro ⟨stored, -, here⟩
      cases stored.symm.trans at_
      cases here.symm.trans nf
      exact absurd rfl differs
  · rw [if_neg same]

/-- A codegen of one hook that is appended, seen from another hook. -/
theorem iptCgenAt_append {d d' : Daemon} {j : Nat} {hook other : BfNfInetHook}
    {cgen new : BfCgen} (appended : d'.cgens = d.cgens ++ [some new])
    (nf : bfHookToNfHook new.chain.hook = some hook) (differs : other ≠ hook) :
    IptCgenAt d' j other cgen ↔ IptCgenAt d j other cgen := by
  unfold IptCgenAt
  rw [appended]
  rcases Nat.lt_trichotomy j d.cgens.length with before | last | after
  · rw [List.getElem?_append_left before]
  · subst last
    rw [List.getElem?_concat_length, List.getElem?_eq_none (Nat.le_refl _)]
    constructor
    · rintro ⟨stored, -, here⟩
      cases stored
      cases here.symm.trans nf
      exact absurd rfl differs
    · rintro ⟨stored, -, -⟩
      cases stored
  · rw [List.getElem?_eq_none (by simp; omega), List.getElem?_eq_none (by omega)]

section Frame

variable {fates : BfNfInetHook → Fate} {client : BfNs} {cur : CurCgens} {hook : BfNfInetHook}
  {r r' : Ret} {d d' : Daemon}

/-- A turn of the loop leaves the codegens of the other hooks. -/
theorem IptStep.frame {chain : Option BfChain}
    (step : IptStep fates client cur d hook chain r r' d') (table : CurAt cur d hook)
    (ipt : ∀ c, chain = some c → c.hook = bfHookFromNfHook hook) {other : BfNfInetHook}
    (differs : other ≠ hook) (j : Nat) (cgen : BfCgen) :
    IptCgenAt d' j other cgen ↔ IptCgenAt d j other cgen := by
  cases step with
  | skipped free => exact Iff.rfl
  | dropped found =>
      obtain ⟨old, there⟩ := (table _).mp found
      exact iptCgenAt_set there differs fun c same => by cases same
  | new free new =>
      obtain ⟨-, same⟩ | ⟨-, made, front, chain, appended⟩ := new.result
      · unfold IptCgenAt
        rw [same]
      · exact iptCgenAt_append appended (by rw [chain, ipt _ rfl, bfHookToNfHook_from]) differs
  | updated found at_ update =>
      obtain ⟨old, there⟩ := (table _).mp found
      cases there.1.symm.trans at_
      refine iptCgenAt_set there differs fun c same _ => ?_
      cases same
      obtain ⟨-, ⟨-, chain⟩ | ⟨-, rfl⟩⟩ := update.result
      · rw [chain, ipt _ rfl, bfHookToNfHook_from]
      · exact there.2.2

/-- A turn for an enabled hook leaves its chain in the context if it succeeds, and
what was there if it fails. -/
theorem IptStep.enforces {chain : BfChain}
    (step : IptStep fates client cur d hook (some chain) r r' d') (table : CurAt cur d hook) :
    d'.EnforcesIpt chain ↔ r' = .ok ∨ d.EnforcesIpt chain := by
  cases step with
  | new free new =>
      obtain ⟨failed, same⟩ | ⟨done, made, front, chain, appended⟩ := new.result
      · unfold Daemon.EnforcesIpt
        rw [same]
        exact ⟨.inr, fun either => either.resolve_left failed⟩
      · refine ⟨fun _ => .inl done, fun _ => ⟨made, ?_, front, chain⟩⟩
        rw [appended]
        exact List.mem_append_right _ List.mem_cons_self
  | @updated _ _ _ i cgen cgen' s' found at_ update =>
      obtain ⟨old, there⟩ := (table _).mp found
      cases there.1.symm.trans at_
      obtain ⟨inside, value⟩ := List.getElem?_eq_some_iff.mp at_
      obtain ⟨front, ⟨done, chain⟩ | ⟨failed, rfl⟩⟩ := update.result
      · refine ⟨fun _ => .inl done, fun _ => ⟨_, List.mem_set inside _, ?_, chain⟩⟩
        rw [front]
        exact there.2.1
      · have same : d.cgens.set i (some cgen') = d.cgens := by
          rw [← value]
          exact List.set_getElem_self inside
        unfold Daemon.EnforcesIpt
        rw [same]
        exact ⟨.inr, fun either => either.resolve_left failed⟩

/-- A step on one hook does not change what is enforced on another. -/
theorem enforcesIpt_congr {other : BfNfInetHook} {chain : BfChain}
    (ipt : chain.hook = bfHookFromNfHook other)
    (frame : ∀ j cgen, IptCgenAt d' j other cgen ↔ IptCgenAt d j other cgen) :
    d'.EnforcesIpt chain ↔ d.EnforcesIpt chain := by
  rw [enforcesIpt_iff ipt, enforcesIpt_iff ipt]
  exact exists_congr fun j => exists_congr fun cgen => and_congr (frame j cgen) Iff.rfl

end Frame

/-! ## The loop -/

/-- What the loop knows of the hooks ahead. -/
structure IptAhead (cur : CurCgens) (d : Daemon) (chains : List (BfNfInetHook × Option BfChain)) :
    Prop where
  distinct : (chains.map Prod.fst).Nodup
  table : ∀ entry ∈ chains, CurAt cur d entry.1
  hooks : ∀ entry ∈ chains, ∀ chain, entry.2 = some chain →
    bfChainValidate chain = true ∧ chain.hook = bfHookFromNfHook entry.1

/-- What a run of the loop leaves: its status is that of the last enabled hook, and
an enabled hook has its chain if it succeeded or had it before. -/
structure IptLeaves (d d' : Daemon) (chains : List (BfNfInetHook × Option BfChain))
    (outcomes : List (BfNfInetHook × BfChain × Ret)) (r r' : Ret) : Prop where
  status : r' = (outcomes.getLast?.map fun outcome => outcome.2.2).getD r
  enabled : ∀ hook chain, (hook, some chain) ∈ chains ↔ ∃ r, (hook, chain, r) ∈ outcomes
  enforced : ∀ hook chain r, (hook, chain, r) ∈ outcomes →
    (d'.EnforcesIpt chain ↔ r = .ok ∨ d.EnforcesIpt chain)
  others : ∀ hook, hook ∉ chains.map Prod.fst → ∀ j cgen,
    IptCgenAt d' j hook cgen ↔ IptCgenAt d j hook cgen

theorem IptAhead.tail {cur : CurCgens} {d d₁ : Daemon} {hook : BfNfInetHook}
    {chain : Option BfChain} {rest : List (BfNfInetHook × Option BfChain)}
    (ahead : IptAhead cur d ((hook, chain) :: rest))
    (frame : ∀ other ≠ hook, ∀ j cgen, IptCgenAt d₁ j other cgen ↔ IptCgenAt d j other cgen) :
    IptAhead cur d₁ rest := by
  obtain ⟨distinct, table, hooks⟩ := ahead
  rw [List.map_cons, List.nodup_cons] at distinct
  refine ⟨distinct.2, ?_, fun entry mem => hooks entry (List.mem_cons_of_mem _ mem)⟩
  intro entry mem i
  have differs : entry.1 ≠ hook := by
    intro same
    have listed : entry.1 ∈ rest.map Prod.fst := List.mem_map_of_mem mem
    rw [same] at listed
    exact distinct.1 listed
  rw [table entry (List.mem_cons_of_mem _ mem) i]
  exact exists_congr fun cgen => (frame entry.1 differs i cgen).symm

section Before

variable {cur : CurCgens} {d d₁ d' : Daemon} {hook : BfNfInetHook} {chain : Option BfChain}
  {rest : List (BfNfInetHook × Option BfChain)} {outcomes : List (BfNfInetHook × BfChain × Ret)}
  {r r' : Ret}

/-- What the later turns enforce, seen from before the first one. -/
theorem IptLeaves.enforced_before (later : IptLeaves d₁ d' rest outcomes r r')
    (ahead : IptAhead cur d ((hook, chain) :: rest))
    (frame : ∀ other ≠ hook, ∀ j cgen, IptCgenAt d₁ j other cgen ↔ IptCgenAt d j other cgen)
    {other : BfNfInetHook} {chain' : BfChain} {r₂ : Ret} (mem : (other, chain', r₂) ∈ outcomes) :
    d'.EnforcesIpt chain' ↔ r₂ = .ok ∨ d.EnforcesIpt chain' := by
  have listed := (later.enabled other chain').mpr ⟨r₂, mem⟩
  have differs : other ≠ hook := by
    rintro rfl
    have twice : other ∈ rest.map Prod.fst := List.mem_map_of_mem listed
    exact (List.nodup_cons.mp ahead.distinct).1 twice
  have ipt := (ahead.hooks _ (List.mem_cons_of_mem _ listed) chain' rfl).2
  rw [later.enforced other chain' r₂ mem, enforcesIpt_congr ipt (frame other differs)]

/-- The hooks of no turn keep what they have. -/
theorem IptLeaves.others_before (later : IptLeaves d₁ d' rest outcomes r r')
    (frame : ∀ other ≠ hook, ∀ j cgen, IptCgenAt d₁ j other cgen ↔ IptCgenAt d j other cgen)
    {other : BfNfInetHook} (absent : other ∉ ((hook, chain) :: rest).map Prod.fst) (j : Nat)
    (cgen : BfCgen) : IptCgenAt d' j other cgen ↔ IptCgenAt d j other cgen := by
  rw [List.map_cons, List.mem_cons, not_or] at absent
  exact (later.others other absent.2 j cgen).trans (frame other absent.1 j cgen)

end Before

theorem iptSetHooks_leaves {fates : BfNfInetHook → Fate} {client : BfNs} {cur : CurCgens}
    {chains : List (BfNfInetHook × Option BfChain)} {d d' : Daemon} {r r' : Ret}
    (ahead : IptAhead cur d chains)
    (ran : iptSetHooks fates client cur chains r d = .ok (r', d')) :
    IptLeaves d d' chains (iptOutcomes fates client cur chains d) r r' := by
  induction chains generalizing d r with
  | nil =>
      cases ran
      exact ⟨rfl, fun _ _ => by simp [iptOutcomes], fun _ _ _ mem => absurd mem List.not_mem_nil,
        fun _ _ _ _ => Iff.rfl⟩
  | cons head rest ih =>
      obtain ⟨hook, chain⟩ := head
      have table := ahead.table _ List.mem_cons_self
      cases chain with
      | none =>
          have dropping : IptStep fates client cur d hook none r r (iptDrop cur hook d) :=
            iptDrop_step
          have frame (other : BfNfInetHook) (differs : other ≠ hook) :=
            dropping.frame table (fun c same => by cases same) differs
          have later := ih (ahead.tail frame) (by rwa [iptSetHooks_off] at ran)
          refine ⟨later.status, ?_, fun other chain r₁ mem => later.enforced_before ahead frame mem,
            fun other absent => later.others_before frame absent⟩
          intro other chain
          rw [iptOutcomes, ← later.enabled other chain]
          simp
      | some chain =>
          obtain ⟨valid, ipt⟩ := ahead.hooks _ List.mem_cons_self chain rfl
          rw [iptSetHooks_on valid] at ran
          obtain ⟨r₁, d₁, one, ran⟩ := bind_inv ran
          have turn : IptStep fates client cur d hook (some chain) r r₁ d₁ := iptHook_step valid one
          have frame (other : BfNfInetHook) (differs : other ≠ hook) :=
            turn.frame table (fun c same => by cases same; exact ipt) differs
          have later := ih (ahead.tail frame) ran
          have outcomes : iptOutcomes fates client cur ((hook, some chain) :: rest) d =
              (hook, chain, r₁) :: iptOutcomes fates client cur rest d₁ := by
            rw [iptOutcomes, one]
          rw [outcomes]
          refine ⟨?_, ?_, ?_, fun other absent => later.others_before frame absent⟩
          · rw [later.status, List.getLast?_cons]
            cases (iptOutcomes fates client cur rest d₁).getLast? <;> rfl
          · intro other chain'
            simp only [List.mem_cons, Prod.mk.injEq, Option.some.injEq, later.enabled other chain']
            constructor
            · rintro (⟨rfl, rfl⟩ | ⟨r₂, mem⟩)
              · exact ⟨r₁, .inl ⟨rfl, rfl, rfl⟩⟩
              · exact ⟨r₂, .inr mem⟩
            · rintro ⟨r₂, ⟨rfl, rfl, rfl⟩ | mem⟩
              · exact .inl ⟨rfl, rfl⟩
              · exact .inr ⟨r₂, mem⟩
          · intro other chain' r₂ mem
            obtain same | mem := List.mem_cons.mp mem
            · -- the hook of this turn: the later turns are about other hooks
              cases same
              rw [enforcesIpt_congr ipt
                (later.others hook (List.nodup_cons.mp ahead.distinct).1)]
              exact turn.enforces table
            · exact later.enforced_before ahead frame mem

/-! ## The status of a request -/

/-- Every enabled hook has the chain translated from the request. -/
def IptEnforced (replace : IptReplace) (d : Daemon) : Prop :=
  ∃ chains, bfIptXlateRulesetSet replace bfNfInetHooks = .ok chains ∧
    ∀ hook chain, (hook, some chain) ∈ chains → d.EnforcesIpt chain

/-- The context holds two iptables codegens of one hook, so no hook of the request is
touched. -/
def IptRefused (replace : IptReplace) (d : Daemon) : Prop :=
  (∃ chains, bfIptXlateRulesetSet replace bfNfInetHooks = .ok chains) ∧
    ∃ e, collectCgens 0 d.cgens (fun _ => none) = .ok (.error e)

/-- Every enabled hook with one status. -/
def iptAllFail (chains : List (BfNfInetHook × Option BfChain)) (e : Errno) :
    List (BfNfInetHook × BfChain × Ret) :=
  chains.filterMap fun entry => entry.2.map fun chain => (entry.1, chain, .err e)

/-- The status each enabled hook ends with: of generation, load, attach and insertion
for a hook without codegen, of the update for one with. -/
def iptStatuses (fates : BfNfInetHook → Fate) (client : BfNs) (replace : IptReplace) (d : Daemon) :
    List (BfNfInetHook × BfChain × Ret) :=
  match bfIptXlateRulesetSet replace bfNfInetHooks, collectCgens 0 d.cgens (fun _ => none) with
  | .ok chains, .ok (.ok cur) => iptOutcomes fates client cur chains d
  | .ok chains, .ok (.error e) => iptAllFail chains e
  | _, _ => []

/-- The last enabled hook fails. -/
def LastFails (statuses : List (BfNfInetHook × BfChain × Ret)) : Prop :=
  ∃ status, statuses.getLast? = some status ∧ status.2.2 ≠ .ok

/-- An enabled hook fails, and did not have its chain already. -/
def LeftOut (d : Daemon) (statuses : List (BfNfInetHook × BfChain × Ret)) : Prop :=
  ∃ status ∈ statuses, status.2.2 ≠ .ok ∧ ¬ d.EnforcesIpt status.2.1

/-- What is in force after the statuses of a request. -/
theorem leftOut_iff {replace : IptReplace} {d d' : Daemon}
    {chains : List (BfNfInetHook × Option BfChain)}
    {statuses : List (BfNfInetHook × BfChain × Ret)}
    (xlate : bfIptXlateRulesetSet replace bfNfInetHooks = .ok chains)
    (enabled : ∀ hook chain, (hook, some chain) ∈ chains ↔ ∃ r, (hook, chain, r) ∈ statuses)
    (enforced : ∀ hook chain r, (hook, chain, r) ∈ statuses →
      (d'.EnforcesIpt chain ↔ r = .ok ∨ d.EnforcesIpt chain)) :
    LeftOut d statuses ↔ ¬ IptEnforced replace d' := by
  constructor
  · rintro ⟨⟨hook, chain, r⟩, listed, failed, absent⟩ ⟨chains', xlate', holds⟩
    cases xlate.symm.trans xlate'
    have there := holds hook chain ((enabled hook chain).mpr ⟨r, listed⟩)
    rw [enforced hook chain r listed] at there
    exact there.elim failed absent
  · intro missing
    by_contra whole
    refine missing ⟨chains, xlate, ?_⟩
    intro hook chain mem
    obtain ⟨r, listed⟩ := (enabled hook chain).mp mem
    rw [enforced hook chain r listed]
    by_contra neither
    rw [not_or] at neither
    exact whole ⟨_, listed, neither⟩

theorem iptAhead_of_collect {replace : IptReplace} {d : Daemon} {cur : CurCgens}
    {chains : List (BfNfInetHook × Option BfChain)}
    (xlate : bfIptXlateRulesetSet replace bfNfInetHooks = .ok chains)
    (collect : collectCgens 0 d.cgens (fun _ => none) = .ok (.ok cur)) : IptAhead cur d chains := by
  obtain ⟨names, -, translated⟩ := bfIptXlateRulesetSet_chain xlate
  refine ⟨?_, ?_, ?_⟩
  · rw [names]
    decide
  · intro entry mem i
    rw [collectCgens_iff collect entry.1 i]
    constructor
    · rintro (absurd | ⟨k, cgen, rfl, at_, front, nf⟩)
      · cases absurd
      · exact ⟨cgen, by rwa [Nat.zero_add], front, nf⟩
    · rintro ⟨cgen, at_, front, nf⟩
      exact .inr ⟨i, cgen, (Nat.zero_add i).symm, at_, front, nf⟩
  · intro entry mem chain same
    obtain ⟨hook, _⟩ := entry
    cases same
    obtain ⟨entries, -, made⟩ := translated hook chain mem
    have ipt := bfIptEntriesToChain_inv made
    exact ⟨ipt.valid, ipt.hook⟩

/-- A request of the right size fails without touching a hook, or runs its loop. -/
theorem bfIptRulesetSet_cases {fates : BfNfInetHook → Fate} {client : BfNs} {replace : IptReplace}
    {d d' : Daemon} {r : Ret} (sized : replace.sizeOk = true)
    (ran : bfIptRulesetSet fates client replace d = .ok (r, d')) :
    (∃ e, bfIptXlateRulesetSet replace bfNfInetHooks = .error e ∧ r ≠ .ok) ∨
      ∃ chains, bfIptXlateRulesetSet replace bfNfInetHooks = .ok chains ∧
        ((∃ e, collectCgens 0 d.cgens (fun _ => none) = .ok (.error e) ∧ r ≠ .ok ∧ d' = d) ∨
          ∃ cur, collectCgens 0 d.cgens (fun _ => none) = .ok (.ok cur) ∧
            iptSetHooks fates client cur chains .ok d = .ok (r, d')) := by
  unfold bfIptRulesetSet at ran
  simp only [sized] at ran
  cases xlate : bfIptXlateRulesetSet replace bfNfInetHooks with
  | error e =>
      refine .inl ⟨e, rfl, ?_⟩
      simp only [xlate] at ran
      cases e with
      | errno e =>
          cases ran
          exact Ret.noConfusion
      | abort => cases ran
      | undefined => cases ran
  | ok chains =>
      refine .inr ⟨chains, rfl, ?_⟩
      simp only [xlate] at ran
      rw [Bool.not_true, if_neg Bool.false_ne_true, bind_run (get_run d)] at ran
      cases collect : collectCgens 0 d.cgens (fun _ => none) with
      | error e =>
          simp only [collect] at ran
          cases ran
      | ok result =>
          simp only [collect] at ran
          cases result with
          | error e =>
              cases ran
              exact .inl ⟨e, rfl, Ret.noConfusion, rfl⟩
          | ok cur => exact .inr ⟨cur, rfl, ran⟩

/-- The loop ends when the steps of every enabled hook do. -/
theorem iptSetHooks_ends {fates : BfNfInetHook → Fate} {client : BfNs} {cur : CurCgens}
    {chains : List (BfNfInetHook × Option BfChain)} {d : Daemon} (r : Ret)
    (distinct : (chains.map Prod.fst).Nodup)
    (valid : ∀ hook chain, (hook, some chain) ∈ chains → bfChainValidate chain = true)
    (ended : ∀ hook chain, (hook, some chain) ∈ chains →
      ∃ status, (hook, chain, status) ∈ iptOutcomes fates client cur chains d) :
    ∃ r' d', iptSetHooks fates client cur chains r d = .ok (r', d') := by
  induction chains generalizing d r with
  | nil => exact ⟨r, d, rfl⟩
  | cons head rest ih =>
      obtain ⟨hook, chain⟩ := head
      obtain ⟨fresh, later⟩ := List.nodup_cons.mp distinct
      have valid' (other : BfNfInetHook) (chain : BfChain) (mem : (other, some chain) ∈ rest) :=
        valid other chain (List.mem_cons_of_mem _ mem)
      cases chain with
      | none =>
          rw [iptSetHooks_off]
          refine ih r later valid' fun other chain mem => ?_
          exact ended other chain (List.mem_cons_of_mem _ mem)
      | some chain =>
          cases one : iptHook fates client cur hook chain d with
          | error e =>
              -- Nothing is recorded from a turn that does not end.
              obtain ⟨status, listed⟩ := ended hook chain List.mem_cons_self
              rw [iptOutcomes, one] at listed
              cases listed
          | ok result =>
              obtain ⟨r₁, d₁⟩ := result
              rw [iptSetHooks_on (valid hook chain List.mem_cons_self), bind_run one]
              refine ih r₁ later valid' fun other chain' mem => ?_
              obtain ⟨status, listed⟩ := ended other chain' (List.mem_cons_of_mem _ mem)
              rw [iptOutcomes, one] at listed
              obtain same | listed := List.mem_cons.mp listed
              · cases same
                exact absurd (List.mem_map_of_mem mem) fresh
              · exact ⟨status, listed⟩

/-- What a request needs to return: its rules are translated or refused, the codegens of the context
can be read, and the steps of each enabled hook end. -/
structure IptReturns (fates : BfNfInetHook → Fate) (client : BfNs) (replace : IptReplace)
    (d : Daemon) : Prop where
  translated : ∀ e, bfIptXlateRulesetSet replace bfNfInetHooks = .error e → ∃ errno, e = .errno errno
  read : ∀ chains, bfIptXlateRulesetSet replace bfNfInetHooks = .ok chains →
    ∃ found, collectCgens 0 d.cgens (fun _ => none) = .ok found
  ended : ∀ chains, bfIptXlateRulesetSet replace bfNfInetHooks = .ok chains →
    ∀ hook chain, (hook, some chain) ∈ chains →
      ∃ status, (hook, chain, status) ∈ iptStatuses fates client replace d

theorem mem_iptAllFail {chains : List (BfNfInetHook × Option BfChain)} {e : Errno}
    (hook : BfNfInetHook) (chain : BfChain) :
    (hook, some chain) ∈ chains ↔ ∃ status, (hook, chain, status) ∈ iptAllFail chains e := by
  simp [iptAllFail]

theorem iptReturns_of_run {fates : BfNfInetHook → Fate} {client : BfNs} {replace : IptReplace}
    {d d' : Daemon} {r : Ret} (sized : replace.sizeOk = true)
    (ran : bfIptRulesetSet fates client replace d = .ok (r, d')) :
    IptReturns fates client replace d := by
  obtain ⟨e, xlate, -⟩ | ⟨chains, xlate, ⟨e, collect, -, -⟩ | ⟨cur, collect, loop⟩⟩ :=
    bfIptRulesetSet_cases sized ran
  · refine ⟨fun e' same => ?_, fun chains same => ?_, fun chains same => ?_⟩
    · cases xlate.symm.trans same
      unfold bfIptRulesetSet at ran
      simp only [sized, xlate] at ran
      cases e with
      | errno e => exact ⟨e, rfl⟩
      | abort => cases ran
      | undefined => cases ran
    · cases xlate.symm.trans same
    · cases xlate.symm.trans same
  · refine ⟨fun e' same => ?_, fun _ _ => ⟨_, collect⟩, fun chains' same hook chain mem => ?_⟩
    · cases xlate.symm.trans same
    · cases xlate.symm.trans same
      simp only [iptStatuses, xlate, collect]
      exact (mem_iptAllFail hook chain).mp mem
  · refine ⟨fun e' same => ?_, fun _ _ => ⟨_, collect⟩, fun chains' same hook chain mem => ?_⟩
    · cases xlate.symm.trans same
    · cases xlate.symm.trans same
      simp only [iptStatuses, xlate, collect]
      obtain ⟨-, enabled, -, -⟩ := iptSetHooks_leaves (iptAhead_of_collect xlate collect) loop
      exact (enabled hook chain).mp mem

theorem IptReturns.run {fates : BfNfInetHook → Fate} {client : BfNs} {replace : IptReplace}
    {d : Daemon} (returns : IptReturns fates client replace d) (sized : replace.sizeOk = true) :
    ∃ r d', bfIptRulesetSet fates client replace d = .ok (r, d') := by
  unfold bfIptRulesetSet
  rw [sized, Bool.not_true, if_neg Bool.false_ne_true]
  cases xlate : bfIptXlateRulesetSet replace bfNfInetHooks with
  | error e =>
      obtain ⟨errno, rfl⟩ := returns.translated e xlate
      exact ⟨_, _, rfl⟩
  | ok chains =>
      obtain ⟨found, collect⟩ := returns.read chains xlate
      simp only
      rw [bind_run (get_run d)]
      simp only [collect]
      cases found with
      | error e => exact ⟨_, _, rfl⟩
      | ok cur =>
          have ahead := iptAhead_of_collect xlate collect
          refine iptSetHooks_ends .ok ahead.distinct ?_ ?_
          · exact fun hook chain mem => (ahead.hooks _ mem chain rfl).1
          · have ended := returns.ended chains xlate
            simp only [iptStatuses, xlate, collect] at ended
            exact ended

/-- What the status of a request that returned means. -/
theorem ipt_status_of_run {fates : BfNfInetHook → Fate} {client : BfNs} {replace : IptReplace}
    {d d' : Daemon} {r : Ret} (sized : replace.sizeOk = true)
    (ran : bfIptRulesetSet fates client replace d = .ok (r, d')) :
    (r = .ok ↔ IptEnforced replace d') ↔
      (IptRefused replace d ∨ LastFails (iptStatuses fates client replace d) ↔
        LeftOut d (iptStatuses fates client replace d)) := by
  obtain ⟨e, xlate, failed⟩ | ⟨chains, xlate, outcome⟩ := bfIptRulesetSet_cases sized ran
  · -- nothing is translated: the request fails and there is nothing to enforce
    have none : ¬ IptEnforced replace d' := by
      rintro ⟨chains, translated, -⟩
      rw [xlate] at translated
      cases translated
    simp [iptStatuses, IptRefused, xlate, LastFails, LeftOut, failed, none]
  obtain ⟨e, collect, failed, rfl⟩ | ⟨cur, collect, loop⟩ := outcome
  · have statuses : iptStatuses fates client replace d' = iptAllFail chains e := by
      simp only [iptStatuses, xlate, collect]
    have refused : IptRefused replace d' := ⟨⟨chains, xlate⟩, e, collect⟩
    have inForce : LeftOut d' (iptAllFail chains e) ↔ ¬ IptEnforced replace d' := by
      apply leftOut_iff xlate mem_iptAllFail
      · intro hook chain r listed
        obtain ⟨⟨_, _⟩, -, same⟩ := List.mem_filterMap.mp listed
        obtain ⟨_, -, same⟩ := Option.map_eq_some_iff.mp same
        cases same
        simp
    rw [statuses, inForce]
    simp [refused, failed]
  · have statuses : iptStatuses fates client replace d = iptOutcomes fates client cur chains d := by
      simp only [iptStatuses, xlate, collect]
    have accepted : ¬ IptRefused replace d := by
      rintro ⟨-, e, other⟩
      cases collect.symm.trans other
    obtain ⟨status, enabled, enforced, -⟩ :=
      iptSetHooks_leaves (iptAhead_of_collect xlate collect) loop
    have returned : LastFails (iptOutcomes fates client cur chains d) ↔ r ≠ .ok := by
      rw [status]
      unfold LastFails
      cases (iptOutcomes fates client cur chains d).getLast? <;> simp
    rw [statuses, leftOut_iff xlate enabled enforced, returned, or_iff_right accepted]
    exact not_iff_not.symm

/-- The request returns, and success for exactly the rulesets that are in force afterwards. -/
def IptReports (fates : BfNfInetHook → Fate) (client : BfNs) (replace : IptReplace) (d : Daemon) :
    Prop :=
  ∃ r d', bfIptRulesetSet fates client replace d = .ok (r, d') ∧ (r = .ok ↔ IptEnforced replace d')

/-- **When the status is right.**  For every context and every request of the right size, the
request returns success for exactly the rulesets that are in force afterwards if and only if it
returns and this agrees: some enabled hook is left without its chain, and the request is refused or
its last enabled hook fails. -/
theorem ipt_status_iff {fates : BfNfInetHook → Fate} {client : BfNs} {replace : IptReplace}
    {d : Daemon} (sized : replace.sizeOk = true) :
    IptReports fates client replace d ↔ IptReturns fates client replace d ∧
      (IptRefused replace d ∨ LastFails (iptStatuses fates client replace d) ↔
        LeftOut d (iptStatuses fates client replace d)) := by
  constructor
  · rintro ⟨r, d', ran, right⟩
    exact ⟨iptReturns_of_run sized ran, (ipt_status_of_run sized ran).mp right⟩
  · rintro ⟨returns, agrees⟩
    obtain ⟨r, d', ran⟩ := returns.run sized
    exact ⟨r, d', ran, (ipt_status_of_run sized ran).mpr agrees⟩

/-! Rulesets for two hooks; the first hook's link is refused. -/

def inputAndForward : IptReplace where
  hooks hook := if hook = .localIn ∨ hook = .forward then some acceptAll else none

def inputRefused (hook : BfNfInetHook) : Fate :=
  if hook = .localIn then { linkCreate := some .eperm } else {}

/-- Both hooks set, and reported so. -/
theorem two_hooks_reported : IptReports (fun _ => {}) ⟨1, 1⟩ inputAndForward iptDaemon := by
  have passes : Passes (bfIptRulesetSet (fun _ => {}) ⟨1, 1⟩ inputAndForward) iptDaemon
      (fun _ _ => (iptStatuses (fun _ => {}) ⟨1, 1⟩ inputAndForward iptDaemon).all
        fun status => status.2.2 = .ok) = true := by decide +kernel
  obtain ⟨r, d', ran, test⟩ := passes_inv passes
  simp only [List.all_eq_true, decide_eq_true_eq] at test
  have last : ¬ LastFails (iptStatuses (fun _ => {}) ⟨1, 1⟩ inputAndForward iptDaemon) := by
    rintro ⟨status, last, failed⟩
    exact failed (test status (List.mem_of_getLast? last))
  have leftOut : ¬ LeftOut iptDaemon
      (iptStatuses (fun _ => {}) ⟨1, 1⟩ inputAndForward iptDaemon) := by
    rintro ⟨status, mem, failed, -⟩
    exact failed (test status mem)
  have refused : ¬ IptRefused inputAndForward iptDaemon := by
    rintro ⟨-, e, collect⟩
    cases collect
  exact (ipt_status_iff rfl).mpr ⟨iptReturns_of_run rfl ran,
    iff_of_false (not_or.mpr ⟨refused, last⟩) leftOut⟩

/-- The chain of the input hook cannot be attached and is skipped; the forward hook
is set after it, and the request succeeds. -/
theorem failed_hook_reported_as_success :
    ¬ ∀ (host : Host) (persist : Bool) (own client : BfNs) (paths : Nat → Paths) (d : Daemon)
      (fates : BfNfInetHook → Fate) (replace : IptReplace),
      Run step (fun _ _ => True) (.init host persist own paths) d → replace.sizeOk = true →
      IptReports fates client replace d := by
  intro reports
  have passes : Passes (bfIptRulesetSet inputRefused ⟨1, 1⟩ inputAndForward) iptDaemon
      (fun r d' => r = .ok && d'.cgens.all fun entry =>
        entry.all fun cgen => decide (cgen.chain.hook ≠ .nfLocalIn)) = true := by decide +kernel
  obtain ⟨r, d', ran, test⟩ := passes_inv passes
  simp only [Bool.and_eq_true, decide_eq_true_eq, List.all_eq_true] at test
  obtain ⟨done, absent⟩ := test
  obtain ⟨r', d'', ran', right⟩ :=
    reports sampleHost true ⟨1, 1⟩ ⟨1, 1⟩ plainPaths iptDaemon inputRefused inputAndForward .refl rfl
  cases ran.symm.trans ran'
  obtain ⟨chains, xlate, holds⟩ := right.mp done
  obtain ⟨names, off, translated⟩ := bfIptXlateRulesetSet_chain xlate
  have listed : BfNfInetHook.localIn ∈ chains.map Prod.fst := by
    rw [names]
    decide
  obtain ⟨⟨hook, chain⟩, mem, same⟩ := List.mem_map.mp listed
  cases same
  cases chain with
  | none => exact absurd ((off _).mp mem).2 (by decide)
  | some chain =>
      obtain ⟨entries, -, made⟩ := translated _ chain mem
      obtain ⟨cgen, there, -, rfl⟩ := holds _ chain mem
      have hook := absent _ there
      rw [Option.all_some, decide_eq_true_eq] at hook
      exact hook (bfIptEntriesToChain_inv made).hook

end Bpfilter
