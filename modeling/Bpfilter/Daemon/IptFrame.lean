/-
# Daemon.IptFrame -- what an iptables request does to the other hooks

A ruleset replacement names the hooks it sets; the codegens of the others should
stay as they are.  They do not: the hook loop owns the codegen of each hook through a
cleanup attribute, and the branch of a hook without chain leaves without taking it
back, so the codegen is freed while the context still refers to it.

`iptRulesetSet_frame_iff` says when the frame holds: when the request is refused
before its loop, or no codegen has a hook the request leaves out.
-/
import Bpfilter.Daemon.Requests
import Bpfilter.Cgen.Sequencing

namespace Bpfilter

set_option autoImplicit false

open Hoare

/-- The codegen at a position of the context belongs to the iptables front end and to a hook. -/
def IptCgenAt (d : Daemon) (i : Nat) (hook : BfNfInetHook) (cgen : BfCgen) : Prop :=
  d.cgens[i]? = some (some cgen) ∧ cgen.front = .ipt ∧ bfHookToNfHook cgen.chain.hook = some hook

/-- Every iptables codegen of a hook the request does not enable is still there, unchanged. -/
def FramesOthers (replace : IptReplace) (d d' : Daemon) : Prop :=
  ∀ i hook cgen, IptCgenAt d i hook cgen → iptIsHookEnabled replace hook = false →
    d'.cgens[i]? = some (some cgen)

/-- The request gets to its hook loop. -/
def IptAccepted (replace : IptReplace) (d : Daemon) : Prop :=
  replace.sizeOk = true ∧ (∃ chains, bfIptXlateRulesetSet replace bfNfInetHooks = .ok chains) ∧
    ∃ cur, collectCgens 0 d.cgens (fun _ => none) = .ok (.ok cur)

/-! ## The codegens the loop starts from -/

theorem collectCgens_iff {cgens : List (Option BfCgen)} {i : Nat} {cur cur' : CurCgens}
    (ran : collectCgens i cgens cur = .ok (.ok cur')) (hook : BfNfInetHook) (j : Nat) :
    cur' hook = some j ↔ cur hook = some j ∨
      ∃ k cgen, j = i + k ∧ cgens[k]? = some (some cgen) ∧ cgen.front = .ipt ∧
        bfHookToNfHook cgen.chain.hook = some hook := by
  induction cgens generalizing i cur with
  | nil =>
      cases ran
      simp
  | cons head rest ih =>
      cases head with
      | none => cases ran
      | some first =>
          rw [collectCgens] at ran
          have shift : (∃ k cgen, j = i + k ∧ (some first :: rest)[k]? = some (some cgen) ∧
              cgen.front = .ipt ∧ bfHookToNfHook cgen.chain.hook = some hook) ↔
              (j = i ∧ first.front = .ipt ∧ bfHookToNfHook first.chain.hook = some hook) ∨
              ∃ k cgen, j = i + 1 + k ∧ rest[k]? = some (some cgen) ∧ cgen.front = .ipt ∧
                bfHookToNfHook cgen.chain.hook = some hook := by
            constructor
            · rintro ⟨k, cgen, rfl, at_, front, nf⟩
              cases k with
              | zero =>
                  cases at_
                  exact .inl ⟨rfl, front, nf⟩
              | succ k => exact .inr ⟨k, cgen, by omega, at_, front, nf⟩
            · rintro (⟨rfl, front, nf⟩ | ⟨k, cgen, rfl, at_, front, nf⟩)
              · exact ⟨0, first, rfl, rfl, front, nf⟩
              · exact ⟨k + 1, cgen, by omega, at_, front, nf⟩
          rw [shift]
          by_cases front : first.front = .ipt
          · rw [if_neg (not_not_intro front)] at ran
            cases nf : bfHookToNfHook first.chain.hook with
            | none =>
                simp only [nf] at ran
                cases ran
            | some own =>
                simp only [nf] at ran
                by_cases taken : (cur own).isSome = true
                · rw [if_pos taken] at ran
                  cases ran
                · rw [if_neg taken] at ran
                  rw [ih ran]
                  have free : cur own = none := by simpa using taken
                  by_cases same : hook = own
                  · subst same
                    simp [front, free, eq_comm]
                  · simp [same, Ne.symm same]
          · rw [if_pos front] at ran
            rw [ih ran]
            simp [front]

/-- A codegen is collected under its own hook only. -/
theorem collectCgens_position {d : Daemon} {cur : CurCgens} {i : Nat} {hook : BfNfInetHook}
    {cgen : BfCgen} (ran : collectCgens 0 d.cgens (fun _ => none) = .ok (.ok cur))
    (here : IptCgenAt d i hook cgen) :
    cur hook = some i ∧ ∀ other, cur other = some i → other = hook := by
  obtain ⟨at_, front, nf⟩ := here
  refine ⟨(collectCgens_iff ran hook i).mpr (.inr ⟨i, cgen, by omega, at_, front, nf⟩), ?_⟩
  intro other found
  obtain none | ⟨k, cgen', rfl, at_', -, nf'⟩ := (collectCgens_iff ran other i).mp found
  · cases none
  · rw [Nat.zero_add] at at_
    cases at_.symm.trans at_'
    cases nf.symm.trans nf'
    rfl

/-! ## The hook loop -/

/-- A hook without codegen: the chain is loaded and attached like any other, the codegen is added
at the end of the context or dropped, and the request goes on. -/
theorem iptNewCgen_inv {fate : Fate} {client : BfNs} {chain : BfChain} {d d' : Daemon}
    {result : Bool × Ret} (valid : bfChainValidate chain = true)
    (ran : iptNewCgen fate client chain d = .ok (result, d')) :
    result.1 = true ∧ (∃ added, d'.cgens = d.cgens ++ added) ∧
      ∃ r cgen t, CgenSet fate { front := .ipt, chain } client none d.sys r cgen t ∧
        (d'.sys = t ∨ r = .ok ∧ ∃ r' cgen',
          CgenAttach fate cgen client iptHookopts t r' cgen' d'.sys) := by
  unfold iptNewCgen at ran
  obtain ⟨made, t, new, ran⟩ := bind_inv ran
  obtain ⟨sys, acted, rfl⟩ := onSys_inv new
  obtain ⟨rfl, ⟨e, rfl, invalid⟩ | ⟨rfl, -⟩⟩ := bfCgenNew_inv acted
  · rw [valid] at invalid
    cases invalid
  obtain ⟨⟨r, cgen⟩, t, load, ran⟩ := bind_inv ran
  obtain ⟨sys, loaded, rfl⟩ := onSys_inv load
  have load := bfCgenSet_inv (show bfCgenSet fate _ client none d.sys = .ok ((r, cgen), sys) from
    loaded)
  have same : ∃ added, d.cgens = d.cgens ++ added := ⟨[], by simp⟩
  cases r with
  | err e =>
      cases ran
      exact ⟨rfl, same, _, _, _, load, .inl rfl⟩
  | ok =>
      obtain ⟨⟨r, cgen'⟩, t, attach, ran⟩ := bind_inv ran
      obtain ⟨sys', attached, rfl⟩ := onSys_inv attach
      have attach := bfCgenAttach_inv attached
      cases r with
      | err e =>
          cases ran
          exact ⟨rfl, same, _, _, _, load, .inr ⟨rfl, _, _, attach⟩⟩
      | ok =>
          obtain ⟨found, u, set, ran⟩ := bind_inv ran
          have kept : (∃ added, u.cgens = d.cgens ++ added) ∧ u.sys = sys' := by
            obtain rfl | rfl := bfCtxSetCgen_inv set
            · exact ⟨same, rfl⟩
            · exact ⟨⟨_, rfl⟩, rfl⟩
          rw [← kept.2] at attach
          cases found with
          | none =>
              cases ran
              exact ⟨rfl, kept.1, _, _, _, load, .inr ⟨rfl, _, _, attach⟩⟩
          | some e =>
              cases ran
              exact ⟨rfl, kept.1, _, _, _, load, .inr ⟨rfl, _, _, attach⟩⟩

/-- One iteration: the rest of the loop runs, and an entry of another hook is untouched. -/
theorem iptSetHooks_step {fates : BfNfInetHook → Fate} {client : BfNs} {cur : CurCgens}
    {hook : BfNfInetHook} {chain : Option BfChain} {rest : List (BfNfInetHook × Option BfChain)}
    {r r' : Ret} {d d' : Daemon} (valid : ∀ c, chain = some c → bfChainValidate c = true)
    (ran : iptSetHooks fates client cur ((hook, chain) :: rest) r d = .ok (r', d')) {i : Nat}
    {entry : Option BfCgen} (at_ : d.cgens[i]? = some entry) :
    ∃ r₁ d₁, iptSetHooks fates client cur rest r₁ d₁ = .ok (r', d') ∧
      (∃ entry', d₁.cgens[i]? = some entry') ∧
      (cur hook ≠ some i → d₁.cgens[i]? = some entry) ∧
      (cur hook = some i → chain = none → d₁.cgens[i]? = some none) := by
  have inside := (List.getElem?_eq_some_iff.mp at_).1
  have put : ∀ (d₀ : Daemon) (j : Nat) (stored : Option BfCgen), d₀.cgens[i]? = some entry →
      (d₀.cgens.set j stored)[i]? = if j = i then some stored else some entry := by
    intro d₀ j stored at_
    rw [List.getElem?_set]
    split
    · rename_i same
      rw [if_pos (same ▸ (List.getElem?_eq_some_iff.mp at_).1)]
    · exact at_
  rw [iptSetHooks.eq_def] at ran
  cases chain with
  | none =>
      simp only at ran
      cases found : cur hook with
      | none =>
          simp only [found] at ran
          exact ⟨r, d, ran, ⟨entry, at_⟩, fun _ => at_, fun same => by cases same⟩
      | some j =>
          simp only [found] at ran
          obtain ⟨_, t, stored, ran⟩ := bind_inv ran
          cases stored
          refine ⟨r, _, ran, ?_, fun other => ?_, fun same _ => ?_⟩
          · rw [put d j none at_]
            split
            · exact ⟨_, rfl⟩
            · exact ⟨_, rfl⟩
          · rw [put d j none at_, if_neg fun same => other (by rw [same])]
          · cases same
            rw [put d i none at_, if_pos rfl]
  | some chain =>
      simp only at ran
      cases found : cur hook with
      | none =>
          simp only [found] at ran
          obtain ⟨⟨go, r₁⟩, t, new, ran⟩ := bind_inv ran
          obtain ⟨rfl, ⟨added, more⟩, -⟩ := iptNewCgen_inv (valid chain rfl) new
          have kept : t.cgens[i]? = some entry := by
            rw [more, List.getElem?_append_left inside]
            exact at_
          exact ⟨r₁, t, ran, ⟨entry, kept⟩, fun _ => kept, fun same => by cases same⟩
      | some j =>
          simp only [found] at ran
          rw [bind_run (get_run d)] at ran
          cases live : d.cgens[j]? with
          | none =>
              simp only [live] at ran
              cases ran
          | some stored =>
              cases stored with
              | none =>
                  simp only [live] at ran
                  cases ran
              | some cgen =>
                  simp only [live] at ran
                  obtain ⟨⟨r₁, cgen'⟩, t, update, ran⟩ := bind_inv ran
                  obtain ⟨sys, -, rfl⟩ := onSys_inv update
                  obtain ⟨_, u, store, ran⟩ := bind_inv ran
                  cases store
                  refine ⟨r₁, _, ran, ?_, fun other => ?_, fun _ absurd => by cases absurd⟩
                  · rw [put _ j _ at_]
                    split
                    · exact ⟨_, rfl⟩
                    · exact ⟨_, rfl⟩
                  · rw [put _ j _ at_, if_neg fun same => other (by rw [same])]

variable {fates : BfNfInetHook → Fate} {client : BfNs} {cur : CurCgens}

/-- An entry of no hook of the loop is untouched. -/
theorem iptSetHooks_untouched {chains : List (BfNfInetHook × Option BfChain)} {r r' : Ret}
    {d d' : Daemon} {i : Nat} {entry : Option BfCgen}
    (valid : ∀ hook c, (hook, some c) ∈ chains → bfChainValidate c = true)
    (others : ∀ hook chain, (hook, chain) ∈ chains → cur hook ≠ some i)
    (at_ : d.cgens[i]? = some entry)
    (ran : iptSetHooks fates client cur chains r d = .ok (r', d')) :
    d'.cgens[i]? = some entry := by
  induction chains generalizing r d with
  | nil =>
      cases ran
      exact at_
  | cons head rest ih =>
      obtain ⟨hook, chain⟩ := head
      have here : ∀ c, chain = some c → bfChainValidate c = true := fun c same =>
        valid hook c (same ▸ List.mem_cons_self)
      obtain ⟨r₁, d₁, ran, -, kept, -⟩ := iptSetHooks_step here ran at_
      exact ih (fun h c mem => valid h c (List.mem_cons_of_mem _ mem))
        (fun h c mem => others h c (List.mem_cons_of_mem _ mem))
        (kept (others hook chain List.mem_cons_self)) ran

/-- The codegen of a hook without chain is freed, and stays so to the end of the loop. -/
theorem iptSetHooks_frees {chains : List (BfNfInetHook × Option BfChain)} {r r' : Ret}
    {d d' : Daemon} {i : Nat} {hook : BfNfInetHook} {entry : Option BfCgen}
    (valid : ∀ hook c, (hook, some c) ∈ chains → bfChainValidate c = true)
    (once : (chains.map Prod.fst).Nodup) (disabled : (hook, none) ∈ chains)
    (found : cur hook = some i) (only : ∀ other, cur other = some i → other = hook)
    (at_ : d.cgens[i]? = some entry)
    (ran : iptSetHooks fates client cur chains r d = .ok (r', d')) :
    d'.cgens[i]? = some none := by
  induction chains generalizing r d entry with
  | nil => cases disabled
  | cons head rest ih =>
      obtain ⟨first, chain⟩ := head
      have here : ∀ c, chain = some c → bfChainValidate c = true := fun c same =>
        valid first c (same ▸ List.mem_cons_self)
      have valid' : ∀ h c, (h, some c) ∈ rest → bfChainValidate c = true := fun h c mem =>
        valid h c (List.mem_cons_of_mem _ mem)
      obtain ⟨fresh, once⟩ := List.nodup_cons.mp once
      obtain ⟨r₁, d₁, ran', ⟨entry', still⟩, -, frees⟩ := iptSetHooks_step here ran at_
      obtain same | later := List.mem_cons.mp disabled
      · cases same
        -- The hook does not come up again, so nothing is stored at its position.
        refine iptSetHooks_untouched valid' (fun h c mem same => ?_) (frees found rfl) ran'
        have again : hook ∈ rest.map Prod.fst := by
          rw [← only h same]
          exact List.mem_map_of_mem mem
        exact fresh again
      · exact ih valid' once later still ran'

/-- **The frame of an iptables request.**  The codegens of the hooks a request does not enable
are untouched exactly when the request is refused or there are none. -/
theorem iptRulesetSet_frame_iff (fates : BfNfInetHook → Fate) (client : BfNs) (replace : IptReplace)
    (d d' : Daemon) (r : Ret) (ran : step (.iptRulesetSet fates client replace) d = .ok (r, d')) :
    FramesOthers replace d d' ↔
      (IptAccepted replace d →
        ∀ i hook cgen, IptCgenAt d i hook cgen → iptIsHookEnabled replace hook = true) := by
  obtain ⟨rfl, refused⟩ | ⟨chains, cur, size, xlate, collect, loop⟩ := bfIptRulesetSet_inv ran
  · exact iff_of_true (fun i hook cgen here _ => here.1) fun accepted => absurd accepted refused
  obtain ⟨names, disabled, translated⟩ := bfIptXlateRulesetSet_chain xlate
  constructor
  · intro frames _ i hook cgen here
    by_contra off
    have off : iptIsHookEnabled replace hook = false := Bool.eq_false_iff.mpr off
    obtain ⟨found, only⟩ := collectCgens_position collect here
    have freed : d'.cgens[i]? = some none := by
      refine iptSetHooks_frees ?_ ?_ ((disabled hook).mpr ⟨?_, ?_⟩) found only here.1 loop
      · intro hook chain mem
        obtain ⟨entries, -, made⟩ := translated hook chain mem
        exact (bfIptEntriesToChain_inv made).valid
      · rw [names]
        decide
      · cases hook <;> decide
      · simpa [iptIsHookEnabled] using off
    have kept := frames i hook cgen here off
    rw [freed] at kept
    cases kept
  · intro enabled i hook cgen here off
    have on := enabled ⟨size, ⟨chains, xlate⟩, cur, collect⟩ i hook cgen here
    rw [off] at on
    cases on

/-! A ruleset with a chain for one hook only. -/

def acceptAll : IptHookEntries := ⟨[], { target := { verdict := -2 } }⟩

def onlyHook (hook : BfNfInetHook) : IptReplace where
  hooks other := if other = hook then some acceptAll else none

def setOnly (hook : BfNfInetHook) : Request := .iptRulesetSet (fun _ => {}) ⟨1, 1⟩ (onlyHook hook)

def iptDaemon : Daemon := .init sampleHost true ⟨1, 1⟩ plainPaths

/-- Two requests, and the state between them. -/
def setTwice (first second : BfNfInetHook) : Handle Daemon := do
  let _ ← step (setOnly first)
  let between ← get
  let _ ← step (setOnly second)
  pure between

theorem setTwice_inv {first second : BfNfInetHook} {d between d' : Daemon}
    (ran : setTwice first second d = .ok (between, d')) :
    ∃ r r', step (setOnly first) d = .ok (r, between) ∧
      step (setOnly second) between = .ok (r', d') := by
  obtain ⟨r, t, one, ran⟩ := bind_inv ran
  rw [bind_run (get_run t)] at ran
  obtain ⟨r', u, two, ran⟩ := bind_inv ran
  cases ran
  exact ⟨r, r', one, two⟩

/-- Whether the first codegen of a context is the iptables codegen of a hook. -/
def Daemon.firstIs (d : Daemon) (hook : BfNfInetHook) : Bool :=
  match d.cgens with
  | [some cgen] => cgen.front = .ipt && bfHookToNfHook cgen.chain.hook = some hook
  | _ => false

theorem Daemon.firstIs_inv {d : Daemon} {hook : BfNfInetHook} (first : d.firstIs hook = true) :
    ∃ cgen, d.cgens = [some cgen] ∧ IptCgenAt d 0 hook cgen := by
  unfold Daemon.firstIs at first
  split at first
  · rename_i cgen only
    simp only [Bool.and_eq_true, decide_eq_true_eq] at first
    exact ⟨cgen, only, by rw [only]; rfl, first⟩
  · cases first

/-- Setting the same hook again leaves no hook out. -/
theorem setting_again_frames_others :
    ∃ r d d', step (setOnly .localIn) d = .ok (r, d') ∧ d.firstIs .localIn = true ∧
      FramesOthers (onlyHook .localIn) d d' := by
  have passes : Passes (setTwice .localIn .localIn) iptDaemon
      (fun between _ => between.firstIs .localIn) = true := by decide +kernel
  obtain ⟨d, d', ran, first⟩ := passes_inv passes
  obtain ⟨-, r, -, ran⟩ := setTwice_inv ran
  refine ⟨r, d, d', ran, first, ?_⟩
  refine (iptRulesetSet_frame_iff _ _ _ d d' r ran).mpr fun _ i hook cgen here => ?_
  obtain ⟨only, alone, -, -, nf⟩ := Daemon.firstIs_inv first
  obtain ⟨at_, -, nf'⟩ := here
  rw [alone] at at_
  obtain rfl : i = 0 := by
    have inside := (List.getElem?_eq_some_iff.mp at_).1
    simpa using inside
  cases at_
  cases nf.symm.trans nf'
  rfl

/-- Setting another hook frees the codegen of the first, which stays in the context. -/
theorem setting_another_hook_frees_first :
    ¬ ∀ (host : Host) (persist : Bool) (own client : BfNs) (paths : Nat → Paths) (d d' : Daemon)
      (fates : BfNfInetHook → Fate) (replace : IptReplace) (r : Ret),
      Run step (fun _ _ => True) (.init host persist own paths) d →
      step (.iptRulesetSet fates client replace) d = .ok (r, d') → FramesOthers replace d d' := by
  intro frames
  have passes : Passes (setTwice .localOut .localIn) iptDaemon (fun between d' =>
      between.firstIs .localOut && decide (d'.cgens.head?.join.isNone)) = true := by decide +kernel
  obtain ⟨d, d', ran, test⟩ := passes_inv passes
  obtain ⟨r, r', one, two⟩ := setTwice_inv ran
  simp only [Bool.and_eq_true, decide_eq_true_eq] at test
  obtain ⟨cgen, -, here⟩ := Daemon.firstIs_inv test.1
  have kept := frames sampleHost true ⟨1, 1⟩ ⟨1, 1⟩ plainPaths d d' _ _ r' (.tail .refl trivial one)
    two 0 .localOut cgen here rfl
  have gone := test.2
  rw [List.head?_eq_getElem?, kept] at gone
  cases gone

end Bpfilter
