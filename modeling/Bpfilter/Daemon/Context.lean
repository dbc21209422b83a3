/-
# Daemon.Context -- what requests do to the context

A command line request changes the context in a few ways only: a codegen is set and
inserted, or set and dropped again, one in the list is attached, updated or deleted.
`CliStep` lists them with everything an invariant may need, and `cli_steps` says that
every request is a sequence of them.

Two results about the context follow. `context_invariant`: in every state a sequence
of command line requests reaches, names are distinct and every codegen has a program
loaded from its own chain, with a link that is whole. `ruleset_set_all_or_nothing`:
replacing the ruleset leaves exactly the chains of the request, or none.
-/
import Mathlib.Logic.Relation
import Bpfilter.Daemon.Update

namespace Bpfilter

set_option autoImplicit false

open Hoare
open Relation (ReflTransGen)

/-! ## Steps -/

/-- What `bf_cgen_unload` does: nothing if the directory does not open. -/
inductive CgenUnload (fails : Option Errno) (cgen : BfCgen) (s : Sys) : Sys → Prop where
  | noDir (e : Errno) (failed : fails = some e) : CgenUnload fails cgen s s
  | unpinned {prog : BfProg} (opened : fails = none) (present : cgen.program = some prog) :
      CgenUnload fails cgen s
        (s.setDir (s.dirOf cgen.chain.name) ((s.pins (s.dirOf cgen.chain.name)).unpin prog))

theorem CgenUnload.sameButPins {fails : Option Errno} {cgen : BfCgen} {s s' : Sys}
    (unload : CgenUnload fails cgen s s') : s.SameButPins s' := by
  cases unload with
  | noDir e failed => exact .refl s
  | unpinned opened present => exact Sys.setDir_sameButPins ..

theorem cgenUnload_of_run {fails : Option Errno} {cgen : BfCgen} {s s' : Sys}
    (ran : bfCgenUnload fails cgen s = .ok ((), s')) : CgenUnload fails cgen s s' := by
  unfold bfCgenUnload at ran
  cases fails with
  | some e =>
      cases ran
      exact .noDir e rfl
  | none =>
      cases present : cgen.program with
      | none =>
          simp only [present] at ran
          cases ran
      | some prog =>
          simp only [present] at ran
          cases ran
          exact .unpinned rfl present

/-- One change of the context by the command line front end.  `U` is what is known of the outcomes
of opening a directory to remove its pins, `A` of those of an attachment. -/
inductive CliStep (U : Option Errno → Prop) (A : Fate → BfNs → BfChain → BfHookopts → Prop)
    (d : Daemon) : Daemon → Prop where
  | failed {fate : Fate} {cgen cgen' : BfCgen} {client : BfNs} {hookopts : Option BfHookopts}
      {r : Ret} {s' : Sys} (fresh : cgen.program = none)
      (attaching : ∀ opts, hookopts = some opts → A fate client cgen.chain opts)
      (set : CgenSet fate cgen client hookopts d.sys r cgen' s') (refused : r ≠ .ok) :
      CliStep U A d { d with sys := s' }
  | inserted {fate : Fate} {cgen cgen' : BfCgen} {client : BfNs} {hookopts : Option BfHookopts}
      {s' : Sys} (fresh : cgen.program = none) (front : cgen.front = .cli)
      (attaching : ∀ opts, hookopts = some opts → A fate client cgen.chain opts)
      (set : CgenSet fate cgen client hookopts d.sys .ok cgen' s')
      (absent : findCgen cgen'.chain.name d.cgens = .ok none) :
      CliStep U A d { sys := s', cgens := d.cgens ++ [some cgen'] }
  | conflict {fate : Fate} {cgen cgen' : BfCgen} {client : BfNs} {hookopts : Option BfHookopts}
      {s' s'' : Sys} {fails : Option Errno} {entry : Nat × BfCgen} (fresh : cgen.program = none)
      (attaching : ∀ opts, hookopts = some opts → A fate client cgen.chain opts)
      (set : CgenSet fate cgen client hookopts d.sys .ok cgen' s')
      (present : findCgen cgen'.chain.name d.cgens = .ok (some entry))
      (opening : U fails) (unload : CgenUnload fails cgen' s' s'') :
      CliStep U A d { d with sys := s'' }
  | attached {fate : Fate} {i : Nat} {cgen cgen' : BfCgen} {client : BfNs} {opts : BfHookopts}
      {r : Ret} {s' : Sys} (at_ : d.cgens[i]? = some (some cgen))
      (attaching : A fate client cgen.chain opts)
      (attach : CgenAttach fate cgen client opts d.sys r cgen' s') :
      CliStep U A d { sys := s', cgens := d.cgens.set i (some cgen') }
  | updated {fate : Fate} {i : Nat} {cgen cgen' : BfCgen} {chain : BfChain} {r : Ret} {s' : Sys}
      (at_ : d.cgens[i]? = some (some cgen)) (named : chain.name = cgen.chain.name)
      (update : CgenUpdate fate cgen chain d.sys r cgen' s') :
      CliStep U A d { sys := s', cgens := d.cgens.set i (some cgen') }
  | deleted {fails : Option Errno} {i : Nat} {cgen : BfCgen} {s' : Sys}
      (at_ : d.cgens[i]? = some (some cgen)) (opening : U fails)
      (unload : CgenUnload fails cgen d.sys s') :
      CliStep U A d { sys := s', cgens := d.cgens.eraseIdx i }

/-- The outcomes of the openings a request makes to remove pins. -/
def Request.Opens (U : Option Errno → Prop) : Request → Prop
  | .rulesetFlush fails => ∀ name, U (fails name)
  | .rulesetSet _ fails failsAgain ruleset =>
      (∀ name, U (fails name)) ∧ (∀ name, U (failsAgain name)) ∧
        ∀ entries entry, ruleset = .ok entries → .ok entry ∈ entries → U entry.fate.unload
  | .chainSet fate _ _ _ failsOld => U failsOld ∧ U fate.unload
  | .chainLoad fate _ => U fate.unload
  | .chainAttach .. => True
  | .chainUpdate .. => True
  | .chainFlush fails _ => U fails
  | .iptRulesetSet .. => True

/-- The outcomes of the attachments a command line request makes. -/
def Request.Attaches (A : Fate → BfNs → BfChain → BfHookopts → Prop) : Request → Daemon → Prop
  | .rulesetSet client _ _ ruleset, _ => ∀ entries entry opts, ruleset = .ok entries →
      .ok entry ∈ entries → entry.hookopts = some opts → A entry.fate client entry.chain.chain opts
  | .chainSet fate client chain hookopts _, _ =>
      ∀ opts, hookopts = some opts → A fate client chain.chain opts
  | .chainAttach fate client name opts, d =>
      ∀ cgen, some cgen ∈ d.cgens → cgen.chain.name = name → A fate client cgen.chain opts
  | _, _ => True

section Steps

variable {U : Option Errno → Prop} {A : Fate → BfNs → BfChain → BfHookopts → Prop}
  {d d' : Daemon} {r : Ret}

theorem bfCtxSetCgen_outcome {cgen : BfCgen} {found : Option Errno}
    (ran : bfCtxSetCgen cgen d = .ok (found, d')) :
    (found = none ∧ findCgen cgen.chain.name d.cgens = .ok none ∧
        d' = { d with cgens := d.cgens ++ [some cgen] }) ∨
      ∃ entry, found = some .eexist ∧ findCgen cgen.chain.name d.cgens = .ok (some entry) ∧
        d' = d := by
  unfold bfCtxSetCgen at ran
  obtain ⟨result, t, get, ran⟩ := bind_inv ran
  obtain ⟨rfl, search⟩ := bfCtxGetCgen_inv get
  cases result with
  | some entry =>
      cases ran
      exact .inr ⟨entry, rfl, search, rfl⟩
  | none =>
      cases ran
      exact .inl ⟨rfl, search, rfl⟩

theorem setChain_steps {fate : Fate} {client : BfNs} {cgen : BfCgen}
    {hookopts : Option BfHookopts} (fresh : cgen.program = none) (front : cgen.front = .cli)
    (opening : U fate.unload)
    (attaching : ∀ opts, hookopts = some opts → A fate client cgen.chain opts)
    (ran : setChain fate client cgen hookopts d = .ok (r, d')) : CliStep U A d d' := by
  unfold setChain at ran
  obtain ⟨⟨r', cgen'⟩, t, set, ran⟩ := bind_inv ran
  obtain ⟨s', acted, rfl⟩ := onSys_inv set
  have outcome := bfCgenSet_inv acted
  cases r' with
  | err e =>
      cases ran
      exact .failed fresh attaching outcome Ret.noConfusion
  | ok =>
      obtain ⟨found, u, insert, ran⟩ := bind_inv ran
      obtain ⟨rfl, absent, rfl⟩ | ⟨entry, rfl, present, rfl⟩ := bfCtxSetCgen_outcome insert
      · cases ran
        exact .inserted fresh front attaching outcome absent
      · obtain ⟨_, v, unload, ran⟩ := bind_inv ran
        obtain ⟨s'', unloaded, rfl⟩ := onSys_inv unload
        cases ran
        exact .conflict fresh attaching outcome present opening (cgenUnload_of_run unloaded)

theorem bfCgenNew_outcome {fate : Fate} {front : BfFront} {chain : BfChain}
    {result : Except Errno BfCgen} (ran : onSys (bfCgenNew fate front chain) d = .ok (result, d')) :
    d' = d ∧ ((∃ e, result = .error e) ∨ result = .ok { front, chain }) := by
  obtain ⟨sys, new, rfl⟩ := onSys_inv ran
  obtain ⟨rfl, ⟨e, rfl, -⟩ | ⟨rfl, -⟩⟩ := bfCgenNew_inv new
  · exact ⟨rfl, .inl ⟨e, rfl⟩⟩
  · exact ⟨rfl, .inr rfl⟩

theorem setChains_steps {client : BfNs} {entries : List (Except Errno RulesetEntry)}
    (opening : ∀ entry, .ok entry ∈ entries → U entry.fate.unload)
    (attaching : ∀ entry opts, .ok entry ∈ entries → entry.hookopts = some opts →
      A entry.fate client entry.chain.chain opts)
    (ran : setChains client entries d = .ok (r, d')) : ReflTransGen (CliStep U A) d d' := by
  induction entries generalizing d with
  | nil =>
      cases ran
      exact .refl
  | cons head rest ih =>
      cases head with
      | error e =>
          cases ran
          exact .refl
      | ok entry =>
          rw [setChains] at ran
          obtain ⟨result, t, new, ran⟩ := bind_inv ran
          obtain ⟨rfl, ⟨e, rfl⟩ | rfl⟩ := bfCgenNew_outcome new
          · cases ran
            exact .refl
          · obtain ⟨r', u, set, ran⟩ := bind_inv ran
            have first : CliStep U A t u :=
              setChain_steps rfl rfl (opening entry List.mem_cons_self)
                (fun opts => attaching entry opts List.mem_cons_self) set
            cases r' with
            | ok =>
                refine .head first (ih ?_ ?_ ran)
                · exact fun e mem => opening e (List.mem_cons_of_mem _ mem)
                · exact fun e opts mem => attaching e opts (List.mem_cons_of_mem _ mem)
            | err e =>
                cases ran
                exact .single first

/-- Flushing deletes the codegens of the front end, one after the other. -/
theorem flushCgens_steps {fails : String → Option Errno} {front : BfFront}
    {cgens left : List (Option BfCgen)} {s s' : Sys} (opening : ∀ name, U (fails name))
    (ran : flushCgens fails front cgens s = .ok (left, s')) (kept : List (Option BfCgen)) :
    ReflTransGen (CliStep U A) ⟨s, kept ++ cgens⟩ ⟨s', kept ++ left⟩ := by
  induction cgens generalizing s left kept with
  | nil =>
      cases ran
      exact .refl
  | cons head rest ih =>
      cases head with
      | none => cases ran
      | some cgen =>
          rw [flushCgens] at ran
          by_cases same : cgen.front = front
          · rw [if_pos same] at ran
            obtain ⟨_, t, unload, ran⟩ := bind_inv ran
            have at_ : (kept ++ some cgen :: rest)[kept.length]? = some (some cgen) := by simp
            have erased : (kept ++ some cgen :: rest).eraseIdx kept.length = kept ++ rest := by
              rw [List.eraseIdx_append_of_length_le (Nat.le_refl _)]
              simp
            have first := @CliStep.deleted U A ⟨s, kept ++ some cgen :: rest⟩ _ _ _ _ at_
              (opening cgen.chain.name) (cgenUnload_of_run unload)
            rw [erased] at first
            exact .head first (ih ran kept)
          · rw [if_neg same] at ran
            obtain ⟨left', t, flush, ran⟩ := bind_inv ran
            cases ran
            have later := ih flush (kept ++ [some cgen])
            simpa using later

theorem bfCtxFlush_steps {fails : String → Option Errno} {front : BfFront}
    (opening : ∀ name, U (fails name)) (ran : bfCtxFlush fails front d = .ok ((), d')) :
    ReflTransGen (CliStep U A) d d' := by
  unfold bfCtxFlush at ran
  rw [bind_run (get_run d)] at ran
  obtain ⟨left, t, flush, ran⟩ := bind_inv ran
  obtain ⟨sys, flushed, rfl⟩ := onSys_inv flush
  cases ran
  exact flushCgens_steps opening flushed []

theorem bfCtxDeleteCgen_step {fails : Option Errno} {i : Nat} {cgen : BfCgen}
    (at_ : d.cgens[i]? = some (some cgen)) (opening : U fails)
    (ran : bfCtxDeleteCgen fails i cgen d = .ok ((), d')) : CliStep U A d d' := by
  unfold bfCtxDeleteCgen at ran
  obtain ⟨_, t, unload, ran⟩ := bind_inv ran
  obtain ⟨sys, unloaded, rfl⟩ := onSys_inv unload
  cases ran
  exact .deleted at_ opening (cgenUnload_of_run unloaded)

theorem bfCliRulesetSet_steps {client : BfNs} {fails failsAgain : String → Option Errno}
    {ruleset : RulesetPayload}
    (opening : ∀ name, U (fails name)) (openingAgain : ∀ name, U (failsAgain name))
    (unloading : ∀ entries entry, ruleset = .ok entries → .ok entry ∈ entries →
      U entry.fate.unload)
    (attaching : ∀ entries entry opts, ruleset = .ok entries → .ok entry ∈ entries →
      entry.hookopts = some opts → A entry.fate client entry.chain.chain opts)
    (ran : bfCliRulesetSet client fails failsAgain ruleset d = .ok (r, d')) :
    ReflTransGen (CliStep U A) d d' := by
  unfold bfCliRulesetSet at ran
  obtain ⟨_, t, flush, ran⟩ := bind_inv ran
  have flushed : ReflTransGen (CliStep U A) d t := bfCtxFlush_steps opening flush
  cases ruleset with
  | garbled => cases ran
  | error e =>
      cases ran
      exact flushed
  | ok entries =>
      obtain ⟨r', u, set, ran⟩ := bind_inv ran
      have setting := flushed.trans
        (setChains_steps (fun entry mem => unloading entries entry rfl mem)
          (fun entry opts mem => attaching entries entry opts rfl mem) set)
      cases r' with
      | ok =>
          cases ran
          exact setting
      | err e =>
          obtain ⟨_, v, again, ran⟩ := bind_inv ran
          cases ran
          exact setting.trans (bfCtxFlush_steps openingAgain again)

theorem bfCliChainSet_steps {fate : Fate} {client : BfNs} {chain : DecodedChain}
    {hookopts : Option BfHookopts} {failsOld : Option Errno} (openingOld : U failsOld)
    (opening : U fate.unload)
    (attaching : ∀ opts, hookopts = some opts → A fate client chain.chain opts)
    (ran : bfCliChainSet fate client chain hookopts failsOld d = .ok (r, d')) :
    ReflTransGen (CliStep U A) d d' := by
  unfold bfCliChainSet at ran
  obtain ⟨result, t, new, ran⟩ := bind_inv ran
  obtain ⟨rfl, ⟨e, rfl⟩ | rfl⟩ := bfCgenNew_outcome new
  · cases ran
    exact .refl
  · obtain ⟨found, u, get, ran⟩ := bind_inv ran
    obtain ⟨rfl, search⟩ := bfCtxGetCgen_inv get
    cases found with
    | none => exact .single (setChain_steps rfl rfl opening attaching ran)
    | some entry =>
        obtain ⟨_, v, delete, ran⟩ := bind_inv ran
        exact .head (bfCtxDeleteCgen_step (findCgen_some search).1 openingOld delete)
          (.single (setChain_steps rfl rfl opening attaching ran))

theorem bfCliChainLoad_steps {fate : Fate} {chain : DecodedChain} (opening : U fate.unload)
    (ran : bfCliChainLoad fate chain d = .ok (r, d')) : ReflTransGen (CliStep U A) d d' := by
  unfold bfCliChainLoad at ran
  obtain ⟨found, t, get, ran⟩ := bind_inv ran
  obtain ⟨rfl, -⟩ := bfCtxGetCgen_inv get
  cases found with
  | some entry =>
      cases ran
      exact .refl
  | none =>
      obtain ⟨result, t, new, ran⟩ := bind_inv ran
      obtain ⟨rfl, ⟨e, rfl⟩ | rfl⟩ := bfCgenNew_outcome new
      · cases ran
        exact .refl
      · -- The rest is setting a chain without hook options.
        have ran : setChain fate ⟨0, 0⟩ { front := .cli, chain := chain.chain } none t
            = .ok (r, d') := ran
        exact .single (setChain_steps rfl rfl opening (fun _ same => by cases same) ran)

theorem bfCliChainAttach_steps {fate : Fate} {client : BfNs} {name : String} {opts : BfHookopts}
    (attaching : ∀ cgen, some cgen ∈ d.cgens → cgen.chain.name = name →
      A fate client cgen.chain opts)
    (ran : bfCliChainAttach fate client name opts d = .ok (r, d')) :
    ReflTransGen (CliStep U A) d d' := by
  obtain rfl | ⟨i, cgen, prog, cgen', sys, at_, named, -, -, attached, rfl⟩ :=
    bfCliChainAttach_inv ran
  · exact .refl
  · have allowed := attaching cgen (List.mem_of_getElem? at_) named
    exact .single (.attached at_ allowed (bfCgenAttach_inv attached))

/-- An update request changes nothing or updates the codegen of its chain's name. -/
theorem bfCliChainUpdate_outcome {fate : Fate} {chain : DecodedChain}
    (ran : bfCliChainUpdate fate chain d = .ok (r, d')) :
    d' = d ∨ ∃ i cgen r' cgen' sys, d.cgens[i]? = some (some cgen) ∧
      chain.chain.name = cgen.chain.name ∧
      bfCgenUpdate fate cgen chain.chain d.sys = .ok ((r', cgen'), sys) ∧
      d' = { sys, cgens := d.cgens.set i (some cgen') } := by
  cases search : findCgen chain.chain.name d.cgens with
  | error e =>
      have get : bfCtxGetCgen chain.chain.name d = .error e := by
        unfold bfCtxGetCgen
        rw [search]
      rw [bfCliChainUpdate, bind_error get] at ran
      cases ran
  | ok found =>
      cases found with
      | none =>
          have get : bfCtxGetCgen chain.chain.name d = .ok (none, d) := by
            unfold bfCtxGetCgen
            rw [search]
          rw [bfCliChainUpdate, bind_run get] at ran
          cases ran
          exact .inl rfl
      | some entry =>
          obtain ⟨i, cgen⟩ := entry
          obtain ⟨at_, named⟩ := findCgen_some search
          obtain ⟨-, rfl⟩ | ⟨r', cgen', sys, update, -, rfl⟩ := bfCliChainUpdate_inv ran search
          · exact .inl rfl
          · exact .inr ⟨i, cgen, r', cgen', sys, at_, named.symm, update, rfl⟩

theorem bfCliChainUpdate_steps {fate : Fate} {chain : DecodedChain}
    (ran : bfCliChainUpdate fate chain d = .ok (r, d')) : ReflTransGen (CliStep U A) d d' := by
  obtain rfl | ⟨i, cgen, r', cgen', sys, at_, named, update, rfl⟩ := bfCliChainUpdate_outcome ran
  · exact .refl
  · exact .single (.updated at_ named (bfCgenUpdate_inv update))

theorem bfCliChainFlush_steps {fails : Option Errno} {name : String} (opening : U fails)
    (ran : bfCliChainFlush fails name d = .ok (r, d')) : ReflTransGen (CliStep U A) d d' := by
  unfold bfCliChainFlush at ran
  obtain ⟨found, t, get, ran⟩ := bind_inv ran
  obtain ⟨rfl, search⟩ := bfCtxGetCgen_inv get
  cases found with
  | none =>
      cases ran
      exact .refl
  | some entry =>
      obtain ⟨_, u, delete, ran⟩ := bind_inv ran
      cases ran
      exact .single (bfCtxDeleteCgen_step (findCgen_some search).1 opening delete)

/-- A command line request is a sequence of steps. -/
theorem cli_steps {request : Request} (cli : request.isCli = true) (opens : request.Opens U)
    (attaches : request.Attaches A d) (ran : step request d = .ok (r, d')) :
    ReflTransGen (CliStep U A) d d' := by
  cases request with
  | rulesetFlush fails =>
      obtain ⟨_, t, flush, ran⟩ := bind_inv ran
      cases ran
      exact bfCtxFlush_steps opens flush
  | rulesetSet client fails failsAgain ruleset =>
      exact bfCliRulesetSet_steps opens.1 opens.2.1 opens.2.2 attaches ran
  | chainSet fate client chain hookopts failsOld =>
      exact bfCliChainSet_steps opens.1 opens.2 attaches ran
  | chainLoad fate chain => exact bfCliChainLoad_steps opens ran
  | chainAttach fate client name opts => exact bfCliChainAttach_steps attaches ran
  | chainUpdate fate chain => exact bfCliChainUpdate_steps ran
  | chainFlush fails name => exact bfCliChainFlush_steps opens ran
  | iptRulesetSet fates client replace => cases cli

end Steps

/-! ## The context invariant -/

/-- A codegen other requests can rely on: its program is loaded, built from its own
chain, and has hook options exactly while its link is open. -/
def BfCgen.Ready (cgen : BfCgen) : Prop :=
  ∃ prog, cgen.program = some prog ∧ prog.BuiltFrom cgen.chain ∧
    prog.link.hookopts.isSome = prog.link.fd.isSome

def entryName (entry : Option BfCgen) : Option String := entry.map fun cgen => cgen.chain.name

structure ContextInvariant (d : Daemon) : Prop where
  names : (d.cgens.map entryName).Nodup
  live : ∀ entry ∈ d.cgens, entry.isSome = true
  ready : ∀ cgen, some cgen ∈ d.cgens → cgen.Ready

theorem findCgen_none {name : String} {cgens : List (Option BfCgen)}
    (absent : findCgen name cgens = .ok none) : some name ∉ cgens.map entryName := by
  induction cgens with
  | nil => exact List.not_mem_nil
  | cons head rest ih =>
      cases head with
      | none => cases absent
      | some first =>
          rw [findCgen] at absent
          by_cases named : first.chain.name = name
          · rw [if_pos named] at absent
            cases absent
          · rw [if_neg named] at absent
            cases later : findCgen name rest with
            | error e =>
                rw [later] at absent
                cases absent
            | ok result =>
                rw [later] at absent
                cases result with
                | some other => cases absent
                | none =>
                    rw [List.map_cons, List.mem_cons, not_or]
                    exact ⟨fun same => named (Option.some.inj same).symm, ih later⟩

theorem BfProg.BuiltFrom.relink {prog prog' : BfProg} {chain : BfChain}
    (built : prog.BuiltFrom chain) (same : prog'.chain = prog.chain) (code : prog'.code = prog.code) :
    prog'.BuiltFrom chain := by
  obtain ⟨own, host, maps, image, generated, fixed⟩ := built
  exact ⟨same.trans own, host, maps, image, generated, by rw [code]; exact fixed⟩

theorem AttachIn.code {fate : Fate} {client : BfNs} {prog prog' : BfProg} {opts : BfHookopts}
    {r : Ret} {s s' : Sys} (attach : AttachIn fate client prog opts s r prog' s') :
    prog'.code = prog.code := by
  cases attach <;> rfl

theorem NewProgram.built {chain : BfChain} {prog : BfProg} {s s' : Sys}
    (made : NewProgram chain s (.ok prog) s') : prog.BuiltFrom chain ∧ prog.link = {} := by
  cases made with
  | loaded _ built link => exact ⟨built, link⟩

theorem CgenSet.ready {fate : Fate} {cgen cgen' : BfCgen} {client : BfNs}
    {hookopts : Option BfHookopts} {s s' : Sys}
    (set : CgenSet fate cgen client hookopts s .ok cgen' s') : cgen'.Ready := by
  cases set with
  | loaded dir made absent kept =>
      obtain ⟨-, rfl⟩ := Sys.kept_ok kept
      obtain ⟨built, link⟩ := (newProgram_inv made).built
      exact ⟨_, rfl, built, by rw [link]; rfl⟩
  | attached dir made present attach kept =>
      obtain ⟨-, rfl⟩ := Sys.kept_ok kept
      obtain ⟨built, link⟩ := (newProgram_inv made).built
      refine ⟨_, rfl, built.relink attach.program.1 attach.code, attach.whole ?_⟩
      rw [link]
      rfl

theorem CgenAttach.ready {fate : Fate} {cgen cgen' : BfCgen} {client : BfNs} {opts : BfHookopts}
    {r : Ret} {s s' : Sys} (attach : CgenAttach fate cgen client opts s r cgen' s')
    (ready : cgen.Ready) : cgen'.Ready ∧ cgen'.chain = cgen.chain := by
  obtain ⟨prog, running, built, whole⟩ := ready
  cases attach with
  | noDir e dir => exact ⟨⟨prog, running, built, whole⟩, rfl⟩
  | refused e dir present attach =>
      cases running.symm.trans present
      exact ⟨⟨_, rfl, built.relink attach.program.1 attach.code, attach.whole whole⟩, rfl⟩
  | kept dir present attach transient =>
      cases running.symm.trans present
      exact ⟨⟨_, rfl, built.relink attach.program.1 attach.code, attach.whole whole⟩, rfl⟩
  | notPinned e dir present attach persist =>
      cases running.symm.trans present
      exact ⟨⟨_, rfl, built.relink attach.program.1 attach.code, rfl⟩, rfl⟩
  | pinned dir present attach persist pin =>
      cases running.symm.trans present
      exact ⟨⟨_, rfl, built.relink attach.program.1 attach.code, attach.whole whole⟩, rfl⟩

theorem CgenUpdate.ready {fate : Fate} {cgen cgen' : BfCgen} {chain : BfChain} {r : Ret}
    {s s' : Sys} (update : CgenUpdate fate cgen chain s r cgen' s') (ready : cgen.Ready) :
    cgen'.Ready ∧ (cgen'.chain = cgen.chain ∨ cgen'.chain = chain) := by
  cases update with
  | notBuilt e t state => exact ⟨ready, .inl rfl⟩
  | refused e present made => exact ⟨ready, .inl rfl⟩
  | swapped present made update =>
      obtain ⟨prog, running, -, whole⟩ := ready
      cases running.symm.trans present
      exact ⟨⟨_, rfl, made.built.1.relink rfl rfl, update.movedTo.whole whole⟩, .inr rfl⟩

/-- Replacing an entry by one of the same name. -/
theorem entryName_set {cgens : List (Option BfCgen)} {i : Nat} {cgen cgen' : BfCgen}
    (at_ : cgens[i]? = some (some cgen)) (named : cgen'.chain.name = cgen.chain.name) :
    (cgens.set i (some cgen')).map entryName = cgens.map entryName := by
  have same : (cgens.map entryName)[i]? = some (entryName (some cgen')) := by
    rw [List.getElem?_map, at_]
    exact congrArg some (congrArg some named.symm)
  obtain ⟨inside, value⟩ := List.getElem?_eq_some_iff.mp same
  rw [List.map_set, ← value, List.set_getElem_self]

theorem ContextInvariant.put {d : Daemon} {i : Nat} {cgen cgen' : BfCgen} {s : Sys}
    (inv : ContextInvariant d) (at_ : d.cgens[i]? = some (some cgen)) (ready : cgen'.Ready)
    (named : cgen'.chain.name = cgen.chain.name) :
    ContextInvariant { sys := s, cgens := d.cgens.set i (some cgen') } := by
  refine ⟨?_, ?_, ?_⟩
  · rw [entryName_set at_ named]
    exact inv.names
  · intro entry mem
    obtain mem | rfl := List.mem_or_eq_of_mem_set mem
    · exact inv.live entry mem
    · rfl
  · intro other mem
    obtain mem | same := List.mem_or_eq_of_mem_set mem
    · exact inv.ready other mem
    · cases same
      exact ready

theorem ContextInvariant.append {d : Daemon} {cgen : BfCgen} {s : Sys} (inv : ContextInvariant d)
    (ready : cgen.Ready) (absent : findCgen cgen.chain.name d.cgens = .ok none) :
    ContextInvariant { sys := s, cgens := d.cgens ++ [some cgen] } := by
  refine ⟨?_, ?_, ?_⟩
  · rw [List.map_append, List.nodup_append]
    refine ⟨inv.names, List.nodup_singleton _, ?_⟩
    intro name mem other single same
    rw [List.map_cons, List.map_nil, List.mem_singleton] at single
    rw [same, single] at mem
    exact findCgen_none absent mem
  · intro entry mem
    obtain mem | mem := List.mem_append.mp mem
    · exact inv.live entry mem
    · rw [List.mem_singleton.mp mem]
      rfl
  · intro other mem
    obtain mem | mem := List.mem_append.mp mem
    · exact inv.ready other mem
    · cases List.mem_singleton.mp mem
      exact ready

theorem CliStep.invariant {U : Option Errno → Prop}
    {A : Fate → BfNs → BfChain → BfHookopts → Prop} {d d' : Daemon} (step : CliStep U A d d')
    (inv : ContextInvariant d) : ContextInvariant d' := by
  cases step with
  | failed fresh attaching set refused => exact ⟨inv.names, inv.live, inv.ready⟩
  | conflict fresh attaching set present opening unload => exact ⟨inv.names, inv.live, inv.ready⟩
  | inserted fresh front attaching set absent => exact inv.append set.ready absent
  | attached at_ attaching attach =>
      obtain ⟨ready, chain⟩ := attach.ready (inv.ready _ (List.mem_of_getElem? at_))
      exact inv.put at_ ready (by rw [chain])
  | updated at_ named update =>
      obtain ⟨ready, chain⟩ := update.ready (inv.ready _ (List.mem_of_getElem? at_))
      apply inv.put at_ ready
      obtain chain | chain := chain
      · rw [chain]
      · rw [chain, named]
  | deleted at_ opening unload =>
      refine ⟨?_, ?_, ?_⟩
      · exact inv.names.sublist ((List.eraseIdx_sublist ..).map entryName)
      · exact fun entry mem => inv.live entry (List.mem_of_mem_eraseIdx mem)
      · exact fun cgen mem => inv.ready cgen (List.mem_of_mem_eraseIdx mem)

/-- **The context invariant.** In every state a sequence of command line requests
reaches from an empty context, whatever fails on the way, the names of the chains are
distinct and every codegen is ready. -/
theorem context_invariant (host : Host) (persist : Bool) (own : BfNs) (paths : Nat → Paths)
    (d : Daemon)
    (run : Run step (fun request _ => request.isCli = true) (.init host persist own paths) d) :
    ContextInvariant d := by
  have start : ContextInvariant (.init host persist own paths) :=
    ⟨List.nodup_nil, fun _ mem => absurd mem List.not_mem_nil,
      fun _ mem => absurd mem List.not_mem_nil⟩
  refine run.invariant start ?_
  intro request d r d' ⟨inv, cli⟩ ran
  have opens : request.Opens fun _ => True := by
    cases request <;> simp [Request.Opens]
  have attaches : request.Attaches (fun _ _ _ _ => True) d := by
    cases request <;> simp [Request.Attaches]
  have steps := cli_steps cli opens attaches ran
  clear ran
  induction steps with
  | refl => exact inv
  | tail _ last ih => exact last.invariant ih

/-- A Netfilter chain set and attached by a client. -/
theorem attached_context_invariant : ∃ d : Daemon, d.cgens ≠ [] ∧ ContextInvariant d := by
  have passes : Passes (step (attachNf ⟨1, 1⟩)) nfDaemon (fun _ d => !d.cgens.isEmpty) = true := by
    decide +kernel
  obtain ⟨r, d, ran, test⟩ := passes_inv passes
  refine ⟨d, ?_, context_invariant sampleHost true ⟨1, 1⟩ plainPaths d (.tail .refl rfl ran)⟩
  intro empty
  simp [empty] at test

/-! ## Replacing the ruleset -/

/-- The chain of an entry of the command line front end. -/
def cliChain (entry : Option BfCgen) : Option BfChain :=
  entry.bind fun cgen => if cgen.front = .cli then some cgen.chain else none

/-- The chains of the command line front end, in the order of the context. -/
def Daemon.cliChains (d : Daemon) : List BfChain := d.cgens.filterMap cliChain

/-- The entries of the other front ends, in the order of the context. -/
def Daemon.otherEntries (d : Daemon) : List (Option BfCgen) :=
  d.cgens.filter fun entry => (cliChain entry).isNone

theorem flushCgens_cli {fails : String → Option Errno} {cgens left : List (Option BfCgen)}
    {s s' : Sys} (ran : flushCgens fails .cli cgens s = .ok (left, s')) :
    left = cgens.filter fun entry => (cliChain entry).isNone := by
  induction cgens generalizing s left with
  | nil =>
      cases ran
      rfl
  | cons head rest ih =>
      cases head with
      | none => cases ran
      | some cgen =>
          rw [flushCgens] at ran
          by_cases same : cgen.front = .cli
          · rw [if_pos same] at ran
            obtain ⟨_, t, unload, ran⟩ := bind_inv ran
            rw [ih ran, List.filter_cons_of_neg (by simp [cliChain, same])]
          · rw [if_neg same] at ran
            obtain ⟨left', t, flush, ran⟩ := bind_inv ran
            cases ran
            rw [ih flush, List.filter_cons_of_pos (by simp [cliChain, same])]

/-- A flush removes the chains of the command line and nothing else. -/
theorem bfCtxFlush_cli {fails : String → Option Errno} {d d' : Daemon}
    (ran : bfCtxFlush fails .cli d = .ok ((), d')) :
    d'.cliChains = [] ∧ d'.otherEntries = d.otherEntries := by
  unfold bfCtxFlush at ran
  rw [bind_run (get_run d)] at ran
  obtain ⟨left, t, flush, ran⟩ := bind_inv ran
  obtain ⟨sys, flushed, rfl⟩ := onSys_inv flush
  cases ran
  rw [flushCgens_cli flushed]
  refine ⟨?_, ?_⟩
  · simp [Daemon.cliChains, List.filterMap_filter]
  · simp [Daemon.otherEntries, List.filter_filter]

theorem CgenSet.front {fate : Fate} {cgen cgen' : BfCgen} {client : BfNs}
    {hookopts : Option BfHookopts} {r : Ret} {s s' : Sys}
    (set : CgenSet fate cgen client hookopts s r cgen' s') : cgen'.front = cgen.front := by
  cases set with
  | notBuilt e t state why => rfl
  | notAttached e dir made present attach => rfl
  | loaded dir made absent kept =>
      obtain ⟨rfl, -⟩ | ⟨rfl, -⟩ := Sys.kept_inv kept <;> rfl
  | attached dir made present attach kept =>
      obtain ⟨rfl, -⟩ | ⟨rfl, -⟩ := Sys.kept_inv kept <;> rfl

/-- Setting a chain inserts it at the end, or leaves the context. -/
theorem setChain_cgens {fate : Fate} {client : BfNs} {cgen : BfCgen}
    {hookopts : Option BfHookopts} {d d' : Daemon} {r : Ret}
    (ran : setChain fate client cgen hookopts d = .ok (r, d')) :
    (r = .ok ∧ ∃ cgen', cgen'.front = cgen.front ∧ cgen'.chain = cgen.chain ∧
        d'.cgens = d.cgens ++ [some cgen']) ∨
      r ≠ .ok ∧ d'.cgens = d.cgens := by
  unfold setChain at ran
  obtain ⟨⟨r', cgen'⟩, t, set, ran⟩ := bind_inv ran
  obtain ⟨s', acted, rfl⟩ := onSys_inv set
  have outcome := bfCgenSet_inv acted
  cases r' with
  | err e =>
      cases ran
      exact .inr ⟨Ret.noConfusion, rfl⟩
  | ok =>
      obtain ⟨found, u, insert, ran⟩ := bind_inv ran
      obtain ⟨rfl, absent, rfl⟩ | ⟨entry, rfl, present, rfl⟩ := bfCtxSetCgen_outcome insert
      · cases ran
        exact .inl ⟨rfl, cgen', outcome.front, outcome.chain, rfl⟩
      · obtain ⟨_, v, unload, ran⟩ := bind_inv ran
        obtain ⟨s'', unloaded, rfl⟩ := onSys_inv unload
        cases ran
        exact .inr ⟨Ret.noConfusion, rfl⟩

/-- The loop appends the chains of the request, up to the first that fails. -/
theorem setChains_chains {client : BfNs} {entries : List (Except Errno RulesetEntry)}
    {d d' : Daemon} {r : Ret} (ran : setChains client entries d = .ok (r, d')) :
    d'.otherEntries = d.otherEntries ∧ (r = .ok → ∃ decoded : List RulesetEntry,
      entries = decoded.map .ok ∧
        d'.cliChains = d.cliChains ++ decoded.map fun entry => entry.chain.chain) := by
  induction entries generalizing d with
  | nil =>
      cases ran
      exact ⟨rfl, fun _ => ⟨[], rfl, (List.append_nil _).symm⟩⟩
  | cons head rest ih =>
      cases head with
      | error e =>
          cases ran
          exact ⟨rfl, fun done => Ret.noConfusion done⟩
      | ok entry =>
          rw [setChains] at ran
          obtain ⟨result, t, new, ran⟩ := bind_inv ran
          obtain ⟨rfl, ⟨e, rfl⟩ | rfl⟩ := bfCgenNew_outcome new
          · cases ran
            exact ⟨rfl, fun done => Ret.noConfusion done⟩
          · obtain ⟨r', u, set, ran⟩ := bind_inv ran
            obtain ⟨rfl, cgen', front, chain, list⟩ | ⟨failed, list⟩ := setChain_cgens set
            · have cli : cliChain (some cgen') = some entry.chain.chain := by
                simp [cliChain, front, chain]
              have others : u.otherEntries = t.otherEntries := by
                simp [Daemon.otherEntries, list, List.filter_append, cli]
              have chains : u.cliChains = t.cliChains ++ [entry.chain.chain] := by
                simp [Daemon.cliChains, list, cli]
              obtain ⟨same, all⟩ := ih ran
              refine ⟨same.trans others, fun done => ?_⟩
              obtain ⟨decoded, rfl, appended⟩ := all done
              refine ⟨entry :: decoded, rfl, ?_⟩
              rw [appended, chains, List.map_cons, List.append_assoc, List.singleton_append]
            · have same : u.otherEntries = t.otherEntries := by
                rw [Daemon.otherEntries, list, Daemon.otherEntries]
              cases r' with
              | ok => exact absurd rfl failed
              | err e =>
                  cases ran
                  exact ⟨same, fun done => Ret.noConfusion done⟩

/-- **Replacing the ruleset is all or nothing.** A request that succeeds leaves the
chains it carries, in their order, as the chains of the command line; one that fails
leaves none. The entries of the other front ends stay as they were. -/
theorem ruleset_set_all_or_nothing {client : BfNs} {fails failsAgain : String → Option Errno}
    {ruleset : RulesetPayload} {d d' : Daemon} {r : Ret}
    (ran : bfCliRulesetSet client fails failsAgain ruleset d = .ok (r, d')) :
    d'.otherEntries = d.otherEntries ∧ (r ≠ .ok → d'.cliChains = []) ∧
      (r = .ok → ∃ decoded : List RulesetEntry, ruleset = .ok (decoded.map .ok) ∧
        d'.cliChains = decoded.map fun entry => entry.chain.chain) := by
  unfold bfCliRulesetSet at ran
  obtain ⟨_, t, flush, ran⟩ := bind_inv ran
  obtain ⟨none, flushed⟩ := bfCtxFlush_cli flush
  cases ruleset with
  | garbled => cases ran
  | error e =>
      cases ran
      exact ⟨flushed, fun _ => none, fun done => Ret.noConfusion done⟩
  | ok entries =>
      obtain ⟨r', u, set, ran⟩ := bind_inv ran
      obtain ⟨others, all⟩ := setChains_chains set
      have again (r' : Ret) (failed : r' ≠ .ok)
          (ran : (do bfCtxFlush failsAgain .cli; pure r' : Handle Ret) u = .ok (r, d')) :
          d'.otherEntries = d.otherEntries ∧ (r ≠ .ok → d'.cliChains = []) ∧ r ≠ .ok := by
        obtain ⟨_, v, flush, ran⟩ := bind_inv ran
        obtain ⟨none, flushedAgain⟩ := bfCtxFlush_cli flush
        cases ran
        exact ⟨flushedAgain.trans (others.trans flushed), fun _ => none, failed⟩
      cases r' with
      | ok =>
          cases ran
          refine ⟨others.trans flushed, fun failed => absurd rfl failed, fun _ => ?_⟩
          obtain ⟨decoded, rfl, chains⟩ := all rfl
          exact ⟨decoded, rfl, by rw [chains, none, List.nil_append]⟩
      | err e =>
          obtain ⟨same, empty, failed⟩ := again _ Ret.noConfusion ran
          exact ⟨same, empty, fun done => absurd done failed⟩

/-! A ruleset of three chains: an empty one on Netfilter, one with rules on an interface, and one
that is loaded only. -/

def webRules : List BfRule :=
  [{ matchers := [⟨.ip4Proto, .eq, [6]⟩, ⟨.tcpDport, .eq, [80, 0]⟩], counters := true,
      verdict := .accept },
    { matchers := [⟨.ip4Proto, .ne, [1]⟩], log := 1, verdict := .drop }]

def threeChains : List RulesetEntry :=
  [⟨nfChain .nfLocalIn, some nfOpts, {}⟩,
    ⟨⟨bfChainNew "web" .xdp .drop [] webRules, rfl⟩, some xdpOpts, {}⟩,
    ⟨⟨bfChainNew "egress" .tcEgress .accept [] webRules, rfl⟩, none, {}⟩]

theorem three_chain_ruleset_set : ∃ d', bfCliRulesetSet ⟨1, 1⟩ (fun _ => none) (fun _ => none)
      (.ok (threeChains.map .ok)) nfDaemon = .ok (.ok, d') ∧
    d'.cliChains = threeChains.map fun entry => entry.chain.chain := by
  have passes : Passes (bfCliRulesetSet ⟨1, 1⟩ (fun _ => none) (fun _ => none)
      (.ok (threeChains.map .ok))) nfDaemon (fun r _ => r = .ok) = true := by
    decide +kernel
  obtain ⟨r, d', ran, test⟩ := passes_inv passes
  obtain rfl : r = .ok := by simpa using test
  obtain ⟨decoded, same, chains⟩ := (ruleset_set_all_or_nothing ran).2.2 rfl
  have same : threeChains = decoded :=
    List.map_injective_iff.mpr (fun _ _ same => Except.ok.inj same) (RulesetPayload.ok.inj same)
  refine ⟨d', ran, ?_⟩
  rw [chains, same]

end Bpfilter
