/-
# Daemon.Restart -- when a restart restores the context

In persistent mode the daemon saves its context after every request that may have
changed it, and loads it when it starts.  `Service` is the daemon with the context
files, each the tree its message denotes.  The context is saved where the daemon is;
a restarted daemon is in its own namespaces again and loads the file there.

`Daemon.Restorable` is the invariant: every codegen could be loaded as it is from the
pins of its chain.  It holds between requests only: a ruleset that names a chain twice
loses the pins of the first before the flush that follows the failure.  Two things
break it.  A refused attachment can leave the daemon in a mount namespace where its
paths lead elsewhere, and a chain whose name leads to the directory of another chain
takes the pins of that chain with it when it cannot be pinned.

`restart_restores_context` is about every sequence of command line requests that do
neither.
-/
import Bpfilter.Daemon.Save

namespace Bpfilter

set_option autoImplicit false

open Hoare
open Relation (ReflTransGen)

/-! ## Saving and loading -/

inductive BfReqCmd where
  | rulesetFlush | rulesetGet | rulesetSet
  | chainSet | chainGet | chainProgFd | chainLogsFd | chainLoad | chainAttach | chainUpdate
  | chainFlush
  | countersSet | countersGet | custom
  deriving DecidableEq, Repr

/-- The commands `_bf_process_request` saves the context after. -/
def BfReqCmd.saves : BfReqCmd → Bool
  | .rulesetFlush | .rulesetSet | .chainSet | .chainLoad | .chainAttach | .chainUpdate
  | .chainFlush => true
  | _ => false

def Request.cmd : Request → BfReqCmd
  | .rulesetFlush .. => .rulesetFlush
  | .rulesetSet .. => .rulesetSet
  | .chainSet .. => .chainSet
  | .chainLoad .. => .chainLoad
  | .chainAttach .. => .chainAttach
  | .chainUpdate .. => .chainUpdate
  | .chainFlush .. => .chainFlush
  | .iptRulesetSet .. => .rulesetSet

/-- Any message: a request that can change the context, or one that leaves it because it is a query
or cannot be decoded.  A ruleset set is a request whatever its payload. -/
inductive Message where
  | change (request : Request)
  | idle (cmd : BfReqCmd)

def Message.cmd : Message → BfReqCmd
  | .change request => request.cmd
  | .idle cmd => cmd

/-- The request handler. -/
def Message.handle : Message → Handle Ret
  | .change request => step request
  | .idle _ => pure .ok

/-- The daemon and the context files. -/
structure Service where
  daemon : Daemon
  files : Nat → Option Pack

/-- The context file where the daemon is. -/
def Sys.file (s : Sys) : Nat := (s.paths s.ns.mnt).file

/-- The context file in the daemon's own mount namespace. -/
def Sys.homeFile (s : Sys) : Nat := (s.paths s.ownNs.mnt).file

/-- The pins of a chain, as a daemon in its own namespaces finds them. -/
def Sys.homePins (s : Sys) : String → Dir := fun name => s.pins (s.homeDir name)

/-- `_bf_ctx_pack` -/
def bfCtxPack (cgens : List BfCgen) : Pack := .map [("cgens", .arr (cgens.map bfCgenPack))]

/-- `_bf_save`: the file is removed when the context is empty.  No front end packs anything. -/
def bfSave (enabled : BfFront → Bool) (cgens : List (Option BfCgen)) :
    Except Death (Option Pack) :=
  match cgens.mapM id with
  | none => .error .undefined
  | some [] => .ok none
  | some (cgen :: rest) =>
      .ok (some (.map [("ctx", bfCtxPack (cgen :: rest)),
        ("cache", .arr (bfFronts.map fun front => if enabled front then .map [] else .nil))]))

/-- `_bf_load`: `none` when there is no file and the context starts out empty. -/
def bfLoad (ndebug : Bool) (pins : String → Dir) (file : Option Pack) :
    Except GenErr (Option (List CgenState)) :=
  match file with
  | none => .ok none
  | some root => do
      let ctx ← orErrno (bfRpackKvNode root "ctx")
      let nodes ← orErrno (bfRpackKv bfRpackArray ctx "cgens")
      let cgens ← nodes.mapM (bfCgenNewFromPack ndebug pins)
      -- The front ends unpack nothing, whatever they have in the array.
      let _ ← orErrno (bfRpackKv bfRpackArray root "cache")
      .ok (some cgens)

/-- Write a context file, or remove it. -/
def writeFile (files : Nat → Option Pack) (file : Nat) (content : Option Pack) :
    Nat → Option Pack :=
  fun other => if other = file then content else files other

/-- `_bf_process_request` for an enabled front end. -/
def bfProcessRequest (enabled : BfFront → Bool) (message : Message) : Proc Service Death Ret :=
  fun s =>
    match message.handle s.daemon with
    | .error death => .error death
    | .ok (r, daemon) =>
        if daemon.sys.persist && message.cmd.saves then
          match bfSave enabled daemon.cgens with
          | .error death => .error death
          | .ok content => .ok (r, { daemon, files := writeFile s.files daemon.sys.file content })
        else .ok (r, { s with daemon })

/-- A daemon that was started in persistent mode without a context file. -/
def Service.start (host : Host) (own : BfNs) (paths : Nat → Paths) : Service :=
  ⟨.init host true own paths, fun _ => none⟩

/-- The context file a restart finds. -/
def Service.file (s : Service) : Option Pack := s.files s.daemon.sys.homeFile

/-- The context a restart loads. -/
def Service.reload (ndebug : Bool) (s : Service) : Except GenErr (Option (List CgenState)) :=
  bfLoad ndebug s.daemon.sys.homePins s.file

/-- The context in memory. -/
def Daemon.state (d : Daemon) : List (Option CgenState) := d.cgens.map (·.map BfCgen.state)

/-! ## Other directories -/

section Others

variable {fate : Fate} {s s' : Sys} {dir other : Nat}

theorem Sys.setDir_other (entries : Dir) (apart : other ≠ dir) :
    (s.setDir dir entries).pins other = s.pins other := by
  simp only [Sys.setDir, if_neg apart]

theorem Sys.unpin_other (prog : BfProg) (apart : other ≠ dir) :
    (s.unpin dir prog).pins other = s.pins other := by
  unfold Sys.unpin
  split
  · exact Sys.setDir_other _ apart
  · rfl

theorem Sys.pin_other (fails : Nat → Option Errno) (prog : BfProg) (apart : other ≠ dir) :
    (s.pin dir fails prog).pins other = s.pins other := by
  unfold Sys.pin
  split
  · split
    · exact Sys.setDir_other _ apart
    · exact Sys.setDir_other _ apart
  · rfl

theorem CgenSet.pins_other {cgen cgen' : BfCgen} {client : BfNs} {hookopts : Option BfHookopts}
    {r : Ret} (set : CgenSet fate cgen client hookopts s r cgen' s')
    (apart : other ≠ s.dirOf cgen.chain.name) : s'.pins other = s.pins other := by
  cases set with
  | notBuilt e t state why =>
      obtain rfl | failed := state
      · rfl
      · rw [failed.pins.1]
  | loaded dir made absent kept =>
      rw [Sys.pin_other _ _ apart, (newProgram_inv made).pins.1]
  | notAttached e dir made present attach => rw [attach.pins.1, (newProgram_inv made).pins.1]
  | attached dir made present attach kept =>
      rw [Sys.pin_other _ _ apart, attach.pins.1, (newProgram_inv made).pins.1]

theorem CgenAttach.pins_other {cgen cgen' : BfCgen} {client : BfNs} {opts : BfHookopts} {r : Ret}
    (attach : CgenAttach fate cgen client opts s r cgen' s')
    (apart : other ≠ s.dirOf cgen.chain.name) : s'.pins other = s.pins other := by
  cases attach with
  | noDir e dir => rfl
  | refused e dir present attach => rw [attach.pins.1]
  | kept dir present attach transient => rw [attach.pins.1]
  | notPinned e dir present attach persist => rw [attach.pins.1]
  | pinned dir present attach persist pin =>
      rw [Sys.setDir_other _ apart, attach.pins.1]

theorem CgenUpdate.pins_other {cgen cgen' : BfCgen} {chain : BfChain} {r : Ret}
    (update : CgenUpdate fate cgen chain s r cgen' s') (apart : other ≠ s.dirOf chain.name) :
    s'.pins other = s.pins other := by
  cases update with
  | notBuilt e t state =>
      obtain rfl | failed := state
      · rfl
      · rw [failed.pins.1]
  | refused e present made =>
      rw [Sys.pin_other _ _ apart, Sys.unpin_other _ apart, made.pins.1]
  | swapped present made update =>
      rw [Sys.pin_other _ _ apart, update.pins.1, Sys.unpin_other _ apart, made.pins.1]

theorem CgenUnload.pins_other {fails : Option Errno} {cgen : BfCgen}
    (unload : CgenUnload fails cgen s s') (apart : other ≠ s.dirOf cgen.chain.name) :
    s'.pins other = s.pins other := by
  cases unload with
  | noDir e failed => rfl
  | unpinned opened present => exact Sys.setDir_other _ apart

end Others

/-! ## The invariant -/

/-- A chain the daemon may be sent: read from a message, valid, with at most 256 sets. -/
structure BfChain.Acceptable (ndebug : Bool) (chain : BfChain) : Prop where
  decoded : chain.Decoded ndebug
  valid : bfChainValidate chain = true
  few : chain.sets.length ≤ 256
  countable : chain.Countable

/-- The chains of a request. -/
def Request.Chains (P : BfChain → Prop) : Request → Prop
  | .rulesetSet _ _ _ ruleset =>
      ∀ entries entry, ruleset = .ok entries → .ok entry ∈ entries → P entry.chain.chain
  | .chainSet _ _ chain _ _ => P chain.chain
  | .chainLoad _ chain => P chain.chain
  | .chainUpdate _ chain => P chain.chain
  | _ => True

/-- Pinning is reliable: the directories open whose pins a request removes, and an update can pin
both programs. -/
def Request.PinsReliably (request : Request) : Prop :=
  request.Opens (· = none) ∧ ∀ fate chain, request = .chainUpdate fate chain →
    (∀ n, fate.pin n = none) ∧ ∀ n, fate.repin n = none

/-- In a mount namespace all paths of the daemon lead where they lead in its own. -/
def Sys.Shares (s : Sys) (mnt : Nat) : Prop := s.paths mnt = s.paths s.ownNs.mnt

/-- An attachment that fails does not leave the daemon where its paths lead elsewhere. -/
def Sys.KeepsPaths (s : Sys) (fate : Fate) (client : BfNs) (chain : BfChain) (opts : BfHookopts) :
    Prop :=
  fate.Lands s.Shares client s.ownNs chain.hook opts

/-- A name leads to the directory of no codegen but that of its own chain. -/
def Daemon.FreeDir (d : Daemon) (name : String) : Prop :=
  ∀ other, some other ∈ d.cgens → d.sys.homeDir other.chain.name = d.sys.homeDir name →
    other.chain.name = name

/-- A chain that is set on its own has a directory of its own.  A ruleset needs no such thing: when
a chain of it fails, all are flushed. -/
def Request.OwnDir : Request → Daemon → Prop
  | .chainSet _ _ chain _ _, d => d.FreeDir chain.chain.name
  | .chainLoad _ chain, d => d.FreeDir chain.chain.name
  | _, _ => True

/-- Every pin has an owner, and the daemon's paths lead where they lead at home. -/
structure Daemon.Settled (d : Daemon) : Prop where
  owned : PinsOwned d
  home : d.sys.Shares d.sys.ns.mnt

/-- Every codegen could be loaded as it is. -/
structure Daemon.Restorable (ndebug : Bool) (d : Daemon) : Prop where
  settled : d.Settled
  cli : ∀ cgen, some cgen ∈ d.cgens → cgen.front = .cli
  apart : ∀ cgen, some cgen ∈ d.cgens → d.FreeDir cgen.chain.name
  cgens : ∀ cgen, some cgen ∈ d.cgens → cgen.Restorable ndebug d.sys.homePins

section Settled

variable {d d' : Daemon} {start : Sys}

theorem Sys.Shares.views {s : Sys} {mnt : Nat} (shares : s.Shares mnt) : s.Views mnt :=
  congrArg Paths.dir shares

theorem Sys.Fixed.shares {s s' : Sys} (fixed : s.Fixed s') : s'.Shares = s.Shares := by
  funext mnt
  rw [Sys.Shares, Sys.Shares, fixed.paths, fixed.ownNs]

theorem CliStep.mono {U : Option Errno → Prop}
    {A B : Fate → BfNs → BfChain → BfHookopts → Prop} (step : CliStep U A d d')
    (weaker : ∀ {fate client chain opts}, A fate client chain opts → B fate client chain opts) :
    CliStep U B d d' := by
  cases step with
  | failed fresh attaching set refused =>
      exact .failed fresh (fun opts same => weaker (attaching opts same)) set refused
  | inserted fresh front attaching set absent =>
      exact .inserted fresh front (fun opts same => weaker (attaching opts same)) set absent
  | conflict fresh attaching set present opening unload =>
      exact .conflict fresh (fun opts same => weaker (attaching opts same)) set present opening
        unload
  | attached at_ attaching attach => exact .attached at_ (weaker attaching) attach
  | updated at_ named update => exact .updated at_ named update
  | deleted at_ opening unload => exact .deleted at_ opening unload

theorem CliStep.settled (step : CliStep (· = none) start.KeepsPaths d d')
    (fixed : start.Fixed d.sys) (inv : d.Settled) : d'.Settled := by
  refine ⟨(step.mono fun keeps strands => (keeps strands).views).pinsOwned fixed inv.owned, ?_⟩
  rw [step.fixed.shares, fixed.shares]
  refine step.lands inv.owned.context fixed.ownNs (rfl : start.Shares start.ownNs.mnt) ?_
  rw [← fixed.shares]
  exact inv.home

theorem Daemon.Settled.steps (inv : d.Settled) (fixed : start.Fixed d.sys)
    (steps : ReflTransGen (CliStep (· = none) start.KeepsPaths) d d') :
    d'.Settled ∧ start.Fixed d'.sys := by
  induction steps with
  | refl => exact ⟨inv, fixed⟩
  | tail _ last ih => exact ⟨last.settled ih.2 ih.1, ih.2.trans last.fixed⟩

theorem Daemon.Settled.dirOf (inv : d.Settled) (name : String) :
    d.sys.dirOf name = d.sys.homeDir name :=
  inv.owned.view.dirOf name

end Settled

section Invariant

variable {ndebug : Bool} {fate : Fate} {d d' : Daemon} {start s s' : Sys} {r : Ret}

/-- Only the directory of its own chain matters to a codegen. -/
theorem BfCgen.Restorable.congr {pins pins' : String → Dir} {cgen : BfCgen}
    (restorable : cgen.Restorable ndebug pins) (same : pins' cgen.chain.name = pins cgen.chain.name) :
    cgen.Restorable ndebug pins' :=
  ⟨restorable.decoded, restorable.valid, restorable.few, restorable.countable, restorable.filled,
    same ▸ restorable.program⟩

/-- A codegen stays restorable when its directory is not touched. -/
theorem BfCgen.Restorable.move {cgen : BfCgen} (restorable : cgen.Restorable ndebug s.homePins)
    (fixed : s.Fixed s')
    (same : s'.pins (s.homeDir cgen.chain.name) = s.pins (s.homeDir cgen.chain.name)) :
    cgen.Restorable ndebug s'.homePins := by
  refine restorable.congr ?_
  rw [Sys.homePins, Sys.homePins, fixed.homeDir, same]

/-- A codegen with an acceptable chain, ready and with exact pins. -/
theorem BfCgen.Restorable.of_ready {cgen : BfCgen} (acceptable : cgen.chain.Acceptable ndebug)
    (filled : hasEmptySet cgen.chain = false) (ready : cgen.Ready)
    (pins : PinsExact (s.homeDir cgen.chain.name) cgen s) (persist : s.persist = true) :
    cgen.Restorable ndebug s.homePins := by
  obtain ⟨prog, running, built, whole⟩ := ready
  exact ⟨acceptable.decoded, acceptable.valid, acceptable.few, acceptable.countable, filled,
    prog, running, built.1, whole, pins persist prog running⟩

theorem BfCgen.Restorable.acceptable {pins : String → Dir} {cgen : BfCgen}
    (restorable : cgen.Restorable ndebug pins) : cgen.chain.Acceptable ndebug :=
  ⟨restorable.decoded, restorable.valid, restorable.few, restorable.countable⟩

theorem BfCgen.Restorable.exact {cgen : BfCgen} (restorable : cgen.Restorable ndebug s.homePins) :
    BfCgen.Exact (s.homeDir cgen.chain.name) cgen s := by
  obtain ⟨prog, running, -, whole, pins⟩ := restorable.program
  refine ⟨?_, ?_⟩
  · intro _ other present
    cases running.symm.trans present
    exact pins
  · intro other present
    cases running.symm.trans present
    exact whole

/-- A context with no codegens. -/
theorem Daemon.Restorable.of_empty (settled : d.Settled) (empty : d.cgens = []) :
    d.Restorable ndebug := by
  refine ⟨settled, ?_, ?_, ?_⟩
  · intro cgen mem
    rw [empty] at mem
    cases mem
  · intro cgen mem
    rw [empty] at mem
    cases mem
  · intro cgen mem
    rw [empty] at mem
    cases mem

theorem Daemon.Restorable.context (inv : d.Restorable ndebug) : ContextInvariant d :=
  inv.settled.owned.context

/-- Names are distinct, so a position is given by its name. -/
theorem ContextInvariant.unique (inv : ContextInvariant d) {i j : Nat} {cgen other : BfCgen}
    (at_ : d.cgens[i]? = some (some cgen)) (there : d.cgens[j]? = some (some other))
    (same : other.chain.name = cgen.chain.name) : j = i := by
  obtain ⟨inside, -⟩ := List.getElem?_eq_some_iff.mp there
  apply (List.getElem?_inj (by simpa using inside) inv.names).mp
  rw [List.getElem?_map, List.getElem?_map, at_, there]
  exact congrArg some (congrArg some same)

/-- No two codegens have one directory. -/
theorem Daemon.Restorable.unique (inv : d.Restorable ndebug) {i j : Nat} {cgen other : BfCgen}
    (at_ : d.cgens[i]? = some (some cgen)) (there : d.cgens[j]? = some (some other))
    (same : d.sys.homeDir other.chain.name = d.sys.homeDir cgen.chain.name) : j = i := by
  have named := inv.apart cgen (List.mem_of_getElem? at_) other (List.mem_of_getElem? there) same
  exact inv.context.unique at_ there named

theorem Daemon.FreeDir.withSys {name : String} (free : d.FreeDir name) (fixed : d.sys.Fixed s)
    {cgens : List (Option BfCgen)}
    (from_ : ∀ other, some other ∈ cgens → ∃ old, some old ∈ d.cgens ∧
      old.chain.name = other.chain.name) : Daemon.FreeDir { sys := s, cgens } name := by
  intro other mem same
  obtain ⟨old, mem, named⟩ := from_ other mem
  rw [fixed.homeDir, fixed.homeDir, ← named] at same
  exact named.symm.trans (free old mem same)

/-- One codegen is replaced and the pins of the others stay. -/
theorem Daemon.Restorable.put (inv : d.Restorable ndebug) {i : Nat} {cgen cgen' : BfCgen}
    (at_ : d.cgens[i]? = some (some cgen)) (fixed : d.sys.Fixed s)
    (settled : Daemon.Settled { sys := s, cgens := d.cgens.set i (some cgen') })
    (front : cgen'.front = cgen.front) (named : cgen'.chain.name = cgen.chain.name)
    (restorable : cgen'.Restorable ndebug s.homePins)
    (others : ∀ dir, dir ≠ d.sys.homeDir cgen.chain.name → s.pins dir = d.sys.pins dir) :
    Daemon.Restorable ndebug { sys := s, cgens := d.cgens.set i (some cgen') } := by
  have before (other : BfCgen) (mem : some other ∈ d.cgens.set i (some cgen')) :
      ∃ old, some old ∈ d.cgens ∧ old.chain.name = other.chain.name := by
    obtain mem | same := List.mem_or_eq_of_mem_set mem
    · exact ⟨other, mem, rfl⟩
    · cases same
      exact ⟨cgen, List.mem_of_getElem? at_, named.symm⟩
  refine ⟨settled, ?_, ?_, ?_⟩
  · intro other mem
    obtain mem | same := List.mem_or_eq_of_mem_set mem
    · exact inv.cli other mem
    · cases same
      exact front.trans (inv.cli cgen (List.mem_of_getElem? at_))
  · intro other mem
    obtain ⟨old, mem, same⟩ := before other mem
    exact same ▸ (inv.apart old mem).withSys fixed before
  · intro other mem
    obtain ⟨j, there⟩ := List.getElem?_of_mem mem
    rw [List.getElem?_set] at there
    by_cases same : i = j
    · rw [if_pos same] at there
      split at there
      · cases there
        exact restorable
      · cases there
    · rw [if_neg same] at there
      refine (inv.cgens other (List.mem_of_getElem? there)).move fixed (others _ fun shared => ?_)
      exact same (inv.unique at_ there shared).symm

/-- A codegen is removed with its pins, and its directory is nobody's. -/
theorem Daemon.Restorable.delete (inv : d.Restorable ndebug) (fixed : start.Fixed d.sys) {i : Nat}
    {cgen : BfCgen} (at_ : d.cgens[i]? = some (some cgen))
    (ran : bfCtxDeleteCgen none i cgen d = .ok ((), d')) :
    d'.Restorable ndebug ∧ start.Fixed d'.sys ∧ ∀ other, some other ∈ d'.cgens →
      d'.sys.homeDir other.chain.name ≠ d'.sys.homeDir cgen.chain.name := by
  have step := @bfCtxDeleteCgen_step (· = none) start.KeepsPaths _ _ _ _ _ at_ rfl ran
  have settled := step.settled fixed inv.settled
  have steady := step.fixed
  unfold bfCtxDeleteCgen at ran
  obtain ⟨_, t, unload, ran⟩ := bind_inv ran
  obtain ⟨sys, unloaded, rfl⟩ := onSys_inv unload
  cases ran
  have apart (other : BfCgen) (mem : some other ∈ d.cgens.eraseIdx i) :
      d.sys.homeDir other.chain.name ≠ d.sys.homeDir cgen.chain.name := by
    intro same
    obtain ⟨j, away, there⟩ := List.mem_eraseIdx_iff_getElem?.mp mem
    exact away (inv.unique at_ there same)
  refine ⟨⟨settled, ?_, ?_, ?_⟩, fixed.trans steady, ?_⟩
  · intro other mem
    exact inv.cli other (List.mem_of_mem_eraseIdx mem)
  · intro other mem
    refine (inv.apart other (List.mem_of_mem_eraseIdx mem)).withSys steady fun old mem => ?_
    exact ⟨old, List.mem_of_mem_eraseIdx mem, rfl⟩
  · intro other mem
    refine (inv.cgens other (List.mem_of_mem_eraseIdx mem)).move steady ?_
    refine (cgenUnload_of_run unloaded).pins_other ?_
    rw [inv.settled.dirOf]
    exact apart other mem
  · intro other mem
    rw [steady.homeDir, steady.homeDir]
    exact apart other mem

/-! ## Setting a chain -/

theorem CgenSet.filled {cgen cgen' : BfCgen} {client : BfNs} {hookopts : Option BfHookopts}
    (set : CgenSet fate cgen client hookopts s .ok cgen' s') : hasEmptySet cgen.chain = false := by
  cases set with
  | loaded dir made absent kept => exact newProgram_filled made
  | attached dir made present attach kept => exact newProgram_filled made

/-- A set codegen was pinned, so nothing was pinned in its place. -/
theorem CgenSet.free {cgen cgen' : BfCgen} {client : BfNs} {hookopts : Option BfHookopts}
    (set : CgenSet fate cgen client hookopts s .ok cgen' s') (persist : s.persist = true) :
    s.pins (s.dirOf cgen.chain.name) "bf_prog" = none := by
  have free {t : Sys} {prog : BfProg} (pins : t.pins = s.pins) (mode : t.persist = s.persist)
      (works : t.pinError (s.dirOf cgen.chain.name) fate.pin prog = none) :
      s.pins (s.dirOf cgen.chain.name) "bf_prog" = none := by
    rw [Sys.pinError, if_pos (mode.trans persist), pins] at works
    cases pinned : pinAll fate.pin prog.pinList (s.pins (s.dirOf cgen.chain.name)) with
    | mk failed dir =>
        rw [pinned] at works
        cases works
        exact (pinAll_cons pinned).2.1
  cases set with
  | loaded dir made absent kept =>
      obtain ⟨pins, mode⟩ := (newProgram_inv made).pins
      exact free pins mode (Sys.kept_ok kept).1
  | attached dir made present attach kept =>
      obtain ⟨pins, mode⟩ := (newProgram_inv made).pins
      exact free (attach.pins.1.trans pins) (attach.pins.2.trans mode) (Sys.kept_ok kept).1

/-- A codegen of the command line is appended, whose directory is nobody's. -/
theorem Daemon.Restorable.append (inv : d.Restorable ndebug) {cgen : BfCgen} {s : Sys}
    (settled : Daemon.Settled { sys := s, cgens := d.cgens ++ [some cgen] })
    (fixed : d.sys.Fixed s) (front : cgen.front = .cli)
    (free : ∀ other, some other ∈ d.cgens →
      d.sys.homeDir other.chain.name ≠ d.sys.homeDir cgen.chain.name)
    (kept : ∀ other, some other ∈ d.cgens → other.Restorable ndebug s.homePins)
    (new : cgen.Restorable ndebug s.homePins) :
    Daemon.Restorable ndebug { sys := s, cgens := d.cgens ++ [some cgen] } := by
  refine ⟨settled, ?_, ?_, ?_⟩
  · intro other mem
    obtain mem | mem := List.mem_append.mp mem
    · exact inv.cli other mem
    · cases List.mem_singleton.mp mem
      exact front
  · intro one mem two mem' shared
    rw [fixed.homeDir, fixed.homeDir] at shared
    obtain mem | mem := List.mem_append.mp mem <;> obtain mem' | mem' := List.mem_append.mp mem'
    · exact inv.apart one mem two mem' shared
    · cases List.mem_singleton.mp mem'
      exact absurd shared.symm (free one mem)
    · cases List.mem_singleton.mp mem
      exact absurd shared (free two mem')
    · cases List.mem_singleton.mp mem
      cases List.mem_singleton.mp mem'
      rfl
  · intro other mem
    obtain mem | mem := List.mem_append.mp mem
    · exact kept other mem
    · cases List.mem_singleton.mp mem
      exact new

/-- A codegen that was set in a directory of its own could be loaded again. -/
theorem CgenSet.restorable {client : BfNs} {cgen cgen' : BfCgen} {hookopts : Option BfHookopts}
    {s' : Sys} (set : CgenSet fate cgen client hookopts d.sys .ok cgen' s') (settled : d.Settled)
    (acceptable : cgen.chain.Acceptable ndebug) (unused : ¬ d.UsesDir cgen.chain.name) :
    cgen'.Restorable ndebug s'.homePins := by
  have same : cgen'.chain = cgen.chain := set.chain
  refine .of_ready (same ▸ acceptable) (same ▸ set.filled) set.ready ?_
    (set.fixed.persist.trans settled.owned.persist)
  have empty := settled.owned.unused unused
  have exact_ := set.exact fun _ => by rw [settled.dirOf, empty]
  rw [set.fixed.homeDir, same, ← settled.dirOf]
  exact exact_.pins

/-- Setting a chain whose directory is nobody's. -/
theorem setChain_restorable {client : BfNs} {cgen : BfCgen} {hookopts : Option BfHookopts}
    (inv : d.Restorable ndebug) (fixed : start.Fixed d.sys)
    (acceptable : cgen.chain.Acceptable ndebug) (fresh : cgen.program = none)
    (front : cgen.front = .cli) (opening : fate.unload = none)
    (attaching : ∀ opts, hookopts = some opts → start.KeepsPaths fate client cgen.chain opts)
    (free : ∀ other, some other ∈ d.cgens →
      d.sys.homeDir other.chain.name ≠ d.sys.homeDir cgen.chain.name)
    (ran : setChain fate client cgen hookopts d = .ok (r, d')) :
    d'.Restorable ndebug ∧ start.Fixed d'.sys := by
  have step := @setChain_steps (· = none) start.KeepsPaths _ _ _ _ _ _ _ fresh front opening
    attaching ran
  have settled := step.settled fixed inv.settled
  refine ⟨?_, fixed.trans step.fixed⟩
  unfold setChain at ran
  obtain ⟨⟨r', cgen'⟩, t, set, ran⟩ := bind_inv ran
  obtain ⟨s', acted, rfl⟩ := onSys_inv set
  have outcome := bfCgenSet_inv acted
  have steady := outcome.fixed
  have kept (other : BfCgen) (mem : some other ∈ d.cgens) :
      other.Restorable ndebug s'.homePins := by
    refine (inv.cgens other mem).move steady (outcome.pins_other ?_)
    rw [inv.settled.dirOf]
    exact free other mem
  cases r' with
  | err e =>
      cases ran
      exact ⟨settled, inv.cli, fun other mem =>
        (inv.apart other mem).withSys steady fun old mem => ⟨old, mem, rfl⟩, kept⟩
  | ok =>
      have same : cgen'.chain = cgen.chain := outcome.chain
      have unused : ¬ d.UsesDir cgen.chain.name := by
        rintro ⟨_, listed, there⟩
        obtain ⟨entry, mem, named⟩ := List.mem_map.mp listed
        obtain ⟨other, rfl, rfl⟩ := Option.map_eq_some_iff.mp named
        exact free other mem there
      obtain ⟨found, u, insert, ran⟩ := bind_inv ran
      obtain ⟨rfl, -, rfl⟩ | ⟨entry, rfl, present, rfl⟩ := bfCtxSetCgen_outcome insert
      · cases ran
        exact inv.append settled steady (outcome.front.trans front) (same ▸ free) kept
          (outcome.restorable inv.settled acceptable unused)
      · obtain ⟨at_, named⟩ := findCgen_some present
        refine absurd ?_ (free _ (List.mem_of_getElem? at_))
        rw [named, same]

/-- A chain that was set has been set on the system. -/
theorem setChain_set {client : BfNs} {cgen : BfCgen} {hookopts : Option BfHookopts}
    (ran : setChain fate client cgen hookopts d = .ok (.ok, d')) :
    ∃ cgen' s', CgenSet fate cgen client hookopts d.sys .ok cgen' s' := by
  unfold setChain at ran
  obtain ⟨⟨r', cgen'⟩, t, set, ran⟩ := bind_inv ran
  obtain ⟨s', acted, rfl⟩ := onSys_inv set
  cases r' with
  | err e => cases ran
  | ok => exact ⟨cgen', s', bfCgenSet_inv acted⟩

/-- The loop over a ruleset: a chain that was set had a directory of its own. -/
theorem setChains_restorable {client : BfNs} {entries : List (Except Errno RulesetEntry)}
    (inv : d.Restorable ndebug) (fixed : start.Fixed d.sys)
    (acceptable : ∀ entry, .ok entry ∈ entries → entry.chain.chain.Acceptable ndebug)
    (opening : ∀ entry, .ok entry ∈ entries → entry.fate.unload = none)
    (attaching : ∀ entry opts, .ok entry ∈ entries → entry.hookopts = some opts →
      start.KeepsPaths entry.fate client entry.chain.chain opts)
    (ran : setChains client entries d = .ok (.ok, d')) : d'.Restorable ndebug := by
  induction entries generalizing d with
  | nil =>
      cases ran
      exact inv
  | cons head rest ih =>
      cases head with
      | error e => cases ran
      | ok entry =>
          rw [setChains] at ran
          obtain ⟨result, t, new, ran⟩ := bind_inv ran
          obtain ⟨rfl, ⟨e, rfl⟩ | rfl⟩ := bfCgenNew_outcome new
          · cases ran
          · obtain ⟨r', u, set, ran⟩ := bind_inv ran
            cases r' with
            | err e => cases ran
            | ok =>
                -- Its program was pinned, and the directory of any codegen has one.
                have free (other : BfCgen) (mem : some other ∈ t.cgens) :
                    t.sys.homeDir other.chain.name ≠ t.sys.homeDir entry.chain.chain.name := by
                  intro same
                  obtain ⟨_, _, outcome⟩ := setChain_set set
                  have unpinned := outcome.free inv.settled.owned.persist
                  obtain ⟨prog, -, -, -, dir⟩ := (inv.cgens other mem).program
                  rw [inv.settled.dirOf] at unpinned
                  rw [Sys.homePins, same] at dir
                  rw [dir] at unpinned
                  exact absurd unpinned (by simp [BfProg.pinDir, BfProg.pinList])
                obtain ⟨set', fixed'⟩ := setChain_restorable inv fixed
                  (acceptable entry List.mem_cons_self) rfl rfl (opening entry List.mem_cons_self)
                  (fun opts => attaching entry opts List.mem_cons_self) free set
                exact ih set' fixed' (fun other mem => acceptable other (List.mem_cons_of_mem _ mem))
                  (fun other mem => opening other (List.mem_cons_of_mem _ mem))
                  (fun other opts mem => attaching other opts (List.mem_cons_of_mem _ mem)) ran

/-! ## Requests -/

theorem Daemon.cgens_nil (chains : d.cliChains = []) (others : d.otherEntries = []) :
    d.cgens = [] := by
  rw [List.eq_nil_iff_forall_not_mem]
  intro entry mem
  have cli : cliChain entry = none := List.filterMap_eq_nil_iff.mp chains entry mem
  exact absurd (by rw [cli]; rfl) (List.filter_eq_nil_iff.mp others entry mem)

theorem Daemon.Restorable.otherEntries (inv : d.Restorable ndebug) : d.otherEntries = [] := by
  refine List.filter_eq_nil_iff.mpr fun entry mem => ?_
  obtain ⟨cgen, rfl⟩ := Option.isSome_iff_exists.mp (inv.context.live entry mem)
  simp [cliChain, inv.cli cgen mem]

theorem bfCliRulesetSet_restorable {client : BfNs} {fails failsAgain : String → Option Errno}
    {ruleset : RulesetPayload} (inv : d.Restorable ndebug) (settled : d'.Settled)
    (acceptable : (Request.rulesetSet client fails failsAgain ruleset).Chains
      (BfChain.Acceptable ndebug))
    (opens : (Request.rulesetSet client fails failsAgain ruleset).Opens (· = none))
    (attaches : (Request.rulesetSet client fails failsAgain ruleset).Attaches d.sys.KeepsPaths d)
    (ran : bfCliRulesetSet client fails failsAgain ruleset d = .ok (r, d')) :
    d'.Restorable ndebug := by
  unfold bfCliRulesetSet at ran
  obtain ⟨_, t, flush, ran⟩ := bind_inv ran
  obtain ⟨chains, others⟩ := bfCtxFlush_cli flush
  have empty : t.cgens = [] := Daemon.cgens_nil chains (others.trans inv.otherEntries)
  obtain ⟨settled', fixed⟩ := inv.settled.steps (.refl d.sys) (bfCtxFlush_steps opens.1 flush)
  have flushed : t.Restorable ndebug := .of_empty settled' empty
  cases ruleset with
  | garbled => cases ran
  | error e =>
      cases ran
      exact flushed
  | ok entries =>
      obtain ⟨r', u, set, ran⟩ := bind_inv ran
      have again {r' : Ret}
          (ran : (do bfCtxFlush failsAgain .cli; pure r' : Handle Ret) u = .ok (r, d')) :
          d'.Restorable ndebug := by
        obtain ⟨_, v, flush, ran⟩ := bind_inv ran
        obtain ⟨chains, others⟩ := bfCtxFlush_cli flush
        cases ran
        refine .of_empty settled (Daemon.cgens_nil chains (others.trans ?_))
        rw [(setChains_chains set).1, flushed.otherEntries]
      cases r' with
      | err e => exact again ran
      | ok =>
          cases ran
          apply setChains_restorable flushed fixed _ _ _ set
          · exact fun entry mem => acceptable entries entry rfl mem
          · exact fun entry mem => opens.2.2 entries entry rfl mem
          · exact fun entry opts mem => attaches entries entry opts rfl mem

theorem bfCliChainSet_restorable {client : BfNs} {chain : DecodedChain}
    {hookopts : Option BfHookopts} (inv : d.Restorable ndebug)
    (acceptable : chain.chain.Acceptable ndebug) (opening : fate.unload = none)
    (attaching : ∀ opts, hookopts = some opts → d.sys.KeepsPaths fate client chain.chain opts)
    (free : d.FreeDir chain.chain.name)
    (ran : bfCliChainSet fate client chain hookopts none d = .ok (r, d')) :
    d'.Restorable ndebug := by
  unfold bfCliChainSet at ran
  obtain ⟨result, t, new, ran⟩ := bind_inv ran
  obtain ⟨rfl, ⟨e, rfl⟩ | rfl⟩ := bfCgenNew_outcome new
  · cases ran
    exact inv
  · obtain ⟨found, u, get, ran⟩ := bind_inv ran
    obtain ⟨rfl, search⟩ := bfCtxGetCgen_inv get
    cases found with
    | none =>
        refine (setChain_restorable inv (.refl _) acceptable rfl rfl opening attaching ?_ ran).1
        intro other mem same
        exact findCgen_none search (List.mem_map.mpr ⟨_, mem, congrArg some (free other mem same)⟩)
    | some entry =>
        obtain ⟨_, v, delete, ran⟩ := bind_inv ran
        obtain ⟨at_, named⟩ := findCgen_some search
        obtain ⟨deleted, fixed, apart⟩ := inv.delete (.refl _) at_ delete
        exact (setChain_restorable deleted fixed acceptable rfl rfl opening attaching
          (named ▸ apart) ran).1

theorem bfCliChainLoad_restorable {chain : DecodedChain} (inv : d.Restorable ndebug)
    (acceptable : chain.chain.Acceptable ndebug) (opening : fate.unload = none)
    (free : d.FreeDir chain.chain.name) (ran : bfCliChainLoad fate chain d = .ok (r, d')) :
    d'.Restorable ndebug := by
  unfold bfCliChainLoad at ran
  obtain ⟨found, t, get, ran⟩ := bind_inv ran
  obtain ⟨rfl, search⟩ := bfCtxGetCgen_inv get
  cases found with
  | some entry =>
      cases ran
      exact inv
  | none =>
      obtain ⟨result, t, new, ran⟩ := bind_inv ran
      obtain ⟨rfl, ⟨e, rfl⟩ | rfl⟩ := bfCgenNew_outcome new
      · cases ran
        exact inv
      · -- The rest is setting a chain without hook options.
        have ran : setChain fate ⟨0, 0⟩ { front := .cli, chain := chain.chain } none t
            = .ok (r, d') := ran
        refine (setChain_restorable inv (.refl _) acceptable rfl rfl opening
          (fun _ same => by cases same) ?_ ran).1
        intro other mem same
        exact findCgen_none search (List.mem_map.mpr ⟨_, mem, congrArg some (free other mem same)⟩)

theorem bfCliChainAttach_restorable {client : BfNs} {name : String} {opts : BfHookopts}
    (inv : d.Restorable ndebug) (settled : d'.Settled)
    (ran : bfCliChainAttach fate client name opts d = .ok (r, d')) : d'.Restorable ndebug := by
  obtain rfl | ⟨i, cgen, prog, cgen', sys, at_, -, running, detached, attached, rfl⟩ :=
    bfCliChainAttach_inv ran
  · exact inv
  have attach := bfCgenAttach_inv attached
  have restorable := inv.cgens cgen (List.mem_of_getElem? at_)
  obtain ⟨ready, same⟩ := attach.ready (inv.context.ready cgen (List.mem_of_getElem? at_))
  refine inv.put at_ attach.fixed settled attach.same.2 (by rw [same]) ?_ fun dir apart => ?_
  · refine .of_ready (same ▸ restorable.acceptable) (same ▸ restorable.filled) ready ?_
      settled.owned.persist
    have before := restorable.exact
    rw [← inv.settled.dirOf] at before
    have after := attach.exact before fun other present => by
      cases running.symm.trans present
      exact detached
    rw [attach.fixed.homeDir, same, ← inv.settled.dirOf]
    exact after.pins
  · rw [← inv.settled.dirOf] at apart
    exact attach.pins_other apart

theorem bfCliChainUpdate_restorable {chain : DecodedChain} (inv : d.Restorable ndebug)
    (settled : d'.Settled) (acceptable : chain.chain.Acceptable ndebug)
    (pin : ∀ n, fate.pin n = none) (repin : ∀ n, fate.repin n = none)
    (ran : bfCliChainUpdate fate chain d = .ok (r, d')) : d'.Restorable ndebug := by
  obtain rfl | ⟨i, cgen, r', cgen', sys, at_, named, updated, rfl⟩ := bfCliChainUpdate_outcome ran
  · exact inv
  have update := bfCgenUpdate_inv updated
  have mem := List.mem_of_getElem? at_
  have restorable := inv.cgens cgen mem
  obtain ⟨ready, same⟩ := update.ready (inv.context.ready cgen mem)
  have named' : cgen'.chain.name = cgen.chain.name := by
    obtain same | same := same
    · rw [same]
    · rw [same, named]
  have others (dir : Nat) (apart : dir ≠ d.sys.homeDir cgen.chain.name) :
      sys.pins dir = d.sys.pins dir := by
    rw [← named, ← inv.settled.dirOf] at apart
    exact update.pins_other apart
  cases filled : hasEmptySet chain.chain with
  | true =>
      -- No program is made of such a chain, so the codegen and its pins stay.
      obtain ⟨rfl, pins⟩ := bfCgenUpdate_notBuilt updated fun prog t made => by
        rw [newProgram_filled made] at filled
        cases filled
      exact inv.put at_ update.fixed settled rfl rfl
        (restorable.move update.fixed (by rw [pins])) others
  | false =>
      have pinning : PinningWorks fate cgen chain.chain := by
        refine ⟨?_, ?_⟩
        · intro old present
          obtain ⟨prog, running, own, whole, -⟩ := restorable.program
          cases running.symm.trans present
          refine BfProg.pin_works repin ?_ fun linked => whole ▸ linked
          rw [own]
          exact restorable.few
        · intro prog own running
          refine BfProg.pin_works pin ?_ fun _ => running
          rw [own]
          exact acceptable.few
      have pins : PinsExact (sys.homeDir cgen'.chain.name) cgen' sys := by
        have before := restorable.exact
        rw [← named, ← inv.settled.dirOf] at before
        rw [update.fixed.homeDir, named', ← named, ← inv.settled.dirOf]
        exact (update.exact before pinning).pins
      refine inv.put at_ update.fixed settled update.result.1 named' ?_ others
      obtain same | same := same
      · exact .of_ready (same ▸ restorable.acceptable) (same ▸ restorable.filled) ready pins
          settled.owned.persist
      · exact .of_ready (same ▸ acceptable) (same ▸ filled) ready pins settled.owned.persist

theorem bfCliChainFlush_restorable {name : String} (inv : d.Restorable ndebug)
    (ran : bfCliChainFlush none name d = .ok (r, d')) : d'.Restorable ndebug := by
  unfold bfCliChainFlush at ran
  obtain ⟨found, t, get, ran⟩ := bind_inv ran
  obtain ⟨rfl, search⟩ := bfCtxGetCgen_inv get
  cases found with
  | none =>
      cases ran
      exact inv
  | some entry =>
      obtain ⟨_, u, delete, ran⟩ := bind_inv ran
      cases ran
      exact (inv.delete (.refl _) (findCgen_some search).1 delete).1

/-- A request of the command line keeps every codegen restorable. -/
theorem step_restorable {request : Request} (inv : d.Restorable ndebug)
    (cli : request.isCli = true) (reliable : request.PinsReliably)
    (acceptable : request.Chains (BfChain.Acceptable ndebug))
    (attaches : request.Attaches d.sys.KeepsPaths d) (own : request.OwnDir d)
    (ran : step request d = .ok (r, d')) : d'.Restorable ndebug := by
  obtain ⟨opens, pins⟩ := reliable
  have settled := (inv.settled.steps (.refl d.sys) (cli_steps cli opens attaches ran)).1
  cases request with
  | rulesetFlush fails =>
      obtain ⟨_, t, flush, ran⟩ := bind_inv ran
      obtain ⟨chains, others⟩ := bfCtxFlush_cli flush
      cases ran
      exact .of_empty settled (Daemon.cgens_nil chains (others.trans inv.otherEntries))
  | rulesetSet client fails failsAgain ruleset =>
      exact bfCliRulesetSet_restorable inv settled acceptable opens attaches ran
  | chainSet fate client chain hookopts failsOld =>
      obtain ⟨rfl, opening⟩ := opens
      exact bfCliChainSet_restorable inv acceptable opening attaches own ran
  | chainLoad fate chain => exact bfCliChainLoad_restorable inv acceptable opens own ran
  | chainAttach fate client name opts => exact bfCliChainAttach_restorable inv settled ran
  | chainUpdate fate chain =>
      obtain ⟨pin, repin⟩ := pins fate chain rfl
      exact bfCliChainUpdate_restorable inv settled acceptable pin repin ran
  | chainFlush fails name =>
      obtain rfl := opens
      exact bfCliChainFlush_restorable inv ran
  | iptRulesetSet fates client replace => cases cli

end Invariant

/-! ## Runs -/

/-- A message a client of the command line may send, with pinning reliable. -/
def Message.Admissible (ndebug : Bool) : Message → Prop
  | .change request => request.isCli = true ∧ request.PinsReliably ∧
      request.Chains (BfChain.Acceptable ndebug)
  | .idle _ => True

/-- The message strands the daemon nowhere its paths lead elsewhere, and takes no directory another
chain has. -/
def Message.FindsPaths : Message → Daemon → Prop
  | .change request, d => request.Attaches d.sys.KeepsPaths d ∧ request.OwnDir d
  | .idle _, _ => True

/-- The context in memory is restorable and the file is its saved form. -/
structure Service.Saved (ndebug : Bool) (enabled : BfFront → Bool) (s : Service) : Prop where
  daemon : s.daemon.Restorable ndebug
  file : bfSave enabled s.daemon.cgens = .ok s.file

theorem Request.cmd_saves (request : Request) : request.cmd.saves = true := by
  cases request <;> rfl

theorem bfProcessRequest_saved {ndebug : Bool} {enabled : BfFront → Bool} {message : Message}
    {s s' : Service} {r : Ret} (inv : s.Saved ndebug enabled)
    (admissible : message.Admissible ndebug) (finds : message.FindsPaths s.daemon)
    (ran : bfProcessRequest enabled message s = .ok (r, s')) : s'.Saved ndebug enabled := by
  unfold bfProcessRequest at ran
  cases handled : message.handle s.daemon with
  | error death =>
      simp only [handled] at ran
      cases ran
  | ok result =>
      obtain ⟨r', daemon⟩ := result
      simp only [handled] at ran
      have restorable : daemon.Restorable ndebug := by
        cases message with
        | change request =>
            obtain ⟨cli, reliable, acceptable⟩ := admissible
            exact step_restorable inv.daemon cli reliable acceptable finds.1 finds.2 handled
        | idle cmd =>
            cases handled
            exact inv.daemon
      by_cases saves : (daemon.sys.persist && message.cmd.saves) = true
      · rw [if_pos saves] at ran
        cases saved : bfSave enabled daemon.cgens with
        | error death =>
            simp only [saved] at ran
            cases ran
        | ok content =>
            simp only [saved] at ran
            cases ran
            refine ⟨restorable, ?_⟩
            -- The file is written where a restart looks for it.
            have here : daemon.sys.homeFile = daemon.sys.file :=
              (congrArg Paths.file restorable.settled.home).symm
            simp only [Service.file, writeFile, if_pos here]
            exact saved
      · rw [if_neg saves] at ran
        cases ran
        cases message with
        | change request =>
            rw [restorable.settled.owned.persist, Message.cmd, request.cmd_saves] at saves
            exact absurd rfl saves
        | idle cmd =>
            cases handled
            exact ⟨restorable, inv.file⟩

theorem mapM_id_some {α : Type} (values : List α) : (values.map some).mapM id = some values := by
  induction values with
  | nil => rfl
  | cons value rest ih => simp [List.mapM_cons, ih]

theorem exists_map_some {α : Type} {values : List (Option α)}
    (present : ∀ value ∈ values, value.isSome = true) :
    ∃ list : List α, values = list.map some := by
  induction values with
  | nil => exact ⟨[], rfl⟩
  | cons first rest ih =>
      obtain ⟨a, rfl⟩ := Option.isSome_iff_exists.mp (present first List.mem_cons_self)
      obtain ⟨list, rfl⟩ := ih fun value mem => present value (List.mem_cons_of_mem _ mem)
      exact ⟨a :: list, rfl⟩

/-- A restart finds the file exactly when the context is not empty, and loads the context. -/
structure Service.Restarts (ndebug : Bool) (s : Service) : Prop where
  file : s.file.isSome = true ↔ s.daemon.cgens ≠ []
  context : ∃ ctx, s.reload ndebug = .ok ctx ∧ (ctx.getD []).map some = s.daemon.state

/-- What was saved is what a restart loads. -/
theorem Service.Saved.restarts {ndebug : Bool} {enabled : BfFront → Bool} {s : Service}
    (saved : s.Saved ndebug enabled) : s.Restarts ndebug := by
  obtain ⟨cgens, list⟩ := exists_map_some saved.daemon.context.live
  have file := saved.file
  rw [list, bfSave, mapM_id_some] at file
  cases cgens with
  | nil =>
      have absent : s.file = none := (Except.ok.inj file).symm
      refine ⟨?_, none, ?_, ?_⟩
      · simp [absent, list]
      · rw [Service.reload, absent]
        rfl
      · rw [Daemon.state, list]
        rfl
  | cons first rest =>
      have present := (Except.ok.inj file).symm
      have back : ((first :: rest).map bfCgenPack).mapM
          (bfCgenNewFromPack ndebug s.daemon.sys.homePins) =
            .ok ((first :: rest).map BfCgen.state) := by
        apply mapM_write (first :: rest)
        intro cgen mem
        refine bfCgenNewFromPack_pack (saved.daemon.cgens cgen ?_)
        rw [list]
        exact List.mem_map_of_mem mem
      refine ⟨?_, some ((first :: rest).map BfCgen.state), ?_, ?_⟩
      · simp [present, list]
      · rw [Service.reload, present]
        simp only [bfLoad, bfCtxPack, bfRpackKv, bfRpackKvNode, bfRpackArray, orErrno]
        simp [back, -List.mapM_map, -List.map_cons]
      · rw [Daemon.state, list]
        simp

/-- **A restart restores the context.**  After any sequence of messages from the command line, with
acceptable chains and reliable pinning, none of which strands the daemon where its paths lead
elsewhere or takes another chain's directory: the context file exists exactly when the context is
not empty, and loading it gives the codegens of the context in their order: front end, chain,
program with its maps, messages and image, and link. -/
theorem restart_restores_context (host : Host) (own : BfNs) (paths : Nat → Paths)
    (enabled : BfFront → Bool) (s : Service) (run : Run (bfProcessRequest enabled)
      (fun message s => message.Admissible host.ndebug ∧ message.FindsPaths s.daemon)
      (.start host own paths) s) : s.Restarts host.ndebug := by
  have start : (Service.start host own paths).Saved host.ndebug enabled := by
    refine ⟨.of_empty ⟨⟨⟨List.nodup_nil, ?_, ?_⟩, rfl, rfl, ?_⟩, rfl⟩ rfl, rfl⟩
    · exact fun _ mem => absurd mem List.not_mem_nil
    · exact fun _ mem => absurd mem List.not_mem_nil
    · exact fun _ _ pinned => absurd rfl pinned
  refine (run.invariant start ?_).restarts
  intro message s r s' ⟨inv, admissible, finds⟩ ran
  exact bfProcessRequest_saved inv admissible finds ran

/-- The Netfilter chain without rules can be sent. -/
theorem nfChain_acceptable : (nfChain .nfLocalIn).chain.Acceptable sampleHost.ndebug := by
  have built : (nfChain .nfLocalIn).chain.Built :=
    .new rfl (fun _ mem => absurd mem List.not_mem_nil) fun _ mem => absurd mem List.not_mem_nil
  exact ⟨built.decoded _, rfl, by decide, by decide, fun _ mem => absurd mem List.not_mem_nil⟩

/-- A Netfilter chain is set and attached, and the daemon restarted. -/
theorem attached_context_restored : ∃ s : Service, s.daemon.cgens ≠ [] ∧ s.file.isSome = true ∧
    ∃ ctx, s.reload sampleHost.ndebug = .ok ctx ∧ (ctx.getD []).map some = s.daemon.state := by
  have passes : Passes (bfProcessRequest (fun _ => true) (.change (attachNf ⟨1, 1⟩)))
      (.start sampleHost ⟨1, 1⟩ plainPaths) (fun _ s => s.file.isSome) = true := by
    decide +kernel
  obtain ⟨r, s, ran, test⟩ := passes_inv passes
  have admissible : (Message.change (attachNf ⟨1, 1⟩)).Admissible sampleHost.ndebug :=
    ⟨rfl, ⟨⟨rfl, rfl⟩, fun _ _ same => by cases same⟩, nfChain_acceptable⟩
  have finds : (Message.change (attachNf ⟨1, 1⟩)).FindsPaths
      (Service.start sampleHost ⟨1, 1⟩ plainPaths).daemon :=
    ⟨fun _ _ strands => (by cases strands), fun _ mem => absurd mem List.not_mem_nil⟩
  obtain ⟨file, restored⟩ := restart_restores_context sampleHost ⟨1, 1⟩ plainPaths (fun _ => true) s
    (.tail .refl ⟨admissible, finds⟩ ran)
  exact ⟨s, file.mp test, test, restored⟩

/-- A client in mount namespace 2 has the link of its chain refused, which leaves the daemon there.
The chain set next is saved and pinned in that namespace, and a restart finds neither. -/
theorem stranded_daemon_saves_elsewhere :
    ¬ ∀ (host : Host) (own : BfNs) (paths : Nat → Paths) (enabled : BfFront → Bool) (s : Service),
      Run (bfProcessRequest enabled) (fun message _ => message.Admissible host.ndebug)
        (.start host own paths) s → s.Restarts host.ndebug := by
  intro restores
  let refused : Message :=
    .change (.chainSet { linkCreate := some .einval } ⟨1, 2⟩ (nfChain .nfLocalIn) (some nfOpts) none)
  have passes : Passes (do
      let _ ← bfProcessRequest (fun _ => true) refused
      bfProcessRequest (fun _ => true) (.change (attachNf ⟨1, 1⟩)))
      (.start sampleHost ⟨1, 1⟩ plainPaths)
      (fun _ s => s.file.isNone && !s.daemon.cgens.isEmpty) = true := by decide +kernel
  obtain ⟨r, s, ran, test⟩ := passes_inv passes
  obtain ⟨_, t, one, two⟩ := bind_inv ran
  simp only [Bool.and_eq_true, Option.isNone_iff_eq_none, Bool.not_eq_true',
    List.isEmpty_eq_false_iff] at test
  have admissible : refused.Admissible sampleHost.ndebug :=
    ⟨rfl, ⟨⟨rfl, rfl⟩, fun _ _ same => by cases same⟩, nfChain_acceptable⟩
  have admissible' : (Message.change (attachNf ⟨1, 1⟩)).Admissible sampleHost.ndebug :=
    ⟨rfl, ⟨⟨rfl, rfl⟩, fun _ _ same => by cases same⟩, nfChain_acceptable⟩
  have found := (restores sampleHost ⟨1, 1⟩ plainPaths (fun _ => true) s
    (.tail (.tail .refl admissible one) admissible' two)).file.mpr test.2
  rw [test.1] at found
  cases found

end Bpfilter
