/-
# Daemon.Steps -- what each operation can do

One relation per operation lists its outcomes with the state each leaves, and one
theorem says that nothing else happens.  Every invariant of the daemon is derived
from these, so the operations are unfolded here and nowhere else.
-/
import Bpfilter.Daemon.Cgen

namespace Bpfilter

set_option autoImplicit false

open Hoare

variable {fate : Fate} {s s' : Sys}

/-! ## Namespaces -/

/-- Whether `bf_ns_set` succeeds. -/
def nsSwitched (target old : BfNs) (netWorks mntWorks : Bool) : Bool :=
  (target.net == old.net || netWorks) && (target.mnt == old.mnt || mntWorks)

/-- Where `bf_ns_set` leaves the process. -/
def nsAfter (target old : BfNs) (netWorks mntWorks : Bool) (ns : BfNs) : BfNs where
  net := if target.net ≠ old.net ∧ netWorks then target.net else ns.net
  mnt :=
    if (target.net = old.net ∨ netWorks) ∧ target.mnt ≠ old.mnt ∧ mntWorks then target.mnt
    else ns.mnt

theorem bfNsSwitch_run (target old : Nat) (works : Bool) (enter : Nat → Sys → Sys) (s : Sys) :
    bfNsSwitch target old works enter s =
      .ok (target == old || works, if target ≠ old ∧ works then enter target s else s) := by
  unfold bfNsSwitch
  by_cases same : target = old
  · rw [if_pos same, pure_run]
    simp [same]
  · rw [if_neg same]
    cases works with
    | false => simp [same, pure_run]
    | true =>
        rw [if_pos rfl, bind_run (modify_run _ s), pure_run]
        simp [same]

theorem bfNsSet_run (target old : BfNs) (netWorks mntWorks : Bool) (s : Sys) :
    bfNsSet target old netWorks mntWorks s =
      .ok (nsSwitched target old netWorks mntWorks,
        { s with ns := nsAfter target old netWorks mntWorks s.ns }) := by
  unfold bfNsSet
  rw [bind_run (bfNsSwitch_run ..)]
  by_cases entered : target.net = old.net ∨ netWorks = true
  · have go : (target.net == old.net || netWorks) = true := by simpa using entered
    rw [if_pos go, bfNsSwitch_run]
    congr 2
    · simp [nsSwitched, go]
    · simp only [nsAfter, entered, true_and, setMntNs, setNetNs]
      split <;> split <;> rfl
  · have stop : (target.net == old.net || netWorks) = false := by simpa using entered
    rw [stop, if_neg Bool.false_ne_true, pure_run]
    congr 2
    · simp [nsSwitched, stop]
    · have stay : ¬ (target.net ≠ old.net ∧ netWorks = true) := fun both => entered (.inr both.2)
      simp only [nsAfter, entered, stay, false_and, if_false]

/-- What no operation changes. -/
structure Sys.Fixed (s s' : Sys) : Prop where
  host : s'.host = s.host
  persist : s'.persist = s.persist
  ownNs : s'.ownNs = s.ownNs
  paths : s'.paths = s.paths

theorem Sys.Fixed.refl (s : Sys) : s.Fixed s := ⟨rfl, rfl, rfl, rfl⟩

theorem Sys.Fixed.trans {s t u : Sys} (one : s.Fixed t) (two : t.Fixed u) : s.Fixed u :=
  ⟨two.host.trans one.host, two.persist.trans one.persist, two.ownNs.trans one.ownNs,
    two.paths.trans one.paths⟩

/-- Names lead where they did from the daemon's own mount namespace. -/
theorem Sys.Fixed.homeDir {s s' : Sys} (fixed : s.Fixed s') (name : String) :
    s'.homeDir name = s.homeDir name := by
  rw [Sys.homeDir, Sys.homeDir, fixed.paths, fixed.ownNs]

/-! ## Programs -/

/-- A program whose code was generated from a chain and loaded. -/
def BfProg.BuiltFrom (prog : BfProg) (chain : BfChain) : Prop :=
  prog.chain = chain ∧ ∃ host maps code,
    bfProgramGenerate (bfProgramNew host chain maps) = .ok ((), code) ∧
      bfProgramLoadFixups code = .ok ((), prog.code)

/-- The state after `bf_program_generate`. -/
def Sys.generate (s : Sys) (chain : BfChain) : Sys := { s with generated := s.generated ++ [chain] }

/-- The state after an allocation in the kernel. -/
def Sys.alloc (s : Sys) : Sys := { s with next := s.next + 1 }

inductive NewProgram (chain : BfChain) (s : Sys) : Except Errno BfProg → Sys → Prop where
  | refused (e : Errno) : NewProgram chain s (.error e) s
  | failed (e : Errno) : NewProgram chain s (.error e) (s.generate chain)
  | loaded (prog : BfProg) (built : prog.BuiltFrom chain) (link : prog.link = {}) :
      NewProgram chain s (.ok prog) (s.generate chain).alloc

theorem freshId_run (s : Sys) : freshId s = .ok (s.next, s.alloc) := rfl

theorem ofGen_inv {α : Type} {death : GenErr → Death} {x : Except GenErr α}
    {result : Except Errno α} (ran : ofGen death x s = .ok (result, s')) :
    s' = s ∧ ∀ a, result = .ok a → x = .ok a := by
  cases x with
  | ok a =>
      cases ran
      exact ⟨rfl, fun _ same => by cases same; rfl⟩
  | error e =>
      cases e with
      | errno e =>
          cases ran
          exact ⟨rfl, fun _ same => by cases same⟩
      | abort => cases ran
      | undefined => cases ran

theorem generateProgram_inv {chain : BfChain} {result : Except Errno BfProgram}
    (ran : generateProgram fate chain s = .ok (result, s')) :
    s' = s.generate chain ∧ ∀ code, result = .ok code →
      bfProgramGenerate (bfProgramNew s.host chain fate.maps) = .ok ((), code) := by
  unfold generateProgram at ran
  rw [bind_run (get_run s), bind_run (modify_run _ s)] at ran
  -- What the generator computes plays no role here.
  generalize bfProgramGenerate (bfProgramNew s.host chain fate.maps) = x at ran ⊢
  obtain ⟨made, t, generated, ran⟩ := bind_inv ran
  obtain ⟨rfl, fromChain⟩ := ofGen_inv generated
  cases made with
  | error e =>
      cases ran
      exact ⟨rfl, fun _ same => by cases same⟩
  | ok done =>
      cases emitted : fate.emit with
      | some e =>
          simp only [emitted] at ran
          cases ran
          exact ⟨rfl, fun _ same => by cases same⟩
      | none =>
          simp only [emitted] at ran
          cases ran
          exact ⟨rfl, fun code same => by cases same; exact fromChain _ rfl⟩

theorem loadProgram_inv {chain : BfChain} {code : BfProgram} {result : Except Errno BfProg}
    (ran : loadProgram fate chain code s = .ok (result, s')) :
    (∃ e, result = .error e ∧ s' = s) ∨
      ∃ code', bfProgramLoadFixups code = .ok ((), code') ∧
        result = .ok { chain, code := code', id := s.next } ∧ s' = s.alloc := by
  unfold loadProgram at ran
  cases created : fate.mapCreate with
  | some e =>
      simp only [created] at ran
      cases ran
      exact .inl ⟨e, rfl, rfl⟩
  | none =>
      simp only [created] at ran
      obtain ⟨made, t, fixed, ran⟩ := bind_inv ran
      obtain ⟨rfl, fixedTo⟩ := ofGen_inv fixed
      cases made with
      | error e =>
          cases ran
          exact .inl ⟨e, rfl, rfl⟩
      | ok done =>
          cases loaded : fate.progLoad with
          | some e =>
              simp only [loaded] at ran
              cases ran
              exact .inl ⟨e, rfl, rfl⟩
          | none =>
              simp only [loaded] at ran
              rw [bind_run (freshId_run t)] at ran
              cases ran
              exact .inr ⟨done.2, fixedTo _ rfl, rfl, rfl⟩

theorem newProgram_inv {chain : BfChain} {result : Except Errno BfProg}
    (ran : newProgram fate chain s = .ok (result, s')) : NewProgram chain s result s' := by
  unfold newProgram at ran
  cases new : fate.programNew with
  | some e =>
      rw [new] at ran
      cases ran
      exact .refused e
  | none =>
      simp only [new] at ran
      by_cases empty : hasEmptySet chain = true
      · rw [if_pos empty] at ran
        cases ran
        exact .refused _
      rw [if_neg empty] at ran
      obtain ⟨made, t, generated, ran⟩ := bind_inv ran
      obtain ⟨rfl, fromChain⟩ := generateProgram_inv generated
      cases made with
      | error e =>
          cases ran
          exact .failed e
      | ok code =>
          obtain ⟨e, rfl, rfl⟩ | ⟨code', fixed, rfl, rfl⟩ := loadProgram_inv ran
          · exact .failed e
          · exact .loaded _ ⟨rfl, s.host, fate.maps, code, fromChain code rfl, fixed⟩ rfl

theorem NewProgram.fixed {chain : BfChain} {result : Except Errno BfProg}
    (made : NewProgram chain s result s') : s.Fixed s' := by
  cases made <;> exact ⟨rfl, rfl, rfl, rfl⟩

/-- A program is made of chains without empty set only. -/
theorem newProgram_filled {chain : BfChain} {prog : BfProg}
    (made : newProgram fate chain s = .ok (.ok prog, s')) : hasEmptySet chain = false := by
  unfold newProgram at made
  cases new : fate.programNew with
  | some e =>
      rw [new] at made
      cases made
  | none =>
      simp only [new] at made
      by_cases empty : hasEmptySet chain = true
      · rw [if_pos empty] at made
        cases made
      · exact Bool.eq_false_iff.mpr empty

/-! ## Links -/

/-- The state after a link was created. -/
def Sys.linkUp (s : Sys) (hook : BfHook) (opts : BfHookopts) : Sys :=
  { s.alloc with linked := s.linked ++ [(hook, opts)] }

/-- The link the kernel creates. -/
def newLink (s : Sys) (prog : BfProg) (hook : BfHook) (opts : BfHookopts) : KernelLink where
  id := s.next
  hook
  priority := if bfHookToFlavor hook = .nf then some opts.prios.1 else none
  netns := s.ns.net
  prog := prog.id

inductive LinkCreate (fate : Fate) (prog : BfProg) (hook : BfHook) (opts : BfHookopts) (s : Sys) :
    Except Errno KernelLink → Sys → Prop where
  | refused (e : Errno) (why : prog.flavor ≠ bfHookToFlavor hook ∨ fate.linkCreate = some e) :
      LinkCreate fate prog hook opts s (.error e) s
  | created (type : prog.flavor = bfHookToFlavor hook) (accepted : fate.linkCreate = none) :
      LinkCreate fate prog hook opts s (.ok (newLink s prog hook opts)) (s.linkUp hook opts)

theorem bfBpfLinkCreate_inv {prog : BfProg} {hook : BfHook} {opts : BfHookopts}
    {result : Except Errno KernelLink}
    (ran : bfBpfLinkCreate fate prog hook opts s = .ok (result, s')) :
    LinkCreate fate prog hook opts s result s' := by
  unfold bfBpfLinkCreate at ran
  by_cases type : prog.flavor = bfHookToFlavor hook
  · rw [if_neg (not_not_intro type)] at ran
    cases refused : fate.linkCreate with
    | some e =>
        simp only [refused] at ran
        cases ran
        exact .refused e (.inr refused)
    | none =>
        simp only [refused] at ran
        rw [bind_run (freshId_run s), bind_run (modify_run _ _), bind_run (get_run _)] at ran
        cases ran
        exact .created type refused
  · rw [if_pos type] at ran
    cases ran
    exact .refused _ (.inl type)

/-- Whether attaching fails: the control group does not open, or the kernel refuses the link. -/
def attachRefused (fate : Fate) (hook : BfHook) (opts : BfHookopts) : Bool :=
  (cgroupOpen fate hook opts).isSome || fate.linkCreate.isSome

inductive LinkAttach (fate : Fate) (link : BfLink) (opts : BfHookopts) (prog : BfProg) (s : Sys) :
    Ret → BfLink → Sys → Prop where
  | refused (e : Errno) (why : attachRefused fate prog.chain.hook opts = true) :
      LinkAttach fate link opts prog s (.err e) link s
  | attached (accepted : attachRefused fate prog.chain.hook opts = false) :
      LinkAttach fate link opts prog s .ok
        { hookopts := some opts, fd := some (newLink s prog prog.chain.hook opts) }
        (s.linkUp prog.chain.hook opts)

theorem bfLinkAttach_inv {link link' : BfLink} {opts : BfHookopts} {prog : BfProg} {r : Ret}
    (ran : bfLinkAttach fate link prog.chain.hook opts prog s = .ok ((r, link'), s')) :
    LinkAttach fate link opts prog s r link' s' := by
  unfold bfLinkAttach at ran
  cases opened : cgroupOpen fate prog.chain.hook opts with
  | some e =>
      simp only [opened] at ran
      cases ran
      exact .refused e (by simp [attachRefused, opened])
  | none =>
      simp only [opened] at ran
      obtain ⟨result, t, created, ran⟩ := bind_inv ran
      cases bfBpfLinkCreate_inv created with
      | refused e why =>
          cases ran
          -- The program has the type of its own chain's hook.
          obtain type | refused := why
          · exact absurd rfl type
          · exact .refused e (by simp [attachRefused, refused])
      | created type accepted =>
          cases ran
          exact .attached (by simp [attachRefused, opened, accepted])

inductive LinkUpdate (link : BfLink) (hook : BfHook) (prog : BfProg) (s : Sys) :
    Option Errno → BfLink → Sys → Prop where
  | refused (e : Errno) : LinkUpdate link hook prog s (some e) link s
  | replaced (opts : BfHookopts) (nf : bfHookToFlavor hook = .nf)
      (present : link.hookopts = some opts) (type : prog.flavor = bfHookToFlavor hook) :
      LinkUpdate link hook prog s none
        { hookopts := some opts.swapped, fd := some (newLink s prog hook opts.swapped) }
        (s.linkUp hook opts.swapped)
  | inPlace (fd : KernelLink) (notNf : bfHookToFlavor hook ≠ .nf) (present : link.fd = some fd)
      (type : prog.flavor = bfHookToFlavor fd.hook) :
      LinkUpdate link hook prog s none { link with fd := some { fd with prog := prog.id } } s

theorem bfLinkUpdate_inv {link link' : BfLink} {hook : BfHook} {prog : BfProg} {r : Option Errno}
    (ran : bfLinkUpdate fate link hook prog s = .ok ((r, link'), s')) :
    LinkUpdate link hook prog s r link' s' := by
  unfold bfLinkUpdate at ran
  by_cases nf : bfHookToFlavor hook = .nf
  · rw [if_pos nf] at ran
    unfold bfLinkUpdateNf at ran
    cases present : link.hookopts with
    | none =>
        rw [present] at ran
        cases ran
    | some opts =>
        simp only [present] at ran
        obtain ⟨result, t, created, ran⟩ := bind_inv ran
        cases bfBpfLinkCreate_inv created with
        | refused e _ =>
            cases ran
            exact .refused e
        | created type _ =>
            cases ran
            exact .replaced opts nf present type
  · rw [if_neg nf] at ran
    unfold bfBpfLinkUpdate at ran
    cases present : link.fd with
    | none =>
        rw [present] at ran
        cases ran
        exact .refused _
    | some fd =>
        simp only [present] at ran
        by_cases type : prog.flavor = bfHookToFlavor fd.hook
        · rw [if_neg (not_not_intro type)] at ran
          split at ran
          · cases ran
            exact .refused _
          · cases ran
            exact .inPlace fd nf present type
        · rw [if_pos type] at ran
          cases ran
          exact .refused _

theorem LinkUpdate.fixed {link link' : BfLink} {hook : BfHook} {prog : BfProg} {r : Option Errno}
    (update : LinkUpdate link hook prog s r link' s') : s.Fixed s' := by
  cases update <;> exact ⟨rfl, rfl, rfl, rfl⟩

/-! ## Pins -/

namespace Sys

variable (s : Sys) (dir : Nat) (entries entries' : Dir)

@[simp] theorem setDir_host : (s.setDir dir entries).host = s.host := rfl

@[simp] theorem setDir_persist : (s.setDir dir entries).persist = s.persist := rfl

@[simp] theorem setDir_ownNs : (s.setDir dir entries).ownNs = s.ownNs := rfl

@[simp] theorem setDir_ns : (s.setDir dir entries).ns = s.ns := rfl

@[simp] theorem setDir_paths : (s.setDir dir entries).paths = s.paths := rfl

@[simp] theorem setDir_generated : (s.setDir dir entries).generated = s.generated := rfl

@[simp] theorem setDir_linked : (s.setDir dir entries).linked = s.linked := rfl

@[simp] theorem setDir_pins_self : (s.setDir dir entries).pins dir = entries := by simp [setDir]

@[simp] theorem setDir_setDir :
    (s.setDir dir entries).setDir dir entries' = s.setDir dir entries' := by
  simp only [setDir]
  congr 1
  funext dir'
  split <;> rfl

/-- `bf_program_unpin` in persistent mode. -/
def unpin (prog : BfProg) : Sys :=
  if s.persist then s.setDir dir ((s.pins dir).unpin prog) else s

/-- What `bf_program_pin` returns in persistent mode. -/
def pinError (fails : Nat → Option Errno) (prog : BfProg) : Option Errno :=
  if s.persist then (pinAll fails prog.pinList (s.pins dir)).1 else none

/-- `bf_program_pin` in persistent mode. -/
def pin (fails : Nat → Option Errno) (prog : BfProg) : Sys :=
  if s.persist then
    match pinAll fails prog.pinList (s.pins dir) with
    | (none, entries) => s.setDir dir entries
    | (some _, entries) => s.setDir dir (entries.unpin prog)
  else s

/-- Only the pins changed. -/
structure SameButPins (s s' : Sys) : Prop where
  host : s'.host = s.host
  persist : s'.persist = s.persist
  ownNs : s'.ownNs = s.ownNs
  ns : s'.ns = s.ns
  paths : s'.paths = s.paths
  generated : s'.generated = s.generated
  linked : s'.linked = s.linked

theorem SameButPins.refl : s.SameButPins s := ⟨rfl, rfl, rfl, rfl, rfl, rfl, rfl⟩

theorem SameButPins.fixed {s s' : Sys} (same : s.SameButPins s') : s.Fixed s' :=
  ⟨same.host, same.persist, same.ownNs, same.paths⟩

theorem setDir_sameButPins : s.SameButPins (s.setDir dir entries) :=
  ⟨rfl, rfl, rfl, rfl, rfl, rfl, rfl⟩

theorem unpin_sameButPins (prog : BfProg) : s.SameButPins (s.unpin dir prog) := by
  unfold unpin
  split
  · exact setDir_sameButPins ..
  · exact .refl s

theorem pin_sameButPins (fails : Nat → Option Errno) (prog : BfProg) :
    s.SameButPins (s.pin dir fails prog) := by
  unfold pin
  split
  · split
    · exact setDir_sameButPins ..
    · exact setDir_sameButPins ..
  · exact .refl s

end Sys

theorem bfProgramPin_run (fails : Nat → Option Errno) (prog : BfProg) (dir : Nat) (s : Sys)
    (persist : s.persist = true) :
    bfProgramPin fails prog dir s = .ok (s.pinError dir fails prog, s.pin dir fails prog) := by
  unfold bfProgramPin Sys.pinError Sys.pin
  rw [bind_run (get_run s), if_pos persist, if_pos persist]
  cases pinned : pinAll fails prog.pinList (s.pins dir) with
  | mk r entries =>
      simp only
      rw [bind_run (modify_run _ s)]
      cases r with
      | none => rfl
      | some e =>
          rw [if_pos (show (some e).isSome = true from rfl), bfProgramUnpin,
            bind_run (modify_run _ _), pure_run, Sys.setDir_pins_self, Sys.setDir_setDir]

theorem unpinPersistent_run (prog : BfProg) (dir : Nat) (s : Sys) :
    unpinPersistent prog dir s = .ok ((), s.unpin dir prog) := by
  unfold unpinPersistent Sys.unpin
  rw [bind_run (get_run s)]
  split <;> rfl

theorem pinPersistent_run (fails : Nat → Option Errno) (prog : BfProg) (dir : Nat) (s : Sys) :
    pinPersistent fails prog dir s =
      .ok (s.pinError dir fails prog, s.pin dir fails prog) := by
  unfold pinPersistent
  rw [bind_run (get_run s)]
  cases persist : s.persist with
  | true => rw [if_pos rfl, bfProgramPin_run fails prog dir s persist]
  | false =>
      rw [if_neg Bool.false_ne_true, pure_run]
      simp [Sys.pinError, Sys.pin, persist]

/-! ## Attaching -/

/-- In the client's namespaces, as far as `bf_ns_set` got. -/
def Sys.enter (s : Sys) (fate : Fate) (client : BfNs) : Sys :=
  { s with ns := nsAfter client s.ownNs fate.switchNet fate.switchMnt s.ns }

/-- Back from the client's namespaces. -/
def Sys.leave (s : Sys) (fate : Fate) (client : BfNs) : Sys :=
  { s with ns := nsAfter s.ownNs client fate.restoreNet fate.restoreMnt s.ns }

/-- Whether the client's namespaces were entered. -/
def Fate.enters (fate : Fate) (client own : BfNs) : Bool :=
  nsSwitched client own fate.switchNet fate.switchMnt

/-- Whether the daemon's namespaces were restored. -/
def Fate.restores (fate : Fate) (client own : BfNs) : Bool :=
  nsSwitched own client fate.restoreNet fate.restoreMnt

/-- A program with the link it is attached by. -/
def BfProg.attached (prog : BfProg) (s : Sys) (opts : BfHookopts) : BfProg :=
  { prog with link := { hookopts := some opts, fd := some (newLink s prog prog.chain.hook opts) } }

inductive AttachIn (fate : Fate) (client : BfNs) (prog : BfProg) (opts : BfHookopts) (s : Sys) :
    Ret → BfProg → Sys → Prop where
  | notEntered (outside : fate.enters client s.ownNs = false) :
      AttachIn fate client prog opts s (.err .eperm) prog (s.enter fate client)
  | refused (e : Errno) (inside : fate.enters client s.ownNs = true)
      (why : attachRefused fate prog.chain.hook opts = true) :
      AttachIn fate client prog opts s (.err e) prog (s.enter fate client)
  | attached (inside : fate.enters client s.ownNs = true)
      (accepted : attachRefused fate prog.chain.hook opts = false)
      (restored : fate.restores client s.ownNs = true) :
      AttachIn fate client prog opts s .ok (prog.attached (s.enter fate client) opts)
        (((s.enter fate client).linkUp prog.chain.hook opts).leave fate client)

theorem enter_run (fate : Fate) (client : BfNs) (s : Sys) :
    bfNsSet client s.ownNs fate.switchNet fate.switchMnt s =
      .ok (fate.enters client s.ownNs, s.enter fate client) :=
  bfNsSet_run ..

/-- Leaving the client's namespaces either works or ends the daemon. -/
theorem leave_inv {client : BfNs} {own : BfNs} {α : Type} {a b : α} (same : own = s.ownNs)
    (ran : (do
      if ← bfNsSet own client fate.restoreNet fate.restoreMnt then pure a else throw .abort :
        Act α) s = .ok (b, s')) :
    fate.restores client s.ownNs = true ∧ b = a ∧ s' = s.leave fate client := by
  subst same
  rw [bind_run (bfNsSet_run ..)] at ran
  split at ran
  · rename_i restored
    cases ran
    exact ⟨restored, rfl, rfl⟩
  · cases ran

theorem attachIn_inv {client : BfNs} {prog prog' : BfProg} {opts : BfHookopts} {r : Ret}
    (ran : attachIn fate client prog opts s = .ok ((r, prog'), s')) :
    AttachIn fate client prog opts s r prog' s' := by
  unfold attachIn at ran
  rw [bind_run (get_run s), bind_run (enter_run ..)] at ran
  by_cases inside : fate.enters client s.ownNs = true
  · rw [if_pos inside] at ran
    obtain ⟨⟨r', link⟩, t, attach, ran⟩ := bind_inv ran
    cases bfLinkAttach_inv attach with
    | refused e why =>
        cases ran
        exact .refused e inside why
    | attached accepted =>
        simp only at ran
        obtain ⟨restored, same, rfl⟩ :=
          leave_inv (show s.ownNs = ((s.enter fate client).linkUp prog.chain.hook opts).ownNs
            from rfl) ran
        cases same
        exact .attached inside accepted restored
  · rw [if_neg inside] at ran
    cases ran
    exact .notEntered (Bool.eq_false_iff.mpr inside)

theorem AttachIn.fixed {client : BfNs} {prog prog' : BfProg} {opts : BfHookopts} {r : Ret}
    (attach : AttachIn fate client prog opts s r prog' s') : s.Fixed s' := by
  cases attach <;> exact ⟨rfl, rfl, rfl, rfl⟩

/-! ## Codegens -/

/-- What opening the pin directory returns. -/
def Sys.dirError (s : Sys) (fate : Fate) : Option Errno :=
  if s.persist then fate.bpffs <|> fate.chainDir else none

theorem openPindir_run (fate : Fate) (name : String) (s : Sys) :
    openPindir fate name s = .ok (match s.dirError fate with
      | some e => .error e
      | none => .ok (s.dirOf name), s) := by
  unfold openPindir Sys.dirError
  rw [bind_run (get_run s)]
  cases if s.persist then fate.bpffs <|> fate.chainDir else none <;> rfl

/-- What `keepProgram` returns. -/
def Sys.kept (s : Sys) (fate : Fate) (cgen : BfCgen) (dir : Nat) (prog : BfProg) : Ret × BfCgen :=
  match s.pinError dir fate.pin prog with
  | some e => (.err e, cgen)
  | none => (.ok, { cgen with program := some prog })

theorem keepProgram_run (fate : Fate) (cgen : BfCgen) (dir : Nat) (prog : BfProg) (s : Sys) :
    keepProgram fate cgen dir prog s =
      .ok (s.kept fate cgen dir prog, s.pin dir fate.pin prog) := by
  unfold keepProgram Sys.kept
  rw [bind_run (pinPersistent_run ..)]
  cases s.pinError dir fate.pin prog <;> rfl

/-- The codegen keeps the program, or is returned as it was with an error. -/
theorem Sys.kept_inv {cgen cgen' : BfCgen} {dir : Nat} {r : Ret} {prog : BfProg}
    (kept : s.kept fate cgen dir prog = (r, cgen')) :
    (cgen' = cgen ∧ ∃ e, r = .err e) ∨
      cgen' = { cgen with program := some prog } ∧ r = .ok ∧ s.pinError dir fate.pin prog = none := by
  unfold Sys.kept at kept
  split at kept
  · rename_i e _
    cases kept
    exact .inl ⟨rfl, e, rfl⟩
  · rename_i works
    cases kept
    exact .inr ⟨rfl, rfl, works⟩

theorem keepProgram_inv {cgen cgen' : BfCgen} {dir : Nat} {r : Ret} {prog : BfProg}
    (ran : keepProgram fate cgen dir prog s = .ok ((r, cgen'), s')) :
    s.kept fate cgen dir prog = (r, cgen') ∧ s' = s.pin dir fate.pin prog := by
  rw [keepProgram_run] at ran
  exact ⟨congrArg Prod.fst (Except.ok.inj ran), (congrArg Prod.snd (Except.ok.inj ran)).symm⟩

inductive CgenSet (fate : Fate) (cgen : BfCgen) (client : BfNs) (hookopts : Option BfHookopts)
    (s : Sys) : Ret → BfCgen → Sys → Prop where
  | notBuilt (e : Errno) (t : Sys) (state : t = s ∨ NewProgram cgen.chain s (.error e) t)
      (why : s.dirError fate = none → ∀ prog u,
        newProgram fate cgen.chain s ≠ .ok (.ok prog, u)) :
      CgenSet fate cgen client hookopts s (.err e) cgen t
  | loaded {prog : BfProg} {t : Sys} {r : Ret} {cgen' : BfCgen} (dir : s.dirError fate = none)
      (made : newProgram fate cgen.chain s = .ok (.ok prog, t)) (absent : hookopts = none)
      (kept : t.kept fate cgen (s.dirOf cgen.chain.name) prog = (r, cgen')) :
      CgenSet fate cgen client hookopts s r cgen' (t.pin (s.dirOf cgen.chain.name) fate.pin prog)
  | notAttached {opts : BfHookopts} {prog prog' : BfProg} {t u : Sys} (e : Errno)
      (dir : s.dirError fate = none) (made : newProgram fate cgen.chain s = .ok (.ok prog, t))
      (present : hookopts = some opts) (attach : AttachIn fate client prog opts t (.err e) prog' u) :
      CgenSet fate cgen client hookopts s (.err e) cgen u
  | attached {opts : BfHookopts} {prog prog' : BfProg} {t u : Sys} {r : Ret} {cgen' : BfCgen}
      (dir : s.dirError fate = none) (made : newProgram fate cgen.chain s = .ok (.ok prog, t))
      (present : hookopts = some opts) (attach : AttachIn fate client prog opts t .ok prog' u)
      (kept : u.kept fate cgen (s.dirOf cgen.chain.name) prog' = (r, cgen')) :
      CgenSet fate cgen client hookopts s r cgen' (u.pin (s.dirOf cgen.chain.name) fate.pin prog')

theorem bfCgenSet_inv {cgen cgen' : BfCgen} {client : BfNs} {hookopts : Option BfHookopts} {r : Ret}
    (ran : bfCgenSet fate cgen client hookopts s = .ok ((r, cgen'), s')) :
    CgenSet fate cgen client hookopts s r cgen' s' := by
  unfold bfCgenSet at ran
  rw [bind_run (openPindir_run ..)] at ran
  cases dir : s.dirError fate with
  | some e =>
      rw [dir] at ran
      cases ran
      exact .notBuilt e s (.inl rfl) fun none => by simp [dir] at none
  | none =>
      simp only [dir] at ran
      obtain ⟨result, t, made, ran⟩ := bind_inv ran
      cases result with
      | error e =>
          cases ran
          refine .notBuilt e s' (.inr (newProgram_inv made)) fun _ prog u other => ?_
          rw [made] at other
          cases other
      | ok prog =>
          cases hookopts with
          | none =>
              obtain ⟨kept, rfl⟩ := keepProgram_inv ran
              exact .loaded dir made rfl kept
          | some opts =>
              obtain ⟨⟨r', prog'⟩, u, attach, ran⟩ := bind_inv ran
              have outcome := attachIn_inv attach
              cases r' with
              | err e =>
                  cases ran
                  exact .notAttached e dir made rfl outcome
              | ok =>
                  obtain ⟨kept, rfl⟩ := keepProgram_inv ran
                  exact .attached dir made rfl outcome kept

theorem CgenSet.fixed {cgen cgen' : BfCgen} {client : BfNs} {hookopts : Option BfHookopts}
    {r : Ret} (set : CgenSet fate cgen client hookopts s r cgen' s') : s.Fixed s' := by
  cases set with
  | notBuilt e t state why =>
      obtain rfl | failed := state
      · exact .refl _
      · exact failed.fixed
  | loaded dir made absent kept =>
      exact (newProgram_inv made).fixed.trans (Sys.pin_sameButPins ..).fixed
  | notAttached e dir made present attach => exact (newProgram_inv made).fixed.trans attach.fixed
  | attached dir made present attach kept =>
      exact ((newProgram_inv made).fixed.trans attach.fixed).trans (Sys.pin_sameButPins ..).fixed

/-- Loading is setting without hook options. -/
theorem bfCgenLoad_inv {cgen cgen' : BfCgen} {r : Ret} (client : BfNs)
    (ran : bfCgenLoad fate cgen s = .ok ((r, cgen'), s')) :
    CgenSet fate cgen client none s r cgen' s' :=
  bfCgenSet_inv (show bfCgenSet fate cgen client none s = .ok ((r, cgen'), s') from ran)

inductive CgenAttach (fate : Fate) (cgen : BfCgen) (client : BfNs) (opts : BfHookopts) (s : Sys) :
    Ret → BfCgen → Sys → Prop where
  | noDir (e : Errno) (dir : s.dirError fate = some e) :
      CgenAttach fate cgen client opts s (.err e) cgen s
  | refused {prog prog' : BfProg} {t : Sys} (e : Errno) (dir : s.dirError fate = none)
      (present : cgen.program = some prog)
      (attach : AttachIn fate client prog opts s (.err e) prog' t) :
      CgenAttach fate cgen client opts s (.err e) { cgen with program := some prog' } t
  | kept {prog prog' : BfProg} {t : Sys} (dir : s.dirError fate = none)
      (present : cgen.program = some prog) (attach : AttachIn fate client prog opts s .ok prog' t)
      (transient : t.persist = false) :
      CgenAttach fate cgen client opts s .ok { cgen with program := some prog' } t
  | notPinned {prog prog' : BfProg} {t : Sys} (e : Errno) (dir : s.dirError fate = none)
      (present : cgen.program = some prog) (attach : AttachIn fate client prog opts s .ok prog' t)
      (persist : t.persist = true) :
      CgenAttach fate cgen client opts s (.err e)
        { cgen with program := some { prog' with link := {} } } t
  | pinned {prog prog' : BfProg} {t : Sys} {entries : Dir} (dir : s.dirError fate = none)
      (present : cgen.program = some prog) (attach : AttachIn fate client prog opts s .ok prog' t)
      (persist : t.persist = true)
      (pin : bfBpfObjPin "bf_link" (prog'.link.fd.map fun fd => .link fd.id) fate.linkPin
        (t.pins (s.dirOf cgen.chain.name)) = .ok entries) :
      CgenAttach fate cgen client opts s .ok { cgen with program := some prog' }
        (t.setDir (s.dirOf cgen.chain.name) entries)

theorem keepLink_inv {cgen cgen' : BfCgen} {client : BfNs} {opts : BfHookopts} {prog prog' : BfProg}
    {r : Ret} {t : Sys} (dir : s.dirError fate = none) (present : cgen.program = some prog)
    (attach : AttachIn fate client prog opts s .ok prog' t)
    (ran : keepLink fate cgen (s.dirOf cgen.chain.name) prog' t = .ok ((r, cgen'), s')) :
    CgenAttach fate cgen client opts s r cgen' s' := by
  unfold keepLink at ran
  rw [bind_run (get_run t)] at ran
  cases persist : t.persist with
  | false =>
      rw [persist, if_neg Bool.false_ne_true] at ran
      cases ran
      exact .kept dir present attach persist
  | true =>
      rw [if_pos persist] at ran
      obtain ⟨pinned, u, pin, ran⟩ := bind_inv ran
      unfold bfLinkPin at pin
      rw [bind_run (get_run t)] at pin
      cases entries : bfBpfObjPin "bf_link" (prog'.link.fd.map fun fd => .link fd.id) fate.linkPin
          (t.pins (s.dirOf cgen.chain.name)) with
      | error e =>
          simp only [entries] at pin
          cases pin
          cases ran
          exact .notPinned e dir present attach persist
      | ok entries' =>
          simp only [entries] at pin
          rw [bind_run (modify_run _ t)] at pin
          cases pin
          cases ran
          exact .pinned dir present attach persist entries

theorem bfCgenAttach_inv {cgen cgen' : BfCgen} {client : BfNs} {opts : BfHookopts} {r : Ret}
    (ran : bfCgenAttach fate cgen client opts s = .ok ((r, cgen'), s')) :
    CgenAttach fate cgen client opts s r cgen' s' := by
  unfold bfCgenAttach at ran
  rw [bind_run (openPindir_run ..)] at ran
  cases dir : s.dirError fate with
  | some e =>
      rw [dir] at ran
      cases ran
      exact .noDir e dir
  | none =>
      cases present : cgen.program with
      | none =>
          simp only [dir, present] at ran
          cases ran
      | some prog =>
          simp only [dir, present] at ran
          obtain ⟨⟨r', prog'⟩, t, attach, ran⟩ := bind_inv ran
          have outcome := attachIn_inv attach
          cases r' with
          | err e =>
              cases ran
              exact .refused e dir present outcome
          | ok => exact keepLink_inv dir present outcome ran

theorem CgenAttach.fixed {cgen cgen' : BfCgen} {client : BfNs} {opts : BfHookopts} {r : Ret}
    (attach : CgenAttach fate cgen client opts s r cgen' s') : s.Fixed s' := by
  cases attach with
  | noDir e dir => exact .refl _
  | refused e dir present attach => exact attach.fixed
  | kept dir present attach transient => exact attach.fixed
  | notPinned e dir present attach persist => exact attach.fixed
  | pinned dir present attach persist pin =>
      exact attach.fixed.trans (Sys.setDir_sameButPins ..).fixed

inductive CgenUpdate (fate : Fate) (cgen : BfCgen) (chain : BfChain) (s : Sys) :
    Ret → BfCgen → Sys → Prop where
  | notBuilt (e : Errno) (t : Sys) (state : t = s ∨ NewProgram chain s (.error e) t) :
      CgenUpdate fate cgen chain s (.err e) cgen t
  | refused {old prog : BfProg} {t : Sys} (e : Errno) (present : cgen.program = some old)
      (made : NewProgram chain s (.ok prog) t) :
      CgenUpdate fate cgen chain s (.err e) cgen
        ((t.unpin (s.dirOf chain.name) old).pin (s.dirOf chain.name) fate.repin old)
  | swapped {old prog : BfProg} {link : BfLink} {t u : Sys} (present : cgen.program = some old)
      (made : NewProgram chain s (.ok prog) t)
      (update : LinkUpdate old.link cgen.chain.hook prog (t.unpin (s.dirOf chain.name) old) none
        link u) :
      CgenUpdate fate cgen chain s .ok { cgen with chain, program := some { prog with link } }
        (u.pin (s.dirOf chain.name) fate.pin { prog with link })

theorem swapPrograms_inv {cgen cgen' : BfCgen} {old prog : BfProg} {chain : BfChain} {r : Ret}
    {t : Sys} (present : cgen.program = some old) (made : NewProgram chain s (.ok prog) t)
    (ran : swapPrograms fate cgen (s.dirOf chain.name) old prog chain t = .ok ((r, cgen'), s')) :
    CgenUpdate fate cgen chain s r cgen' s' := by
  unfold swapPrograms at ran
  rw [bind_run (unpinPersistent_run ..)] at ran
  obtain ⟨⟨r', link⟩, u, updated, ran⟩ := bind_inv ran
  have outcome := bfLinkUpdate_inv updated
  cases r' with
  | some e =>
      cases outcome
      simp only at ran
      rw [bind_run (pinPersistent_run ..)] at ran
      cases ran
      exact .refused e present made
  | none =>
      simp only at ran
      rw [bind_run (pinPersistent_run ..)] at ran
      cases ran
      exact .swapped present made outcome

theorem bfCgenUpdate_inv {cgen cgen' : BfCgen} {chain : BfChain} {r : Ret}
    (ran : bfCgenUpdate fate cgen chain s = .ok ((r, cgen'), s')) :
    CgenUpdate fate cgen chain s r cgen' s' := by
  unfold bfCgenUpdate at ran
  rw [bind_run (openPindir_run ..)] at ran
  cases dir : s.dirError fate with
  | some e =>
      rw [dir] at ran
      cases ran
      exact .notBuilt e s (.inl rfl)
  | none =>
      simp only [dir] at ran
      obtain ⟨result, t, made, ran⟩ := bind_inv ran
      cases result with
      | error e =>
          cases ran
          exact .notBuilt e s' (.inr (newProgram_inv made))
      | ok prog =>
          cases present : cgen.program with
          | none =>
              simp only [present] at ran
              cases ran
          | some old =>
              simp only [present] at ran
              exact swapPrograms_inv present (newProgram_inv made) ran

theorem CgenUpdate.fixed {cgen cgen' : BfCgen} {chain : BfChain} {r : Ret}
    (update : CgenUpdate fate cgen chain s r cgen' s') : s.Fixed s' := by
  cases update with
  | notBuilt e t state =>
      obtain rfl | failed := state
      · exact .refl _
      · exact failed.fixed
  | refused e present made =>
      exact (made.fixed.trans (Sys.unpin_sameButPins ..).fixed).trans (Sys.pin_sameButPins ..).fixed
  | swapped present made update =>
      exact ((made.fixed.trans (Sys.unpin_sameButPins ..).fixed).trans update.fixed).trans
        (Sys.pin_sameButPins ..).fixed

end Bpfilter
