/-
# Daemon.Update -- updating a chain is all or nothing

`bf_cgen_update` unpins the old program, moves the link to the new one and pins that;
if the link does not move, the old program is pinned again.  The pins of a codegen
are exact when its directory holds those of its program and nothing else.
`Lifecycle` is the history of a codegen in one directory: it is set while nothing is
pinned there, attached, updated, and other codegens come and go in between.  In
persistent mode an operation on it must open that directory, from whichever namespace
it is made.

`update_all_or_nothing` holds along every such history in which pinning during updates
succeeds: a failed update leaves the codegen and every pin as they were, a successful
one leaves the new chain, its program, the moved link and exactly its pins.
-/
import Bpfilter.Daemon.Attachment

namespace Bpfilter

set_option autoImplicit false

open Hoare

variable {fate : Fate} {s s' : Sys}

/-! ## Directories -/

/-- A directory nothing is pinned in. -/
def Dir.empty : Dir := fun _ => none

theorem bfBpfObjPin_ok {name : String} {obj : Option BpfObj} {fails : Option Errno} {dir dir' : Dir}
    (pinned : bfBpfObjPin name obj fails dir = .ok dir') :
    obj.isSome = true ∧ dir name = none ∧
      dir' = fun name' => if name' = name then obj else dir name' := by
  unfold bfBpfObjPin at pinned
  cases obj with
  | none => cases pinned
  | some obj =>
      simp only at pinned
      split at pinned
      · cases pinned
      · rename_i free
        split at pinned
        · cases pinned
        · cases pinned
          exact ⟨rfl, by simpa using free, rfl⟩

/-- One pin, and the rest into what it leaves. -/
theorem pinAll_cons {fails : Nat → Option Errno} {name : String} {obj : Option BpfObj}
    {rest : List (String × Option BpfObj)} {dir dir' : Dir}
    (pinned : pinAll fails ((name, obj) :: rest) dir = (none, dir')) :
    obj.isSome = true ∧ dir name = none ∧
      pinAll fails rest (fun name' => if name' = name then obj else dir name') = (none, dir') := by
  rw [pinAll] at pinned
  cases pin : bfBpfObjPin name obj (fails rest.length) dir with
  | error e =>
      rw [pin] at pinned
      cases pinned
  | ok next =>
      rw [pin] at pinned
      obtain ⟨present, free, rfl⟩ := bfBpfObjPin_ok pin
      exact ⟨present, free, pinned⟩

/-- Pinning succeeds only under names that are free. -/
theorem pinAll_free {fails : Nat → Option Errno} {list : List (String × Option BpfObj)}
    {dir dir' : Dir} (pinned : pinAll fails list dir = (none, dir')) {name : String}
    (taken : (dir name).isSome = true) : list.lookup name = none := by
  induction list generalizing dir with
  | nil => rfl
  | cons head rest ih =>
      obtain ⟨first, obj⟩ := head
      obtain ⟨-, free, pinned⟩ := pinAll_cons pinned
      have other : name ≠ first := by
        rintro rfl
        simp [free] at taken
      rw [List.lookup_cons, beq_false_of_ne other]
      refine ih pinned ?_
      rw [if_neg other]
      exact taken

/-- What pinning leaves: the new pins in front of the old ones. -/
theorem pinAll_dir {fails : Nat → Option Errno} {list : List (String × Option BpfObj)}
    {dir dir' : Dir} (pinned : pinAll fails list dir = (none, dir')) (name : String) :
    dir' name = match list.lookup name with
      | some obj => obj
      | none => dir name := by
  induction list generalizing dir with
  | nil =>
      cases pinned
      rfl
  | cons head rest ih =>
      obtain ⟨first, obj⟩ := head
      obtain ⟨present, -, pinned⟩ := pinAll_cons pinned
      rw [ih pinned, List.lookup_cons]
      by_cases same : name = first
      · subst same
        rw [pinAll_free pinned (by simpa using present)]
        simp
      · simp [same, beq_false_of_ne same]

theorem pinAll_empty {fails : Nat → Option Errno} {prog : BfProg} {dir : Dir}
    (pinned : pinAll fails prog.pinList .empty = (none, dir)) : dir = prog.pinDir := by
  funext name
  rw [pinAll_dir pinned name, BfProg.pinDir]
  cases prog.pinList.lookup name with
  | none => rfl
  | some obj => rfl

/-- Every name a program is pinned under is removed when it is unpinned. -/
theorem BfProg.pinDir_unpin (prog : BfProg) : prog.pinDir.unpin prog = .empty := by
  funext name
  unfold Dir.unpin
  split
  · rfl
  · rename_i other
    have absent : prog.pinList.lookup name = none := by
      rw [List.lookup_eq_none_iff]
      intro entry mem
      rw [bne_iff_ne]
      rintro rfl
      refine other ?_
      simp only [BfProg.pinList, List.mem_append, List.mem_cons, List.not_mem_nil, or_false] at mem
      obtain (mem | mem) | mem := mem
      · obtain rfl | rfl | rfl | rfl := mem <;> simp [BfProg.unpinNames]
      · simp only [BfProg.unpinNames, List.mem_cons, List.mem_map]
        exact .inr (.inr (.inr (.inr (.inr ⟨entry, mem, rfl⟩))))
      · split at mem
        · rw [List.mem_singleton.mp mem]
          simp [BfProg.unpinNames]
        · cases mem
    rw [BfProg.pinDir, absent]
    rfl

/-! ## Histories -/

/-- In persistent mode, the directory of a codegen holds the pins of its program. -/
def PinsExact (dir : Nat) (cgen : BfCgen) (s : Sys) : Prop :=
  s.persist = true → ∀ prog, cgen.program = some prog → s.pins dir = prog.pinDir

/-- A program that is attached. -/
def BfCgen.attachedBy (cgen : BfCgen) (prog : BfProg) : Prop :=
  cgen.program = some prog ∧ prog.link.hookopts.isSome = true

/-- Pinning the old or the new program succeeds, in a directory nothing is pinned in. -/
structure PinningWorks (fate : Fate) (cgen : BfCgen) (chain : BfChain) : Prop where
  repin : ∀ old, cgen.program = some old → (pinAll fate.repin old.pinList .empty).1 = none
  pin : ∀ prog : BfProg, prog.chain = chain → prog.link.fd.isSome = true →
    (pinAll fate.pin prog.pinList .empty).1 = none

/-- The states of one codegen with its pins in a directory, from the moment it is set. -/
inductive Lifecycle (dir : Nat) : BfCgen → Sys → Prop where
  | set {fate : Fate} {cgen cgen' : BfCgen} {client : BfNs} {hookopts : Option BfHookopts}
      {s s' : Sys} (fresh : cgen.program = none)
      (opens : s.persist = true → s.dirOf cgen.chain.name = dir) (unused : s.pins dir = .empty)
      (ran : bfCgenSet fate cgen client hookopts s = .ok ((.ok, cgen'), s')) :
      Lifecycle dir cgen' s'
  | attach {fate : Fate} {cgen cgen' : BfCgen} {client : BfNs} {opts : BfHookopts} {s s' : Sys}
      {r : Ret} (before : Lifecycle dir cgen s)
      (opens : s.persist = true → s.dirOf cgen.chain.name = dir)
      (detached : ∀ prog, cgen.program = some prog → prog.link.hookopts = none)
      (ran : bfCgenAttach fate cgen client opts s = .ok ((r, cgen'), s')) : Lifecycle dir cgen' s'
  | update {fate : Fate} {cgen cgen' : BfCgen} {chain : BfChain} {s s' : Sys} {r : Ret}
      (before : Lifecycle dir cgen s) (opens : s.persist = true → s.dirOf chain.name = dir)
      (pinning : PinningWorks fate cgen chain)
      (ran : bfCgenUpdate fate cgen chain s = .ok ((r, cgen'), s')) : Lifecycle dir cgen' s'
  | other {cgen : BfCgen} {s s' : Sys} (before : Lifecycle dir cgen s)
      (mode : s'.persist = s.persist) (untouched : s'.pins dir = s.pins dir) :
      Lifecycle dir cgen s'

theorem NewProgram.pins {chain : BfChain} {result : Except Errno BfProg}
    (made : NewProgram chain s result s') : s'.pins = s.pins ∧ s'.persist = s.persist := by
  cases made <;> exact ⟨rfl, rfl⟩

theorem AttachIn.pins {client : BfNs} {prog prog' : BfProg} {opts : BfHookopts} {r : Ret}
    (attach : AttachIn fate client prog opts s r prog' s') :
    s'.pins = s.pins ∧ s'.persist = s.persist := by
  cases attach <;> exact ⟨rfl, rfl⟩

theorem LinkUpdate.pins {link link' : BfLink} {hook : BfHook} {prog : BfProg} {r : Option Errno}
    (update : LinkUpdate link hook prog s r link' s') :
    s'.pins = s.pins ∧ s'.persist = s.persist := by
  cases update <;> exact ⟨rfl, rfl⟩

/-- Pinning into an empty directory leaves exactly the pins of the program. -/
theorem Sys.pin_exact {dir : Nat} {fails : Nat → Option Errno} {prog : BfProg}
    (persist : s.persist = true) (unused : s.pins dir = .empty)
    (works : s.pinError dir fails prog = none) :
    s.pin dir fails prog = s.setDir dir prog.pinDir := by
  unfold Sys.pinError at works
  unfold Sys.pin
  rw [if_pos persist, unused] at works
  rw [if_pos persist, unused]
  cases pinned : pinAll fails prog.pinList Dir.empty with
  | mk r dir =>
      rw [pinned] at works
      cases works
      rw [pinAll_empty pinned]

/-- The pins of a program do not depend on a link without hook options. -/
theorem BfProg.pinDir_detached {prog prog' : BfProg} (chain : prog'.chain = prog.chain)
    (id : prog'.id = prog.id) (detached : prog.link.hookopts = none)
    (detached' : prog'.link.hookopts = none) : prog'.pinDir = prog.pinDir := by
  have same : prog'.pinList = prog.pinList := by
    simp [BfProg.pinList, BfProg.setPins, chain, id, detached, detached']
  funext name
  rw [BfProg.pinDir, same, BfProg.pinDir]

/-- Pinning the link of a program whose other pins are there completes its directory. -/
theorem BfProg.pinDir_link {prog prog' : BfProg} {fails : Option Errno} {entries : Dir}
    (chain : prog'.chain = prog.chain) (id : prog'.id = prog.id)
    (detached : prog.link.hookopts = none) (attached : prog'.link.hookopts.isSome = true)
    (pin : bfBpfObjPin "bf_link" (prog'.link.fd.map fun fd => .link fd.id) fails prog.pinDir =
      .ok entries) : entries = prog'.pinDir := by
  obtain ⟨present, free, rfl⟩ := bfBpfObjPin_ok pin
  have list : prog'.pinList =
      prog.pinList ++ [("bf_link", prog'.link.fd.map fun fd => .link fd.id)] := by
    simp [BfProg.pinList, BfProg.setPins, chain, id, detached, attached]
  -- Everything else a program pins is there, so a name without pin is not in the list.
  have absent : prog.pinList.lookup "bf_link" = none := by
    cases found : prog.pinList.lookup "bf_link" with
    | none => rfl
    | some obj =>
        obtain ⟨before, after, split, -⟩ := List.lookup_eq_some_iff.mp found
        have mem : ("bf_link", obj) ∈ prog.pinList := by
          rw [split]
          exact List.mem_append_right _ List.mem_cons_self
        have some : obj.isSome = true := by
          simp only [BfProg.pinList, BfProg.setPins, detached, Option.isSome_none,
            Bool.false_eq_true, if_false, List.append_nil, List.mem_append, List.mem_cons,
            List.mem_map, List.not_mem_nil, or_false, Prod.mk.injEq] at mem
          obtain mem | ⟨index, -, -, rfl⟩ := mem
          · obtain ⟨-, rfl⟩ | ⟨-, rfl⟩ | ⟨-, rfl⟩ | ⟨-, rfl⟩ := mem <;> rfl
          · rfl
        rw [BfProg.pinDir, found] at free
        cases free
        cases some
  funext name
  show (if name = "bf_link" then _ else prog.pinDir name) = prog'.pinDir name
  simp only [BfProg.pinDir]
  rw [list, List.lookup_append]
  by_cases same : name = "bf_link"
  · subst same
    rw [absent]
    simp
  · rw [if_neg same, List.lookup_cons, beq_false_of_ne same]
    simp

/-! ## One update -/

/-- The hook options and the kernel link of a `struct bf_link` come and go together. -/
def BfCgen.LinkWhole (cgen : BfCgen) : Prop :=
  ∀ prog, cgen.program = some prog → prog.link.hookopts.isSome = prog.link.fd.isSome

/-- The link now runs another program: in place, or for Netfilter through a new kernel link on the
same hook with the other priority. -/
structure BfLink.MovedTo (link link' : BfLink) (hook : BfHook) (prog : BfProg) : Prop where
  runs : ∃ fd, link'.fd = some fd ∧ fd.prog = prog.id
  inPlace : bfHookToFlavor hook ≠ .nf →
    link'.hookopts = link.hookopts ∧ link'.fd = link.fd.map fun fd => { fd with prog := prog.id }
  replaced : bfHookToFlavor hook = .nf →
    ∃ opts fd, link.hookopts = some opts ∧ link'.hookopts = some opts.swapped ∧
      link'.fd = some fd ∧ fd.hook = hook ∧ fd.priority = some opts.swapped.prios.1

theorem LinkUpdate.movedTo {link link' : BfLink} {hook : BfHook} {prog : BfProg}
    (update : LinkUpdate link hook prog s none link' s') : link.MovedTo link' hook prog := by
  cases update with
  | replaced opts nf present type =>
      refine ⟨⟨_, rfl, rfl⟩, fun notNf => absurd nf notNf, fun _ => ?_⟩
      refine ⟨opts, _, present, rfl, rfl, rfl, ?_⟩
      rw [newLink, if_pos nf]
  | inPlace fd notNf present type =>
      exact ⟨⟨_, rfl, rfl⟩, fun _ => ⟨rfl, by rw [present]; rfl⟩, fun nf => absurd nf notNf⟩

/-- The directory of a codegen with exact pins is empty once its program is unpinned. -/
theorem PinsExact.unpin {dir : Nat} {cgen : BfCgen} {old : BfProg} {t : Sys}
    (exact_ : PinsExact dir cgen s) (present : cgen.program = some old) (pins : t.pins = s.pins)
    (mode : t.persist = s.persist) (persist : s.persist = true) :
    t.unpin dir old = t.setDir dir .empty := by
  rw [Sys.unpin, if_pos (mode.trans persist), pins, exact_ persist old present, old.pinDir_unpin]

/-- Putting back the directory that was there. -/
theorem Sys.setDir_same (dir : Nat) : (s.setDir dir (s.pins dir)).pins = s.pins := by
  funext dir'
  simp only [Sys.setDir]
  split
  · rename_i same
    rw [same]
  · rfl

/-- What an update does to the codegen and to all pins. -/
theorem CgenUpdate.atomic {cgen cgen' : BfCgen} {chain : BfChain} {r : Ret}
    (update : CgenUpdate fate cgen chain s r cgen' s')
    (exact_ : PinsExact (s.dirOf chain.name) cgen s) (pinning : PinningWorks fate cgen chain) :
    s'.persist = s.persist ∧
    ((∃ e, r = .err e) ∧ cgen' = cgen ∧ s'.pins = s.pins ∨
      r = .ok ∧ ∃ old prog, cgen.program = some old ∧
        cgen' = { cgen with chain, program := some prog } ∧ prog.BuiltFrom chain ∧
        old.link.MovedTo prog.link cgen.chain.hook prog ∧
        s'.pins =
          if s.persist then (s.setDir (s.dirOf chain.name) prog.pinDir).pins else s.pins) := by
  cases update with
  | notBuilt e t state =>
      obtain rfl | failed := state
      · exact ⟨rfl, .inl ⟨⟨e, rfl⟩, rfl, rfl⟩⟩
      · exact ⟨failed.pins.2, .inl ⟨⟨e, rfl⟩, rfl, failed.pins.1⟩⟩
  | @refused old prog t e present made =>
      obtain ⟨pins, mode⟩ := made.pins
      cases persist : s.persist with
      | false =>
          have off : t.persist = false := mode.trans persist
          rw [Sys.unpin, off, if_neg Bool.false_ne_true, Sys.pin, off, if_neg Bool.false_ne_true]
          exact ⟨off, .inl ⟨⟨e, rfl⟩, rfl, pins⟩⟩
      | true =>
          have works : (t.setDir (s.dirOf chain.name) Dir.empty).pinError (s.dirOf chain.name)
              fate.repin old = none := by
            rw [Sys.pinError, Sys.setDir_persist, mode, if_pos persist, Sys.setDir_pins_self]
            exact pinning.repin old present
          rw [exact_.unpin present pins mode persist,
            Sys.pin_exact (by rw [Sys.setDir_persist, mode, persist]) (Sys.setDir_pins_self ..) works,
            Sys.setDir_setDir]
          refine ⟨by rw [Sys.setDir_persist, mode, persist], .inl ⟨⟨e, rfl⟩, rfl, ?_⟩⟩
          rw [← exact_ persist old present, ← pins]
          exact Sys.setDir_same _
  | @swapped old prog link t u present made updated =>
      obtain ⟨pins, mode⟩ := made.pins
      obtain ⟨pins', mode'⟩ := updated.pins
      have moved := updated.movedTo
      have built : ({ prog with link } : BfProg).BuiltFrom chain := by
        cases made with
        | loaded _ built _ => exact built
      have outcome : u.persist = s.persist ∧
          (u.pin (s.dirOf chain.name) fate.pin { prog with link }).pins =
            if s.persist then
              (s.setDir (s.dirOf chain.name) ({ prog with link } : BfProg).pinDir).pins
            else s.pins := by
        cases persist : s.persist with
        | false =>
            have off : t.persist = false := mode.trans persist
            rw [Sys.unpin, off, if_neg Bool.false_ne_true] at pins' mode'
            have off' : u.persist = false := mode'.trans off
            rw [Sys.pin, off', if_neg Bool.false_ne_true, pins', pins]
            exact ⟨rfl, rfl⟩
        | true =>
            rw [exact_.unpin present pins mode persist] at pins' mode'
            have on : u.persist = true := by rw [mode', Sys.setDir_persist, mode, persist]
            have unused : u.pins (s.dirOf chain.name) = .empty := by
              rw [pins', Sys.setDir_pins_self]
            obtain ⟨fd, running, -⟩ := moved.runs
            have works : u.pinError (s.dirOf chain.name) fate.pin { prog with link } = none := by
              rw [Sys.pinError, if_pos on, unused]
              exact pinning.pin _ built.1 (by rw [running]; rfl)
            refine ⟨on, ?_⟩
            rw [Sys.pin_exact on unused works, if_pos rfl]
            funext dir
            simp only [Sys.setDir, pins', pins]
            split <;> rfl
      refine ⟨?_, .inr ⟨rfl, old, _, present, rfl, built,
        ⟨moved.runs, moved.inPlace, moved.replaced⟩, outcome.2⟩⟩
      rw [(Sys.pin_sameButPins ..).persist]
      exact outcome.1

/-! ## Whole histories -/

/-- What an exact codegen is: its directory holds its pins, and its link is whole. -/
structure BfCgen.Exact (dir : Nat) (cgen : BfCgen) (s : Sys) : Prop where
  pins : PinsExact dir cgen s
  link : cgen.LinkWhole

/-- Where a codegen's pins are matters in persistent mode only. -/
theorem BfCgen.Exact.move {dir dir' : Nat} {cgen : BfCgen} (exact_ : BfCgen.Exact dir cgen s)
    (same : s.persist = true → dir = dir') : BfCgen.Exact dir' cgen s := by
  refine ⟨?_, exact_.link⟩
  intro persist
  rw [← same persist]
  exact exact_.pins persist

/-- A codegen is kept only once its program is pinned. -/
theorem Sys.kept_ok {cgen cgen' : BfCgen} {dir : Nat} {prog : BfProg}
    (kept : s.kept fate cgen dir prog = (.ok, cgen')) :
    s.pinError dir fate.pin prog = none ∧ cgen' = { cgen with program := some prog } := by
  obtain ⟨-, e, absurd⟩ | ⟨same, -, works⟩ := Sys.kept_inv kept
  · cases absurd
  · exact ⟨works, same⟩

/-- Pinning a program into an unused directory makes the codegen exact. -/
theorem BfCgen.exact_of_pinned {dir : Nat} {cgen : BfCgen} {prog : BfProg}
    (unused : s.persist = true → s.pins dir = .empty)
    (works : s.pinError dir fate.pin prog = none)
    (whole : prog.link.hookopts.isSome = prog.link.fd.isSome) :
    BfCgen.Exact dir { cgen with program := some prog } (s.pin dir fate.pin prog) := by
  refine ⟨?_, ?_⟩
  · intro persist prog' same
    cases same
    rw [(Sys.pin_sameButPins ..).persist] at persist
    rw [Sys.pin_exact persist (unused persist) works, Sys.setDir_pins_self]
  · intro prog' same
    cases same
    exact whole

/-- Attaching changes the link of the program only, and makes it whole. -/
theorem AttachIn.program {client : BfNs} {prog prog' : BfProg} {opts : BfHookopts} {r : Ret}
    (attach : AttachIn fate client prog opts s r prog' s') :
    prog'.chain = prog.chain ∧ prog'.id = prog.id ∧
      (prog' = prog ∨ prog'.link.hookopts.isSome = true ∧ prog'.link.fd.isSome = true) := by
  cases attach with
  | notEntered outside => exact ⟨rfl, rfl, .inl rfl⟩
  | refused e inside why => exact ⟨rfl, rfl, .inl rfl⟩
  | attached inside accepted restored => exact ⟨rfl, rfl, .inr ⟨rfl, rfl⟩⟩

theorem AttachIn.whole {client : BfNs} {prog prog' : BfProg} {opts : BfHookopts} {r : Ret}
    (attach : AttachIn fate client prog opts s r prog' s')
    (whole : prog.link.hookopts.isSome = prog.link.fd.isSome) :
    prog'.link.hookopts.isSome = prog'.link.fd.isSome := by
  obtain ⟨-, -, rfl | ⟨hookopts, fd⟩⟩ := attach.program
  · exact whole
  · rw [hookopts, fd]

theorem CgenSet.exact {cgen cgen' : BfCgen} {client : BfNs} {hookopts : Option BfHookopts}
    (set : CgenSet fate cgen client hookopts s .ok cgen' s')
    (unused : s.persist = true → s.pins (s.dirOf cgen.chain.name) = .empty) :
    BfCgen.Exact (s.dirOf cgen.chain.name) cgen' s' := by
  cases set with
  | loaded dir made absent kept =>
      obtain ⟨works, rfl⟩ := Sys.kept_ok kept
      have outcome := newProgram_inv made
      refine BfCgen.exact_of_pinned (fun persist => ?_) works ?_
      · rw [outcome.pins.1]
        exact unused (outcome.pins.2.symm.trans persist)
      · cases outcome with
        | loaded _ _ link => simp [link]
  | attached dir made present attach kept =>
      obtain ⟨works, rfl⟩ := Sys.kept_ok kept
      have outcome := newProgram_inv made
      refine BfCgen.exact_of_pinned (fun persist => ?_) works (attach.whole ?_)
      · rw [attach.pins.1, outcome.pins.1]
        exact unused (outcome.pins.2.symm.trans (attach.pins.2.symm.trans persist))
      · cases outcome with
        | loaded _ _ link => simp [link]

/-- A codegen whose program was exchanged for one with the same pins. -/
theorem BfCgen.Exact.exchange {dir : Nat} {cgen : BfCgen} {prog prog' : BfProg}
    (exact_ : BfCgen.Exact dir cgen s) (present : cgen.program = some prog)
    (pins : s'.pins = s.pins) (mode : s'.persist = s.persist)
    (same : s.persist = true → prog'.pinDir = prog.pinDir)
    (whole : prog'.link.hookopts.isSome = prog'.link.fd.isSome) :
    BfCgen.Exact dir { cgen with program := some prog' } s' := by
  refine ⟨?_, ?_⟩
  · intro persist current found
    cases found
    rw [mode] at persist
    rw [pins, same persist]
    exact exact_.pins persist prog present
  · intro current found
    cases found
    exact whole

theorem CgenAttach.exact {cgen cgen' : BfCgen} {client : BfNs} {opts : BfHookopts} {r : Ret}
    (attached : CgenAttach fate cgen client opts s r cgen' s')
    (exact_ : BfCgen.Exact (s.dirOf cgen.chain.name) cgen s)
    (detached : ∀ prog, cgen.program = some prog → prog.link.hookopts = none) :
    BfCgen.Exact (s.dirOf cgen.chain.name) cgen' s' := by
  cases attached with
  | noDir e dir => exact exact_
  | refused e dir present attach =>
      obtain ⟨pins, mode⟩ := attach.pins
      cases attach with
      | notEntered outside =>
          exact exact_.exchange present pins mode (fun _ => rfl) (exact_.link _ present)
      | refused _ inside why =>
          exact exact_.exchange present pins mode (fun _ => rfl) (exact_.link _ present)
  | kept dir present attach transient =>
      obtain ⟨pins, mode⟩ := attach.pins
      refine exact_.exchange present pins mode ?_ (attach.whole (exact_.link _ present))
      intro persist
      rw [← mode, transient] at persist
      cases persist
  | notPinned e dir present attach persist =>
      obtain ⟨pins, mode⟩ := attach.pins
      obtain ⟨chain, id, -⟩ := attach.program
      refine exact_.exchange present pins mode ?_ rfl
      intro _
      exact BfProg.pinDir_detached chain id (detached _ present) rfl
  | @pinned prog prog' t entries dir present attach persist pin =>
      obtain ⟨pins, mode⟩ := attach.pins
      obtain ⟨chain, id, same⟩ := attach.program
      obtain ⟨fd, -, -⟩ := bfBpfObjPin_ok pin
      -- A program that was left as it was has no kernel link that could be pinned.
      obtain rfl | ⟨hookopts, whole⟩ := same
      · have none : prog'.link.fd.isSome = false := by
          rw [← exact_.link _ present, detached _ present]
          rfl
        rw [Option.isSome_map, none] at fd
        cases fd
      refine ⟨?_, ?_⟩
      · intro _ current found
        cases found
        rw [Sys.setDir_pins_self]
        rw [pins, exact_.pins (mode.symm.trans persist) prog present] at pin
        exact BfProg.pinDir_link chain id (detached _ present) hookopts pin
      · intro current found
        cases found
        rw [hookopts, whole]

/-- A link that moved is whole if it was. -/
theorem BfLink.MovedTo.whole {link link' : BfLink} {hook : BfHook} {prog : BfProg}
    (moved : link.MovedTo link' hook prog) (whole : link.hookopts.isSome = link.fd.isSome) :
    link'.hookopts.isSome = link'.fd.isSome := by
  by_cases nf : bfHookToFlavor hook = .nf
  · obtain ⟨opts, fd, -, hookopts, running, -, -⟩ := moved.replaced nf
    rw [hookopts, running]
    rfl
  · obtain ⟨hookopts, running⟩ := moved.inPlace nf
    rw [hookopts, running, Option.isSome_map]
    exact whole

theorem CgenUpdate.exact {cgen cgen' : BfCgen} {chain : BfChain} {r : Ret}
    (update : CgenUpdate fate cgen chain s r cgen' s')
    (exact_ : BfCgen.Exact (s.dirOf chain.name) cgen s) (pinning : PinningWorks fate cgen chain) :
    BfCgen.Exact (s.dirOf chain.name) cgen' s' := by
  obtain ⟨mode, ⟨-, rfl, pins⟩ | ⟨-, old, prog, present, rfl, -, moved, pins⟩⟩ :=
    update.atomic exact_.pins pinning
  · refine ⟨?_, exact_.link⟩
    intro persist
    rw [pins]
    exact exact_.pins (mode.symm.trans persist)
  · refine ⟨?_, ?_⟩
    · intro persist current found
      cases found
      rw [pins, if_pos (mode.symm.trans persist), Sys.setDir_pins_self]
    · intro current found
      cases found
      exact moved.whole (exact_.link old present)

/-- **The pins stay exact.**  Along its whole history the directory of a codegen holds the pins of
its program and nothing else, and its link is whole. -/
theorem Lifecycle.exact {dir : Nat} {cgen : BfCgen} (history : Lifecycle dir cgen s) :
    BfCgen.Exact dir cgen s := by
  induction history with
  | set fresh opens unused ran =>
      have set := bfCgenSet_inv ran
      refine (set.exact fun persist => ?_).move fun persist =>
        opens (set.fixed.persist.symm.trans persist)
      rw [opens persist]
      exact unused
  | attach before opens detached ran ih =>
      have attach := bfCgenAttach_inv ran
      refine (attach.exact (ih.move fun persist => (opens persist).symm) detached).move ?_
      exact fun persist => opens (attach.fixed.persist.symm.trans persist)
  | update before opens pinning ran ih =>
      have update := bfCgenUpdate_inv ran
      refine (update.exact (ih.move fun persist => (opens persist).symm) pinning).move ?_
      exact fun persist => opens (update.fixed.persist.symm.trans persist)
  | other before mode untouched ih =>
      refine ⟨?_, ih.link⟩
      intro persist prog present
      rw [untouched]
      exact ih.pins (mode.symm.trans persist) prog present

/-! ## The update of an attached codegen -/

/-- What a failed update leaves: the codegen with its program, chain and link, and all pins. -/
def UpdateUndone (cgen cgen' : BfCgen) (s s' : Sys) : Prop :=
  cgen' = cgen ∧ s'.pins = s.pins

/-- What a successful update leaves: the new chain, a program built from it, the old link moved to
that program, and in persistent mode exactly its pins. -/
def UpdateDone (dir : Nat) (old : BfProg) (chain : BfChain) (cgen cgen' : BfCgen) (s s' : Sys) :
    Prop :=
  cgen'.chain = chain ∧ ∃ prog, cgen'.program = some prog ∧ prog.BuiltFrom chain ∧
    old.link.MovedTo prog.link cgen.chain.hook prog ∧
    (s.persist = true → s'.pins dir = prog.pinDir) ∧
    (s.persist = false → s'.pins = s.pins) ∧
    ∀ dir', dir' ≠ dir → s'.pins dir' = s.pins dir'

/-- **Updates are all or nothing.**  Whatever the outcome of building, loading and moving the link,
an update of an attached codegen that opens its directory leaves everything as it was or
completes. -/
theorem update_all_or_nothing {dir : Nat} {cgen cgen' : BfCgen} {old : BfProg} {chain : BfChain}
    {r : Ret} (history : Lifecycle dir cgen s) (attached : cgen.attachedBy old)
    (opens : s.persist = true → s.dirOf chain.name = dir) (pinning : PinningWorks fate cgen chain)
    (ran : bfCgenUpdate fate cgen chain s = .ok ((r, cgen'), s')) :
    (r ≠ .ok → UpdateUndone cgen cgen' s s') ∧
      (r = .ok → UpdateDone dir old chain cgen cgen' s s') := by
  obtain ⟨-, ⟨⟨e, rfl⟩, rfl, pins⟩ | ⟨rfl, old', prog, present, rfl, built, moved, pins⟩⟩ :=
    (bfCgenUpdate_inv ran).atomic
      (history.exact.move fun persist => (opens persist).symm).pins pinning
  · exact ⟨fun _ => ⟨rfl, pins⟩, fun ok => by cases ok⟩
  · refine ⟨fun failed => absurd rfl failed, fun _ => ?_⟩
    obtain rfl : old' = old := Option.some.inj (present.symm.trans attached.1)
    refine ⟨rfl, prog, rfl, built, moved, ?_, ?_, ?_⟩
    · intro persist
      rw [pins, if_pos persist, opens persist, Sys.setDir_pins_self]
    · intro transient
      rw [pins, transient, if_neg Bool.false_ne_true]
    · intro dir' other
      rw [pins]
      split
      · rename_i persist
        rw [opens persist]
        exact if_neg other
      · rfl

/-- A program without sets can be pinned into an empty directory. -/
theorem pinAll_without_sets {prog : BfProg} (sets : prog.chain.sets = [])
    (live : prog.link.fd.isSome = true) :
    (pinAll (fun _ => none) prog.pinList .empty).1 = none := by
  obtain ⟨fd, fdEq⟩ := Option.isSome_iff_exists.mp live
  cases attached : prog.link.hookopts.isSome with
  | false =>
      simp [BfProg.pinList, BfProg.setPins, sets, attached, pinAll, bfBpfObjPin, Dir.empty]
  | true =>
      simp [BfProg.pinList, BfProg.setPins, sets, attached, fdEq, pinAll, bfBpfObjPin, Dir.empty]

/-! An empty Netfilter chain is set and updated in persistent mode. -/

def nfSys : Sys :=
  { host := sampleHost, persist := true, ownNs := ⟨1, 1⟩, ns := ⟨1, 1⟩, paths := plainPaths }

def nfCgen : BfCgen := { front := .cli, chain := bfChainNew "chain" .nfLocalIn .accept [] [] }

/-- Both codegens and the state between the two requests. -/
def setThenUpdate : Act ((Ret × BfCgen) × Sys × (Ret × BfCgen)) := do
  let first ← bfCgenSet {} nfCgen ⟨1, 1⟩ (some nfOpts)
  let between ← get
  let second ← bfCgenUpdate {} first.2 nfCgen.chain
  pure (first, between, second)

/-- The program a codegen is attached by, if it has no sets. -/
def BfCgen.plainProgram (cgen : BfCgen) : Option BfProg :=
  cgen.program.filter fun prog =>
    prog.chain.sets.isEmpty && prog.link.fd.isSome && prog.link.hookopts.isSome

theorem set_then_update_done :
    ∃ dir s s' cgen cgen' old, Lifecycle dir cgen s ∧ cgen.attachedBy old ∧
      bfCgenUpdate {} cgen nfCgen.chain s = .ok ((.ok, cgen'), s') ∧
      UpdateDone dir old nfCgen.chain cgen cgen' s s' := by
  have passes : Passes setThenUpdate nfSys (fun result _ =>
      result.1.1 = .ok && result.2.2.1 = .ok && result.1.2.plainProgram.isSome &&
        result.2.1.dirOf "chain" == nfSys.dirOf "chain") = true := by
    decide +kernel
  obtain ⟨⟨⟨r, cgen⟩, between, ⟨r', cgen'⟩⟩, s', ran, test⟩ := passes_inv passes
  simp only [Bool.and_eq_true, decide_eq_true_eq, beq_iff_eq] at test
  obtain ⟨⟨⟨rfl, rfl⟩, plain⟩, opens⟩ := test
  obtain ⟨first, s, set, ran⟩ := bind_inv ran
  rw [bind_run (get_run s)] at ran
  obtain ⟨second, t, update, ran⟩ := bind_inv ran
  cases ran
  obtain ⟨old, plainEq⟩ := Option.isSome_iff_exists.mp plain
  obtain ⟨present, fits⟩ := Option.filter_eq_some_iff.mp plainEq
  simp only [Bool.and_eq_true, List.isEmpty_iff] at fits
  obtain ⟨⟨sets, live⟩, attached⟩ := fits
  have history : Lifecycle (nfSys.dirOf "chain") cgen between :=
    .set rfl (fun _ => rfl) rfl set
  have pinning : PinningWorks {} cgen nfCgen.chain := by
    refine ⟨?_, ?_⟩
    · intro prog found
      obtain rfl : old = prog := Option.some.inj (present.symm.trans found)
      exact pinAll_without_sets sets live
    · intro prog chain running
      exact pinAll_without_sets (by rw [chain]; rfl) running
  exact ⟨_, between, s', cgen, cgen', old, history, ⟨present, attached⟩, update,
    (update_all_or_nothing history ⟨present, attached⟩ (fun _ => opens) pinning update).2 rfl⟩

end Bpfilter
