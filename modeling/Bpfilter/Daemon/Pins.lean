/-
# Daemon.Pins -- which pins are left behind

The rollback of `bf_program_pin` removes every name of the program, whether or not
this call created it.  `failed_pin_keeps_dir_iff` is the exact consequence: a failed
call leaves the directory as it was when none of these names was taken before.

The `pinned_from` lemmas say where a pin comes from that is there after an operation.
-/
import Bpfilter.Daemon.IptStatus

namespace Bpfilter

set_option autoImplicit false

open Hoare
open Relation (ReflTransGen)

/-! ## A failed pin -/

/-- Every name a program is pinned under is one it removes. -/
theorem BfProg.pinList_names (prog : BfProg) {entry : String × Option BpfObj}
    (mem : entry ∈ prog.pinList) : entry.1 ∈ prog.unpinNames := by
  simp only [BfProg.pinList, List.mem_append, List.mem_cons, List.not_mem_nil, or_false] at mem
  obtain (mem | mem) | mem := mem
  · obtain rfl | rfl | rfl | rfl := mem <;> simp [BfProg.unpinNames]
  · simp only [BfProg.unpinNames, List.mem_cons, List.mem_map]
    exact .inr (.inr (.inr (.inr (.inr ⟨entry, mem, rfl⟩))))
  · split at mem
    · rw [List.mem_singleton.mp mem]
      simp [BfProg.unpinNames]
    · cases mem

/-- Pinning, up to wherever it fails, touches the names of the list only. -/
theorem pinAll_other {fails : Nat → Option Errno} {list : List (String × Option BpfObj)}
    {dir : Dir} {name : String} (other : ∀ entry ∈ list, entry.1 ≠ name) :
    (pinAll fails list dir).2 name = dir name := by
  induction list generalizing dir with
  | nil => rfl
  | cons head rest ih =>
      obtain ⟨first, obj⟩ := head
      obtain ⟨differs, other⟩ := List.forall_mem_cons.mp other
      rw [pinAll]
      cases pin : bfBpfObjPin first obj (fails rest.length) dir with
      | error e => rfl
      | ok dir' =>
          obtain ⟨-, -, rfl⟩ := bfBpfObjPin_ok pin
          simp only
          rw [ih other, if_neg (Ne.symm differs)]

/-- A name the program does not remove is not touched by pinning it. -/
theorem pinAll_foreign {fails : Nat → Option Errno} {prog : BfProg} {dir : Dir} {name : String}
    (foreign : name ∉ prog.unpinNames) : (pinAll fails prog.pinList dir).2 name = dir name :=
  pinAll_other fun _ mem same => foreign (same ▸ prog.pinList_names mem)

theorem bfProgramPin_failed {fails : Nat → Option Errno} {prog : BfProg} {dir : Nat}
    {s s' : Sys} {e : Errno} (ran : bfProgramPin fails prog dir s = .ok (some e, s')) :
    s' = s.setDir dir ((pinAll fails prog.pinList (s.pins dir)).2.unpin prog) := by
  unfold bfProgramPin at ran
  rw [bind_run (get_run s)] at ran
  cases pinned : pinAll fails prog.pinList (s.pins dir) with
  | mk r entries =>
      simp only [pinned] at ran
      rw [bind_run (modify_run _ s)] at ran
      cases r with
      | none => cases ran
      | some e' =>
          rw [if_pos (show (some e').isSome = true from rfl), bfProgramUnpin,
            bind_run (modify_run _ _), pure_run] at ran
          cases ran
          rw [Sys.setDir_pins_self, Sys.setDir_setDir]

/-- **A failed pin.** The directory is what it was before the call exactly when none
of the names the program removes was in it. -/
theorem failed_pin_keeps_dir_iff {fails : Nat → Option Errno} {prog : BfProg} {dir : Nat}
    {s s' : Sys} {e : Errno} (ran : bfProgramPin fails prog dir s = .ok (some e, s')) :
    s'.pins dir = s.pins dir ↔ ∀ name ∈ prog.unpinNames, s.pins dir name = none := by
  rw [bfProgramPin_failed ran, Sys.setDir_pins_self]
  constructor
  · intro same name listed
    rw [← same, Dir.unpin, if_pos listed]
  · intro free
    funext name
    by_cases listed : name ∈ prog.unpinNames
    · rw [Dir.unpin, if_pos listed, free name listed]
    · rw [Dir.unpin, if_neg listed, pinAll_foreign listed]

/-- A program without sets and without link. -/
def plainProg : BfProg where
  chain := bfChainNew "chain" .xdp .accept [] []
  code := bfProgramNew sampleHost (bfChainNew "chain" .xdp .accept [] []) sampleMaps
  id := 1

/-- Nothing is pinned yet, and the second pin fails. -/
theorem failed_pin_in_empty_dir : ∃ e s', bfProgramPin
      (fun left => if left = 2 then some .eperm else none) plainProg 7 nfSys = .ok (some e, s') ∧
    s'.pins 7 = nfSys.pins 7 := by
  have passes : Passes (bfProgramPin (fun left => if left = 2 then some .eperm else none) plainProg
      7) nfSys (fun r _ => r.isSome) = true := by decide +kernel
  obtain ⟨r, s', ran, test⟩ := passes_inv passes
  obtain ⟨e, rfl⟩ := Option.isSome_iff_exists.mp test
  exact ⟨e, s', ran, (failed_pin_keeps_dir_iff ran).mpr fun _ _ => rfl⟩

/-- Another program is pinned in the directory: the pin fails at once with `EEXIST`,
and the rollback takes the other program's pin. -/
theorem failed_pin_removes_foreign_pin :
    ¬ ∀ (fails : Nat → Option Errno) (prog : BfProg) (dir : Nat) (s s' : Sys) (e : Errno),
      bfProgramPin fails prog dir s = .ok (some e, s') → s'.pins dir = s.pins dir := by
  intro keeps
  let occupied : Sys :=
    nfSys.setDir 7 fun name => if name = "bf_prog" then some (.prog 0) else none
  have passes : Passes (bfProgramPin (fun _ => none) plainProg 7) occupied
      (fun r s' => r.isSome && (s'.pins 7 "bf_prog").isNone) = true := by decide +kernel
  obtain ⟨r, s', ran, test⟩ := passes_inv passes
  simp only [Bool.and_eq_true, Option.isNone_iff_eq_none] at test
  obtain ⟨e, rfl⟩ := Option.isSome_iff_exists.mp test.1
  have gone := test.2
  rw [keeps _ _ _ _ _ _ ran] at gone
  cases gone

/-! ## Where pins come from -/

/-- Something is pinned under a name. -/
def Sys.Pinned (s : Sys) (dir : Nat) (name : String) : Prop := s.pins dir name ≠ none

section Sources

variable {fate : Fate} {s s' : Sys} {dir : Nat} {name : String}

theorem Sys.pinned_setDir {entries : Dir} {where_ : Nat} :
    (s.setDir where_ entries).Pinned dir name ↔
      if dir = where_ then entries name ≠ none else s.Pinned dir name := by
  unfold Sys.Pinned Sys.setDir
  by_cases same : dir = where_ <;> simp [same]

/-- Pinning a program adds names of the program to its directory only, and a failure
adds nothing. -/
theorem Sys.pinned_pin {fails : Nat → Option Errno} {prog : BfProg} {where_ : Nat}
    (pinned : (s.pin where_ fails prog).Pinned dir name) :
    s.Pinned dir name ∨
      s.pinError where_ fails prog = none ∧ dir = where_ ∧ name ∈ prog.unpinNames := by
  by_cases persist : s.persist = true
  · unfold Sys.pin at pinned
    rw [if_pos persist] at pinned
    by_cases same : dir = where_
    · subst same
      have foreign := @pinAll_foreign fails prog (s.pins dir) name
      cases all : pinAll fails prog.pinList (s.pins dir) with
      | mk r entries =>
          rw [all] at pinned foreign
          by_cases listed : name ∈ prog.unpinNames
          · cases r with
            | none =>
                refine .inr ⟨?_, rfl, listed⟩
                rw [Sys.pinError, if_pos persist, all]
            | some e =>
                rw [Sys.pinned_setDir, if_pos rfl, Dir.unpin, if_pos listed] at pinned
                exact absurd rfl pinned
          · refine .inl ?_
            have kept := foreign listed
            cases r with
            | none =>
                rw [Sys.pinned_setDir, if_pos rfl] at pinned
                simp only at kept
                rwa [Sys.Pinned, ← kept]
            | some e =>
                rw [Sys.pinned_setDir, if_pos rfl, Dir.unpin, if_neg listed] at pinned
                simp only at kept
                rwa [Sys.Pinned, ← kept]
    · refine .inl ?_
      split at pinned
      · rwa [Sys.pinned_setDir, if_neg same] at pinned
      · rwa [Sys.pinned_setDir, if_neg same] at pinned
  · unfold Sys.pin at pinned
    rw [if_neg persist] at pinned
    exact .inl pinned

theorem Sys.pinned_unpin {prog : BfProg} {where_ : Nat} (persist : s.persist = true)
    (pinned : (s.unpin where_ prog).Pinned dir name) :
    s.Pinned dir name ∧ ¬ (dir = where_ ∧ name ∈ prog.unpinNames) := by
  rw [Sys.unpin, if_pos persist, Sys.pinned_setDir] at pinned
  by_cases same : dir = where_
  · subst same
    rw [if_pos rfl, Dir.unpin] at pinned
    by_cases listed : name ∈ prog.unpinNames
    · rw [if_pos listed] at pinned
      exact absurd rfl pinned
    · rw [if_neg listed] at pinned
      exact ⟨pinned, fun both => listed both.2⟩
  · rw [if_neg same] at pinned
    exact ⟨pinned, fun both => same both.1⟩

/-- The names a program removes depend on its chain only. -/
theorem BfProg.unpinNames_congr {prog prog' : BfProg} (chain : prog'.chain = prog.chain) :
    prog'.unpinNames = prog.unpinNames := by
  simp [BfProg.unpinNames, BfProg.setPins, chain]

/-- Setting a codegen: a failure pins nothing, a success the program of the codegen. -/
theorem CgenSet.pinned_from {cgen cgen' : BfCgen} {client : BfNs} {hookopts : Option BfHookopts}
    {r : Ret} (set : CgenSet fate cgen client hookopts s r cgen' s') :
    (r = .ok → ∃ prog, cgen'.program = some prog) ∧ ∀ dir name, s'.Pinned dir name →
      s.Pinned dir name ∨ r = .ok ∧ dir = s.dirOf cgen.chain.name ∧
        ∃ prog, cgen'.program = some prog ∧ name ∈ prog.unpinNames := by
  have keep {t : Sys} {r' : Ret} {prog : BfProg} (pins : t.pins = s.pins)
      (kept : t.kept fate cgen (s.dirOf cgen.chain.name) prog = (r', cgen')) :
      (r' = .ok → ∃ prog, cgen'.program = some prog) ∧
        ∀ dir name, (t.pin (s.dirOf cgen.chain.name) fate.pin prog).Pinned dir name →
          s.Pinned dir name ∨ r' = .ok ∧ dir = s.dirOf cgen.chain.name ∧
            ∃ prog, cgen'.program = some prog ∧ name ∈ prog.unpinNames := by
    refine ⟨?_, ?_⟩
    · rintro rfl
      obtain ⟨-, rfl⟩ := Sys.kept_ok kept
      exact ⟨prog, rfl⟩
    · intro dir name pinned
      obtain old | ⟨works, rfl, listed⟩ := Sys.pinned_pin pinned
      · refine .inl ?_
        rwa [Sys.Pinned, pins] at old
      · unfold Sys.kept at kept
        rw [works] at kept
        cases kept
        exact .inr ⟨rfl, rfl, prog, rfl, listed⟩
  cases set with
  | notBuilt e t state why =>
      have same : s'.pins = s.pins := by
        obtain rfl | failed := state
        · rfl
        · exact failed.pins.1
      refine ⟨Ret.noConfusion, fun dir name pinned => .inl ?_⟩
      rwa [Sys.Pinned, same] at pinned
  | notAttached e dir made present attach =>
      refine ⟨Ret.noConfusion, fun dir name pinned => .inl ?_⟩
      rwa [Sys.Pinned, attach.pins.1, (newProgram_inv made).pins.1] at pinned
  | loaded dir made absent kept => exact keep (newProgram_inv made).pins.1 kept
  | attached dir made present attach kept =>
      exact keep (attach.pins.1.trans (newProgram_inv made).pins.1) kept

/-- Attaching pins the link at most. -/
theorem CgenAttach.pinned_from {cgen cgen' : BfCgen} {client : BfNs} {opts : BfHookopts} {r : Ret}
    (attach : CgenAttach fate cgen client opts s r cgen' s') {prog : BfProg}
    (running : cgen.program = some prog) :
    (∃ prog', cgen'.program = some prog' ∧ prog'.unpinNames = prog.unpinNames) ∧
      ∀ dir name, s'.Pinned dir name →
        s.Pinned dir name ∨ dir = s.dirOf cgen.chain.name ∧ name ∈ prog.unpinNames := by
  have moved {prog' : BfProg} {t : Sys} {r : Ret}
      (attach : AttachIn fate client prog opts s r prog' t) :
      prog'.unpinNames = prog.unpinNames ∧
        ∀ dir name, t.Pinned dir name → s.Pinned dir name := by
    refine ⟨BfProg.unpinNames_congr attach.program.1, fun dir name pinned => ?_⟩
    rwa [Sys.Pinned, attach.pins.1] at pinned
  cases attach with
  | noDir e dir => exact ⟨⟨prog, running, rfl⟩, fun _ _ => .inl⟩
  | refused e dir present attach =>
      cases running.symm.trans present
      obtain ⟨names, pins⟩ := moved attach
      exact ⟨⟨_, rfl, names⟩, fun _ _ pinned => .inl (pins _ _ pinned)⟩
  | kept dir present attach transient =>
      cases running.symm.trans present
      obtain ⟨names, pins⟩ := moved attach
      exact ⟨⟨_, rfl, names⟩, fun _ _ pinned => .inl (pins _ _ pinned)⟩
  | notPinned e dir present attach persist =>
      cases running.symm.trans present
      obtain ⟨names, pins⟩ := moved attach
      exact ⟨⟨_, rfl, names⟩, fun _ _ pinned => .inl (pins _ _ pinned)⟩
  | pinned dir present attach persist pin =>
      cases running.symm.trans present
      obtain ⟨names, pins⟩ := moved attach
      refine ⟨⟨_, rfl, names⟩, fun dir name pinned => ?_⟩
      obtain ⟨-, -, rfl⟩ := bfBpfObjPin_ok pin
      rw [Sys.pinned_setDir] at pinned
      by_cases same : dir = s.dirOf cgen.chain.name
      · subst same
        rw [if_pos rfl] at pinned
        by_cases link : name = "bf_link"
        · exact .inr ⟨rfl, by simp [link, BfProg.unpinNames]⟩
        · rw [if_neg link] at pinned
          exact .inl (pins _ _ pinned)
      · rw [if_neg same] at pinned
        exact .inl (pins _ _ pinned)

/-- An update replaces the pins of the old program by those of the program kept. -/
theorem CgenUpdate.pinned_from {cgen cgen' : BfCgen} {new : BfChain} {r : Ret}
    (update : CgenUpdate fate cgen new s r cgen' s') (persist : s.persist = true) {old : BfProg}
    (running : cgen.program = some old) : ∃ prog, cgen'.program = some prog ∧
      ∀ dir name, s'.Pinned dir name →
        s.Pinned dir name ∧ (prog = old ∨ ¬ (dir = s.dirOf new.name ∧ name ∈ old.unpinNames)) ∨
          dir = s.dirOf new.name ∧ name ∈ prog.unpinNames := by
  cases update with
  | notBuilt e t state =>
      have same : s'.pins = s.pins := by
        obtain rfl | failed := state
        · rfl
        · exact failed.pins.1
      refine ⟨old, running, fun dir name pinned => .inl ⟨?_, .inl rfl⟩⟩
      rwa [Sys.Pinned, same] at pinned
  | @refused prev prog t e present made =>
      cases running.symm.trans present
      obtain ⟨pins, mode⟩ := made.pins
      refine ⟨old, running, fun dir name pinned => ?_⟩
      obtain kept | ⟨-, here, listed⟩ := Sys.pinned_pin pinned
      · obtain ⟨before, -⟩ := Sys.pinned_unpin (mode.trans persist) kept
        refine .inl ⟨?_, .inl rfl⟩
        rwa [Sys.Pinned, pins] at before
      · exact .inr ⟨here, listed⟩
  | @swapped prev prog link t u present made update =>
      cases running.symm.trans present
      obtain ⟨pins, mode⟩ := made.pins
      refine ⟨_, rfl, fun dir name pinned => ?_⟩
      obtain kept | ⟨-, here, listed⟩ := Sys.pinned_pin pinned
      · rw [Sys.Pinned, update.pins.1] at kept
        obtain ⟨before, apart⟩ := Sys.pinned_unpin (mode.trans persist) kept
        refine .inl ⟨?_, .inr apart⟩
        rwa [Sys.Pinned, pins] at before
      · exact .inr ⟨here, listed⟩

/-- Removing the pins of a codegen whose directory opens. -/
theorem CgenUnload.pinned_from {fails : Option Errno} {cgen : BfCgen} {prog : BfProg}
    (unload : CgenUnload fails cgen s s') (opened : fails = none)
    (running : cgen.program = some prog) {dir : Nat} {name : String} (pinned : s'.Pinned dir name) :
    s.Pinned dir name ∧ ¬ (dir = s.dirOf cgen.chain.name ∧ name ∈ prog.unpinNames) := by
  cases unload with
  | noDir e failed => simp [opened] at failed
  | unpinned opened present =>
      cases running.symm.trans present
      rw [Sys.pinned_setDir] at pinned
      by_cases same : dir = s.dirOf cgen.chain.name
      · subst same
        rw [if_pos rfl, Dir.unpin] at pinned
        by_cases listed : name ∈ prog.unpinNames
        · rw [if_pos listed] at pinned
          exact absurd rfl pinned
        · rw [if_neg listed] at pinned
          exact ⟨pinned, fun both => listed both.2⟩
      · rw [if_neg same] at pinned
        exact ⟨pinned, fun both => same both.1⟩

end Sources

end Bpfilter
