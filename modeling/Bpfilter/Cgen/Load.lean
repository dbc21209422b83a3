/-
# Cgen.Load -- loading a program and its maps

`bf_program_load` creates the maps of a generated program, fills the references to them
and loads the image.  The maps are created by four helpers; each undoes its own work when
one of its later steps fails, and none undoes that of the helpers before it.

`LoadState` is the program with a flag for every map that is open.  `load_closes_iff` says
which failures leave no map open: those of the sets' maps, and those of the first map after
them when there are no sets.  A load that succeeds opens them all, and what it does to the
code is `bfProgramLoadFixups` (`bfProgramLoad_loaded`).
-/
import Bpfilter.Cgen.Sequencing
import Bpfilter.Proc.Hoare

namespace Bpfilter

set_option autoImplicit false

open Hoare Ebpf

/-! ## State -/

/-- Which of a program's maps are open. -/
structure OpenMaps where
  cmap : Bool := false
  pmap : Bool := false
  lmap : Bool := false
  sets : List Bool
  deriving DecidableEq, Repr

/-- No map is open. -/
def OpenMaps.AllClosed (maps : OpenMaps) : Prop :=
  maps.cmap = false ∧ maps.pmap = false ∧ maps.lmap = false ∧ ∀ map ∈ maps.sets, map = false

/-- Every map is open. -/
def OpenMaps.AllOpen (maps : OpenMaps) : Prop :=
  maps.cmap = true ∧ maps.pmap = true ∧ maps.lmap = true ∧ ∀ map ∈ maps.sets, map = true

structure LoadState where
  prog : BfProgram
  maps : OpenMaps

/-- A program as it is generated: one map for each set, none of them open. -/
def BfProgram.unloaded (p : BfProgram) : LoadState :=
  ⟨p, { sets := p.chain.sets.map fun _ => false }⟩

/-- The outcomes of the calls a load makes; `none` is success. -/
structure LoadFate where
  setCreate : Nat → Option Errno := fun _ => none
  setAlloc : Nat → Option Errno := fun _ => none
  setFill : Nat → Option Errno := fun _ => none
  cmapCreate : Option Errno := none
  assemble : Option Errno := none
  pmapCreate : Option Errno := none
  pmapFill : Option Errno := none
  lmapCreate : Option Errno := none
  logBuf : Option Errno := none
  progLoad : Option Errno := none

/-- A step of a load returns an error code, or none. -/
abbrev Load := Proc LoadState GenErr (Option Errno)

/-! ## Steps -/

/-- A call that changes nothing here. -/
def loadCall (outcome : Option Errno) : Load := pure outcome

/-- `_bf_program_fixup`.  What a failed pass has already filled is of no use to anyone. -/
def loadFixup (type : BfFixupType) : Load := fun s =>
  match bfProgramFixup type s.prog with
  | .ok ((), prog) => .ok (none, { s with prog })
  | .error (.errno e) => .ok (some e, s)
  | .error cause => .error cause

/-- Set which maps are open. -/
def setMaps (change : OpenMaps → OpenMaps) : Proc LoadState GenErr Unit :=
  modify fun s => { s with maps := change s.maps }

/-- Go on after a step that worked. -/
def andThen (step next : Load) : Load := do
  match ← step with
  | some e => pure (some e)
  | none => next

/-- Undo after a step that failed. -/
def orUndo (step : Load) (undo : OpenMaps → OpenMaps) : Load := do
  match ← step with
  | some e => do
      setMaps undo
      pure (some e)
  | none => pure none

/-- `bf_map_create`, which sets `map->fd`. -/
def bfMapCreate (outcome : Option Errno) (opened : OpenMaps → OpenMaps) : Load :=
  match outcome with
  | some e => pure (some e)
  | none => do
      setMaps opened
      pure none

/-- `bf_map_set_n_elems` and `bf_map_set_value_size` refuse a map that is open. -/
def resizeMap (isOpen : OpenMaps → Bool) : Load := do
  if isOpen (← get).maps then pure (some .eperm) else pure none

/-! ## Maps -/

/-- The loop of `_bf_program_load_sets_maps`, over the positions that have a set and a map. -/
def loadSetMaps (fate : LoadFate) : List Nat → Load
  | [] => pure none
  | i :: rest =>
      andThen (bfMapCreate (fate.setCreate i) fun maps =>
          { maps with sets := maps.sets.set i true }) <|
      andThen (loadCall (fate.setAlloc i)) <|
      andThen (loadCall (fate.setFill i)) <|
      loadSetMaps fate rest

def OpenMaps.destroySets (maps : OpenMaps) : OpenMaps :=
  { maps with sets := maps.sets.map fun _ => false }

/-- `_bf_program_load_sets_maps` -/
def bfProgramLoadSetsMaps (fate : LoadFate) : Load := do
  let s ← get
  let both := min s.prog.chain.sets.length s.maps.sets.length
  orUndo (andThen (loadSetMaps fate (List.range both)) (loadFixup .setMapFd)) OpenMaps.destroySets

/-- `_bf_program_load_counters_map` -/
def bfProgramLoadCountersMap (fate : LoadFate) : Load :=
  andThen (resizeMap (·.cmap)) <|
  andThen (bfMapCreate fate.cmapCreate fun maps => { maps with cmap := true }) <|
  orUndo (loadFixup .countersMapFd) fun maps => { maps with cmap := false }

/-- `_bf_program_load_printer_map`: nothing is undone when the map cannot be filled. -/
def bfProgramLoadPrinterMap (fate : LoadFate) : Load :=
  andThen (loadCall fate.assemble) <|
  andThen (resizeMap (·.pmap)) <|
  andThen (bfMapCreate fate.pmapCreate fun maps => { maps with pmap := true }) <|
  andThen (loadCall fate.pmapFill) <|
  orUndo (loadFixup .printerMapFd) fun maps => { maps with pmap := false }

/-- `_bf_program_load_log_map` -/
def bfProgramLoadLogMap (fate : LoadFate) : Load :=
  andThen (bfMapCreate fate.lmapCreate fun maps => { maps with lmap := true }) <|
  orUndo (loadFixup .logMapFd) fun maps => { maps with lmap := false }

/-- `bf_program_load`: the buffer for the verifier's log is allocated when debugging. -/
def bfProgramLoad (fate : LoadFate) : Load :=
  andThen (bfProgramLoadSetsMaps fate) <|
  andThen (bfProgramLoadCountersMap fate) <|
  andThen (bfProgramLoadPrinterMap fate) <|
  andThen (bfProgramLoadLogMap fate) <|
  andThen (loadCall fate.logBuf) <|
  loadCall fate.progLoad

/-! ## What each step does -/

theorem andThen_inv {first next : Load} {s s' : LoadState} {r : Option Errno}
    (ran : andThen first next s = .ok (r, s')) :
    (∃ e, r = some e ∧ first s = .ok (some e, s')) ∨
      ∃ t, first s = .ok (none, t) ∧ next t = .ok (r, s') := by
  obtain ⟨outcome, t, ranFirst, ranRest⟩ := bind_inv ran
  cases outcome with
  | some e =>
      cases ranRest
      exact Or.inl ⟨e, rfl, ranFirst⟩
  | none => exact Or.inr ⟨t, ranFirst, ranRest⟩

theorem orUndo_inv {step : Load} {undo : OpenMaps → OpenMaps} {s s' : LoadState}
    {r : Option Errno} (ran : orUndo step undo s = .ok (r, s')) :
    (r = none ∧ step s = .ok (none, s')) ∨
      ∃ e t, r = some e ∧ step s = .ok (some e, t) ∧ s' = { t with maps := undo t.maps } := by
  obtain ⟨outcome, t, ranStep, ranRest⟩ := bind_inv ran
  cases outcome with
  | some e =>
      cases ranRest
      exact Or.inr ⟨e, t, rfl, ranStep, rfl⟩
  | none =>
      cases ranRest
      exact Or.inl ⟨rfl, ranStep⟩

theorem loadCall_inv {outcome r : Option Errno} {s s' : LoadState}
    (ran : loadCall outcome s = .ok (r, s')) : r = outcome ∧ s' = s := by
  cases ran
  exact ⟨rfl, rfl⟩

theorem bfMapCreate_inv {outcome r : Option Errno} {opened : OpenMaps → OpenMaps}
    {s s' : LoadState} (ran : bfMapCreate outcome opened s = .ok (r, s')) :
    r = outcome ∧ (∀ e, r = some e → s' = s) ∧
      (r = none → s' = { s with maps := opened s.maps }) := by
  cases outcome with
  | some e =>
      cases ran
      exact ⟨rfl, fun _ _ => rfl, fun works => by cases works⟩
  | none =>
      cases ran
      refine ⟨rfl, ?_, fun _ => rfl⟩
      intro e fails
      cases fails

/-- A map that is not open can be resized. -/
theorem resizeMap_inv {isOpen : OpenMaps → Bool} {s s' : LoadState} {r : Option Errno}
    (closed : isOpen s.maps = false) (ran : resizeMap isOpen s = .ok (r, s')) :
    r = none ∧ s' = s := by
  obtain ⟨t, t', ranGet, ranRest⟩ := bind_inv ran
  cases ranGet
  rw [closed] at ranRest
  cases ranRest
  exact ⟨rfl, rfl⟩

theorem loadFixup_inv {type : BfFixupType} {s s' : LoadState} {r : Option Errno}
    (ran : loadFixup type s = .ok (r, s')) :
    s'.maps = s.maps ∧
      ((r = none ∧ bfProgramFixup type s.prog = .ok ((), s'.prog)) ∨
        ∃ e, r = some e ∧ s' = s ∧ bfProgramFixup type s.prog = .error (.errno e)) := by
  unfold loadFixup at ran
  split at ran
  · rename_i filled
    cases ran
    exact ⟨rfl, Or.inl ⟨rfl, filled⟩⟩
  · rename_i failed
    cases ran
    exact ⟨rfl, Or.inr ⟨_, rfl, rfl, failed⟩⟩
  · cases ran

/-! ## Fixup passes -/

/-- A fixup refers to a set that has no map. -/
def BfProgram.MissesSet (p : BfProgram) : Prop :=
  ∃ f ∈ p.fixups, ∃ index, f.kind = .setMapFd index ∧ p.maps.sets.length ≤ index

theorem bfProgramFixupInsn_errno {ndebug : Bool} {insn : BpfInsn} {field : BfFixupInsn}
    {value : BitVec 32} {e : Errno} :
    bfProgramFixupInsn ndebug insn field value ≠ .error (.errno e) := by
  intro failed
  cases field with
  | off =>
      simp only [bfProgramFixupInsn] at failed
      split at failed
      · cases failed
      · split at failed <;> cases failed
  | imm =>
      simp only [bfProgramFixupInsn] at failed
      split at failed <;> cases failed

/-- Besides a stub, only a set can be missing. -/
theorem bfProgramFixupOne_errno {type : BfFixupType} {p : BfProgram} {f : BfFixup} {e : Errno}
    (noStub : type ≠ .elfstubCall) (failed : bfProgramFixupOne type p f = .error (.errno e)) :
    type = .setMapFd ∧ ∃ index, f.kind = .setMapFd index ∧ p.maps.sets.length ≤ index := by
  obtain ⟨kind, insn⟩ := f
  unfold bfProgramFixupOne at failed
  split at failed
  · rename_i typed
    split at failed
    · cases failed
    · split at failed
      · rename_i unknown
        cases kind with
        | setMapFd index =>
            simp only [bfProgramFixupValue] at unknown
            split at unknown
            · rename_i missing
              exact ⟨typed.symm, index, rfl, List.getElem?_eq_none_iff.mp missing⟩
            · cases unknown
        | elfstubCall id => exact absurd typed.symm noStub
        | jmpNextRule => cases unknown
        | countersMapFd => cases unknown
        | printerMapFd => cases unknown
        | logMapFd => cases unknown
      · split at failed
        · rename_i refused
          cases failed
          exact absurd refused bfProgramFixupInsn_errno
        · cases failed
  · cases failed

/-- A fixup that was filled had its set. -/
theorem bfProgramFixupOne_set {p q : BfProgram} {f : BfFixup}
    (ran : bfProgramFixupOne .setMapFd p f = .ok q) :
    q.maps = p.maps ∧ ∀ index, f.kind = .setMapFd index → index < p.maps.sets.length := by
  by_cases typed : f.kind.type = .setMapFd
  · obtain ⟨insn, value, -, known, rfl⟩ := bfProgramFixupOne_imm (by decide) typed ran
    refine ⟨rfl, ?_⟩
    intro index kind
    simp only [bfProgramFixupValue, kind] at known
    split at known
    · cases known
    · rename_i present
      exact (List.getElem?_eq_some_iff.mp present).1
  · simp only [bfProgramFixupOne, typed, if_false] at ran
    cases ran
    refine ⟨rfl, ?_⟩
    intro index kind
    exact absurd (by rw [kind]; rfl) typed

/-- A pass returns an error only for a set that is missing. -/
theorem bfProgramFixup_errno {type : BfFixupType} {p : BfProgram} {e : Errno}
    (imm : type ≠ .jmpNextRule) (noStub : type ≠ .elfstubCall)
    (failed : bfProgramFixup type p = .error (.errno e)) : type = .setMapFd ∧ p.MissesSet := by
  have loop : ∀ (fs : List BfFixup) (q : BfProgram), q.maps = p.maps →
      fs.foldlM (bfProgramFixupOne type) q = .error (.errno e) →
      type = .setMapFd ∧
        ∃ f ∈ fs, ∃ index, f.kind = .setMapFd index ∧ p.maps.sets.length ≤ index := by
    intro fs
    induction fs with
    | nil =>
        intro q _ failed
        cases failed
    | cons f fs ih =>
        intro q same failed
        rw [List.foldlM_cons] at failed
        cases one : bfProgramFixupOne type q f with
        | error cause =>
            rw [one] at failed
            cases failed
            obtain ⟨isSet, index, kind, outside⟩ := bfProgramFixupOne_errno noStub one
            exact ⟨isSet, f, List.mem_cons_self, index, kind, same ▸ outside⟩
        | ok q' =>
            simp only [one, bind, Except.bind] at failed
            have same' : q'.maps = p.maps := by
              by_cases typed : f.kind.type = type
              · obtain ⟨-, -, -, -, rfl⟩ := bfProgramFixupOne_imm imm typed one
                exact same
              · simp only [bfProgramFixupOne, typed, if_false] at one
                cases one
                exact same
            obtain ⟨isSet, g, mem, index, outside⟩ := ih q' same' failed
            exact ⟨isSet, g, List.mem_cons_of_mem f mem, index, outside⟩
  unfold bfProgramFixup at failed
  split at failed
  · rename_i stopped
    cases failed
    exact loop p.fixups p rfl stopped
  · cases failed

/-- The pass for the sets gets to its end when every set has a map. -/
theorem bfProgramFixup_noneMissing {p q : BfProgram}
    (ran : bfProgramFixup .setMapFd p = .ok ((), q)) : ¬ p.MissesSet := by
  have loop : ∀ (fs : List BfFixup) (start stop : BfProgram), start.maps = p.maps →
      fs.foldlM (bfProgramFixupOne .setMapFd) start = .ok stop →
      ∀ f ∈ fs, ∀ index, f.kind = .setMapFd index → index < p.maps.sets.length := by
    intro fs
    induction fs with
    | nil =>
        intro start stop _ _ f mem
        cases mem
    | cons g fs ih =>
        intro start stop same ran f mem index kind
        rw [List.foldlM_cons] at ran
        cases one : bfProgramFixupOne .setMapFd start g with
        | error cause =>
            rw [one] at ran
            cases ran
        | ok next =>
            simp only [one, bind, Except.bind] at ran
            obtain ⟨kept, inside⟩ := bfProgramFixupOne_set one
            rcases List.mem_cons.mp mem with here | there
            · rw [here] at kind
              exact same ▸ inside index kind
            · exact ih next stop (kept.trans same) ran f there index kind
  intro misses
  obtain ⟨f, mem, index, kind, outside⟩ := misses
  unfold bfProgramFixup at ran
  split at ran
  · cases ran
  · rename_i stop filled
    exact absurd (loop p.fixups p stop rfl filled f mem index kind) (Nat.not_lt.mpr outside)

/-- The other passes return no error. -/
theorem loadFixup_works {type : BfFixupType} {s s' : LoadState} {r : Option Errno}
    (imm : type ≠ .jmpNextRule) (noStub : type ≠ .elfstubCall) (noSet : type ≠ .setMapFd)
    (ran : loadFixup type s = .ok (r, s')) :
    r = none ∧ s'.maps = s.maps ∧ bfProgramFixup type s.prog = .ok ((), s'.prog) := by
  obtain ⟨kept, ⟨works, filled⟩ | ⟨e, -, -, failed⟩⟩ := loadFixup_inv ran
  · exact ⟨works, kept, filled⟩
  · exact absurd (bfProgramFixup_errno imm noStub failed).1 noSet

/-! ## The maps of the sets -/

/-- Every call made for the map of the set at position `i` works. -/
def LoadFate.SetWorks (fate : LoadFate) (i : Nat) : Prop :=
  fate.setCreate i = none ∧ fate.setAlloc i = none ∧ fate.setFill i = none

/-- The loop touches the sets' maps only.  It gets to its end when all its calls work, and then
leaves every map it went over open. -/
theorem loadSetMaps_inv {fate : LoadFate} {is : List Nat} {s s' : LoadState} {r : Option Errno}
    (ran : loadSetMaps fate is s = .ok (r, s')) :
    (∃ sets, sets.length = s.maps.sets.length ∧ s' = { s with maps := { s.maps with sets } }) ∧
      (r = none ↔ ∀ i ∈ is, fate.SetWorks i) ∧
      (r = none → ∀ i, i ∈ is ∨ s.maps.sets[i]? = some true → i < s.maps.sets.length →
        s'.maps.sets[i]? = some true) := by
  induction is generalizing s with
  | nil =>
      cases ran
      refine ⟨⟨_, rfl, rfl⟩, ⟨fun _ i mem => absurd mem List.not_mem_nil, fun _ => rfl⟩, ?_⟩
      intro _ i opened _
      rcases opened with mem | opened
      · exact absurd mem List.not_mem_nil
      · exact opened
  | cons i is ih =>
      rw [loadSetMaps] at ran
      rcases andThen_inv ran with ⟨e, rfl, created⟩ | ⟨t, created, ran⟩
      · obtain ⟨outcome, same, -⟩ := bfMapCreate_inv created
        rw [same e rfl]
        have stopped := Option.some_ne_none e
        refine ⟨⟨s.maps.sets, rfl, rfl⟩, ⟨fun done => absurd done stopped, ?_⟩,
          fun done => absurd done stopped⟩
        intro works
        rw [(works i List.mem_cons_self).1] at outcome
        exact outcome
      · obtain ⟨outcome, -, opened⟩ := bfMapCreate_inv created
        obtain rfl := opened rfl
        have grown : ∃ sets, sets.length = s.maps.sets.length ∧
            ({ s with maps := { s.maps with sets := s.maps.sets.set i true } } : LoadState) =
              { s with maps := { s.maps with sets } } := ⟨_, List.length_set, rfl⟩
        rcases andThen_inv ran with ⟨e, rfl, alloc⟩ | ⟨t, alloc, ran⟩
        · obtain ⟨failed, rfl⟩ := loadCall_inv alloc
          have stopped := Option.some_ne_none e
          refine ⟨grown, ⟨fun done => absurd done stopped, ?_⟩, fun done => absurd done stopped⟩
          intro works
          rw [(works i List.mem_cons_self).2.1] at failed
          exact failed
        · obtain ⟨allocated, rfl⟩ := loadCall_inv alloc
          rcases andThen_inv ran with ⟨e, rfl, fill⟩ | ⟨t, fill, ran⟩
          · obtain ⟨failed, rfl⟩ := loadCall_inv fill
            have stopped := Option.some_ne_none e
            refine ⟨grown, ⟨fun done => absurd done stopped, ?_⟩, fun done => absurd done stopped⟩
            intro works
            rw [(works i List.mem_cons_self).2.2] at failed
            exact failed
          · obtain ⟨filled, rfl⟩ := loadCall_inv fill
            obtain ⟨⟨sets, size, rfl⟩, works, opens⟩ := ih ran
            refine ⟨⟨sets, size.trans List.length_set, rfl⟩, ?_, ?_⟩
            · rw [works, List.forall_mem_cons]
              exact ⟨fun rest => ⟨⟨outcome.symm, allocated.symm, filled.symm⟩, rest⟩, fun all => all.2⟩
            · intro done j mem inside
              refine opens done j ?_ (by simpa using inside)
              by_cases here : i = j
              · exact Or.inr (by simp [here, inside])
              · rcases mem with mem | opened
                · exact Or.inl ((List.mem_cons.mp mem).resolve_left (Ne.symm here))
                · exact Or.inr (by simpa [here] using opened)

/-- Something goes wrong with the map of a set. -/
def SetsFail (fate : LoadFate) (p : BfProgram) : Prop :=
  (∃ i < p.chain.sets.length, ¬ fate.SetWorks i) ∨ p.MissesSet

/-- Either the sets' maps are all open, or the error was undone and no map is. -/
theorem bfProgramLoadSetsMaps_inv {fate : LoadFate} {p : BfProgram} {s' : LoadState}
    {r : Option Errno} (ran : bfProgramLoadSetsMaps fate p.unloaded = .ok (r, s')) :
    (r = none ∧ ¬ SetsFail fate p ∧ bfProgramFixup .setMapFd p = .ok ((), s'.prog) ∧
        s'.maps = { sets := p.chain.sets.map fun _ => true }) ∨
      (r ≠ none ∧ SetsFail fate p ∧ s'.maps.AllClosed) := by
  obtain ⟨t, t', ranGet, ran⟩ := bind_inv ran
  cases ranGet
  have both : min p.unloaded.prog.chain.sets.length p.unloaded.maps.sets.length =
      p.chain.sets.length := by simp [BfProgram.unloaded]
  simp only [both] at ran
  have undone : ∀ (s : LoadState), (∃ sets, sets.length = p.unloaded.maps.sets.length ∧
      s.maps = { p.unloaded.maps with sets }) → s.maps.destroySets.AllClosed := by
    rintro s ⟨sets, -, same⟩
    rw [same]
    exact ⟨rfl, rfl, rfl, by simp [OpenMaps.destroySets]⟩
  have loops : ∀ {outcome : Option Errno} {s : LoadState},
      loadSetMaps fate (List.range p.chain.sets.length) p.unloaded = .ok (outcome, s) →
        ((outcome = none ∧ ∀ i < p.chain.sets.length, fate.SetWorks i) ∨
          outcome ≠ none ∧ ∃ i < p.chain.sets.length, ¬ fate.SetWorks i) := by
    intro outcome s ran
    obtain ⟨-, works, -⟩ := loadSetMaps_inv ran
    by_cases all : ∀ i < p.chain.sets.length, fate.SetWorks i
    · exact Or.inl ⟨works.mpr fun i mem => all i (List.mem_range.mp mem), all⟩
    · refine Or.inr ⟨fun done => all fun i inside => works.mp done i (List.mem_range.mpr inside), ?_⟩
      simpa only [not_forall, exists_prop] using all
  rcases orUndo_inv ran with ⟨rfl, passed⟩ | ⟨e, t, rfl, stopped, rfl⟩
  · rcases andThen_inv passed with ⟨e, fails, -⟩ | ⟨t, looped, fixed⟩
    · cases fails
    · obtain ⟨-, all⟩ := (loops looped).resolve_right fun fails => fails.1 rfl
      obtain ⟨⟨sets, size, rfl⟩, -, opens⟩ := loadSetMaps_inv looped
      obtain ⟨kept, ⟨-, filled⟩ | ⟨e, fails, -⟩⟩ := loadFixup_inv fixed
      · refine Or.inl ⟨rfl, ?_, filled, ?_⟩
        · rintro (⟨i, inside, fails⟩ | misses)
          · exact fails (all i inside)
          · exact bfProgramFixup_noneMissing filled misses
        · rw [kept]
          have size' : sets.length = p.chain.sets.length := by
            simpa [BfProgram.unloaded] using size
          have filledAll : sets = p.chain.sets.map fun _ => true := by
            refine List.ext_getElem? fun i => ?_
            by_cases inside : i < p.chain.sets.length
            · rw [opens rfl i (Or.inl (List.mem_range.mpr inside))
                (by simpa [BfProgram.unloaded] using inside)]
              simp [inside]
            · rw [List.getElem?_eq_none (by omega), List.getElem?_eq_none (by simpa using inside)]
          rw [filledAll]
          rfl
      · cases fails
  · refine Or.inr ⟨by simp, ?_⟩
    rcases andThen_inv stopped with ⟨e', -, looped⟩ | ⟨t', looped, fixed⟩
    · obtain ⟨-, fails⟩ := (loops looped).resolve_left fun works => Option.some_ne_none e' works.1
      obtain ⟨⟨sets, size, rfl⟩, -, -⟩ := loadSetMaps_inv looped
      exact ⟨Or.inl fails, undone _ ⟨sets, size, rfl⟩⟩
    · obtain ⟨⟨sets, size, rfl⟩, -, -⟩ := loadSetMaps_inv looped
      obtain ⟨kept, ⟨works, -⟩ | ⟨e', -, rfl, failed⟩⟩ := loadFixup_inv fixed
      · cases works
      · exact ⟨Or.inr (bfProgramFixup_errno (by decide) (by decide) failed).2,
          undone _ ⟨sets, size, rfl⟩⟩

/-! ## The other maps -/

theorem bfProgramLoadCountersMap_inv {fate : LoadFate} {s s' : LoadState} {r : Option Errno}
    (closed : s.maps.cmap = false) (ran : bfProgramLoadCountersMap fate s = .ok (r, s')) :
    (∃ e, r = some e ∧ fate.cmapCreate = some e ∧ s' = s) ∨
      (r = none ∧ fate.cmapCreate = none ∧ s'.maps = { s.maps with cmap := true } ∧
        bfProgramFixup .countersMapFd s.prog = .ok ((), s'.prog)) := by
  rcases andThen_inv ran with ⟨e, -, resized⟩ | ⟨t, resized, rest₁⟩
  · cases (resizeMap_inv closed resized).1
  · obtain ⟨-, rfl⟩ := resizeMap_inv closed resized
    rcases andThen_inv rest₁ with ⟨e, rfl, created⟩ | ⟨t, created, rest₂⟩
    · obtain ⟨outcome, same, -⟩ := bfMapCreate_inv created
      exact Or.inl ⟨e, rfl, outcome.symm, same e rfl⟩
    · obtain ⟨outcome, -, opened⟩ := bfMapCreate_inv created
      obtain rfl := opened rfl
      refine Or.inr ?_
      rcases orUndo_inv rest₂ with ⟨rfl, fixed⟩ | ⟨e, t, -, fixed, -⟩
      · obtain ⟨-, kept, filled⟩ := loadFixup_works (by decide) (by decide) (by decide) fixed
        exact ⟨rfl, outcome.symm, kept, filled⟩
      · cases (loadFixup_works (by decide) (by decide) (by decide) fixed).1

/-- Whatever happens to the printer's map, the others stay as they are. -/
theorem bfProgramLoadPrinterMap_inv {fate : LoadFate} {s s' : LoadState} {r : Option Errno}
    (closed : s.maps.pmap = false) (ran : bfProgramLoadPrinterMap fate s = .ok (r, s')) :
    (∃ isOpen, s'.maps = { s.maps with pmap := isOpen }) ∧
      (r = none → s'.maps.pmap = true ∧
        bfProgramFixup .printerMapFd s.prog = .ok ((), s'.prog)) := by
  have failing : ∀ {e : Errno} {fact : Prop}, some e = none → fact :=
    fun works => absurd works (Option.some_ne_none _)
  rcases andThen_inv ran with ⟨e, rfl, assembled⟩ | ⟨t, assembled, rest₁⟩
  · obtain ⟨-, rfl⟩ := loadCall_inv assembled
    exact ⟨⟨_, rfl⟩, failing⟩
  · obtain ⟨-, rfl⟩ := loadCall_inv assembled
    rcases andThen_inv rest₁ with ⟨e, -, resized⟩ | ⟨t, resized, rest₂⟩
    · cases (resizeMap_inv closed resized).1
    · obtain ⟨-, rfl⟩ := resizeMap_inv closed resized
      rcases andThen_inv rest₂ with ⟨e, rfl, created⟩ | ⟨t, created, rest₃⟩
      · obtain ⟨-, same, -⟩ := bfMapCreate_inv created
        rw [same e rfl]
        exact ⟨⟨_, rfl⟩, failing⟩
      · obtain ⟨-, -, opened⟩ := bfMapCreate_inv created
        obtain rfl := opened rfl
        rcases andThen_inv rest₃ with ⟨e, rfl, written⟩ | ⟨t, written, rest₄⟩
        · obtain ⟨-, rfl⟩ := loadCall_inv written
          exact ⟨⟨true, rfl⟩, failing⟩
        · obtain ⟨-, rfl⟩ := loadCall_inv written
          rcases orUndo_inv rest₄ with ⟨rfl, fixed⟩ | ⟨e, t, -, fixed, -⟩
          · obtain ⟨-, kept, filled⟩ := loadFixup_works (by decide) (by decide) (by decide) fixed
            exact ⟨⟨true, kept⟩, fun _ => ⟨by rw [kept], filled⟩⟩
          · cases (loadFixup_works (by decide) (by decide) (by decide) fixed).1

theorem bfProgramLoadLogMap_inv {fate : LoadFate} {s s' : LoadState} {r : Option Errno}
    (ran : bfProgramLoadLogMap fate s = .ok (r, s')) :
    (∃ isOpen, s'.maps = { s.maps with lmap := isOpen }) ∧
      (r = none → s'.maps.lmap = true ∧ bfProgramFixup .logMapFd s.prog = .ok ((), s'.prog)) := by
  rcases andThen_inv ran with ⟨e, rfl, created⟩ | ⟨t, created, rest₁⟩
  · obtain ⟨-, same, -⟩ := bfMapCreate_inv created
    rw [same e rfl]
    exact ⟨⟨_, rfl⟩, fun works => absurd works (Option.some_ne_none e)⟩
  · obtain ⟨-, -, opened⟩ := bfMapCreate_inv created
    obtain rfl := opened rfl
    rcases orUndo_inv rest₁ with ⟨rfl, fixed⟩ | ⟨e, t, -, fixed, -⟩
    · obtain ⟨-, kept, filled⟩ := loadFixup_works (by decide) (by decide) (by decide) fixed
      exact ⟨⟨true, kept⟩, fun _ => ⟨by rw [kept], filled⟩⟩
    · cases (loadFixup_works (by decide) (by decide) (by decide) fixed).1

/-! ## The whole load -/

/-- The state a load leaves: nothing is open after a failure with the sets' maps; the sets' maps
alone are after a failure with the counters' map; after any other failure they are open and the
counters' map is; a load that works leaves everything open. -/
theorem bfProgramLoad_inv {fate : LoadFate} {p : BfProgram} {s' : LoadState} {r : Option Errno}
    (ran : bfProgramLoad fate p.unloaded = .ok (r, s')) :
    (r ≠ none ∧ SetsFail fate p ∧ s'.maps.AllClosed) ∨
      (r ≠ none ∧ ¬ SetsFail fate p ∧ fate.cmapCreate.isSome ∧
        s'.maps = { sets := p.chain.sets.map fun _ => true }) ∨
      (¬ SetsFail fate p ∧ fate.cmapCreate = none ∧ s'.maps.cmap = true ∧
        (r = none → s'.maps.AllOpen ∧ bfProgramLoadFixups p = .ok ((), s'.prog))) := by
  have failing : ∀ {e : Errno} {fact : Prop}, some e = none → fact :=
    fun works => absurd works (Option.some_ne_none _)
  rcases andThen_inv ran with ⟨e, rfl, sets⟩ | ⟨t₁, sets, rest₁⟩
  · rcases bfProgramLoadSetsMaps_inv sets with ⟨works, -⟩ | fails
    · cases works
    · exact Or.inl fails
  · obtain ⟨-, setsWork, setsFilled, maps₁⟩ :=
      (bfProgramLoadSetsMaps_inv sets).resolve_right fun fails => fails.1 rfl
    have closed₁ : t₁.maps.cmap = false := by rw [maps₁]
    rcases andThen_inv rest₁ with ⟨e, rfl, counters⟩ | ⟨t₂, counters, rest₂⟩
    · rcases bfProgramLoadCountersMap_inv closed₁ counters with ⟨e', -, refused, rfl⟩ | ⟨works, -⟩
      · exact Or.inr (Or.inl ⟨Option.some_ne_none e, setsWork, by simp [refused], maps₁⟩)
      · cases works
    · refine Or.inr (Or.inr ?_)
      rcases bfProgramLoadCountersMap_inv closed₁ counters with
        ⟨e', fails, -⟩ | ⟨-, created, maps₂, countersFilled⟩
      · cases fails
      · rw [maps₁] at maps₂
        have closed₂ : t₂.maps.pmap = false := by rw [maps₂]
        rcases andThen_inv rest₂ with ⟨e, rfl, printer⟩ | ⟨t₃, printer, rest₃⟩
        · obtain ⟨⟨isOpen, maps₃⟩, -⟩ := bfProgramLoadPrinterMap_inv closed₂ printer
          exact ⟨setsWork, created, by rw [maps₃, maps₂], failing⟩
        · obtain ⟨⟨isOpen₃, maps₃⟩, works₃⟩ := bfProgramLoadPrinterMap_inv closed₂ printer
          obtain ⟨pmap, printerFilled⟩ := works₃ rfl
          rw [maps₃] at pmap
          rcases andThen_inv rest₃ with ⟨e, rfl, log⟩ | ⟨t₄, log, rest₄⟩
          · obtain ⟨⟨isOpen, maps₄⟩, -⟩ := bfProgramLoadLogMap_inv log
            exact ⟨setsWork, created, by rw [maps₄, maps₃, maps₂], failing⟩
          · obtain ⟨⟨isOpen₄, maps₄⟩, works₄⟩ := bfProgramLoadLogMap_inv log
            obtain ⟨lmap, logFilled⟩ := works₄ rfl
            have cmap : t₄.maps.cmap = true := by rw [maps₄, maps₃, maps₂]
            rcases andThen_inv rest₄ with ⟨e, rfl, buffer⟩ | ⟨t₅, buffer, loaded⟩
            · obtain ⟨-, rfl⟩ := loadCall_inv buffer
              exact ⟨setsWork, created, cmap, failing⟩
            · obtain ⟨-, rfl⟩ := loadCall_inv buffer
              obtain ⟨-, rfl⟩ := loadCall_inv loaded
              refine ⟨setsWork, created, cmap, fun _ => ⟨⟨cmap, ?_, lmap, ?_⟩, ?_⟩⟩
              · rw [maps₄, maps₃]
                exact pmap
              · rw [maps₄, maps₃, maps₂]
                simp
              · unfold bfProgramLoadFixups
                rw [bind_run setsFilled, bind_run countersFilled, bind_run printerFilled]
                exact logFilled

/-- A load that works opens every map, and what it does to the code are the fixup passes. -/
theorem bfProgramLoad_loaded {fate : LoadFate} {p : BfProgram} {s' : LoadState}
    (ran : bfProgramLoad fate p.unloaded = .ok (none, s')) :
    s'.maps.AllOpen ∧ bfProgramLoadFixups p = .ok ((), s'.prog) := by
  rcases bfProgramLoad_inv ran with ⟨fails, -⟩ | ⟨fails, -⟩ | ⟨-, -, -, works⟩
  · exact absurd rfl fails
  · exact absurd rfl fails
  · exact works rfl

/-- **Failed loads.**  A load that returns an error leaves no map open if and only if it failed
with the sets' maps, or with the counters' map of a chain without sets. -/
theorem load_closes_iff {fate : LoadFate} {p : BfProgram} {s' : LoadState} {e : Errno}
    (ran : bfProgramLoad fate p.unloaded = .ok (some e, s')) :
    s'.maps.AllClosed ↔
      SetsFail fate p ∨ (p.chain.sets = [] ∧ fate.cmapCreate.isSome) := by
  rcases bfProgramLoad_inv ran with
    ⟨-, sets, closed⟩ | ⟨-, sets, counters, maps⟩ | ⟨sets, counters, cmap, -⟩
  · exact iff_of_true closed (Or.inl sets)
  · rw [maps]
    constructor
    · intro closed
      refine Or.inr ⟨?_, counters⟩
      cases names : p.chain.sets with
      | nil => rfl
      | cons set rest =>
          have open₁ := closed.2.2.2 true (by simp [names])
          cases open₁
    · rintro (fails | ⟨none, -⟩)
      · exact absurd fails sets
      · exact ⟨rfl, rfl, rfl, by simp [none]⟩
  · refine iff_of_false ?_ ?_
    · intro closed
      rw [closed.1] at cmap
      cases cmap
    · rintro (fails | ⟨-, refused⟩)
      · exact sets fails
      · rw [counters] at refused
        cases refused

/-! ## Two failed loads -/

/-- The program of a chain without sets, as it is generated. -/
def unloadedSample : BfProgram :=
  resultOf bfProgramGenerate (bfProgramNew sampleHost sampleChain sampleMaps)

theorem unloadedSample_generated :
    bfProgramGenerate (bfProgramNew sampleHost sampleChain sampleMaps) = .ok ((), unloadedSample) :=
  gen_resultOf (by decide +kernel)

/-- The counters' map is the first one of this program. -/
theorem refusedCounters_closes :
    ∃ s', bfProgramLoad { cmapCreate := some .enomem } unloadedSample.unloaded =
        .ok (some .enomem, s') ∧ s'.maps.AllClosed := by
  have passes : Passes (bfProgramLoad { cmapCreate := some .enomem }) unloadedSample.unloaded
      (fun r _ => decide (r = some .enomem)) = true := by decide +kernel
  obtain ⟨r, s', ran, failed⟩ := passes_inv passes
  rw [decide_eq_true_iff] at failed
  rw [failed] at ran
  exact ⟨s', ran, (load_closes_iff ran).mpr (Or.inr ⟨by decide +kernel, rfl⟩)⟩

/-- The kernel refuses the program: its maps stay open. -/
theorem refusedProgram_leavesMaps :
    ¬ ∀ (host : Host) (chain : BfChain) (maps : BfMaps) (p : BfProgram) (fate : LoadFate)
        (e : Errno) (s' : LoadState),
      bfProgramGenerate (bfProgramNew host chain maps) = .ok ((), p) →
      bfProgramLoad fate p.unloaded = .ok (some e, s') → s'.maps.AllClosed := by
  intro claimed
  have passes : Passes (bfProgramLoad { progLoad := some .einval }) unloadedSample.unloaded
      (fun r s => decide (r = some .einval ∧ s.maps.cmap = true)) = true := by decide +kernel
  obtain ⟨r, s', ran, failed⟩ := passes_inv passes
  obtain ⟨rfl, cmap⟩ := of_decide_eq_true failed
  have closed := (claimed _ _ _ _ _ _ _ unloadedSample_generated ran).1
  rw [cmap] at closed
  cases closed

end Bpfilter
