/-
# Cgen.Lifecycle -- what any order of fixup steps keeps

A program is emitted, its jumps are filled rule by rule, stubs are placed behind it, their
calls are filled, and loading fills what is left.  `Ledger` is the record of such a life:
the text as it was emitted, the fixups that were created, the fixups that were filled, and
the stubs that were placed.  `LifeStep` is one step of the source (slots are emitted, a
pass of `_bf_program_fixup` runs, a stub is placed) together with what it enters in the
ledger.

`LifeSound` is the invariant of all steps, whatever their order: the ledger accounts for
the program (`Accounted`), the text fits the fixups that were created on it (`Recorded`),
and every stub is where its location says (`Located`).
-/
import Bpfilter.Cgen.Assembly

namespace Bpfilter

set_option autoImplicit false

open Ebpf

/-! ## Map loads -/

/-- The first slot of a pair that loads a map, or an address inside its value. -/
def isMapLoad (i : BpfInsn) : Bool :=
  i.code == .ldImm64 && (i.src == pseudoMapFd || i.src == pseudoMapValue)

def BfFixupKind.isMap : BfFixupKind → Bool
  | .countersMapFd => true
  | .printerMapFd => true
  | .logMapFd => true
  | .setMapFd _ => true
  | .jmpNextRule => false
  | .elfstubCall _ => false

/-- The map a fixup was created for. -/
def BfMaps.fdOf (maps : BfMaps) : BfFixupKind → Option (BitVec 32)
  | .countersMapFd => some maps.cmap
  | .printerMapFd => some maps.pmap
  | .logMapFd => some maps.lmap
  | .setMapFd index => maps.sets[index]?
  | .jmpNextRule => none
  | .elfstubCall _ => none

def BfFixupKind.setIndex : BfFixupKind → Option Nat
  | .setMapFd index => some index
  | _ => none

/-- The set a slot loads the map of. -/
def Emitted.setIndex (e : Emitted) : Option Nat := e.fixup.bind BfFixupKind.setIndex

/-- The index a matcher refers to its set by. -/
def BfMatcher.setIndex (m : BfMatcher) : Option Nat :=
  if m.type = .set then some (m.payloadU32 0).toNat else none

/-! ## Stubs as they are compiled -/

/-- Every string of a stub is loaded by one pair of slots of its own. -/
structure BfElfstub.Paired (stub : BfElfstub) : Prop where
  once : (stub.strs.map (·.1)).Nodup
  pairs : ∀ str ∈ stub.strs, ∃ lo hi, stub.insns[str.1]? = some lo ∧ lo.code = .ldImm64 ∧
    stub.insns[str.1 + 1]? = some hi ∧ hi.code = .reserved

def Host.StubsPaired (host : Host) : Prop :=
  ∀ id stub, host.getElfstub id = some stub → stub.Paired

/-- A stub at `start`: its instructions, with every string load pointed to the printer. -/
structure StubText (text : List BpfInsn) (start : Nat) (stub : BfElfstub) : Prop where
  inside : start + stub.insns.length ≤ text.length
  insns : ∀ k < stub.insns.length, (∀ str ∈ stub.strs, str.1 ≠ k ∧ str.1 + 1 ≠ k) →
    text[start + k]? = stub.insns[k]?
  loads : ∀ str ∈ stub.strs,
    text[start + str.1]? = some { bpfLdImm64Lo 1 pseudoMapFd 0 with src := pseudoMapValue } ∧
      ∃ offset, text[start + str.1 + 1]? = some { bpfLdImm64Hi 0 with imm := offset }

/-! ## The slots that are emitted -/

/-- A slot outside of every map load: its fixup, if it has one, is that of a jump or of a
stub call. -/
def Emitted.unpaired (e : Emitted) : Bool :=
  !isMapLoad e.insn &&
    match e.fixup with
    | none => true
    | some .jmpNextRule => e.insn.isJump
    | some (.elfstubCall _) => e.insn == bpfCallRel 0
    | some _ => false

/-- Slots as the emission macros leave them: map loads are pairs, each with its fixup. -/
inductive Shaped (kinds : BfFixupKind → Prop) : List Emitted → Prop where
  | nil : Shaped kinds []
  | single {e : Emitted} {rest : List Emitted} (alone : e.unpaired = true)
      (tail : Shaped kinds rest) : Shaped kinds (e :: rest)
  | pair {kind : BfFixupKind} {reg src : Reg} {offset : BitVec 32} {rest : List Emitted}
      (map : kind.isMap = true) (pseudo : src = pseudoMapFd ∨ src = pseudoMapValue)
      (allowed : kinds kind) (tail : Shaped kinds rest) :
      Shaped kinds
        ({ insn := { bpfLdImm64Lo reg pseudoMapFd 0 with src }, fixup := some kind } ::
          { insn := { bpfLdImm64Hi 0 with imm := offset } } :: rest)

/-! ## Ledgers -/

structure Ledger where
  emitted : List BpfInsn
  created : List BfFixup
  filled : List BfFixup
  placed : List (BfElfstubId × Nat)

def Ledger.empty : Ledger := ⟨[], [], [], []⟩

/-- One step in the life of a program, and its entry in the ledger. -/
inductive LifeStep : BfProgram × Ledger → BfProgram × Ledger → Prop where
  | emit (p : BfProgram) (life : Ledger) (es : List Emitted) (shaped : Shaped (fun _ => True) es) :
      LifeStep (p, life) (p.append es,
        { life with
          emitted := life.emitted ++ es.map (·.insn)
          created := life.created ++ fixupsFrom p.img.length es })
  | note (p : BfProgram) (life : Ledger) (printer : BfPrinter) :
      LifeStep (p, life) ({ p with printer }, life)
  | fill {p q : BfProgram} (life : Ledger) {type : BfFixupType}
      (ran : bfProgramFixup type p = .ok ((), q)) :
      LifeStep (p, life)
        (q, { life with filled := life.filled ++ p.fixups.filter (fun f => f.kind.type == type) })
  | place {p q : BfProgram} (life : Ledger) {f : BfFixup} {id : BfElfstubId} {stub : BfElfstub}
      (waits : f ∈ p.fixups) (kind : f.kind = .elfstubCall id) (fresh : p.elfstubsLocation id = 0)
      (found : p.host.getElfstub id = some stub) (ran : placeElfstub f p = .ok ((), q)) :
      LifeStep (p, life) (q,
        { life with
          emitted := life.emitted ++ q.img.drop p.img.length
          created := life.created ++ stub.strs.map fun str => ⟨.printerMapFd, p.img.length + str.1⟩
          placed := life.placed ++ [(id, p.img.length)] })

/-- Any number of steps. -/
def Life : BfProgram × Ledger → BfProgram × Ledger → Prop := Relation.ReflTransGen LifeStep

/-! ## Slots that are added -/

section Slots

variable {kinds : BfFixupKind → Prop} {es es' : List Emitted}

theorem Shaped.append (first : Shaped kinds es) (second : Shaped kinds es') :
    Shaped kinds (es ++ es') := by
  induction first with
  | nil => exact second
  | single alone _ ih => exact .single alone ih
  | pair map pseudo allowed _ ih => exact .pair map pseudo allowed ih

theorem Shaped.mono {kinds' : BfFixupKind → Prop} (shaped : Shaped kinds es)
    (more : ∀ kind, kinds kind → kinds' kind) : Shaped kinds' es := by
  induction shaped with
  | nil => exact .nil
  | single alone _ ih => exact .single alone ih
  | pair map pseudo allowed _ ih => exact .pair map pseudo (more _ allowed) ih

theorem shaped_of_unpaired (alone : es.all Emitted.unpaired = true) : Shaped kinds es := by
  induction es with
  | nil => exact .nil
  | cons e es ih =>
      rw [List.all_cons, Bool.and_eq_true] at alone
      exact .single alone.1 (ih alone.2)

/-- The fixups of a list of slots lie inside of it, each at a place of its own. -/
theorem nodup_fixupsFrom (base : Nat) (es : List Emitted) :
    ((fixupsFrom base es).map (·.insn)).Nodup := by
  induction es generalizing base with
  | nil => exact List.nodup_nil
  | cons e es ih =>
      cases waits : e.fixup with
      | none =>
          simp only [fixupsFrom, waits]
          exact ih (base + 1)
      | some kind =>
          simp only [fixupsFrom, waits, List.map_cons, List.nodup_cons]
          refine ⟨?_, ih (base + 1)⟩
          intro mem
          obtain ⟨f, listed, here⟩ := List.mem_map.mp mem
          obtain ⟨k, -, -, -, later⟩ := mem_fixupsFrom.mp listed
          omega

theorem fixupsFrom_inside {base : Nat} {f : BfFixup} (mem : f ∈ fixupsFrom base es) :
    base ≤ f.insn ∧ f.insn < base + es.length := by
  obtain ⟨k, e, at_, -, here⟩ := mem_fixupsFrom.mp mem
  have inside := (List.getElem?_eq_some_iff.mp at_).1
  omega

/-- The set fixups of a list of slots, in order. -/
theorem setIndex_fixupsFrom (base : Nat) (es : List Emitted) :
    (fixupsFrom base es).filterMap (·.kind.setIndex) =
      es.filterMap Emitted.setIndex := by
  induction es generalizing base with
  | nil => rfl
  | cons e es ih =>
      cases waits : e.fixup with
      | none => simp [fixupsFrom, waits, ih, Emitted.setIndex]
      | some kind => simp [fixupsFrom, waits, ih, List.filterMap_cons, Emitted.setIndex]

/-- Slots without a set load. -/
theorem Shaped.setIndex_eq_nil (shaped : Shaped kinds es)
    (noSet : ∀ kind, kinds kind → kind.setIndex = none) :
    es.filterMap Emitted.setIndex = [] := by
  induction shaped with
  | nil => rfl
  | @single e rest alone _ ih =>
      have quiet : e.setIndex = none := by
        unfold Emitted.setIndex
        simp only [Emitted.unpaired, Bool.and_eq_true] at alone
        obtain ⟨-, alone⟩ := alone
        cases waits : e.fixup with
        | none => rfl
        | some kind => cases kind <;> simp [waits] at alone <;> rfl
      rw [List.filterMap_cons_none quiet, ih]
  | @pair kind reg src offset rest _ _ allowed _ ih =>
      simp only [List.filterMap_cons, Emitted.setIndex, Option.bind_some, noSet kind allowed,
        Option.bind_none, ih]

end Slots

/-! ## The text behind a fixup -/

/-- The pair of slots of a map load. -/
def LoadPair (text : List BpfInsn) (k : Nat) : Prop :=
  ∃ lo hi, text[k]? = some lo ∧ isMapLoad lo = true ∧ text[k + 1]? = some hi ∧
    hi.code = .reserved

/-- What a fixup was created on. -/
structure FixupShape (text : List BpfInsn) (f : BfFixup) : Prop where
  first : ∃ i, text[f.insn]? = some i ∧ i.code ≠ .reserved
  load : f.kind.isMap = true → LoadPair text f.insn
  call : ∀ id, f.kind = .elfstubCall id → text[f.insn]? = some (bpfCallRel 0)

theorem LoadPair.mono {text text' : List BpfInsn} {k : Nat} (pair : LoadPair text k)
    (more : ∀ (n : Nat) (i : BpfInsn), text[n]? = some i → text'[n]? = some i) :
    LoadPair text' k := by
  obtain ⟨lo, hi, first, load, second, code⟩ := pair
  exact ⟨lo, hi, more _ _ first, load, more _ _ second, code⟩

theorem FixupShape.mono {text text' : List BpfInsn} {f : BfFixup} (shape : FixupShape text f)
    (more : ∀ (n : Nat) (i : BpfInsn), text[n]? = some i → text'[n]? = some i) :
    FixupShape text' f := by
  refine ⟨?_, fun map => (shape.load map).mono more, fun id kind => more _ _ (shape.call id kind)⟩
  obtain ⟨i, here, code⟩ := shape.first
  exact ⟨i, more _ _ here, code⟩

theorem getElem?_append_left_some {α : Type} {text : List α} (rest : List α) {k : Nat} {i : α}
    (here : text[k]? = some i) : (text ++ rest)[k]? = some i := by
  rw [List.getElem?_append_left (List.getElem?_eq_some_iff.mp here).1, here]

/-- The text around the fixups of slots that are added to `text`. -/
theorem Shaped.shape {kinds : BfFixupKind → Prop} {es : List Emitted} (shaped : Shaped kinds es)
    (text : List BpfInsn) {f : BfFixup} (mem : f ∈ fixupsFrom text.length es) :
    FixupShape (text ++ es.map (·.insn)) f := by
  induction shaped generalizing text with
  | nil => cases mem
  | @single e rest alone _ ih =>
      have tail : f ∈ fixupsFrom (text ++ [e.insn]).length rest →
          FixupShape (text ++ (e :: rest).map (·.insn)) f := by
        intro later
        have behind := ih (text ++ [e.insn]) later
        rwa [List.append_assoc] at behind
      rw [List.length_append] at tail
      have here : (text ++ (e :: rest).map (·.insn))[text.length]? = some e.insn := by simp
      cases waits : e.fixup with
      | none =>
          simp only [fixupsFrom, waits] at mem
          exact tail mem
      | some kind =>
          simp only [fixupsFrom, waits, List.mem_cons] at mem
          rcases mem with rfl | later
          · simp only [Emitted.unpaired, waits, Bool.and_eq_true] at alone
            cases kind with
            | jmpNextRule =>
                refine ⟨⟨_, here, ?_⟩, ?_, ?_⟩
                · intro code
                  simp [BpfInsn.isJump, code] at alone
                · intro map
                  cases map
                · intro id same
                  cases same
            | elfstubCall id =>
                have insn : e.insn = bpfCallRel 0 := eq_of_beq alone.2
                rw [insn] at here
                refine ⟨⟨_, here, by decide⟩, ?_, fun _ _ => here⟩
                intro map
                cases map
            | countersMapFd => exact absurd alone.2 Bool.false_ne_true
            | printerMapFd => exact absurd alone.2 Bool.false_ne_true
            | logMapFd => exact absurd alone.2 Bool.false_ne_true
            | setMapFd index => exact absurd alone.2 Bool.false_ne_true
          · exact tail later
  | @pair kind reg src offset rest map pseudo _ _ ih =>
      have tail : f ∈ fixupsFrom (text.length + 1 + 1) rest →
          FixupShape (text ++ ({ bpfLdImm64Lo reg pseudoMapFd 0 with src } ::
            { bpfLdImm64Hi 0 with imm := offset } :: rest.map (·.insn))) f := by
        intro later
        have behind := ih (text ++ [{ bpfLdImm64Lo reg pseudoMapFd 0 with src },
          { bpfLdImm64Hi 0 with imm := offset }]) (by simpa using later)
        rwa [List.append_assoc] at behind
      simp only [fixupsFrom, List.mem_cons] at mem
      rcases mem with rfl | later
      · refine ⟨⟨{ bpfLdImm64Lo reg pseudoMapFd 0 with src }, by simp, by simp [bpfLdImm64Lo]⟩,
          fun _ => ⟨{ bpfLdImm64Lo reg pseudoMapFd 0 with src },
            { bpfLdImm64Hi 0 with imm := offset }, by simp, ?_, by simp, rfl⟩, ?_⟩
        · rcases pseudo with rfl | rfl <;> rfl
        · rintro id rfl
          cases map
      · exact tail later

/-- A map load among added slots has a fixup. -/
theorem Shaped.load {kinds : BfFixupKind → Prop} {es : List Emitted} (shaped : Shaped kinds es)
    (base : Nat) {k : Nat} {e : Emitted} (at_ : es[k]? = some e)
    (load : isMapLoad e.insn = true) :
    ∃ f ∈ fixupsFrom base es, f.insn = base + k ∧ f.kind.isMap = true := by
  induction shaped generalizing base k with
  | nil => cases at_
  | @single e' rest alone _ ih =>
      cases k with
      | zero =>
          cases at_
          simp [Emitted.unpaired, load] at alone
      | succ k =>
          obtain ⟨f, mem, here, map⟩ := ih (base + 1) at_
          refine ⟨f, ?_, by omega, map⟩
          cases waits : e'.fixup <;> simp [fixupsFrom, waits, mem]
  | @pair kind reg src offset rest map _ _ _ ih =>
      rcases k with _ | _ | k
      · exact ⟨⟨kind, base⟩, by simp [fixupsFrom], rfl, map⟩
      · cases at_
        cases load
      · obtain ⟨f, mem, here, isMap⟩ := ih (base + 1 + 1) at_
        exact ⟨f, by simp [fixupsFrom, mem], by omega, isMap⟩

/-! ## A pass -/

/-- The loop of a jump pass leaves every other slot alone. -/
theorem foldlM_jmpNextRule (fs : List BfFixup) {p q : BfProgram}
    (ran : fs.foldlM (bfProgramFixupOne .jmpNextRule) p = .ok q) :
    ∃ img closed, q = { p with img, closed } ∧ img.length = p.img.length ∧
      ∀ k, (∀ f ∈ fs, f.kind.type = .jmpNextRule → f.insn ≠ k) → img[k]? = p.img[k]? := by
  induction fs generalizing p with
  | nil =>
      cases ran
      exact ⟨_, _, rfl, rfl, fun _ _ => rfl⟩
  | cons g fs ih =>
      rw [List.foldlM_cons] at ran
      cases one : bfProgramFixupOne .jmpNextRule p g with
      | error e =>
          rw [one] at ran
          cases ran
      | ok p₁ =>
          simp only [one, bind, Except.bind] at ran
          obtain ⟨img, closed, rfl, size, kept⟩ := ih ran
          simp only [bfProgramFixupOne] at one
          split at one
          · rename_i typed
            split at one
            · cases one
            · split at one
              · cases one
              · split at one
                · cases one
                · cases one
                  refine ⟨img, closed, rfl, by simpa using size, ?_⟩
                  intro k quiet
                  rw [kept k fun f mem => quiet f (List.mem_cons_of_mem g mem)]
                  have other : g.insn ≠ k := quiet g List.mem_cons_self typed
                  simp [other]
          · cases one
            exact ⟨img, closed, rfl, size,
              fun k quiet => kept k fun f mem => quiet f (List.mem_cons_of_mem g mem)⟩

/-- What a pass does not change. -/
structure Passed (type : BfFixupType) (p q : BfProgram) : Prop where
  host : q.host = p.host
  maps : q.maps = p.maps
  location : q.elfstubsLocation = p.elfstubsLocation
  fixups : q.fixups = p.fixups.filter (fun f => f.kind.type != type)
  size : q.img.length = p.img.length
  kept : ∀ k, (∀ f ∈ p.fixups, f.kind.type = type → f.insn ≠ k) → q.img[k]? = p.img[k]?

theorem bfProgramFixup_passed {type : BfFixupType} {p q : BfProgram}
    (ran : bfProgramFixup type p = .ok ((), q)) : Passed type p q := by
  by_cases jump : type = .jmpNextRule
  · subst jump
    unfold bfProgramFixup at ran
    split at ran
    · cases ran
    · rename_i loop
      cases ran
      obtain ⟨img, closed, rfl, size, kept⟩ := foldlM_jmpNextRule p.fixups loop
      exact ⟨rfl, rfl, rfl, rfl, size, kept⟩
  · obtain ⟨img, rfl, size, kept, -⟩ := bfProgramFixup_imm jump ran
    exact ⟨rfl, rfl, rfl, rfl, size, kept⟩

/-! ## Placing a stub -/

theorem placeStubStr_text {start : Nat} {str : Nat × String} {p q : BfProgram}
    (ran : placeStubStr start str p = .ok ((), q)) (inside : start + str.1 + 1 < p.img.length) :
    q.img[start + str.1]? = some { bpfLdImm64Lo 1 pseudoMapFd 0 with src := pseudoMapValue } ∧
      (∃ offset, q.img[start + str.1 + 1]? = some { bpfLdImm64Hi 0 with imm := offset }) ∧
      (∀ k, start + str.1 ≠ k → start + str.1 + 1 ≠ k → q.img[k]? = p.img[k]?) ∧
      q.img.length = p.img.length ∧
      q.fixups = p.fixups ++ [⟨.printerMapFd, start + str.1⟩] := by
  have first : start + str.1 < p.img.length := by omega
  generalize message : bfPrinterAddMsg p.printer str.2 = added
  have placed : q.img = (p.img.set (start + str.1)
        { bpfLdImm64Lo 1 pseudoMapFd 0 with src := pseudoMapValue }).set (start + str.1 + 1)
        { bpfLdImm64Hi 0 with imm := BitVec.ofNat 32 added.1.offset } ∧
      q.fixups = p.fixups ++ [⟨.printerMapFd, start + str.1⟩] := by
    cases ran
    rw [← message]
    exact ⟨rfl, rfl⟩
  obtain ⟨img, fixups⟩ := placed
  rw [img]
  refine ⟨?_, ⟨BitVec.ofNat 32 added.1.offset, ?_⟩, ?_, by simp, fixups⟩
  · rw [List.getElem?_set_ne (by omega), List.getElem?_set_self first]
  · rw [List.getElem?_set_self (by simpa using inside)]
  · intro k notLo notHi
    rw [List.getElem?_set_ne notHi, List.getElem?_set_ne notLo]

/-- The strings of a stub, one pair after the other. -/
theorem placeStubStrs_text {start : Nat} (strs : List (Nat × String)) {p q : BfProgram}
    (once : (strs.map (·.1)).Nodup)
    (apart : ∀ str ∈ strs, ∀ str' ∈ strs, str'.1 ≠ str.1 + 1)
    (inside : ∀ str ∈ strs, start + str.1 + 1 < p.img.length)
    (ran : placeStubStrs start strs p = .ok ((), q)) :
    (∀ str ∈ strs,
      q.img[start + str.1]? = some { bpfLdImm64Lo 1 pseudoMapFd 0 with src := pseudoMapValue } ∧
        ∃ offset, q.img[start + str.1 + 1]? = some { bpfLdImm64Hi 0 with imm := offset }) ∧
      (∀ k, (∀ str ∈ strs, start + str.1 ≠ k ∧ start + str.1 + 1 ≠ k) →
        q.img[k]? = p.img[k]?) ∧
      q.fixups = p.fixups ++ strs.map fun str => ⟨.printerMapFd, start + str.1⟩ := by
  induction strs generalizing p with
  | nil =>
      cases ran
      exact ⟨fun _ mem => absurd mem List.not_mem_nil, fun _ _ => rfl, by simp⟩
  | cons str strs ih =>
      obtain ⟨_, p₁, first, rest⟩ := gen_bind_inv ran
      obtain ⟨lo, ⟨offset, hi⟩, kept, size, fixups⟩ :=
        placeStubStr_text first (inside str List.mem_cons_self)
      rw [List.map_cons, List.nodup_cons] at once
      obtain ⟨loads, others, added⟩ := ih once.2
        (fun s mem s' mem' => apart s (List.mem_cons_of_mem _ mem) s' (List.mem_cons_of_mem _ mem'))
        (fun s mem => size ▸ inside s (List.mem_cons_of_mem _ mem)) rest
      refine ⟨?_, ?_, ?_⟩
      · intro s mem
        rcases List.mem_cons.mp mem with rfl | later
        · -- the strings behind are elsewhere
          have away : ∀ s' ∈ strs, s'.1 ≠ s.1 ∧ s'.1 ≠ s.1 + 1 ∧ s.1 ≠ s'.1 + 1 := by
            intro s' mem'
            have other := List.mem_cons_of_mem s mem'
            refine ⟨?_, apart s List.mem_cons_self s' other, apart s' other s List.mem_cons_self⟩
            intro same
            exact once.1 (same ▸ List.mem_map_of_mem mem')
          refine ⟨?_, offset, ?_⟩
          · rw [others _ ?_, lo]
            intro s' mem'
            obtain ⟨a, b, c⟩ := away s' mem'
            omega
          · rw [others _ ?_, hi]
            intro s' mem'
            obtain ⟨a, b, c⟩ := away s' mem'
            omega
        · exact loads s later
      · intro k quiet
        rw [others k fun s mem => quiet s (List.mem_cons_of_mem _ mem)]
        exact kept k (quiet str List.mem_cons_self).1 (quiet str List.mem_cons_self).2
      · rw [added, fixups, List.map_cons, List.append_assoc]
        rfl

/-- What placing a stub for the first time does. -/
structure StubAdded (p q : BfProgram) (id : BfElfstubId) (stub : BfElfstub) : Prop where
  host : q.host = p.host
  maps : q.maps = p.maps
  location : q.elfstubsLocation = fun id' =>
    if id' = id then BitVec.ofNat 32 p.img.length else p.elfstubsLocation id'
  size : q.img.length = p.img.length + stub.insns.length
  kept : ∀ k < p.img.length, q.img[k]? = p.img[k]?
  text : StubText q.img p.img.length stub
  fixups : q.fixups =
    p.fixups ++ stub.strs.map fun str => ⟨.printerMapFd, p.img.length + str.1⟩

theorem BfElfstub.Paired.inside {stub : BfElfstub} (paired : stub.Paired) {str : Nat × String}
    (mem : str ∈ stub.strs) : str.1 + 1 < stub.insns.length := by
  obtain ⟨lo, hi, -, -, second, -⟩ := paired.pairs str mem
  exact (List.getElem?_eq_some_iff.mp second).1

/-- The pair of one string does not begin inside that of another. -/
theorem BfElfstub.Paired.apart {stub : BfElfstub} (paired : stub.Paired) {str str' : Nat × String}
    (mem : str ∈ stub.strs) (mem' : str' ∈ stub.strs) : str'.1 ≠ str.1 + 1 := by
  intro same
  obtain ⟨lo, hi, -, -, second, reserved⟩ := paired.pairs str mem
  obtain ⟨lo', hi', first, load, -, -⟩ := paired.pairs str' mem'
  rw [same, second, Option.some.injEq] at first
  rw [first, load] at reserved
  cases reserved

theorem placeElfstub_added {f : BfFixup} {id : BfElfstubId} {stub : BfElfstub} {p q : BfProgram}
    (paired : stub.Paired) (kind : f.kind = .elfstubCall id) (fresh : p.elfstubsLocation id = 0)
    (found : p.host.getElfstub id = some stub) (ran : placeElfstub f p = .ok ((), q)) :
    StubAdded p q id stub := by
  obtain ⟨-, located⟩ | ⟨id', stub', p₁, kind', -, found', strings, rfl⟩ := placeElfstub_cases ran
  · exact absurd fresh (located id kind)
  · rw [kind, BfFixupKind.elfstubCall.injEq] at kind'
    subst kind'
    rw [found, Option.some.injEq] at found'
    subst found'
    obtain ⟨more, size, -, location⟩ := placeStubStrs_spec (le_refl p.img.length) stub.strs strings
    have length : (p.append (stub.insns.map fun i => { insn := i })).img.length =
        p.img.length + stub.insns.length := by simp
    obtain ⟨loads, others, fixups⟩ := placeStubStrs_text stub.strs paired.once
      (fun str mem str' mem' => paired.apart mem mem')
      (fun str mem => by have inside := paired.inside mem; omega) strings
    have total : p₁.img.length = p.img.length + stub.insns.length := size.trans length
    refine ⟨more.host, more.maps, ?_, total, ?_, ⟨total.ge, ?_, loads⟩, ?_⟩
    · show (fun id' => if id' = id then BitVec.ofNat 32 p.img.length else p₁.elfstubsLocation id') = _
      rw [location]
      rfl
    · intro k inside
      show p₁.img[k]? = _
      rw [more.kept k inside, BfProgram.append_img, List.getElem?_append_left inside]
    · intro k inside quiet
      show p₁.img[p.img.length + k]? = _
      rw [others]
      · rw [BfProgram.append_img, List.getElem?_append_right (by omega), Nat.add_sub_cancel_left,
          List.map_map]
        exact congrArg (·[k]?) (List.map_id stub.insns)
      · intro str mem
        obtain ⟨notLo, notHi⟩ := quiet str mem
        omega
    · show p₁.fixups = _
      rw [fixups]
      simp only [BfProgram.append, fixupsFrom_insns, List.append_nil]

/-! ## What every step keeps -/

/-- A fixup that was filled: its slot holds the value, and is otherwise as it was emitted. -/
def Resolved (p : BfProgram) (text : List BpfInsn) (f : BfFixup) : Prop :=
  ∃ insn value, text[f.insn]? = some insn ∧ bfProgramFixupValue p f = .ok (.imm, value) ∧
    p.img[f.insn]? = some { insn with imm := value }

/-- The ledger accounts for the program. -/
structure Accounted (p : BfProgram) (life : Ledger) : Prop where
  size : p.img.length = life.emitted.length
  balance : life.created.Perm (life.filled ++ p.fixups)
  inside : ∀ f ∈ life.created, f.insn < life.emitted.length
  apart : (life.created.map (·.insn)).Nodup
  kept : ∀ k, (∀ f ∈ life.filled, f.insn ≠ k) → p.img[k]? = life.emitted[k]?
  resolved : ∀ f ∈ life.filled, f.kind.type ≠ .jmpNextRule → Resolved p life.emitted f

/-- The values of other fixups do not depend on the image. -/
theorem bfProgramFixupValue_congr {p q : BfProgram} {f : BfFixup}
    (imm : f.kind.type ≠ .jmpNextRule) (maps : q.maps = p.maps)
    (location : ∀ id, f.kind = .elfstubCall id → q.elfstubsLocation id = p.elfstubsLocation id) :
    bfProgramFixupValue q f = bfProgramFixupValue p f := by
  obtain ⟨kind, insn⟩ := f
  cases kind with
  | jmpNextRule => exact absurd rfl imm
  | elfstubCall id => simp only [bfProgramFixupValue, location id rfl]
  | countersMapFd => simp only [bfProgramFixupValue, maps]
  | printerMapFd => simp only [bfProgramFixupValue, maps]
  | logMapFd => simp only [bfProgramFixupValue, maps]
  | setMapFd index => simp only [bfProgramFixupValue, maps]

namespace Accounted

variable {p q : BfProgram} {life : Ledger}

theorem created_of_filled (account : Accounted p life) {f : BfFixup} (mem : f ∈ life.filled) :
    f ∈ life.created :=
  account.balance.mem_iff.mpr (List.mem_append_left _ mem)

theorem created_of_pending (account : Accounted p life) {f : BfFixup} (mem : f ∈ p.fixups) :
    f ∈ life.created :=
  account.balance.mem_iff.mpr (List.mem_append_right _ mem)

/-- What was filled and what waits are at different slots. -/
theorem filled_ne_pending (account : Accounted p life) {f g : BfFixup} (filled : f ∈ life.filled)
    (pending : g ∈ p.fixups) : f.insn ≠ g.insn := by
  have once := (account.balance.map (·.insn)).nodup_iff.mp account.apart
  rw [List.map_append, List.nodup_append] at once
  exact once.2.2 _ (List.mem_map_of_mem filled) _ (List.mem_map_of_mem pending)

/-- At most one fixup waits at a slot. -/
theorem pending_unique (account : Accounted p life) {f g : BfFixup} (first : f ∈ p.fixups)
    (second : g ∈ p.fixups) (same : g.insn = f.insn) : g = f :=
  List.inj_on_of_nodup_map account.apart (account.created_of_pending second)
    (account.created_of_pending first) same

theorem empty (fresh : p.img = []) (clean : p.fixups = []) : Accounted p Ledger.empty := by
  refine ⟨by rw [fresh]; rfl, by rw [clean]; exact .nil, ?_, List.nodup_nil, ?_, ?_⟩
  · intro f mem
    cases mem
  · intro k _
    rw [fresh]
    rfl
  · intro f mem
    cases mem

theorem emit (account : Accounted p life) (es : List Emitted) :
    Accounted (p.append es)
      { life with
        emitted := life.emitted ++ es.map (·.insn)
        created := life.created ++ fixupsFrom p.img.length es } := by
  refine ⟨by simp [account.size], ?_, ?_, ?_, ?_, ?_⟩
  · show (life.created ++ _).Perm (life.filled ++ (p.fixups ++ _))
    rw [← List.append_assoc]
    exact account.balance.append_right _
  · intro f mem
    rw [List.length_append, List.length_map]
    rcases List.mem_append.mp mem with old | new
    · have inside := account.inside f old
      omega
    · have inside := fixupsFrom_inside new
      have size := account.size
      omega
  · rw [List.map_append, List.nodup_append]
    refine ⟨account.apart, nodup_fixupsFrom _ _, ?_⟩
    intro k old k' new same
    obtain ⟨f, listed, rfl⟩ := List.mem_map.mp old
    obtain ⟨g, added, rfl⟩ := List.mem_map.mp new
    have before := account.inside f listed
    have behind := (fixupsFrom_inside added).1
    have size := account.size
    omega
  · intro k quiet
    show (p.img ++ _)[k]? = (life.emitted ++ _)[k]?
    rw [List.getElem?_append, List.getElem?_append, account.size, account.kept k quiet]
  · intro f mem imm
    obtain ⟨insn, value, text, known, here⟩ := account.resolved f mem imm
    exact ⟨insn, value, getElem?_append_left_some _ text,
      (bfProgramFixupValue_congr (p := p) (q := p.append es) imm rfl fun _ _ => rfl).trans known,
      getElem?_append_left_some _ here⟩

theorem fill (account : Accounted p life) {type : BfFixupType}
    (ran : bfProgramFixup type p = .ok ((), q)) :
    Accounted q
      { life with filled := life.filled ++ p.fixups.filter (fun f => f.kind.type == type) } := by
  have passed := bfProgramFixup_passed ran
  have parted : p.fixups.Perm (p.fixups.filter (fun f => f.kind.type == type) ++ q.fixups) := by
    rw [passed.fixups]
    exact (List.filter_append_perm _ _).symm
  refine ⟨passed.size.trans account.size, ?_, account.inside, account.apart, ?_, ?_⟩
  · show life.created.Perm (life.filled ++ _ ++ q.fixups)
    rw [List.append_assoc]
    exact account.balance.trans (parted.append_left _)
  · intro k quiet
    rw [passed.kept k, account.kept k]
    · exact fun f mem => quiet f (List.mem_append_left _ mem)
    · intro f mem typed
      exact quiet f (List.mem_append_right _ (List.mem_filter.mpr ⟨mem, beq_iff_eq.mpr typed⟩))
  · intro f mem imm
    rcases List.mem_append.mp mem with old | new
    · -- filled before: nothing waits in its slot
      obtain ⟨insn, value, text, known, here⟩ := account.resolved f old imm
      refine ⟨insn, value, text, ?_, ?_⟩
      · rw [bfProgramFixupValue_congr imm passed.maps fun id _ => by rw [passed.location], known]
      · rw [passed.kept f.insn, here]
        intro g pending _ same
        exact account.filled_ne_pending old pending same.symm
    · obtain ⟨pending, typed⟩ := List.mem_filter.mp new
      have typed : f.kind.type = type := eq_of_beq typed
      obtain ⟨img, atEnd, -, -, set⟩ := bfProgramFixup_imm (typed ▸ imm) ran
      obtain ⟨insn, value, before, known, here⟩ := set f pending typed
        fun g mem _ same => account.pending_unique pending mem same
      refine ⟨insn, value, ?_, ?_, by rw [atEnd]; exact here⟩
      · rw [← account.kept f.insn, before]
        exact fun g filled => account.filled_ne_pending filled pending
      · rw [bfProgramFixupValue_congr imm passed.maps fun id _ => by rw [passed.location], known]

/-- A call that was filled had its stub placed. -/
theorem resolved_placed {text : List BpfInsn} {f : BfFixup} {id : BfElfstubId}
    (done : Resolved p text f) (kind : f.kind = .elfstubCall id) : p.elfstubsLocation id ≠ 0 := by
  obtain ⟨insn, value, -, known, -⟩ := done
  obtain ⟨_, k⟩ := f
  subst kind
  intro missing
  have behind := (elfstubCallOffset_inv (elfstubCall_value known)).1
  rw [missing] at behind
  simp at behind

theorem place (account : Accounted p life) {id : BfElfstubId} {stub : BfElfstub}
    (paired : stub.Paired) (fresh : p.elfstubsLocation id = 0) (added : StubAdded p q id stub) :
    Accounted q
      { life with
        emitted := life.emitted ++ q.img.drop p.img.length
        created := life.created ++ stub.strs.map fun str => ⟨.printerMapFd, p.img.length + str.1⟩
        placed := life.placed ++ [(id, p.img.length)] } := by
  have split : q.img = p.img ++ q.img.drop p.img.length := by
    have first : q.img.take p.img.length = p.img := by
      apply List.ext_getElem?
      intro k
      by_cases inside : k < p.img.length
      · rw [List.getElem?_take_of_lt inside, added.kept k inside]
      · rw [List.getElem?_eq_none (by simp; omega), List.getElem?_eq_none (by omega)]
    conv_lhs => rw [← List.take_append_drop p.img.length q.img, first]
  have length : (q.img.drop p.img.length).length = stub.insns.length := by
    rw [List.length_drop, added.size]
    omega
  generalize q.img.drop p.img.length = body at split length
  refine ⟨?_, ?_, ?_, ?_, ?_, ?_⟩
  · rw [added.size, List.length_append, length, account.size]
  · rw [added.fixups, ← List.append_assoc]
    exact account.balance.append_right _
  · intro f mem
    rw [List.length_append, length]
    rcases List.mem_append.mp mem with old | new
    · have inside := account.inside f old
      omega
    · obtain ⟨str, listed, rfl⟩ := List.mem_map.mp new
      have inside := paired.inside listed
      have size := account.size
      show p.img.length + str.1 < _
      omega
  · rw [List.map_append, List.map_map, List.nodup_append]
    refine ⟨account.apart, ?_, ?_⟩
    · refine List.Nodup.of_map (fun k => k - p.img.length) ?_
      rw [List.map_map]
      refine (List.map_congr_left fun str _ => ?_) ▸ paired.once
      simp
    · intro k old k' new same
      obtain ⟨f, listed, rfl⟩ := List.mem_map.mp old
      obtain ⟨str, -, rfl⟩ := List.mem_map.mp new
      have before := account.inside f listed
      have size := account.size
      simp only [Function.comp_apply] at same
      omega
  · intro k quiet
    rw [split, List.getElem?_append, List.getElem?_append, account.size, account.kept k quiet]
  · intro f mem imm
    obtain ⟨insn, value, text, known, here⟩ := account.resolved f mem imm
    refine ⟨insn, value, getElem?_append_left_some _ text, ?_, ?_⟩
    · rw [bfProgramFixupValue_congr imm added.maps, known]
      intro id' kind
      have other : id' ≠ id := by
        rintro rfl
        exact resolved_placed (account.resolved f mem imm) kind fresh
      simp only [added.location, other, if_false]
    · rw [split]
      exact getElem?_append_left_some _ here

end Accounted

/-- The text and the fixups the ledger lists for it. -/
structure Recorded (host : Host) (life : Ledger) : Prop where
  shapes : ∀ f ∈ life.created, FixupShape life.emitted f
  loads : ∀ k i, life.emitted[k]? = some i → isMapLoad i = true →
    (∃ f ∈ life.created, f.insn = k ∧ f.kind.isMap = true) ∨
      ∃ id s stub, (id, s) ∈ life.placed ∧ host.getElfstub id = some stub ∧
        s ≤ k ∧ k < s + stub.insns.length
  stubs : ∀ id s, (id, s) ∈ life.placed → ∃ stub, host.getElfstub id = some stub ∧
    StubText life.emitted s stub ∧
    (∀ str ∈ stub.strs, ⟨.printerMapFd, s + str.1⟩ ∈ life.created) ∧
    ∀ f ∈ life.created, s ≤ f.insn → f.insn < s + stub.insns.length →
      ∃ str ∈ stub.strs, f.insn = s + str.1

theorem StubText.append {text : List BpfInsn} {start : Nat} {stub : BfElfstub}
    (here : StubText text start stub) (rest : List BpfInsn) : StubText (text ++ rest) start stub := by
  refine ⟨?_, ?_, ?_⟩
  · rw [List.length_append]
    exact here.inside.trans (Nat.le_add_right _ _)
  · intro k inside quiet
    have short := here.inside
    rw [List.getElem?_append_left (by omega), here.insns k inside quiet]
  · intro str mem
    obtain ⟨lo, offset, hi⟩ := here.loads str mem
    exact ⟨getElem?_append_left_some _ lo, offset, getElem?_append_left_some _ hi⟩

/-- A stub is where it was placed, whatever is in front of it. -/
theorem StubText.of_drop {text rest : List BpfInsn} {stub : BfElfstub}
    (here : StubText text rest.length stub) :
    StubText (rest ++ text.drop rest.length) rest.length stub := by
  have behind : ∀ k, (rest ++ text.drop rest.length)[rest.length + k]? = text[rest.length + k]? := by
    intro k
    rw [List.getElem?_append_right (Nat.le_add_right _ _), Nat.add_sub_cancel_left,
      List.getElem?_drop]
  refine ⟨?_, ?_, ?_⟩
  · have inside := here.inside
    rw [List.length_append, List.length_drop]
    omega
  · intro k inside quiet
    rw [behind, here.insns k inside quiet]
  · intro str mem
    rw [Nat.add_assoc, behind, behind, ← Nat.add_assoc]
    exact here.loads str mem

namespace Recorded

variable {host : Host} {life : Ledger}

theorem emit (record : Recorded host life) {es : List Emitted} {base : Nat}
    (size : base = life.emitted.length) (shaped : Shaped (fun _ => True) es) :
    Recorded host
      { life with
        emitted := life.emitted ++ es.map (·.insn)
        created := life.created ++ fixupsFrom base es } := by
  subst size
  refine ⟨?_, ?_, ?_⟩
  · intro f mem
    rcases List.mem_append.mp mem with old | new
    · exact (record.shapes f old).mono fun _ _ here => getElem?_append_left_some _ here
    · exact shaped.shape life.emitted new
  · intro k i here load
    by_cases before : k < life.emitted.length
    · rw [List.getElem?_append_left before] at here
      rcases record.loads k i here load with ⟨f, mem, at_, map⟩ | inStub
      · exact Or.inl ⟨f, List.mem_append_left _ mem, at_, map⟩
      · exact Or.inr inStub
    · obtain ⟨n, rfl⟩ := Nat.exists_eq_add_of_le (Nat.le_of_not_lt before)
      rw [List.getElem?_append_right (Nat.le_add_right _ _), Nat.add_sub_cancel_left,
        List.getElem?_map, Option.map_eq_some_iff] at here
      obtain ⟨e, at_, rfl⟩ := here
      obtain ⟨f, mem, position, map⟩ := shaped.load life.emitted.length at_ load
      exact Or.inl ⟨f, List.mem_append_right _ mem, position, map⟩
  · intro id s mem
    obtain ⟨stub, found, here, strings, own⟩ := record.stubs id s mem
    refine ⟨stub, found, here.append _,
      fun str listed => List.mem_append_left _ (strings str listed), ?_⟩
    intro f listed first last
    rcases List.mem_append.mp listed with old | new
    · exact own f old first last
    · -- the slots that are added are behind the stub
      have behind := (fixupsFrom_inside new).1
      have inside := here.inside
      omega

theorem place (record : Recorded host life) {p q : BfProgram} {id : BfElfstubId}
    {stub : BfElfstub} (account : Accounted p life)
    (found : host.getElfstub id = some stub) (added : StubAdded p q id stub) :
    Recorded host
      { life with
        emitted := life.emitted ++ q.img.drop p.img.length
        created := life.created ++ stub.strs.map fun str => ⟨.printerMapFd, p.img.length + str.1⟩
        placed := life.placed ++ [(id, p.img.length)] } := by
  have size := account.size
  have here : StubText (life.emitted ++ q.img.drop p.img.length) p.img.length stub := by
    rw [size]
    exact (size ▸ added.text).of_drop
  have length : (q.img.drop p.img.length).length = stub.insns.length := by
    rw [List.length_drop, added.size]
    omega
  refine ⟨?_, ?_, ?_⟩
  · intro f mem
    rcases List.mem_append.mp mem with old | new
    · exact (record.shapes f old).mono fun _ _ at_ => getElem?_append_left_some _ at_
    · obtain ⟨str, listed, rfl⟩ := List.mem_map.mp new
      obtain ⟨lo, offset, hi⟩ := here.loads str listed
      refine ⟨⟨_, lo, by decide⟩, fun _ => ⟨_, _, lo, by decide, hi, rfl⟩, ?_⟩
      intro id kind
      cases kind
  · intro k i at_ load
    by_cases before : k < life.emitted.length
    · rw [List.getElem?_append_left before] at at_
      rcases record.loads k i at_ load with ⟨f, mem, position, map⟩ | ⟨id', s, stub', mem, inStub⟩
      · exact Or.inl ⟨f, List.mem_append_left _ mem, position, map⟩
      · exact Or.inr ⟨id', s, stub', List.mem_append_left _ mem, inStub⟩
    · have inside := (List.getElem?_eq_some_iff.mp at_).1
      rw [List.length_append, length] at inside
      refine Or.inr ⟨id, p.img.length, stub, List.mem_append_right _ (List.mem_singleton_self _),
        found, ?_, ?_⟩
      · omega
      · omega
  · intro id' s mem
    rcases List.mem_append.mp mem with old | new
    · obtain ⟨stub', found', text, strings, own⟩ := record.stubs id' s old
      refine ⟨stub', found', text.append _,
        fun str listed => List.mem_append_left _ (strings str listed), ?_⟩
      intro f listed first last
      rcases List.mem_append.mp listed with before | added
      · exact own f before first last
      · obtain ⟨str, -, rfl⟩ := List.mem_map.mp added
        have inside := text.inside
        have behind : p.img.length + str.1 < s + stub'.insns.length := last
        omega
    · cases List.mem_singleton.mp new
      refine ⟨stub, found, here,
        fun str listed => List.mem_append_right _ (List.mem_map_of_mem listed), ?_⟩
      intro f listed first _
      rcases List.mem_append.mp listed with before | added
      · have inside := account.inside f before
        omega
      · obtain ⟨str, mem, rfl⟩ := List.mem_map.mp added
        exact ⟨str, mem, rfl⟩

end Recorded

/-- Where the stubs are.  While addresses fit 32 bits no stub is placed twice. -/
structure Located (p : BfProgram) (life : Ledger) : Prop where
  inside : ∀ id s, (id, s) ∈ life.placed → 0 < s ∧ s < p.img.length
  missing : ∀ id, (∀ s, (id, s) ∉ life.placed) → p.elfstubsLocation id = 0
  location : p.img.length ≤ 2 ^ 32 → ∀ id s, (id, s) ∈ life.placed →
    p.elfstubsLocation id = BitVec.ofNat 32 s
  once : p.img.length ≤ 2 ^ 32 → (life.placed.map (·.1)).Nodup

namespace Located

variable {p q : BfProgram} {life life' : Ledger}

/-- A step that places nothing. -/
theorem of_same (located : Located p life) (placed : life'.placed = life.placed)
    (location : q.elfstubsLocation = p.elfstubsLocation) (size : p.img.length ≤ q.img.length) :
    Located q life' := by
  refine ⟨?_, ?_, ?_, ?_⟩
  · intro id s mem
    rw [placed] at mem
    obtain ⟨first, last⟩ := located.inside id s mem
    exact ⟨first, last.trans_le size⟩
  · rw [placed, location]
    exact located.missing
  · intro fits
    rw [placed, location]
    exact located.location (size.trans fits)
  · intro fits
    rw [placed]
    exact located.once (size.trans fits)

theorem place (located : Located p life) {id : BfElfstubId} {stub : BfElfstub}
    (nonempty : stub.insns ≠ []) (start : p.img ≠ []) (fresh : p.elfstubsLocation id = 0)
    (added : StubAdded p q id stub) (placed : life'.placed = life.placed ++ [(id, p.img.length)]) :
    Located q life' := by
  have grows : p.img.length < q.img.length := by
    rw [added.size]
    exact Nat.lt_add_of_pos_right (List.length_pos_iff.mpr nonempty)
  have begins : 0 < p.img.length := List.length_pos_iff.mpr start
  -- the location of a stub that was placed is not zero
  have other : q.img.length ≤ 2 ^ 32 → ∀ id' s, (id', s) ∈ life.placed → id' ≠ id := by
    rintro fits id' s mem rfl
    obtain ⟨positive, before⟩ := located.inside id' s mem
    have known := congrArg BitVec.toNat (located.location (by omega) id' s mem)
    rw [fresh, BitVec.toNat_ofNat, Nat.mod_eq_of_lt (by omega)] at known
    simp at known
    omega
  refine ⟨?_, ?_, ?_, ?_⟩
  · intro id' s mem
    rw [placed] at mem
    rcases List.mem_append.mp mem with old | new
    · obtain ⟨first, last⟩ := located.inside id' s old
      exact ⟨first, last.trans grows⟩
    · cases List.mem_singleton.mp new
      exact ⟨begins, grows⟩
  · intro id' absent
    rw [placed] at absent
    have differs : id' ≠ id := by
      rintro rfl
      exact absent _ (List.mem_append_right _ (List.mem_singleton_self _))
    simp only [added.location, differs, if_false]
    exact located.missing id' fun s mem => absent s (List.mem_append_left _ mem)
  · intro fits id' s mem
    rw [placed] at mem
    rcases List.mem_append.mp mem with old | new
    · simp only [added.location, other fits id' s old, if_false]
      exact located.location (by omega) id' s old
    · cases List.mem_singleton.mp new
      simp only [added.location, if_true]
  · intro fits
    rw [placed, List.map_append, List.nodup_append]
    refine ⟨located.once (by omega), List.nodup_singleton id, ?_⟩
    intro a old b new same
    obtain ⟨⟨id', s⟩, mem, rfl⟩ := List.mem_map.mp old
    rw [List.map_singleton, List.mem_singleton] at new
    exact other fits id' s mem (same.trans new)

end Located

/-! ## Lives -/

/-- Everything a life keeps. -/
structure LifeSound (host : Host) (p : BfProgram) (life : Ledger) : Prop where
  hosted : p.host = host
  account : Accounted p life
  record : Recorded host life
  located : Located p life

theorem LifeSound.step {host : Host} (compiled : host.StubsCompiled) (paired : host.StubsPaired)
    {s t : BfProgram × Ledger} (sound : LifeSound host s.1 s.2) (step : LifeStep s t) :
    LifeSound host t.1 t.2 := by
  cases step with
  | emit p life es shaped =>
      exact ⟨sound.hosted, sound.account.emit es, sound.record.emit sound.account.size shaped,
        sound.located.of_same rfl rfl (by simp)⟩
  | note p life printer =>
      refine ⟨sound.hosted, ?_, sound.record, sound.located.of_same rfl rfl le_rfl⟩
      obtain ⟨size, balance, inside, apart, kept, resolved⟩ := sound.account
      refine ⟨size, balance, inside, apart, kept, ?_⟩
      intro f mem imm
      obtain ⟨insn, value, text, known, here⟩ := resolved f mem imm
      exact ⟨insn, value, text, (bfProgramFixupValue_congr imm rfl fun _ _ => rfl).trans known, here⟩
  | @fill p q life type ran =>
      have passed := bfProgramFixup_passed ran
      exact ⟨passed.host.trans sound.hosted, sound.account.fill ran,
        ⟨sound.record.shapes, sound.record.loads, sound.record.stubs⟩,
        sound.located.of_same rfl passed.location passed.size.ge⟩
  | @place p q life f id stub waits kind fresh found ran =>
      rw [sound.hosted] at found
      have stubPaired := paired id stub found
      have added := placeElfstub_added stubPaired kind fresh (sound.hosted ▸ found) ran
      have start : p.img ≠ [] := by
        have inside := sound.account.inside f (sound.account.created_of_pending waits)
        have size := sound.account.size
        intro none
        rw [none, List.length_nil] at size
        omega
      exact ⟨added.host.trans sound.hosted, sound.account.place stubPaired fresh added,
        sound.record.place sound.account found added,
        sound.located.place (compiled id stub found).1 start fresh added rfl⟩

/-- **The invariant of every life.** -/
theorem LifeSound.run {host : Host} (compiled : host.StubsCompiled) (paired : host.StubsPaired)
    {s t : BfProgram × Ledger} (sound : LifeSound host s.1 s.2) (life : Life s t) :
    LifeSound host t.1 t.2 := by
  induction life with
  | refl => exact sound
  | tail _ last ih => exact ih.step compiled paired last

theorem lifeSound_new (host : Host) (chain : BfChain) (maps : BfMaps) :
    LifeSound host (bfProgramNew host chain maps) Ledger.empty := by
  refine ⟨rfl, .empty rfl rfl, ⟨?_, ?_, ?_⟩, ⟨?_, fun _ _ => rfl, ?_, fun _ => List.nodup_nil⟩⟩
  · intro f mem
    cases mem
  · intro k i here
    cases here
  · intro id s mem
    cases mem
  · intro id s mem
    cases mem
  · intro _ id s mem
    cases mem

end Bpfilter
