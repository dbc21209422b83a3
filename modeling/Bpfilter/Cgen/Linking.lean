/-
# Cgen.Linking -- filling stub calls and map references

When all rules are emitted, the stubs are appended to the image and the remaining
fixups are filled, one pass per type: stub calls at generation, map references
when the program is loaded.  `SlotState` follows one slot of the program through
these passes: it has no fixup, or its fixup is pending, or it has been filled
with the value the fixup asked for.  A pass keeps the state of every slot, and
after the pass of its type a fixup is no longer pending (`SlotState.pass`).

Stubs are placed behind the program, each once, so their entry points are
distinct (`StubsPlaced`).
-/
import Bpfilter.Cgen.Rules
import Bpfilter.Ebpf.Fragment

namespace Bpfilter

set_option autoImplicit false

open Ebpf

/-! ## One pass over the immediates -/

/-- `p` with another image. -/
def BfProgram.withImg (p : BfProgram) (img : List BpfInsn) : BfProgram := { p with img }

/-- Only the distance of a jump depends on the image. -/
theorem bfProgramFixupValue_withImg (p : BfProgram) (img : List BpfInsn) (f : BfFixup)
    (imm : f.kind.type ≠ .jmpNextRule) :
    bfProgramFixupValue (p.withImg img) f = bfProgramFixupValue p f := by
  obtain ⟨kind, insn⟩ := f
  cases kind <;> first | rfl | exact absurd rfl imm

/-- Values of the other fixups go to the immediate. -/
theorem bfProgramFixupValue_imm {p : BfProgram} {f : BfFixup} {field : BfFixupInsn}
    {value : BitVec 32} (imm : f.kind.type ≠ .jmpNextRule)
    (known : bfProgramFixupValue p f = .ok (field, value)) : field = .imm := by
  obtain ⟨kind, insn⟩ := f
  cases kind <;> simp only [bfProgramFixupValue] at known
  case jmpNextRule => exact absurd rfl imm
  case setMapFd index =>
      split at known <;> cases known
      rfl
  case elfstubCall id =>
      split at known <;> cases known
      rfl
  all_goals
    cases known
    rfl

theorem bfProgramFixupOne_imm {type : BfFixupType} {p q : BfProgram} {f : BfFixup}
    (imm : type ≠ .jmpNextRule) (typed : f.kind.type = type)
    (ran : bfProgramFixupOne type p f = .ok q) :
    ∃ insn value, p.img[f.insn]? = some insn ∧ bfProgramFixupValue p f = .ok (.imm, value) ∧
      q = p.withImg (p.img.set f.insn { insn with imm := value }) := by
  simp only [bfProgramFixupOne, typed, if_true, imm, if_false] at ran
  split at ran
  · cases ran
  · rename_i insn fetch
    split at ran
    · cases ran
    · rename_i field value known
      obtain rfl := bfProgramFixupValue_imm (typed ▸ imm) known
      split at ran
      · cases ran
      · rename_i patched patch
        simp only [bfProgramFixupInsn] at patch
        split at patch
        · cases patch
        · cases patch
          cases ran
          exact ⟨insn, value, fetch, known, rfl⟩

/-- The loop of a pass: everything but the image is kept, slots without a fixup of
this type are kept, and a slot with a single one gets its value. -/
theorem foldlM_imm {type : BfFixupType} (imm : type ≠ .jmpNextRule) (fs : List BfFixup)
    {p q : BfProgram} (ran : fs.foldlM (bfProgramFixupOne type) p = .ok q) :
    ∃ img, q = p.withImg img ∧ img.length = p.img.length ∧
      (∀ k, (∀ f ∈ fs, f.kind.type = type → f.insn ≠ k) → img[k]? = p.img[k]?) ∧
      (∀ f ∈ fs, f.kind.type = type →
        (∀ g ∈ fs, g.kind.type = type → g.insn = f.insn → g = f) →
        ∃ insn value, p.img[f.insn]? = some insn ∧
          bfProgramFixupValue p f = .ok (.imm, value) ∧
          img[f.insn]? = some { insn with imm := value }) := by
  induction fs generalizing p with
  | nil =>
      cases ran
      exact ⟨_, rfl, rfl, fun _ _ => rfl, fun f mem => absurd mem (by simp)⟩
  | cons g fs ih =>
      rw [List.foldlM_cons] at ran
      cases one : bfProgramFixupOne type p g with
      | error e => rw [one] at ran; cases ran
      | ok p₁ =>
          simp only [one, bind, Except.bind] at ran
          obtain ⟨img, rfl, size, kept, set⟩ := ih ran
          by_cases typed : g.kind.type = type
          · obtain ⟨insn, value, fetch, known, rfl⟩ := bfProgramFixupOne_imm imm typed one
            have inside : g.insn < p.img.length := (List.getElem?_eq_some_iff.mp fetch).1
            refine ⟨img, rfl, by simpa [BfProgram.withImg] using size, ?_, ?_⟩
            · intro k quiet
              rw [kept k (fun f mem => quiet f (by simp [mem]))]
              have other : g.insn ≠ k := quiet g (by simp) typed
              simp [BfProgram.withImg, other]
            · intro f mem ftyped only
              by_cases again : f ∈ fs
              · obtain ⟨insn', value', fetch', known', set'⟩ :=
                  set f again ftyped (fun h hmem => only h (by simp [hmem]))
                rw [bfProgramFixupValue_withImg _ _ _ (ftyped ▸ imm)] at known'
                by_cases same : g.insn = f.insn
                · obtain rfl := only g (by simp) typed same
                  rw [known] at known'
                  cases known'
                  have here : (p.img.set g.insn { insn with imm := value })[g.insn]? =
                      some { insn with imm := value } := by
                    simp [inside]
                  simp only [BfProgram.withImg, here, Option.some.injEq] at fetch'
                  subst fetch'
                  exact ⟨insn, value, fetch, known, set'⟩
                · refine ⟨insn', value', ?_, known', set'⟩
                  simpa [BfProgram.withImg, List.getElem?_set, same] using fetch'
              · obtain rfl : f = g := by
                  rcases List.mem_cons.mp mem with rfl | tail
                  · rfl
                  · exact absurd tail again
                refine ⟨insn, value, fetch, known, ?_⟩
                rw [kept f.insn (fun h hmem htyped same => again
                  (only h (by simp [hmem]) htyped same ▸ hmem))]
                simp [BfProgram.withImg, inside]
          · have skip : p₁ = p := by
              simp only [bfProgramFixupOne, typed, if_false, Except.ok.injEq] at one
              exact one.symm
            subst skip
            refine ⟨img, rfl, size, ?_, ?_⟩
            · exact fun k quiet => kept k (fun f mem => quiet f (by simp [mem]))
            · intro f mem ftyped only
              rcases List.mem_cons.mp mem with rfl | tail
              · exact absurd ftyped typed
              · exact set f tail ftyped (fun h hmem => only h (by simp [hmem]))

/-- A pass keeps everything but the image and the fixups of its type. -/
theorem bfProgramFixup_imm {type : BfFixupType} (imm : type ≠ .jmpNextRule) {p q : BfProgram}
    (ran : bfProgramFixup type p = .ok ((), q)) :
    ∃ img, q = (p.withImg img).withFixups (p.fixups.filter (fun f => f.kind.type != type)) ∧
      img.length = p.img.length ∧
      (∀ k, (∀ f ∈ p.fixups, f.kind.type = type → f.insn ≠ k) → img[k]? = p.img[k]?) ∧
      (∀ f ∈ p.fixups, f.kind.type = type →
        (∀ g ∈ p.fixups, g.kind.type = type → g.insn = f.insn → g = f) →
        ∃ insn value, p.img[f.insn]? = some insn ∧
          bfProgramFixupValue p f = .ok (.imm, value) ∧
          img[f.insn]? = some { insn with imm := value }) := by
  unfold bfProgramFixup at ran
  split at ran
  · cases ran
  · rename_i r loop
    cases ran
    obtain ⟨img, rfl, size, kept, set⟩ := foldlM_imm imm p.fixups loop
    exact ⟨img, rfl, size, kept, set⟩

/-! ## The state of a slot -/

/-- Nothing has been filled at slot `k` since it was emitted as `e`. -/
structure Waiting (p : BfProgram) (k : Nat) (e : Emitted) : Prop where
  here : p.img[k]? = some e.insn
  pending : ∀ f ∈ p.fixups, f.insn = k → e.fixup = some f.kind
  listed : ∀ kind, e.fixup = some kind → ⟨kind, k⟩ ∈ p.fixups

/-- A slot of the program on its way to the kernel. -/
inductive SlotState (p : BfProgram) (k : Nat) (e : Emitted) : Prop where
  | waiting (fresh : Waiting p k e)
  | filled (kind : BfFixupKind) (value : BitVec 32) (waited : e.fixup = some kind)
      (imm : kind.type ≠ .jmpNextRule) (quiet : ∀ f ∈ p.fixups, f.insn ≠ k)
      (known : bfProgramFixupValue p ⟨kind, k⟩ = .ok (.imm, value))
      (here : p.img[k]? = some { e.insn with imm := value })

/-- A pass keeps the state of every slot. -/
theorem SlotState.pass {type : BfFixupType} (imm : type ≠ .jmpNextRule) {p q : BfProgram}
    {k : Nat} {e : Emitted} (state : SlotState p k e)
    (ran : bfProgramFixup type p = .ok ((), q)) : SlotState q k e := by
  obtain ⟨img, rfl, -, kept, set⟩ := bfProgramFixup_imm imm ran
  cases state with
  | filled kind value waited notJump quiet known here =>
      refine .filled kind value waited notJump
        (fun f mem => quiet f (List.mem_of_mem_filter mem)) ?_ ?_
      · exact (bfProgramFixupValue_withImg p img ⟨kind, k⟩ notJump).trans known
      · exact (kept k (fun f mem _ => quiet f mem)).trans here
  | waiting fresh =>
      by_cases typed : ∃ kind, e.fixup = some kind ∧ kind.type = type
      · obtain ⟨kind, waits, typed⟩ := typed
        have only : ∀ f ∈ p.fixups, f.insn = k → f.kind = kind := by
          intro f mem same
          exact Option.some.inj ((fresh.pending f mem same).symm.trans waits)
        obtain ⟨insn, value, fetch, known, here'⟩ := set ⟨kind, k⟩ (fresh.listed kind waits) typed
          (by
            rintro ⟨kind', k'⟩ gmem - same
            cases same
            cases only _ gmem rfl
            rfl)
        rw [fresh.here] at fetch
        cases fetch
        refine .filled kind value waits (typed ▸ imm) ?_ ?_ here'
        · intro f fmem same
          obtain ⟨fmem, other⟩ := List.mem_filter.mp fmem
          rw [only f fmem same, typed] at other
          simp at other
        · exact (bfProgramFixupValue_withImg p img ⟨kind, k⟩ (typed ▸ imm)).trans known
      · refine .waiting ⟨?_, ?_, ?_⟩
        · refine (kept k (fun f fmem ftyped same => typed ?_)).trans fresh.here
          exact ⟨f.kind, fresh.pending f fmem same, ftyped⟩
        · exact fun f fmem => fresh.pending f (List.mem_of_mem_filter fmem)
        · intro kind waits
          refine List.mem_filter.mpr ⟨fresh.listed kind waits, ?_⟩
          simpa using fun same => typed ⟨kind, waits, same⟩

/-- What a pass does not touch. -/
theorem bfProgramFixup_frame {type : BfFixupType} (imm : type ≠ .jmpNextRule) {p q : BfProgram}
    (ran : bfProgramFixup type p = .ok ((), q)) :
    q.maps = p.maps ∧ q.stubStart = p.stubStart ∧ q.elfstubsLocation = p.elfstubsLocation ∧
      q.img.length = p.img.length := by
  obtain ⟨img, rfl, length, -⟩ := bfProgramFixup_imm imm ran
  exact ⟨rfl, rfl, rfl, length⟩

/-- A pass leaves the fixups of the other types, and none of its own. -/
theorem mem_fixups_pass {type : BfFixupType} (imm : type ≠ .jmpNextRule) {p q : BfProgram}
    (ran : bfProgramFixup type p = .ok ((), q)) {f : BfFixup} :
    f ∈ q.fixups ↔ f ∈ p.fixups ∧ f.kind.type ≠ type := by
  obtain ⟨img, rfl, -⟩ := bfProgramFixup_imm imm ran
  simp [BfProgram.withFixups]

theorem mem_fixupsFrom {base : Nat} {es : List Emitted} {f : BfFixup} :
    f ∈ fixupsFrom base es ↔ ∃ k e, es[k]? = some e ∧ e.fixup = some f.kind ∧ f.insn = base + k := by
  induction es generalizing base with
  | nil => simp [fixupsFrom]
  | cons e es ih =>
      have shift : (∃ k e', es[k]? = some e' ∧ e'.fixup = some f.kind ∧ f.insn = base + 1 + k) ↔
          ∃ k e', (e :: es)[k + 1]? = some e' ∧ e'.fixup = some f.kind ∧ f.insn = base + (k + 1) := by
        simp only [List.getElem?_cons_succ]
        exact exists_congr fun k => by rw [show base + 1 + k = base + (k + 1) by omega]
      constructor
      · intro mem
        cases kind : e.fixup with
        | none =>
            simp only [fixupsFrom, kind] at mem
            obtain ⟨k, e', at_, rest⟩ := shift.mp (ih.mp mem)
            exact ⟨k + 1, e', at_, rest⟩
        | some kind' =>
            simp only [fixupsFrom, kind, List.mem_cons] at mem
            rcases mem with rfl | mem
            · exact ⟨0, e, rfl, kind, rfl⟩
            · obtain ⟨k, e', at_, rest⟩ := shift.mp (ih.mp mem)
              exact ⟨k + 1, e', at_, rest⟩
      · rintro ⟨k, e', at_, waits, place⟩
        cases k with
        | zero =>
            cases at_
            obtain ⟨kind, insn⟩ := f
            cases place
            simp [fixupsFrom, waits]
        | succ k =>
            have tail := ih.mpr (shift.mpr ⟨k, e', at_, waits, place⟩)
            cases kind : e.fixup <;> simp [fixupsFrom, kind, tail]

/-- The slots of a program that has just been emitted. -/
theorem waiting_append {p : BfProgram} (blank : p.img = []) (clean : p.fixups = [])
    {es : List Emitted} {k : Nat} {e : Emitted} (at_ : es[k]? = some e) :
    Waiting (p.append es) k e := by
  have fixups : (p.append es).fixups = fixupsFrom 0 es := by
    simp [BfProgram.append, blank, clean]
  refine ⟨by simp [blank, at_], ?_, ?_⟩
  · intro f mem same
    rw [fixups] at mem
    obtain ⟨j, e', at', waits, place⟩ := mem_fixupsFrom.mp mem
    obtain rfl : j = k := by omega
    rw [at_] at at'
    cases at'
    exact waits
  · intro kind waits
    rw [fixups]
    exact mem_fixupsFrom.mpr ⟨k, e, at_, waits, by simp⟩

/-! ## Placing the stubs -/

/-- Longest stub a program can hold, well above what the kernel accepts. -/
def elfstubMaxInsns : Nat := 2 ^ 20

/-- The stubs of the daemon are compiled functions. -/
def Host.StubsCompiled (host : Host) : Prop :=
  ∀ id stub, host.getElfstub id = some stub →
    stub.insns ≠ [] ∧ stub.insns.length ≤ elfstubMaxInsns

/-- `q` is `p` with code added behind the first `size` instructions. -/
structure Extends (size : Nat) (p q : BfProgram) : Prop where
  host : q.host = p.host
  maps : q.maps = p.maps
  kept : ∀ k < size, q.img[k]? = p.img[k]?
  old : ∀ f ∈ p.fixups, f ∈ q.fixups
  fresh : ∀ f ∈ q.fixups, f ∈ p.fixups ∨ (size ≤ f.insn ∧ f.kind = .printerMapFd)
  quiet : ∃ n, q.closed = p.closed ++ List.replicate n none

theorem Extends.refl (size : Nat) (p : BfProgram) : Extends size p p :=
  ⟨rfl, rfl, fun _ _ => rfl, fun _ mem => mem, fun _ mem => .inl mem, 0, by simp⟩

theorem Extends.trans {size : Nat} {p q r : BfProgram} (first : Extends size p q)
    (second : Extends size q r) : Extends size p r := by
  refine ⟨second.host.trans first.host, second.maps.trans first.maps, ?_, ?_, ?_, ?_⟩
  · exact fun k inside => (second.kept k inside).trans (first.kept k inside)
  · exact fun f mem => second.old f (first.old f mem)
  · intro f mem
    rcases second.fresh f mem with mem | behind
    · exact first.fresh f mem
    · exact .inr behind
  · obtain ⟨n, record⟩ := first.quiet
    obtain ⟨m, record'⟩ := second.quiet
    exact ⟨n + m, by rw [record', record, List.append_assoc, List.replicate_append_replicate]⟩

theorem Waiting.extend {size k : Nat} {p q : BfProgram} {e : Emitted} (wait : Waiting p k e)
    (more : Extends size p q) (inside : k < size) : Waiting q k e := by
  refine ⟨(more.kept k inside).trans wait.here, ?_, fun kind waits =>
    more.old _ (wait.listed kind waits)⟩
  intro f mem same
  rcases more.fresh f mem with mem | ⟨behind, -⟩
  · exact wait.pending f mem same
  · omega

theorem emitAll_eq (insns : List BpfInsn) (p : BfProgram) :
    emitAll insns p = .ok ((), p.append (insns.map fun i => { insn := i })) := by
  induction insns generalizing p with
  | nil => simp [emitAll, gen_pure]
  | cons i insns ih => simp [emitAll, gen_bind, emit_eq, ih]

/-- Plain instructions wait for nothing. -/
theorem fixupsFrom_insns (base : Nat) (insns : List BpfInsn) :
    fixupsFrom base (insns.map fun i => ({ insn := i } : Emitted)) = [] := by
  refine List.eq_nil_iff_forall_not_mem.mpr fun f mem => ?_
  obtain ⟨k, e, at_, waits, -⟩ := mem_fixupsFrom.mp mem
  simp only [List.getElem?_map, Option.map_eq_some_iff] at at_
  obtain ⟨i, -, rfl⟩ := at_
  cases waits

theorem emitAll_extends {size : Nat} {p : BfProgram} (behind : size ≤ p.img.length)
    (insns : List BpfInsn) : Extends size p (p.append (insns.map fun i => { insn := i })) := by
  have unclosed : ∀ base (insns : List BpfInsn),
      closedFrom base (insns.map fun i => ({ insn := i } : Emitted)) =
        List.replicate insns.length none := by
    intro base insns
    induction insns generalizing base with
    | nil => rfl
    | cons i insns ih => simp [closedFrom, ih, List.replicate_succ]
  refine ⟨rfl, rfl, ?_, ?_, ?_, insns.length, by simp [BfProgram.append, unclosed]⟩
  · intro k inside
    rw [BfProgram.append_img, List.getElem?_append_left (by omega)]
  · exact fun f mem => List.mem_append_left _ mem
  · intro f mem
    simp only [BfProgram.append, fixupsFrom_insns, List.append_nil] at mem
    exact .inl mem

theorem placeStubStr_spec {size start : Nat} (behind : size ≤ start) (pstr : Nat × String)
    {p q : BfProgram} (ran : placeStubStr start pstr p = .ok ((), q)) :
    Extends size p q ∧ q.img.length = p.img.length ∧ q.stubStart = p.stubStart ∧
      q.elfstubsLocation = p.elfstubsLocation := by
  cases ran
  refine ⟨⟨rfl, rfl, ?_, ?_, ?_, 0, by simp⟩, by simp, rfl, rfl⟩
  · intro k inside
    have low : start + pstr.1 ≠ k := by omega
    have high : start + pstr.1 + 1 ≠ k := by omega
    simp [low, high]
  · exact fun f mem => List.mem_append_left _ mem
  · intro f mem
    simp only [List.mem_append, List.mem_singleton] at mem
    rcases mem with mem | rfl
    · exact .inl mem
    · exact .inr ⟨Nat.le_add_right_of_le behind, rfl⟩

theorem placeStubStrs_spec {size start : Nat} (behind : size ≤ start)
    (strs : List (Nat × String)) {p q : BfProgram}
    (ran : placeStubStrs start strs p = .ok ((), q)) :
    Extends size p q ∧ q.img.length = p.img.length ∧ q.stubStart = p.stubStart ∧
      q.elfstubsLocation = p.elfstubsLocation := by
  induction strs generalizing p with
  | nil =>
      cases ran
      exact ⟨Extends.refl size _, rfl, rfl, rfl⟩
  | cons pstr strs ih =>
      obtain ⟨_, p₁, first, rest⟩ := gen_bind_inv ran
      obtain ⟨more, length, starts, locations⟩ := placeStubStr_spec behind pstr first
      obtain ⟨more', length', starts', locations'⟩ := ih rest
      exact ⟨more.trans more', length'.trans length, starts'.trans starts,
        locations'.trans locations⟩

/-- Number of stubs placed so far. -/
def BfProgram.placedCount (p : BfProgram) : Nat :=
  allElfstubs.countP fun id => (p.stubStart id).isSome

/-- The stubs are placed behind the program, each at its own position. -/
structure StubsPlaced (size : Nat) (p : BfProgram) : Prop where
  behind : size ≤ p.img.length
  unplaced : ∀ id, p.stubStart id = none → p.elfstubsLocation id = 0
  placed : ∀ id s, p.stubStart id = some s →
    p.elfstubsLocation id = BitVec.ofNat 32 s ∧ size ≤ s ∧ s < p.img.length
  distinct : ∀ id id' s, p.stubStart id = some s → p.stubStart id' = some s → id = id'
  bounded : p.img.length ≤ size + elfstubMaxInsns * p.placedCount

theorem StubsPlaced.length_le {size : Nat} {p : BfProgram} (stubs : StubsPlaced size p) :
    p.img.length ≤ size + elfstubMaxInsns * 4 := by
  have few : p.placedCount ≤ 4 := List.countP_le_length
  exact stubs.bounded.trans (Nat.add_le_add_left (Nat.mul_le_mul_left _ few) size)

/-- While addresses fit 32 bits, a location is the position of its stub. -/
theorem StubsPlaced.location {size : Nat} {p : BfProgram} (stubs : StubsPlaced size p)
    (fits : size + elfstubMaxInsns * 4 < 2 ^ 32) {id : BfElfstubId} {s : Nat}
    (known : p.stubStart id = some s) : (p.elfstubsLocation id).toNat = s := by
  obtain ⟨location, -, inside⟩ := stubs.placed id s known
  have bound := stubs.length_le
  rw [location, BitVec.toNat_ofNat, Nat.mod_eq_of_lt (by omega)]

/-- Only the length of the image matters. -/
theorem StubsPlaced.of_img {size : Nat} {p q : BfProgram} (stubs : StubsPlaced size p)
    (starts : q.stubStart = p.stubStart) (locations : q.elfstubsLocation = p.elfstubsLocation)
    (length : q.img.length = p.img.length) : StubsPlaced size q := by
  refine ⟨length ▸ stubs.behind, ?_, ?_, ?_, ?_⟩
  · rw [starts, locations]
    exact stubs.unplaced
  · rw [starts, locations, length]
    exact stubs.placed
  · rw [starts]
    exact stubs.distinct
  · unfold BfProgram.placedCount
    rw [starts, length]
    exact stubs.bounded

theorem placedCount_set (p : BfProgram) (id : BfElfstubId) (s : Nat) (before : p.stubStart id = none)
    (q : BfProgram)
    (set : q.stubStart = fun id' => if id' = id then some s else p.stubStart id') :
    q.placedCount = p.placedCount + 1 := by
  unfold BfProgram.placedCount allElfstubs
  cases id <;> simp [List.countP_cons, set, before] <;> omega

/-- One more stub at the end of the image. -/
theorem StubsPlaced.place {size : Nat} {p q : BfProgram} (stubs : StubsPlaced size p)
    {id : BfElfstubId} {n : Nat} (before : p.stubStart id = none) (nonempty : 0 < n)
    (short : n ≤ elfstubMaxInsns) (length : q.img.length = p.img.length + n)
    (starts : q.stubStart = fun id' => if id' = id then some p.img.length else p.stubStart id')
    (locations : q.elfstubsLocation =
      fun id' => if id' = id then BitVec.ofNat 32 p.img.length else p.elfstubsLocation id') :
    StubsPlaced size q := by
  have behind := stubs.behind
  refine ⟨by omega, ?_, ?_, ?_, ?_⟩
  · intro id' absent
    simp only [starts, locations] at absent ⊢
    split at absent
    · cases absent
    · rename_i other
      rw [if_neg other]
      exact stubs.unplaced id' absent
  · intro id' s known
    simp only [starts, locations] at known ⊢
    split at known
    · rename_i same
      cases known
      rw [if_pos same]
      exact ⟨rfl, behind, by omega⟩
    · rename_i other
      obtain ⟨location, low, high⟩ := stubs.placed id' s known
      rw [if_neg other]
      exact ⟨location, low, by omega⟩
  · intro id₁ id₂ s first second
    simp only [starts] at first second
    split at first <;> split at second
    · rename_i same₁ same₂
      exact same₁.trans same₂.symm
    · cases first
      exact absurd (stubs.placed _ _ second).2.2 (by omega)
    · cases second
      exact absurd (stubs.placed _ _ first).2.2 (by omega)
    · exact stubs.distinct id₁ id₂ s first second
  · have bound := stubs.bounded
    rw [placedCount_set p id p.img.length before q starts, length, Nat.mul_add]
    omega

/-- A location of zero says that the stub was not placed yet. -/
theorem StubsPlaced.stubStart_none {size : Nat} {p : BfProgram} (stubs : StubsPlaced size p)
    (nonempty : 0 < size) (fits : size + elfstubMaxInsns * 4 < 2 ^ 32) {id : BfElfstubId}
    (unlocated : p.elfstubsLocation id = 0) : p.stubStart id = none := by
  cases known : p.stubStart id with
  | none => rfl
  | some s =>
      have position := stubs.location fits known
      have low := (stubs.placed id s known).2.1
      have zero : (0 : BitVec 32).toNat = 0 := rfl
      rw [unlocated, zero] at position
      omega

/-- A fixup leaves the program alone, or it is the first call to a stub and the stub
goes to the end of the image. -/
theorem placeElfstub_cases {f : BfFixup} {p q : BfProgram} (ran : placeElfstub f p = .ok ((), q)) :
    (q = p ∧ ∀ id, f.kind = .elfstubCall id → p.elfstubsLocation id ≠ 0) ∨
    (∃ id stub p₁, f.kind = .elfstubCall id ∧ p.elfstubsLocation id = 0 ∧
      p.host.getElfstub id = some stub ∧
      placeStubStrs p.img.length stub.strs
        (p.append (stub.insns.map fun i => { insn := i })) = .ok ((), p₁) ∧
      q = p₁.located id p.img.length) := by
  obtain ⟨kind, insn⟩ := f
  cases kind with
  | elfstubCall id =>
      simp only [placeElfstub, gen_bind, gen_get] at ran
      split at ran
      · rename_i located
        cases ran
        refine .inl ⟨rfl, ?_⟩
        rintro id' ⟨⟩
        exact located
      · rename_i unlocated
        cases found : p.host.getElfstub id with
        | none => simp [found, gen_throw] at ran
        | some stub =>
            simp only [found, gen_bind, emitAll_eq] at ran
            split at ran
            · cases ran
            · rename_i p₁ strings
              cases ran
              exact .inr ⟨id, stub, p₁, rfl, not_not.mp unlocated, found, strings, rfl⟩
  | _ =>
      cases ran
      exact .inl ⟨rfl, fun id kind => nomatch kind⟩

theorem placeElfstub_extends {size : Nat} {f : BfFixup} {p q : BfProgram}
    (behind : size ≤ p.img.length) (ran : placeElfstub f p = .ok ((), q)) :
    Extends size p q ∧ size ≤ q.img.length := by
  obtain ⟨rfl, -⟩ | ⟨id, stub, p₁, -, -, -, strings, rfl⟩ := placeElfstub_cases ran
  · exact ⟨Extends.refl size q, behind⟩
  · obtain ⟨more, length, -, -⟩ := placeStubStrs_spec behind stub.strs strings
    obtain ⟨host, maps, kept, old, fresh, quiet⟩ := (emitAll_extends behind stub.insns).trans more
    refine ⟨⟨host, maps, kept, old, fresh, quiet⟩, ?_⟩
    show size ≤ p₁.img.length
    rw [length, BfProgram.append_img, List.length_append]
    omega

theorem placeElfstubs_extends {size : Nat} (fs : List BfFixup) {p q : BfProgram}
    (behind : size ≤ p.img.length) (ran : placeElfstubs fs p = .ok ((), q)) :
    Extends size p q := by
  induction fs generalizing p with
  | nil =>
      cases ran
      exact Extends.refl size _
  | cons f fs ih =>
      obtain ⟨_, p₁, first, rest⟩ := gen_bind_inv ran
      obtain ⟨more, behind'⟩ := placeElfstub_extends behind first
      exact more.trans (ih behind' rest)

section Placement

variable {size : Nat} {p q : BfProgram} (compiled : p.host.StubsCompiled) (nonempty : 0 < size)
  (fits : size + elfstubMaxInsns * 4 < 2 ^ 32)

include compiled nonempty fits

/-- A stub that is called is in place afterwards, and was placed at most once. -/
theorem placeElfstub_placed (stubs : StubsPlaced size p) {f : BfFixup}
    (ran : placeElfstub f p = .ok ((), q)) :
    StubsPlaced size q ∧
      (∀ id, (p.stubStart id).isSome = true → (q.stubStart id).isSome = true) ∧
      (∀ id, f.kind = .elfstubCall id → (q.stubStart id).isSome = true) := by
  obtain ⟨rfl, located⟩ | ⟨id, stub, p₁, kind, unlocated, found, strings, rfl⟩ :=
    placeElfstub_cases ran
  · refine ⟨stubs, fun _ some => some, fun id kind => ?_⟩
    by_contra absent
    exact located id kind (stubs.unplaced id (by simpa using absent))
  · have before := stubs.stubStart_none nonempty fits unlocated
    obtain ⟨some', short⟩ := compiled id stub found
    obtain ⟨-, length, starts, locations⟩ := placeStubStrs_spec stubs.behind stub.strs strings
    simp only [BfProgram.append_img, List.length_append, List.length_map,
      BfProgram.append_stubStart, BfProgram.append_elfstubsLocation] at length starts locations
    refine ⟨stubs.place before (List.length_pos_iff.mpr some') short length ?_ ?_, ?_, ?_⟩
    · simp only [BfProgram.located, starts]
    · simp only [BfProgram.located, locations]
    · intro id' some
      simp only [BfProgram.located, starts]
      split
      · rfl
      · exact some
    · intro id' same
      cases kind.symm.trans same
      simp [BfProgram.located]

theorem placeElfstubs_placed (stubs : StubsPlaced size p) (fs : List BfFixup)
    (ran : placeElfstubs fs p = .ok ((), q)) :
    StubsPlaced size q ∧
      (∀ id, (p.stubStart id).isSome = true → (q.stubStart id).isSome = true) ∧
      (∀ f ∈ fs, ∀ id, f.kind = .elfstubCall id → (q.stubStart id).isSome = true) := by
  induction fs generalizing p with
  | nil =>
      cases ran
      exact ⟨stubs, fun _ some => some, by simp⟩
  | cons f fs ih =>
      obtain ⟨_, p₁, first, rest⟩ := gen_bind_inv ran
      obtain ⟨placed, keeps, here⟩ := placeElfstub_placed compiled nonempty fits stubs first
      have same := (placeElfstub_extends stubs.behind first).1.host
      obtain ⟨placed', keeps', others⟩ := ih (same ▸ compiled) placed rest
      refine ⟨placed', fun id some => keeps' id (keeps id some), ?_⟩
      intro g mem id kind
      rcases List.mem_cons.mp mem with rfl | mem
      · exact keeps' id (here id kind)
      · exact others g mem id kind

end Placement

/-! ## Linked slots -/

/-- A slot as the kernel sees it; jumps to the next rule are still open. -/
def Emitted.link (maps : BfMaps) (e : Emitted) : Item BfElfstubId :=
  match e.fixup with
  | none => .insn e.insn
  | some .jmpNextRule => .out e.insn
  | some .countersMapFd => .insn { e.insn with imm := maps.cmap }
  | some .printerMapFd => .insn { e.insn with imm := maps.pmap }
  | some .logMapFd => .insn { e.insn with imm := maps.lmap }
  | some (.setMapFd index) => .insn { e.insn with imm := maps.sets[index]?.getD 0 }
  | some (.elfstubCall id) => .call id

/-- Stub fixups are on call instructions. -/
def Emitted.CallShaped (e : Emitted) : Prop :=
  ∀ id, e.fixup = some (.elfstubCall id) → e.insn = bpfCallRel 0

/-- The stub calls of a program whose size leaves the locations exact. -/
theorem image_entry {size : Nat} {p : BfProgram} (stubs : StubsPlaced size p) {id : BfElfstubId}
    {s : Nat} (known : p.stubStart id = some s) : p.image.entry s = some id := by
  have here : (p.stubStart id == some s) = true := by simp [known]
  cases found : allElfstubs.find? fun id' => p.stubStart id' == some s with
  | none =>
      have listed : id ∈ allElfstubs := by cases id <;> simp [allElfstubs]
      exact absurd here (by simpa using List.find?_eq_none.mp found id listed)
  | some id' =>
      have there := List.find?_some found
      rw [stubs.distinct id' id s (by simpa using there) known] at found
      exact found

theorem elfstubCallOffset_inv {location : BitVec 32} {insn : Nat} {offset : BitVec 32}
    (ran : elfstubCallOffset location insn = .ok offset) :
    insn + 1 ≤ location.toNat ∧ location.toNat < insn + 1 + intMax ∧
      offset.toInt = (location.toNat : Int) - insn - 1 := by
  simp only [elfstubCallOffset] at ran
  split at ran
  · cases ran
  · rename_i range
    simp only [not_or, not_lt, not_le] at range
    obtain ⟨low, high⟩ := range
    cases ran
    unfold intMax at high ⊢
    refine ⟨by omega, by omega, ?_⟩
    rw [BitVec.toInt_ofInt, Int.bmod_eq_of_le] <;> omega

/-- The value of a stub call. -/
theorem elfstubCall_value {p : BfProgram} {id : BfElfstubId} {k : Nat} {value : BitVec 32}
    (known : bfProgramFixupValue p ⟨.elfstubCall id, k⟩ = .ok (.imm, value)) :
    elfstubCallOffset (p.elfstubsLocation id) k = .ok value := by
  simp only [bfProgramFixupValue] at known
  split at known
  · cases known
  · rename_i offset ok
    cases known
    exact ok

/-- When no fixup is left, a slot holds its linked instruction. -/
theorem SlotState.filled_link {size k target : Nat} {q : BfProgram} {e : Emitted}
    (state : SlotState q k e) (done : q.fixups = []) (shaped : e.CallShaped)
    (stubs : StubsPlaced size q) (fits : size + elfstubMaxInsns * 4 < 2 ^ 32)
    (placed : ∀ id, e.fixup = some (.elfstubCall id) → (q.stubStart id).isSome = true) :
    ∃ i, q.img[k]? = some i ∧ (e.link q.maps).Filled q.image k target i := by
  cases state with
  | waiting fresh =>
      have plain : e.fixup = none := by
        cases waits : e.fixup with
        | none => rfl
        | some kind => simpa [done] using fresh.listed kind waits
      exact ⟨e.insn, fresh.here, by simp [Emitted.link, plain, Item.Filled]⟩
  | filled kind value waited imm quiet known here =>
      refine ⟨_, here, ?_⟩
      cases kind with
      | jmpNextRule => exact absurd rfl imm
      | setMapFd index =>
          simp only [bfProgramFixupValue] at known
          split at known
          · cases known
          · rename_i fd there
            cases known
            simp [Emitted.link, waited, Item.Filled, there]
      | elfstubCall id =>
          obtain ⟨s, start⟩ := Option.isSome_iff_exists.mp (placed id waited)
          obtain ⟨low, -, distance⟩ := elfstubCallOffset_inv (elfstubCall_value known)
          rw [stubs.location fits start] at low distance
          have lands : (k : Int) + 1 + value.toInt = s := by omega
          have call := shaped id waited
          simp only [Emitted.link, waited, Item.Filled, call, lands]
          refine ⟨rfl, rfl, by omega, ?_⟩
          rw [Int.toNat_natCast]
          exact image_entry stubs start
      | _ =>
          cases known
          simp [Emitted.link, waited, Item.Filled]

/-- A slot that was waiting for its pass has got a value. -/
theorem Waiting.known {type : BfFixupType} (imm : type ≠ .jmpNextRule) {p q : BfProgram}
    {k : Nat} {e : Emitted} {kind : BfFixupKind} (wait : Waiting p k e)
    (waits : e.fixup = some kind) (typed : kind.type = type)
    (ran : bfProgramFixup type p = .ok ((), q)) :
    ∃ value, bfProgramFixupValue q ⟨kind, k⟩ = .ok (.imm, value) := by
  cases SlotState.pass imm (.waiting wait) ran with
  | waiting fresh =>
      exact absurd typed ((mem_fixups_pass imm ran).mp (fresh.listed kind waits)).2
  | filled kind' value waited _ _ known _ =>
      cases waits.symm.trans waited
      exact ⟨value, known⟩

/-- **Short programs.**  Two calls to the same stub, one near the start and one near the
end, bound the size of a program that links. -/
theorem size_lt_of_calls {p q : BfProgram} {first last : Nat} {e e' : Emitted}
    {id : BfElfstubId} (wait : Waiting p first e) (wait' : Waiting p last e')
    (calls : e.fixup = some (.elfstubCall id)) (calls' : e'.fixup = some (.elfstubCall id))
    (ran : bfProgramFixup .elfstubCall p = .ok ((), q)) : last < first + 1 + intMax := by
  obtain ⟨_, known⟩ := wait.known (by simp [BfFixupKind.type]) calls rfl ran
  obtain ⟨_, known'⟩ := wait'.known (by simp [BfFixupKind.type]) calls' rfl ran
  have high := (elfstubCallOffset_inv (elfstubCall_value known)).2.1
  have low := (elfstubCallOffset_inv (elfstubCall_value known')).1
  omega

/-! ## Executing linked slots -/

section Execution

variable {W : Type} {env : Env W BfElfstubId} {maps : BfMaps}

theorem link_insn (maps : BfMaps) (i : BpfInsn) :
    Emitted.link maps ({ insn := i } : Emitted) = .insn i := rfl

theorem eval_jumpSlot {i : BpfInsn} (jump : i.isJump = true) {d : Nat} (short : d < 2 ^ 15)
    (rest : List (Item BfElfstubId)) (c : Core W) :
    eval env 0 ((jumpSlot i d).link maps :: rest) c =
      eval env (if i.taken c then d else 0) rest c :=
  eval_jump env rest c (i := setOff i d) jump short rfl

theorem eval_nextSlot {i : BpfInsn} (jump : i.isJump = true) (rest : List (Item BfElfstubId))
    (c : Core W) :
    eval env 0 ((nextSlot i).link maps :: rest) c =
      if i.taken c then .out c else eval env 0 rest c :=
  eval_out env rest c jump

theorem taken_imm (op : JmpOp) (r : Reg) (imm : BitVec 32) (off : BitVec 16) (c : Core W) :
    (bpfJmpImm op r imm off).taken c = op.eval (c.regs r) (imm.signExtend 64) := rfl

theorem taken_reg (op : JmpOp) (r r' : Reg) (off : BitVec 16) (c : Core W) :
    (bpfJmpReg op r r' off).taken c = op.eval (c.regs r) (c.regs r') := rfl

theorem taken_eq (reg : Reg) (imm : BitVec 32) (off : BitVec 16) (c : Core W) :
    (bpfJmpImm .eq reg imm off).taken c = decide (c.regs reg = imm.signExtend 64) := by
  rw [taken_imm, JmpOp.eval, Bool.beq_eq_decide_eq]

theorem taken_ne (reg : Reg) (imm : BitVec 32) (off : BitVec 16) (c : Core W) :
    (bpfJmpImm .ne reg imm off).taken c = decide (c.regs reg ≠ imm.signExtend 64) := by
  rw [taken_imm, JmpOp.eval, bne, Bool.beq_eq_decide_eq, ← decide_not]

/-- A switch with two options, each of them one instruction that goes on. -/
theorem eval_swich2_of {reg : Reg} {i₁ i₂ : BitVec 32} {b₁ b₂ d : BpfInsn}
    {f₁ f₂ f : Core W → Core W}
    (first : ∀ rest c, eval env 0 (.insn b₁ :: rest) c = eval env 0 rest (f₁ c))
    (second : ∀ rest c, eval env 0 (.insn b₂ :: rest) c = eval env 0 rest (f₂ c))
    (default_ : ∀ rest c, eval env 0 (.insn d :: rest) c = eval env 0 rest (f c)) (c : Core W) :
    eval env 0 ((swich2Slots reg i₁ i₂ b₁ b₂ d).map (Emitted.link maps)) c =
      .fall 0 (if c.regs reg = i₁.signExtend 64 then f₁ c
        else if c.regs reg = i₂.signExtend 64 then f₂ c else f c) := by
  simp only [swich2Slots, List.map_cons, List.map_nil, link_insn]
  rw [eval_jumpSlot rfl (by decide), taken_eq]
  by_cases one : c.regs reg = i₁.signExtend 64
  · simp only [one, decide_true, if_true, eval_skip]
    rw [first, eval_jumpSlot rfl (by decide)]
    rfl
  simp only [one, decide_false, Bool.false_eq_true, if_false]
  rw [eval_jumpSlot rfl (by decide), taken_eq]
  by_cases two : c.regs reg = i₂.signExtend 64
  · simp only [two, decide_true, if_true, eval_skip]
    rw [second, eval_jumpSlot rfl (by decide)]
    rfl
  simp only [two, decide_false, Bool.false_eq_true, if_false]
  rw [eval_jumpSlot rfl (by decide)]
  exact default_ [] c

theorem eval_skipOver_idle {jump : BpfInsn} (isJump : jump.isJump = true) (block : List Emitted)
    {c : Core W} (idle : jump.taken c = false) :
    eval env 0 ((skipOver jump block).map (Emitted.link maps)) c =
      eval env 0 (block.map (Emitted.link maps)) c := by
  have idle' : (setOff jump block.length).taken c = false := idle
  have isJump' : (setOff jump block.length).isJump = true := isJump
  have falls : (setOff jump block.length).exec env
      ((block.map (Emitted.link maps)).head?.bind Item.imm?) c = .goto 0 c := by
    rw [BpfInsn.exec_of_isJump env _ _ c isJump', idle', if_neg Bool.false_ne_true]
  simp only [skipOver, jumpSlot, List.map_cons, Emitted.link, eval, Item.exec, falls]
  rfl

theorem eval_skipOver_taken {jump : BpfInsn} (isJump : jump.isJump = true) (block : List Emitted)
    {c : Core W} (taken : jump.taken c = true) (short : block.length < 2 ^ 15) :
    eval env 0 ((skipOver jump block).map (Emitted.link maps)) c = .fall 0 c := by
  have skips := eval_skip_all env 0 (block.map (Emitted.link maps)) c
  rw [List.length_map, Nat.add_zero] at skips
  rw [skipOver, List.map_cons, eval_jumpSlot isJump short, taken, if_pos rfl, skips]

end Execution

end Bpfilter
