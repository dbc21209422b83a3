/-
# Cgen.Swich -- what a generated switch does

`bf_swich_generate` emits one comparison per option, a jump to the default, the
bodies, and the default's instructions.  It uses one jump context per option twice:
for the comparison, closed where the body starts, and for the jump behind the body,
closed at the end.

`swichCode` writes the result down with every offset as a sum of lengths, and
`bfSwichGenerate_img` proves, by an induction along each of the two emission loops,
that this is what is appended to the image.  `swichCode_dispatch` is the execution of
the comparisons.  `bfSwichGenerate_performs` puts the two together: the body of the first
option that equals the register runs as it would alone, and then the code behind the
switch.
-/
import Bpfilter.Ebpf.Enclosed
import Bpfilter.Cgen.MetaMatch

namespace Bpfilter

set_option autoImplicit false

open Ebpf

/-! ## The code of a switch -/

/-- The slots of the bodies, each with the jump behind it. -/
def bodiesLength : List BfSwichOption → Nat
  | [] => 0
  | option :: rest => option.insns.length + 1 + bodiesLength rest

/-- The comparisons.  `gap` is the distance from their end to the first body. -/
def compareCode (reg : Reg) : Nat → List BfSwichOption → List BpfInsn
  | _, [] => []
  | gap, option :: rest =>
      setOff (bpfJmpImm .eq reg option.imm 0) (rest.length + gap) ::
        compareCode reg (gap + option.insns.length + 1) rest

/-- The bodies.  `tail` is the length of what follows them in the switch. -/
def bodiesCode (tail : Nat) : List BfSwichOption → List BpfInsn
  | [] => []
  | option :: rest =>
      option.insns ++ setOff (bpfJmpA 0) (bodiesLength rest + tail) :: bodiesCode tail rest

/-- A switch with a default. -/
def swichCode (reg : Reg) (options : List BfSwichOption) (insns : List BpfInsn) : List BpfInsn :=
  compareCode reg 1 options ++ setOff (bpfJmpA 0) (bodiesLength options) ::
    (bodiesCode insns.length options ++ insns)

theorem compareCode_length (reg : Reg) (gap : Nat) (options : List BfSwichOption) :
    (compareCode reg gap options).length = options.length := by
  induction options generalizing gap with
  | nil => rfl
  | cons option rest ih => simp [compareCode, ih]

theorem bodiesCode_length (tail : Nat) (options : List BfSwichOption) :
    (bodiesCode tail options).length = bodiesLength options := by
  induction options with
  | nil => rfl
  | cons option rest ih =>
      simp only [bodiesCode, bodiesLength, List.length_append, List.length_cons, ih]
      omega

theorem swichCode_length (reg : Reg) (options : List BfSwichOption) (insns : List BpfInsn) :
    (swichCode reg options insns).length =
      options.length + 1 + bodiesLength options + insns.length := by
  simp only [swichCode, List.length_append, List.length_cons, compareCode_length,
    bodiesCode_length]
  omega

theorem bodiesLength_append (a b : List BfSwichOption) :
    bodiesLength (a ++ b) = bodiesLength a + bodiesLength b := by
  induction a with
  | nil => simp [bodiesLength]
  | cons option rest ih =>
      simp only [List.cons_append, bodiesLength, ih]
      omega

theorem bodiesCode_append (tail : Nat) (a b : List BfSwichOption) :
    bodiesCode tail (a ++ b) = bodiesCode (bodiesLength b + tail) a ++ bodiesCode tail b := by
  induction a with
  | nil => rfl
  | cons option rest ih =>
      simp [bodiesCode, bodiesLength_append, ih, Nat.add_assoc]

/-! ## Emission -/

/-- Closing a jump context fills the offset of its slot. -/
theorem bfJmpctxCleanup_img (before after : List BpfInsn) (insn : BpfInsn) {q : BfProgram}
    (shape : q.img = before ++ insn :: after) :
    ∃ q', bfJmpctxCleanup ⟨before.length⟩ q = .ok ((), q') ∧
      q'.img = before ++ setOff insn after.length :: after := by
  refine ⟨_, rfl, ?_⟩
  have distance : (before ++ insn :: after).length - before.length - 1 = after.length := by
    simp
  show q.img.modify before.length (setOff · (q.img.length - before.length - 1)) = _
  rw [shape, distance, List.modify_eq_take_cons_drop (by simp)]
  simp

theorem emitAll_img (insns : List BpfInsn) (q : BfProgram) :
    ∃ q', emitAll insns q = .ok ((), q') ∧ q'.img = q.img ++ insns := by
  induction insns generalizing q with
  | nil => exact ⟨q, rfl, (List.append_nil _).symm⟩
  | cons insn rest ih =>
      obtain ⟨q', ran, img⟩ := ih (q.append [{ insn := insn }])
      refine ⟨q', ?_, ?_⟩
      · rw [emitAll, gen_bind_ok (emit_eq insn q)]
        exact ran
      · rw [img]
        simp

/-- The jump contexts of `n` consecutive slots. -/
def ctxsFrom (base : Nat) : Nat → List BfJmpctx
  | 0 => []
  | n + 1 => ⟨base⟩ :: ctxsFrom (base + 1) n

/-- The comparisons before any of them is closed. -/
def openCompares (reg : Reg) (options : List BfSwichOption) : List BpfInsn :=
  options.map fun option => bpfJmpImm .eq reg option.imm 0

theorem swichCompare_img (reg : Reg) (options : List BfSwichOption) (q : BfProgram) :
    ∃ q', swichCompare reg options q = .ok (ctxsFrom q.img.length options.length, q') ∧
      q'.img = q.img ++ openCompares reg options := by
  induction options generalizing q with
  | nil => exact ⟨q, rfl, (List.append_nil _).symm⟩
  | cons option rest ih =>
      obtain ⟨q', ran, img⟩ := ih (q.append [{ insn := bpfJmpImm .eq reg option.imm 0 }])
      refine ⟨q', ?_, ?_⟩
      · rw [swichCompare, gen_bind_ok (bfJmpctxGet_eq _ q), gen_bind_ok ran, gen_pure]
        simp [ctxsFrom]
      · rw [img]
        simp [openCompares]

/-- The jump contexts behind the bodies, the first body starting at `base`. -/
def exitCtxs : Nat → List BfSwichOption → List BfJmpctx
  | _, [] => []
  | base, option :: rest =>
      ⟨base + option.insns.length⟩ :: exitCtxs (base + option.insns.length + 1) rest

/-- The bodies before the jumps behind them are closed. -/
def openBodies (options : List BfSwichOption) : List BpfInsn :=
  options.flatMap fun option => option.insns ++ [bpfJmpA 0]

theorem openBodies_length (options : List BfSwichOption) :
    (openBodies options).length = bodiesLength options := by
  induction options with
  | nil => rfl
  | cons option rest ih =>
      unfold openBodies at ih ⊢
      simp only [List.flatMap_cons, List.length_append, List.length_cons, List.length_nil, ih,
        bodiesLength]

/-- **The first emission loop.**  With the comparisons still open behind `before` and
`between` emitted since, each is closed where its body starts. -/
theorem swichBodies_img (reg : Reg) (options : List BfSwichOption) {q : BfProgram}
    {before between : List BpfInsn}
    (shape : q.img = before ++ (openCompares reg options ++ between)) :
    ∃ q', swichBodies (options.zip (ctxsFrom before.length options.length)) q =
        .ok (exitCtxs q.img.length options, q') ∧
      q'.img = before ++ (compareCode reg between.length options ++
        (between ++ openBodies options)) := by
  induction options generalizing q before between with
  | nil => exact ⟨q, rfl, by simpa [openBodies, openCompares, compareCode] using shape⟩
  | cons option rest ih =>
      obtain ⟨q₁, closed, img₁⟩ := bfJmpctxCleanup_img before (openCompares reg rest ++ between)
        (bpfJmpImm .eq reg option.imm 0) (by simpa [openCompares] using shape)
      obtain ⟨q₂, body, img₂⟩ := emitAll_img option.insns q₁
      have jump := bfJmpctxGet_eq (bpfJmpA 0) q₂
      have distance : (openCompares reg rest ++ between).length =
          rest.length + between.length := by simp [openCompares]
      have next : (q₂.append [{ insn := bpfJmpA 0 }]).img =
          (before ++ [setOff (bpfJmpImm .eq reg option.imm 0) (rest.length + between.length)]) ++
            (openCompares reg rest ++ (between ++ (option.insns ++ [bpfJmpA 0]))) := by
        rw [BfProgram.append_img, img₂, img₁, distance]
        simp
      obtain ⟨q', ran, img'⟩ := ih next
      refine ⟨q', ?_, ?_⟩
      · have grown : q₁.img.length = q.img.length := by
          rw [img₁, shape]
          simp [openCompares]
        have exit : q₂.img.length = q.img.length + option.insns.length := by
          rw [img₂, List.length_append, grown]
        have here : before.length + 1 = (before ++ [setOff (bpfJmpImm .eq reg option.imm 0)
            (rest.length + between.length)]).length := by simp
        simp only [List.length_cons, ctxsFrom, List.zip_cons_cons, swichBodies]
        rw [gen_bind_ok closed, gen_bind_ok body, gen_bind_ok jump, here, gen_bind_ok ran,
          gen_pure]
        simp [exitCtxs, exit]
      · rw [img']
        have gap : (between ++ (option.insns ++ [bpfJmpA 0])).length =
            between.length + option.insns.length + 1 := by
          simp
          omega
        simp only [gap, compareCode, openBodies, List.flatMap_cons, List.append_assoc,
          List.cons_append, List.nil_append]

/-- **The second emission loop.**  Each jump behind a body is closed at the end. -/
theorem cleanupAll_img (options : List BfSwichOption) {q : BfProgram}
    {before after : List BpfInsn} (shape : q.img = before ++ (openBodies options ++ after)) :
    ∃ q', cleanupAll (exitCtxs before.length options) q = .ok ((), q') ∧
      q'.img = before ++ (bodiesCode after.length options ++ after) := by
  induction options generalizing q before with
  | nil => exact ⟨q, rfl, shape⟩
  | cons option rest ih =>
      obtain ⟨q₁, closed, img₁⟩ := bfJmpctxCleanup_img (before ++ option.insns)
        (openBodies rest ++ after) (bpfJmpA 0) (by simpa [openBodies] using shape)
      have distance : (openBodies rest ++ after).length = bodiesLength rest + after.length := by
        rw [List.length_append, openBodies_length]
      have next : q₁.img = (before ++ option.insns ++
          [setOff (bpfJmpA 0) (bodiesLength rest + after.length)]) ++
            (openBodies rest ++ after) := by
        rw [img₁, distance]
        simp
      obtain ⟨q', ran, img'⟩ := ih next
      refine ⟨q', ?_, ?_⟩
      · have here : before.length + option.insns.length + 1 = (before ++ option.insns ++
            [setOff (bpfJmpA 0) (bodiesLength rest + after.length)]).length := by
          simp
          omega
        rw [List.length_append] at closed
        rw [exitCtxs, cleanupAll, gen_bind_ok closed, here]
        exact ran
      · rw [img']
        simp [bodiesCode]

/-- **Layout.**  A switch with a default appends `swichCode`, whatever the program. -/
theorem bfSwichGenerate_img (reg : Reg) (options : List BfSwichOption) (insns : List BpfInsn)
    (p : BfProgram) :
    ∃ p', bfSwichGenerate ⟨reg, options, some insns⟩ p = .ok ((), p') ∧
      p'.img = p.img ++ swichCode reg options insns := by
  obtain ⟨q₁, compared, img₁⟩ := swichCompare_img reg options p
  have jump := bfJmpctxGet_eq (bpfJmpA 0) q₁
  have shape₂ : (q₁.append [{ insn := bpfJmpA 0 }]).img =
      p.img ++ (openCompares reg options ++ [bpfJmpA 0]) := by
    rw [BfProgram.append_img, img₁]
    simp
  obtain ⟨q₃, bodies, img₃⟩ := swichBodies_img reg options shape₂
  have placed : q₁.img.length = (p.img ++ compareCode reg 1 options).length := by
    rw [img₁]
    simp [openCompares, compareCode_length]
  obtain ⟨q₄, closed, img₄⟩ := bfJmpctxCleanup_img (q := q₃) (p.img ++ compareCode reg 1 options)
    (openBodies options) (bpfJmpA 0) (by rw [img₃]; simp)
  rw [← placed] at closed
  obtain ⟨q₅, default, img₅⟩ := emitAll_img insns q₄
  have start : (q₁.append [{ insn := bpfJmpA 0 }]).img.length =
      (p.img ++ compareCode reg 1 options ++
        [setOff (bpfJmpA 0) (bodiesLength options)]).length := by
    rw [shape₂]
    simp [openCompares, compareCode_length]
  have shape₅ : q₅.img = (p.img ++ compareCode reg 1 options ++
      [setOff (bpfJmpA 0) (bodiesLength options)]) ++ (openBodies options ++ insns) := by
    rw [img₅, img₄, openBodies_length]
    simp
  obtain ⟨q₆, done, img₆⟩ := cleanupAll_img options shape₅
  refine ⟨q₆, ?_, ?_⟩
  · rw [bfSwichGenerate, gen_bind_ok compared]
    simp only
    rw [gen_bind_ok jump, gen_bind_ok bodies, gen_bind_ok closed, gen_bind_ok default, start]
    exact done
  · rw [img₆]
    simp [swichCode]

/-! ## Execution -/

/-- The instructions a switch is to run for a value: the first option that equals it,
or the default. -/
def swichSelect (options : List BfSwichOption) (insns : List BpfInsn) (value : BitVec 64) :
    List BpfInsn :=
  match options.find? (fun option => option.imm.setWidth 64 == value) with
  | some option => option.insns
  | none => insns

/-- The comparison of one option among the others. -/
theorem compareCode_split (reg : Reg) (gap : Nat) (pre post : List BfSwichOption)
    (option : BfSwichOption) :
    ∃ a b, compareCode reg gap (pre ++ option :: post) =
        a ++ setOff (bpfJmpImm .eq reg option.imm 0) (post.length + (gap + bodiesLength pre)) :: b ∧
      a.length = pre.length := by
  induction pre generalizing gap with
  | nil => exact ⟨[], _, rfl, rfl⟩
  | cons first rest ih =>
      obtain ⟨a, b, code, len⟩ := ih (gap + first.insns.length + 1)
      refine ⟨setOff (bpfJmpImm .eq reg first.imm 0) ((rest ++ option :: post).length + gap) :: a,
        b, ?_, by simp [len]⟩
      have sum : post.length + (gap + first.insns.length + 1 + bodiesLength rest) =
          post.length + (gap + bodiesLength (first :: rest)) := by
        simp only [bodiesLength]
        omega
      rw [List.cons_append, compareCode, code, sum]
      rfl

section Dispatch

variable {W S : Type} (env : Env W S) (img : Image S) (reg : Reg) (c : Core W)

theorem compare_taken (option : BfSwichOption) (small : option.imm.toNat < 2 ^ 31) (d : Nat) :
    (setOff (bpfJmpImm .eq reg option.imm 0) d).taken c =
      (option.imm.setWidth 64 == c.regs reg) := by
  show (c.regs reg == option.imm.signExtend 64) = _
  rw [signExtend_of_small small, Bool.beq_comm]

/-- Comparisons that do not hold are passed. -/
theorem compare_misses (gap : Nat) (before after : List BpfInsn) (pre post : List BfSwichOption)
    (small : ∀ option ∈ pre, option.imm.toNat < 2 ^ 31)
    (placed : img.insns = before ++ (compareCode reg gap (pre ++ post) ++ after))
    (misses : ∀ option ∈ pre, (option.imm.setWidth 64 == c.regs reg) = false) :
    Reaches env img (before.length, c) (before.length + pre.length, c) := by
  induction pre generalizing before gap with
  | nil => exact Relation.ReflTransGen.refl
  | cons option rest ih =>
      simp only [List.cons_append, compareCode] at placed
      have idle := compare_taken reg c option (small option (by simp))
        ((rest ++ post).length + gap)
      rw [misses option (by simp)] at idle
      have fetch : img.insns[before.length]? = some (setOff (bpfJmpImm .eq reg option.imm 0)
          ((rest ++ post).length + gap)) := by simp [placed]
      have one : step env img before.length c = .running (before.length + 1) c :=
        step_of_idle fetch rfl idle
      have tail := ih (gap + option.insns.length + 1)
        (before ++ [setOff (bpfJmpImm .eq reg option.imm 0) ((rest ++ post).length + gap)])
        (fun o mem => small o (List.mem_cons_of_mem _ mem)) (by simp [placed])
        (fun o mem => misses o (List.mem_cons_of_mem _ mem))
      rw [List.length_append, List.length_singleton, Nat.add_assoc, Nat.add_comm 1] at tail
      exact Relation.ReflTransGen.head (b := (before.length + 1, c)) one tail

/-- **Dispatch.**  The comparisons lead to the selected instructions, which stand in
the image as they are, and behind them the switch is left at its end. -/
theorem swichCode_dispatch {options : List BfSwichOption} {insns before after : List BpfInsn}
    (small : ∀ option ∈ options, option.imm.toNat < 2 ^ 31)
    (fits : options.length + 1 + bodiesLength options + insns.length ≤ 2 ^ 15)
    (placed : img.insns = before ++ (swichCode reg options insns ++ after)) :
    ∃ pre post, img.insns = pre ++ (swichSelect options insns (c.regs reg) ++ post) ∧
      Reaches env img (before.length, c) (pre.length, c) ∧
      ∀ c', Reaches env img
        (pre.length + (swichSelect options insns (c.regs reg)).length, c')
        (before.length + (swichCode reg options insns).length, c') := by
  unfold swichSelect
  cases found : options.find? (fun option => option.imm.setWidth 64 == c.regs reg) with
  | none =>
      have misses : ∀ option ∈ options, (option.imm.setWidth 64 == c.regs reg) = false := by
        intro option mem
        exact Bool.eq_false_iff.mpr (List.find?_eq_none.mp found option mem)
      have passed := compare_misses env img reg c 1 before
        (setOff (bpfJmpA 0) (bodiesLength options) ::
          (bodiesCode insns.length options ++ insns) ++ after)
        options [] small (by simp [placed, swichCode]) misses
      have fetch : img.insns[before.length + options.length]? =
          some (setOff (bpfJmpA 0) (bodiesLength options)) := by
        rw [placed, List.getElem?_append_right (Nat.le_add_right _ _), Nat.add_sub_cancel_left]
        simp [swichCode, compareCode_length]
      have jump : step env img (before.length + options.length) c =
          .running (before.length + options.length + 1 + bodiesLength options) c :=
        step_of_taken fetch rfl rfl rfl (by omega)
      refine ⟨before ++ (compareCode reg 1 options ++ setOff (bpfJmpA 0) (bodiesLength options) ::
        bodiesCode insns.length options), after, by simp [placed, swichCode], ?_, ?_⟩
      · have start : (before ++ (compareCode reg 1 options ++ setOff (bpfJmpA 0)
            (bodiesLength options) :: bodiesCode insns.length options)).length =
            before.length + options.length + 1 + bodiesLength options := by
          simp only [List.length_append, List.length_cons, compareCode_length, bodiesCode_length]
          omega
        rw [start]
        exact passed.tail jump
      · intro c'
        have done : (before ++ (compareCode reg 1 options ++ setOff (bpfJmpA 0)
            (bodiesLength options) :: bodiesCode insns.length options)).length + insns.length =
            before.length + (swichCode reg options insns).length := by
          simp only [List.length_append, List.length_cons, compareCode_length, bodiesCode_length,
            swichCode]
          omega
        show Reaches env img (_ + insns.length, c') _
        rw [done]
  | some option =>
      obtain ⟨hit, pre, post, rfl, misses⟩ := List.find?_eq_some_iff_append.mp found
      obtain ⟨a, b, code, len⟩ := compareCode_split reg 1 pre post option
      have passed := compare_misses env img reg c 1 before
        (setOff (bpfJmpA 0) (bodiesLength (pre ++ option :: post)) ::
          (bodiesCode insns.length (pre ++ option :: post) ++ insns) ++ after)
        pre (option :: post) (fun o mem => small o (List.mem_append_left _ mem))
        (by simp [placed, swichCode])
        (fun o mem => by simpa using misses o mem)
      have sizes : bodiesLength (pre ++ option :: post) =
          bodiesLength pre + (option.insns.length + 1 + bodiesLength post) := by
        rw [bodiesLength_append, bodiesLength]
      rw [List.length_append, List.length_cons, sizes] at fits
      have fetch : img.insns[before.length + pre.length]? =
          some (setOff (bpfJmpImm .eq reg option.imm 0)
            (post.length + (1 + bodiesLength pre))) := by
        rw [placed, List.getElem?_append_right (Nat.le_add_right _ _), Nat.add_sub_cancel_left,
          swichCode, code]
        simp [← len]
      have taken := compare_taken reg c option (small option (by simp))
        (post.length + (1 + bodiesLength pre))
      rw [hit] at taken
      have jump : step env img (before.length + pre.length) c =
          .running (before.length + pre.length + 1 + (post.length + (1 + bodiesLength pre))) c :=
        step_of_taken fetch rfl taken rfl (by omega)
      -- what stands in front of the body, and behind it
      let front := before ++ (compareCode reg 1 (pre ++ option :: post) ++
        setOff (bpfJmpA 0) (bodiesLength (pre ++ option :: post)) ::
          bodiesCode (bodiesLength (option :: post) + insns.length) pre)
      let back := setOff (bpfJmpA 0) (bodiesLength post + insns.length) ::
        (bodiesCode insns.length post ++ insns ++ after)
      have start : front.length =
          before.length + pre.length + 1 + (post.length + (1 + bodiesLength pre)) := by
        simp only [front, List.length_append, List.length_cons, compareCode_length,
          bodiesCode_length]
        omega
      have shape : img.insns = front ++ (option.insns ++ back) := by
        rw [placed, swichCode, bodiesCode_append]
        simp [front, back, bodiesCode]
      refine ⟨front, back, shape, ?_, ?_⟩
      · rw [start]
        exact passed.tail jump
      · intro c'
        have fetch' : img.insns[front.length + option.insns.length]? =
            some (setOff (bpfJmpA 0) (bodiesLength post + insns.length)) := by
          rw [shape]
          simp [back]
        have leave : step env img (front.length + option.insns.length) c' =
            .running (front.length + option.insns.length + 1 +
              (bodiesLength post + insns.length)) c' :=
          step_of_taken fetch' rfl rfl rfl (by omega)
        have done : front.length + option.insns.length + 1 +
            (bodiesLength post + insns.length) =
            before.length + (swichCode reg (pre ++ option :: post) insns).length := by
          rw [start, swichCode_length, sizes, List.length_append, List.length_cons]
          omega
        rw [done] at leave
        exact Relation.ReflTransGen.single leave

end Dispatch

/-! ## The switch as a whole -/

/-- **Switches.**  Whatever the program, the options and the register: the generated code
leads to the instructions selected for the register, with the state unchanged.  There
the image executes as these instructions do alone, and where they end it goes on with the
first instruction behind the switch. -/
theorem bfSwichGenerate_performs {W S : Type} (p : BfProgram) (swich : BfSwich)
    (insns : List BpfInsn) (default : swich.defaultOpt = some insns)
    (small : ∀ option ∈ swich.options, option.imm.toNat < 2 ^ 31)
    (enclosed : ∀ option ∈ swich.options, Enclosed option.insns)
    (enclosedDefault : Enclosed insns)
    (fits : swich.options.length + 1 + bodiesLength swich.options + insns.length ≤ 2 ^ 15) :
    ∃ p', bfSwichGenerate swich p = .ok ((), p') ∧ p.img <+: p'.img ∧
      p'.img.length = p.img.length +
        (swich.options.length + 1 + bodiesLength swich.options + insns.length) ∧
      ∀ (env : Env W S) (img : Image S), p'.img <+: img.insns → ∀ c : Core W, ∃ start,
        Performs env img (swichSelect swich.options insns (c.regs swich.reg)) p.img.length start
          p'.img.length c := by
  obtain ⟨reg, options, defaultOpt⟩ := swich
  cases default
  obtain ⟨p', ran, shape⟩ := bfSwichGenerate_img reg options insns p
  have size : p'.img.length =
      p.img.length + (options.length + 1 + bodiesLength options + insns.length) := by
    rw [shape, List.length_append, swichCode_length]
  refine ⟨p', ran, ⟨_, shape.symm⟩, size, ?_⟩
  intro env img ⟨after, whole⟩ c
  have placed : img.insns = p.img ++ (swichCode reg options insns ++ after) := by
    rw [← whole, shape, List.append_assoc]
  obtain ⟨pre, post, stands, dispatched, left⟩ :=
    swichCode_dispatch env img reg c small fits placed
  have closed : Enclosed (swichSelect options insns (c.regs reg)) := by
    unfold swichSelect
    split
    · rename_i option found
      exact enclosed option (List.mem_of_find?_eq_some found)
    · exact enclosedDefault
  rw [swichCode_length, ← size] at left
  exact ⟨pre.length, Performs.of_placed closed stands dispatched left⟩

/-- Two options for one value, the first with a loop. -/
def countdownSwich : BfSwich :=
  { reg := 7
    options := [
      ⟨6, [bpfMov64Imm 1 3, bpfAlu64Imm .add 1 (-1), bpfJmpImm .ne 1 0 (-2)]⟩,
      ⟨6, [bpfMov64Imm 1 9]⟩,
      ⟨17, []⟩]
    defaultOpt := some [bpfMov64Imm 0 1, bpfExitInsn] }

/-- For the value 6 the loop of the first option runs, for any other than 6 and 17 the
default exits. -/
theorem countdownSwich_performs :
    ∃ p', bfSwichGenerate countdownSwich sampleProgram = .ok ((), p') ∧
      (∃ c', Reaches (drawEnv 0) (⟨p'.img, fun _ => none⟩ : Image BfElfstubId)
        (sampleProgram.img.length, blankCore.setReg 7 6) (p'.img.length, c') ∧
          c'.regs 1 = 0) ∧
      ∃ c', Returns (drawEnv 0) (⟨p'.img, fun _ => none⟩ : Image BfElfstubId)
        sampleProgram.img.length (blankCore.setReg 7 5) c' ∧ c'.regs 0 = 1 := by
  obtain ⟨p', ran, -, -, performs⟩ := bfSwichGenerate_performs (W := Unit) (S := BfElfstubId)
    sampleProgram countdownSwich [bpfMov64Imm 0 1, bpfExitInsn] rfl (by decide) (by decide)
    (by decide) (by decide)
  obtain ⟨start, six⟩ := performs (drawEnv 0) ⟨p'.img, fun _ => none⟩ ⟨[], by simp⟩
    (blankCore.setReg 7 6)
  obtain ⟨start', five⟩ := performs (drawEnv 0) ⟨p'.img, fun _ => none⟩ ⟨[], by simp⟩
    (blankCore.setReg 7 5)
  refine ⟨p', ran, ⟨_, six.falls _ (reaches_of_stepN (n := 7) rfl), rfl⟩, ?_⟩
  exact ⟨_, five.returns _ (returns_iff_run.mpr ⟨2, rfl⟩), rfl⟩

end Bpfilter
