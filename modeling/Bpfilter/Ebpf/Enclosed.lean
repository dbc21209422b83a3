/-
# Ebpf.Enclosed -- code that keeps to itself can be placed anywhere

A list of instructions is `Enclosed` when none of them sends control outside of it:
a jump may reach every slot and the end, a two-slot load has both slots, and there is
no call to another part of the program.  Such code has a meaning of its own, the
execution of the image that holds nothing else (`alone`).

`Enclosed.step_eq` says that an image containing the code does, inside it, exactly
what the code does alone, moved by where it stands.  Runs (`Enclosed.reaches`) and
exits (`Enclosed.returns`) follow.  `Performs` is what a dispatcher is for: from its
first slot the image does what the code does alone, then goes on behind it.
-/
import Bpfilter.Ebpf.Machine

namespace Ebpf

set_option autoImplicit false

/-- From slot `k` of `len`, the instruction goes on inside or at the end. -/
def BpfInsn.StaysAt (i : BpfInsn) (k len : Nat) : Prop :=
  match i.code with
  | .ja | .jmp _ _ => 0 ≤ (k : Int) + 1 + i.off.toInt ∧ (k : Int) + 1 + i.off.toInt ≤ len
  | .ldImm64 => k + 1 < len
  | .call => i.src ≠ pseudoCall
  | _ => True

instance BpfInsn.decidableStaysAt (i : BpfInsn) (k len : Nat) : Decidable (i.StaysAt k len) := by
  unfold BpfInsn.StaysAt
  split <;> infer_instance

/-- Code that never sends control outside of itself. -/
def Enclosed (code : List BpfInsn) : Prop :=
  ∀ k, (inside : k < code.length) → code[k].StaysAt k code.length

instance decidableEnclosed (code : List BpfInsn) : Decidable (Enclosed code) :=
  inferInstanceAs (Decidable (∀ k, (inside : k < code.length) → code[k].StaysAt k code.length))

/-- The code as a program of its own. -/
def alone (S : Type) (code : List BpfInsn) : Image S := ⟨code, fun _ => none⟩

/-- An outcome, with the positions moved. -/
def Outcome.shift {W : Type} (base : Nat) : Outcome W → Outcome W
  | .running pc c => .running (base + pc) c
  | .done c => .done c
  | .fault => .fault

/-! ## Single jumps -/

section Jumps

variable {W S : Type} {env : Env W S} {img : Image S} {pc : Nat} {i : BpfInsn}

theorem step_of_taken {d : Nat} {c : Core W} (fetch : img.insns[pc]? = some i)
    (jump : i.isJump = true) (go : i.taken c = true) (off : i.off = BitVec.ofNat 16 d)
    (short : d < 2 ^ 15) : step env img pc c = .running (pc + 1 + d) c := by
  have value : i.off.toInt = d := by
    have low : (BitVec.ofNat 16 d).toNat = d := by
      rw [BitVec.toNat_ofNat, Nat.mod_eq_of_lt (by omega)]
    rw [off, BitVec.toInt_eq_toNat_of_lt (by omega), low]
  have landing : ((pc : Int) + 1 + d).toNat = pc + 1 + d := by omega
  simp only [step, fetch, i.exec_of_isJump env _ c jump, go, if_true, value]
  rw [if_pos (by omega), landing]

theorem step_of_idle {c : Core W} (fetch : img.insns[pc]? = some i) (jump : i.isJump = true)
    (idle : i.taken c = false) : step env img pc c = .running (pc + 1) c := by
  have landing : ((pc : Int) + 1 + 0).toNat = pc + 1 := by omega
  simp only [step, fetch, i.exec_of_isJump env _ c jump, idle, Bool.false_eq_true, if_false]
  rw [if_pos (by omega), landing]

end Jumps

/-! ## Moving code -/

variable {W S : Type} {env : Env W S} {img : Image S} {before code after : List BpfInsn}

namespace Enclosed

/-- What one instruction of enclosed code can do with the program counter. -/
theorem exec_stays (env : Env W S) {i : BpfInsn} {k len : Nat} (stays : i.StaysAt k len)
    (inside : k < len) (hi : Option (BitVec 32)) (c : Core W) :
    (∃ off c', i.exec env hi c = .goto off c' ∧ 0 ≤ (k : Int) + 1 + off ∧
        (k : Int) + 1 + off ≤ len) ∨
      (∃ c', i.exec env hi c = .exit c') ∨ i.exec env hi c = .fault := by
  unfold BpfInsn.StaysAt at stays
  have next : (0 : Int) ≤ (k : Int) + 1 + 0 ∧ (k : Int) + 1 + 0 ≤ len := by omega
  cases code : i.code with
  | ja =>
      simp only [code] at stays
      exact .inl ⟨i.off.toInt, c, by simp only [BpfInsn.exec, code], stays⟩
  | jmp op src =>
      simp only [code] at stays
      cases go : i.taken c with
      | true => exact .inl ⟨i.off.toInt, c, by simp only [BpfInsn.exec, code, go, if_true], stays⟩
      | false =>
          refine .inl ⟨0, c, ?_, next⟩
          simp only [BpfInsn.exec, code, go, Bool.false_eq_true, if_false]
  | ldImm64 =>
      simp only [code] at stays
      cases hi with
      | none => exact .inr (.inr (by simp only [BpfInsn.exec, code]))
      | some hi =>
          refine .inl ⟨1, c.setReg i.dst (i.immValue env hi), ?_, by omega⟩
          simp only [BpfInsn.exec, code]
  | call =>
      simp only [code] at stays
      simp only [BpfInsn.exec, code, if_neg stays]
      split
      · exact .inl ⟨0, _, rfl, next⟩
      · exact .inl ⟨0, _, rfl, next⟩
  | exit => exact .inr (.inl ⟨c, by simp only [BpfInsn.exec, code]⟩)
  | reserved => exact .inr (.inr (by simp only [BpfInsn.exec, code]))
  | _ => exact .inl ⟨0, _, by simp only [BpfInsn.exec, code]; rfl, next⟩

/-- The slot after an instruction is read by two-slot loads only. -/
theorem exec_next {i : BpfInsn} {k len : Nat} (stays : i.StaysAt k len)
    {hi hi' : Option (BitVec 32)} (same : k + 1 < len → hi = hi') (c : Core W) :
    i.exec env hi c = i.exec env hi' c := by
  unfold BpfInsn.StaysAt at stays
  cases code : i.code with
  | ldImm64 =>
      simp only [code] at stays
      rw [same stays]
  | _ => simp only [BpfInsn.exec, code]

/-- **Position independence.**  Inside enclosed code the image does what the code does
alone, moved by where the code stands. -/
theorem step_eq (enclosed : Enclosed code) (placed : img.insns = before ++ (code ++ after))
    {k : Nat} (inside : k < code.length) (c : Core W) :
    step env img (before.length + k) c = (step env (alone S code) k c).shift before.length := by
  have shown : ∀ j, j < code.length → img.insns[before.length + j]? = code[j]? := by
    intro j short
    rw [placed, List.getElem?_append_right (Nat.le_add_right _ _), Nat.add_sub_cancel_left,
      List.getElem?_append_left short]
  have fetch : code[k]? = some code[k] := List.getElem?_eq_getElem inside
  have same : code[k].exec env (img.insns[before.length + k + 1]?.map (·.imm)) c =
      code[k].exec env (code[k + 1]?.map (·.imm)) c := by
    apply exec_next (enclosed k inside)
    intro more
    rw [Nat.add_assoc, shown _ more]
  simp only [step, alone, shown k inside, fetch, same]
  rcases exec_stays env (enclosed k inside) inside (code[k + 1]?.map (·.imm)) c with
    ⟨off, c', flow, low, -⟩ | ⟨c', flow⟩ | flow
  · have landing : (((before.length + k : Nat) : Int) + 1 + off).toNat =
        before.length + ((k : Int) + 1 + off).toNat := by omega
    simp only [flow]
    rw [if_pos low, if_pos (by omega), landing]
    rfl
  · simp only [flow, Outcome.shift]
  · simp only [flow, Outcome.shift]

/-- One step of enclosed code ends inside or at the end. -/
theorem step_inside (enclosed : Enclosed code) {k j : Nat} {c c' : Core W}
    (one : step env (alone S code) k c = .running j c') : k < code.length ∧ j ≤ code.length := by
  have inside : k < code.length := by
    by_contra past
    have missing : code[k]? = none := List.getElem?_eq_none (by omega)
    simp only [step, alone, missing] at one
    cases one
  have fetch : code[k]? = some code[k] := List.getElem?_eq_getElem inside
  refine ⟨inside, ?_⟩
  simp only [step, alone, fetch] at one
  rcases exec_stays env (enclosed k inside) inside (code[k + 1]?.map (·.imm)) c with
    ⟨off, d, flow, low, high⟩ | ⟨d, flow⟩ | flow
  · simp only [flow] at one
    rw [if_pos low] at one
    cases one
    omega
  · simp only [flow] at one
    cases one
  · simp only [flow] at one
    cases one

/-- Runs of enclosed code stay in it, and the image does them where the code stands. -/
theorem reaches (enclosed : Enclosed code) (placed : img.insns = before ++ (code ++ after))
    {k j : Nat} {c c' : Core W} (start : k ≤ code.length)
    (run : Reaches env (alone S code) (k, c) (j, c')) :
    j ≤ code.length ∧ Reaches env img (before.length + k, c) (before.length + j, c') := by
  have general : ∀ y, Reaches env (alone S code) (k, c) y → y.1 ≤ code.length ∧
      Reaches env img (before.length + k, c) (before.length + y.1, y.2) := by
    intro y path
    induction path with
    | refl => exact ⟨start, Relation.ReflTransGen.refl⟩
    | @tail y z _ one ih =>
        obtain ⟨inside, stays⟩ := enclosed.step_inside one
        have moved : step env img (before.length + y.1) y.2 =
            .running (before.length + z.1) z.2 := by
          rw [enclosed.step_eq placed inside, one]
          rfl
        exact ⟨stays, ih.2.tail moved⟩
  exact general (j, c') run

theorem returns (enclosed : Enclosed code) (placed : img.insns = before ++ (code ++ after))
    {k : Nat} {c final : Core W} (start : k ≤ code.length)
    (run : Returns env (alone S code) k c final) :
    Returns env img (before.length + k) c final := by
  obtain ⟨j, c', path, done⟩ := run
  have inside : j < code.length := by
    by_contra past
    have missing : code[j]? = none := List.getElem?_eq_none (by omega)
    simp only [step, alone, missing] at done
    cases done
  refine ⟨before.length + j, c', (enclosed.reaches placed start path).2, ?_⟩
  rw [enclosed.step_eq placed inside, done]
  rfl

end Enclosed

/-- From `entry` in state `c`, the image gets to a copy of `code` at `start` with the
state unchanged, does there what `code` does alone, and goes on at `next` where `code`
ends. -/
structure Performs (env : Env W S) (img : Image S) (code : List BpfInsn) (entry start next : Nat)
    (c : Core W) : Prop where
  dispatched : Reaches env img (entry, c) (start, c)
  lockstep : ∀ k c', k < code.length →
    step env img (start + k) c' = (step env (alone S code) k c').shift start
  follows : ∀ k c', Reaches env (alone S code) (0, c) (k, c') →
    k ≤ code.length ∧ Reaches env img (entry, c) (start + k, c')
  falls : ∀ c', Reaches env (alone S code) (0, c) (code.length, c') →
    Reaches env img (entry, c) (next, c')
  returns : ∀ final, Returns env (alone S code) 0 c final → Returns env img entry c final

/-- A copy of enclosed code with a way to it and a way on. -/
theorem Performs.of_placed {entry next : Nat} {c : Core W} (enclosed : Enclosed code)
    (placed : img.insns = before ++ (code ++ after))
    (dispatched : Reaches env img (entry, c) (before.length, c))
    (left : ∀ c', Reaches env img (before.length + code.length, c') (next, c')) :
    Performs env img code entry before.length next c := by
  have follows : ∀ k c', Reaches env (alone S code) (0, c) (k, c') →
      k ≤ code.length ∧ Reaches env img (entry, c) (before.length + k, c') := by
    intro k c' run
    obtain ⟨stays, moved⟩ := enclosed.reaches placed (Nat.zero_le _) run
    exact ⟨stays, dispatched.trans moved⟩
  refine ⟨dispatched, ?_, follows, ?_, ?_⟩
  · intro k c' inside
    exact enclosed.step_eq placed inside c'
  · intro c' run
    exact (follows _ c' run).2.trans (left c')
  · intro final run
    exact Returns.of_reaches dispatched (enclosed.returns placed (Nat.zero_le _) run)

end Ebpf
