/-
# Ebpf.Fragment -- code with open exits

A code generator emits a program piece by piece.  A piece is a list of `Item`s:
plain instructions, jumps whose target is outside the piece and not known yet
(`out`), and calls to a subprogram whose address is not known yet (`call`).

`Runs` is the small-step meaning of a piece on its own.  Its control flow may be
arbitrary as long as it stays inside; it ends by falling through the last item,
by a taken `out` jump, or by `exit` (`End`).  `Embedded` says that an image
contains the piece at some position with its holes filled, every `out` jump
going to one target.  `Runs.simulated` is the link between the two: whatever the piece does on
its own, the image does from that position.

Generated code is mostly straight-line with forward jumps.  For such a piece
`eval` computes the end by recursion on the list, carrying the number of items
still to be skipped; it composes over concatenation (`eval_append_fall`) and is
sound for `Runs` (`runs_of_eval`).  One equation per instruction executes a piece
symbolically (`eval_alu64Imm`, `eval_ldx`, `eval_jump`, …).
-/
import Bpfilter.Ebpf.Machine

namespace Ebpf

set_option autoImplicit false

/-- One slot of a piece of code. -/
inductive Item (S : Type) where
  | insn (i : BpfInsn)
  | out (i : BpfInsn)
  | call (s : S)
  deriving DecidableEq

/-- How a piece of code ends. -/
inductive End (W : Type) where
  | fall (c : Core W)
  | out (c : Core W)
  | exit (c : Core W)

/-- What one item does: move inside the piece, leave it, exit, or fault. -/
inductive Move (W : Type) where
  | goto (off : Int) (c : Core W)
  | out (c : Core W)
  | exit (c : Core W)
  | fault

variable {W S : Type}

/-- The immediate of a slot that is plainly an instruction. -/
def Item.imm? : Item S → Option (BitVec 32)
  | .insn i => some i.imm
  | _ => none

def Item.exec (env : Env W S) (it : Item S) (hi : Option (BitVec 32)) (c : Core W) : Move W :=
  match it with
  | .insn i =>
      match i.exec env hi c with
      | .goto off c' => .goto off c'
      | .exit c' => .exit c'
      | .subcall _ _ => .fault
      | .fault => .fault
  | .out i => if i.isJump then (if i.taken c then .out c else .goto 0 c) else .fault
  | .call s => .goto 0 (c.call (env.sub s))

/-! ## Small-step meaning -/

/-- The piece `items`, entered at position `k`, ends with `e`. -/
inductive Runs (env : Env W S) (items : List (Item S)) : Nat → Core W → End W → Prop where
  | fall (c : Core W) : Runs env items items.length c (.fall c)
  | goto {k j : Nat} {it : Item S} {off : Int} {c c' : Core W} {e : End W}
      (fetch : items[k]? = some it)
      (move : it.exec env (items[k + 1]?.bind Item.imm?) c = .goto off c')
      (target : (k : Int) + 1 + off = j) (inside : j ≤ items.length)
      (rest : Runs env items j c' e) : Runs env items k c e
  | out {k : Nat} {it : Item S} {c c' : Core W} (fetch : items[k]? = some it)
      (move : it.exec env (items[k + 1]?.bind Item.imm?) c = .out c') :
      Runs env items k c (.out c')
  | exit {k : Nat} {it : Item S} {c c' : Core W} (fetch : items[k]? = some it)
      (move : it.exec env (items[k + 1]?.bind Item.imm?) c = .exit c') :
      Runs env items k c (.exit c')

/-- A piece has one end. -/
theorem Runs.unique {env : Env W S} {items : List (Item S)} {k : Nat} {c : Core W} {e e' : End W}
    (first : Runs env items k c e) (second : Runs env items k c e') : e = e' := by
  induction first with
  | fall c =>
      cases second with
      | fall => rfl
      | goto fetch => simp at fetch
      | out fetch => simp at fetch
      | exit fetch => simp at fetch
  | goto fetch move land _ _ ih =>
      cases second with
      | fall => simp at fetch
      | goto fetch' move' land' _ rest' =>
          cases fetch.symm.trans fetch'
          cases move.symm.trans move'
          cases Int.ofNat.inj (land.symm.trans land')
          exact ih rest'
      | out fetch' move' =>
          cases fetch.symm.trans fetch'
          cases move.symm.trans move'
      | exit fetch' move' =>
          cases fetch.symm.trans fetch'
          cases move.symm.trans move'
  | out fetch move =>
      cases second with
      | fall => simp at fetch
      | goto fetch' move' =>
          cases fetch.symm.trans fetch'
          cases move.symm.trans move'
      | out fetch' move' =>
          cases fetch.symm.trans fetch'
          cases move.symm.trans move'
          rfl
      | exit fetch' move' =>
          cases fetch.symm.trans fetch'
          cases move.symm.trans move'
  | exit fetch move =>
      cases second with
      | fall => simp at fetch
      | goto fetch' move' =>
          cases fetch.symm.trans fetch'
          cases move.symm.trans move'
      | out fetch' move' =>
          cases fetch.symm.trans fetch'
          cases move.symm.trans move'
      | exit fetch' move' =>
          cases fetch.symm.trans fetch'
          cases move.symm.trans move'
          rfl

/-! ## Forward evaluation -/

/-- Result of forward evaluation; `fall` carries the number of items a jump still
has to skip past the end. -/
inductive Eval (W : Type) where
  | fall (left : Nat) (c : Core W)
  | out (c : Core W)
  | exit (c : Core W)
  | fault

/-- Evaluate a piece whose jumps all go forward, skipping `k` items first. -/
def eval (env : Env W S) : Nat → List (Item S) → Core W → Eval W
  | k, [], c => .fall k c
  | k + 1, _ :: rest, c => eval env k rest c
  | 0, it :: rest, c =>
      match it.exec env (rest.head?.bind Item.imm?) c with
      | .goto off c' => if 0 ≤ off then eval env off.toNat rest c' else .fault
      | .out c' => .out c'
      | .exit c' => .exit c'
      | .fault => .fault

@[simp] theorem eval_nil (env : Env W S) (k : Nat) (c : Core W) :
    eval env k [] c = .fall k c := by
  cases k <;> rfl

@[simp] theorem eval_skip (env : Env W S) (k : Nat) (it : Item S) (rest : List (Item S))
    (c : Core W) : eval env (k + 1) (it :: rest) c = eval env k rest c := rfl

theorem eval_skip_all (env : Env W S) (k : Nat) (items : List (Item S)) (c : Core W) :
    eval env (items.length + k) items c = .fall k c := by
  induction items with
  | nil => simp
  | cons it rest ih =>
      rw [List.length_cons, Nat.add_right_comm]
      exact ih

/-- The last slot of `f` never reads the slot after it unless it faults in `f`. -/
theorem exec_hi_irrelevant (env : Env W S) (it : Item S) (hi : Option (BitVec 32)) (c : Core W)
    (fine : it.exec env none c ≠ .fault) : it.exec env hi c = it.exec env none c := by
  cases it with
  | insn i =>
      cases code : i.code <;> simp [Item.exec, BpfInsn.exec, code] at fine ⊢
  | out i => rfl
  | call s => rfl

theorem eval_append (env : Env W S) (k : Nat) (f g : List (Item S)) (c : Core W)
    (fine : eval env k f c ≠ .fault) :
    eval env k (f ++ g) c =
      match eval env k f c with
      | .fall left c' => eval env left g c'
      | .out c' => .out c'
      | .exit c' => .exit c'
      | .fault => .fault := by
  induction f generalizing k c with
  | nil => simp
  | cons it rest ih =>
      cases k with
      | succ k =>
          simp only [List.cons_append, eval_skip] at fine ⊢
          exact ih k c fine
      | zero =>
          have same : it.exec env ((rest ++ g).head?.bind Item.imm?) c =
              it.exec env (rest.head?.bind Item.imm?) c := by
            cases rest with
            | nil =>
                refine exec_hi_irrelevant env it _ c ?_
                intro faults
                apply fine
                simp [eval, faults]
            | cons _ _ => rfl
          simp only [List.cons_append, eval] at fine ⊢
          rw [same]
          cases moved : it.exec env (rest.head?.bind Item.imm?) c with
          | goto off c' =>
              simp only [moved] at fine ⊢
              split
              · rename_i forward
                rw [if_pos forward] at fine
                exact ih _ _ fine
              · rfl
          | out c' => rfl
          | exit c' => rfl
          | fault => rfl

theorem eval_append_fall {env : Env W S} {k left : Nat} {f : List (Item S)} {c c' : Core W}
    (g : List (Item S)) (falls : eval env k f c = .fall left c') :
    eval env k (f ++ g) c = eval env left g c' := by
  rw [eval_append env k f g c (by simp [falls]), falls]

theorem eval_append_out {env : Env W S} {k : Nat} {f : List (Item S)} {c c' : Core W}
    (g : List (Item S)) (leaves : eval env k f c = .out c') :
    eval env k (f ++ g) c = .out c' := by
  rw [eval_append env k f g c (by simp [leaves]), leaves]

theorem eval_append_exit {env : Env W S} {k : Nat} {f : List (Item S)} {c c' : Core W}
    (g : List (Item S)) (exits : eval env k f c = .exit c') :
    eval env k (f ++ g) c = .exit c' := by
  rw [eval_append env k f g c (by simp [exits]), exits]

/-- The end an evaluation stands for; a jump past the end has none. -/
def Eval.end? : Eval W → Option (End W)
  | .fall 0 c => some (.fall c)
  | .fall (_ + 1) _ => none
  | .out c => some (.out c)
  | .exit c => some (.exit c)
  | .fault => none

/-- Forward evaluation is sound, at any position of a larger piece. -/
theorem runs_of_eval_suffix (env : Env W S) (done rest : List (Item S)) (k : Nat) (c : Core W)
    (e : End W) (ends : (eval env k rest c).end? = some e) :
    Runs env (done ++ rest) (done.length + k) c e := by
  induction rest generalizing done k c with
  | nil =>
      cases k with
      | zero =>
          cases ends
          simpa using Runs.fall c
      | succ k => simp [Eval.end?] at ends
  | cons it rest ih =>
      have shift : ∀ j, done ++ it :: rest = (done ++ [it]) ++ rest ∧
          done.length + (j + 1) = (done ++ [it]).length + j := by
        intro j; simp; omega
      cases k with
      | succ k =>
          rw [(shift k).1, (shift k).2]
          exact ih _ _ _ ends
      | zero =>
          have fetch : (done ++ it :: rest)[done.length]? = some it := by simp
          have next : (done ++ it :: rest)[done.length + 1]? = rest.head? := by
            simp [List.getElem?_append_right, List.head?_eq_getElem?]
          simp only [eval] at ends
          split at ends
          · rename_i off c' moved
            split at ends
            · rename_i forward
              have tail := ih (done ++ [it]) off.toNat c' ends
              rw [← (shift off.toNat).1, ← (shift off.toNat).2] at tail
              refine Runs.goto fetch (by rw [next]; exact moved) ?_ ?_ tail
              · push_cast; omega
              · -- a jump past the end would not have an end
                by_contra past
                have far : rest.length < off.toNat := by
                  simp only [List.length_append, List.length_cons] at past
                  omega
                obtain ⟨extra, hExtra⟩ := Nat.exists_eq_add_of_lt far
                rw [show off.toNat = rest.length + (extra + 1) by omega, eval_skip_all] at ends
                simp [Eval.end?] at ends
            · simp [Eval.end?] at ends
          · rename_i c' moved
            cases ends
            exact Runs.out fetch (by rw [next]; exact moved)
          · rename_i c' moved
            cases ends
            exact Runs.exit fetch (by rw [next]; exact moved)
          · simp [Eval.end?] at ends

theorem runs_of_eval {env : Env W S} {items : List (Item S)} {c : Core W} {e : End W}
    (ends : (eval env 0 items c).end? = some e) : Runs env items 0 c e := by
  simpa using runs_of_eval_suffix env [] items 0 c e ends

/-! ## Symbolic execution -/

section Symbolic

variable (env : Env W S) (rest : List (Item S)) (c : Core W)

theorem eval_mov64Imm (dst : Reg) (imm : BitVec 32) :
    eval env 0 (.insn (bpfMov64Imm dst imm) :: rest) c =
      eval env 0 rest (c.setReg dst (imm.signExtend 64)) := rfl

theorem eval_mov32Imm (dst : Reg) (imm : BitVec 32) :
    eval env 0 (.insn (bpfMov32Imm dst imm) :: rest) c =
      eval env 0 rest (c.setReg dst (imm.setWidth 64)) := by
  have exact32 : imm.setWidth 64 = ((imm.signExtend 64).setWidth 32).setWidth 64 := by
    rw [setWidth_signExtend]
  rw [exact32]
  rfl

theorem eval_mov64Reg (dst src : Reg) :
    eval env 0 (.insn (bpfMov64Reg dst src) :: rest) c =
      eval env 0 rest (c.setReg dst (c.regs src)) := rfl

theorem eval_alu64Imm (op : AluOp) (dst : Reg) (imm : BitVec 32) :
    eval env 0 (.insn (bpfAlu64Imm op dst imm) :: rest) c =
      eval env 0 rest (c.setReg dst (op.eval (c.regs dst) (imm.signExtend 64))) := rfl

theorem eval_alu64Reg (op : AluOp) (dst src : Reg) :
    eval env 0 (.insn (bpfAlu64Reg op dst src) :: rest) c =
      eval env 0 rest (c.setReg dst (op.eval (c.regs dst) (c.regs src))) := rfl

theorem eval_alu32Reg (op : AluOp) (dst src : Reg) :
    eval env 0 (.insn (bpfAlu32Reg op dst src) :: rest) c =
      eval env 0 rest (c.setReg dst
        ((op.eval ((c.regs dst).setWidth 32) ((c.regs src).setWidth 32)).setWidth 64)) := rfl

theorem eval_alu32Imm (op : AluOp) (dst : Reg) (imm : BitVec 32) :
    eval env 0 (.insn (bpfAlu32Imm op dst imm) :: rest) c =
      eval env 0 rest (c.setReg dst ((op.eval ((c.regs dst).setWidth 32) imm).setWidth 64)) := by
  have exact32 : op.eval ((c.regs dst).setWidth 32) imm =
      op.eval ((c.regs dst).setWidth 32) ((imm.signExtend 64).setWidth 32) := by
    rw [setWidth_signExtend]
  rw [exact32]
  rfl

theorem eval_ldx (size : Size) (dst src : Reg) (off : BitVec 16) :
    eval env 0 (.insn (bpfLdxMem size dst src off) :: rest) c =
      eval env 0 rest
        (c.setReg dst (c.mem.load (c.regs src + off.signExtend 64) size.bytes)) := rfl

theorem eval_stx (size : Size) (dst src : Reg) (off : BitVec 16) :
    eval env 0 (.insn (bpfStxMem size dst src off) :: rest) c =
      eval env 0 rest
        (c.storeMem (c.regs dst + off.signExtend 64) size.bytes (c.regs src)) := rfl

theorem eval_st (size : Size) (dst : Reg) (off : BitVec 16) (imm : BitVec 32) :
    eval env 0 (.insn (bpfStMem size dst off imm) :: rest) c =
      eval env 0 rest
        (c.storeMem (c.regs dst + off.signExtend 64) size.bytes (imm.signExtend 64)) := rfl

/-- A 64-bit constant takes two slots. -/
theorem eval_ldImm64 (dst : Reg) (value : BitVec 64) :
    eval env 0 (.insn (bpfLdImm64Lo dst 0 value) :: .insn (bpfLdImm64Hi value) :: rest) c =
      eval env 0 rest (c.setReg dst value) := by
  have whole : (value >>> 32).setWidth 32 ++ value.setWidth 32 = value := by
    apply BitVec.eq_of_toNat_eq
    have bound := value.isLt
    rw [BitVec.toNat_append, ← Nat.shiftLeft_add_eq_or_of_lt (BitVec.isLt _)]
    simp only [BitVec.toNat_setWidth, BitVec.toNat_ushiftRight, Nat.shiftLeft_eq,
      Nat.shiftRight_eq_div_pow]
    omega
  have loads : (bpfLdImm64Lo dst 0 value).exec env (some (bpfLdImm64Hi value).imm) c =
      .goto 1 (c.setReg dst value) := by
    conv_rhs => rw [← whole]
    rfl
  simp only [eval, Item.exec, List.head?_cons, Option.bind_some, Item.imm?, loads]
  rfl

/-- A jump inside the piece, past `d` items. -/
theorem eval_jump {i : BpfInsn} (jump : i.isJump = true) {d : Nat} (short : d < 2 ^ 15)
    (skips : i.off = BitVec.ofNat 16 d) :
    eval env 0 (.insn i :: rest) c = eval env (if i.taken c then d else 0) rest c := by
  have value : i.off.toInt = d := by
    have low : (BitVec.ofNat 16 d).toNat = d := by
      rw [BitVec.toNat_ofNat, Nat.mod_eq_of_lt (by omega)]
    rw [skips, BitVec.toInt_eq_toNat_of_lt (by omega), low]
  simp only [eval, Item.exec, i.exec_of_isJump env _ c jump]
  cases i.taken c <;> simp [value]

/-- A jump out of the piece. -/
theorem eval_out {i : BpfInsn} (jump : i.isJump = true) :
    eval env 0 (.out i :: rest) c = if i.taken c then .out c else eval env 0 rest c := by
  simp only [eval, Item.exec, jump, if_true]
  cases i.taken c <;> simp

end Symbolic

/-! ## Pieces inside an image -/

/-- `i` is the item with its hole filled, at position `pc`: an `out` jump goes to
`target`, a call to the entry point of its subprogram. -/
def Item.Filled (img : Image S) (pc target : Nat) (it : Item S) (i : BpfInsn) : Prop :=
  match it with
  | .insn j => i = j
  | .out j => i = { j with off := i.off } ∧ (pc : Int) + 1 + i.off.toInt = target
  | .call s =>
      i.code = .call ∧ i.src = pseudoCall ∧ 0 ≤ (pc : Int) + 1 + i.imm.toInt ∧
        img.entry ((pc : Int) + 1 + i.imm.toInt).toNat = some s

/-- The image contains the piece at `base`, its `out` jumps going to `target`. -/
def Embedded (img : Image S) (base target : Nat) (items : List (Item S)) : Prop :=
  ∀ k it, items[k]? = some it →
    ∃ i, img.insns[base + k]? = some i ∧ it.Filled img (base + k) target i

variable {env : Env W S} {img : Image S} {base target : Nat} {items : List (Item S)}

theorem Embedded.append_left {f g : List (Item S)} (emb : Embedded img base target (f ++ g)) :
    Embedded img base target f := by
  intro k it fetch
  refine emb k it ?_
  rw [List.getElem?_append_left (List.getElem?_eq_some_iff.mp fetch).1]
  exact fetch

theorem Embedded.append_right {f g : List (Item S)} (emb : Embedded img base target (f ++ g)) :
    Embedded img (base + f.length) target g := by
  intro k it fetch
  have := emb (f.length + k) it (by
    rw [List.getElem?_append_right (by omega), Nat.add_sub_cancel_left]
    exact fetch)
  rwa [← Nat.add_assoc] at this

/-- The slot after an item reads the same in the image wherever the piece shows it. -/
theorem Embedded.hi {k : Nat} {hi : BitVec 32} (emb : Embedded img base target items)
    (known : items[k + 1]?.bind Item.imm? = some hi) :
    img.insns[base + k + 1]?.map (·.imm) = some hi := by
  cases fetch : items[k + 1]? with
  | none => simp [fetch] at known
  | some it =>
      rw [fetch] at known
      obtain ⟨i, at_, filled⟩ := emb (k + 1) it fetch
      cases it with
      | insn j =>
          cases filled
          rw [Nat.add_assoc, at_]
          simpa [Item.imm?] using known
      | out j => simp [Item.imm?] at known
      | call s => simp [Item.imm?] at known

/-- An instruction that does not fault does not care for a slot the piece hides. -/
theorem exec_embedded {k : Nat} {i : BpfInsn} {c : Core W}
    (emb : Embedded img base target items)
    (fine : i.exec env (items[k + 1]?.bind Item.imm?) c ≠ .fault) :
    i.exec env (img.insns[base + k + 1]?.map (·.imm)) c =
      i.exec env (items[k + 1]?.bind Item.imm?) c := by
  cases known : items[k + 1]?.bind Item.imm? with
  | some hi => rw [emb.hi known]
  | none =>
      rw [known] at fine
      cases code : i.code <;> simp [BpfInsn.exec, code] at fine ⊢

theorem Embedded.step_goto {k j : Nat} {it : Item S} {off : Int} {c c' : Core W}
    (emb : Embedded img base target items) (fetch : items[k]? = some it)
    (move : it.exec env (items[k + 1]?.bind Item.imm?) c = .goto off c')
    (land : (k : Int) + 1 + off = j) :
    step env img (base + k) c = .running (base + j) c' := by
  obtain ⟨i, at_, filled⟩ := emb k it fetch
  have landing : ((base + k : Nat) : Int) + 1 + off = ((base + j : Nat) : Int) := by
    push_cast; omega
  cases it with
  | insn i' =>
      cases filled
      simp only [Item.exec] at move
      have fine : i.exec env (items[k + 1]?.bind Item.imm?) c ≠ .fault := by
        intro faults; simp [faults] at move
      have same := exec_embedded emb fine
      cases flow : i.exec env (items[k + 1]?.bind Item.imm?) c <;> simp [flow] at move
      obtain ⟨rfl, rfl⟩ := move
      rw [flow] at same
      simp only [step, at_, same]
      rw [if_pos (by omega), landing, Int.toNat_natCast]
  | out i' =>
      obtain ⟨shape, -⟩ := filled
      simp only [Item.exec] at move
      split at move
      · rename_i jump
        split at move
        · cases move
        · rename_i idle
          cases move
          have jump' : i.isJump = true := by rw [shape]; exact jump
          have idle' : i.taken c = false := by
            rw [shape]; exact Bool.eq_false_iff.mpr idle
          simp only [step, at_, i.exec_of_isJump env _ c jump', idle', Bool.false_eq_true, if_false]
          rw [if_pos (by omega), landing, Int.toNat_natCast]
      · cases move
  | call s =>
      obtain ⟨code, src, forward, entry⟩ := filled
      simp only [Item.exec, Move.goto.injEq] at move
      obtain ⟨rfl, rfl⟩ := move
      have flow : ∀ hi, i.exec env hi c = .subcall i.imm.toInt c := by
        intro hi; simp [BpfInsn.exec, code, src]
      have next : base + j = base + k + 1 := by omega
      simp only [step, at_, flow, if_pos forward, entry, next]

theorem Embedded.step_out {k : Nat} {it : Item S} {c c' : Core W}
    (emb : Embedded img base target items) (fetch : items[k]? = some it)
    (move : it.exec env (items[k + 1]?.bind Item.imm?) c = .out c') :
    step env img (base + k) c = .running target c' := by
  obtain ⟨i, at_, filled⟩ := emb k it fetch
  cases it with
  | insn i' =>
      simp only [Item.exec] at move
      split at move <;> cases move
  | out i' =>
      obtain ⟨shape, lands⟩ := filled
      simp only [Item.exec] at move
      split at move
      · rename_i jump
        split at move
        · rename_i go
          cases move
          have jump' : i.isJump = true := by rw [shape]; exact jump
          have go' : i.taken c = true := by rw [shape]; exact go
          simp only [step, at_, i.exec_of_isJump env _ c jump', go', if_true]
          rw [if_pos (by omega), lands, Int.toNat_natCast]
        · cases move
      · cases move
  | call s => cases move

theorem Embedded.step_exit {k : Nat} {it : Item S} {c c' : Core W}
    (emb : Embedded img base target items) (fetch : items[k]? = some it)
    (move : it.exec env (items[k + 1]?.bind Item.imm?) c = .exit c') :
    step env img (base + k) c = .done c' := by
  obtain ⟨i, at_, filled⟩ := emb k it fetch
  cases it with
  | insn i' =>
      cases filled
      simp only [Item.exec] at move
      have fine : i.exec env (items[k + 1]?.bind Item.imm?) c ≠ .fault := by
        intro faults; simp [faults] at move
      have same := exec_embedded emb fine
      cases flow : i.exec env (items[k + 1]?.bind Item.imm?) c <;> simp [flow] at move
      cases move
      rw [flow] at same
      simp only [step, at_, same]
  | out i' =>
      simp only [Item.exec] at move
      split at move
      · split at move <;> cases move
      · cases move
  | call s => cases move

/-- What an end means for the image that contains the piece. -/
def End.Reached (env : Env W S) (img : Image S) (base target len pc : Nat) (c : Core W) :
    End W → Prop
  | .fall c' => Reaches env img (pc, c) (base + len, c')
  | .out c' => Reaches env img (pc, c) (target, c')
  | .exit c' => Returns env img pc c c'

theorem End.Reached.head {pc pc' len : Nat} {c c' : Core W} {e : End W}
    (one : step env img pc c = .running pc' c')
    (rest : e.Reached env img base target len pc' c') :
    e.Reached env img base target len pc c := by
  have single : Reaches env img (pc, c) (pc', c') := Relation.ReflTransGen.single one
  cases e with
  | fall d => exact single.trans rest
  | out d => exact single.trans rest
  | exit d => exact Returns.of_reaches single rest

/-- **Simulation.**  The image does from `base + k` what the piece does from `k`. -/
theorem Runs.simulated {k : Nat} {c : Core W} {e : End W} (ran : Runs env items k c e)
    (emb : Embedded img base target items) :
    e.Reached env img base target items.length (base + k) c := by
  induction ran with
  | fall c => exact Relation.ReflTransGen.refl
  | goto fetch move land inside _ ih =>
      exact End.Reached.head (emb.step_goto fetch move land) ih
  | out fetch move =>
      exact Relation.ReflTransGen.single (emb.step_out fetch move)
  | exit fetch move =>
      exact ⟨_, _, Relation.ReflTransGen.refl, emb.step_exit fetch move⟩

end Ebpf
