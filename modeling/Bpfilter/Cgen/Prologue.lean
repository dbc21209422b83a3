/-
# Cgen.Prologue -- what the parsing code leaves and what it writes

Each step of a prologue is executed symbolically: creating the dynamic pointer,
slicing and reading the headers of layers 2, 3 and 4.  A step ends in one of two
ways: control falls through, with the registers and fields it does not own as they
were (`Framed`), or the program counts an error and accepts the packet (`Bailed`).

A step that falls through leaves a `Sliced` header for its layer and says which bytes
it overwrote.  The buffer of layer 2 is among those of layer 3.
-/
import Bpfilter.Cgen.Slices

namespace Bpfilter

set_option autoImplicit false

open Ebpf

variable {W : Type} {env : Env W BfElfstubId} {maps : BfMaps}

/-! ## Frames -/

/-- Only a footprint was written, and the registers of the list and the frame pointer kept. -/
structure Framed (fs : Footprint) (keep : List Reg) (c d : Core W) : Prop where
  frame : d.regs 10 = c.regs 10
  regs : ∀ r ∈ keep, d.regs r = c.regs r
  world : d.world = c.world
  touches : Touches (c.regs 10) fs c.mem d.mem

section Framed

variable {fs gs : Footprint} {kept : List Reg} {c d e : Core W}

theorem Framed.refl (fs : Footprint) (kept : List Reg) (c : Core W) : Framed fs kept c c :=
  ⟨rfl, fun _ _ => rfl, rfl, .refl fs c.mem⟩

theorem Framed.trans (first : Framed fs kept c d) (second : Framed gs kept d e) :
    Framed (fs ++ gs) kept c e := by
  refine ⟨second.frame.trans first.frame, ?_, second.world.trans first.world, ?_⟩
  · intro r mem
    exact (second.regs r mem).trans (first.regs r mem)
  · have touches := second.touches
    rw [first.frame] at touches
    exact first.touches.trans touches

theorem Framed.mono (framed : Framed fs kept c d) (le : ∀ g ∈ fs, g ∈ gs) : Framed gs kept c d :=
  ⟨framed.frame, framed.regs, framed.world, framed.touches.mono le⟩

/-- Fewer registers. -/
theorem Framed.fewer (framed : Framed fs kept c d) {fewer : List Reg} (le : ∀ r ∈ fewer, r ∈ kept) :
    Framed fs fewer c d :=
  ⟨framed.frame, fun r mem => framed.regs r (le r mem), framed.world, framed.touches⟩

theorem Framed.setReg (framed : Framed fs kept c d) {r : Reg} (v : BitVec 64) (own : r ≠ 10)
    (free : r ∉ kept) : Framed fs kept c (d.setReg r v) := by
  refine ⟨?_, ?_, framed.world, framed.touches⟩
  · rw [Core.setReg_regs, if_neg own.symm, framed.frame]
  · intro r' mem
    have other : r' ≠ r := by
      rintro rfl
      exact free mem
    rw [Core.setReg_regs, if_neg other, framed.regs r' mem]

/-- A store to a field. -/
theorem Framed.storeField (framed : Framed fs kept c d) (f : RuntimeField) (n : Nat)
    (v : BitVec 64) :
    Framed (fs ++ [(f, n)]) kept c (d.storeMem (ctxAddr (d.regs 10) f) n v) := by
  refine ⟨framed.frame, framed.regs, framed.world, ?_⟩
  rw [framed.frame]
  exact framed.touches.trans (.store f n v)

/-- A call keeps the saved registers. -/
theorem Framed.call (framed : Framed fs kept c d) {callee : Callee W}
    (saved : ∀ r ∈ kept, 5 < r)
    (touches : Touches (d.regs 10) gs d.mem (callee d.args d.mem d.world).mem)
    (world : (callee d.args d.mem d.world).world = d.world) :
    Framed (fs ++ gs) kept c (d.call callee) := by
  refine ⟨?_, ?_, world.trans framed.world, ?_⟩
  · exact (Core.call_regs_saved d callee 10 (by decide)).trans framed.frame
  · intro r mem
    exact (Core.call_regs_saved d callee r (saved r mem)).trans (framed.regs r mem)
  · rw [framed.frame] at touches
    exact framed.touches.trans touches

end Framed

/-- A step failed: after writing no more than the footprint, the program counted the error of a
program with the same chain. -/
def Bailed (env : Env W BfElfstubId) (maps : BfMaps) (p : BfProgram) (fs : Footprint)
    (c d : Core W) : Prop :=
  ∃ (q : BfProgram) (msg : String) (e : Core W), q.host = p.host ∧ q.chain = p.chain ∧
    Framed fs [] c e ∧ d = bail env maps q msg e

/-- A failure after a step that fell through. -/
theorem Bailed.after {p : BfProgram} {fs gs : Footprint} {kept : List Reg} {c d e : Core W}
    (framed : Framed fs kept c d) (bailed : Bailed env maps p gs d e) :
    Bailed env maps p (fs ++ gs) c e := by
  obtain ⟨q, msg, e', host, chain, framed', rfl⟩ := bailed
  refine ⟨q, msg, e', host, chain, ?_, rfl⟩
  exact (framed.fewer (fun _ mem => by cases mem)).trans framed'

/-! ## Switches -/

/-- A switch with two options. -/
theorem eval_swich2 (reg r₁ r₂ r₃ : Reg) (i₁ i₂ v₁ v₂ v₃ : BitVec 32) (c : Core W) :
    eval env 0 ((swich2Slots reg i₁ i₂ (bpfMov64Imm r₁ v₁) (bpfMov64Imm r₂ v₂)
      (bpfMov64Imm r₃ v₃)).map (Emitted.link maps)) c =
      .fall 0 (if c.regs reg = i₁.signExtend 64 then c.setReg r₁ (v₁.signExtend 64)
        else if c.regs reg = i₂.signExtend 64 then c.setReg r₂ (v₂.signExtend 64)
        else c.setReg r₃ (v₃.signExtend 64)) :=
  eval_swich2_of (fun _ _ => eval_mov64Imm ..) (fun _ _ => eval_mov64Imm ..)
    (fun _ _ => eval_mov64Imm ..) c

/-- A switch with four options. -/
theorem eval_swich4 (reg r₁ r₂ r₃ r₄ r₅ : Reg) (i₁ i₂ i₃ i₄ v₁ v₂ v₃ v₄ v₅ : BitVec 32)
    (c : Core W) :
    eval env 0 ((swich4Slots reg i₁ i₂ i₃ i₄ (bpfMov64Imm r₁ v₁) (bpfMov64Imm r₂ v₂)
      (bpfMov64Imm r₃ v₃) (bpfMov64Imm r₄ v₄) (bpfMov64Imm r₅ v₅)).map (Emitted.link maps)) c =
      .fall 0 (if c.regs reg = i₁.signExtend 64 then c.setReg r₁ (v₁.signExtend 64)
        else if c.regs reg = i₂.signExtend 64 then c.setReg r₂ (v₂.signExtend 64)
        else if c.regs reg = i₃.signExtend 64 then c.setReg r₃ (v₃.signExtend 64)
        else if c.regs reg = i₄.signExtend 64 then c.setReg r₄ (v₄.signExtend 64)
        else c.setReg r₅ (v₅.signExtend 64)) := by
  simp only [swich4Slots, List.map_cons, List.map_nil, link_insn]
  rw [eval_jumpSlot rfl (by decide), taken_eq]
  by_cases first : c.regs reg = i₁.signExtend 64
  · simp only [first, decide_true, if_true, eval_skip]
    rw [eval_mov64Imm, eval_jumpSlot rfl (by decide)]
    rfl
  simp only [first, decide_false, Bool.false_eq_true, if_false]
  rw [eval_jumpSlot rfl (by decide), taken_eq]
  by_cases second : c.regs reg = i₂.signExtend 64
  · simp only [second, decide_true, if_true, eval_skip]
    rw [eval_mov64Imm, eval_jumpSlot rfl (by decide)]
    rfl
  simp only [second, decide_false, Bool.false_eq_true, if_false]
  rw [eval_jumpSlot rfl (by decide), taken_eq]
  by_cases third : c.regs reg = i₃.signExtend 64
  · simp only [third, decide_true, if_true, eval_skip]
    rw [eval_mov64Imm, eval_jumpSlot rfl (by decide)]
    rfl
  simp only [third, decide_false, Bool.false_eq_true, if_false]
  rw [eval_jumpSlot rfl (by decide), taken_eq]
  by_cases fourth : c.regs reg = i₄.signExtend 64
  · simp only [fourth, decide_true, if_true, eval_skip]
    rw [eval_mov64Imm, eval_jumpSlot rfl (by decide)]
    rfl
  simp only [fourth, decide_false, Bool.false_eq_true, if_false]
  rw [eval_jumpSlot rfl (by decide)]
  rfl

/-! ## The dynamic pointer and layer 2 -/

/-- A header has been sliced: the context has its size and its address, which is in the buffer or
outside the stack frame. -/
structure Sliced (hdr size buffer : RuntimeField) (copied : Bool) (len : Nat) (r10 : BitVec 64)
    (others : List (Addr × Nat)) (m : Mem) : Prop where
  length : (m.load (ctxAddr r10 size) 1).toNat = len
  found : m.load (ctxAddr r10 hdr) 8 ≠ 0
  placed : Placed r10 others buffer copied (m.load (ctxAddr r10 hdr) 8) len

/-- The address in a field of the context denotes the bytes of the packet. -/
def HeaderDenotes (packet : Packet) (hdr : RuntimeField) (offset : BitVec 32) (len : Nat)
    (r10 : BitVec 64) (m : Mem) : Prop :=
  Denotes packet m (m.load (ctxAddr r10 hdr) 8) offset len

/-- The kernel functions and stubs the parsing code calls. -/
structure ParseEnv (env : Env W BfElfstubId) (host : Host) (packet : W → Packet)
    (copies : W → BitVec 32 → Addr → Nat → Bool) (r10 : BitVec 64)
    (others : List (Addr × Nat)) : Prop where
  slice : PacketSlice env (host.kfuncId .bpfDynptrSlice) packet copies r10 others
  fromXdp : DynptrFrom env (host.kfuncId .bpfDynptrFromXdp)
  fromSkb : DynptrFrom env (host.kfuncId .bpfDynptrFromSkb)
  stubs : Ipv6StubsWrite env

theorem makeDynptr_ends {id : BitVec 32} (dynptr : DynptrFrom env id) (p : BfProgram)
    (c : Core W) :
    Ends env ((makeDynptrSlots p id).map (Emitted.link maps)) c (Framed [(.dynptr, 16)] [7, 8] c)
      (Bailed env maps p [(.dynptr, 16)] c) := by
  let s := (c.setReg 2 0).setReg 3 (ctxAddr (c.regs 10) .dynptr)
  have moved : Framed [] [7, 8] c s :=
    ((Framed.refl [] [7, 8] c).setReg _ (by decide) (by decide)).setReg _ (by decide) (by decide)
  have called : Framed [(.dynptr, 16)] [7, 8] c (s.call (env.kfunc id)) :=
    moved.call (by decide) (dynptr.others s.args s.mem s.world) (dynptr.world s.args s.mem s.world)
  have calls : eval env 0 (([bpfMov64Imm 2 0, bpfMov64Reg 3 10,
      bpfAlu64Imm .add 3 (ctxImm .dynptr), kfuncCall id] : List Emitted).map (Emitted.link maps)) c =
      .fall 0 (s.call (env.kfunc id)) := by
    simp only [List.map_cons, List.map_nil, link_insn]
    rw [eval_mov64Imm, eval_mov64Reg, eval_alu64Imm]
    simp only [Core.setReg_setReg, Core.setReg_regs, Fin.reduceEq, if_true, if_false, AluOp.eval,
      add_ctxImm]
    rfl
  rw [makeDynptrSlots, List.map_append]
  apply Ends.append_fall calls
  cases works : (bpfJmpImm .eq 0 0 0).taken (s.call (env.kfunc id)) with
  | true => exact .of_fall (eval_guard_passed p _ rfl works) called
  | false =>
      refine .of_exit (eval_guard_failed p _ rfl works) ⟨p, dynptrMsg, _, rfl, rfl, ?_, rfl⟩
      exact called.fewer fun _ mem => by cases mem

/-- The guard behind a slice passes when there is one. -/
theorem found_of_taken {c : Core W} (passed : (bpfJmpImm .ne 0 0 0).taken c = true) :
    c.regs 0 ≠ 0 := by
  rw [taken_ne] at passed
  exact of_decide_eq_true passed

variable {packet : W → Packet} {copies : W → BitVec 32 → Addr → Nat → Bool}
  {others : List (Addr × Nat)}

/-- What taking a slice writes. -/
def takenPrint (hdr size buffer : RuntimeField) (copied : Bool) (len : Nat) : Footprint :=
  (size, 1) :: (hdr, 8) :: slicePrint buffer copied len

/-- A slice has been taken: its size and its address are in the context, the address is in `r0`
as well, and it denotes the bytes of the packet. -/
structure Taken (packet : Packet) (others : List (Addr × Nat)) (hdr size buffer : RuntimeField)
    (copied : Bool) (offset : BitVec 32) (len : Nat) (kept : List Reg) (c d : Core W) :
    Prop where
  framed : Framed (takenPrint hdr size buffer copied len) kept c d
  sliced : Sliced hdr size buffer copied len (c.regs 10) others d.mem
  address : d.mem.load (ctxAddr (c.regs 10) hdr) 8 = d.regs 0
  denotes : HeaderDenotes packet hdr offset len (c.regs 10) d.mem

/-- From the slice call to the store of its address. -/
theorem slice_ends {id : BitVec 32} {c s : Core W} {hdr size buffer : RuntimeField} {len : Nat}
    {copied : Bool} {kept : List Reg}
    (slice : PacketSlice env id packet copies (c.regs 10) others) (ready : Framed [(size, 1)] kept c s)
    (saved : ∀ r ∈ kept, 5 < r) (small : len ≤ 2 ^ 64)
    (length : (s.mem.load (ctxAddr (c.regs 10) size) 1).toNat = len)
    (target : s.regs 3 = ctxAddr (c.regs 10) buffer) (sized : (s.regs 4).toNat = len)
    (choice : copies c.world ((s.regs 2).setWidth 32) (ctxAddr (c.regs 10) buffer) len = copied)
    (apartBuffer : Footprint.apart [(hdr, 8)] buffer len = true)
    (apartSize : Footprint.apart ((hdr, 8) :: slicePrint buffer copied len) size 1 = true)
    (p : BfProgram) (msg : String) :
    Ends env ((skipOver (bpfJmpImm .ne 0 0 0) (errorExitSlots p msg) ++
        ([bpfStxMem .dw 10 0 (ctxOff hdr)] : List Emitted)).map (Emitted.link maps))
      (s.call (env.kfunc id))
      (Taken (packet c.world) others hdr size buffer copied ((s.regs 2).setWidth 32) len kept c)
      (Bailed env maps p [(size, 1), (buffer, len)] c) := by
  let r := s.call (env.kfunc id)
  have called : Framed [(size, 1), (buffer, len)] kept c r := by
    refine ready.call saved ?_ (slice.world s.args s.mem s.world)
    have others := slice.others s.args s.mem s.world
    rw [show s.args.r4.toNat = len from sized, show s.args.r3 = _ from target, ← ready.frame]
      at others
    exact others
  rw [List.map_append]
  cases passed : (bpfJmpImm .ne 0 0 0).taken r with
  | false =>
      refine .of_exit (eval_append_exit _ (eval_guard_failed p _ rfl passed)) ?_
      exact ⟨p, msg, r, rfl, rfl, called.fewer (fun _ mem => by cases mem), rfl⟩
  | true =>
      apply Ends.append_fall (eval_guard_passed p _ rfl passed)
      obtain ⟨touches, address, placed, denotes⟩ := slice_stored slice small apartBuffer
        target sized (ready.world ▸ choice) (found_of_taken passed)
      let d := storeHeader (c.regs 10) hdr r
      have stores : eval env 0 (([bpfStxMem .dw 10 0 (ctxOff hdr)] : List Emitted).map
          (Emitted.link maps)) r = .fall 0 d := by
        rw [List.map_cons, link_insn, eval_stx, called.frame, add_ctxOff]
        rfl
      refine .of_fall stores ⟨?_, ⟨?_, ?_, ?_⟩, address, ?_⟩
      · refine ⟨called.frame, called.regs, called.world, ?_⟩
        exact ready.touches.trans touches
      · rw [← length]
        exact congrArg BitVec.toNat (touches.load apartSize)
      · rw [address]
        exact found_of_taken passed
      · rw [address]
        exact placed
      · rw [HeaderDenotes, address]
        rw [← ready.world]
        exact denotes

/-- What is in the context about a layer survives writes apart from it. -/
theorem Sliced.of_touches {hdr size buffer : RuntimeField} {copied : Bool} {len : Nat}
    {r10 : BitVec 64} {m m' : Mem} {fs : Footprint}
    (sliced : Sliced hdr size buffer copied len r10 others m)
    (touches : Touches r10 fs m m') (apartSize : fs.apart size 1 = true)
    (apartHdr : fs.apart hdr 8 = true) : Sliced hdr size buffer copied len r10 others m' := by
  refine ⟨?_, ?_, ?_⟩
  · rw [touches.load apartSize]
    exact sliced.length
  · rw [touches.load apartHdr]
    exact sliced.found
  · rw [touches.load apartHdr]
    exact sliced.placed

/-- What a header denotes it still denotes after writes apart from it. -/
theorem HeaderDenotes.of_touches {packet : Packet} {hdr size buffer : RuntimeField}
    {copied : Bool} {offset : BitVec 32} {len : Nat} {r10 : BitVec 64} {m m' : Mem}
    {fs : Footprint} (denotes : HeaderDenotes packet hdr offset len r10 m)
    (sliced : Sliced hdr size buffer copied len r10 others m) (touches : Touches r10 fs m m')
    (apartHdr : fs.apart hdr 8 = true) (apartBuffer : copied = true → fs.apart buffer len = true)
    (small : len ≤ 2 ^ 64) : HeaderDenotes packet hdr offset len r10 m' := by
  have fits : fs.all (fun g => g.1.Fits g.2) = true := by
    rw [Footprint.apart, Bool.and_eq_true, List.all_eq_true] at apartHdr
    refine List.all_eq_true.mpr fun g mem => ?_
    exact (Bool.and_eq_true_iff.mp (apartHdr.2 g mem)).1
  rw [HeaderDenotes, touches.load apartHdr]
  exact Denotes.of_touches denotes sliced.placed touches fits apartBuffer small

/-! ## Layer 2 -/

/-- What the layer 2 step writes. -/
def l2Print (copied : Bool) : Footprint :=
  takenPrint .l2Hdr .l2Size .l2 copied 14 ++ [(.l3Offset, 4)]

/-- The protocol register after layer 2: the ethertype in network order. -/
def etherReg (packet : Packet) : BitVec 64 :=
  BitVec.ofNat 64 (Mem.leValue [packet 12, packet 13])

/-- The layer 2 step has fallen through. -/
structure ParsedL2 (packet : Packet) (others : List (Addr × Nat)) (copied : Bool) (c d : Core W) :
    Prop where
  framed : Framed (l2Print copied) [8] c d
  sliced : Sliced .l2Hdr .l2Size .l2 copied 14 (c.regs 10) others d.mem
  denotes : HeaderDenotes packet .l2Hdr 0 14 (c.regs 10) d.mem
  ethertype : d.regs 7 = etherReg packet
  offset : d.mem.load (ctxAddr (c.regs 10) .l3Offset) 4 = 14

/-- The two bytes of a 16-bit field, from a slice that denotes them. -/
theorem load_half {packet : Packet} {m : Mem} {a : Addr} {offset : BitVec 32} {len : Nat}
    (denotes : Denotes packet m a offset len) (i : Nat) (inside : i + 1 < len) :
    m.load (a + BitVec.ofNat 64 i) 2 =
      BitVec.ofNat 64 (Mem.leValue
        [packet (offset + BitVec.ofNat 32 i), packet (offset + BitVec.ofNat 32 (i + 1))]) := by
  have next : a + BitVec.ofNat 64 i + 1 = a + BitVec.ofNat 64 (i + 1) := by
    rw [add_assoc, BitVec.ofNat_add]
    rfl
  rw [Mem.load, Mem.bytesAt, Mem.bytesAt, Mem.bytesAt, next, denotes i (by omega),
    denotes (i + 1) inside]

/-- The ethertype and the offset of layer 3, behind the slice. -/
theorem l2Rest_ends {c d : Core W} {copied : Bool} {E : Core W → Prop} {packet : Packet}
    (taken : Taken packet others .l2Hdr .l2Size .l2 copied 0 14 [8] c d) :
    Ends env (([bpfLdxMem .h 7 0 12, bpfStMem .w 10 (ctxOff .l3Offset) 14] : List Emitted).map
      (Emitted.link maps)) d (ParsedL2 packet others copied c) E := by
  let e := (d.setReg 7 (d.mem.load (d.regs 0 + 12) 2)).storeMem
    (ctxAddr (d.regs 10) .l3Offset) 4 14
  have falls : eval env 0 (([bpfLdxMem .h 7 0 12, bpfStMem .w 10 (ctxOff .l3Offset) 14] :
      List Emitted).map (Emitted.link maps)) d = .fall 0 e := by
    rw [List.map_cons, link_insn, eval_ldx, List.map_cons, link_insn, eval_st]
    rfl
  have framed : Framed (l2Print copied) [8] c e :=
    (taken.framed.setReg _ (by decide) (by decide)).storeField .l3Offset 4 14
  have wrote : Touches (c.regs 10) [(.l3Offset, 4)] d.mem e.mem := by
    rw [← taken.framed.frame]
    exact .store .l3Offset 4 14
  refine .of_fall falls ⟨framed, taken.sliced.of_touches wrote (by decide) (by decide), ?_, ?_, ?_⟩
  · exact taken.denotes.of_touches taken.sliced wrote (by decide) (fun _ => by decide) (by decide)
  · have denotes := taken.denotes
    rw [HeaderDenotes, taken.address] at denotes
    exact load_half denotes 12 (by decide)
  · rw [← taken.framed.frame]
    exact Mem.load_store_word _ _ 14

theorem parseL2_ends {id : BitVec 32} {c : Core W} {copied : Bool}
    (slice : PacketSlice env id packet copies (c.regs 10) others)
    (choice : copies c.world 0 (ctxAddr (c.regs 10) .l2) 14 = copied) (p : BfProgram) :
    Ends env ((parseL2Slots p id).map (Emitted.link maps)) c
      (ParsedL2 (packet c.world) others copied c)
      (Bailed env maps p [(.l2Size, 1), (.l2, 14)] c) := by
  let s := ((((c.setReg 1 (ctxAddr (c.regs 10) .dynptr)).setReg 2 0).setReg 3
    (ctxAddr (c.regs 10) .l2)).setReg 4 14).storeMem (ctxAddr (c.regs 10) .l2Size) 1 14
  have ready : Framed [(.l2Size, 1)] [8] c s :=
    ((((((Framed.refl [] [8] c).setReg _ (by decide) (by decide)).setReg _ (by decide)
      (by decide)).setReg _ (by decide) (by decide)).setReg _ (by decide)
      (by decide)).storeField .l2Size 1 14)
  have calls : eval env 0 (([bpfMov64Reg 1 10, bpfAlu64Imm .add 1 (ctxImm .dynptr),
      bpfMov64Imm 2 0, bpfMov64Reg 3 10, bpfAlu64Imm .add 3 (ctxImm .l2), bpfMov64Imm 4 14,
      bpfStxMem .b 10 4 (ctxOff .l2Size), kfuncCall id] : List Emitted).map
      (Emitted.link maps)) c = .fall 0 (s.call (env.kfunc id)) := by
    simp only [List.map_cons, List.map_nil, link_insn]
    rw [eval_mov64Reg, eval_alu64Imm, eval_mov64Imm, eval_mov64Reg, eval_alu64Imm, eval_mov64Imm,
      eval_stx]
    simp only [Core.setReg_setReg, Core.setReg_regs, Fin.reduceEq, if_true, if_false, AluOp.eval,
      add_ctxImm, add_ctxOff]
    rfl
  have length : (s.mem.load (ctxAddr (c.regs 10) .l2Size) 1).toNat = 14 := by
    rw [show s.mem.load (ctxAddr (c.regs 10) .l2Size) 1 = 14 from Mem.load_store_byte _ _ 14]
    rfl
  have slots : parseL2Slots p id = ([bpfMov64Reg 1 10, bpfAlu64Imm .add 1 (ctxImm .dynptr),
      bpfMov64Imm 2 0, bpfMov64Reg 3 10, bpfAlu64Imm .add 3 (ctxImm .l2), bpfMov64Imm 4 14,
      bpfStxMem .b 10 4 (ctxOff .l2Size), kfuncCall id] : List Emitted) ++
      ((skipOver (bpfJmpImm .ne 0 0 0) (errorExitSlots p l2Msg) ++
        ([bpfStxMem .dw 10 0 (ctxOff .l2Hdr)] : List Emitted)) ++
        ([bpfLdxMem .h 7 0 12, bpfStMem .w 10 (ctxOff .l3Offset) 14] : List Emitted)) := by
    simp only [parseL2Slots, List.append_assoc]
    rfl
  rw [slots, List.map_append]
  apply Ends.append_fall calls
  rw [List.map_append]
  apply Ends.append (slice_ends slice ready (by decide) (by decide) length rfl rfl choice
    (by decide) (by cases copied <;> decide) p l2Msg)
  intro d taken
  exact l2Rest_ends taken

/-! ## Layers 3 and 4 -/

/-- An offset in the context. -/
def offsetAt (f : RuntimeField) (r10 : BitVec 64) (m : Mem) : BitVec 32 :=
  (m.load (ctxAddr r10 f) 4).setWidth 32

theorem sliceCall_framed (c : Core W) (size offset buffer : RuntimeField) {kept : List Reg}
    (saved : ∀ r ∈ kept, 5 < r) : Framed [(size, 1)] kept c (sliceCall c size offset buffer) := by
  refine ⟨sliceCall_saved c _ _ _ 10 (by decide), ?_, sliceCall_world c _ _ _, ?_⟩
  · intro r mem
    exact sliceCall_saved c _ _ _ r (saved r mem)
  · exact .store size 1 _

/-- The slice of layer 3 or 4: the size is in `r4` and the offset in the context. -/
theorem takeSlice_ends {id : BitVec 32} {c : Core W} {hdr size buffer : RuntimeField}
    {len : Nat} {copied : Bool} (offset : RuntimeField) (kept : List Reg)
    (slice : PacketSlice env id packet copies (c.regs 10) others) (saved : ∀ r ∈ kept, 5 < r)
    (sized : c.regs 4 = BitVec.ofNat 64 len) (small : len < 256)
    (choice : copies c.world (offsetAt offset (c.regs 10) c.mem) (ctxAddr (c.regs 10) buffer)
      len = copied)
    (apartOffset : Footprint.apart [(size, 1)] offset 4 = true)
    (apartBuffer : Footprint.apart [(hdr, 8)] buffer len = true)
    (apartSize : Footprint.apart ((hdr, 8) :: slicePrint buffer copied len) size 1 = true)
    (p : BfProgram) (msg : String) :
    Ends env ((sliceSlots size offset buffer id ++
        (skipOver (bpfJmpImm .ne 0 0 0) (errorExitSlots p msg) ++
          ([bpfStxMem .dw 10 0 (ctxOff hdr)] : List Emitted))).map (Emitted.link maps)) c
      (Taken (packet c.world) others hdr size buffer copied
        (offsetAt offset (c.regs 10) c.mem) len kept c)
      (Bailed env maps p [(size, 1), (buffer, len)] c) := by
  let s := sliceCall c size offset buffer
  have ready : Framed [(size, 1)] kept c s := sliceCall_framed c size offset buffer saved
  have at_ : (s.regs 2).setWidth 32 = offsetAt offset (c.regs 10) c.mem :=
    congrArg (BitVec.setWidth 32) (ready.touches.load apartOffset)
  have wide : (s.regs 4).toNat = len := by
    rw [show s.regs 4 = BitVec.ofNat 64 len from sized, BitVec.toNat_ofNat,
      Nat.mod_eq_of_lt (by omega)]
  have length : (s.mem.load (ctxAddr (c.regs 10) size) 1).toNat = len := by
    have fits : (c.regs 4).toNat < 256 ^ 1 := by
      rw [← show (s.regs 4) = c.regs 4 from rfl, wide]
      exact small
    rw [show s.mem.load (ctxAddr (c.regs 10) size) 1 = c.regs 4 from
      Mem.load_store_fits _ _ (by decide) fits]
    exact wide
  rw [List.map_append]
  apply Ends.append_fall (eval_slice size offset buffer id c)
  rw [← at_] at choice ⊢
  exact slice_ends slice ready saved (by omega) length rfl wide choice apartBuffer apartSize p msg

/-- The protocol register of an IPv4 packet. -/
def ipv4Reg : BitVec 64 := (htobe16 ethPIp).setWidth 64

/-- The size of the layer 3 header, for the protocols that are parsed. -/
def l3Len (r7 : BitVec 64) : Option Nat :=
  if r7 = ipv4Reg then some 20 else if r7 = ipv6Reg then some 40 else none

/-- The size of the layer 4 header, for the protocols that are parsed. -/
def l4Len (r8 : BitVec 64) : Option Nat :=
  if r8 = ipprotoTcp.setWidth 64 then some 20
  else if r8 = ipprotoUdp.setWidth 64 ∨ r8 = ipprotoIcmp.setWidth 64 ∨
    r8 = ipprotoIcmpv6.setWidth 64 then some 8
  else none

/-- The size of a header goes to `r4`, and a protocol that is not parsed is forgotten. -/
def sizedFor (c : Core W) (reg : Reg) : Option Nat → Core W
  | some len => c.setReg 4 (BitVec.ofNat 64 len)
  | none => c.setReg reg 0

theorem eval_l3Sizes (c : Core W) :
    eval env 0 (parseL3Swich.map (Emitted.link maps)) c =
      .fall 0 (sizedFor c 7 (l3Len (c.regs 7))) := by
  have ip : ((htobe16 ethPIp).setWidth 32).signExtend 64 = ipv4Reg := by decide
  have ipv6 : ((htobe16 ethPIpv6).setWidth 32).signExtend 64 = ipv6Reg := by decide
  rw [parseL3Swich, eval_swich2, ip, ipv6, l3Len]
  split
  · rfl
  split <;> rfl

theorem eval_l4Sizes (c : Core W) :
    eval env 0 (parseL4Swich.map (Emitted.link maps)) c =
      .fall 0 (sizedFor c 8 (l4Len (c.regs 8))) := by
  rw [parseL4Swich, eval_swich4, signExtend_byte, signExtend_byte, signExtend_byte,
    signExtend_byte, l4Len]
  split
  · rfl
  split
  · next udp =>
      rw [if_pos (.inl udp)]
      rfl
  split
  · next icmp =>
      rw [if_pos (.inr (.inl icmp))]
      rfl
  split
  · next icmpv6 =>
      rw [if_pos (.inr (.inr icmpv6))]
      rfl
  · next udp icmp icmpv6 =>
      rw [if_neg (not_or.mpr ⟨udp, not_or.mpr ⟨icmp, icmpv6⟩⟩)]
      rfl

theorem taken_ne_proto {c : Core W} (ethertype : BitVec 16) :
    (bpfJmpImm .ne 7 ((htobe16 ethertype).setWidth 32) 0).taken c =
      decide (c.regs 7 ≠ (htobe16 ethertype).setWidth 64) := by
  rw [taken_ne, signExtend_half]

theorem eval_ipv4_other {c : Core W} (other : c.regs 7 ≠ ipv4Reg) :
    eval env 0 (parseIpv4Slots.map (Emitted.link maps)) c = .fall 0 c := by
  have skips := (taken_ne_proto (c := c) ethPIp).trans (decide_eq_true other)
  exact eval_skipOver_taken rfl _ skips (by simp)

/-- The IPv4 code stores the offset of layer 4 and loads the protocol. -/
theorem eval_ipv4 {c : Core W} (ipv4 : c.regs 7 = ipv4Reg) :
    ∃ d, eval env 0 (parseIpv4Slots.map (Emitted.link maps)) c = .fall 0 d ∧
      Framed [(.l4Offset, 4)] [7] c d ∧ d.regs 8 = (d.mem (c.regs 0 + 9)).setWidth 64 := by
  have enters := (taken_ne_proto (c := c) ethPIp).trans (decide_eq_false (not_not.mpr ipv4))
  rw [parseIpv4Slots, eval_skipOver_idle rfl _ enters]
  simp only [List.map_cons, List.map_nil, link_insn]
  rw [eval_ldx, eval_alu64Imm, eval_alu64Imm, eval_ldx, eval_alu64Reg, eval_stx, eval_ldx,
    eval_nil]
  refine ⟨_, rfl, ?_, ?_⟩
  · refine Framed.setReg ?_ _ (by decide) (by decide)
    rw [add_ctxOff]
    refine (Framed.refl [] [7] c |>.setReg _ ?_ ?_ |>.setReg _ ?_ ?_ |>.setReg _ ?_ ?_
      |>.setReg _ ?_ ?_ |>.setReg _ ?_ ?_).storeField .l4Offset 4 _ <;> decide
  · rw [Core.setReg_regs, if_pos rfl, show Size.b.bytes = 1 from rfl, Mem.load_one]
    rfl

theorem parseIpv4_ends {c : Core W} {E : Core W → Prop} :
    Ends env (parseIpv4Slots.map (Emitted.link maps)) c (Framed [(.l4Offset, 4)] [7] c) E := by
  by_cases ipv4 : c.regs 7 = ipv4Reg
  · obtain ⟨d, falls, framed, -⟩ := @eval_ipv4 W env maps c ipv4
    exact .of_fall falls framed
  · exact .of_fall (eval_ipv4_other ipv4) (.refl _ _ c)

theorem eval_ipv6_other (flags : BfChainFlags) {c : Core W} (other : c.regs 7 ≠ ipv6Reg) :
    eval env 0 ((parseIpv6Slots flags).map (Emitted.link maps)) c = .fall 0 c := by
  have skips := (taken_ne_proto (c := c) ethPIpv6).trans (decide_eq_true other)
  rw [parseIpv6Slots_eq]
  refine eval_skipOver_taken rfl _ skips ?_
  simp only [List.length_cons, List.length_append, ehTestSlots, ehCallSlots, noEhSlots,
    List.length_nil]
  decide

theorem parseIpv6_ends {c : Core W} {E : Core W → Prop} (stubs : Ipv6StubsWrite env)
    (flags : BfChainFlags) :
    Ends env ((parseIpv6Slots flags).map (Emitted.link maps)) c (Framed ipv6StubFootprint [7] c)
      E := by
  by_cases ipv6 : c.regs 7 = ipv6Reg
  · obtain ⟨d, path, same⟩ := @eval_ipv6_path W env maps flags c _ ipv6 rfl
    have tested : Framed [] [7] c d := by
      refine ⟨same.regs 10 (by simp), ?_, same.world, ?_⟩
      · intro r mem
        rw [List.mem_singleton.mp mem]
        exact same.regs 7 (by simp)
      · rw [same.mem]
        exact .refl _ _
    refine .of_fall path ?_
    split
    · let called := d.setReg 1 (ctxAddr (d.regs 10) .arg)
      have moved : Framed [] [7] c called := tested.setReg _ (by decide) (by decide)
      refine Framed.setReg ?_ _ (by decide) (by decide)
      exact moved.call (by decide) (stubs.writes flags _ called.args called.mem called.world rfl)
        (stubs.world flags called.args called.mem called.world)
    · have stored : Framed [(.l4Offset, 4)] [7] c (afterNoEh d) :=
        (tested.setReg _ (by decide) (by decide)).storeField .l4Offset 4 _
      exact stored.mono (by decide)
  · exact .of_fall (eval_ipv6_other flags ipv6) (.refl _ _ c)

/-- A step of layer 3 or 4 has taken its slice. -/
structure ParsedLayer (packet : Packet) (others : List (Addr × Nat))
    (hdr size buffer : RuntimeField) (copied : Bool) (offset : BitVec 32) (len : Nat)
    (more : Footprint) (kept : List Reg) (c d : Core W) : Prop where
  framed : Framed (takenPrint hdr size buffer copied len ++ more) kept c d
  sliced : Sliced hdr size buffer copied len (c.regs 10) others d.mem
  denotes : HeaderDenotes packet hdr offset len (c.regs 10) d.mem

/-- The layer 3 step has fallen through. -/
def ParsedL3 (packet : Packet) (others : List (Addr × Nat)) (copied : Nat → Bool)
    (c d : Core W) : Prop :=
  match l3Len (c.regs 7) with
  | some len => ParsedLayer packet others .l3Hdr .l3Size .l2 (copied len)
      (offsetAt .l3Offset (c.regs 10) c.mem) len ipv6StubFootprint [7] c d
  | none => d = c.setReg 7 0

/-- The layer 4 step has fallen through. -/
def ParsedL4 (packet : Packet) (others : List (Addr × Nat)) (copied : Nat → Bool)
    (c d : Core W) : Prop :=
  match l4Len (c.regs 8) with
  | some len => ParsedLayer packet others .l4Hdr .l4Size .l4 (copied len)
      (offsetAt .l4Offset (c.regs 10) c.mem) len [] [7, 8] c d
  | none => d = c.setReg 8 0

/-- What the steps may write before they fail. -/
def bailPrint (size buffer : RuntimeField) (len : Option Nat) : Footprint :=
  (len.map fun n => [(size, 1), (buffer, n)]).getD []

theorem l3Len_cases {r7 : BitVec 64} {len : Nat} (parsed : l3Len r7 = some len) :
    (r7 = ipv4Reg ∧ len = 20) ∨ (r7 = ipv6Reg ∧ len = 40) := by
  unfold l3Len at parsed
  split at parsed
  · exact .inl ⟨by assumption, (Option.some.inj parsed).symm⟩
  split at parsed
  · exact .inr ⟨by assumption, (Option.some.inj parsed).symm⟩
  · cases parsed

theorem l4Len_cases {r8 : BitVec 64} {len : Nat} (parsed : l4Len r8 = some len) :
    r8 ≠ 0 ∧ (len = 20 ∨ len = 8) := by
  unfold l4Len at parsed
  split at parsed
  · next tcp =>
      refine ⟨?_, .inl (Option.some.inj parsed).symm⟩
      rw [tcp]
      decide
  split at parsed
  · next others =>
      refine ⟨?_, .inr (Option.some.inj parsed).symm⟩
      rcases others with rfl | rfl | rfl <;> decide
  · cases parsed

/-- A slice has been taken after the size of the header was chosen. -/
theorem Taken.after_sized {packet : Packet} {hdr size buffer : RuntimeField} {copied : Bool}
    {offset : BitVec 32} {len : Nat} {kept : List Reg} {c d : Core W} {v : BitVec 64}
    (taken : Taken packet others hdr size buffer copied offset len kept (c.setReg 4 v) d)
    (free : 4 ∉ kept) : Taken packet others hdr size buffer copied offset len kept c d :=
  ⟨((Framed.refl [] kept c).setReg v (by decide) free).trans taken.framed, taken.sliced,
    taken.address, taken.denotes⟩

/-- A slice that is kept by the code behind it. -/
theorem Taken.layer {packet : Packet} {hdr size buffer : RuntimeField} {copied : Bool}
    {offset : BitVec 32} {len : Nat} {kept : List Reg} {more : Footprint} {c d e : Core W}
    (taken : Taken packet others hdr size buffer copied offset len kept c d)
    (rest : Framed more kept d e) (apartSize : more.apart size 1 = true)
    (apartHdr : more.apart hdr 8 = true) (apartBuffer : more.apart buffer len = true)
    (small : len < 256) :
    ParsedLayer packet others hdr size buffer copied offset len more kept c e := by
  have touches := rest.touches
  rw [taken.framed.frame] at touches
  exact ⟨taken.framed.trans rest, taken.sliced.of_touches touches apartSize apartHdr,
    taken.denotes.of_touches taken.sliced touches apartHdr (fun _ => apartBuffer) (by omega)⟩

/-- The facts about fields the layer 3 step relies on. -/
theorem l3_apart {r7 : BitVec 64} {len : Nat} (known : l3Len r7 = some len) :
    len < 256 ∧ Footprint.apart [(.l3Hdr, 8)] .l2 len = true ∧
      Footprint.apart ipv6StubFootprint .l2 len = true ∧
      ∀ copied, Footprint.apart ((.l3Hdr, 8) :: slicePrint .l2 copied len) .l3Size 1 = true := by
  rcases l3Len_cases known with ⟨-, rfl⟩ | ⟨-, rfl⟩ <;> decide

theorem parseL3BodySlots_eq (p : BfProgram) (id : BitVec 32) :
    parseL3BodySlots p id = (sliceSlots .l3Size .l3Offset .l2 id ++
      (skipOver (bpfJmpImm .ne 0 0 0) (errorExitSlots p l3Msg) ++
        ([bpfStxMem .dw 10 0 (ctxOff .l3Hdr)] : List Emitted))) ++
      (parseIpv4Slots ++ parseIpv6Slots p.chain.flags) := by
  simp only [parseL3BodySlots, List.append_assoc]

/-- The slice of layer 3. -/
theorem takeL3_ends {id : BitVec 32} {c : Core W} {len : Nat}
    (slice : PacketSlice env id packet copies (c.regs 10) others) (p : BfProgram)
    (known : l3Len (c.regs 7) = some len) :
    Ends env ((sliceSlots .l3Size .l3Offset .l2 id ++
        (skipOver (bpfJmpImm .ne 0 0 0) (errorExitSlots p l3Msg) ++
          ([bpfStxMem .dw 10 0 (ctxOff .l3Hdr)] : List Emitted))).map (Emitted.link maps))
      (c.setReg 4 (BitVec.ofNat 64 len))
      (Taken (packet c.world) others .l3Hdr .l3Size .l2
        (copies c.world (offsetAt .l3Offset (c.regs 10) c.mem) (ctxAddr (c.regs 10) .l2) len)
        (offsetAt .l3Offset (c.regs 10) c.mem) len [7] c)
      (Bailed env maps p [(.l3Size, 1), (.l2, len)] c) := by
  let s := c.setReg 4 (BitVec.ofNat 64 len)
  have sized : Framed [] [7] c s := (Framed.refl [] [7] c).setReg _ (by decide) (by decide)
  obtain ⟨small, apartBuffer, apartStub, apartSize⟩ := l3_apart known
  have sliceFrom : PacketSlice env id packet copies (s.regs 10) others := slice
  exact (takeSlice_ends .l3Offset [7] sliceFrom (by decide) rfl small rfl (by decide)
    apartBuffer (apartSize _) p l3Msg).mono (fun d taken => taken.after_sized (by decide))
    fun d bailed => bailed.after sized

theorem parseL3Body_ends {id : BitVec 32} {c : Core W} {len : Nat}
    (slice : PacketSlice env id packet copies (c.regs 10) others) (stubs : Ipv6StubsWrite env)
    (p : BfProgram) (known : l3Len (c.regs 7) = some len) :
    Ends env ((parseL3BodySlots p id).map (Emitted.link maps)) (c.setReg 4 (BitVec.ofNat 64 len))
      (ParsedLayer (packet c.world) others .l3Hdr .l3Size .l2
        (copies c.world (offsetAt .l3Offset (c.regs 10) c.mem) (ctxAddr (c.regs 10) .l2) len)
        (offsetAt .l3Offset (c.regs 10) c.mem) len ipv6StubFootprint [7] c)
      (Bailed env maps p [(.l3Size, 1), (.l2, len)] c) := by
  obtain ⟨small, apartBuffer, apartStub, apartSize⟩ := l3_apart known
  rw [parseL3BodySlots_eq, List.map_append]
  refine (takeL3_ends slice p known).append fun d taken => ?_
  rw [List.map_append]
  apply Ends.append parseIpv4_ends
  intro e four
  refine (parseIpv6_ends stubs p.chain.flags).mono (fun g six => ?_) fun _ bailed => bailed
  exact taken.layer ((four.trans six).mono (by decide)) (by decide) (by decide) apartStub small

/-- A protocol without parser is forgotten, and the body skipped. -/
theorem eval_parseL3_none {id : BitVec 32} {c : Core W} (p : BfProgram)
    (unknown : l3Len (c.regs 7) = none) :
    eval env 0 ((parseL3Slots p id).map (Emitted.link maps)) c = .fall 0 (c.setReg 7 0) := by
  have skips : (bpfJmpImm .eq 7 0 0).taken (c.setReg 7 0) = true := by
    rw [taken_eq]
    exact decide_eq_true rfl
  have short := errorExitSlots_length p l3Msg
  rw [parseL3Slots, List.map_append, eval_append_fall _ (eval_l3Sizes c), unknown]
  refine eval_skipOver_taken rfl _ skips ?_
  simp [parseL3BodySlots, sliceSlots, skipOver, parseIpv4Slots, parseIpv6Slots]
  omega

/-- For a known protocol, the body runs with the size of the header. -/
theorem eval_parseL3_some {id : BitVec 32} {c : Core W} (p : BfProgram) {len : Nat}
    (known : l3Len (c.regs 7) = some len) :
    eval env 0 ((parseL3Slots p id).map (Emitted.link maps)) c =
      eval env 0 ((parseL3BodySlots p id).map (Emitted.link maps))
        (c.setReg 4 (BitVec.ofNat 64 len)) := by
  have enters : (bpfJmpImm .eq 7 0 0).taken (c.setReg 4 (BitVec.ofNat 64 len)) = false := by
    rw [taken_eq]
    refine decide_eq_false ?_
    rcases l3Len_cases known with ⟨is, -⟩ | ⟨is, -⟩ <;>
      simp only [Core.setReg_regs, Fin.reduceEq, if_false, is] <;> decide
  rw [parseL3Slots, List.map_append, eval_append_fall _ (eval_l3Sizes c), known]
  exact eval_skipOver_idle rfl _ enters

theorem parseL3_ends {id : BitVec 32} {c : Core W}
    (slice : PacketSlice env id packet copies (c.regs 10) others) (stubs : Ipv6StubsWrite env)
    (p : BfProgram) :
    Ends env ((parseL3Slots p id).map (Emitted.link maps)) c
      (ParsedL3 (packet c.world) others (copies c.world (offsetAt .l3Offset (c.regs 10) c.mem)
        (ctxAddr (c.regs 10) .l2)) c)
      (Bailed env maps p (bailPrint .l3Size .l2 (l3Len (c.regs 7))) c) := by
  cases known : l3Len (c.regs 7) with
  | none =>
      refine .of_fall (eval_parseL3_none p known) ?_
      rw [ParsedL3, known]
  | some len =>
      refine Ends.of_eval_eq (eval_parseL3_some p known) ?_
      refine (parseL3Body_ends slice stubs p known).mono (fun d parsed => ?_) fun _ bailed => bailed
      rw [ParsedL3, known]
      exact parsed

theorem parseL4Body_ends {id : BitVec 32} {c : Core W} {len : Nat}
    (slice : PacketSlice env id packet copies (c.regs 10) others) (p : BfProgram)
    (known : l4Len (c.regs 8) = some len) :
    Ends env ((parseL4BodySlots p id).map (Emitted.link maps)) (c.setReg 4 (BitVec.ofNat 64 len))
      (ParsedLayer (packet c.world) others .l4Hdr .l4Size .l4
        (copies c.world (offsetAt .l4Offset (c.regs 10) c.mem) (ctxAddr (c.regs 10) .l4) len)
        (offsetAt .l4Offset (c.regs 10) c.mem) len [] [7, 8] c)
      (Bailed env maps p [(.l4Size, 1), (.l4, len)] c) := by
  let s := c.setReg 4 (BitVec.ofNat 64 len)
  have sized : Framed [] [7, 8] c s := (Framed.refl [] [7, 8] c).setReg _ (by decide) (by decide)
  have apart : len < 256 ∧ Footprint.apart [(.l4Hdr, 8)] .l4 len = true ∧
      Footprint.apart [] .l4 len = true ∧
      ∀ copied, Footprint.apart ((.l4Hdr, 8) :: slicePrint .l4 copied len) .l4Size 1 = true := by
    rcases (l4Len_cases known).2 with rfl | rfl <;> decide
  obtain ⟨small, apartBuffer, apartNone, apartSize⟩ := apart
  have sliceFrom : PacketSlice env id packet copies (s.regs 10) others := slice
  rw [parseL4BodySlots, List.append_assoc]
  refine (takeSlice_ends .l4Offset [7, 8] sliceFrom (by decide) rfl small rfl (by decide)
    apartBuffer (apartSize _) p l4Msg).mono (fun d taken => ?_) fun d bailed => bailed.after sized
  exact (taken.after_sized (by decide)).layer (.refl [] _ d) (by decide) (by decide) apartNone small

theorem parseL4_ends {id : BitVec 32} {c : Core W}
    (slice : PacketSlice env id packet copies (c.regs 10) others) (p : BfProgram) :
    Ends env ((parseL4Slots p id).map (Emitted.link maps)) c
      (ParsedL4 (packet c.world) others (copies c.world (offsetAt .l4Offset (c.regs 10) c.mem)
        (ctxAddr (c.regs 10) .l4)) c)
      (Bailed env maps p (bailPrint .l4Size .l4 (l4Len (c.regs 8))) c) := by
  rw [parseL4Slots, List.map_append]
  apply Ends.append_fall (eval_l4Sizes c)
  cases known : l4Len (c.regs 8) with
  | none =>
      have skips : (bpfJmpImm .eq 8 0 0).taken (c.setReg 8 0) = true := by
        rw [taken_eq]
        exact decide_eq_true rfl
      have short := errorExitSlots_length p l4Msg
      refine .of_fall (eval_skipOver_taken rfl _ skips ?_) ?_
      · simp [parseL4BodySlots, sliceSlots, skipOver]
        omega
      · rw [ParsedL4, known]
        rfl
  | some len =>
      have enters : (bpfJmpImm .eq 8 0 0).taken (c.setReg 4 (BitVec.ofNat 64 len)) = false := by
        rw [taken_eq]
        exact decide_eq_false (l4Len_cases known).1
      refine Ends.of_eval_eq (eval_skipOver_idle rfl _ enters) ?_
      refine (parseL4Body_ends slice p known).mono (fun d parsed => ?_) fun _ bailed => bailed
      rw [ParsedL4, known]
      exact parsed

end Bpfilter
