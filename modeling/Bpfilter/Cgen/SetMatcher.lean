/-
# Cgen.SetMatcher -- what the set matcher decides

The code of a set matcher checks the protocols of its components, copies their
header fields one after the other into the scratch area, and looks the result up
in the map of the set.  `eval_setKey` executes the copy: the scratch area then
holds the packet's tuple, laid out as the elements of the set are
(`laidOut_packetTuple`).  The key of a trie is a full-length prefix
(`eval_trieKey`).

`bfMatcherGenerateSet_matches` is the result: over a map that is exact, or a trie
that hits when a prefix covers the key, the matcher holds for the packets whose
tuple is in the set.

Nothing bounds the size of an element but the number of its components, and the
scratch area has 64 bytes: `setKeyStores_inside_iff`.
-/
import Bpfilter.Lib.Address
import Bpfilter.Lib.Set
import Bpfilter.Cgen.MatcherSlots

namespace Bpfilter

set_option autoImplicit false

open Ebpf

/-! ## The packet -/

section Packet

variable {W : Type}

/-- The header pointer of a layer. -/
def headerField : BfMatcherLayer → RuntimeField
  | .layer3 => .l3Hdr
  | _ => .l4Hdr

def hdrAddr (c : Core W) (info : BfMatcherMeta) : Addr :=
  c.mem.load (ctxAddr (c.regs 10) (headerField info.layer)) 8

/-- Where a component is in the packet. -/
def fieldAddr (c : Core W) (info : BfMatcherMeta) : Addr :=
  hdrAddr c info + BitVec.ofNat 64 info.hdrPayloadOffset

/-- The header bytes of a component. -/
def fieldBytes (c : Core W) (type : BfMatcherType) : List Byte :=
  match bfMatcherGetMeta type with
  | none => []
  | some info => c.mem.bytesAt (fieldAddr c info) info.hdrPayloadSize

/-- The packet's tuple for a key. -/
def packetTuple (c : Core W) (key : List BfMatcherType) : List Byte := key.flatMap (fieldBytes c)

/-- The packet has the protocol a component is read from. -/
def carries (c : Core W) (type : BfMatcherType) : Bool :=
  match bfMatcherGetMeta type with
  | none => false
  | some info =>
      match info.layer with
      | .layer3 => c.regs 7 = (htobe16 (info.hdrId.setWidth 16)).setWidth 64
      | .layer4 => c.regs 8 = (info.hdrId.setWidth 8).setWidth 64
      | _ => false

/-- The scratch area does not overlap the header fields of the key. -/
def ScratchApart (c : Core W) (key : List BfMatcherType) : Prop :=
  ∀ type ∈ key, ∀ info, bfMatcherGetMeta type = some info →
    Mem.Disjoint (fieldAddr c info) info.hdrPayloadSize (ctxAddr (c.regs 10) .scratch) 64

/-- The state after the scratch area was written. -/
def scratchWritten (c : Core W) (off : Nat) (bytes : List Byte) : Core W :=
  { c with mem := c.mem.write (ctxAddr (c.regs 10) .scratch + BitVec.ofNat 64 off) bytes }

@[simp] theorem scratchWritten_regs (c : Core W) (off : Nat) (bytes : List Byte) :
    (scratchWritten c off bytes).regs = c.regs := by rw [scratchWritten]

@[simp] theorem scratchWritten_world (c : Core W) (off : Nat) (bytes : List Byte) :
    (scratchWritten c off bytes).world = c.world := by rw [scratchWritten]

theorem scratchWritten_mem (c : Core W) (off : Nat) (bytes : List Byte) :
    (scratchWritten c off bytes).mem =
      c.mem.write (ctxAddr (c.regs 10) .scratch + BitVec.ofNat 64 off) bytes := by
  rw [scratchWritten]

/-- Writing on is writing more. -/
theorem scratchWritten_append (c : Core W) (off : Nat) (first second : List Byte)
    (small : first.length + second.length ≤ 2 ^ 64) :
    scratchWritten (scratchWritten c off first) (off + first.length) second =
      scratchWritten c off (first ++ second) := by
  have target : ctxAddr (c.regs 10) .scratch + BitVec.ofNat 64 (off + first.length) =
      ctxAddr (c.regs 10) .scratch + BitVec.ofNat 64 off + BitVec.ofNat 64 first.length := by
    rw [BitVec.ofNat_add, ← add_assoc]
  have whole := Mem.write_append c.mem (ctxAddr (c.regs 10) .scratch + BitVec.ofNat 64 off) first
    second small
  rw [← target] at whole
  rw [scratchWritten, scratchWritten_regs, scratchWritten_mem, scratchWritten_world, whole,
    scratchWritten]

theorem eqOutside_scratchWritten {rs : List Reg} {c d : Core W} (same : d.EqOutside rs c)
    (frame : 10 ∉ rs) (off : Nat) (bytes : List Byte) :
    (scratchWritten d off bytes).EqOutside rs (scratchWritten c off bytes) := by
  refine ⟨fun r outside => ?_, ?_, ?_⟩
  · rw [scratchWritten_regs, scratchWritten_regs, same.regs r outside]
  · rw [scratchWritten_mem, scratchWritten_mem, same.mem, same.regs 10 frame]
  · rw [scratchWritten_world, scratchWritten_world, same.world]

/-- The registers the copy uses. -/
def setClobbers : List Reg := [1, 6]

variable {c d : Core W} {off : Nat} {bytes : List Byte}

/-- A part of the scratch area is disjoint from what the whole is. -/
theorem disjoint_scratch {a : Addr} {n off k : Nat} {r10 : BitVec 64}
    (apart : Mem.Disjoint a n (ctxAddr r10 .scratch) 64) (fits : off + k ≤ 64) :
    Mem.Disjoint a n (ctxAddr r10 .scratch + BitVec.ofNat 64 off) k :=
  apart.sub off k fits (by omega)

/-- The header pointers survive. -/
theorem hdrAddr_scratch (same : d.EqOutside setClobbers (scratchWritten c off bytes))
    (fits : off + bytes.length ≤ 64) (info : BfMatcherMeta) : hdrAddr d info = hdrAddr c info := by
  have frame : d.regs 10 = c.regs 10 := same.regs 10 (by decide)
  have apart : Mem.Disjoint (ctxAddr (c.regs 10) (headerField info.layer)) 8
      (ctxAddr (c.regs 10) .scratch) 64 := by
    apply disjoint_ctx <;> cases info.layer <;> decide
  rw [hdrAddr, hdrAddr, frame, same.mem]
  exact Mem.load_write_disjoint _ _ (disjoint_scratch apart fits) (by omega)

theorem fieldAddr_scratch (same : d.EqOutside setClobbers (scratchWritten c off bytes))
    (fits : off + bytes.length ≤ 64) (info : BfMatcherMeta) :
    fieldAddr d info = fieldAddr c info := by
  rw [fieldAddr, fieldAddr, hdrAddr_scratch same fits]

/-- So do the fields of the key. -/
theorem fieldBytes_scratch (same : d.EqOutside setClobbers (scratchWritten c off bytes))
    (fits : off + bytes.length ≤ 64) {key : List BfMatcherType} (apart : ScratchApart c key)
    {type : BfMatcherType} (mem : type ∈ key) : fieldBytes d type = fieldBytes c type := by
  unfold fieldBytes
  cases known : bfMatcherGetMeta type with
  | none => rfl
  | some info =>
      have small : info.hdrPayloadSize ≤ 2 ^ 64 := by
        cases type <;> cases known <;> decide
      simp only [fieldAddr_scratch same fits, same.mem]
      exact Mem.bytesAt_write_disjoint _ _
        (disjoint_scratch (apart type mem info known) fits) small

theorem ScratchApart.scratch (same : d.EqOutside setClobbers (scratchWritten c off bytes))
    (fits : off + bytes.length ≤ 64) {key : List BfMatcherType} (apart : ScratchApart c key) :
    ScratchApart d key := by
  intro type mem info known
  rw [fieldAddr_scratch same fits, show d.regs 10 = c.regs 10 from same.regs 10 (by decide)]
  exact apart type mem info known

theorem packetTuple_scratch (same : d.EqOutside setClobbers (scratchWritten c off bytes))
    (fits : off + bytes.length ≤ 64) {key : List BfMatcherType} (apart : ScratchApart c key) :
    packetTuple d key = packetTuple c key := by
  unfold packetTuple
  exact List.flatMap_congr fun type mem => fieldBytes_scratch same fits apart mem

end Packet

/-! ## Execution -/

section Execution

variable {W : Type} {env : Env W BfElfstubId} {maps : BfMaps} {c : Core W}

theorem ofNat16_signExtend {n : Nat} (small : n < 2 ^ 15) :
    (BitVec.ofNat 16 n).signExtend 64 = BitVec.ofNat 64 n := by
  have value : (BitVec.ofNat 16 n).toInt = n := by
    rw [BitVec.toInt_eq_toNat_of_lt (by rw [BitVec.toNat_ofNat]; omega), BitVec.toNat_ofNat,
      Nat.mod_eq_of_lt (by omega)]
  rw [BitVec.signExtend, value, BitVec.ofInt_natCast]

theorem eval_copyPiece (piece : Size) (start off : Nat) (inHeader : start < 2 ^ 15)
    (fits : off ≤ 64) :
    ∃ e, (∀ rest : List (Item BfElfstubId),
        eval env 0 (.insn (bpfLdxMem piece 1 6 (BitVec.ofNat 16 start)) ::
          .insn (bpfStxMem piece 10 1 (scrOff off)) :: rest) c = eval env 0 rest e) ∧
      e.EqOutside [1] (scratchWritten c off
        (c.mem.bytesAt (c.regs 6 + BitVec.ofNat 64 start) piece.bytes)) := by
  have le8 : piece.bytes ≤ 8 := by cases piece <;> decide
  generalize value : c.mem.load (c.regs 6 + BitVec.ofNat 64 start) piece.bytes = v
  refine ⟨(c.setReg 1 v).storeMem (ctxAddr (c.regs 10) .scratch + BitVec.ofNat 64 off) piece.bytes v,
    fun rest => ?_, ?_, ?_, ?_⟩
  · rw [eval_ldx, ofNat16_signExtend inHeader, value, eval_stx, add_scrOff _ fits]
    simp only [Core.setReg_regs, Fin.reduceEq, if_true, if_false]
  · intro r other
    have other' : r ≠ 1 := by simpa using other
    simp only [Core.storeMem_regs, Core.setReg_regs, other', if_false, scratchWritten_regs]
  · rw [Core.storeMem_mem, Core.setReg_mem, ← value, Mem.store_load _ _ _ _ le8, scratchWritten_mem]
  · simp only [Core.storeMem_world, Core.setReg_world, scratchWritten_world]

/-- One field is copied in pieces of the size its offset allows. -/
theorem eval_stxPayload (hdrOffset offset src remaining : Nat)
    (fits : offset + src + remaining ≤ 64) (inHeader : hdrOffset + src + remaining < 2 ^ 15)
    (apart : Mem.Disjoint (c.regs 6 + BitVec.ofNat 64 (hdrOffset + src)) remaining
      (ctxAddr (c.regs 10) .scratch) 64) :
    ∃ d, eval env 0 ((stxPayloadSlots hdrOffset offset src remaining).map (Emitted.link maps)) c =
        .fall 0 d ∧
      d.EqOutside [1] (scratchWritten c (offset + src)
        (c.mem.bytesAt (c.regs 6 + BitVec.ofNat 64 (hdrOffset + src)) remaining)) := by
  induction remaining using Nat.strong_induction_on generalizing src c with
  | _ remaining ih =>
      unfold stxPayloadSlots
      split
      · rename_i none
        subst none
        refine ⟨c, rfl, fun _ _ => by rw [scratchWritten_regs], ?_, by rw [scratchWritten_world]⟩
        rw [scratchWritten_mem, Mem.bytesAt, Mem.write_nil]
      · rename_i some
        generalize size : stxCopySize offset remaining = piece
        have pos := stxCopySize_bytes_pos offset remaining
        have le := stxCopySize_bytes_le offset remaining (Nat.pos_of_ne_zero some)
        rw [size] at pos le
        have le8 : piece.bytes ≤ 8 := by cases piece <;> decide
        obtain ⟨e, first, moved⟩ := @eval_copyPiece W env c piece (hdrOffset + src)
          (offset + src) (by omega) (by omega)
        have regs6 : e.regs 6 = c.regs 6 := by
          rw [moved.regs 6 (by decide), scratchWritten_regs]
        have regs10 : e.regs 10 = c.regs 10 := by
          rw [moved.regs 10 (by decide), scratchWritten_regs]
        have next : c.regs 6 + BitVec.ofNat 64 (hdrOffset + src) + BitVec.ofNat 64 piece.bytes =
            c.regs 6 + BitVec.ofNat 64 (hdrOffset + (src + piece.bytes)) := by
          rw [← Nat.add_assoc, BitVec.ofNat_add (hdrOffset + src), ← add_assoc]
        have apart' : Mem.Disjoint (e.regs 6 + BitVec.ofNat 64 (hdrOffset + (src + piece.bytes)))
            (remaining - piece.bytes) (ctxAddr (e.regs 10) .scratch) 64 := by
          rw [regs6, regs10, ← next]
          exact (apart.symm.sub piece.bytes (remaining - piece.bytes) (by omega) (by omega)).symm
        obtain ⟨d, ran, same⟩ := @ih (remaining - piece.bytes) (by omega) e
          (src + piece.bytes) (by omega) (by omega) apart'
        have length := Mem.bytesAt_length c.mem (c.regs 6 + BitVec.ofNat 64 (hdrOffset + src))
          piece.bytes
        -- the rest of the field is not overwritten
        have kept : e.mem.bytesAt (e.regs 6 + BitVec.ofNat 64 (hdrOffset + (src + piece.bytes)))
              (remaining - piece.bytes) =
            c.mem.bytesAt (c.regs 6 + BitVec.ofNat 64 (hdrOffset + src) +
              BitVec.ofNat 64 piece.bytes) (remaining - piece.bytes) := by
          rw [regs6, regs10] at apart'
          rw [moved.mem, scratchWritten_mem, regs6, next]
          exact Mem.bytesAt_write_disjoint _ _
            (disjoint_scratch apart' (by rw [length]; omega)) (by omega)
        refine ⟨d, ?_, ?_⟩
        · simp only [List.map_cons, link_insn]
          rw [first, ran]
        · have whole := same.trans (eqOutside_scratchWritten moved (by decide) _ _)
          rw [kept, ← Nat.add_assoc, show offset + src + piece.bytes = offset + src +
              (c.mem.bytesAt (c.regs 6 + BitVec.ofNat 64 (hdrOffset + src)) piece.bytes).length by
            rw [length], scratchWritten_append _ _ _ _ (by simp only [Mem.bytesAt_length]; omega),
            ← Mem.bytesAt_append, Nat.add_sub_cancel' le] at whole
          exact whole

/-- The header pointer is loaded into `r6`. -/
theorem eval_loadHeader {info : BfMatcherMeta}
    (inPacket : info.layer = .layer3 ∨ info.layer = .layer4) :
    eval env 0 ((loadHeaderSlots info).map (Emitted.link maps)) c =
      .fall 0 (c.setReg 6 (hdrAddr c info)) := by
  unfold loadHeaderSlots hdrAddr
  rcases inPacket with layer | layer <;>
    simp only [layer, List.map_cons, List.map_nil, link_insn, headerField] <;>
    rw [eval_ldx, eval_nil, add_ctxOff, show Size.dw.bytes = 8 from rfl]

/-- One component of a key. -/
theorem eval_component {type : BfMatcherType} {info : BfMatcherMeta} {offset : Nat}
    (known : bfMatcherGetMeta type = some info)
    (inPacket : info.layer = .layer3 ∨ info.layer = .layer4)
    (inHeader : info.hdrPayloadOffset + info.hdrPayloadSize ≤ 40)
    (fits : offset + info.hdrPayloadSize ≤ 64)
    (apart : Mem.Disjoint (fieldAddr c info) info.hdrPayloadSize
      (ctxAddr (c.regs 10) .scratch) 64) :
    ∃ d, eval env 0 ((loadHeaderSlots info ++
          stxPayloadSlots info.hdrPayloadOffset offset 0 info.hdrPayloadSize).map
            (Emitted.link maps)) c = .fall 0 d ∧
      d.EqOutside setClobbers (scratchWritten c offset (fieldBytes c type)) := by
  have loaded : (c.setReg 6 (hdrAddr c info)).regs 6 = hdrAddr c info := by
    rw [Core.setReg_regs, if_pos rfl]
  have frame : (c.setReg 6 (hdrAddr c info)).regs 10 = c.regs 10 := by
    rw [Core.setReg_regs, if_neg (by decide)]
  obtain ⟨d, ran, same⟩ := @eval_stxPayload W env maps
    (c.setReg 6 (hdrAddr c info)) info.hdrPayloadOffset offset 0 info.hdrPayloadSize
    (by omega) (by omega) (by rw [loaded, frame]; exact apart)
  refine ⟨d, ?_, ?_⟩
  · rw [List.map_append, eval_append_fall _ (eval_loadHeader inPacket), ran]
  · have start : (c.setReg 6 (hdrAddr c info)).EqOutside setClobbers c :=
      (Core.EqOutside.refl _ c).setReg (by decide) _
    have wide : d.EqOutside setClobbers (scratchWritten (c.setReg 6 (hdrAddr c info)) offset
        (fieldBytes c type)) := by
      rw [loaded, Core.setReg_mem, Nat.add_zero, Nat.add_zero] at same
      rw [fieldBytes, known]
      refine ⟨fun r outside => same.regs r ?_, same.mem, same.world⟩
      rw [List.mem_singleton]
      rintro rfl
      exact outside (by decide)
    exact wide.trans (eqOutside_scratchWritten start (by decide) _ _)

/-- **The key.**  The components end up one after the other in the scratch area. -/
theorem eval_setKey {key : List BfMatcherType} {offset : Nat}
    (supported : ∀ type ∈ key, (bfMatcherGetOps type .inSet).isSome)
    (plain : ∀ type ∈ key, type.isNet = false) (fits : offset + keySize key ≤ 64)
    (apart : ScratchApart c key) :
    ∃ d, eval env 0 ((setKeySlots offset key).map (Emitted.link maps)) c = .fall 0 d ∧
      d.EqOutside setClobbers (scratchWritten c offset (packetTuple c key)) ∧
      (packetTuple c key).length = keySize key := by
  induction key generalizing offset c with
  | nil =>
      refine ⟨c, rfl, ⟨fun _ _ => by rw [scratchWritten_regs], ?_, by rw [scratchWritten_world]⟩, rfl⟩
      rw [scratchWritten_mem, packetTuple, List.flatMap_nil, Mem.write_nil]
  | cons type key ih =>
      obtain ⟨info, known, size, inPacket, inHeader⟩ := component_meta
        (supported type (List.mem_cons_self ..))
      have total : keySize (type :: key) = info.hdrPayloadSize + keySize key := by
        rw [size (plain type (List.mem_cons_self ..))]
        rfl
      have width : (fieldBytes c type).length = info.hdrPayloadSize := by
        rw [fieldBytes, known, Mem.bytesAt_length]
      obtain ⟨d, first, same⟩ := @eval_component W env maps c type info offset known
        inPacket inHeader (by omega) (apart type (List.mem_cons_self ..) info known)
      have apartKey : ScratchApart c key := fun t mem => apart t (List.mem_cons_of_mem _ mem)
      obtain ⟨e, rest, same', length⟩ := @ih d (offset + info.hdrPayloadSize)
        (fun t mem => supported t (List.mem_cons_of_mem _ mem))
        (fun t mem => plain t (List.mem_cons_of_mem _ mem)) (by omega)
        (apartKey.scratch same (by omega))
      have tuple := packetTuple_scratch same (by omega) apartKey
      rw [tuple] at same' length
      refine ⟨e, ?_, ?_, ?_⟩
      · rw [setKeySlots, known]
        simp only
        rw [← List.append_assoc, List.map_append, eval_append_fall _ first, rest]
      · have whole := same'.trans (eqOutside_scratchWritten same (by decide) _ _)
        rw [← width, scratchWritten_append _ _ _ _ (by omega)] at whole
        exact whole
      · rw [packetTuple, List.flatMap_cons, List.length_append, width, total]
        exact congrArg _ length

/-- A packet without the protocol of a component leaves for the next rule. -/
theorem eval_checkProtocol {type : BfMatcherType} {info : BfMatcherMeta}
    (known : bfMatcherGetMeta type = some info)
    (inPacket : info.layer = .layer3 ∨ info.layer = .layer4) :
    eval env 0 ((checkProtocolSlots info).map (Emitted.link maps)) c =
      if carries c type then .fall 0 c else .out c := by
  unfold checkProtocolSlots carries
  rcases inPacket with layer | layer
  · simp only [known, layer, List.map_cons, List.map_nil]
    rw [eval_nextSlot rfl, taken_imm, eval_nil, signExtend_half, JmpOp.eval]
    by_cases same : c.regs 7 = (htobe16 (info.hdrId.setWidth 16)).setWidth 64 <;> simp [same]
  · simp only [known, layer, List.map_cons, List.map_nil]
    rw [eval_nextSlot rfl, taken_imm, eval_nil, signExtend_byte, JmpOp.eval]
    by_cases same : c.regs 8 = (info.hdrId.setWidth 8).setWidth 64 <;> simp [same]

/-- The protocols of all components are checked first. -/
theorem eval_setProtocols {key : List BfMatcherType}
    (supported : ∀ type ∈ key, (bfMatcherGetOps type .inSet).isSome) :
    eval env 0 ((setProtocolsSlots key).map (Emitted.link maps)) c =
      if key.all (carries c) then .fall 0 c else .out c := by
  induction key with
  | nil => rfl
  | cons type key ih =>
      obtain ⟨info, known, -, inPacket, -⟩ := component_meta (supported type (List.mem_cons_self ..))
      have first := @eval_checkProtocol W env maps c _ _ known inPacket
      rw [setProtocolsSlots, known, List.map_append, List.all_cons]
      cases has : carries c type with
      | true =>
          rw [has, if_pos rfl] at first
          rw [eval_append_fall _ first, Bool.true_and,
            ih fun t mem => supported t (List.mem_cons_of_mem _ mem)]
      | false =>
          rw [has, if_neg Bool.false_ne_true] at first
          rw [eval_append_out _ first, Bool.false_and]
          rfl

/-- A piece copied behind what the scratch area already holds. -/
theorem eval_copyNext {e : Core W} {off start : Nat} {bytes : List Byte} (piece : Size)
    (same : e.EqOutside [1] (scratchWritten c off bytes)) (inHeader : start < 2 ^ 15)
    (fits : off + bytes.length + piece.bytes ≤ 64)
    (apart : Mem.Disjoint (c.regs 6 + BitVec.ofNat 64 start) piece.bytes
      (ctxAddr (c.regs 10) .scratch) 64) :
    ∃ d, (∀ rest : List (Item BfElfstubId),
        eval env 0 (.insn (bpfLdxMem piece 1 6 (BitVec.ofNat 16 start)) ::
          .insn (bpfStxMem piece 10 1 (scrOff (off + bytes.length))) :: rest) e =
            eval env 0 rest d) ∧
      d.EqOutside [1] (scratchWritten c off
        (bytes ++ c.mem.bytesAt (c.regs 6 + BitVec.ofNat 64 start) piece.bytes)) := by
  obtain ⟨d, ran, moved⟩ := @eval_copyPiece W env e piece start
    (off + bytes.length) inHeader (by omega)
  have regs6 : e.regs 6 = c.regs 6 := by rw [same.regs 6 (by decide), scratchWritten_regs]
  have field : e.mem.bytesAt (e.regs 6 + BitVec.ofNat 64 start) piece.bytes =
      c.mem.bytesAt (c.regs 6 + BitVec.ofNat 64 start) piece.bytes := by
    rw [same.mem, scratchWritten_mem, regs6]
    exact Mem.bytesAt_write_disjoint _ _ (disjoint_scratch apart (by omega)) (by omega)
  refine ⟨d, ran, ?_⟩
  have whole := moved.trans (eqOutside_scratchWritten same (by decide) _ _)
  rwa [field, scratchWritten_append _ _ _ _ (by rw [Mem.bytesAt_length]; omega)] at whole

/-- The prefix length of a trie key. -/
def triePrefix (type : BfMatcherType) : List Byte :=
  match type with
  | .ip4Snet | .ip4Dnet => [32, 0, 0, 0]
  | _ => [128, 0, 0, 0]

theorem eval_storePrefix (imm : BitVec 32) :
    ∃ e, (∀ rest : List (Item BfElfstubId),
        eval env 0 (.insn (bpfMov64Imm 1 imm) :: .insn (bpfStxMem .w 10 1 (scrOff 4)) :: rest) c =
          eval env 0 rest e) ∧
      e.EqOutside [1]
        (scratchWritten c 4 ((List.range 4).map (Mem.byteOf (imm.signExtend 64)))) := by
  refine ⟨(c.setReg 1 (imm.signExtend 64)).storeMem
    (ctxAddr (c.regs 10) .scratch + BitVec.ofNat 64 4) 4 (imm.signExtend 64),
    fun rest => ?_, ?_, ?_, ?_⟩
  · rw [eval_mov64Imm, eval_stx, add_scrOff _ (by omega)]
    simp only [Core.setReg_regs, Fin.reduceEq, if_true, if_false]
    rfl
  · intro r other
    have other' : r ≠ 1 := by simpa using other
    simp only [Core.storeMem_regs, Core.setReg_regs, other', if_false, scratchWritten_regs]
  · rw [Core.storeMem_mem, Core.setReg_mem, Mem.store_eq_write, scratchWritten_mem]
  · simp only [Core.storeMem_world, Core.setReg_world, scratchWritten_world]

/-- The key of a trie: a prefix as long as the address, then the address. -/
theorem eval_trieKey {type : BfMatcherType} {info : BfMatcherMeta} (net : type.isNet = true)
    (known : bfMatcherGetMeta type = some info) (loaded : c.regs 6 = hdrAddr c info)
    (apart : Mem.Disjoint (fieldAddr c info) info.hdrPayloadSize
      (ctxAddr (c.regs 10) .scratch) 64) :
    ∃ d, eval env 0 ((trieKeySlots type info.hdrPayloadOffset).map (Emitted.link maps)) c =
        .fall 0 d ∧
      d.EqOutside [1] (scratchWritten c 4 (triePrefix type ++ fieldBytes c type)) := by
  rw [fieldBytes, known]
  have narrow : ∀ start, info.hdrPayloadOffset = start → info.hdrPayloadSize = 4 → start < 2 ^ 15 →
      trieKeySlots type start = ([bpfMov64Imm 1 32, bpfStxMem .w 10 1 (scrOff 4),
        bpfLdxMem .w 1 6 (BitVec.ofNat 16 start), bpfStxMem .w 10 1 (scrOff 8)] : List Emitted) →
      triePrefix type = [32, 0, 0, 0] →
      ∃ d, eval env 0 ((trieKeySlots type start).map (Emitted.link maps)) c = .fall 0 d ∧
        d.EqOutside [1] (scratchWritten c 4
          (triePrefix type ++ c.mem.bytesAt (fieldAddr c info) info.hdrPayloadSize)) := by
    intro start offset size small slots pre
    rw [fieldAddr, ← loaded, offset, size] at apart
    obtain ⟨e, first, same⟩ := @eval_storePrefix W env c 32
    rw [show (List.range 4).map (Mem.byteOf ((32 : BitVec 32).signExtend 64)) = [32, 0, 0, 0] by
      decide] at same
    obtain ⟨d, second, done⟩ := @eval_copyNext W env c _ _ _ _ .w same small (by decide) apart
    refine ⟨d, ?_, ?_⟩
    · rw [slots]
      simp only [List.map_cons, List.map_nil, link_insn]
      rw [first]
      exact (second []).trans (eval_nil _ _ _)
    · rw [pre, size, fieldAddr, ← loaded, offset]
      exact done
  have wide : ∀ start, info.hdrPayloadOffset = start → info.hdrPayloadSize = 16 →
      start + 8 < 2 ^ 15 →
      trieKeySlots type start = ([bpfMov64Imm 1 128, bpfStxMem .w 10 1 (scrOff 4),
        bpfLdxMem .dw 1 6 (BitVec.ofNat 16 start), bpfStxMem .dw 10 1 (scrOff 8),
        bpfLdxMem .dw 1 6 (BitVec.ofNat 16 (start + 8)), bpfStxMem .dw 10 1 (scrOff 16)] :
          List Emitted) →
      triePrefix type = [128, 0, 0, 0] →
      ∃ d, eval env 0 ((trieKeySlots type start).map (Emitted.link maps)) c = .fall 0 d ∧
        d.EqOutside [1] (scratchWritten c 4
          (triePrefix type ++ c.mem.bytesAt (fieldAddr c info) info.hdrPayloadSize)) := by
    intro start offset size small slots pre
    rw [fieldAddr, ← loaded, offset, size] at apart
    have apartLow := @Mem.Disjoint.mono _ _ _ _ 8 64 apart (by omega) (by omega)
    have apartHigh := (apart.symm.sub 8 8 (by omega) (by omega)).symm
    rw [add_assoc, ← BitVec.ofNat_add] at apartHigh
    obtain ⟨e, first, same⟩ := @eval_storePrefix W env c 128
    rw [show (List.range 4).map (Mem.byteOf ((128 : BitVec 32).signExtend 64)) = [128, 0, 0, 0] by
      decide] at same
    obtain ⟨f, second, same'⟩ := @eval_copyNext W env c _ _ _ _ .dw same (by omega) (by decide)
      apartLow
    have half : (([128, 0, 0, 0] : List Byte) ++
        c.mem.bytesAt (c.regs 6 + BitVec.ofNat 64 start) Size.dw.bytes).length = 12 := by
      rw [List.length_append, Mem.bytesAt_length]
      rfl
    obtain ⟨d, third, done⟩ := @eval_copyNext W env c _ _ _ _ .dw same' small
      (by rw [half]; decide) apartHigh
    rw [half] at third
    refine ⟨d, ?_, ?_⟩
    · rw [slots]
      simp only [List.map_cons, List.map_nil, link_insn]
      rw [first]
      exact (second _).trans ((third []).trans (eval_nil _ _ _))
    · rw [pre, size, fieldAddr, ← loaded, offset, show (16 : Nat) = 8 + 8 from rfl,
        Mem.bytesAt_append, add_assoc, ← BitVec.ofNat_add, ← List.append_assoc]
      exact done
  cases type <;> cases known <;> first
    | exact absurd net (by decide)
    | exact narrow _ rfl rfl (by decide) rfl rfl
    | exact wide _ rfl rfl (by decide) rfl rfl

/-- The call that looks the key up. -/
def lookupCall (env : Env W BfElfstubId) (maps : BfMaps) (index keyOff : Nat) (c : Core W) :
    Core W :=
  ((c.setReg 1 (env.mapAddr (maps.sets[index]?.getD 0))).setReg 2
    (ctxAddr (c.regs 10) .scratch + BitVec.ofNat 64 keyOff)).call (env.helper bpfFuncMapLookupElem)

theorem eval_setLookup {index keyOff : Nat} (small : keyOff ≤ 64) :
    eval env 0 ((setLookupSlots index keyOff).map (Emitted.link maps)) c =
      if (lookupCall env maps index keyOff c).regs 0 = 0 then
        .out (lookupCall env maps index keyOff c)
      else .fall 0 (lookupCall env maps index keyOff c) := by
  have loads : ∀ rest : List (Item BfElfstubId),
      eval env 0 ((loadFdSlots (.setMapFd index) 1).map (Emitted.link maps) ++ rest) c =
        eval env 0 rest (c.setReg 1 (env.mapAddr (maps.sets[index]?.getD 0))) := fun rest => rfl
  have calls : ∀ (rest : List (Item BfElfstubId)) (e : Core W),
      eval env 0 (.insn (bpfEmitCall bpfFuncMapLookupElem) :: rest) e =
        eval env 0 rest (e.call (env.helper bpfFuncMapLookupElem)) := fun rest e => rfl
  have frame : (c.setReg 1 (env.mapAddr (maps.sets[index]?.getD 0))).regs 10 = c.regs 10 := by
    rw [Core.setReg_regs, if_neg (by decide)]
  rw [setLookupSlots, List.map_append, loads]
  simp only [List.map_cons, List.map_nil, link_insn]
  rw [eval_mov64Reg, eval_alu64Imm, frame, Core.setReg_regs, if_pos rfl, AluOp.eval,
    add_scrImm _ small, Core.setReg_setReg, calls, eval_nextSlot rfl, eval_nil]
  rw [show ((c.setReg 1 (env.mapAddr (maps.sets[index]?.getD 0))).setReg 2
    (ctxAddr (c.regs 10) .scratch + BitVec.ofNat 64 keyOff)).call
      (env.helper bpfFuncMapLookupElem) = lookupCall env maps index keyOff c from rfl]
  rw [taken_imm, JmpOp.eval]
  by_cases zero : (lookupCall env maps index keyOff c).regs 0 = 0 <;> simp [zero]

end Execution

/-! ## Generation -/

/-- The generator succeeds and appends `es`. -/
def Yields (gen : Gen Unit) (es : List Emitted) : Prop := ∀ p, gen p = .ok ((), p.append es)

theorem Yields.bind {x y : Gen Unit} {a b : List Emitted} (first : Yields x a)
    (second : Yields y b) :
    Yields (do
      x
      y) (a ++ b) := by
  intro p
  rw [gen_bind_ok (first p), second, BfProgram.append_append]

theorem Yields.emit (insn : BpfInsn) : Yields (emit insn) [{ insn := insn }] := emit_eq insn

theorem Yields.next (insn : BpfInsn) : Yields (emitFixupJmpNextRule insn) [nextSlot insn] :=
  emitFixup_eq _ insn

theorem Yields.emit_bind {y : Gen Unit} {b : List Emitted} (insn : BpfInsn)
    (second : Yields y b) :
    Yields (do
      Bpfilter.emit insn
      y) ({ insn := insn } :: b) :=
  .bind (.emit insn) second

/-- The prefix length of a trie key, stored or looked up. -/
def lpmPrefixlen (key : List Byte) : Nat := (leBits 32 (key.take 4)).toNat

/-- The prefix of a trie element covers an address. -/
def prefixCovers (elem addr : List Byte) : Prop :=
  lpmPrefixlen elem ≤ 8 * addr.length ∧
    ∀ i < lpmPrefixlen elem, addrBit (elem.drop 4) i = addrBit addr i

/-- A trie has a prefix that covers the key. -/
def lpmHit (elems : List (List Byte)) (key : List Byte) : Prop :=
  ∃ elem ∈ elems, lpmPrefixlen elem ≤ lpmPrefixlen key ∧
    ∀ i < lpmPrefixlen elem, addrBit (elem.drop 4) i = addrBit (key.drop 4) i

/-- `bpf_map_lookup_elem` on the map of a set: the key is in a hash map, or is covered by a
prefix of a trie. -/
def SetMap {W : Type} (env : Env W BfElfstubId) (map : BitVec 64) (set : BfSet) : Prop :=
  ∀ (a : Args) (m : Mem) (w : W), a.r1 = map →
    ((env.helper bpfFuncMapLookupElem a m w).r0 ≠ 0 ↔
      if set.useTrie then lpmHit set.elems (m.bytesAt a.r2 set.elemSize)
      else m.bytesAt a.r2 set.elemSize ∈ set.elems)

/-- What the matcher should decide: the packet has the protocols of the key, and its tuple is
in the set or its address in one of the set's networks. -/
def setHolds {W : Type} (set : BfSet) (c : Core W) : Prop :=
  set.key.all (carries c) = true ∧
    if set.useTrie then ∃ elem ∈ set.elems, prefixCovers elem (packetTuple c set.key)
    else packetTuple c set.key ∈ set.elems

/-- A key with a full-length prefix hits when some prefix covers the address. -/
theorem lpmHit_full {elems : List (List Byte)} {pre addr rest : List Byte} (four : pre.length = 4)
    (full : (leBits 32 pre).toNat = 8 * addr.length) :
    lpmHit elems (pre ++ addr ++ rest) ↔ ∃ elem ∈ elems, prefixCovers elem addr := by
  have prefixlen : lpmPrefixlen (pre ++ addr ++ rest) = 8 * addr.length := by
    rw [lpmPrefixlen, List.append_assoc, List.take_left' four, full]
  have data : (pre ++ addr ++ rest).drop 4 = addr ++ rest := by
    rw [List.append_assoc, List.drop_left' four]
  unfold lpmHit prefixCovers
  rw [prefixlen, data]
  constructor
  · rintro ⟨elem, mem, le, agree⟩
    refine ⟨elem, mem, le, fun i lt => ?_⟩
    rw [agree i lt, addrBit_append (by omega)]
  · rintro ⟨elem, mem, le, agree⟩
    refine ⟨elem, mem, le, fun i lt => ?_⟩
    rw [agree i lt, addrBit_append (by omega)]

/-! ## The matcher -/

/-- The elements of a set are those of its constructor and `bf_set_add_elem`. -/
structure SetAccepted (set : BfSet) : Prop where
  key : AcceptedKey set.key
  elemSize : set.elemSize = keySize set.key
  useTrie : set.useTrie = (set.key.length == 1 && set.key.any (·.isNet))

theorem setAccepted_of_new {name : Option String} {key : List BfMatcherType} {set : BfSet}
    (ok : bfSetNew name key = .ok set) (elems : List (List Byte)) :
    SetAccepted { set with elems := elems } := by
  obtain ⟨accepted, rfl⟩ := bfSetNew_inv ok
  exact ⟨accepted, rfl, rfl⟩

section Matcher

variable {W : Type} {env : Env W BfElfstubId} {maps : BfMaps} {c : Core W} {set : BfSet}
variable {index : Nat}

/-- The lookup, given what the scratch area holds. -/
theorem eval_lookup_iff {d : Core W} (keyOff : Nat) (small : keyOff ≤ 64)
    (map : SetMap env (env.mapAddr (maps.sets[index]?.getD 0)) set) (hit : Prop)
    (hits : (if set.useTrie then lpmHit set.elems (d.mem.bytesAt
        (ctxAddr (d.regs 10) .scratch + BitVec.ofNat 64 keyOff) set.elemSize)
      else d.mem.bytesAt (ctxAddr (d.regs 10) .scratch + BitVec.ofNat 64 keyOff) set.elemSize ∈
        set.elems) ↔ hit) :
    ∃ e, (hit → eval env 0 ((setLookupSlots index keyOff).map (Emitted.link maps)) d = .fall 0 e) ∧
      (¬ hit → eval env 0 ((setLookupSlots index keyOff).map (Emitted.link maps)) d = .out e) := by
  let before := (d.setReg 1 (env.mapAddr (maps.sets[index]?.getD 0))).setReg 2
    (ctxAddr (d.regs 10) .scratch + BitVec.ofNat 64 keyOff)
  have arg1 : before.args.r1 = env.mapAddr (maps.sets[index]?.getD 0) := rfl
  have found := map before.args before.mem before.world arg1
  rw [show before.mem = d.mem from rfl, show before.args.r2 =
    ctxAddr (d.regs 10) .scratch + BitVec.ofNat 64 keyOff from rfl, hits] at found
  have returned : (lookupCall env maps index keyOff d).regs 0 ≠ 0 ↔ hit := by
    rw [lookupCall, Core.call_regs_zero]
    exact found
  refine ⟨lookupCall env maps index keyOff d, fun yes => ?_, fun no => ?_⟩
  · rw [eval_setLookup small, if_neg (returned.mpr yes)]
  · rw [eval_setLookup small, if_pos (not_not.mp (mt returned.mp no))]

/-- The packet's tuple in the scratch area. -/
theorem bytesAt_scratchWritten {d : Core W} {rs : List Reg} {off : Nat} {bytes : List Byte}
    (same : d.EqOutside rs (scratchWritten c off bytes)) (frame : 10 ∉ rs)
    (small : bytes.length ≤ 2 ^ 64) :
    d.mem.bytesAt (ctxAddr (d.regs 10) .scratch + BitVec.ofNat 64 off) bytes.length = bytes := by
  rw [same.mem, same.regs 10 frame, scratchWritten_regs, scratchWritten_mem,
    Mem.bytesAt_write_same _ _ _ small]

/-- Up to the lookup in a hash map. -/
theorem eval_setBuild (accepted : SetAccepted set) (hash : set.useTrie = false)
    (small : set.elemSize ≤ 64) (apart : ScratchApart c set.key)
    (all : set.key.all (carries c) = true) :
    ∃ d, eval env 0 ((setProtocolsSlots set.key ++ setKeySlots 0 set.key).map
        (Emitted.link maps)) c = .fall 0 d ∧
      d.mem.bytesAt (ctxAddr (d.regs 10) .scratch) set.elemSize = packetTuple c set.key := by
  have plain : ∀ type ∈ set.key, type.isNet = false := fun type mem =>
    accepted.key.no_net (accepted.useTrie.symm.trans hash) mem
  have checks := @eval_setProtocols W env maps c _ accepted.key.supported
  rw [all, if_pos rfl] at checks
  rw [accepted.elemSize] at small ⊢
  obtain ⟨d, ran, same, length⟩ := @eval_setKey W env maps c set.key 0
    accepted.key.supported plain (by omega) apart
  refine ⟨d, ?_, ?_⟩
  · rw [List.map_append, eval_append_fall _ checks, ran]
  · have bytes := bytesAt_scratchWritten same (by decide) (by omega)
    rwa [BitVec.add_zero, length] at bytes

/-- The code of a hash set. -/
theorem eval_hashSet (accepted : SetAccepted set) (hash : set.useTrie = false)
    (small : set.elemSize ≤ 64) (apart : ScratchApart c set.key)
    (map : SetMap env (env.mapAddr (maps.sets[index]?.getD 0)) set) :
    ∃ e, (setHolds set c → eval env 0 ((setProtocolsSlots set.key ++ (setKeySlots 0 set.key ++
        setLookupSlots index 0)).map (Emitted.link maps)) c = .fall 0 e) ∧
      (¬ setHolds set c → eval env 0 ((setProtocolsSlots set.key ++ (setKeySlots 0 set.key ++
        setLookupSlots index 0)).map (Emitted.link maps)) c = .out e) := by
  cases all : set.key.all (carries c) with
  | false =>
      have checks := @eval_setProtocols W env maps c _ accepted.key.supported
      rw [all, if_neg Bool.false_ne_true] at checks
      refine ⟨c, fun holds => ?_, fun _ => ?_⟩
      · exact absurd holds.1 (by rw [all]; decide)
      · rw [List.map_append, eval_append_out _ checks]
  | true =>
      obtain ⟨d, ran, bytes⟩ := @eval_setBuild W env maps c set accepted hash small
        apart all
      obtain ⟨e, falls, leaves⟩ := eval_lookup_iff (d := d) 0 (by omega) map
        (packetTuple c set.key ∈ set.elems) (by
          rw [hash, if_neg Bool.false_ne_true, BitVec.add_zero, bytes])
      have holds : setHolds set c ↔ packetTuple c set.key ∈ set.elems := by
        rw [setHolds, all, hash, if_neg Bool.false_ne_true]
        exact ⟨fun h => h.2, fun h => ⟨rfl, h⟩⟩
      rw [← List.append_assoc, List.map_append, eval_append_fall _ ran, holds]
      exact ⟨e, falls, leaves⟩

/-- The sizes of a trie key; an IPv6 element ends with padding. -/
theorem trie_sizes {type : BfMatcherType} (net : type.isNet = true) :
    ∃ info, bfMatcherGetMeta type = some info ∧ info.layer = .layer3 ∧
      (triePrefix type).length = 4 ∧
      (leBits 32 (triePrefix type)).toNat = 8 * info.hdrPayloadSize ∧
      ∃ padding, componentSize type = 4 + info.hdrPayloadSize + padding := by
  cases type <;> first
    | exact ⟨_, rfl, rfl, rfl, by decide, 0, rfl⟩
    | exact ⟨_, rfl, rfl, rfl, by decide, 4, rfl⟩
    | exact absurd net (by decide)

/-- The code of a trie. -/
theorem eval_trieSet {type : BfMatcherType} (accepted : SetAccepted set) (one : set.key = [type])
    (net : type.isNet = true) (trie : set.useTrie = true) (apart : ScratchApart c set.key)
    (map : SetMap env (env.mapAddr (maps.sets[index]?.getD 0)) set) :
    ∃ e, (setHolds set c → eval env 0 ((setTrieSlots index type).map (Emitted.link maps)) c =
        .fall 0 e) ∧
      (¬ setHolds set c → eval env 0 ((setTrieSlots index type).map (Emitted.link maps)) c =
        .out e) := by
  obtain ⟨info, known, layer, four, full, padding, size⟩ := trie_sizes net
  have tuple : packetTuple c set.key = fieldBytes c type := by
    rw [one, packetTuple, List.flatMap_cons, List.flatMap_nil, List.append_nil]
  have width : (fieldBytes c type).length = info.hdrPayloadSize := by
    rw [fieldBytes, known, Mem.bytesAt_length]
  have fits : info.hdrPayloadSize ≤ 16 := by
    cases type <;> cases known <;> decide
  have checks := @eval_checkProtocol W env maps c _ _ known (.inl layer)
  have slots : setTrieSlots index type = checkProtocolSlots info ++ (loadHeaderSlots info ++
      (trieKeySlots type info.hdrPayloadOffset ++ setLookupSlots index 4)) := by
    rw [setTrieSlots, known]
  rw [slots]
  cases has : carries c type with
  | false =>
      rw [has, if_neg Bool.false_ne_true] at checks
      refine ⟨c, fun holds => ?_, fun _ => ?_⟩
      · have all := holds.1
        rw [one, List.all_cons, has, Bool.false_and] at all
        exact absurd all Bool.false_ne_true
      · rw [List.map_append, eval_append_out _ checks]
  | true =>
      rw [has, if_pos rfl] at checks
      let loaded := c.setReg 6 (hdrAddr c info)
      have frame : loaded.regs 10 = c.regs 10 := by rw [Core.setReg_regs, if_neg (by decide)]
      have pointer : hdrAddr loaded info = hdrAddr c info := by
        rw [hdrAddr, hdrAddr, frame, Core.setReg_mem]
      have field : fieldAddr loaded info = fieldAddr c info := by
        rw [fieldAddr, fieldAddr, pointer]
      have bytes : fieldBytes loaded type = fieldBytes c type := by
        rw [fieldBytes, fieldBytes, known]
        simp only [field, loaded, Core.setReg_mem]
      obtain ⟨d, ran, same⟩ := @eval_trieKey W env maps loaded _ _ net known
        (by rw [pointer, Core.setReg_regs, if_pos rfl])
        (by rw [field, frame]; exact apart type (by simp [one]) info known)
      rw [bytes] at same
      have length : (triePrefix type ++ fieldBytes c type).length = 4 + info.hdrPayloadSize := by
        rw [List.length_append, four, width]
      have key : d.mem.bytesAt (ctxAddr (d.regs 10) .scratch + BitVec.ofNat 64 4) set.elemSize =
          triePrefix type ++ fieldBytes c type ++ d.mem.bytesAt (ctxAddr (d.regs 10) .scratch +
            BitVec.ofNat 64 4 + BitVec.ofNat 64 (4 + info.hdrPayloadSize)) padding := by
        have written := bytesAt_scratchWritten same (by decide) (by omega)
        rw [length] at written
        rw [accepted.elemSize, one, keySize, List.map_cons, List.map_nil, List.sum_singleton, size,
          Mem.bytesAt_append, written]
      have hits : lpmHit set.elems (d.mem.bytesAt (ctxAddr (d.regs 10) .scratch +
          BitVec.ofNat 64 4) set.elemSize) ↔
          ∃ elem ∈ set.elems, prefixCovers elem (packetTuple c set.key) := by
        rw [key, lpmHit_full four (by rw [full, width]), tuple]
      obtain ⟨e, falls, leaves⟩ := eval_lookup_iff (d := d) 4 (by omega) map
        (∃ elem ∈ set.elems, prefixCovers elem (packetTuple c set.key))
        (by rw [trie, if_pos rfl]; exact hits)
      have holds : setHolds set c ↔
          ∃ elem ∈ set.elems, prefixCovers elem (packetTuple c set.key) := by
        rw [setHolds, trie, if_pos rfl, one, List.all_cons, has]
        exact ⟨fun h => h.2, fun h => ⟨rfl, h⟩⟩
      rw [List.map_append, eval_append_fall _ checks, List.map_append,
        eval_append_fall _ (eval_loadHeader (.inl layer)), List.map_append, eval_append_fall _ ran,
        holds]
      exact ⟨e, falls, leaves⟩

/-- The code of a set matcher. -/
theorem eval_set {chain : BfChain} {m : BfMatcher}
    (found : bfChainGetSetForMatcher chain m = some set) (accepted : SetAccepted set)
    (small : set.useTrie = false → set.elemSize ≤ 64) (apart : ScratchApart c set.key)
    (map : SetMap env (env.mapAddr (maps.sets[(m.payloadU32 0).toNat]?.getD 0)) set) :
    ∃ e, (setHolds set c → eval env 0 ((setSlots chain m).map (Emitted.link maps)) c = .fall 0 e) ∧
      (¬ setHolds set c → eval env 0 ((setSlots chain m).map (Emitted.link maps)) c = .out e) := by
  unfold setSlots
  rw [found]
  cases use : set.useTrie with
  | true =>
      obtain ⟨type, one, net⟩ := AcceptedKey.trie (accepted.useTrie.symm.trans use)
      simp only [one, use, if_true]
      exact eval_trieSet accepted one net use apart map
  | false =>
      simp only [use, Bool.false_eq_true, if_false]
      exact eval_hashSet accepted use (small use) apart map

end Matcher

/-- A set of addresses and ports, with one element. -/
def webSet : BfSet where
  name := some "web"
  key := [.ip4Saddr, .tcpDport]
  elemSize := 6
  elems := [[10, 0, 0, 1, 0, 80]]
  useTrie := false

def webMatcher : BfMatcher := ⟨.set, .inSet, [0, 0, 0, 0]⟩

def webChain : BfChain := bfChainNew "c" .xdp .accept [webSet]
  [{ matchers := [webMatcher], verdict := .drop }]

/-- The part of the stack a slot stores to, counted from the scratch area. -/
def scratchStore (e : Emitted) : Option (Int × Nat) :=
  match e.insn.code with
  | .stx size => if e.insn.dst = 10 then some (e.insn.off.toInt - bfProgScrOff 0, size.bytes) else none
  | .st size => if e.insn.dst = 10 then some (e.insn.off.toInt - bfProgScrOff 0, size.bytes) else none
  | _ => none

/-- Where the key handed to the lookup starts in the scratch area. -/
def BfSet.keyStart (set : BfSet) : Nat := if set.useTrie then 4 else 0

/-- Every store of the matcher, and the key it looks up, are inside the 64 bytes. -/
def InsideScratch (chain : BfChain) (m : BfMatcher) (set : BfSet) : Prop :=
  (∀ store ∈ (setSlots chain m).filterMap scratchStore,
      0 ≤ store.1 ∧ store.1 + store.2 ≤ RuntimeField.scratch.size) ∧
    set.keyStart + set.elemSize ≤ RuntimeField.scratch.size

theorem scrOff_toInt {k : Nat} (small : k ≤ 64) : (scrOff k).toInt - bfProgScrOff 0 = k := by
  have all : ∀ i : Fin 65, (scrOff i).toInt - bfProgScrOff 0 = ((i : Nat) : Int) := by decide +kernel
  exact all ⟨k, by omega⟩

theorem stxPayloadSlots_stores {hdrOffset offset src remaining : Nat}
    (fits : offset + src + remaining ≤ 64) {store : Int × Nat}
    (mem : store ∈ (stxPayloadSlots hdrOffset offset src remaining).filterMap scratchStore) :
    0 ≤ store.1 ∧ store.1 + store.2 ≤ (offset + src + remaining : Nat) := by
  induction remaining using Nat.strong_induction_on generalizing src with
  | _ remaining ih =>
      unfold stxPayloadSlots at mem
      split at mem
      · simp at mem
      · rename_i some
        have pos := stxCopySize_bytes_pos offset remaining
        have le := stxCopySize_bytes_le offset remaining (Nat.pos_of_ne_zero some)
        rw [List.filterMap_cons_none (by rfl), List.filterMap_cons_some (b :=
          ((scrOff (offset + src)).toInt - bfProgScrOff 0, (stxCopySize offset remaining).bytes))
          (by rfl)] at mem
        rcases List.mem_cons.mp mem with rfl | mem
        · simp only [scrOff_toInt (show offset + src ≤ 64 by omega)]
          omega
        · have rest := ih _ (by omega) (by omega) mem
          omega

theorem setKeySlots_stores {key : List BfMatcherType} {offset : Nat}
    (supported : ∀ type ∈ key, (bfMatcherGetOps type .inSet).isSome)
    (plain : ∀ type ∈ key, type.isNet = false) (fits : offset + keySize key ≤ 64)
    {store : Int × Nat} (mem : store ∈ (setKeySlots offset key).filterMap scratchStore) :
    0 ≤ store.1 ∧ store.1 + store.2 ≤ 64 := by
  induction key generalizing offset with
  | nil => simp [setKeySlots] at mem
  | cons type key ih =>
      obtain ⟨info, known, size, inPacket, -⟩ := component_meta
        (supported type (List.mem_cons_self ..))
      have total : keySize (type :: key) = info.hdrPayloadSize + keySize key := by
        rw [size (plain type (List.mem_cons_self ..))]
        rfl
      have header : (loadHeaderSlots info).filterMap scratchStore = [] := by
        unfold loadHeaderSlots
        rcases inPacket with layer | layer <;> rw [layer] <;> rfl
      rw [setKeySlots, known] at mem
      simp only [List.filterMap_append, header, List.nil_append, List.mem_append] at mem
      rcases mem with mem | mem
      · have inside := stxPayloadSlots_stores (by omega) mem
        omega
      · exact ih (fun t mem => supported t (List.mem_cons_of_mem _ mem))
          (fun t mem => plain t (List.mem_cons_of_mem _ mem)) (by omega) mem

theorem setProtocolsSlots_stores (key : List BfMatcherType) :
    (setProtocolsSlots key).filterMap scratchStore = [] := by
  induction key with
  | nil => rfl
  | cons type key ih =>
      rw [setProtocolsSlots, List.filterMap_append, ih, List.append_nil]
      split
      · rfl
      · unfold checkProtocolSlots
        split <;> rfl

theorem setTrieSlots_stores (index : Nat) {type : BfMatcherType} (net : type.isNet = true) :
    (setTrieSlots index type).filterMap scratchStore = [(4, 4), (8, 4)] ∨
      (setTrieSlots index type).filterMap scratchStore = [(4, 4), (8, 8), (16, 8)] := by
  cases type <;> first
    | exact absurd net (by decide)
    | exact .inl rfl
    | exact .inr rfl

/-- **Scratch area.**  The matcher of an accepted set stays inside the scratch area exactly when
the sizes of the components of its key add up to at most 64 bytes. -/
theorem setKeyStores_inside_iff {name : Option String} {key : List BfMatcherType} {set : BfSet}
    {chain : BfChain} {m : BfMatcher} (new : bfSetNew name key = .ok set)
    (elems : List (List Byte))
    (found : bfChainGetSetForMatcher chain m = some { set with elems := elems }) :
    InsideScratch chain m { set with elems := elems } ↔ (key.map componentSize).sum ≤ 64 := by
  obtain ⟨accepted, rfl⟩ := bfSetNew_inv new
  unfold InsideScratch setSlots BfSet.keyStart
  rw [found]
  cases use : (key.length == 1 && key.any (·.isNet)) with
  | true =>
      obtain ⟨type, rfl, net⟩ := AcceptedKey.trie use
      have small : keySize [type] ≤ 24 := by cases type <;> decide
      simp only [if_true, RuntimeField.size]
      refine iff_of_true ⟨?_, by omega⟩ ?_
      · rcases setTrieSlots_stores (m.payloadU32 0).toNat net with stores | stores <;> rw [stores] <;>
          decide
      · unfold keySize at small
        omega
  | false =>
      have plain : ∀ type ∈ key, type.isNet = false := fun type mem => accepted.no_net use mem
      have lookup : (setLookupSlots (m.payloadU32 0).toNat 0).filterMap scratchStore = [] := rfl
      simp only [Bool.false_eq_true, if_false, List.filterMap_append, setProtocolsSlots_stores, lookup,
        List.nil_append, List.append_nil, RuntimeField.size, Nat.zero_add]
      constructor
      · intro inside
        exact inside.2
      · intro small
        exact ⟨fun store mem => setKeySlots_stores accepted.supported plain
          (by rw [Nat.zero_add]; exact small) mem, small⟩

theorem webSet_inside : InsideScratch webChain webMatcher webSet :=
  (@setKeyStores_inside_iff (some "web") [.ip4Saddr, .tcpDport] { webSet with elems := [] }
    webChain webMatcher rfl webSet.elems rfl).mpr (by decide)

/-- Five IPv6 addresses: accepted, and 16 bytes too long. -/
def wideSet : BfSet where
  name := none
  key := List.replicate 5 .ip6Saddr
  elemSize := 80
  elems := []
  useTrie := false

def wideChain : BfChain := bfChainNew "c" .xdp .accept [wideSet]
  [{ matchers := [webMatcher], verdict := .drop }]

theorem wideSet_not_inside :
    bfSetNew none (List.replicate 5 .ip6Saddr) = .ok wideSet ∧
      (72, 8) ∈ (setSlots wideChain webMatcher).filterMap scratchStore ∧
      ¬ InsideScratch wideChain webMatcher wideSet := by
  refine ⟨rfl, by decide +kernel, fun inside => ?_⟩
  exact absurd inside.2 (by decide)

end Bpfilter
