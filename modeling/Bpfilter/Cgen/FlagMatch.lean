/-
# Cgen.FlagMatch -- TCP flags, and what port and flag texts compile to

The flag matcher loads byte 13 of the TCP header.  `any` and `all` mask it with the
flags of the payload first; on sets of flags (`flagsOf`) the four operators are
equality, inequality, intersection and inclusion.

`layer4Texts_decide` goes from the text of a matcher to what its code decides:
the ports and flags that are written are those that are compared.
-/
import Bpfilter.Cgen.PortMatch
import Bpfilter.Lib.TextExact

namespace Bpfilter

set_option autoImplicit false

open Ebpf
open Cstr (Decimal digitsValue tokens)

/-! ## Sets of flags -/

/-- The flags in a byte. -/
def flagsOf (g : Byte) : Set BfTcpFlag := {flag | g.getLsbD flag.index = true}

theorem exists_index {i : Nat} (lt : i < 8) : ∃ flag : BfTcpFlag, flag.index = i := by
  have all : ∀ j : Fin 8, ∃ flag ∈ BfTcpFlag.all, flag.index = j.val := by decide
  obtain ⟨flag, -, index⟩ := all ⟨i, lt⟩
  exact ⟨flag, index⟩

/-- A byte is its flags. -/
theorem flagsOf_inj (f g : Byte) : flagsOf f = flagsOf g ↔ f = g := by
  constructor
  · intro same
    apply BitVec.eq_of_getLsbD_eq
    intro i lt
    obtain ⟨flag, rfl⟩ := exists_index lt
    have mem : flag ∈ flagsOf f ↔ flag ∈ flagsOf g := by rw [same]
    exact Bool.eq_iff_iff.mpr mem
  · rintro rfl
    rfl

theorem flagsOf_and (f g : Byte) : flagsOf (f &&& g) = flagsOf f ∩ flagsOf g := by
  apply Set.ext
  intro flag
  simp only [flagsOf, Set.mem_ofPred_eq, Set.mem_inter_iff, BitVec.getLsbD_and, Bool.and_eq_true]

theorem flagsOf_zero : flagsOf 0 = ∅ := by
  apply Set.eq_empty_of_forall_notMem
  intro flag mem
  have bit : (0 : Byte).getLsbD flag.index = true := mem
  simp at bit

theorem flagsOf_or_bit (f : Byte) (flag : BfTcpFlag) :
    flagsOf (f ||| (1 : Byte) <<< flag.index) = flagsOf f ∪ {flag} := by
  apply Set.ext
  intro other
  have bit : ((1 : Byte) <<< flag.index).getLsbD other.index = true ↔ other = flag := by
    cases other <;> cases flag <;> decide
  simp only [flagsOf, Set.mem_ofPred_eq, Set.mem_union, Set.mem_singleton_iff, BitVec.getLsbD_or,
    Bool.or_eq_true, bit]

/-- What an operator asks of the flags `G` of a packet, for the flags `F` of a matcher. -/
def flagsHold : BfMatcherOp → Set BfTcpFlag → Set BfTcpFlag → Prop
  | .eq, F, G => G = F
  | .ne, F, G => G ≠ F
  | .any, F, G => (F ∩ G).Nonempty
  | .all, F, G => F ⊆ G
  | _, _, _ => False

/-- The operators of the flag matcher. -/
def isFlagOp : BfMatcherOp → Bool
  | .eq | .ne | .any | .all => true
  | _ => false

/-! ## The matcher -/

/-- A TCP packet with the flags of a byte. -/
structure FlagsAt {W : Type} (g : Byte) (c : Core W) : Prop where
  protocol : c.regs 8 = ipprotoTcp.setWidth 64
  header : c.mem.load (c.mem.load (ctxAddr (c.regs 10) .l4Hdr) 8 + (13 : BitVec 16).signExtend 64) 1
    = g.setWidth 64

section Matcher

variable {W : Type} {env : Env W BfElfstubId} {maps : BfMaps} {host : Host} {chain : BfChain}

/-- The masked flags. -/
theorem and_flags (f g : Byte) :
    (AluOp.and.eval ((g.setWidth 64).setWidth 32) (f.setWidth 32)).setWidth 64 =
      (g &&& f).setWidth 64 := by
  rw [AluOp.eval]
  apply BitVec.eq_of_getLsbD_eq
  intro i inside
  simp only [BitVec.getLsbD_setWidth, BitVec.getLsbD_and]
  by_cases low : i < 8
  · simp [inside, show i < 32 by omega]
  · simp [BitVec.getLsbD_of_ge g i (by omega)]

/-- The comparison of the flags in `r1`. -/
theorem eval_flags {op : BfMatcherOp} (isOp : isFlagOp op = true) (f : Byte) {g : Byte}
    {c : Core W}
    (header : c.mem.load (c.regs 6 + (13 : BitVec 16).signExtend 64) 1 = g.setWidth 64) :
    ∃ d b, eval env 0 ((tcpFlagsSlots ⟨.tcpFlags, op, [f]⟩).map (Emitted.link maps)) c =
        (if b = true then .fall 0 d else .out d) ∧
      (b = true ↔ flagsHold op (flagsOf f) (flagsOf g)) := by
  let loaded := c.setReg 1 (g.setWidth 64)
  let masked := loaded.setReg 1 ((g &&& f).setWidth 64)
  have byte : ∀ a b : Byte, a.setWidth 64 = b.setWidth 64 ↔ a = b := setWidth64_inj (by decide)
  have loads : ∀ rest : List (Item BfElfstubId),
      eval env 0 (.insn (bpfLdxMem .b 1 6 13) :: rest) c = eval env 0 rest loaded := by
    intro rest
    rw [eval_ldx, show Size.b.bytes = 1 from rfl, header]
  have masks : ∀ rest : List (Item BfElfstubId),
      eval env 0 (.insn (bpfAlu32Imm .and 1 (f.setWidth 32)) :: rest) loaded =
        eval env 0 rest masked := by
    intro rest
    rw [eval_alu32Imm, show loaded.regs 1 = g.setWidth 64 from rfl, and_flags]
  unfold tcpFlagsSlots
  rw [payloadU8_singleton, List.map_cons, link_insn, loads]
  cases op with
  | eq =>
      refine ⟨loaded, _, eval_lastJump rfl loaded, ?_⟩
      rw [taken_ne, show loaded.regs 1 = g.setWidth 64 from rfl, signExtend_byte]
      simp only [ne_eq, byte, decide_not, Bool.not_not, decide_eq_true_eq]
      exact (flagsOf_inj g f).symm
  | ne =>
      refine ⟨loaded, _, eval_lastJump rfl loaded, ?_⟩
      rw [taken_eq, show loaded.regs 1 = g.setWidth 64 from rfl, signExtend_byte]
      simp only [byte, Bool.not_eq_true', decide_eq_false_iff_not]
      exact (flagsOf_inj g f).symm.not
  | any =>
      rw [List.map_cons, link_insn, masks]
      refine ⟨masked, _, eval_lastJump rfl masked, ?_⟩
      rw [taken_eq, show masked.regs 1 = (g &&& f).setWidth 64 from rfl,
        show (0 : BitVec 32).signExtend 64 = (0 : Byte).setWidth 64 from rfl]
      simp only [byte, Bool.not_eq_true', decide_eq_false_iff_not]
      rw [← flagsOf_inj, flagsOf_and, flagsOf_zero, Set.inter_comm]
      exact Set.nonempty_iff_ne_empty.symm
  | all =>
      rw [List.map_cons, link_insn, masks]
      refine ⟨masked, _, eval_lastJump rfl masked, ?_⟩
      rw [taken_ne, show masked.regs 1 = (g &&& f).setWidth 64 from rfl, signExtend_byte]
      simp only [ne_eq, byte, decide_not, Bool.not_not, decide_eq_true_eq]
      rw [← flagsOf_inj, flagsOf_and, Set.inter_comm]
      exact Set.inter_eq_left
  | inSet => cases isOp
  | range => cases isOp

theorem flagSlots_eq (op : BfMatcherOp) (f : Byte) :
    matcherSlots host chain ⟨.tcpFlags, op, [f]⟩ =
      l4Slots ipprotoTcp (tcpFlagsSlots ⟨.tcpFlags, op, [f]⟩) := rfl

/-- The flag matcher on a TCP packet. -/
theorem flags_continues_iff {op : BfMatcherOp} (isOp : isFlagOp op = true) (f : Byte) {g : Byte}
    {c : Core W} (here : FlagsAt g c) :
    Continues env maps (matcherSlots host chain ⟨.tcpFlags, op, [f]⟩) c ↔
      flagsHold op (flagsOf f) (flagsOf g) := by
  let header := c.setReg 6 (c.mem.load (ctxAddr (c.regs 10) .l4Hdr) 8)
  have checked : (bpfJmpImm .ne 8 (ipprotoTcp.setWidth 32) 0).taken c = false := by
    rw [taken_ne, here.protocol, signExtend_byte]
    simp
  obtain ⟨d, b, ran, holds⟩ := @eval_flags W env maps op isOp f g header here.header
  have whole : eval env 0 ((matcherSlots host chain ⟨.tcpFlags, op, [f]⟩).map
      (Emitted.link maps)) c = if b then .fall 0 d else .out d := by
    rw [flagSlots_eq, l4Slots, List.map_cons, eval_nextSlot rfl, checked,
      if_neg Bool.false_ne_true, List.map_cons, link_insn, eval_ldx, add_ctxOff]
    exact ran
  rw [(decides_of_eval whole).1, holds]

/-- The flag matcher on any other packet. -/
theorem flags_skips (op : BfMatcherOp) (f : Byte) {c : Core W}
    (other : c.regs 8 ≠ ipprotoTcp.setWidth 64) :
    Skips env maps (matcherSlots host chain ⟨.tcpFlags, op, [f]⟩) c := by
  refine ⟨c, runs_of_eval (e := .out c) ?_⟩
  rw [flagSlots_eq, l4Slots, List.map_cons, eval_nextSlot rfl, taken_ne, signExtend_byte,
    if_pos (decide_eq_true other)]
  rfl

end Matcher

/-! ## Flags in texts -/

/-- A name of a flag, in any case. -/
def Spells (s : List Char) (flag : BfTcpFlag) : Prop := bfStreqI flag.toStr s = true

instance (s : List Char) (flag : BfTcpFlag) : Decidable (Spells s flag) :=
  inferInstanceAs (Decidable (_ = true))

section Spelled

variable {s : List Char} {flag : BfTcpFlag}

theorem Spells.lower (spelled : Spells s flag) :
    s.map Char.toLower = flag.toStr.map Char.toLower := (of_decide_eq_true spelled).symm

theorem Spells.fromStr (spelled : Spells s flag) : BfTcpFlag.fromStr s = some flag := by
  have same : ∀ f : BfTcpFlag, bfStreqI f.toStr s = bfStreqI f.toStr flag.toStr := by
    intro f
    rw [bfStreqI, bfStreqI, spelled.lower]
  have found : BfTcpFlag.all.find? (fun f => bfStreqI f.toStr flag.toStr) = some flag := by
    cases flag <;> rfl
  rw [BfTcpFlag.fromStr, ← found]
  exact congrArg (fun q => BfTcpFlag.all.find? q) (funext same)

theorem Spells.token (spelled : Spells s flag) : s ≠ [] ∧ ∀ c ∈ s, decide (c = ',') = false := by
  have lower := spelled.lower
  constructor
  · rintro rfl
    cases flag <;> cases lower
  · intro c mem
    rw [decide_eq_false_iff_not]
    rintro rfl
    have comma : Char.toLower ',' ∈ flag.toStr.map Char.toLower := by
      rw [← lower]
      exact List.mem_map_of_mem mem
    revert comma
    cases flag <;> decide

end Spelled

theorem tcpFlagsLoop_spelled {tokens : List (List Char)} {flags : List BfTcpFlag}
    (spelled : List.Forall₂ Spells tokens flags) (acc : Byte) :
    ∃ f, tcpFlagsLoop tokens acc = .ok f ∧ flagsOf f = flagsOf acc ∪ {flag | flag ∈ flags} := by
  induction spelled generalizing acc with
  | nil => exact ⟨acc, rfl, by simp⟩
  | @cons token flag tokens flags first _ ih =>
      obtain ⟨f, ran, members⟩ := ih (acc ||| (1 : Byte) <<< flag.index)
      refine ⟨f, ?_, ?_⟩
      · rw [tcpFlagsLoop, first.fromStr]
        exact ran
      · rw [members, flagsOf_or_bit, Set.union_assoc]
        refine congrArg (flagsOf acc ∪ ·) (Set.ext fun other => ?_)
        simp [List.mem_cons]

/-- A comma-separated list of flags is parsed to their byte. -/
theorem bfParseTcpFlags_spelled {names : List (List Char)} {flags : List BfTcpFlag}
    (spelled : List.Forall₂ Spells names flags) :
    ∃ f, bfParseTcpFlags ([','].intercalate names) = .ok [f] ∧
      flagsOf f = {flag | flag ∈ flags} := by
  have each : ∀ name ∈ names, ∃ flag, Spells name flag := by
    intro name mem
    obtain ⟨flag, -, spells⟩ := Cstr.exists_of_forall₂ spelled.flip mem
    exact ⟨flag, spells⟩
  have cut : tokens (· = ',') ([','].intercalate names) = names := by
    apply Cstr.tokens_intercalate rfl
    · intro name mem
      obtain ⟨flag, spells⟩ := each name mem
      exact spells.token.1
    · intro name mem
      obtain ⟨flag, spells⟩ := each name mem
      exact spells.token.2
  obtain ⟨f, ran, members⟩ := tcpFlagsLoop_spelled spelled 0
  refine ⟨f, ?_, ?_⟩
  · rw [bfParseTcpFlags, cut, ran]
    rfl
  · rw [members, flagsOf_zero, Set.empty_union]

/-! ## Ports in texts -/

/-- The texts of a test: a port in decimal, or two ports that fit the buffer of the parser. -/
inductive PortWritten : PortTest → List Char → Prop
  | eq {s : List Char} {port : Nat} (text : PortText s port) :
      PortWritten (.eq (BitVec.ofNat 16 port)) s
  | ne {s : List Char} {port : Nat} (text : PortText s port) :
      PortWritten (.ne (BitVec.ofNat 16 port)) s
  | range {a b : List Char} {start stop : Nat} (first : PortText a start) (last : PortText b stop)
      (order : start ≤ stop) (fits : a.length + b.length + 1 < bfPortRangeMaxLen) :
      PortWritten (.range (BitVec.ofNat 16 start) (BitVec.ofNat 16 stop)) (a ++ '-' :: b)

/-- A written test is parsed to its payload. -/
theorem PortWritten.parsed {t : PortTest} {s : List Char} (written : PortWritten t s)
    (names : Names) (fresh : Nat → Byte) (proto : PortProtocol) (side : PortSide) :
    bfMatcherNewFromRaw names fresh (side.protoType proto) t.op s =
      .ok ⟨side.protoType proto, t.op, t.payload⟩ := by
  have ops : ∀ op, bfMatcherGetTextOps names (side.protoType proto) op =
      bfMatcherGetTextOps names .tcpSport op ∧
      bfMatcherGetOps (side.protoType proto) op = bfMatcherGetOps .tcpSport op := by
    intro op
    cases side <;> cases proto <;> exact ⟨rfl, rfl⟩
  cases written with
  | @eq s port text =>
      have accepted := bfParseL4PortText_ok_iff.mpr (.inr ⟨port, text.readsAs, text.2.2, rfl⟩)
      have text : bfMatcherGetTextOps names .tcpSport .eq = some portTextOps := rfl
      exact bfMatcherNewFromRaw_parsed ((ops _).2.trans rfl) ((ops _).1.trans text) accepted
  | @ne s port text =>
      have accepted := bfParseL4PortText_ok_iff.mpr (.inr ⟨port, text.readsAs, text.2.2, rfl⟩)
      have text : bfMatcherGetTextOps names .tcpSport .ne = some portTextOps := rfl
      exact bfMatcherNewFromRaw_parsed ((ops _).2.trans rfl) ((ops _).1.trans text) accepted
  | @range a b start stop first last order fits =>
      have whole : bfStrncpy bfPortRangeMaxLen (a ++ '-' :: b) = a ++ '-' :: b := by
        apply List.take_of_length_le
        rw [List.length_append, List.length_cons]
        omega
      have range : RangeText (a ++ '-' :: b) start stop := ⟨a, b, rfl, first, last, order⟩
      have accepted := bfParseL4PortRangeText_ok_iff.mpr
        ⟨start, stop, .inr (whole.symm ▸ range), rfl⟩
      have text : bfMatcherGetTextOps names .tcpSport .range = some portRangeTextOps := rfl
      exact bfMatcherNewFromRaw_parsed ((ops _).2.trans rfl) ((ops _).1.trans text) accepted

/-! ## From text to code -/

/-- Code that decides a test for the packets of a protocol, and leaves on all others. -/
def DecidesPort (es : List Emitted) (proto : PortProtocol) (side : PortSide) (t : PortTest) :
    Prop :=
  ∀ (W : Type) (env : Env W BfElfstubId) (maps : BfMaps) (c : Core W),
    (∀ port, PortAt proto side port c → (Continues env maps es c ↔ t.Holds port)) ∧
      (c.regs 8 ≠ proto.number.setWidth 64 → Skips env maps es c)

/-- Code that decides an operator on flags for TCP packets, and leaves on all others. -/
def DecidesFlags (es : List Emitted) (op : BfMatcherOp) (F : Set BfTcpFlag) : Prop :=
  ∀ (W : Type) (env : Env W BfElfstubId) (maps : BfMaps) (c : Core W),
    (∀ g, FlagsAt g c → (Continues env maps es c ↔ flagsHold op F (flagsOf g))) ∧
      (c.regs 8 ≠ ipprotoTcp.setWidth 64 → Skips env maps es c)

/-- The code of a port test is always generated. -/
theorem bfMatcherGenerate_port (proto : PortProtocol) (side : PortSide) (t : PortTest)
    (p : BfProgram) :
    bfMatcherGenerate ⟨side.protoType proto, t.op, t.payload⟩ p =
      .ok ((), p.append (matcherSlots p.host p.chain ⟨side.protoType proto, t.op, t.payload⟩)) := by
  cases proto <;> cases side <;> cases t <;>
    · simp only [bfMatcherGenerate, PortSide.protoType, PortTest.op, bfMatcherGenerateTcp,
        bfMatcherGenerateUdp, emitPortCompare, gen_bind, emit_eq, emitFixupJmpNextRule,
        emitFixup_eq, BfProgram.append_append]
      rfl

theorem bfMatcherGenerate_flags {op : BfMatcherOp} (isOp : isFlagOp op = true)
    (payload : List Byte) (p : BfProgram) :
    bfMatcherGenerate ⟨.tcpFlags, op, payload⟩ p =
      .ok ((), p.append (matcherSlots p.host p.chain ⟨.tcpFlags, op, payload⟩)) := by
  cases op <;> first
    | exact absurd isOp Bool.false_ne_true
    | simp only [bfMatcherGenerate, bfMatcherGenerateTcp, bfMatcherGenerateTcpFlags, gen_bind,
        emit_eq, emitFixupJmpNextRule, emitFixup_eq, BfProgram.append_append]
      rfl

/-- **Ports and flags.**  What is written is what the code compares. -/
theorem layer4Texts_decide (names : Names) (fresh : Nat → Byte) (p : BfProgram) :
    (∀ (proto : PortProtocol) (side : PortSide) (t : PortTest) (s : List Char), PortWritten t s →
      ∃ m es, bfMatcherNewFromRaw names fresh (side.protoType proto) t.op s = .ok m ∧
        bfMatcherGenerate m p = .ok ((), p.append es) ∧ DecidesPort es proto side t) ∧
      ∀ (op : BfMatcherOp) (spellings : List (List Char)) (flags : List BfTcpFlag),
        isFlagOp op = true → flags ≠ [] → List.Forall₂ Spells spellings flags →
        ∃ m es, bfMatcherNewFromRaw names fresh .tcpFlags op ([','].intercalate spellings) = .ok m ∧
          bfMatcherGenerate m p = .ok ((), p.append es) ∧
          DecidesFlags es op {flag | flag ∈ flags} := by
  constructor
  · intro proto side t s written
    refine ⟨_, _, written.parsed names fresh proto side, bfMatcherGenerate_port proto side t p, ?_⟩
    intro W env maps c
    exact ⟨fun port here => protoPort_continues_iff proto side t here,
      protoPort_skips proto side t⟩
  · intro op spellings flags isOp _ spelled
    obtain ⟨f, parsed, members⟩ := bfParseTcpFlags_spelled spelled
    have made : bfMatcherNewFromRaw names fresh .tcpFlags op ([','].intercalate spellings) =
        .ok ⟨.tcpFlags, op, [f]⟩ := by
      have table : bfMatcherGetOps .tcpFlags op = some 1 ∧
          bfMatcherGetTextOps names .tcpFlags op = some tcpFlagsTextOps := by
        cases op <;> first | exact ⟨rfl, rfl⟩ | cases isOp
      exact bfMatcherNewFromRaw_parsed table.1 table.2 parsed
    refine ⟨_, _, made, bfMatcherGenerate_flags isOp [f] p, ?_⟩
    intro W env maps c
    refine ⟨fun g here => ?_, flags_skips op f⟩
    rw [flags_continues_iff isOp f here, members]

/-- `tcp.dport range 80-443` and `tcp.flags all SYN,ack`. -/
theorem range80_and_synAck_decide :
    (∃ m es, bfMatcherNewFromRaw plainNames (fun _ => 0xaa) .tcpDport .range "80-443".toList =
        .ok m ∧ bfMatcherGenerate m sampleProgram = .ok ((), sampleProgram.append es) ∧
        DecidesPort es .tcp .destination (.range 80 443)) ∧
      ∃ m es, bfMatcherNewFromRaw plainNames (fun _ => 0xaa) .tcpFlags .all "SYN,ack".toList =
        .ok m ∧ bfMatcherGenerate m sampleProgram = .ok ((), sampleProgram.append es) ∧
        DecidesFlags es .all {flag | flag ∈ [BfTcpFlag.syn, .ack]} := by
  have text : PortText "80".toList 80 ∧ PortText "443".toList 443 := by decide
  have spelled : List.Forall₂ Spells ["SYN".toList, "ack".toList] [.syn, .ack] :=
    .cons (by decide) (.cons (by decide) .nil)
  obtain ⟨ports, flags⟩ := layer4Texts_decide plainNames (fun _ => 0xaa) sampleProgram
  exact ⟨ports .tcp .destination (.range 80 443) "80-443".toList
      (.range text.1 text.2 (by decide) (by decide)),
    flags .all _ _ rfl (List.cons_ne_nil _ _) spelled⟩

end Bpfilter
