/-
# Cgen.PortMatch -- the port matchers

`tcp.sport`, `udp.dport` and the others check the protocol, load a port and compare
it.  `meta.sport` and `meta.dport` choose the load by the protocol, and use port 0
for packets without ports: before they compare, they leave for the next rule when
the loaded port is 0.  `metaPort_agrees_iff` says for which packets this makes a
difference.

A payload holds one port in network byte order, as the header does, or the two
bounds of a range in the order of the host: a range swaps the loaded port first.
-/
import Bpfilter.Cgen.MetaMatch

namespace Bpfilter

set_option autoImplicit false

open Ebpf

/-! ## Byte order -/

theorem toNat_htobe16 (x : BitVec 16) :
    (htobe16 x).toNat = x.toNat % 256 * 256 + x.toNat / 256 := by
  have top := x.isLt
  rw [htobe16, BitVec.toNat_append, ← Nat.shiftLeft_add_eq_or_of_lt (BitVec.isLt _)]
  simp only [BitVec.toNat_setWidth, BitVec.toNat_ushiftRight, Nat.shiftLeft_eq,
    Nat.shiftRight_eq_div_pow]
  omega

theorem htobe16_htobe16 (x : BitVec 16) : htobe16 (htobe16 x) = x := by
  apply BitVec.eq_of_toNat_eq
  have top := x.isLt
  rw [toNat_htobe16, toNat_htobe16]
  omega

theorem htobe16_eq_iff (x y : BitVec 16) : x = htobe16 y ↔ htobe16 x = y := by
  constructor
  · rintro rfl
    exact htobe16_htobe16 y
  · rintro rfl
    exact (htobe16_htobe16 x).symm

/-- The swap instruction on a value of two bytes. -/
theorem byteSwap_half (raw : BitVec 16) :
    byteSwap 2 (raw.setWidth 64) = (htobe16 raw).setWidth 64 := by
  apply BitVec.eq_of_toNat_eq
  have top := raw.isLt
  have bytes : ((List.range 2).map (Mem.byteOf (raw.setWidth 64))).reverse =
      [Mem.byteOf (raw.setWidth 64) 1, Mem.byteOf (raw.setWidth 64) 0] := rfl
  have high : (Mem.byteOf (raw.setWidth 64) 1).toNat = raw.toNat / 256 := by
    rw [Mem.byteOf, BitVec.toNat_setWidth, BitVec.toNat_ushiftRight, toNat_setWidth64 (by decide),
      Nat.shiftRight_eq_div_pow]
    omega
  have low : (Mem.byteOf (raw.setWidth 64) 0).toNat = raw.toNat % 256 := by
    rw [Mem.byteOf, BitVec.toNat_setWidth, BitVec.toNat_ushiftRight, toNat_setWidth64 (by decide),
      Nat.shiftRight_eq_div_pow]
    omega
  rw [byteSwap, bytes, toNat_setWidth64 (by decide), toNat_htobe16]
  simp only [Mem.leValue, BitVec.toNat_ofNat, high, low]
  omega

/-! ## Tests of a port -/

/-- What a port matcher asks of a port, ports being in the order of the host. -/
inductive PortTest where
  | eq (port : BitVec 16)
  | ne (port : BitVec 16)
  | range (start stop : BitVec 16)
  deriving DecidableEq, Repr

namespace PortTest

def op : PortTest → BfMatcherOp
  | .eq _ => .eq
  | .ne _ => .ne
  | .range _ _ => .range

def Holds : PortTest → BitVec 16 → Prop
  | .eq port, x => x = port
  | .ne port, x => x ≠ port
  | .range start stop, x => start.toNat ≤ x.toNat ∧ x.toNat ≤ stop.toNat

instance (t : PortTest) (x : BitVec 16) : Decidable (t.Holds x) :=
  match t with
  | .eq port => inferInstanceAs (Decidable (x = port))
  | .ne port => inferInstanceAs (Decidable (x ≠ port))
  | .range start stop => inferInstanceAs (Decidable (start.toNat ≤ x.toNat ∧ x.toNat ≤ stop.toNat))

/-- The bytes of the payload of a test. -/
def payload : PortTest → List Byte
  | .eq port => leBytes16 (htobe16 port)
  | .ne port => leBytes16 (htobe16 port)
  | .range start stop => leBytes16 start ++ leBytes16 stop

/-- The payloads that the parsers of the port matchers produce, operator by operator. -/
inductive Parsed : PortTest → List Byte → Prop
  | eq {port : Nat} {rest : List Char} {bytes : List Byte}
      (accepted : bfParseL4Port port rest = .ok bytes) : Parsed (.eq (BitVec.ofNat 16 port)) bytes
  | ne {port : Nat} {rest : List Char} {bytes : List Byte}
      (accepted : bfParseL4Port port rest = .ok bytes) : Parsed (.ne (BitVec.ofNat 16 port)) bytes
  | range {start stop : Nat × List Char} {bytes : List Byte}
      (accepted : bfParseL4PortRange start stop = .ok bytes) :
      Parsed (.range (BitVec.ofNat 16 start.1) (BitVec.ofNat 16 stop.1)) bytes

theorem Parsed.eq_payload {t : PortTest} {bytes : List Byte} (parsed : t.Parsed bytes) :
    bytes = t.payload := by
  cases parsed with
  | eq accepted => exact (bfParseL4Port_inv accepted).2
  | ne accepted => exact (bfParseL4Port_inv accepted).2
  | range accepted => exact (bfParseL4PortRange_inv accepted).2.2

end PortTest

/-! ## The comparison -/

section Comparison

variable {W : Type} {env : Env W BfElfstubId} {maps : BfMaps}

theorem eval_portRange (start stop raw : BitVec 16) {c : Core W}
    (loaded : c.regs 1 = raw.setWidth 64) :
    ∃ d, eval env 0 (([bpfBswap 1 16, nextSlot (bpfJmpImm .lt 1 (start.setWidth 32) 0),
        nextSlot (bpfJmpImm .gt 1 (stop.setWidth 32) 0)] : List Emitted).map
          (Emitted.link maps)) c =
      if (PortTest.range start stop).Holds (htobe16 raw) then .fall 0 d else .out d := by
  let swapped := c.setReg 1 (byteSwap 2 (c.regs 1))
  have value : (swapped.regs 1).toNat = (htobe16 raw).toNat := by
    rw [Core.setReg_regs, if_pos rfl, loaded, byteSwap_half, toNat_setWidth64 (by decide)]
  have imm : ∀ v : BitVec 16, ((v.setWidth 32).signExtend 64).toNat = v.toNat := by
    intro v
    rw [signExtend_half, toNat_setWidth64 (by decide)]
  have below : (bpfJmpImm .lt 1 (start.setWidth 32) 0).taken swapped =
      decide ((htobe16 raw).toNat < start.toNat) := by
    rw [taken_imm, JmpOp.eval, value, imm]
  have above : (bpfJmpImm .gt 1 (stop.setWidth 32) 0).taken swapped =
      decide (stop.toNat < (htobe16 raw).toNat) := by
    rw [taken_imm, JmpOp.eval, value, imm]
  refine ⟨swapped, ?_⟩
  rw [List.map_cons, link_insn]
  show eval env 0 _ swapped = _
  rw [List.map_cons, eval_nextSlot rfl, below]
  by_cases under : (htobe16 raw).toNat < start.toNat
  · rw [if_pos (decide_eq_true under), if_neg fun h => absurd h.1 (by omega)]
  · rw [if_neg (by simpa using under)]
    refine (eval_lastJump rfl swapped).trans ?_
    rw [above]
    by_cases over_ : stop.toNat < (htobe16 raw).toNat
    · rw [if_neg (by simpa using over_), if_neg fun h => absurd h.2 (by omega)]
    · rw [if_pos (by simpa using over_), if_pos ⟨by omega, by omega⟩]

/-- The comparison at the end of every port matcher. -/
theorem eval_ports (type : BfMatcherType) (t : PortTest) {c : Core W} {port : BitVec 16}
    (loaded : c.regs 1 = (htobe16 port).setWidth 64) :
    ∃ d, eval env 0 ((portSlots ⟨type, t.op, t.payload⟩).map (Emitted.link maps)) c =
      if t.Holds port then .fall 0 d else .out d := by
  cases t with
  | eq v =>
      refine ⟨c, (eval_lastJump rfl c).trans ?_⟩
      have same : htobe16 port = htobe16 v ↔ port = v := by rw [htobe16_eq_iff, htobe16_htobe16]
      refine if_congr ?_ rfl rfl
      rw [PortTest.payload, payloadU16_single, taken_ne, loaded, signExtend_half]
      simp [setWidth64_inj, PortTest.Holds, same]
  | ne v =>
      refine ⟨c, (eval_lastJump rfl c).trans ?_⟩
      have same : htobe16 port = htobe16 v ↔ port = v := by rw [htobe16_eq_iff, htobe16_htobe16]
      refine if_congr ?_ rfl rfl
      rw [PortTest.payload, payloadU16_single, taken_eq, loaded, signExtend_half]
      simp [setWidth64_inj, PortTest.Holds, same]
  | range start stop =>
      obtain ⟨d, ran⟩ := @eval_portRange W env maps start stop _ c loaded
      rw [htobe16_htobe16] at ran
      refine ⟨d, ?_⟩
      rw [portSlots, PortTest.op, PortTest.payload, payloadU16_first, payloadU16_second]
      exact ran

end Comparison

/-! ## The matchers -/

inductive PortSide where
  | source
  | destination
  deriving DecidableEq, Repr

inductive PortProtocol where
  | tcp
  | udp
  deriving DecidableEq, Repr

def PortProtocol.number : PortProtocol → BitVec 8
  | .tcp => ipprotoTcp
  | .udp => ipprotoUdp

/-- Where the ports are in the headers of both protocols. -/
def PortSide.offset : PortSide → BitVec 16
  | .source => 0
  | .destination => 2

/-- The matcher of the metadata. -/
def PortSide.metaType : PortSide → BfMatcherType
  | .source => .metaSport
  | .destination => .metaDport

/-- The matcher of a protocol. -/
def PortSide.protoType : PortSide → PortProtocol → BfMatcherType
  | .source, .tcp => .tcpSport
  | .destination, .tcp => .tcpDport
  | .source, .udp => .udpSport
  | .destination, .udp => .udpDport

/-- A packet of a protocol whose header has a port, given in the order of the host. -/
structure PortAt {W : Type} (proto : PortProtocol) (side : PortSide) (port : BitVec 16)
    (c : Core W) : Prop where
  protocol : c.regs 8 = proto.number.setWidth 64
  header : c.mem.load (c.mem.load (ctxAddr (c.regs 10) .l4Hdr) 8 + side.offset.signExtend 64) 2 =
    (htobe16 port).setWidth 64

section Matchers

variable {W : Type} {env : Env W BfElfstubId} {maps : BfMaps} {host : Host} {chain : BfChain}

/-- The matcher of a protocol on a packet of it. -/
theorem eval_protoPort (proto : PortProtocol) (side : PortSide) (t : PortTest) {port : BitVec 16}
    {c : Core W} (here : PortAt proto side port c) :
    ∃ d, eval env 0 ((matcherSlots host chain ⟨side.protoType proto, t.op, t.payload⟩).map
        (Emitted.link maps)) c = if t.Holds port then .fall 0 d else .out d := by
  let header := c.setReg 6 (c.mem.load (ctxAddr (c.regs 10) .l4Hdr) 8)
  let loaded := header.setReg 1 ((htobe16 port).setWidth 64)
  have slots : matcherSlots host chain ⟨side.protoType proto, t.op, t.payload⟩ =
      l4Slots proto.number ({ insn := bpfLdxMem .h 1 6 side.offset } ::
        portSlots ⟨side.protoType proto, t.op, t.payload⟩) := by
    cases proto <;> cases side <;> rfl
  have checked : (bpfJmpImm .ne 8 (proto.number.setWidth 32) 0).taken c = false := by
    rw [taken_ne, here.protocol, signExtend_byte]
    simp
  obtain ⟨d, ran⟩ := @eval_ports W env maps (side.protoType proto) t loaded port rfl
  refine ⟨d, ?_⟩
  rw [slots, l4Slots, List.map_cons, eval_nextSlot rfl, checked, if_neg Bool.false_ne_true,
    List.map_cons, link_insn, eval_ldx, add_ctxOff, List.map_cons, link_insn, eval_ldx]
  have loads : (c.setReg 6 (c.mem.load (ctxAddr (c.regs 10) .l4Hdr) Size.dw.bytes)).mem.load
      ((c.setReg 6 (c.mem.load (ctxAddr (c.regs 10) .l4Hdr) Size.dw.bytes)).regs 6 +
        side.offset.signExtend 64) Size.h.bytes = (htobe16 port).setWidth 64 := here.header
  rw [loads]
  exact ran

/-- The matcher of a protocol on any other packet. -/
theorem protoPort_skips (proto : PortProtocol) (side : PortSide) (t : PortTest) {c : Core W}
    (other : c.regs 8 ≠ proto.number.setWidth 64) :
    Skips env maps (matcherSlots host chain ⟨side.protoType proto, t.op, t.payload⟩) c := by
  have slots : ∃ rest, matcherSlots host chain ⟨side.protoType proto, t.op, t.payload⟩ =
      l4Slots proto.number rest := by
    cases proto <;> cases side <;> exact ⟨_, rfl⟩
  obtain ⟨rest, slots⟩ := slots
  refine ⟨c, runs_of_eval (e := .out c) ?_⟩
  rw [slots, l4Slots, List.map_cons, eval_nextSlot rfl, taken_ne, signExtend_byte,
    if_pos (decide_eq_true other)]
  rfl

/-- The load of the metadata matcher: the port of a TCP or UDP packet, otherwise 0. -/
theorem eval_metaPort (side : PortSide) (m : BfMatcher) (type : m.type = side.metaType)
    (c : Core W) :
    let header := c.mem.load (ctxAddr (c.regs 10) .l4Hdr) 8
    let loaded := if c.regs 8 = PortProtocol.tcp.number.setWidth 64 ∨
        c.regs 8 = PortProtocol.udp.number.setWidth 64
      then c.mem.load (header + side.offset.signExtend 64) 2 else 0
    eval env 0 ((metaPortSlots m).map (Emitted.link maps)) c =
      eval env 0 ((nextSlot (bpfJmpImm .eq 1 0 0) :: portSlots m).map (Emitted.link maps))
        ((c.setReg 6 header).setReg 1 loaded) := by
  intro header loaded
  have offset : (if m.type = .metaSport then 0 else 2 : BitVec 16) = side.offset := by
    rw [type]
    cases side <;> rfl
  rw [metaPortSlots, offset, List.map_cons, link_insn, eval_ldx, add_ctxOff, List.map_append]
  refine eval_append_fall _ ?_
  rw [eval_swich2_of (fun rest c => eval_ldx ..) (fun rest c => eval_ldx ..)
    (fun rest c => eval_mov64Imm ..), signExtend_byte, signExtend_byte]
  refine congrArg (Eval.fall 0) ?_
  by_cases tcp : c.regs 8 = PortProtocol.tcp.number.setWidth 64
  · refine (if_pos tcp).trans ?_
    simp only [loaded, tcp, true_or, if_true]
    rfl
  by_cases udp : c.regs 8 = PortProtocol.udp.number.setWidth 64
  · refine (if_neg tcp).trans ((if_pos udp).trans ?_)
    simp only [loaded, udp, or_true, if_true]
    rfl
  · refine (if_neg tcp).trans ((if_neg udp).trans ?_)
    simp only [loaded, tcp, udp, or_self, if_false]
    rfl

theorem protoPort_continues_iff (proto : PortProtocol) (side : PortSide) (t : PortTest)
    {port : BitVec 16} {c : Core W} (here : PortAt proto side port c) :
    Continues env maps (matcherSlots host chain ⟨side.protoType proto, t.op, t.payload⟩) c ↔
      t.Holds port := by
  obtain ⟨d, ran⟩ := @eval_protoPort W env maps host chain proto side t port c here
  have decides := (decides_of_eval (b := decide (t.Holds port)) (d := d)
    (ran.trans (if_congr (by simp) rfl rfl))).1
  rw [decides, decide_eq_true_iff]

theorem metaPort_slots (side : PortSide) (op : BfMatcherOp) (payload : List Byte) :
    matcherSlots host chain ⟨side.metaType, op, payload⟩ =
      metaPortSlots ⟨side.metaType, op, payload⟩ := by
  cases side <;> rfl

/-- The metadata matcher never holds for port 0. -/
theorem metaPort_continues_iff (proto : PortProtocol) (side : PortSide) (t : PortTest)
    {port : BitVec 16} {c : Core W} (here : PortAt proto side port c) :
    Continues env maps (matcherSlots host chain ⟨side.metaType, t.op, t.payload⟩) c ↔
      port ≠ 0 ∧ t.Holds port := by
  let loaded := (c.setReg 6 (c.mem.load (ctxAddr (c.regs 10) .l4Hdr) 8)).setReg 1
    ((htobe16 port).setWidth 64)
  have known : c.regs 8 = PortProtocol.tcp.number.setWidth 64 ∨
      c.regs 8 = PortProtocol.udp.number.setWidth 64 := by
    rw [here.protocol]
    cases proto with
    | tcp => exact .inl rfl
    | udp => exact .inr rfl
  have none : (bpfJmpImm .eq 1 0 0).taken loaded = decide (port = 0) := by
    rw [taken_eq]
    refine decide_eq_decide.mpr ?_
    have zero : (0 : BitVec 32).signExtend 64 = (htobe16 0).setWidth 64 := by decide
    rw [show loaded.regs 1 = (htobe16 port).setWidth 64 from rfl, zero,
      setWidth64_inj (by decide), htobe16_eq_iff, htobe16_htobe16]
  obtain ⟨d, ran⟩ := @eval_ports W env maps side.metaType t loaded port rfl
  have whole : eval env 0 ((matcherSlots host chain ⟨side.metaType, t.op, t.payload⟩).map
      (Emitted.link maps)) c =
      if decide (port ≠ 0 ∧ t.Holds port) then .fall 0 (if port = 0 then loaded else d)
      else .out (if port = 0 then loaded else d) := by
    rw [metaPort_slots, eval_metaPort side _ rfl, if_pos known, here.header, List.map_cons,
      eval_nextSlot rfl]
    show (if (bpfJmpImm .eq 1 0 0).taken loaded then _ else eval env 0 _ loaded) = _
    rw [none, ran]
    by_cases zero : port = 0
    · have never : ¬ decide (port ≠ 0 ∧ t.Holds port) = true :=
        fun h => (of_decide_eq_true h).1 zero
      rw [if_pos (decide_eq_true zero), if_neg never, if_pos zero]
    · rw [if_neg (fun h => zero (of_decide_eq_true h)), if_neg zero]
      refine if_congr ?_ rfl rfl
      rw [decide_eq_true_iff, and_iff_right zero]
  rw [(decides_of_eval whole).1, decide_eq_true_iff]

theorem metaPort_skips (side : PortSide) (t : PortTest) {c : Core W}
    (other : ∀ proto : PortProtocol, c.regs 8 ≠ proto.number.setWidth 64) :
    Skips env maps (matcherSlots host chain ⟨side.metaType, t.op, t.payload⟩) c := by
  let loaded := (c.setReg 6 (c.mem.load (ctxAddr (c.regs 10) .l4Hdr) 8)).setReg 1 0
  refine ⟨loaded, runs_of_eval (e := .out loaded) ?_⟩
  rw [metaPort_slots, eval_metaPort side _ rfl, if_neg (not_or.mpr ⟨other .tcp, other .udp⟩),
    List.map_cons, eval_nextSlot rfl]
  rfl

end Matchers

/-! ## Agreement -/

/-- Two fragments decide alike for the packets of a protocol with a port. -/
def PortsAgree (es fs : List Emitted) (proto : PortProtocol) (side : PortSide)
    (port : BitVec 16) : Prop :=
  ∀ (W : Type) (env : Env W BfElfstubId) (maps : BfMaps) (c : Core W),
    PortAt proto side port c → (Continues env maps es c ↔ Continues env maps fs c)

/-- Code that leaves for the next rule on packets without ports. -/
def PortsOnly (es : List Emitted) : Prop :=
  ∀ (W : Type) (env : Env W BfElfstubId) (maps : BfMaps) (c : Core W),
    (∀ proto : PortProtocol, c.regs 8 ≠ proto.number.setWidth 64) → Skips env maps es c

/-- A packet of zeros. -/
def zeroPacket (proto : PortProtocol) : Core Unit where
  regs r := if r = 8 then proto.number.setWidth 64 else 0
  mem _ := 0
  world := ()

theorem zeroPacket_portAt (proto : PortProtocol) (side : PortSide) :
    PortAt proto side 0 (zeroPacket proto) where
  protocol := rfl
  header := Mem.load_zeroes _ _

/-- **Ports.**  The metadata matchers agree with those of the protocols for all ports but 0, and
for port 0 when the test excludes it.  They hold for no other packets. -/
theorem metaPort_agrees_iff (side : PortSide) (proto : PortProtocol) {t : PortTest}
    {payload : List Byte} (parsed : t.Parsed payload) {p p' q q' : BfProgram}
    (trackedMeta : p.Tracked) (trackedProto : q.Tracked)
    (metaGenerated : bfMatcherGenerate ⟨side.metaType, t.op, payload⟩ p = .ok ((), p'))
    (protoGenerated : bfMatcherGenerate ⟨side.protoType proto, t.op, payload⟩ q = .ok ((), q')) :
    ∃ es fs, p' = p.append es ∧ q' = q.append fs ∧ PortsOnly es ∧ PortsOnly fs ∧
      ∀ port : BitVec 16, PortsAgree es fs proto side port ↔ port ≠ 0 ∨ ¬ t.Holds 0 := by
  cases parsed.eq_payload
  refine ⟨_, _, bfMatcherGenerate_emits _ p p' trackedMeta rfl rfl metaGenerated,
    bfMatcherGenerate_emits _ q q' trackedProto rfl rfl protoGenerated, ?_, ?_, ?_⟩
  · intro W env maps c other
    exact metaPort_skips side t other
  · intro W env maps c other
    exact protoPort_skips proto side t (other proto)
  · intro port
    constructor
    · intro agree
      by_cases zero : port = 0
      · subst zero
        right
        intro holds
        have here := zeroPacket_portAt proto side
        have same := agree Unit (drawEnv 0) ⟨0, 0, 0, []⟩ (zeroPacket proto) here
        rw [metaPort_continues_iff proto side t here,
          protoPort_continues_iff proto side t here] at same
        exact (same.mpr holds).1 rfl
      · exact .inl zero
    · intro fine W env maps c here
      rw [metaPort_continues_iff proto side t here, protoPort_continues_iff proto side t here]
      constructor
      · exact And.right
      · intro holds
        refine ⟨?_, holds⟩
        rintro rfl
        exact fine.elim (fun h => h rfl) fun h => h holds

/-- Both matchers for port 80 are generated, and agree for port 443. -/
theorem metaPort80_agrees :
    ∃ es fs, bfMatcherGenerate ⟨.metaDport, .eq, [0, 80]⟩ sampleProgram =
        .ok ((), sampleProgram.append es) ∧
      bfMatcherGenerate ⟨.tcpDport, .eq, [0, 80]⟩ sampleProgram =
        .ok ((), sampleProgram.append fs) ∧ PortsAgree es fs .tcp .destination 443 := by
  have parsed : (PortTest.eq 80).Parsed [0, 80] :=
    .eq (show bfParseL4Port 80 [] = .ok [0, 80] from rfl)
  have metaGenerated : ∃ p', bfMatcherGenerate ⟨.metaDport, .eq, [0, 80]⟩ sampleProgram =
      .ok ((), p') := ⟨_, rfl⟩
  have protoGenerated : ∃ p', bfMatcherGenerate ⟨.tcpDport, .eq, [0, 80]⟩ sampleProgram =
      .ok ((), p') := ⟨_, rfl⟩
  obtain ⟨p', metaGenerated⟩ := metaGenerated
  obtain ⟨q', protoGenerated⟩ := protoGenerated
  obtain ⟨es, fs, rfl, rfl, -, -, agree⟩ := metaPort_agrees_iff .destination .tcp parsed
    (bfProgramNew_tracked ..) (bfProgramNew_tracked ..) metaGenerated protoGenerated
  exact ⟨es, fs, metaGenerated, protoGenerated, (agree 443).mpr (.inl (by decide))⟩

/-- A TCP packet from port 0 passes `tcp.sport eq 0` and not `meta.sport eq 0`. -/
theorem port0_disagrees :
    (PortTest.eq 0).Parsed [0, 0] ∧
      ∃ es fs, bfMatcherGenerate ⟨.metaSport, .eq, [0, 0]⟩ sampleProgram =
          .ok ((), sampleProgram.append es) ∧
        bfMatcherGenerate ⟨.tcpSport, .eq, [0, 0]⟩ sampleProgram =
          .ok ((), sampleProgram.append fs) ∧
        PortAt .tcp .source 0 (zeroPacket .tcp) ∧
        ¬ Continues (drawEnv 0) sampleMaps es (zeroPacket .tcp) ∧
        Continues (drawEnv 0) sampleMaps fs (zeroPacket .tcp) ∧
        ¬ PortsAgree es fs .tcp .source 0 := by
  have here := zeroPacket_portAt .tcp .source
  have metaGenerated : ∃ p', bfMatcherGenerate ⟨.metaSport, .eq, [0, 0]⟩ sampleProgram =
      .ok ((), p') := ⟨_, rfl⟩
  have protoGenerated : ∃ p', bfMatcherGenerate ⟨.tcpSport, .eq, [0, 0]⟩ sampleProgram =
      .ok ((), p') := ⟨_, rfl⟩
  obtain ⟨p', metaGenerated⟩ := metaGenerated
  obtain ⟨q', protoGenerated⟩ := protoGenerated
  have metaEmits := bfMatcherGenerate_emits _ _ p' (bfProgramNew_tracked ..) rfl rfl metaGenerated
  have protoEmits := bfMatcherGenerate_emits _ _ q' (bfProgramNew_tracked ..) rfl rfl protoGenerated
  subst metaEmits protoEmits
  have stops : ¬ Continues (drawEnv 0) sampleMaps (matcherSlots sampleProgram.host
      sampleProgram.chain ⟨.metaSport, .eq, [0, 0]⟩) (zeroPacket .tcp) :=
    fun h => ((metaPort_continues_iff .tcp .source (.eq 0) here).mp h).1 rfl
  have goesOn : Continues (drawEnv 0) sampleMaps (matcherSlots sampleProgram.host
      sampleProgram.chain ⟨.tcpSport, .eq, [0, 0]⟩) (zeroPacket .tcp) :=
    (protoPort_continues_iff .tcp .source (.eq 0) here).mpr rfl
  refine ⟨.eq (show bfParseL4Port 0 [] = .ok [0, 0] from rfl), _, _, metaGenerated,
    protoGenerated, here, stops,
    goesOn, fun agree => ?_⟩
  exact stops ((agree Unit _ _ _ here).mpr goesOn)

end Bpfilter
