/-
# Cgen.ProtoMatch -- the protocol matchers

`meta.l3_proto`, `meta.l4_proto` and `ip4.proto` compare the registers and the header
that the code in front of the rules has left (Cgen.Protocols).  A matcher is evaluated
in any state that has the same context (`AtMatcher`); the rules before it keep the
context, so every matcher of a verified program is (`atMatcher_of_rules`).

The registers hold zero for what has no parser.  `protoMatchers_exact_iff` says for
which packets and values this makes a difference.
-/
import Bpfilter.Cgen.AddrMatch
import Bpfilter.Cgen.Marks
import Bpfilter.Cgen.PortMatch
import Bpfilter.Cgen.Protocols
import Bpfilter.Cgen.StubAgreement

namespace Bpfilter

set_option autoImplicit false

open Ebpf

variable {W : Type} {env : Env W BfElfstubId} {maps : BfMaps} {packet : W → Packet}
  {copies : W → BitVec 32 → Addr → Nat → Bool} {others : List (Addr × Nat)}
  {readable : W → BitVec 32 → Bool}

/-! ## At a matcher -/

/-- The code in front of the rules has run to its end, and what has run since kept the context. -/
def AtMatcher (env : Env W BfElfstubId) (maps : BfMaps) (p : BfProgram)
    (others : List (Addr × Nat)) (c d : Core W) : Prop :=
  ∃ e, Runs env ((headSlots p).map (Emitted.link maps)) 0 c (.fall e) ∧ Kept others e d

section AtMatcher

variable {c d e : Core W}

/-- Whatever the effects so far were, the context is kept. -/
def KeptAlong (others : List (Addr × Nat)) (c : Core W) (_ : List Effect) (d : Core W) : Prop :=
  Kept others c d

variable (maps others) in
/-- The rules of a verified program keep the context. -/
theorem kept_follows (quiet : QuietCalls env) {host : Host} {chain : BfChain} {rules : List BfRule}
    (bounded : ∀ rule ∈ rules, ∀ m ∈ rule.matchers, StackBounded (matcherSlots host chain m))
    (aside : Aside (c.regs 10) others)
    (listed : markRange (c.mem.load (ctxAddr (c.regs 10) .arg) 8) ∈ others) :
    Follows env maps (matcherOutcome env maps host chain) (KeptAlong others c) rules where
  matcher rule inRules m inRule _ d kept :=
    Kept.trans kept (matcherOutcome_kept quiet.helpers (bounded rule inRules m inRule) d).1
  effect rule inRules e inRule _ d kept := by
    have kept : Kept others c d := kept
    cases e with
    | mark value =>
        refine kept.trans (perform_mark_kept value ?_).1
        rw [kept.frame, kept.load aside (by decide)]
        exact listed
    | log index headers => exact kept.trans (perform_log_kept index headers quiet.log).1
    | counter index => exact kept.trans (perform_counter_kept index quiet.updateCounters).1

/-- A matcher behind rules that did not decide and behind matchers of its own rule. -/
theorem atMatcher_of_rules (quiet : QuietCalls env) {p : BfProgram} {rules : List BfRule}
    {rule : BfRule} {ms : List BfMatcher}
    (bounded : ∀ r ∈ rule :: rules, ∀ m ∈ r.matchers, StackBounded (matcherSlots p.host p.chain m))
    (ran : Runs env ((headSlots p).map (Emitted.link maps)) 0 c (.fall e))
    (aside : Aside (e.regs 10) others)
    (listed : markRange (e.mem.load (ctxAddr (e.regs 10) .arg) 8) ∈ others) {effects : List Effect}
    (passed : passRules env maps (matcherOutcome env maps p.host p.chain) rules e =
      some (effects, d)) (before : ∀ m ∈ ms, m ∈ rule.matchers) :
    AtMatcher env maps p others c
      (matchAll (matcherOutcome env maps p.host p.chain) ms d).core := by
  have follows := kept_follows maps others quiet
    (fun r mem => bounded r (List.mem_cons_of_mem _ mem)) aside listed
  have start : KeptAlong others e [] e := Kept.refl others e
  have atRule : KeptAlong others e effects d := follows.passRules start passed
  refine ⟨e, ran, matchAll_keeps (fun m mem g kept => ?_) atRule⟩
  exact Kept.trans kept (matcherOutcome_kept quiet.helpers
    (bounded rule List.mem_cons_self m (before m mem)) g).1

/-- What is known at the rules is known at their matchers. -/
theorem AtMatcher.known {p : BfProgram} (here : AtMatcher env maps p others c d)
    (parse : ParseEnv env p.host packet copies (c.regs 10) others)
    (stubs : ParseStubs env packet readable) (aside : Aside (c.regs 10) others) :
    ∃ r7, HeadKnown p.chain (packet c.world) ((packet c.world).slice (readable c.world)) r7 d := by
  obtain ⟨e, ran, kept⟩ := here
  obtain ⟨r7, known, ethertype⟩ := (head_protocols parse stubs).of_runs_fall ran
  obtain ⟨s, done⟩ := (head_ends parse).of_runs_fall ran
  have asideHere : Aside (e.regs 10) others := done.frame.2.symm ▸ aside
  have eh : ehByte d = ehByte e := by
    have here := Mem.inRange_add (ctxAddr (e.regs 10) .ipv6Eh) 1 0 (by decide) (by decide)
    rw [show BitVec.ofNat 64 0 = 0 from rfl, add_zero] at here
    rw [ehByte, ehByte, kept.frame]
    exact kept.field asideHere (by decide) here
  refine ⟨r7, ⟨kept.l3.trans known.l3, kept.l4.trans known.l4, ?_, ?_⟩, ethertype⟩
  · rw [offsetAt, kept.frame, kept.load asideHere (by decide)]
    exact known.start
  · intro six store
    exact eh.trans (known.eh six store)

/-- A slice of the packet is kept: it is in its buffer, or apart from all that was written. -/
theorem Kept.denotes {w : Packet} {a : Addr} {offset : BitVec 32} {len : Nat}
    {buffer : RuntimeField} {copied : Bool} (kept : Kept others c d)
    (aside : Aside (c.regs 10) others) (denotes : Denotes w c.mem a offset len)
    (placed : Placed (c.regs 10) others buffer copied a len) (below : buffer.offset + len ≤ 176) :
    Denotes w d.mem a offset len := by
  intro i inside
  have here := Mem.inRange_add a len i inside (by omega)
  rw [← denotes i inside]
  cases copied with
  | true =>
      obtain rfl : a = ctxAddr (c.regs 10) buffer := placed
      exact kept.field aside below here
  | false =>
      obtain ⟨stack, apart⟩ : Outside (c.regs 10) others a len := placed
      refine kept.mem _ fun r mem => ?_
      rcases List.mem_cons.mp mem with rfl | mem
      · have fits : RuntimeField.scratch.offset + 64 ≤ sizeofRuntime := by decide
        exact disjoint_ctx_of_stack stack .scratch fits _ here
      · exact apart r mem _ here

/-- The stored address of the layer 3 header still denotes its bytes. -/
theorem AtMatcher.internet {p : BfProgram} (here : AtMatcher env maps p others c d)
    (parse : ParseEnv env p.host packet copies (c.regs 10) others)
    (aside : Aside (c.regs 10) others) {len : Nat} (known : l3Len (d.regs 7) = some len) :
    HeaderDenotes (packet c.world) .l3Hdr (offsetAt .l3Offset (d.regs 10) d.mem) len (d.regs 10)
      d.mem := by
  obtain ⟨e, ran, kept⟩ := here
  obtain ⟨s, done⟩ := (head_ends parse).of_runs_fall ran
  obtain ⟨started, frame⟩ := done.frame
  have asideHere : Aside (e.regs 10) others := frame.symm ▸ aside
  rw [kept.l3] at known
  have layer := done.headers.internet
  have bytes := done.headers.internetDenotes len known
  rw [known, started, ← frame] at layer
  rw [started, ← frame] at bytes
  obtain ⟨copied, sliced⟩ := layer
  have small : RuntimeField.l2.offset + len ≤ 176 := by
    rcases l3Len_cases known with ⟨-, rfl⟩ | ⟨-, rfl⟩ <;> decide
  rw [kept.frame, HeaderDenotes, offsetAt, kept.load asideHere (by decide),
    kept.load asideHere (by decide)]
  exact kept.denotes asideHere bytes sliced.placed small

end AtMatcher

/-! ## Protocols of a packet -/

/-- The ethertype of a packet. -/
def ethertype (packet : Packet) : BitVec 16 := packet 12 ++ packet 13

theorem etherReg_eq (packet : Packet) :
    etherReg packet = (htobe16 (ethertype packet)).setWidth 64 := by
  apply BitVec.eq_of_toNat_eq
  have first := (packet 12).isLt
  have second := (packet 13).isLt
  have value : (ethertype packet).toNat = (packet 12).toNat * 256 + (packet 13).toNat := by
    rw [ethertype, BitVec.toNat_append, ← Nat.shiftLeft_add_eq_or_of_lt second, Nat.shiftLeft_eq]
  have high : ((packet 12).toNat * 256 + (packet 13).toNat) / 256 = (packet 12).toNat := by omega
  have low : ((packet 12).toNat * 256 + (packet 13).toNat) % 256 = (packet 13).toNat := by omega
  rw [toNat_setWidth64 (by decide), toNat_htobe16, value, high, low, etherReg, BitVec.toNat_ofNat]
  simp only [Mem.leValue]
  omega

theorem htobe16_inj (x y : BitVec 16) : htobe16 x = htobe16 y ↔ x = y := by
  rw [htobe16_eq_iff, htobe16_htobe16]

/-- The register of an ethertype. -/
theorem etherReg_iff (packet : Packet) (e : BitVec 16) :
    etherReg packet = (htobe16 e).setWidth 64 ↔ ethertype packet = e := by
  rw [etherReg_eq, setWidth64_inj (by decide), htobe16_inj]

theorem etherReg_ipv4 (packet : Packet) : etherReg packet = ipv4Reg ↔ ethertype packet = ethPIp :=
  etherReg_iff packet ethPIp

theorem etherReg_ipv6 (packet : Packet) : etherReg packet = ipv6Reg ↔ ethertype packet = ethPIpv6 :=
  etherReg_iff packet ethPIpv6

/-- A protocol is the upper-layer protocol of an Ethernet packet: the protocol field of an IPv4
header, or the end of the chain of an IPv6 header, where it can be read. -/
def UpperLayer (packet : Packet) (slice : Slice) (proto : BitVec 8) : Prop :=
  (ethertype packet = ethPIp ∧ packet (14 + 9) = proto) ∨
    (ethertype packet = ethPIpv6 ∧ ∃ headers stop,
      HeaderChain refAdvance slice (packet (14 + 6)) (14 + 40) headers proto stop)

/-- A protocol has a parser, and the code in front of the rules finds it. -/
def FoundProto (flags : BfChainFlags) (packet : Packet) (slice : Slice) (proto : BitVec 8) : Prop :=
  hasParser proto = true ∧
    ((ethertype packet = ethPIp ∧ packet (14 + 9) = proto) ∨
      (ethertype packet = ethPIpv6 ∧ ∃ headers stop,
        WalkReaches flags slice (packet (14 + 6)) (14 + 40) proto headers stop))

section Protocols

variable {flags : BfChainFlags} {w : Packet} {slice : Slice} {proto other : BitVec 8}

theorem ipv4_ne_ipv6 : ethPIp ≠ ethPIpv6 := by decide

/-- A packet has one upper-layer protocol. -/
theorem UpperLayer.unique (first : UpperLayer w slice proto) (second : UpperLayer w slice other) :
    proto = other := by
  rcases first with ⟨ipv4, field⟩ | ⟨ipv6, headers, stop, chain⟩
  · rcases second with ⟨-, field'⟩ | ⟨ipv6, -⟩
    · exact field.symm.trans field'
    · exact absurd (ipv4.symm.trans ipv6) ipv4_ne_ipv6
  · rcases second with ⟨ipv4, -⟩ | ⟨-, headers', stop', chain'⟩
    · exact absurd (ipv4.symm.trans ipv6) ipv4_ne_ipv6
    · exact (chain.unique refAdvance_exact chain').2.1

/-- The code finds one protocol. -/
theorem FoundProto.unique (first : FoundProto flags w slice proto)
    (second : FoundProto flags w slice other) : proto = other := by
  rcases first.2 with ⟨ipv4, field⟩ | ⟨ipv6, headers, stop, walk⟩
  · rcases second.2 with ⟨-, field'⟩ | ⟨ipv6, -⟩
    · exact field.symm.trans field'
    · exact absurd (ipv4.symm.trans ipv6) ipv4_ne_ipv6
  · rcases second.2 with ⟨ipv4, -⟩ | ⟨-, headers', stop', walk'⟩
    · exact absurd (ipv4.symm.trans ipv6) ipv4_ne_ipv6
    · exact (walk.chain.unique stubAdvance_exact walk'.chain).2.1

/-- A byte in the protocol register, once protocols without a parser are forgotten. -/
theorem l4Kept_byte (x : BitVec 8) :
    l4Kept (x.setWidth 64) = (if hasParser x then x else 0).setWidth 64 := by
  rw [l4Kept, hasParser]
  split <;> rfl

/-- The register of the upper layer, for a program that parses layer 2. -/
theorem upperRead_byte (flags : BfChainFlags) (w : Packet) (slice : Slice) :
    ∃ x, upperRead flags w slice 14 (etherReg w) = x.setWidth 64 ∧
      ∀ proto, (hasParser proto = true ∧ x = proto) ↔ FoundProto flags w slice proto := by
  by_cases ipv4 : ethertype w = ethPIp
  · refine ⟨w (14 + 9), ?_, fun proto => and_congr Iff.rfl ?_⟩
    · rw [upperRead, if_pos ((etherReg_ipv4 w).mpr ipv4)]
    · constructor
      · exact fun field => .inl ⟨ipv4, field⟩
      · rintro (⟨-, field⟩ | ⟨ipv6, -⟩)
        · exact field
        · exact absurd (ipv4.symm.trans ipv6) ipv4_ne_ipv6
  by_cases ipv6 : ethertype w = ethPIpv6
  · refine ⟨(ipv6View flags slice 14 (w (14 + 6))).proto, ?_, fun proto => ?_⟩
    · rw [upperRead, if_neg (mt (etherReg_ipv4 w).mp ipv4), if_pos ((etherReg_ipv6 w).mpr ipv6)]
    · refine and_congr_right fun parsed => (ipv6View_proto_iff parsed).trans ?_
      constructor
      · exact fun walk => .inr ⟨ipv6, walk⟩
      · rintro (⟨is, -⟩ | ⟨-, walk⟩)
        · exact absurd is ipv4
        · exact walk
  · refine ⟨0, ?_, fun proto => iff_of_false ?_ ?_⟩
    · rw [upperRead, if_neg (mt (etherReg_ipv4 w).mp ipv4), if_neg (mt (etherReg_ipv6 w).mp ipv6)]
      rfl
    · rintro ⟨parsed, zero⟩
      exact (hasParser_facts proto parsed).2.2.2 zero.symm
    · rintro ⟨-, ⟨is, -⟩ | ⟨is, -⟩⟩
      · exact ipv4 is
      · exact ipv6 is

/-- The protocol register holds what was found, or zero. -/
theorem l4Register_iff (proto : BitVec 8) :
    l4Kept (upperRead flags w slice 14 (etherReg w)) = proto.setWidth 64 ↔
      FoundProto flags w slice proto ∨ (proto = 0 ∧ ∀ u, ¬ FoundProto flags w slice u) := by
  obtain ⟨x, holds, found⟩ := upperRead_byte flags w slice
  rw [holds, l4Kept_byte, setWidth64_inj (by decide)]
  cases parsed : hasParser x with
  | true =>
      rw [if_pos rfl]
      have here := (found x).mp ⟨parsed, rfl⟩
      constructor
      · rintro rfl
        exact .inl here
      · rintro (other | ⟨-, none⟩)
        · exact here.unique other
        · exact absurd here (none x)
  | false =>
      rw [if_neg Bool.false_ne_true]
      have none : ∀ u, ¬ FoundProto flags w slice u := by
        intro u reached
        obtain ⟨known, rfl⟩ := (found u).mpr reached
        rw [parsed] at known
        cases known
      constructor
      · rintro rfl
        exact .inr ⟨rfl, none⟩
      · rintro (reached | ⟨rfl, -⟩)
        · exact absurd reached (none proto)
        · rfl

/-- The ethertype register holds the ethertype when it has a parser, and zero otherwise. -/
theorem l3Register_iff (e : BitVec 16) :
    l3Kept (etherReg w) = (htobe16 e).setWidth 64 ↔
      if ethertype w = ethPIp ∨ ethertype w = ethPIpv6 then ethertype w = e else e = 0 := by
  have known : (l3Len (etherReg w)).isSome = true ↔
      ethertype w = ethPIp ∨ ethertype w = ethPIpv6 := by
    rw [← etherReg_ipv4, ← etherReg_ipv6, l3Len]
    split_ifs with ipv4 ipv6
    · simp [ipv4]
    · simp [ipv6]
    · simp [ipv4, ipv6]
  have zero : (0 : BitVec 64) = (htobe16 0).setWidth 64 := by decide
  rw [l3Kept]
  by_cases parsed : ethertype w = ethPIp ∨ ethertype w = ethPIpv6
  · rw [if_pos (known.mpr parsed), if_pos parsed, etherReg_iff]
  · rw [if_neg (mt known.mp parsed), if_neg parsed, zero, setWidth64_inj (by decide), htobe16_inj]
    exact eq_comm

end Protocols

/-! ## The metadata matchers -/

section Metadata

variable {host : Host} {chain : BfChain}

theorem metaL3Proto_decides (e : BitVec 16) (d : Core W) :
    Continues env maps (matcherSlots host chain ⟨.metaL3Proto, .eq, leBytes16 e⟩) d ↔
      d.regs 7 = (htobe16 e).setWidth 64 := by
  have slots : matcherSlots host chain ⟨.metaL3Proto, .eq, leBytes16 e⟩ =
      [nextSlot (bpfJmpImm .ne 7 ((htobe16 e).setWidth 32) 0)] := by
    simp only [matcherSlots, metaSlots, payloadU16_single]
  rw [slots, (decides_of_eval (eval_lastJump rfl d)).1, taken_ne_proto]
  simp

theorem metaL4Proto_decides (op : BfMatcherOp) (proto : BitVec 8) (rest : List Byte) (d : Core W)
    {x : BitVec 8} (holds : d.regs 8 = x.setWidth 64) :
    Continues env maps (matcherSlots host chain ⟨.metaL4Proto, op, proto :: rest⟩) d ↔
      opHolds op (x = proto) = true := by
  have slots : matcherSlots host chain ⟨.metaL4Proto, op, proto :: rest⟩ =
      [nextSlot (bpfJmpImm (mismatchJmp op) 8 (proto.setWidth 32) 0)] := by
    simp only [matcherSlots, metaSlots, payloadU8_cons]
  rw [slots]
  refine (decides_of_eval (eval_compare (by decide) op
    (fun op => bpfJmpImm op 8 (proto.setWidth 32) 0) rfl ?_)).1
  rw [taken_imm, holds, signExtend_byte]

theorem ip4Proto_decides (op : BfMatcherOp) (proto : BitVec 8) {d : Core W}
    (ipv4 : d.regs 7 = ipv4Reg) :
    Continues env maps (matcherSlots host chain ⟨.ip4Proto, op, [proto]⟩) d ↔
      opHolds op ((ip4Packet d).protocol = proto) = true := by
  obtain ⟨e, ran, -⟩ := @eval_ip4 W env maps _ d (ip4Packet_at ipv4) ⟨.ip4Proto, op, [proto]⟩ rfl
  have holds : ip4Holds (ip4Packet d) ⟨.ip4Proto, op, [proto]⟩ =
      opHolds op ((ip4Packet d).protocol = proto) := by
    simp only [ip4Holds, payloadU8_singleton]
  rw [holds] at ran
  exact (decides_of_eval ran).1

/-- The matchers of this section are always generated. -/
theorem protoMatcher_generated {m : BfMatcher}
    (isProto : m.type = .metaL3Proto ∨ m.type = .metaL4Proto ∨ m.type = .ip4Proto)
    (q : BfProgram) :
    bfMatcherGenerate m q = .ok ((), q.append (matcherSlots q.host q.chain m)) := by
  obtain ⟨type, op, payload⟩ := m
  rcases isProto with rfl | rfl | rfl
  · exact emitFixup_eq ..
  · exact emitFixup_eq ..
  · simp only [bfMatcherGenerate, bfMatcherGenerateIp4, bfMatcherGenerateIp4Proto, gen_bind, emit_eq,
      emitFixupJmpNextRule, emitFixup_eq, BfProgram.append_append]
    rfl

end Metadata

/-- The matchers of a claim about a packet's protocols: by ethertype, by upper-layer protocol, and
by the protocol field of an IPv4 header.  The payload of `meta.l4_proto` has a second byte. -/
def protoMatchers (e : BitVec 16) (proto : BitVec 8) (rest : List Byte) : List BfMatcher :=
  [⟨.metaL3Proto, .eq, leBytes16 e⟩, ⟨.metaL4Proto, .eq, proto :: rest⟩,
    ⟨.metaL4Proto, .ne, proto :: rest⟩, ⟨.ip4Proto, .eq, [proto]⟩, ⟨.ip4Proto, .ne, [proto]⟩]

/-- The protocol matchers say what the packet's protocols are, and agree on IPv4 packets. -/
structure ProtoExact (env : Env W BfElfstubId) (maps : BfMaps) (p : BfProgram) (packet : Packet)
    (slice : Slice) (e : BitVec 16) (proto : BitVec 8) (rest : List Byte) (d : Core W) : Prop where
  l3 : Continues env maps (matcherSlots p.host p.chain ⟨.metaL3Proto, .eq, leBytes16 e⟩) d ↔
    ethertype packet = e
  l4 : Continues env maps (matcherSlots p.host p.chain ⟨.metaL4Proto, .eq, proto :: rest⟩) d ↔
    UpperLayer packet slice proto
  l4Not : Continues env maps (matcherSlots p.host p.chain ⟨.metaL4Proto, .ne, proto :: rest⟩) d ↔
    ¬ UpperLayer packet slice proto
  agree : ethertype packet = ethPIp → ∀ op, op = .eq ∨ op = .ne →
    (Continues env maps (matcherSlots p.host p.chain ⟨.metaL4Proto, op, proto :: rest⟩) d ↔
      Continues env maps (matcherSlots p.host p.chain ⟨.ip4Proto, op, [proto]⟩) d)

/-- The ethertype is one that is parsed, or the value 0 makes no difference. -/
def L3Settled (packet : Packet) (e : BitVec 16) : Prop :=
  (ethertype packet = ethPIp ∨ ethertype packet = ethPIpv6) ∨ (e = 0 ↔ ethertype packet = e)

/-- What is found is the upper-layer protocol, or the matcher asks for neither.  Where nothing is
found, 0 stands for all protocols. -/
inductive L4Settled (flags : BfChainFlags) (packet : Packet) (slice : Slice) (proto : BitVec 8) :
    Prop
  | found {upper : BitVec 8} (found : FoundProto flags packet slice upper)
      (right : UpperLayer packet slice upper)
  | neither {other : BitVec 8} (found : FoundProto flags packet slice other)
      (wrong : ¬ UpperLayer packet slice other) (notFound : proto ≠ other)
      (notUpper : ¬ UpperLayer packet slice proto)
  | zero (none : ∀ u, ¬ FoundProto flags packet slice u) (asked : proto = 0)
      (right : UpperLayer packet slice 0)
  | nothing (none : ∀ u, ¬ FoundProto flags packet slice u) (asked : proto ≠ 0)
      (notUpper : ¬ UpperLayer packet slice proto)

section Settled

variable {flags : BfChainFlags} {w : Packet} {slice : Slice} {proto : BitVec 8}

theorem l3Settled_iff (e : BitVec 16) :
    ((if ethertype w = ethPIp ∨ ethertype w = ethPIpv6 then ethertype w = e else e = 0) ↔
      ethertype w = e) ↔ L3Settled w e := by
  rw [L3Settled]
  split <;> simp [*]

theorem l4Settled_iff :
    ((FoundProto flags w slice proto ∨ (proto = 0 ∧ ∀ u, ¬ FoundProto flags w slice u)) ↔
      UpperLayer w slice proto) ↔ L4Settled flags w slice proto := by
  by_cases some : ∃ u, FoundProto flags w slice u
  · obtain ⟨u, found⟩ := some
    have notNone : ¬ (proto = 0 ∧ ∀ u, ¬ FoundProto flags w slice u) := fun h => h.2 u found
    have same : FoundProto flags w slice proto ↔ proto = u :=
      ⟨fun h => h.unique found, fun h => h ▸ found⟩
    rw [or_iff_left notNone, same]
    constructor
    · intro holds
      by_cases right : UpperLayer w slice u
      · exact .found found right
      · have differs : proto ≠ u := fun h => right (h ▸ holds.mp h)
        exact .neither found right differs (mt holds.mpr differs)
    · intro settled
      cases settled with
      | found found' right =>
          rw [← found.unique found'] at right
          exact ⟨fun h => h ▸ right, fun h => h.unique right⟩
      | neither found' wrong notFound notUpper =>
          rw [← found.unique found'] at notFound
          exact iff_of_false notFound notUpper
      | zero none | nothing none => exact absurd found (none u)
  · have none : ∀ u, ¬ FoundProto flags w slice u := not_exists.mp some
    rw [or_iff_right (none proto), and_iff_left none]
    constructor
    · intro holds
      by_cases asked : proto = 0
      · exact .zero none asked (asked ▸ holds.mp asked)
      · exact .nothing none asked (mt holds.mpr asked)
    · intro settled
      cases settled with
      | found found | neither found => exact absurd found (none _)
      | zero _ asked right => exact iff_of_true asked (asked ▸ right)
      | nothing _ asked notUpper => exact iff_of_false asked notUpper

end Settled

section Exact

variable {p : BfProgram} {c d : Core W}

theorem opHolds_iff (op : BfMatcherOp) (P : Prop) [Decidable P] :
    opHolds op P = true ↔ (P ↔ op = .eq) := beq_iff_eq.trans decide_eq_decide

/-- The protocol field of an IPv4 packet, at a matcher. -/
theorem AtMatcher.ip4_protocol (here : AtMatcher env maps p others c d)
    (parse : ParseEnv env p.host packet copies (c.regs 10) others)
    (aside : Aside (c.regs 10) others) (ipv4 : d.regs 7 = ipv4Reg) :
    (ip4Packet d).protocol =
      packet c.world (offsetAt .l3Offset (d.regs 10) d.mem + 9) := by
  have known : l3Len (d.regs 7) = some 20 := by
    rw [ipv4]
    rfl
  exact (leBits_byte _).trans (here.internet parse aside known 9 (by decide))

/-- **Protocol matchers.**  At any matcher of a program that parses layer 2, the protocol matchers
say what the packet's protocols are exactly when the ethertype has a parser, or 0 was not asked for
and is not meant, and likewise for the upper-layer protocol. -/
theorem protoMatchers_exact_iff (l2 : p.flavor.parsesL2 = true)
    (parse : ParseEnv env p.host packet copies (c.regs 10) others)
    (stubs : ParseStubs env packet readable) (aside : Aside (c.regs 10) others)
    (here : AtMatcher env maps p others c d) (e : BitVec 16) (proto : BitVec 8) (rest : List Byte) :
    (∀ m ∈ protoMatchers e proto rest, ∀ q : BfProgram, bfMatcherGenerate m q =
      .ok ((), q.append (matcherSlots q.host q.chain m))) ∧
    (ProtoExact env maps p (packet c.world) ((packet c.world).slice (readable c.world)) e proto rest
        d ↔
      L3Settled (packet c.world) e ∧
        L4Settled p.chain.flags (packet c.world) ((packet c.world).slice (readable c.world))
          proto) := by
  refine ⟨fun m mem q => protoMatcher_generated ?_ q, ?_⟩
  · simp only [protoMatchers, List.mem_cons, List.not_mem_nil, or_false] at mem
    rcases mem with rfl | rfl | rfl | rfl | rfl <;> simp
  obtain ⟨r7, known, isEther⟩ := here.known parse stubs aside
  obtain rfl := isEther l2
  have start : (bfHookToFlavor p.chain.hook).l3Start = 14 := if_pos l2
  rw [start] at known
  obtain ⟨upper, upperIs, -⟩ := upperRead_byte p.chain.flags (packet c.world)
    ((packet c.world).slice (readable c.world))
  have register : d.regs 8 = (if hasParser upper then upper else 0).setWidth 64 := by
    rw [known.l4, upperIs, l4Kept_byte]
  have isProto : (if hasParser upper then upper else 0) = proto ↔
      FoundProto p.chain.flags (packet c.world) ((packet c.world).slice (readable c.world)) proto ∨
        (proto = 0 ∧ ∀ u, ¬ FoundProto p.chain.flags (packet c.world)
          ((packet c.world).slice (readable c.world)) u) := by
    rw [← l4Register_iff, ← known.l4, register, setWidth64_inj (by decide)]
  have l3 := (@metaL3Proto_decides W env maps p.host p.chain e d).trans
    ((iff_of_eq (congrArg (· = _) known.l3)).trans (l3Register_iff e))
  have l4 : ∀ op, Continues env maps (matcherSlots p.host p.chain
      ⟨.metaL4Proto, op, proto :: rest⟩) d ↔ _ := fun op =>
    (metaL4Proto_decides op proto rest d register).trans ((opHolds_iff op _).trans
      (iff_congr isProto Iff.rfl))
  have ip4 : ethertype (packet c.world) = ethPIp → ∀ op, Continues env maps
      (matcherSlots p.host p.chain ⟨.ip4Proto, op, [proto]⟩) d ↔
        (UpperLayer (packet c.world) ((packet c.world).slice (readable c.world)) proto ↔
          op = .eq) := by
    intro ipv4 op
    have seven : d.regs 7 = ipv4Reg := by
      rw [known.l3, (etherReg_ipv4 _).mpr ipv4]
      rfl
    have field := here.ip4_protocol parse aside seven
    rw [known.start] at field
    have isUpper : (ip4Packet d).protocol = proto ↔
        UpperLayer (packet c.world) ((packet c.world).slice (readable c.world)) proto := by
      rw [field]
      constructor
      · exact fun same => .inl ⟨ipv4, same⟩
      · rintro (⟨-, same⟩ | ⟨ipv6, -⟩)
        · exact same
        · exact absurd (ipv4.symm.trans ipv6) ipv4_ne_ipv6
    exact (ip4Proto_decides op proto seven).trans ((opHolds_iff op _).trans
      (iff_congr isUpper Iff.rfl))
  rw [← l3Settled_iff, ← l4Settled_iff]
  constructor
  · intro exact'
    refine ⟨l3.symm.trans exact'.l3, Iff.trans ?_ exact'.l4⟩
    rw [l4]
    simp
  · rintro ⟨three, four⟩
    refine ⟨l3.trans three, ?_, ?_, ?_⟩
    · rw [l4, four]
      simp
    · rw [l4, four]
      simp
    · intro ipv4 op _
      rw [l4, ip4 ipv4, four]

end Exact

/-! ## Sample packets -/

section Samples

/-- The kernel on packets whose slices are copied; the NH stub records the extension headers. -/
def recordEnv : Env Packet BfElfstubId :=
  { layoutEnv false with
    sub := fun id a m w =>
      let reply := (layoutEnv false).sub id a m w
      if id = .parseIpv6Nh then
        let walked := bfParseIpv6Nh (w.slice fun _ => true) (stubL3Offset a.r1 m) (stubNexthdr a.r1 m)
        { reply with
          mem := reply.mem.store (a.r1 + BitVec.ofNat 64 RuntimeField.ipv6Eh.offset) 1
            (walked.ipv6Eh.setWidth 64) }
      else reply }

theorem recordEnv_parse :
    ParseEnv recordEnv sampleHost (fun w => w) (fun _ _ _ _ => true) 8192 [] where
  slice :=
    { bytes := (layoutEnv_slice false).bytes
      copied := (layoutEnv_slice false).copied
      direct := (layoutEnv_slice false).direct
      others := (layoutEnv_slice false).others
      world := (layoutEnv_slice false).world }
  fromXdp := ⟨fun _ mem _ => .refl _ mem, fun _ _ _ => rfl⟩
  fromSkb := ⟨fun _ mem _ => .refl _ mem, fun _ _ _ => rfl⟩
  stubs := by
    have before := (layoutEnv_parse false).stubs
    refine ⟨fun flags r10 args mem world arg => ?_, fun flags args mem world => ?_⟩
    · have wrote := before.writes flags r10 args mem world arg
      by_cases isNh : ipv6Stub flags = .parseIpv6Nh
      · rw [isNh] at wrote ⊢
        have record : ∀ m v, Touches r10 [(.ipv6Eh, 1)] m
            (m.store (args.r1 + BitVec.ofNat 64 RuntimeField.ipv6Eh.offset) 1 v) := by
          intro m v
          rw [arg, ← ctxAddr_eq]
          exact .store .ipv6Eh 1 v
        exact (wrote.trans (record _ _)).mono (by decide)
      · simp only [recordEnv, isNh, if_false]
        exact wrote
    · by_cases isNh : ipv6Stub flags = .parseIpv6Nh
      · simp only [recordEnv, isNh, if_true]
        exact isNh ▸ before.world flags args mem world
      · simp only [recordEnv, isNh, if_false]
        exact before.world flags args mem world

theorem recordEnv_stubs : ParseStubs recordEnv (fun w => w) fun _ _ => true where
  computes :=
    { eh := bufferEnv_stubs.eh
      nh := by
        intro args mem world
        refine Prod.ext rfl ?_
        refine (Mem.load_store_disjoint _ _ (Mem.disjoint_offset _ _ _ _ _ (.inr (by decide))
          (by decide) (by decide)) (by decide)).trans ?_
        exact Mem.load_store_word _ _ _ }
  records args mem world := by
    refine (Mem.store_first _ _ _ (by decide) (by decide)).trans ?_
    rw [BitVec.setWidth_setWidth_of_le _ (by decide), BitVec.setWidth_eq]

/-- An IPv4 packet of a protocol, with its Ethernet header. -/
def protoPacket (proto : BitVec 8) : Packet := fun o =>
  if o = 12 then 8 else if o = 14 then 0x45 else if o = 23 then proto else 0

def tcProgram : BfProgram := bfProgramNew sampleHost tcChain sampleMaps

theorem arrival_aside (w : Packet) : Aside ((arrival w).regs 10) [] :=
  fun _ mem => (List.not_mem_nil mem).elim

/-- A packet whose head falls through comes to the matchers. -/
theorem atMatcher_of_falls {p : BfProgram} {w : Packet}
    (falls : fallsThrough (eval recordEnv 0 ((headSlots p).map (Emitted.link sampleMaps))
      (arrival w)) = true) : ∃ d, AtMatcher recordEnv sampleMaps p [] (arrival w) d := by
  obtain ⟨d, ran⟩ := runs_of_fallsThrough falls
  exact ⟨d, d, ran, .refl _ d⟩

/-- Slices are copied, so it does not matter what else the rules write. -/
theorem recordEnv_parseBy (others : List (Addr × Nat)) :
    ParseEnv recordEnv sampleHost (fun w => w) (fun _ _ _ _ => true) 8192 others where
  slice :=
    { recordEnv_parse.slice with
      direct := fun _ _ _ _ no => absurd no (by decide) }
  fromXdp := recordEnv_parse.fromXdp
  fromSkb := recordEnv_parse.fromSkb
  stubs := recordEnv_parse.stubs

theorem recordEnv_quiet : QuietCalls recordEnv where
  helpers := ⟨fun _ _ _ => ⟨rfl, rfl⟩, fun _ _ _ => ⟨rfl, rfl⟩⟩
  log _ _ _ := rfl
  updateCounters _ _ _ := rfl

/-- UDP is counted, IPv4 with TCP is accepted. -/
def countUdp : BfRule where
  matchers := [⟨.metaL4Proto, .eq, [17, 0]⟩]
  counters := true
  verdict := .continue

def acceptTcp : BfRule where
  matchers := [⟨.metaL3Proto, .eq, [0, 8]⟩, ⟨.metaL4Proto, .eq, [6, 0]⟩]
  verdict := .accept

def twoRuleProgram : BfProgram :=
  bfProgramNew sampleHost (bfChainNew "c" .tcIngress .accept [] [countUdp, acceptTcp]) sampleMaps

theorem stackBounded_of_none {es : List Emitted} (none : es.all (fun e => !e.isStx) = true) :
    StackBounded es := by
  intro e mem size code
  have plain := List.all_eq_true.mp none e mem
  rw [Emitted.isStx, code] at plain
  cases plain

theorem twoRule_bounded : ∀ rule ∈ [acceptTcp, countUdp], ∀ m ∈ rule.matchers,
    StackBounded (matcherSlots twoRuleProgram.host twoRuleProgram.chain m) := by
  intro rule inRules m inRule
  apply stackBounded_of_none
  revert rule m
  decide +kernel

/-- Code falls through, into a state that passes a test. -/
def fallsInto (test : Core W → Bool) : Eval W → Bool
  | .fall 0 c => test c
  | _ => false

theorem fallsInto_inv {W : Type} {test : Core W → Bool} {ran : Eval W}
    (falls : fallsInto test ran = true) : ∃ c, ran = .fall 0 c ∧ test c = true := by
  unfold fallsInto at falls
  split at falls
  · exact ⟨_, rfl, falls⟩
  · cases falls

/-- The code in front of the rules keeps the argument of the program. -/
theorem twoRule_head : ∃ e,
    Runs recordEnv ((headSlots twoRuleProgram).map (Emitted.link sampleMaps)) 0
      (arrival (protoPacket ipprotoTcp)) (.fall e) ∧
    e.regs 10 = 8192 ∧ e.mem.load (ctxAddr (e.regs 10) .arg) 8 = 0 := by
  obtain ⟨e, ran, checked⟩ := fallsInto_inv (by decide +kernel :
    fallsInto (fun e => decide (e.regs 10 = 8192 ∧ e.mem.load (ctxAddr (e.regs 10) .arg) 8 = 0))
      (eval recordEnv 0 ((headSlots twoRuleProgram).map (Emitted.link sampleMaps))
        (arrival (protoPacket ipprotoTcp))) = true)
  exact ⟨e, runs_of_eval (ran ▸ rfl), of_decide_eq_true checked⟩

theorem markRange_aside {r10 : BitVec 64} (frame : r10 = 8192) : Aside r10 [markRange 0] := by
  intro o mem
  have apart := Mem.disjoint_offset 0 8 4 7680 512 (.inl (by decide)) (by decide) (by decide)
  rw [List.mem_singleton.mp mem, frame]
  exact apart

/-- A matcher of the second rule, behind the first one. -/
theorem twoRule_atMatcher : ∃ d, AtMatcher recordEnv sampleMaps twoRuleProgram [markRange 0]
    (arrival (protoPacket ipprotoTcp)) d := by
  obtain ⟨e, ran, frame, arg⟩ := twoRule_head
  have passes : ∃ effects d, passRules recordEnv sampleMaps (matcherOutcome recordEnv sampleMaps
      twoRuleProgram.host twoRuleProgram.chain) [countUdp] e = some (effects, d) := by
    unfold passRules
    cases matchAll (matcherOutcome recordEnv sampleMaps twoRuleProgram.host twoRuleProgram.chain)
        countUdp.matchers e with
    | no d => exact ⟨_, _, rfl⟩
    | yes d => exact ⟨_, _, rfl⟩
  obtain ⟨effects, d, passed⟩ := passes
  have behind : ∀ m ∈ [⟨.metaL3Proto, .eq, [0, 8]⟩], m ∈ acceptTcp.matchers := by decide
  refine ⟨_, atMatcher_of_rules recordEnv_quiet twoRule_bounded ran ?_ ?_ passed behind⟩
  · exact markRange_aside frame
  · rw [arg]
    exact List.mem_cons_self

/-- The protocol matchers on a TCP packet. -/
theorem tcpPacket_exact : ∃ d,
    AtMatcher recordEnv sampleMaps twoRuleProgram [markRange 0] (arrival (protoPacket ipprotoTcp)) d ∧
      ProtoExact recordEnv sampleMaps twoRuleProgram (protoPacket ipprotoTcp)
        ((protoPacket ipprotoTcp).slice fun _ => true) ethPIp ipprotoTcp [0] d := by
  obtain ⟨d, here⟩ := twoRule_atMatcher
  have upper : ethertype (protoPacket ipprotoTcp) = ethPIp ∧
      protoPacket ipprotoTcp (14 + 9) = ipprotoTcp := ⟨by decide, by decide⟩
  refine ⟨d, here, (protoMatchers_exact_iff rfl (recordEnv_parseBy _) recordEnv_stubs
    (markRange_aside rfl) here ethPIp ipprotoTcp [0]).2.mpr ⟨.inl (.inl upper.1), ?_⟩⟩
  exact .found ⟨by decide, .inl upper⟩ (.inl upper)

/-- `meta.l4_proto eq 89` does not see an OSPF packet, `ip4.proto eq 89` does. -/
theorem ospfPacket_not_exact :
    bfParseL4Proto none 89 [] = .ok [89] ∧ tcProgram.flavor.parsesL2 = true ∧
    ParseEnv recordEnv sampleHost (fun w => w) (fun _ _ _ _ => true) 8192 [] ∧
    ParseStubs recordEnv (fun w => w) (fun _ _ => true) ∧
    ∃ d, AtMatcher recordEnv sampleMaps tcProgram [] (arrival (protoPacket 89)) d ∧
      UpperLayer (protoPacket 89) ((protoPacket 89).slice fun _ => true) 89 ∧
      ¬ Continues recordEnv sampleMaps
        (matcherSlots sampleHost tcChain ⟨.metaL4Proto, .eq, [89, 0]⟩) d ∧
      Continues recordEnv sampleMaps (matcherSlots sampleHost tcChain ⟨.ip4Proto, .eq, [89]⟩) d ∧
      ¬ ProtoExact recordEnv sampleMaps tcProgram (protoPacket 89)
        ((protoPacket 89).slice fun _ => true) ethPIp 89 [0] d := by
  obtain ⟨d, here⟩ := @atMatcher_of_falls tcProgram (protoPacket 89) (by decide +kernel)
  obtain ⟨r7, known, isEther⟩ := here.known recordEnv_parse recordEnv_stubs (arrival_aside _)
  obtain rfl : r7 = etherReg (protoPacket 89) := isEther rfl
  have seven : d.regs 7 = ipv4Reg := known.l3.trans (by decide)
  have eight : d.regs 8 = (0 : BitVec 8).setWidth 64 := known.l4.trans (by decide)
  have field : (ip4Packet d).protocol = 89 := by
    rw [here.ip4_protocol recordEnv_parse (arrival_aside _) seven, known.start]
    rfl
  have blind : ¬ Continues recordEnv sampleMaps
      (matcherSlots sampleHost tcChain ⟨.metaL4Proto, .eq, [89, 0]⟩) d := by
    rw [metaL4Proto_decides .eq 89 [0] d eight]
    decide
  have sees : Continues recordEnv sampleMaps
      (matcherSlots sampleHost tcChain ⟨.ip4Proto, .eq, [89]⟩) d := by
    rw [ip4Proto_decides .eq 89 seven, field]
    decide
  refine ⟨rfl, rfl, recordEnv_parse, recordEnv_stubs, d, here, .inl ⟨by decide, by decide⟩, blind,
    sees, fun exact' => ?_⟩
  exact blind ((exact'.agree (by decide) .eq (.inl rfl)).mpr sees)

end Samples

end Bpfilter
