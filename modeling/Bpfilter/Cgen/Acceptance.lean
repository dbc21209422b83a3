/-
# Cgen.Acceptance -- which chains have a program

Generators fail for what they do not support, and in builds with assertions they abort where a
field that is filled is not blank or a jump is too long.  `Total` and `Fails` say of a generator
that it always succeeds or always fails, and `Determined` that one of the two holds, by a condition
on its arguments.  `BfMatcher.generable` is this condition for a matcher
(`bfMatcherGenerate_decided`).

A fixup pass succeeds when all fixups of its type are ready (`bfProgramFixup_ready`).  Everything
that is emitted leaves the fields of its fixups blank (`Life.blank`), so that only the length of
a rule remains: `bfProgramGenerate_ok_iff` and `bfProgramLoadFixups_ok_iff` say exactly which
chains are generated and loaded.
-/
import Mathlib.Algebra.Order.BigOperators.Group.List
import Bpfilter.Cgen.Fixups
import Bpfilter.Cgen.JumpOffsets

namespace Bpfilter

set_option autoImplicit false

open Ebpf

/-! ## Generators that succeed -/

section Outcomes

variable {α β : Type} {host : Host} {chain : BfChain}

/-- The generator succeeds, and keeps what other generators rely on. -/
def Total (host : Host) (chain : BfChain) (gen : Gen α) : Prop :=
  ∀ p, p.Tracked → p.host = host → p.chain = chain →
    ∃ a q, gen p = .ok (a, q) ∧ q.Tracked ∧ q.host = host ∧ q.chain = chain

/-- The generator fails. -/
def Fails (host : Host) (chain : BfChain) (gen : Gen α) : Prop :=
  ∀ p, p.Tracked → p.host = host → p.chain = chain → ∃ e, gen p = .error e

/-- The generator succeeds exactly under a condition. -/
structure Determined (host : Host) (chain : BfChain) (gen : Gen α) (ok : Prop) : Prop where
  total : ok → Total host chain gen
  fails : ¬ ok → Fails host chain gen

theorem Total.pure (a : α) : Total host chain (pure a : Gen α) := by
  intro p tracked hosted chained
  exact ⟨a, p, rfl, tracked, hosted, chained⟩

theorem Total.bind {x : Gen α} {f : α → Gen β} (first : Total host chain x)
    (rest : ∀ a, Total host chain (f a)) : Total host chain (x >>= f) := by
  intro p tracked hosted chained
  obtain ⟨a, q, ran, tracked, hosted, chained⟩ := first p tracked hosted chained
  rw [gen_bind_ok ran]
  exact rest a q tracked hosted chained

theorem Total.get_bind {f : BfProgram → Gen β}
    (rest : ∀ p, p.host = host → p.chain = chain → Total host chain (f p)) :
    Total host chain (do
      let p ← get
      f p) := by
  intro p tracked hosted chained
  rw [gen_bind_ok (gen_get p)]
  exact rest p hosted chained p tracked hosted chained

theorem Total.appends {gen : Gen Unit} {es : List Emitted}
    (eq : ∀ p, gen p = .ok ((), p.append es)) : Total host chain gen := by
  intro p tracked hosted chained
  exact ⟨(), _, eq p, tracked.append es, hosted, chained⟩

theorem Total.emit (insn : BpfInsn) : Total host chain (emit insn) := .appends (emit_eq insn)

theorem Total.emitFixup (kind : BfFixupKind) (insn : BpfInsn) :
    Total host chain (emitFixup kind insn) :=
  .appends (emitFixup_eq kind insn)

theorem Total.loadFd (kind : BfFixupKind) (reg : Reg) :
    Total host chain (emitLoadFdFixup kind reg) :=
  .appends (emitLoadFdFixup_eq kind reg)

theorem Total.emit_bind {f : Unit → Gen β} (insn : BpfInsn) (rest : Total host chain (f ())) :
    Total host chain (Bpfilter.emit insn >>= f) :=
  .bind (.emit insn) fun _ => rest

theorem Total.jmpctxGet (insn : BpfInsn) : Total host chain (bfJmpctxGet insn) := by
  intro p tracked hosted chained
  exact ⟨_, _, bfJmpctxGet_eq insn p, tracked.append _, hosted, chained⟩

theorem Total.jmpctxCleanup (ctx : BfJmpctx) : Total host chain (bfJmpctxCleanup ctx) := by
  intro p tracked hosted chained
  refine ⟨(), _, rfl, ?_, hosted, chained⟩
  unfold BfProgram.Tracked at tracked ⊢
  simp only [List.length_set, List.length_modify, tracked]

theorem Total.emitAll (insns : List BpfInsn) : Total host chain (emitAll insns) := by
  induction insns with
  | nil => exact .pure ()
  | cons insn rest ih => exact .emit_bind insn ih

theorem Total.cleanupAll (ctxs : List BfJmpctx) : Total host chain (cleanupAll ctxs) := by
  induction ctxs with
  | nil => exact .pure ()
  | cons ctx rest ih => exact .bind (.jmpctxCleanup ctx) fun _ => ih

theorem Total.swichCompare (reg : Reg) (options : List BfSwichOption) :
    Total host chain (swichCompare reg options) := by
  induction options with
  | nil => exact .pure []
  | cons option rest ih =>
      apply Total.bind (.jmpctxGet _)
      exact fun _ => .bind ih fun _ => .pure _

theorem Total.swichBodies (options : List (BfSwichOption × BfJmpctx)) :
    Total host chain (swichBodies options) := by
  induction options with
  | nil => exact .pure []
  | cons option rest ih =>
      apply Total.bind (.jmpctxCleanup _)
      intro _
      apply Total.bind (.emitAll _)
      intro _
      apply Total.bind (.jmpctxGet _)
      exact fun _ => .bind ih fun _ => .pure _

theorem Total.swich (swich : BfSwich) : Total host chain (bfSwichGenerate swich) := by
  unfold bfSwichGenerate
  apply Total.bind (.swichCompare _ _)
  intro jmps
  cases swich.defaultOpt with
  | none => exact .bind (.swichBodies _) fun _ => .cleanupAll _
  | some insns =>
      apply Total.bind (.jmpctxGet _)
      intro _
      apply Total.bind (.swichBodies _)
      intro _
      apply Total.bind (.jmpctxCleanup _)
      intro _
      exact .bind (.emitAll _) fun _ => .cleanupAll _

theorem Fails.throw (e : GenErr) : Fails host chain (throw e : Gen α) :=
  fun _ _ _ _ => ⟨e, rfl⟩

theorem Fails.bind {x : Gen α} (f : α → Gen β) (first : Fails host chain x) :
    Fails host chain (x >>= f) := by
  intro p tracked hosted chained
  obtain ⟨e, failed⟩ := first p tracked hosted chained
  exact ⟨e, by rw [gen_bind, failed]⟩

theorem Total.bind_fails {x : Gen α} {f : α → Gen β} (first : Total host chain x)
    (rest : ∀ a, Fails host chain (f a)) : Fails host chain (x >>= f) := by
  intro p tracked hosted chained
  obtain ⟨a, q, ran, tracked, hosted, chained⟩ := first p tracked hosted chained
  rw [gen_bind_ok ran]
  exact rest a q tracked hosted chained

variable {ok : Prop}

theorem Total.decided {gen : Gen α} (total : Total host chain gen) (holds : ok) :
    Determined host chain gen ok :=
  ⟨fun _ => total, fun not => absurd holds not⟩

theorem Fails.decided {gen : Gen α} (fails : Fails host chain gen) (not : ¬ ok) :
    Determined host chain gen ok :=
  ⟨fun holds => absurd holds not, fun _ => fails⟩

theorem Determined.throw {e : GenErr} (not : ¬ ok) : Determined host chain (throw e : Gen α) ok :=
  (Fails.throw e).decided not

theorem Determined.of_iff {gen : Gen α} {ok' : Prop} (decided : Determined host chain gen ok)
    (same : ok ↔ ok') : Determined host chain gen ok' :=
  ⟨fun holds => decided.total (same.mpr holds), fun not => decided.fails (mt same.mp not)⟩

theorem Total.bind_decided {x : Gen α} {f : α → Gen β} (first : Total host chain x)
    (rest : ∀ a, Determined host chain (f a) ok) : Determined host chain (x >>= f) ok :=
  ⟨fun holds => first.bind fun a => (rest a).total holds,
    fun not => first.bind_fails fun a => (rest a).fails not⟩

theorem Determined.emit {f : Unit → Gen β} (insn : BpfInsn) (rest : Determined host chain (f ()) ok) :
    Determined host chain (Bpfilter.emit insn >>= f) ok :=
  (Total.emit insn).bind_decided fun _ => rest

theorem Determined.next {f : Unit → Gen β} (insn : BpfInsn) (rest : Determined host chain (f ()) ok) :
    Determined host chain (emitFixupJmpNextRule insn >>= f) ok :=
  (Total.emitFixup _ insn).bind_decided fun _ => rest

theorem Determined.bind {x : Gen α} {f : α → Gen β} {ok' : Prop} (first : Determined host chain x ok)
    (rest : ∀ a, Determined host chain (f a) ok') : Determined host chain (x >>= f) (ok ∧ ok') := by
  refine ⟨fun both => (first.total both.1).bind fun a => (rest a).total both.2, fun not => ?_⟩
  by_cases holds : ok
  · exact (first.total holds).bind_fails fun a => (rest a).fails fun holds' => not ⟨holds, holds'⟩
  · exact .bind f (first.fails holds)

theorem Determined.get_bind {f : BfProgram → Gen β}
    (rest : ∀ p, p.host = host → p.chain = chain → Determined host chain (f p) ok) :
    Determined host chain (do
      let p ← get
      f p) ok := by
  constructor
  · intro holds
    exact .get_bind fun p hosted chained => (rest p hosted chained).total holds
  · intro not p tracked hosted chained
    rw [gen_bind_ok (gen_get p)]
    exact (rest p hosted chained).fails not p tracked hosted chained

/-- A decided generator succeeds exactly under its condition. -/
theorem Determined.iff {gen : Gen α} (decided : Determined host chain gen ok) {p : BfProgram}
    (tracked : p.Tracked) (hosted : p.host = host) (chained : p.chain = chain) :
    (∃ a q, gen p = .ok (a, q)) ↔ ok := by
  constructor
  · rintro ⟨a, q, ran⟩
    by_contra not
    obtain ⟨e, failed⟩ := decided.fails not p tracked hosted chained
    rw [ran] at failed
    cases failed
  · intro holds
    obtain ⟨a, q, ran, -⟩ := decided.total holds p tracked hosted chained
    exact ⟨a, q, ran⟩

end Outcomes

/-! ## Kernel lookups -/

/-- The daemon's build has the stubs, and the kernel knows what the generators look up. -/
structure Host.Complete (host : Host) : Prop where
  field : ∀ field, ∃ off, host.btfGetFieldOff field = .ok off
  kfunc : ∀ name, ∃ id, host.btfGetId name = .ok id
  stubs : ∀ id, ∃ stub, host.getElfstub id = some stub

section Matchers

variable {host : Host} {chain : BfChain} {m : BfMatcher}

theorem Total.fieldOff (complete : host.Complete) (field : BtfField) :
    Total host chain (btfGetFieldOff field) := by
  apply Total.get_bind
  intro p hosted _
  obtain ⟨off, known⟩ := complete.field field
  rw [hosted, known]
  exact .pure off

theorem Total.kfunc (complete : host.Complete) (name : BtfKfunc) :
    Total host chain (emitKfuncCall name) := by
  apply Total.get_bind
  intro p hosted _
  obtain ⟨id, known⟩ := complete.kfunc name
  rw [hosted, known]
  exact .emit _

/-! ## Matchers -/

/-- The operators of `_bf_matcher_generate_*_port`. -/
def BfMatcherOp.onPorts : BfMatcherOp → Bool
  | .eq => true
  | .ne => true
  | .range => true
  | _ => false

def BfMatcherOp.onFields : BfMatcherOp → Bool
  | .eq => true
  | .ne => true
  | _ => false

def BfMatcherOp.onFlags : BfMatcherOp → Bool
  | .eq => true
  | .ne => true
  | .any => true
  | .all => true
  | _ => false

/-- The field is in a header the generators can load. -/
def BfMatcherType.inHeader (type : BfMatcherType) : Bool :=
  match bfMatcherGetMeta type with
  | none => false
  | some info => info.layer == .layer3 || info.layer == .layer4

/-- The sets whose lookup is generated. -/
def BfSet.generable (set : BfSet) : Bool :=
  if set.useTrie then
    match set.key with
    | [] => false
    | type :: _ => type.isNet
  else set.key.all BfMatcherType.inHeader

/-- The matchers that are generated in the programs of a chain. -/
def BfMatcher.generable (chain : BfChain) (m : BfMatcher) : Bool :=
  match m.type with
  | .ip4Snet | .ip4Dnet => decide ((m.payloadU32 0).toNat ≤ 32)
  | .ip6Snet | .ip6Dnet => decide ((m.payloadU32 0).toNat ≤ 128)
  | .tcpSport | .tcpDport | .udpSport | .udpDport | .metaSport | .metaDport => m.op.onPorts
  | .tcpFlags => m.op.onFlags
  | .ip6Nexthdr | .icmpType | .icmpCode | .icmpv6Type | .icmpv6Code => m.op.onFields
  | .metaMark => bfHookToFlavor chain.hook != .xdp && m.op.onFields
  | .set =>
      match bfChainGetSetForMatcher chain m with
      | none => false
      | some set => set.generable
  | _ => true

theorem emitPortCompare_decided :
    Determined host chain (emitPortCompare m) (m.op.onPorts = true) := by
  unfold emitPortCompare
  cases m.op with
  | eq => exact (Total.emitFixup _ _).decided rfl
  | ne => exact (Total.emitFixup _ _).decided rfl
  | range => exact .emit _ (.next _ ((Total.emitFixup _ _).decided rfl))
  | any => exact .throw (by decide)
  | all => exact .throw (by decide)
  | inSet => exact .throw (by decide)

theorem bfMatcherGenerateTcpFlags_decided :
    Determined host chain (bfMatcherGenerateTcpFlags m) (m.op.onFlags = true) := by
  unfold bfMatcherGenerateTcpFlags
  apply Determined.emit
  cases m.op with
  | eq => exact (Total.emitFixup _ _).decided rfl
  | ne => exact (Total.emitFixup _ _).decided rfl
  | any => exact .emit _ ((Total.emitFixup _ _).decided rfl)
  | all => exact .emit _ ((Total.emitFixup _ _).decided rfl)
  | range => exact .throw (by decide)
  | inSet => exact .throw (by decide)

theorem bfMatcherGenerateIcmpFields_decided (proto : BitVec 8) (offset : BitVec 16) :
    Determined host chain (bfMatcherGenerateIcmpFields m proto offset) (m.op.onFields = true) := by
  unfold bfMatcherGenerateIcmpFields
  refine .next _ (.emit _ (.emit _ ?_))
  cases m.op with
  | eq => exact (Total.emitFixup _ _).decided rfl
  | ne => exact (Total.emitFixup _ _).decided rfl
  | range => exact .throw (by decide)
  | any => exact .throw (by decide)
  | all => exact .throw (by decide)
  | inSet => exact .throw (by decide)

theorem bfMatcherGenerateIp4Net_decided :
    Determined host chain (bfMatcherGenerateIp4Net m) ((m.payloadU32 0).toNat ≤ 32) := by
  unfold bfMatcherGenerateIp4Net bfPrefixToMask
  split
  · next long => exact .throw (by split at long <;> simp_all)
  · next mask known =>
      have fits : (m.payloadU32 0).toNat ≤ 32 := by
        by_contra long
        rw [if_pos (by omega)] at known
        cases known
      refine Total.decided ?_ fits
      refine .emit_bind _ (.emit_bind _ ?_)
      dsimp only
      split
      · exact .emit_bind _ (.emit_bind _ (.emit_bind _ (.emitFixup _ _)))
      · exact .emitFixup _ _

theorem bfMatcherGenerateIp4_decided (type : m.type = .ip4Saddr ∨ m.type = .ip4Daddr ∨
      m.type = .ip4Proto ∨ m.type = .ip4Snet ∨ m.type = .ip4Dnet) :
    Determined host chain (bfMatcherGenerateIp4 m) (m.generable chain = true) := by
  have addr : Total host chain (bfMatcherGenerateIp4Addr m) :=
    .emit_bind _ (.emit_bind _ (.emitFixup _ _))
  have proto : Total host chain (bfMatcherGenerateIp4Proto m) := .emit_bind _ (.emitFixup _ _)
  unfold bfMatcherGenerateIp4 BfMatcher.generable
  refine .next _ (.emit _ ?_)
  rcases type with is | is | is | is | is <;> rw [is]
  · exact addr.decided rfl
  · exact addr.decided rfl
  · exact proto.decided rfl
  · exact bfMatcherGenerateIp4Net_decided.of_iff decide_eq_true_iff.symm
  · exact bfMatcherGenerateIp4Net_decided.of_iff decide_eq_true_iff.symm

theorem Total.addrHalf (addr : List Byte) (i : Nat) : Total host chain (emitAddrHalf addr i) :=
  .emit_bind _ (.emit_bind _ (.emit_bind _ (.emit _)))

theorem Total.addrCompare (op : BfMatcherOp) (addr : List Byte) :
    Total host chain (emitAddrCompare op addr) := by
  unfold emitAddrCompare
  split
  · apply Total.bind (.addrHalf _ _)
    intro _
    apply Total.bind (.emitFixup _ _)
    intro _
    exact .bind (.addrHalf _ _) fun _ => .emitFixup _ _
  · apply Total.bind (.addrHalf _ _)
    intro _
    apply Total.bind (.jmpctxGet _)
    intro _
    apply Total.bind (.addrHalf _ _)
    intro _
    apply Total.bind (.jmpctxGet _)
    intro _
    apply Total.bind (.emitFixup _ _)
    intro _
    exact .bind (.jmpctxCleanup _) fun _ => .jmpctxCleanup _

theorem bfMatcherGenerateIp6Net_decided :
    Determined host chain (bfMatcherGenerateIp6Net m) ((m.payloadU32 0).toNat ≤ 128) := by
  unfold bfMatcherGenerateIp6Net bfPrefixToMask
  refine .emit _ (.emit _ ?_)
  split
  · next long => exact .throw (by split at long <;> simp_all)
  · next mask known =>
      have fits : (m.payloadU32 0).toNat ≤ 128 := by
        by_contra long
        rw [if_pos (by omega)] at known
        cases known
      refine Total.decided ?_ fits
      dsimp only
      split
      · apply Total.bind (.addrHalf _ _)
        intro _
        refine .emit_bind _ ?_
        apply Total.bind (.addrHalf _ _)
        intro _
        exact .emit_bind _ (.addrCompare _ _)
      · exact .addrCompare _ _

theorem bfMatcherGenerateIp6Nexthdr_decided :
    Determined host chain (bfMatcherGenerateIp6Nexthdr m) (m.op.onFields = true) := by
  have same : ¬ (m.op ≠ .eq ∧ m.op ≠ .ne) ↔ m.op.onFields = true := by
    cases m.op <;> decide
  unfold bfMatcherGenerateIp6Nexthdr
  dsimp only
  split
  · next other => exact (Fails.bind _ (.throw _)).decided fun on => same.mpr on other
  · next on =>
      refine Total.decided ?_ (same.mp on)
      split
      · exact .emit_bind _ (.emit_bind _ (.emitFixup _ _))
      · exact .emitFixup _ _

theorem bfMatcherGenerateIp6_decided (type : m.type = .ip6Saddr ∨ m.type = .ip6Daddr ∨
      m.type = .ip6Snet ∨ m.type = .ip6Dnet ∨ m.type = .ip6Nexthdr) :
    Determined host chain (bfMatcherGenerateIp6 m) (m.generable chain = true) := by
  have addr : Total host chain (bfMatcherGenerateIp6Addr m) :=
    .emit_bind _ (.emit_bind _ (.addrCompare _ _))
  unfold bfMatcherGenerateIp6 BfMatcher.generable
  refine .next _ (.emit _ ?_)
  rcases type with is | is | is | is | is <;> rw [is]
  · exact addr.decided rfl
  · exact addr.decided rfl
  · exact bfMatcherGenerateIp6Net_decided.of_iff decide_eq_true_iff.symm
  · exact bfMatcherGenerateIp6Net_decided.of_iff decide_eq_true_iff.symm
  · exact bfMatcherGenerateIp6Nexthdr_decided

theorem bfMatcherGenerateTcp_decided
    (type : m.type = .tcpSport ∨ m.type = .tcpDport ∨ m.type = .tcpFlags) :
    Determined host chain (bfMatcherGenerateTcp m) (m.generable chain = true) := by
  unfold bfMatcherGenerateTcp BfMatcher.generable
  refine .next _ (.emit _ ?_)
  rcases type with is | is | is <;> rw [is]
  · exact .emit _ emitPortCompare_decided
  · exact .emit _ emitPortCompare_decided
  · exact bfMatcherGenerateTcpFlags_decided

theorem bfMatcherGenerateUdp_decided (type : m.type = .udpSport ∨ m.type = .udpDport) :
    Determined host chain (bfMatcherGenerateUdp m) (m.generable chain = true) := by
  unfold bfMatcherGenerateUdp BfMatcher.generable
  refine .next _ (.emit _ ?_)
  rcases type with is | is <;> rw [is]
  · exact .emit _ emitPortCompare_decided
  · exact .emit _ emitPortCompare_decided

theorem bfMatcherGenerateIcmp_decided (type : m.type = .icmpType ∨ m.type = .icmpCode ∨
      m.type = .icmpv6Type ∨ m.type = .icmpv6Code) :
    Determined host chain (bfMatcherGenerateIcmp m) (m.generable chain = true) := by
  unfold bfMatcherGenerateIcmp BfMatcher.generable
  rcases type with is | is | is | is <;> rw [is] <;>
    exact bfMatcherGenerateIcmpFields_decided _ _

theorem bfMatcherGenerateMetaPort_decided :
    Determined host chain (bfMatcherGenerateMetaPort m) (m.op.onPorts = true) := by
  unfold bfMatcherGenerateMetaPort
  apply Determined.emit
  apply Total.bind_decided (.swich _)
  exact fun _ => .next _ emitPortCompare_decided

/-- The callbacks that read the mark of a packet. -/
theorem genInlineGetMark_total (complete : host.Complete) (flavor : BfFlavor)
    {getMark : Reg → Gen Unit} (has : (bfFlavorOpsGet flavor).genInlineGetMark = some getMark)
    (reg : Reg) : Total host chain (getMark reg) := by
  cases flavor with
  | nf =>
      cases has
      refine .emit_bind _ ?_
      apply Total.bind (.fieldOff complete _)
      intro skb
      refine .emit_bind _ ?_
      apply Total.bind (.fieldOff complete _)
      exact fun mark => .emit _
  | tc =>
      cases has
      exact .emit_bind _ (.emit _)
  | xdp => cases has
  | cgroup =>
      cases has
      exact .emit_bind _ (.emit _)

theorem bfMatcherGenerateMetaMark_decided (complete : host.Complete) :
    Determined host chain (bfMatcherGenerateMetaMark m)
      (bfHookToFlavor chain.hook ≠ .xdp ∧ m.op.onFields = true) := by
  apply Determined.get_bind
  intro p _ chained
  have flavored : p.flavor = bfHookToFlavor chain.hook := by rw [BfProgram.flavor, chained]
  rw [flavored]
  split
  · next missing =>
      refine .throw fun both => both.1 ?_
      revert missing
      cases bfHookToFlavor chain.hook <;> simp [bfFlavorOpsGet]
  · next getMark has =>
      have other : bfHookToFlavor chain.hook ≠ .xdp := by
        intro xdp
        rw [xdp] at has
        cases has
      refine Determined.of_iff (Total.bind_decided (genInlineGetMark_total complete _ has 1)
        fun _ => ?_) (and_iff_right other).symm
      cases m.op with
      | eq => exact (Total.emitFixup _ _).decided rfl
      | ne => exact (Total.emitFixup _ _).decided rfl
      | range => exact .throw (by decide)
      | any => exact .throw (by decide)
      | all => exact .throw (by decide)
      | inSet => exact .throw (by decide)

theorem bfMatcherGenerateMeta_decided (complete : host.Complete)
    (type : m.type = .metaIface ∨ m.type = .metaL3Proto ∨ m.type = .metaL4Proto ∨
      m.type = .metaProbability ∨ m.type = .metaSport ∨ m.type = .metaDport ∨
      m.type = .metaMark) :
    Determined host chain (bfMatcherGenerateMeta m) (m.generable chain = true) := by
  unfold bfMatcherGenerateMeta BfMatcher.generable
  rcases type with is | is | is | is | is | is | is <;> rw [is]
  · exact .emit _ ((Total.emitFixup _ _).decided rfl)
  · exact (Total.emitFixup _ _).decided rfl
  · exact (Total.emitFixup _ _).decided rfl
  · exact .emit _ ((Total.emitFixup _ _).decided rfl)
  · exact bfMatcherGenerateMetaPort_decided
  · exact bfMatcherGenerateMetaPort_decided
  · refine (bfMatcherGenerateMetaMark_decided complete).of_iff ?_
    rw [Bool.and_eq_true, bne_iff_ne]

/-! ## Sets -/

theorem bfStubRuleCheckProtocol_decided (info : BfMatcherMeta) :
    Determined host chain (bfStubRuleCheckProtocol info)
      ((info.layer == .layer3 || info.layer == .layer4) = true) := by
  unfold bfStubRuleCheckProtocol
  cases info.layer with
  | layer3 => exact (Total.emitFixup _ _).decided rfl
  | layer4 => exact (Total.emitFixup _ _).decided rfl
  | _ => exact .throw (by decide)

theorem bfStubLoadHeader_decided (info : BfMatcherMeta) (reg : Reg) :
    Determined host chain (bfStubLoadHeader info reg)
      ((info.layer == .layer3 || info.layer == .layer4) = true) := by
  unfold bfStubLoadHeader
  cases info.layer with
  | layer3 => exact (Total.emit _).decided rfl
  | layer4 => exact (Total.emit _).decided rfl
  | _ => exact .throw (by decide)

theorem Total.stxPayload (hdrOffset offset src remaining : Nat) :
    Total host chain (stxPayloadLoop hdrOffset offset src remaining) := by
  induction src, remaining using stxPayloadLoop.induct offset with
  | case1 src =>
      unfold stxPayloadLoop
      exact .pure ()
  | case2 src remaining some ih =>
      unfold stxPayloadLoop
      rw [if_neg some]
      exact .emit_bind _ (.emit_bind _ ih)

theorem Total.setLookup (index keyOff : Nat) : Total host chain (emitSetLookup index keyOff) := by
  apply Total.bind (.loadFd _ _)
  intro _
  exact .emit_bind _ (.emit_bind _ (.emit_bind _ (.emitFixup _ _)))

theorem setCheckProtocols_decided (key : List BfMatcherType) :
    Determined host chain (setCheckProtocols key) (key.all BfMatcherType.inHeader = true) := by
  induction key with
  | nil => exact (Total.pure ()).decided rfl
  | cons type key ih =>
      unfold setCheckProtocols
      rw [List.all_cons, Bool.and_eq_true, BfMatcherType.inHeader]
      cases bfMatcherGetMeta type with
      | none => exact (Fails.bind _ (.throw _)).decided (by simp)
      | some info => exact (bfStubRuleCheckProtocol_decided info).bind fun _ => ih

theorem setBuildKey_total (key : List BfMatcherType) (offset : Nat)
    (inHeader : key.all BfMatcherType.inHeader = true) :
    Total host chain (setBuildKey offset key) := by
  induction key generalizing offset with
  | nil => exact .pure ()
  | cons type key ih =>
      rw [List.all_cons, Bool.and_eq_true, BfMatcherType.inHeader] at inHeader
      obtain ⟨here, later⟩ := inHeader
      unfold setBuildKey
      cases known : bfMatcherGetMeta type with
      | none =>
          rw [known] at here
          cases here
      | some info =>
          rw [known] at here
          apply Total.bind ((bfStubLoadHeader_decided info 6).total here)
          intro _
          apply Total.bind (.stxPayload _ _ _ _)
          exact fun _ => ih _ later

theorem bfMatcherGenerateSetTrie_decided (index : Nat) (type : BfMatcherType) :
    Determined host chain (bfMatcherGenerateSetTrie index type) (type.isNet = true) := by
  unfold bfMatcherGenerateSetTrie
  cases known : bfMatcherGetMeta type with
  | none =>
      refine .throw ?_
      cases type <;> first
        | exact Bool.false_ne_true
        | cases known
  | some info =>
      dsimp only
      by_cases layer : (info.layer == .layer3 || info.layer == .layer4) = true
      · apply Total.bind_decided ((bfStubRuleCheckProtocol_decided info).total layer)
        intro _
        apply Total.bind_decided ((bfStubLoadHeader_decided info 6).total layer)
        intro _
        cases type with
        | ip4Snet | ip4Dnet =>
            refine Total.decided ?_ rfl
            exact .emit_bind _ (.emit_bind _ (.emit_bind _ (.emit_bind _ (.setLookup _ _))))
        | ip6Snet | ip6Dnet =>
            refine Total.decided ?_ rfl
            exact .emit_bind _ (.emit_bind _ (.emit_bind _ (.emit_bind _ (.emit_bind _
              (.emit_bind _ (.setLookup _ _))))))
        | _ => exact Fails.decided (.bind _ (.throw _)) (by decide)
      · refine Fails.decided (.bind _ ((bfStubRuleCheckProtocol_decided info).fails layer)) ?_
        cases type <;> first
          | exact Bool.false_ne_true
          | cases known
            exact absurd rfl layer

theorem bfMatcherGenerateSet_decided (isSet : m.type = .set) :
    Determined host chain (bfMatcherGenerateSet m) (m.generable chain = true) := by
  unfold BfMatcher.generable
  rw [isSet]
  apply Determined.get_bind
  intro p _ chained
  rw [chained]
  cases bfChainGetSetForMatcher chain m with
  | none => exact .throw Bool.false_ne_true
  | some set =>
      simp only [BfSet.generable]
      split
      · cases set.key with
        | nil => exact .throw Bool.false_ne_true
        | cons type key => exact bfMatcherGenerateSetTrie_decided _ type
      · refine ⟨fun all => ?_, fun not => .bind _ ((setCheckProtocols_decided _).fails not)⟩
        apply Total.bind ((setCheckProtocols_decided _).total all)
        intro _
        exact .bind (setBuildKey_total _ 0 all) fun _ => .setLookup _ _

/-- **Matchers.**  A matcher is generated exactly when the chain's programs support it. -/
theorem bfMatcherGenerate_decided (complete : host.Complete) (m : BfMatcher) :
    Determined host chain (bfMatcherGenerate m) (m.generable chain = true) := by
  unfold bfMatcherGenerate
  cases type : m.type with
  | metaIface | metaL3Proto | metaL4Proto | metaProbability | metaSport | metaDport | metaMark =>
      exact bfMatcherGenerateMeta_decided complete (by simp [type])
  | ip4Saddr | ip4Snet | ip4Daddr | ip4Dnet | ip4Proto =>
      exact bfMatcherGenerateIp4_decided (by simp [type])
  | ip6Saddr | ip6Snet | ip6Daddr | ip6Dnet | ip6Nexthdr =>
      exact bfMatcherGenerateIp6_decided (by simp [type])
  | tcpSport | tcpDport | tcpFlags => exact bfMatcherGenerateTcp_decided (by simp [type])
  | udpSport | udpDport => exact bfMatcherGenerateUdp_decided (by simp [type])
  | icmpType | icmpCode | icmpv6Type | icmpv6Code =>
      exact bfMatcherGenerateIcmp_decided (by simp [type])
  | set => exact bfMatcherGenerateSet_decided type

end Matchers

/-! ## Passes that succeed -/

/-- A fixup whose value is known, and that passes the assertions. -/
def Ready (p : BfProgram) (f : BfFixup) : Prop :=
  ∃ insn field value patched, p.img[f.insn]? = some insn ∧
    bfProgramFixupValue p f = .ok (field, value) ∧
    bfProgramFixupInsn p.host.ndebug insn field value = .ok patched

theorem Ready.same {p q : BfProgram} {f : BfFixup} (ready : Ready p f) (same : SameSpace p q)
    (here : q.img[f.insn]? = p.img[f.insn]?) : Ready q f := by
  obtain ⟨insn, field, value, patched, at_, known, passes⟩ := ready
  obtain ⟨hosted, maps, locations, length⟩ := same
  refine ⟨insn, field, value, patched, here.trans at_, ?_, by rw [hosted, passes]⟩
  rw [← known]
  simp only [bfProgramFixupValue, maps, locations, length]

theorem bfProgramFixupOne_ready (type : BfFixupType) {p : BfProgram} {f : BfFixup}
    (ready : f.kind.type = type → Ready p f) :
    ∃ q, bfProgramFixupOne type p f = .ok q ∧ SameSpace p q ∧
      ∀ k, (f.kind.type = type → f.insn ≠ k) → q.img[k]? = p.img[k]? := by
  unfold bfProgramFixupOne
  split
  · next typed =>
      obtain ⟨insn, field, value, patched, at_, known, passes⟩ := ready typed
      simp only [at_, known, passes]
      refine ⟨_, rfl, ⟨rfl, rfl, rfl, by simp⟩, fun k other => ?_⟩
      exact List.getElem?_set_ne (other typed)
  · exact ⟨p, rfl, ⟨rfl, rfl, rfl, rfl⟩, fun _ _ => rfl⟩

/-- The loop of `_bf_program_fixup`, when no two of its fixups are at the same slot. -/
theorem foldlM_fixupOne_ready (type : BfFixupType) (fs : List BfFixup) {p : BfProgram}
    (once : ((fs.filter fun f => f.kind.type == type).map (·.insn)).Nodup)
    (ready : ∀ f ∈ fs, f.kind.type = type → Ready p f) :
    ∃ q, fs.foldlM (bfProgramFixupOne type) p = .ok q := by
  induction fs generalizing p with
  | nil => exact ⟨p, rfl⟩
  | cons f fs ih =>
      obtain ⟨p₁, one, same, kept⟩ :=
        bfProgramFixupOne_ready type (ready f List.mem_cons_self)
      rw [List.foldlM_cons, one]
      refine ih ?_ fun g mem typed => ?_
      · refine List.Nodup.sublist ?_ once
        exact ((List.sublist_cons_self f fs).filter _).map _
      · refine (ready g (List.mem_cons_of_mem f mem) typed).same same (kept g.insn ?_)
        intro typed' clash
        rw [List.filter_cons_of_pos (by simp [typed']), List.map_cons, List.nodup_cons] at once
        refine once.1 (List.mem_map.mpr ⟨g, List.mem_filter.mpr ⟨mem, by simp [typed]⟩, ?_⟩)
        exact clash.symm

theorem bfProgramFixup_ready (type : BfFixupType) {p : BfProgram}
    (once : ((p.fixups.filter fun f => f.kind.type == type).map (·.insn)).Nodup)
    (ready : ∀ f ∈ p.fixups, f.kind.type = type → Ready p f) :
    ∃ q, bfProgramFixup type p = .ok ((), q) := by
  obtain ⟨q, loop⟩ := foldlM_fixupOne_ready type p.fixups once ready
  unfold bfProgramFixup
  rw [loop]
  exact ⟨_, rfl⟩

/-! ## Jumps to the next rule -/

/-- The offset of an open jump is blank. -/
def Emitted.blank (e : Emitted) : Bool := e.fixup != some .jmpNextRule || e.insn.off == 0

theorem openAsserted_iff (es : List Emitted) :
    OpenAsserted es ↔ ∀ k e, es[k]? = some e → e.fixup = some .jmpNextRule →
      JumpAsserted e.insn (es.length - k - 1) := by
  induction es with
  | nil => exact iff_of_true trivial fun k e at_ => by cases at_
  | cons e es ih =>
      rw [OpenAsserted, ih]
      constructor
      · rintro ⟨first, later⟩ k e' at_ isOpen
        cases k with
        | zero =>
            cases at_
            exact first isOpen
        | succ k =>
            have asserted := later k e' at_ isOpen
            rwa [show es.length - k - 1 = (e :: es).length - (k + 1) - 1 by
              rw [List.length_cons]; omega] at asserted
      · intro all
        refine ⟨fun isOpen => all 0 e rfl isOpen, fun k e' at_ isOpen => ?_⟩
        have asserted := all (k + 1) e' at_ isOpen
        rwa [show (e :: es).length - (k + 1) - 1 = es.length - k - 1 by
          rw [List.length_cons]; omega] at asserted

/-- The distances that pass the assertion. -/
theorem distance_asserted_iff {d : Nat} (short : d ≤ 2 ^ 30) :
    (BitVec.ofNat 32 d).toInt < shrtMax ↔ d < 32767 := by
  have low : (BitVec.ofNat 32 d).toNat = d := by
    rw [BitVec.toNat_ofNat, Nat.mod_eq_of_lt (by omega)]
  rw [BitVec.toInt_eq_toNat_of_lt (by omega), low, shrtMax]
  omega

/-- The first jump of a rule decides whether its assertions hold. -/
theorem LeadsAt.openAsserted_iff {k : Nat} {es : List Emitted} (leads : LeadsAt k es)
    (blank : es.all Emitted.blank = true) (short : es.length ≤ 2 ^ 30) :
    OpenAsserted es ↔ es.length - k - 1 < 32767 := by
  rw [Bpfilter.openAsserted_iff]
  obtain ⟨⟨e, at_, isOpen⟩, before⟩ := leads
  constructor
  · intro all
    exact (distance_asserted_iff (by omega)).mp (all k e at_ isOpen).2
  · intro fits j e' at' isOpen'
    have later : k ≤ j := by
      by_contra less
      exact before j (by omega) e' at' isOpen'
    refine ⟨?_, (distance_asserted_iff (by omega)).mpr (by omega)⟩
    have here := List.all_eq_true.mp blank e' (List.mem_of_getElem? at')
    simpa [Emitted.blank, isOpen'] using here

/-- Closing a rule succeeds when its open jumps pass the assertions. -/
theorem bfProgramFixup_next_ok {p : BfProgram} (none : p.NoneOpen) (es : List Emitted)
    (asserted : p.host.ndebug = false → OpenAsserted es) :
    ∃ q, bfProgramFixup .jmpNextRule (p.append es) = .ok ((), q) := by
  have quiet : p.fixups.filter (fun f => f.kind.type == .jmpNextRule) = [] := by
    rw [List.filter_eq_nil_iff]
    exact fun f mem typed => none f mem (eq_of_beq typed)
  apply bfProgramFixup_ready
  · show (((p.fixups ++ fixupsFrom p.img.length es).filter _).map _).Nodup
    rw [List.filter_append, quiet, List.nil_append]
    exact (nodup_fixupsFrom p.img.length es).sublist ((List.filter_sublist).map _)
  · intro f mem typed
    rcases List.mem_append.mp mem with old | new
    · exact absurd typed (none f old)
    · obtain ⟨k, e, at_, waits, place⟩ := mem_fixupsFrom.mp new
      obtain ⟨kind, insn⟩ := f
      obtain rfl : kind = .jmpNextRule := by
        cases kind <;> first
          | rfl
          | cases typed
      simp only at waits place
      subst place
      have inside := (List.getElem?_eq_some_iff.mp at_).1
      have here : (p.append es).img[p.img.length + k]? = some e.insn := by
        rw [BfProgram.append_img, List.getElem?_append_right (by omega), Nat.add_sub_cancel_left,
          List.getElem?_map, at_]
        rfl
      have distance : (p.append es).img.length - (p.img.length + k) - 1 = es.length - k - 1 := by
        simp
        omega
      refine ⟨e.insn, .off, _, setOff e.insn (es.length - k - 1), here, rfl, ?_⟩
      rw [distance, bfProgramFixupInsn, BfProgram.append_host]
      have filled : (BitVec.ofNat 32 (es.length - k - 1)).setWidth 16 =
          BitVec.ofNat 16 (es.length - k - 1) := BitVec.setWidth_ofNat_of_le (by omega) _
      cases build : p.host.ndebug with
      | true => simp [filled, setOff]
      | false =>
          obtain ⟨fresh, fits⟩ := (openAsserted_iff es).mp (asserted build) k e at_ waits
          simp [fresh, fits, filled, setOff]

/-! ## Blank offsets -/

section Blank

@[simp] theorem blank_plain (i : BpfInsn) : Emitted.blank { insn := i } = true := rfl

theorem blank_of_settled {es : List Emitted} (settled : es.all Emitted.settled = true) :
    es.all Emitted.blank = true := by
  rw [List.all_eq_true] at settled ⊢
  intro e mem
  simp [Emitted.blank, Emitted.not_open_of_settled (settled e mem)]

theorem blank_ip4Slots (m : BfMatcher) : (ip4Slots m).all Emitted.blank = true := by
  have mask : ∀ v, (ip4MaskSlots v).all Emitted.blank = true := by
    intro v
    unfold ip4MaskSlots
    split <;> rfl
  unfold ip4Slots
  cases m.type <;> first
    | rfl
    | simp only [ip4NetSlots, List.all_cons, List.all_append, mask]
      rfl

theorem blank_addrCompareSlots (op : BfMatcherOp) (addr : List Byte) :
    (addrCompareSlots op addr).all Emitted.blank = true := by
  unfold addrCompareSlots
  split <;> rfl

theorem blank_ip6Slots (m : BfMatcher) : (ip6Slots m).all Emitted.blank = true := by
  have mask : ∀ v, (ip6MaskSlots v).all Emitted.blank = true := by
    intro v
    unfold ip6MaskSlots
    split <;> rfl
  have nexthdr : (ip6NexthdrSlots m).all Emitted.blank = true := by
    unfold ip6NexthdrSlots
    split <;> rfl
  have load : ∀ offset, (ip6LoadSlots offset).all Emitted.blank = true := fun _ => rfl
  have first : ∀ i rest, (rest.all Emitted.blank = true) → i.off = 0 →
      (nextSlot i :: rest).all Emitted.blank = true := by
    intro i rest all zero
    rw [List.all_cons, all, Emitted.blank, nextSlot, zero]
    rfl
  unfold ip6Slots
  apply first _ _ _ rfl
  rw [List.all_cons, blank_plain, Bool.true_and]
  cases m.type <;> first
    | rfl
    | exact nexthdr
    | simp only [ip6AddrSlots, ip6NetSlots, List.all_append, load, mask, blank_addrCompareSlots,
        Bool.and_true]

theorem blank_portSlots (m : BfMatcher) : (portSlots m).all Emitted.blank = true := by
  unfold portSlots
  cases m.op <;> rfl

theorem blank_l4Slots (proto : BitVec 8) {rest : List Emitted}
    (blank : rest.all Emitted.blank = true) : (l4Slots proto rest).all Emitted.blank = true := by
  rw [l4Slots, List.all_cons, List.all_cons, blank]
  rfl

theorem blank_tcpSlots (m : BfMatcher) : (tcpSlots m).all Emitted.blank = true := by
  have flags : (tcpFlagsSlots m).all Emitted.blank = true := by
    unfold tcpFlagsSlots
    cases m.op <;> rfl
  apply blank_l4Slots
  cases m.type <;> first
    | rfl
    | exact flags
    | exact blank_portSlots m

theorem blank_udpSlots (m : BfMatcher) : (udpSlots m).all Emitted.blank = true := by
  apply blank_l4Slots
  cases m.type <;> first
    | rfl
    | exact blank_portSlots m

theorem blank_icmpSlots (m : BfMatcher) : (icmpSlots m).all Emitted.blank = true := by
  have field : ∀ proto off, (icmpFieldSlots m proto off).all Emitted.blank = true := by
    intro proto off
    unfold icmpFieldSlots l4Slots
    cases m.op <;> rfl
  unfold icmpSlots
  cases m.type <;> first
    | exact field _ _
    | rfl

theorem blank_metaSlots (host : Host) (chain : BfChain) (m : BfMatcher) :
    (metaSlots host chain m).all Emitted.blank = true := by
  have port : (metaPortSlots m).all Emitted.blank = true := by
    rw [metaPortSlots, List.all_cons, List.all_append, List.all_cons, blank_portSlots,
      blank_of_settled (settled_swich2Slots ..)]
    rfl
  have mark : (metaMarkSlots host (bfHookToFlavor chain.hook) m).all Emitted.blank = true := by
    unfold metaMarkSlots
    cases bfHookToFlavor chain.hook <;> cases m.op <;> rfl
  unfold metaSlots
  cases m.type <;> first
    | exact port
    | exact mark
    | rfl

theorem blank_setSlots (chain : BfChain) (m : BfMatcher) :
    (setSlots chain m).all Emitted.blank = true := by
  have check : ∀ info, (checkProtocolSlots info).all Emitted.blank = true := by
    intro info
    unfold checkProtocolSlots
    cases info.layer <;> rfl
  have load : ∀ info, (loadHeaderSlots info).all Emitted.blank = true := by
    intro info
    unfold loadHeaderSlots
    cases info.layer <;> rfl
  have lookup : ∀ index off, (setLookupSlots index off).all Emitted.blank = true := fun _ _ => rfl
  have copy : ∀ hdrOffset offset src remaining,
      (stxPayloadSlots hdrOffset offset src remaining).all Emitted.blank = true := by
    intro hdrOffset offset src remaining
    fun_induction stxPayloadSlots with
    | case1 => rfl
    | case2 src remaining some ih => exact ih
  have protocols : ∀ key, (setProtocolsSlots key).all Emitted.blank = true := by
    intro key
    induction key with
    | nil => rfl
    | cons type rest ih =>
        rw [setProtocolsSlots, List.all_append, ih, Bool.and_true]
        cases bfMatcherGetMeta type with
        | none => rfl
        | some info => exact check info
  have build : ∀ key offset, (setKeySlots offset key).all Emitted.blank = true := by
    intro key
    induction key with
    | nil => exact fun _ => rfl
    | cons type rest ih =>
        intro offset
        unfold setKeySlots
        cases bfMatcherGetMeta type with
        | none => rfl
        | some info => simp only [List.all_append, load, copy, ih, Bool.and_true]
  have trie : ∀ index type, (setTrieSlots index type).all Emitted.blank = true := by
    intro index type
    unfold setTrieSlots
    cases bfMatcherGetMeta type with
    | none => rfl
    | some info =>
        simp only [List.all_append, check, load, lookup, Bool.and_true, Bool.true_and]
        cases type <;> rfl
  unfold setSlots
  cases bfChainGetSetForMatcher chain m with
  | none => rfl
  | some set =>
      simp only
      split
      · split
        · rfl
        · exact trie _ _
      · simp only [List.all_append, protocols, build, lookup, Bool.and_true]

theorem blank_matcherSlots (host : Host) (chain : BfChain) (m : BfMatcher) :
    (matcherSlots host chain m).all Emitted.blank = true := by
  unfold matcherSlots
  cases m.type <;> first
    | exact blank_metaSlots host chain m
    | exact blank_ip4Slots m
    | exact blank_ip6Slots m
    | exact blank_tcpSlots m
    | exact blank_udpSlots m
    | exact blank_icmpSlots m
    | exact blank_setSlots chain m

end Blank

/-! ## Rules -/

section Rules

variable {host : Host} {chain : BfChain} {maps : BfMaps} {rule : BfRule}

theorem blank_ruleSlots {flavor : BfFlavor} {es : List Emitted}
    (slots : RuleSlots (MatcherEmits host chain) flavor rule es) :
    es.all Emitted.blank = true := by
  obtain ⟨ms, matchers, rfl⟩ := slots
  rw [List.all_append, blank_of_settled (settled_actionSlots flavor rule), Bool.and_true]
  generalize rule.matchers = generated at matchers
  induction matchers with
  | nil => rfl
  | cons head _ ih =>
      obtain ⟨rfl, -⟩ := head
      rw [List.all_append, blank_matcherSlots, ih]
      rfl

theorem length_ruleSlots {flavor : BfFlavor} {es : List Emitted}
    (slots : RuleSlots (MatcherEmits host chain) flavor rule es) :
    es.length = ruleLen chain rule := by
  obtain ⟨ms, matchers, rfl⟩ := slots
  rw [List.length_append, (matcherSlots_sound matchers).2, length_actionSlots, ruleLen]

/-- The open jumps of a rule pass the assertions exactly when its first one does. -/
theorem ruleSlots_asserted_iff {flavor : BfFlavor} {es : List Emitted}
    (slots : RuleSlots (MatcherEmits host chain) flavor rule es)
    (short : ruleLen chain rule ≤ 2 ^ 30) :
    OpenAsserted es ↔ ruleSpan chain rule < 32767 := by
  have blank := blank_ruleSlots slots
  have size := length_ruleSlots slots
  obtain ⟨ms, matchers, rfl⟩ := slots
  unfold ruleSpan
  cases shape : rule.matchers with
  | nil =>
      rw [shape] at matchers
      cases matchers
      refine iff_of_true ((openAsserted_iff _).mpr fun k e at_ isOpen => ?_) (by simp)
      have settled := List.all_eq_true.mp (settled_actionSlots flavor rule) e
        (List.mem_of_getElem? at_)
      exact absurd isOpen (Emitted.not_open_of_settled settled)
  | cons m rest =>
      rw [shape] at matchers
      cases matchers with
      | cons head tail =>
          obtain ⟨rfl, leads⟩ := head
          rw [((leads.append _).append _).openAsserted_iff blank (size ▸ short), size]

/-- The rules that are generated in the programs of a chain. -/
structure BfRule.Generable (host : Host) (chain : BfChain) (rule : BfRule) : Prop where
  matchers : ∀ m ∈ rule.matchers, m.generable chain = true
  mark : rule.mark.isSome = true →
    bfHookToFlavor chain.hook = .tc ∨ bfHookToFlavor chain.hook = .cgroup
  span : host.ndebug = false → ruleSpan chain rule < 32767

theorem generateMatchers_decided (complete : host.Complete) (ms : List BfMatcher) :
    Determined host chain (generateMatchers bfMatcherGenerate ms)
      (∀ m ∈ ms, m.generable chain = true) := by
  induction ms with
  | nil => exact (Total.pure ()).decided fun m mem => (List.not_mem_nil mem).elim
  | cons m ms ih =>
      rw [List.forall_mem_cons]
      exact (bfMatcherGenerate_decided complete m).bind fun _ => ih

theorem generateMark_decided (mark : Option (BitVec 32)) :
    Determined host chain (generateMark mark) (mark.isSome = true →
      bfHookToFlavor chain.hook = .tc ∨ bfHookToFlavor chain.hook = .cgroup) := by
  cases mark with
  | none => exact (Total.pure ()).decided fun some => by cases some
  | some mark =>
      apply Determined.get_bind
      intro p _ chained
      have flavored : p.flavor = bfHookToFlavor chain.hook := by rw [BfProgram.flavor, chained]
      have sets : Total host chain (uSkBuffGenInlineSetMark mark) :=
        .emit_bind _ (.emit_bind _ (.emit _))
      rw [flavored]
      cases bfHookToFlavor chain.hook with
      | nf => exact .throw (by simp)
      | tc => exact sets.decided (by simp)
      | xdp => exact .throw (by simp)
      | cgroup => exact sets.decided (by simp)

theorem generateActions_decided (rule : BfRule) :
    Determined host chain (generateActions rule) (rule.mark.isSome = true →
      bfHookToFlavor chain.hook = .tc ∨ bfHookToFlavor chain.hook = .cgroup) := by
  have log : Total host chain (generateLog rule) := .appends (generateLog_eq rule)
  have count : Total host chain (emitUpdateCounters rule.index) :=
    .appends (emitUpdateCounters_eq rule.index)
  have verdict : Total host chain (generateVerdict rule.verdict) := by
    intro p tracked hosted chained
    exact ⟨(), _, generateVerdict_eq _ p, tracked.append _, hosted, chained⟩
  unfold generateActions
  refine ((generateMark_decided rule.mark).bind fun _ => Total.decided ?_ trivial).of_iff
    (and_iff_left trivial)
  dsimp only
  split
  · apply Total.bind log
    intro _
    split
    · exact .bind count fun _ => verdict
    · exact verdict
  · split
    · exact .bind count fun _ => verdict
    · exact verdict

/-- **Rules.**  A rule is generated exactly when its matchers are, the flavor has marks when it sets
one, and, with assertions, it is not too long. -/
theorem bfProgramGenerateRule_ok_iff (complete : host.Complete)
    (short : ruleLen chain rule ≤ 2 ^ 30) {p : BfProgram} (tracked : p.Tracked)
    (hosted : p.host = host) (chained : p.chain = chain) (none : p.NoneOpen) :
    (∃ q, bfProgramGenerateRuleWith bfMatcherGenerate rule p = .ok ((), q)) ↔
      rule.Generable host chain := by
  constructor
  · rintro ⟨q, ran⟩
    obtain ⟨es, slots, -, asserted⟩ := bfProgramGenerateRuleWith_spec
      bfMatcherGenerate_matcherEmits rule tracked hosted chained none ran
    unfold bfProgramGenerateRuleWith at ran
    obtain ⟨_, p₁, matchers, ran⟩ := gen_bind_inv ran
    obtain ⟨ms, -, rfl⟩ := generateMatchers_spec bfMatcherGenerate_matcherEmits rule.matchers
      tracked hosted chained matchers
    obtain ⟨_, p₂, actions, -⟩ := gen_bind_inv ran
    refine ⟨?_, ?_, fun debug => (ruleSlots_asserted_iff slots short).mp (asserted debug)⟩
    · exact ((generateMatchers_decided complete rule.matchers).iff tracked hosted chained).mp
        ⟨_, _, matchers⟩
    · exact ((generateActions_decided rule).iff (tracked.append _) hosted chained).mp
        ⟨_, _, actions⟩
  · rintro ⟨generable, marks, span⟩
    obtain ⟨_, p₁, matchers, tracked₁, hosted₁, chained₁⟩ :=
      (generateMatchers_decided complete rule.matchers).total generable p tracked hosted chained
    obtain ⟨ms, slots, rfl⟩ := generateMatchers_spec bfMatcherGenerate_matcherEmits rule.matchers
      tracked hosted chained matchers
    obtain ⟨_, p₂, actions, -⟩ :=
      (generateActions_decided rule).total marks _ tracked₁ hosted₁ chained₁
    obtain rfl := generateActions_spec actions
    rw [BfProgram.append_append] at actions
    obtain ⟨q, closing⟩ := bfProgramFixup_next_ok none (ms ++ actionSlots p.flavor rule)
      fun debug => (ruleSlots_asserted_iff ⟨ms, slots, rfl⟩ short).mpr
        (span (hosted ▸ debug))
    exact ⟨q, (gen_bind_ok matchers).trans ((gen_bind_ok actions).trans closing)⟩

/-- The rule loop. -/
theorem generateRules_ok_iff (complete : host.Complete) (rules : List BfRule)
    (short : ∀ rule ∈ rules, ruleLen chain rule ≤ 2 ^ 30) {p : BfProgram} (tracked : p.Tracked)
    (hosted : p.host = host) (chained : p.chain = chain) (none : p.NoneOpen) :
    (∃ q, generateRules bfMatcherGenerate rules p = .ok ((), q)) ↔
      ∀ rule ∈ rules, rule.Generable host chain := by
  induction rules generalizing p with
  | nil => exact iff_of_true ⟨p, rfl⟩ fun rule mem => (List.not_mem_nil mem).elim
  | cons rule rules ih =>
      obtain ⟨here, others⟩ := List.forall_mem_cons.mp short
      rw [List.forall_mem_cons,
        ← bfProgramGenerateRule_ok_iff complete here tracked hosted chained none]
      have later : ∀ {p₁ : BfProgram},
          bfProgramGenerateRuleWith bfMatcherGenerate rule p = .ok ((), p₁) →
          ((∃ q, generateRules bfMatcherGenerate rules p₁ = .ok ((), q)) ↔
            ∀ rule ∈ rules, rule.Generable host chain) := by
        intro p₁ first
        obtain ⟨es, -, rfl, -⟩ := bfProgramGenerateRuleWith_spec bfMatcherGenerate_matcherEmits rule
          tracked hosted chained none first
        exact ih others (tracked.append _) hosted chained (NoneOpen.append_fillNext none es)
      constructor
      · rintro ⟨q, ran⟩
        obtain ⟨_, p₁, first, rest⟩ := gen_bind_inv ran
        exact ⟨⟨p₁, first⟩, (later first).mp ⟨q, rest⟩⟩
      · rintro ⟨⟨p₁, first⟩, all⟩
        obtain ⟨q, rest⟩ := (later first).mpr all
        exact ⟨q, (gen_bind_ok first).trans rest⟩

end Rules

/-! ## The head -/

section Head

variable {host : Host} {chain : BfChain} {maps : BfMaps}

theorem Total.updateCounters (idx : BitVec 32) : Total host chain (emitUpdateCounters idx) :=
  .appends (emitUpdateCounters_eq idx)

theorem Total.accept : Total host chain (emitVerdict .accept) := by
  intro p tracked hosted chained
  exact ⟨(), _, emitVerdict_eq (bfGetVerdict_accept p.flavor), tracked.append _, hosted, chained⟩

theorem Total.printVerbose (msg : String) : Total host chain (emitPrintVerbose msg) := by
  intro p tracked hosted chained
  refine ⟨(), _, emitPrintVerbose_eq msg p, ?_, ?_, ?_⟩ <;> unfold BfProgram.noted <;> split
  · exact BfProgram.Tracked.append tracked _
  · exact tracked.append _
  · exact hosted
  · exact hosted
  · exact chained
  · exact chained

theorem Total.errorGuard (guard : BpfInsn) (msg : String) :
    Total host chain (stubErrorGuard guard msg) := by
  have exit : Total host chain (stubErrorExit msg) := by
    apply Total.get_bind
    intro p _ _
    apply Total.bind (.updateCounters _)
    exact fun _ => .bind (.printVerbose msg) fun _ => .accept
  apply Total.bind (.jmpctxGet guard)
  exact fun _ => .bind exit fun _ => .jmpctxCleanup _

theorem Total.makeDynptr (complete : host.Complete) (reg : Reg) (name : BtfKfunc) :
    Total host chain (bfStubMakeCtxDynptr reg name) := by
  have rest : Total host chain (do
      Bpfilter.emit (bpfMov64Imm 2 0)
      Bpfilter.emit (bpfMov64Reg 3 10)
      Bpfilter.emit (bpfAlu64Imm .add 3 (ctxImm .dynptr))
      emitKfuncCall name
      stubErrorGuard (bpfJmpImm .eq 0 0 0) "failed to create a new dynamic pointer") := by
    refine .emit_bind _ (.emit_bind _ (.emit_bind _ ?_))
    exact .bind (.kfunc complete name) fun _ => .errorGuard _ _
  unfold bfStubMakeCtxDynptr
  dsimp only
  split
  · exact .emit_bind _ rest
  · exact rest

theorem Total.parseL2 (complete : host.Complete) : Total host chain bfStubParseL2Ethhdr := by
  refine .emit_bind _ (.emit_bind _ (.emit_bind _ (.emit_bind _ (.emit_bind _ (.emit_bind _
    (.emit_bind _ ?_))))))
  apply Total.bind (.kfunc complete _)
  intro _
  apply Total.bind (.errorGuard _ _)
  exact fun _ => .emit_bind _ (.emit_bind _ (.emit _))

theorem Total.parseIpv4 : Total host chain stubParseIpv4 := by
  apply Total.bind (.jmpctxGet _)
  intro jmp
  refine .emit_bind _ (.emit_bind _ (.emit_bind _ (.emit_bind _ (.emit_bind _ (.emit_bind _
    (.emit_bind _ ?_))))))
  exact .jmpctxCleanup jmp

theorem Total.parseIpv6 : Total host chain stubParseIpv6 := by
  intro p tracked hosted chained
  exact ⟨(), _, stubParseIpv6_eq tracked, tracked.append _, hosted, chained⟩

theorem Total.parseL3 (complete : host.Complete) : Total host chain bfStubParseL3Hdr := by
  apply Total.bind (.swich _)
  intro _
  apply Total.bind (.jmpctxGet _)
  intro jmp
  refine .bind ?_ fun _ => .jmpctxCleanup jmp
  refine .emit_bind _ (.emit_bind _ (.emit_bind _ (.emit_bind _ (.emit_bind _ (.emit_bind _ ?_)))))
  apply Total.bind (.kfunc complete _)
  intro _
  apply Total.bind (.errorGuard _ _)
  exact fun _ => .emit_bind _ (.bind .parseIpv4 fun _ => .parseIpv6)

theorem Total.parseL4 (complete : host.Complete) : Total host chain bfStubParseL4Hdr := by
  apply Total.bind (.swich _)
  intro _
  apply Total.bind (.jmpctxGet _)
  intro jmp
  refine .bind ?_ fun _ => .jmpctxCleanup jmp
  refine .emit_bind _ (.emit_bind _ (.emit_bind _ (.emit_bind _ (.emit_bind _ (.emit_bind _ ?_)))))
  apply Total.bind (.kfunc complete _)
  intro _
  exact .bind (.errorGuard _ _) fun _ => .emit _

/-- The prologues succeed when the kernel knows what they look up. -/
theorem genInlinePrologue_total (complete : host.Complete) (flavor : BfFlavor) :
    Total host chain (bfFlavorOpsGet flavor).genInlinePrologue := by
  have headers : Total host chain (do
      bfStubParseL3Hdr
      bfStubParseL4Hdr) := .bind (.parseL3 complete) fun _ => .parseL4 complete
  have dynptr : ∀ {f : Unit → Gen Unit} (name : BtfKfunc), Total host chain (f ()) →
      Total host chain (bfStubMakeCtxDynptr 1 name >>= f) :=
    fun name rest => .bind (.makeDynptr complete 1 name) fun _ => rest
  have field : ∀ {f : BitVec 16 → Gen Unit} (field : BtfField),
      (∀ off, Total host chain (f off)) → Total host chain (btfGetFieldOff field >>= f) :=
    fun name rest => .bind (.fieldOff complete name) rest
  have layer2 : ∀ name, Total host chain (do
      bfStubMakeCtxDynptr 1 name
      bfStubParseL2Ethhdr
      bfStubParseL3Hdr
      bfStubParseL4Hdr) :=
    fun name => dynptr name (.bind (.parseL2 complete) fun _ => headers)
  cases flavor with
  | nf =>
      refine field _ fun _ => .emit_bind _ ?_
      apply Total.get_bind
      intro p _ _
      refine field _ fun _ => .emit_bind _ (field _ fun _ => .emit_bind _ (.emit_bind _ ?_))
      refine field _ fun _ => .emit_bind _ (.bind (.swich _) fun _ => .emit_bind _ ?_)
      refine field _ fun _ => .emit_bind _ (field _ fun _ => .emit_bind _ ?_)
      exact .emit_bind _ (.emit_bind _ (dynptr _ headers))
  | tc =>
      refine .emit_bind _ (.emit_bind _ (field _ fun _ => ?_))
      exact .emit_bind _ (.emit_bind _ (layer2 _))
  | xdp =>
      refine .emit_bind _ (.emit_bind _ (.emit_bind _ (.emit_bind _ ?_)))
      exact .emit_bind _ (.emit_bind _ (layer2 _))
  | cgroup =>
      refine .emit_bind _ (.emit_bind _ (.emit_bind _ (field _ fun _ => ?_)))
      refine .emit_bind _ (.emit_bind _ (field _ fun _ => .emit_bind _ ?_))
      exact .bind (.swich _) fun _ => .emit_bind _ (dynptr _ headers)

theorem generateHead_total (complete : host.Complete) : Total host chain generateHead := by
  unfold generateHead
  apply Total.get_bind
  intro p hosted chained
  refine .emit_bind _ (.emit_bind _ (.emit_bind _ ?_))
  have prologue := @genInlinePrologue_total host chain complete p.flavor
  dsimp only
  split
  · apply Total.bind (.loadFd _ _)
    intro _
    refine .emit_bind _ ?_
    split
    · exact .emit_bind _ prologue
    · exact prologue
  · split
    · exact .emit_bind _ prologue
    · exact prologue

end Head

/-! ## Blank immediates -/

/-- What a fixup other than a jump fills was emitted blank. -/
def Ledger.Blank (life : Ledger) : Prop :=
  ∀ f ∈ life.created, f.kind.type ≠ .jmpNextRule →
    ∃ i, life.emitted[f.insn]? = some i ∧ i.imm = 0

theorem Shaped.blank {kinds : BfFixupKind → Prop} {es : List Emitted} (shaped : Shaped kinds es)
    {base : Nat} {f : BfFixup} (mem : f ∈ fixupsFrom base es) (imm : f.kind.type ≠ .jmpNextRule) :
    ∃ k i, f.insn = base + k ∧ (es.map (·.insn))[k]? = some i ∧ i.imm = 0 := by
  induction shaped generalizing base with
  | nil => cases mem
  | @single e rest alone _ ih =>
      have later : f ∈ fixupsFrom (base + 1) rest →
          ∃ k i, f.insn = base + k ∧ ((e :: rest).map (·.insn))[k]? = some i ∧ i.imm = 0 := by
        intro behind
        obtain ⟨k, i, place, here, zero⟩ := ih behind
        exact ⟨k + 1, i, by omega, here, zero⟩
      cases waits : e.fixup with
      | none =>
          simp only [fixupsFrom, waits] at mem
          exact later mem
      | some kind =>
          simp only [fixupsFrom, waits, List.mem_cons] at mem
          rcases mem with rfl | behind
          · simp only [Emitted.unpaired, waits, Bool.and_eq_true] at alone
            cases kind with
            | jmpNextRule => exact absurd rfl imm
            | elfstubCall id =>
                have insn : e.insn = bpfCallRel 0 := eq_of_beq alone.2
                exact ⟨0, e.insn, rfl, rfl, by rw [insn]; rfl⟩
            | _ => exact absurd alone.2 Bool.false_ne_true
          · exact later behind
  | @pair kind reg src offset rest map pseudo _ _ ih =>
      simp only [fixupsFrom, List.mem_cons] at mem
      rcases mem with rfl | behind
      · exact ⟨0, _, rfl, rfl, rfl⟩
      · obtain ⟨k, i, place, here, zero⟩ := ih behind
        exact ⟨k + 1 + 1, i, by omega, here, zero⟩

section Lives

variable {host : Host}

theorem Ledger.Blank.step (paired : host.StubsPaired) {s t : BfProgram × Ledger}
    (sound : LifeSound host s.1 s.2) (blank : s.2.Blank) (step : LifeStep s t) : t.2.Blank := by
  cases step with
  | emit p life es shaped =>
      intro f mem imm
      rcases List.mem_append.mp mem with old | new
      · obtain ⟨i, here, zero⟩ := blank f old imm
        exact ⟨i, getElem?_append_left_some _ here, zero⟩
      · obtain ⟨k, i, place, here, zero⟩ := shaped.blank new imm
        have size : p.img.length = life.emitted.length := sound.account.size
        refine ⟨i, ?_, zero⟩
        show (life.emitted ++ _)[f.insn]? = _
        rw [place, size, List.getElem?_append_right (by omega), Nat.add_sub_cancel_left, here]
  | note p life printer => exact blank
  | fill life ran => exact blank
  | @place p q life f id stub waits kind fresh found ran =>
      have stubPaired := paired id stub (sound.hosted ▸ found)
      have added := placeElfstub_added stubPaired kind fresh found ran
      intro g mem imm
      rcases List.mem_append.mp mem with old | new
      · obtain ⟨i, here, zero⟩ := blank g old imm
        exact ⟨i, getElem?_append_left_some _ here, zero⟩
      · obtain ⟨str, listed, rfl⟩ := List.mem_map.mp new
        refine ⟨{ bpfLdImm64Lo 1 pseudoMapFd 0 with src := pseudoMapValue }, ?_, rfl⟩
        have size : p.img.length = life.emitted.length := sound.account.size
        show (life.emitted ++ q.img.drop p.img.length)[p.img.length + str.1]? = _
        rw [List.getElem?_append_right (by omega), ← size, Nat.add_sub_cancel_left,
          List.getElem?_drop]
        exact (added.text.loads str listed).1

/-- Everything that waits in a life is blank. -/
theorem Life.blank (compiled : host.StubsCompiled) (paired : host.StubsPaired)
    {s t : BfProgram × Ledger} (sound : LifeSound host s.1 s.2) (blank : s.2.Blank)
    (life : Life s t) : t.2.Blank := by
  induction life with
  | refl => exact blank
  | tail before last ih => exact ih.step paired (sound.run compiled paired before) last

/-- A pass over immediates succeeds when their values are known. -/
theorem LifeSound.pass_ok {p : BfProgram} {life : Ledger} {type : BfFixupType}
    (sound : LifeSound host p life) (blank : life.Blank) (imm : type ≠ .jmpNextRule)
    (known : ∀ f ∈ p.fixups, f.kind.type = type →
      ∃ value, bfProgramFixupValue p f = .ok (.imm, value)) :
    ∃ q, bfProgramFixup type p = .ok ((), q) := by
  have account := sound.account
  apply bfProgramFixup_ready
  · have once := (account.balance.map (·.insn)).nodup_iff.mp account.apart
    rw [List.map_append, List.nodup_append] at once
    exact once.2.1.sublist ((List.filter_sublist).map _)
  · intro f mem typed
    obtain ⟨value, is⟩ := known f mem typed
    obtain ⟨i, here, zero⟩ := blank f (account.created_of_pending mem) (typed ▸ imm)
    refine ⟨i, .imm, value, { i with imm := value }, ?_, is, ?_⟩
    · rw [account.kept f.insn fun g filled => account.filled_ne_pending filled mem, here]
    · simp [bfProgramFixupInsn, zero]

theorem isMap_of_type {kind : BfFixupKind} (noJump : kind.type ≠ .jmpNextRule)
    (noCall : kind.type ≠ .elfstubCall) : kind.isMap = true := by
  cases kind with
  | jmpNextRule => exact absurd rfl noJump
  | elfstubCall id => exact absurd rfl noCall
  | _ => rfl

/-- The descriptors of a program's maps are known, but for a set that has none. -/
theorem bfProgramFixupValue_map {p : BfProgram} {f : BfFixup} (map : f.kind.isMap = true)
    (sets : ∀ index, f.kind = .setMapFd index → index < p.maps.sets.length) :
    ∃ value, bfProgramFixupValue p f = .ok (.imm, value) := by
  obtain ⟨kind, insn⟩ := f
  cases kind with
  | setMapFd index =>
      have inside := sets index rfl
      exact ⟨p.maps.sets[index], by
        simp only [bfProgramFixupValue, List.getElem?_eq_getElem inside]⟩
  | countersMapFd => exact ⟨_, rfl⟩
  | printerMapFd => exact ⟨_, rfl⟩
  | logMapFd => exact ⟨_, rfl⟩
  | jmpNextRule => cases map
  | elfstubCall id => cases map

end Lives

theorem Shaped.fillNext {kinds : BfFixupKind → Prop} {es : List Emitted}
    (shaped : Shaped kinds es) : Shaped kinds (fillNext es) := by
  induction shaped with
  | nil => exact .nil
  | @single e rest alone _ ih =>
      rw [Bpfilter.fillNext]
      split
      · refine .single ?_ ih
        simp only [Emitted.unpaired, Bool.and_eq_true] at alone
        simp only [Emitted.unpaired, jumpSlot, Bool.and_true]
        exact alone.1
      · exact .single alone ih
  | @pair kind reg src offset rest map pseudo allowed _ ih =>
      have other : kind ≠ .jmpNextRule := by
        rintro rfl
        cases map
      rw [Bpfilter.fillNext, if_neg (by simpa using other), Bpfilter.fillNext,
        if_neg (by simp)]
      exact .pair map pseudo allowed ih

/-! ## Programs -/

/-- The head of a program has a bounded length. -/
theorem headSlots_length_le (p : BfProgram) : (headSlots p).length ≤ 256 := by
  have start : (headStart p.chain.flags).length ≤ 7 := by
    cases log : p.chain.flags.log <;> cases store : p.chain.flags.storeNexthdr <;>
      simp [headStart, log, store, loadFdSlots]
  have prologue : (prologueStart p p.flavor).length ≤ 18 := by
    cases p.flavor <;> simp [prologueStart, familySlots, swich2Slots]
  have dynptr : ∀ q id, (makeDynptrSlots q id).length ≤ 17 := by
    intro q id
    have short := errorExitSlots_length q dynptrMsg
    simp only [makeDynptrSlots, skipOver, List.length_append, List.length_cons, List.length_nil]
    omega
  have l2 : ∀ q id, (parseL2Slots q id).length ≤ 24 := by
    intro q id
    have short := errorExitSlots_length q l2Msg
    simp only [parseL2Slots, skipOver, List.length_append, List.length_cons, List.length_nil]
    omega
  have l3 : ∀ q id, (parseL3Slots q id).length ≤ 80 := by
    intro q id
    have short := errorExitSlots_length q l3Msg
    simp only [parseL3Slots, parseL3Swich, swich2Slots, parseL3BodySlots, sliceSlots,
      parseIpv4Slots, parseIpv6Slots, skipOver, List.length_append, List.length_cons,
      List.length_nil]
    omega
  have l4 : ∀ q id, (parseL4Slots q id).length ≤ 60 := by
    intro q id
    have short := errorExitSlots_length q l4Msg
    simp only [parseL4Slots, parseL4Swich, swich4Slots, parseL4BodySlots, sliceSlots, skipOver,
      List.length_append, List.length_cons, List.length_nil]
    omega
  have rest : (prologueRest p p.flavor).length ≤ 181 := by
    have first := dynptr p
    have second := l2 (p.noted dynptrMsg) (p.host.kfuncId .bpfDynptrSlice)
    have third := l3 (p.noted dynptrMsg) (p.host.kfuncId .bpfDynptrSlice)
    have third' := l3 ((p.noted dynptrMsg).noted l2Msg) (p.host.kfuncId .bpfDynptrSlice)
    have fourth := l4 ((p.noted dynptrMsg).noted l3Msg) (p.host.kfuncId .bpfDynptrSlice)
    have fourth' := l4 (((p.noted dynptrMsg).noted l2Msg).noted l3Msg)
      (p.host.kfuncId .bpfDynptrSlice)
    have skb := first (p.host.kfuncId .bpfDynptrFromSkb)
    have xdp := first (p.host.kfuncId .bpfDynptrFromXdp)
    cases p.flavor <;> simp only [prologueRest, fromL3Slots, fromL2Slots, List.length_append] <;>
      omega
  simp only [headSlots, List.length_append]
  omega

section Programs

variable {host : Host} {chain : BfChain} {maps : BfMaps}

theorem shaped_programSlots {blocks : List (List Emitted)} {flavor : BfFlavor}
    {rules : List BfRule} (p : BfProgram)
    (related : List.Forall₂ (RuleSlots (MatcherEmits host chain) flavor) rules blocks) :
    Shaped (fun _ => True) (programSlots p blocks) := by
  refine .append ((setFree_headSlots p).mono fun _ _ => trivial) (.append ?_
    ((setFree_policySlots p.chain).mono fun _ _ => trivial))
  induction related with
  | nil => exact .nil
  | @cons rule es rules blocks slots _ ih =>
      have own : es = ruleSlots (matcherSlots host chain) flavor rule := by
        obtain ⟨ms, matchers, rfl⟩ := slots
        rw [ruleSlots]
        congr 1
        generalize rule.matchers = generated at matchers
        induction matchers with
        | nil => rfl
        | cons head _ ih =>
            obtain ⟨rfl, -⟩ := head
            rw [List.flatMap_cons, ih]
      rw [List.map_cons, List.flatten_cons, own]
      exact .append (shaped_ruleSlots flavor rule).fillNext ih

theorem programSlots_length {blocks : List (List Emitted)} {flavor : BfFlavor}
    {rules : List BfRule} (p : BfProgram)
    (related : List.Forall₂ (RuleSlots (MatcherEmits host chain) flavor) rules blocks) :
    (programSlots p blocks).length =
      (headSlots p).length + ((rules.map (ruleLen chain)).sum + 8) := by
  have lengths : (blocks.map fillNext).flatten.length = (rules.map (ruleLen chain)).sum := by
    induction related with
    | nil => rfl
    | cons slots _ ih =>
        rw [List.map_cons, List.flatten_cons, List.length_append, fillNext_length,
          length_ruleSlots slots, ih, List.map_cons, List.sum_cons]
  rw [programSlots, List.length_append, List.length_append, lengths, policySlots_length]

/-- **Generation.**  In a complete build, the chains that have a program are those with a terminal
policy and rules that are generated. -/
theorem bfProgramGenerate_ok_iff (complete : host.Complete) (compiled : host.StubsCompiled)
    (paired : host.StubsPaired) (short : (chain.rules.map (ruleLen chain)).sum ≤ 2 ^ 30) :
    (∃ q, bfProgramGenerate (bfProgramNew host chain maps) = .ok ((), q)) ↔
      chain.policy.isTerminal = true ∧ ∀ rule ∈ chain.rules, rule.Generable host chain := by
  have each : ∀ rule ∈ chain.rules, ruleLen chain rule ≤ 2 ^ 30 := fun rule mem =>
    (List.single_le_sum (by simp) _ (List.mem_map_of_mem mem)).trans short
  -- the head
  obtain ⟨_, pHead, head, -⟩ :=
    generateHead_total complete (bfProgramNew host chain maps) bfProgramNew_tracked rfl rfl
  have atHead := generateHead_spec bfProgramNew_tracked head
  obtain ⟨printer, noted⟩ := prologueNoted_new host chain maps
    (bfProgramNew host chain maps).flavor
  rw [noted] at atHead
  have blank : ({ bfProgramNew host chain maps with printer } : BfProgram).Tracked := rfl
  have clean : ({ bfProgramNew host chain maps with printer } : BfProgram).NoneOpen := by
    intro f mem
    cases mem
  have rules := generateRules_ok_iff complete chain.rules each (atHead ▸ blank.append _)
    (by rw [atHead]; rfl) (by rw [atHead]; rfl)
    (atHead ▸ NoneOpen.append_settled clean (settled_headSlots _))
  rw [← rules]
  constructor
  · rintro ⟨q, ran⟩
    unfold bfProgramGenerate bfProgramGenerateWith at ran
    rw [gen_bind_ok head, gen_bind_ok (gen_get pHead), generateHead_chain head] at ran
    obtain ⟨_, pRules, ranRules, ran⟩ := gen_bind_inv ran
    obtain ⟨_, pPolicy, policy, -⟩ := gen_bind_inv ran
    obtain ⟨-, -, -, -, chained, -⟩ :=
      emitted_programSlots bfMatcherGenerate_matcherEmits head ranRules
    exact ⟨chained ▸ (generatePolicy_spec policy).1, pRules, ranRules⟩
  · rintro ⟨terminal, pRules, ranRules⟩
    obtain ⟨blocks, printer, related, -, chained, -, whole⟩ :=
      emitted_programSlots bfMatcherGenerate_matcherEmits head ranRules
    have policy := generatePolicy_eq (chained ▸ terminal : pRules.chain.policy.isTerminal = true)
    rw [chained, whole] at policy
    have shaped := shaped_programSlots (bfProgramNew host chain maps) related
    have size := programSlots_length (bfProgramNew host chain maps) related
    have small := headSlots_length_le (bfProgramNew host chain maps)
    generalize programSlots (bfProgramNew host chain maps) blocks = slots at *
    have fits : slots.length + elfstubMaxInsns * 4 ≤ intMax := by
      unfold elfstubMaxInsns intMax
      omega
    -- the stubs
    have lived : Life (bfProgramNew host chain maps, Ledger.empty)
        (({ bfProgramNew host chain maps with printer } : BfProgram).append slots, _) :=
      .tail (.single (.note _ _ printer)) (.emit _ _ slots shaped)
    have start := lifeSound_new host chain maps
    have unfilled : Ledger.empty.Blank := by
      intro f mem
      cases mem
    have fresh := stubsPlaced_append host chain maps printer slots
    have hosted : (({ bfProgramNew host chain maps with printer } : BfProgram).append
        slots).host = host := rfl
    have fixups : (({ bfProgramNew host chain maps with printer } : BfProgram).append
        slots).fixups = fixupsFrom 0 slots := by
      simp [BfProgram.append, bfProgramNew]
    generalize ({ bfProgramNew host chain maps with printer } : BfProgram).append slots = p₁ at *
    obtain ⟨p₂, placing⟩ := placeElfstubs_ok p₁.fixups (hosted ▸ complete.stubs)
    obtain ⟨life, -, lived', -⟩ :=
      placeElfstubs_life p₁.fixups paired _ hosted (fun f mem => mem) placing
    have more := placeElfstubs_extends p₁.fixups fresh.behind placing
    obtain ⟨placed, -, called⟩ := placeElfstubs_placed (hosted ▸ compiled) (by omega)
      (by unfold intMax at fits; omega) fresh p₁.fixups placing
    -- the calls
    obtain ⟨q, calls⟩ := (start.run compiled paired (lived.trans lived')).pass_ok
      (Life.blank compiled paired start unfilled (lived.trans lived'))
      (show BfFixupType.elfstubCall ≠ .jmpNextRule by decide) fun f mem typed => by
        obtain ⟨kind, insn⟩ := f
        rcases more.fresh _ mem with old | ⟨-, printing⟩
        · cases kind with
          | elfstubCall id =>
              obtain ⟨s, known⟩ := Option.isSome_iff_exists.mp (called _ old id rfl)
              have inside := (fixupsFrom_inside (fixups ▸ old)).2
              obtain ⟨-, ⟨field, value⟩, is⟩ :=
                elfstubCall_fillable placed fits known (by simpa using inside)
              obtain rfl := bfProgramFixupValue_imm (fun jump => by cases jump) is
              exact ⟨value, is⟩
          | _ => cases typed
        · simp only at printing
          rw [printing] at typed
          cases typed
    refine ⟨q, ?_⟩
    unfold bfProgramGenerate bfProgramGenerateWith
    rw [gen_bind_ok head, gen_bind_ok (gen_get pHead), generateHead_chain head,
      gen_bind_ok ranRules, gen_bind_ok policy,
      gen_bind_ok (show bfProgramGenerateElfstubs p₁ = .ok ((), p₂) from placing)]
    exact calls

/-- The sets a generated chain refers to have a descriptor each. -/
theorem setIndex_lt_of_generable (described : chain.sets.length ≤ maps.sets.length)
    (generable : ∀ rule ∈ chain.rules, ∀ m ∈ rule.matchers, m.generable chain = true) {index : Nat}
    (refers : index ∈ (chain.rules.flatMap (·.matchers)).filterMap BfMatcher.setIndex) :
    index < maps.sets.length := by
  obtain ⟨m, mem, is⟩ := List.mem_filterMap.mp refers
  obtain ⟨rule, inChain, inRule⟩ := List.mem_flatMap.mp mem
  have holds := generable rule inChain m inRule
  unfold BfMatcher.setIndex at is
  split at is
  · next isSet =>
      cases is
      unfold BfMatcher.generable at holds
      rw [isSet] at holds
      unfold bfChainGetSetForMatcher at holds
      rw [if_pos isSet] at holds
      refine lt_of_lt_of_le ?_ described
      by_contra outside
      rw [List.getElem?_eq_none (by omega)] at holds
      cases holds
  · cases is

/-- The passes of a load succeed when every set has a descriptor. -/
theorem bfProgramLoadFixups_ok (compiled : host.StubsCompiled) (paired : host.StubsPaired)
    {q : BfProgram} (generated : bfProgramGenerate (bfProgramNew host chain maps) = .ok ((), q))
    (described : ∀ index ∈ (chain.rules.flatMap (·.matchers)).filterMap BfMatcher.setIndex,
      index < maps.sets.length) :
    ∃ r, bfProgramLoadFixups q = .ok ((), r) := by
  obtain ⟨life, lived, -, sets⟩ := bfProgramGenerate_life paired generated
  obtain ⟨blocks, made⟩ :=
    bfProgramGenerateWith_spec (bfMatcherGenerate_appends host chain) generated
  have start := lifeSound_new host chain maps
  have unfilled : Ledger.empty.Blank := by
    intro f mem
    cases mem
  have pass : ∀ {p : BfProgram} {ledger : Ledger} (type : BfFixupType),
      Life (bfProgramNew host chain maps, Ledger.empty) (p, ledger) →
      (∀ f ∈ p.fixups, f.kind.type = type →
        ∃ value, bfProgramFixupValue p f = .ok (.imm, value)) → type ≠ .jmpNextRule →
      ∃ p', bfProgramFixup type p = .ok ((), p') ∧
        Life (bfProgramNew host chain maps, Ledger.empty) (p',
          { ledger with
            filled := ledger.filled ++ p.fixups.filter (fun f => f.kind.type == type) }) := by
    intro p ledger type lived known imm
    obtain ⟨p', ran⟩ := (start.run compiled paired lived).pass_ok
      (Life.blank compiled paired start unfilled lived) imm known
    exact ⟨p', ran, lived.tail (.fill ledger ran)⟩
  obtain ⟨q₁, first, lived₁⟩ := pass .setMapFd lived (fun f mem typed => by
    have map : f.kind.isMap = true := isMap_of_type (by simp [typed]) (by simp [typed])
    refine bfProgramFixupValue_map map fun index kind => ?_
    rw [made.maps]
    refine described index ?_
    rw [← sets]
    exact List.mem_filterMap.mpr
      ⟨f, (start.run compiled paired lived).account.created_of_pending mem, by rw [kind]; rfl⟩)
    (by decide)
  have others : ∀ {p : BfProgram} (type : BfFixupType),
      type = .countersMapFd ∨ type = .printerMapFd ∨ type = .logMapFd →
      ∀ f ∈ p.fixups, f.kind.type = type →
        ∃ value, bfProgramFixupValue p f = .ok (.imm, value) := by
    intro p type is f _ typed
    have map : f.kind.isMap = true := by
      rcases is with rfl | rfl | rfl <;> exact isMap_of_type (by simp [typed]) (by simp [typed])
    refine bfProgramFixupValue_map map fun index kind => ?_
    rw [kind] at typed
    rcases is with rfl | rfl | rfl <;> cases typed
  obtain ⟨q₂, second, lived₂⟩ := pass .countersMapFd lived₁ (others _ (by simp)) (by decide)
  obtain ⟨q₃, third, lived₃⟩ := pass .printerMapFd lived₂ (others _ (by simp)) (by decide)
  obtain ⟨r, fourth, -⟩ := pass .logMapFd lived₃ (others _ (by simp)) (by decide)
  refine ⟨r, ?_⟩
  unfold bfProgramLoadFixups
  rw [gen_bind_ok first, gen_bind_ok second, gen_bind_ok third]
  exact fourth

end Programs

/-! ## Loads -/

section Loads

variable {s t : LoadState}

theorem andThen_ok {first : Load} (next : Load) (works : first s = .ok (none, t)) :
    andThen first next s = next t := by
  simp only [andThen, Hoare.bind_run works]

theorem orUndo_ok {step : Load} (undo : OpenMaps → OpenMaps) (works : step s = .ok (none, t)) :
    orUndo step undo s = .ok (none, t) := by
  simp only [orUndo, Hoare.bind_run works]
  rfl

theorem loadFixup_ok {type : BfFixupType} {prog : BfProgram}
    (works : bfProgramFixup type s.prog = .ok ((), prog)) :
    loadFixup type s = .ok (none, { s with prog }) := by
  simp only [loadFixup, works]

theorem loadSetMaps_ok (is : List Nat) (s : LoadState) :
    ∃ t, loadSetMaps {} is s = .ok (none, t) ∧ t.prog = s.prog ∧ t.maps.cmap = s.maps.cmap ∧
      t.maps.pmap = s.maps.pmap := by
  induction is generalizing s with
  | nil => exact ⟨s, rfl, rfl, rfl, rfl⟩
  | cons i is ih => exact ih { s with maps := { s.maps with sets := s.maps.sets.set i true } }

/-- When the calls of a load work, it does what its fixup passes do. -/
theorem bfProgramLoad_ok {p r : BfProgram} (passes : bfProgramLoadFixups p = .ok ((), r)) :
    ∃ s, bfProgramLoad {} p.unloaded = .ok (none, s) ∧ s.prog = r := by
  unfold bfProgramLoadFixups at passes
  obtain ⟨_, q₁, sets, passes⟩ := gen_bind_inv passes
  obtain ⟨_, q₂, counters, passes⟩ := gen_bind_inv passes
  obtain ⟨_, q₃, printer, log⟩ := gen_bind_inv passes
  obtain ⟨t, created, same, cmap, pmap⟩ := loadSetMaps_ok
    (List.range (min p.unloaded.prog.chain.sets.length p.unloaded.maps.sets.length)) p.unloaded
  have first : bfProgramLoadSetsMaps {} p.unloaded = .ok (none, { t with prog := q₁ }) := by
    apply orUndo_ok
    rw [andThen_ok _ created]
    exact loadFixup_ok (same ▸ sets)
  -- the maps of the program itself
  have resizes : ∀ (isOpen : OpenMaps → Bool) (s : LoadState), isOpen s.maps = false →
      resizeMap isOpen s = .ok (none, s) := by
    intro isOpen s closed
    simp only [resizeMap, Hoare.bind_run (Hoare.get_run _), closed]
    rfl
  have second : bfProgramLoadCountersMap {} { t with prog := q₁ } =
      .ok (none, ⟨q₂, { t.maps with cmap := true }⟩) := by
    unfold bfProgramLoadCountersMap
    rw [andThen_ok _ (resizes (·.cmap) ⟨q₁, t.maps⟩ cmap)]
    exact orUndo_ok _ (loadFixup_ok (s := ⟨q₁, { t.maps with cmap := true }⟩) counters)
  have third : bfProgramLoadPrinterMap {} ⟨q₂, { t.maps with cmap := true }⟩ =
      .ok (none, ⟨q₃, { t.maps with cmap := true, pmap := true }⟩) := by
    unfold bfProgramLoadPrinterMap
    rw [andThen_ok _ (show loadCall _ _ = .ok (none, _) from rfl),
      andThen_ok _ (resizes (·.pmap) ⟨q₂, { t.maps with cmap := true }⟩ pmap)]
    exact orUndo_ok _
      (loadFixup_ok (s := ⟨q₂, { t.maps with cmap := true, pmap := true }⟩) printer)
  have fourth : bfProgramLoadLogMap {} ⟨q₃, { t.maps with cmap := true, pmap := true }⟩ =
      .ok (none, ⟨r, { t.maps with cmap := true, pmap := true, lmap := true }⟩) :=
    orUndo_ok _
      (loadFixup_ok (s := ⟨q₃, { t.maps with cmap := true, pmap := true, lmap := true }⟩) log)
  refine ⟨⟨r, { t.maps with cmap := true, pmap := true, lmap := true }⟩, ?_, rfl⟩
  unfold bfProgramLoad
  rw [andThen_ok _ first, andThen_ok _ second, andThen_ok _ third, andThen_ok _ fourth]
  rfl

end Loads

/-- **Which chains compile.**  In a complete build and with a kernel whose calls work, the chains
that are generated and loaded are those with a terminal policy and rules that are generated. -/
theorem compiles_iff {host : Host} {chain : BfChain} {maps : BfMaps} (complete : host.Complete)
    (compiled : host.StubsCompiled) (paired : host.StubsPaired)
    (described : chain.sets.length ≤ maps.sets.length)
    (short : (chain.rules.map (ruleLen chain)).sum ≤ 2 ^ 30) :
    (∃ q s, bfProgramGenerate (bfProgramNew host chain maps) = .ok ((), q) ∧
        bfProgramLoad {} q.unloaded = .ok (none, s)) ↔
      chain.policy.isTerminal = true ∧ ∀ rule ∈ chain.rules, rule.Generable host chain := by
  rw [← @bfProgramGenerate_ok_iff host chain maps complete compiled paired short]
  constructor
  · rintro ⟨q, s, generated, -⟩
    exact ⟨q, generated⟩
  · rintro ⟨q, generated⟩
    obtain ⟨-, generable⟩ :=
      (bfProgramGenerate_ok_iff complete compiled paired short).mp ⟨q, generated⟩
    obtain ⟨r, passes⟩ := bfProgramLoadFixups_ok compiled paired generated fun index refers =>
      setIndex_lt_of_generable described (fun rule mem => (generable rule mem).matchers) refers
    obtain ⟨s, loads, -⟩ := bfProgramLoad_ok passes
    exact ⟨q, s, generated, loads⟩

theorem printingHost_complete : printingHost.Complete :=
  ⟨fun _ => ⟨_, rfl⟩, fun name => by cases name <;> exact ⟨_, rfl⟩, fun _ => ⟨_, rfl⟩⟩

/-- The chain that logs and looks up a set compiles. -/
theorem loggingChain_compiles :
    ∃ q s, bfProgramGenerate
        (bfProgramNew printingHost loggingChain { sampleMaps with sets := [9] }) = .ok ((), q) ∧
      bfProgramLoad {} q.unloaded = .ok (none, s) := by
  have compiled : printingHost.StubsCompiled := by
    rintro id stub ⟨⟩
    exact ⟨by decide, by decide⟩
  have paired : printingHost.StubsPaired := by
    rintro id stub ⟨⟩
    refine ⟨by decide, fun str mem => ?_⟩
    obtain rfl := List.mem_singleton.mp mem
    exact ⟨_, _, rfl, rfl, rfl, rfl⟩
  refine (compiles_iff printingHost_complete compiled paired (by decide)
    (by decide +kernel)).mpr ⟨rfl, fun rule mem => ?_⟩
  obtain rfl := List.mem_singleton.mp mem
  exact ⟨by decide, fun sets => absurd sets (by decide), fun _ => by decide +kernel⟩

end Bpfilter
