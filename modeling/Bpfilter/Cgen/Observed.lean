/-
# Cgen.Observed -- what rules leave alone, and what their effects show

While the rules of a loaded program are evaluated, the frame pointer, the protocol
registers and the runtime context stay as the prologue left them, up to the scratch
area and memory outside the stack frame (`Kept`).  For matchers this needs the stores
of set keys to be in the scratch area, which they are once the kernel's verifier has
accepted the program (`setSlots_scratch`).

`Follows` is an invariant of the effects so far and the state: matchers keep it, and each
performed effect takes it to the longer list.  It then holds at any later rule
(`Follows.passRules`).
-/
import Bpfilter.Cgen.MatcherRuns
import Bpfilter.Cgen.SetMatcher

namespace Bpfilter

set_option autoImplicit false

open Ebpf

/-! ## Stores to the stack -/

/-- No slot stores above the stack frame; the kernel's verifier refuses other programs. -/
def StackBounded (es : List Emitted) : Prop :=
  ∀ e ∈ es, ∀ size, e.insn.code = .stx size → e.insn.dst = 10 →
    e.insn.off.toInt + size.bytes ≤ 0

/-- The slots that store to the stack store to the scratch area. -/
def ScratchStores (es : List Emitted) : Prop :=
  ∀ size src off, { insn := bpfStxMem size 10 src off } ∈ es →
    ∃ k, off = scrOff k ∧ k + size.bytes ≤ 64

def Emitted.isStx (e : Emitted) : Bool :=
  match e.insn.code with
  | .stx _ => true
  | _ => false

section Stores

variable {f g es : List Emitted}

theorem StackBounded.append_left (bounded : StackBounded (f ++ g)) : StackBounded f :=
  fun e mem => bounded e (List.mem_append_left _ mem)

theorem StackBounded.append_right (bounded : StackBounded (f ++ g)) : StackBounded g :=
  fun e mem => bounded e (List.mem_append_right _ mem)

theorem ScratchStores.append (first : ScratchStores f) (second : ScratchStores g) :
    ScratchStores (f ++ g) := by
  intro size src off mem
  rcases List.mem_append.mp mem with mem | mem
  · exact first size src off mem
  · exact second size src off mem

theorem ScratchStores.of_none (none : es.all (fun e => !e.isStx) = true) : ScratchStores es := by
  intro size src off mem
  exact absurd (List.all_eq_true.mp none _ mem) (by simp [Emitted.isStx, bpfStxMem])

theorem scratch_loadHeader (info : BfMatcherMeta) : ScratchStores (loadHeaderSlots info) := by
  apply ScratchStores.of_none
  unfold loadHeaderSlots
  cases info.layer <;> rfl

theorem scratch_checkProtocol (info : BfMatcherMeta) : ScratchStores (checkProtocolSlots info) := by
  apply ScratchStores.of_none
  unfold checkProtocolSlots
  cases info.layer <;> rfl

/-- A store at an index of the scratch area that the verifier accepts is inside it. -/
theorem scrOff_bounded {k : Nat} (small : k ≤ 64) {size : Size}
    (bounded : (scrOff k).toInt + size.bytes ≤ 0) : k + size.bytes ≤ 64 := by
  have offset := scrOff_toInt small
  rw [show bfProgScrOff 0 = -64 from rfl] at offset
  omega

/-- Each store of a key starts where the one before ended. -/
theorem stxPayloadSlots_scratch (hdrOffset offset src remaining : Nat)
    (start : offset + src ≤ 64)
    (bounded : StackBounded (stxPayloadSlots hdrOffset offset src remaining)) :
    ScratchStores (stxPayloadSlots hdrOffset offset src remaining) ∧
      offset + src + remaining ≤ 64 := by
  fun_induction stxPayloadSlots with
  | case1 src => exact ⟨fun _ _ _ mem => (List.not_mem_nil mem).elim, start⟩
  | case2 src remaining some ih =>
      have store := bounded _ (List.mem_cons_of_mem _ List.mem_cons_self) _ rfl rfl
      have inside := scrOff_bounded start store
      obtain ⟨rest, total⟩ := ih (by omega) fun e mem =>
        bounded e (List.mem_cons_of_mem _ (List.mem_cons_of_mem _ mem))
      refine ⟨?_, ?_⟩
      · rintro size reg off (_ | ⟨_, _ | ⟨_, mem⟩⟩)
        · exact ⟨_, rfl, inside⟩
        · exact rest size reg off mem
      · have le := stxCopySize_bytes_le offset remaining (Nat.pos_of_ne_zero some)
        omega

theorem setKeySlots_scratch (key : List BfMatcherType) (offset : Nat) (start : offset ≤ 64)
    (bounded : StackBounded (setKeySlots offset key)) : ScratchStores (setKeySlots offset key) := by
  induction key generalizing offset with
  | nil => exact fun _ _ _ mem => (List.not_mem_nil mem).elim
  | cons type rest ih =>
      unfold setKeySlots at bounded ⊢
      cases known : bfMatcherGetMeta type with
      | none => exact fun _ _ _ mem => (List.not_mem_nil mem).elim
      | some info =>
          simp only [known] at bounded
          have stores := stxPayloadSlots_scratch _ _ 0 _ start bounded.append_right.append_left
          refine (scratch_loadHeader info).append (stores.1.append ?_)
          exact ih _ (by omega) bounded.append_right.append_right

theorem setProtocolsSlots_scratch (key : List BfMatcherType) :
    ScratchStores (setProtocolsSlots key) := by
  induction key with
  | nil => exact fun _ _ _ mem => (List.not_mem_nil mem).elim
  | cons type rest ih =>
      refine ScratchStores.append ?_ ih
      cases bfMatcherGetMeta type with
      | none => exact fun _ _ _ mem => (List.not_mem_nil mem).elim
      | some info => exact scratch_checkProtocol info

theorem trieKeySlots_scratch (type : BfMatcherType) (hdrOffset : Nat) :
    ScratchStores (trieKeySlots type hdrOffset) := by
  unfold trieKeySlots
  cases type with
  | ip4Snet | ip4Dnet =>
      rintro size src off (_ | ⟨_, _ | ⟨_, _ | ⟨_, _ | ⟨_, ⟨⟩⟩⟩⟩⟩)
      · exact ⟨4, rfl, by decide⟩
      · exact ⟨8, rfl, by decide⟩
  | ip6Snet | ip6Dnet =>
      rintro size src off (_ | ⟨_, _ | ⟨_, _ | ⟨_, _ | ⟨_, _ | ⟨_, _ | ⟨_, ⟨⟩⟩⟩⟩⟩⟩⟩)
      · exact ⟨4, rfl, by decide⟩
      · exact ⟨8, rfl, by decide⟩
      · exact ⟨16, rfl, by decide⟩
  | _ => exact fun _ _ _ mem => (List.not_mem_nil mem).elim

/-- The key of a set that the verifier accepts is written to the scratch area. -/
theorem setSlots_scratch (chain : BfChain) (m : BfMatcher)
    (bounded : StackBounded (setSlots chain m)) : ScratchStores (setSlots chain m) := by
  have lookup : ∀ index keyOff, ScratchStores (setLookupSlots index keyOff) :=
    fun index keyOff => .of_none rfl
  unfold setSlots at bounded ⊢
  cases found : bfChainGetSetForMatcher chain m with
  | none => exact fun _ _ _ mem => (List.not_mem_nil mem).elim
  | some set =>
      simp only [found] at bounded
      simp only
      split
      · cases set.key with
        | nil => exact fun _ _ _ mem => (List.not_mem_nil mem).elim
        | cons type rest =>
            simp only [setTrieSlots]
            cases bfMatcherGetMeta type with
            | none => exact fun _ _ _ mem => (List.not_mem_nil mem).elim
            | some info =>
                refine (scratch_checkProtocol info).append ((scratch_loadHeader info).append ?_)
                exact (trieKeySlots_scratch type _).append (lookup _ 4)
      · next hash =>
          rw [if_neg hash] at bounded
          refine (setProtocolsSlots_scratch set.key).append (ScratchStores.append ?_ (lookup _ 0))
          exact setKeySlots_scratch set.key 0 (by decide) bounded.append_right.append_left

end Stores

/-! ## What rules keep -/

variable {W X : Type} {env : Env W BfElfstubId} {maps : BfMaps} {others : List (Addr × Nat)}

/-- The protocol registers and memory are the same, up to the scratch area and other ranges. -/
structure Kept (others : List (Addr × Nat)) (c d : Core W) : Prop where
  frame : d.regs 10 = c.regs 10
  l3 : d.regs 7 = c.regs 7
  l4 : d.regs 8 = c.regs 8
  mem : Mem.SameOutside ((ctxAddr (c.regs 10) .scratch, 64) :: others) c.mem d.mem

theorem Kept.refl (others : List (Addr × Nat)) (c : Core W) : Kept others c c :=
  ⟨rfl, rfl, rfl, .refl _ _⟩

theorem Kept.trans {c d e : Core W} (first : Kept others c d) (second : Kept others d e) :
    Kept others c e := by
  refine ⟨second.frame.trans first.frame, second.l3.trans first.l3, second.l4.trans first.l4, ?_⟩
  have rest := second.mem
  rw [first.frame] at rest
  exact first.mem.trans rest

theorem Kept.setReg {c d : Core W} (kept : Kept others c d) {r : Reg} (free : r < 7)
    (v : BitVec 64) : Kept others c (d.setReg r v) := by
  have apart : ∀ r' : Reg, 7 ≤ r' → (d.setReg r v).regs r' = d.regs r' := by
    intro r' high
    have other : r' ≠ r := by
      rintro rfl
      exact absurd free (not_lt.mpr high)
    rw [Core.setReg_regs, if_neg other]
  exact ⟨(apart 10 (by decide)).trans kept.frame, (apart 7 (by decide)).trans kept.l3,
    (apart 8 (by decide)).trans kept.l4, kept.mem⟩

/-- A call that writes no memory. -/
theorem Kept.call {c d : Core W} (kept : Kept others c d) {callee : Callee W}
    (mem : (callee d.args d.mem d.world).mem = d.mem) : Kept others c (d.call callee) := by
  have saved : ∀ r : Reg, 5 < r → (d.call callee).regs r = d.regs r :=
    Core.call_regs_saved d callee
  refine ⟨(saved 10 (by decide)).trans kept.frame, (saved 7 (by decide)).trans kept.l3,
    (saved 8 (by decide)).trans kept.l4, ?_⟩
  rw [Core.call_mem, mem]
  exact kept.mem

/-- A store to the scratch area. -/
theorem Kept.storeScratch (c : Core W) {k n : Nat} (inside : k + n ≤ 64) (v : BitVec 64) :
    Kept others c (c.storeMem (c.regs 10 + (scrOff k).signExtend 64) n v) := by
  refine ⟨rfl, rfl, rfl, ?_⟩
  intro x outside
  have scratch := outside (ctxAddr (c.regs 10) .scratch, 64) List.mem_cons_self
  rw [Core.storeMem_mem, add_scrOff _ (by omega)]
  apply Mem.store_apply_of_not_inRange
  simp only [Mem.InRange] at scratch ⊢
  rw [Mem.sub_add_toNat _ _ _ (by omega)]
  have top := (x - ctxAddr (c.regs 10) .scratch).isLt
  split <;> omega

/-- Ranges outside the stack frame. -/
def Aside (r10 : BitVec 64) (others : List (Addr × Nat)) : Prop :=
  ∀ o ∈ others, Mem.Disjoint o.1 o.2 (r10 - 512) 512

/-- The context below the scratch area is kept. -/
theorem Kept.field {c d : Core W} (kept : Kept others c d) (aside : Aside (c.regs 10) others)
    {f : RuntimeField} {n : Nat} (below : f.offset + n ≤ 176) {x : Addr}
    (inside : Mem.InRange (ctxAddr (c.regs 10) f) n x) : d.mem x = c.mem x := by
  have fits : f.offset + n ≤ sizeofRuntime := below.trans (by decide)
  apply kept.mem x
  intro r mem
  rcases List.mem_cons.mp mem with rfl | mem
  · have size : RuntimeField.scratch.offset + 64 ≤ sizeofRuntime := by decide
    exact disjoint_ctx (c.regs 10) f .scratch (.inl below) ⟨fits, size⟩ x inside
  · exact fun other => disjoint_ctx_of_stack (aside r mem) f fits x other inside

theorem Kept.load {c d : Core W} (kept : Kept others c d) (aside : Aside (c.regs 10) others)
    {f : RuntimeField} {n : Nat} (below : f.offset + n ≤ 176) :
    d.mem.load (ctxAddr (c.regs 10) f) n = c.mem.load (ctxAddr (c.regs 10) f) n :=
  Mem.load_congr (by omega) fun _ inside => kept.field aside below inside

/-- The helpers matchers call write no memory and do not change what is observed. -/
structure QuietHelpers (env : Env W BfElfstubId) (obs : W → X) : Prop where
  lookup : ∀ args mem world, (env.helper bpfFuncMapLookupElem args mem world).mem = mem ∧
    obs (env.helper bpfFuncMapLookupElem args mem world).world = obs world
  random : ∀ args mem world, (env.helper bpfFuncGetPrandomU32 args mem world).mem = mem ∧
    obs (env.helper bpfFuncGetPrandomU32 args mem world).world = obs world

theorem QuietHelpers.keeps {obs : W → X} (quiet : QuietHelpers env obs)
    (others : List (Addr × Nat)) :
    CalmRelation env fun c d => Kept others c d ∧ obs d.world = obs c.world where
  refl c := ⟨.refl _ c, rfl⟩
  trans first second := ⟨first.1.trans second.1, second.2.trans first.2⟩
  setReg c _ free v := ⟨(Kept.refl _ c).setReg free v, rfl⟩
  lookup c := ⟨(Kept.refl _ c).call (quiet.lookup _ _ _).1, (quiet.lookup _ _ _).2⟩
  random c := ⟨(Kept.refl _ c).call (quiet.random _ _ _).1, (quiet.random _ _ _).2⟩

/-- A matcher of a verified program keeps the context. -/
theorem matcherOutcome_kept {obs : W → X} (quiet : QuietHelpers env obs) {host : Host}
    {chain : BfChain} {m : BfMatcher} (bounded : StackBounded (matcherSlots host chain m))
    (c : Core W) :
    Kept others c (matcherOutcome env maps host chain m c).core ∧
      obs (matcherOutcome env maps host chain m c).core.world = obs c.world := by
  refine (matcherOutcome_of_calm (calm_matcherSlots (quiet.keeps others) host chain m ?_) c).1
  intro isSet size src off mem d v
  rw [matcherSlots, isSet] at bounded
  obtain ⟨k, rfl, inside⟩ := setSlots_scratch chain m bounded size src off mem
  exact ⟨.storeScratch d inside v, rfl⟩

/-! ## Effects -/

/-- A mark is stored in the packet's metadata. -/
def markRange (arg : BitVec 64) : Addr × Nat := (arg + uSkBuffMark.signExtend 64, 4)

/-- A store to a range that is listed. -/
theorem Kept.storeOther {c d : Core W} (kept : Kept others c d) {a : Addr} {n : Nat}
    (listed : (a, n) ∈ others) (v : BitVec 64) : Kept others c (d.storeMem a n v) := by
  refine ⟨kept.frame, kept.l3, kept.l4, kept.mem.trans ?_⟩
  refine (Mem.SameOutside.store d.mem a n v).mono ?_
  intro r mem
  rw [List.mem_singleton.mp mem]
  exact List.mem_cons_of_mem _ listed

/-- The mark of a rule goes to a range that is listed. -/
theorem perform_mark_kept (value : BitVec 32) {c : Core W}
    (listed : markRange (c.mem.load (ctxAddr (c.regs 10) .arg) 8) ∈ others) :
    Kept others c ((Effect.mark value).perform env maps c) ∧
      ((Effect.mark value).perform env maps c).world = c.world := by
  simp only [Effect.perform]
  refine ⟨?_, ?_⟩
  · apply Kept.storeOther
    · exact ((Kept.refl _ c).setReg (by decide) _).setReg (by decide) _
    · exact listed
  · rw [Core.storeMem_world, Core.setReg_world, Core.setReg_world]

/-- What a rule hands to the log stub. -/
def logArgs (index : BitVec 32) (headers : BitVec 8) (c : Core W) : Args :=
  ⟨ctxAddr (c.regs 10) .arg, index.signExtend 64, (headers.setWidth 32).signExtend 64, c.regs 7,
    c.regs 8⟩

/-- The effect of a rule that logs is a call of its stub. -/
theorem perform_log_kept (index : BitVec 32) (headers : BitVec 8) {c : Core W}
    (quiet : ∀ args mem world, (env.sub .log args mem world).mem = mem) :
    Kept others c ((Effect.log index headers).perform env maps c) ∧
      ((Effect.log index headers).perform env maps c).world =
        (env.sub .log (logArgs index headers c) c.mem c.world).world := by
  simp only [Effect.perform]
  refine ⟨?_, ?_⟩
  · refine Kept.call ?_ (quiet _ _ _)
    exact ((((((Kept.refl _ c).setReg (by decide) _).setReg (by decide) _).setReg (by decide)
      _).setReg (by decide) _).setReg (by decide) _)
  · rw [Core.call_world]
    congr 1

/-- What a rule hands to the counter stub. -/
def counterArgs (env : Env W BfElfstubId) (maps : BfMaps) (index : BitVec 32) (c : Core W) : Args :=
  ⟨ctxAddr (c.regs 10) .arg, env.mapAddr maps.cmap, index.setWidth 64, c.regs 4, c.regs 5⟩

/-- The effect of a rule that counts is a call of its stub. -/
theorem perform_counter_kept (index : BitVec 32) {c : Core W}
    (quiet : ∀ args mem world, (env.sub .updateCounters args mem world).mem = mem) :
    Kept others c ((Effect.counter index).perform env maps c) ∧
      ((Effect.counter index).perform env maps c).world =
        (env.sub .updateCounters (counterArgs env maps index c) c.mem c.world).world := by
  simp only [Effect.perform]
  refine ⟨?_, ?_⟩
  · refine Kept.call ?_ (quiet _ _ _)
    exact ((((Kept.refl _ c).setReg (by decide) _).setReg (by decide) _).setReg (by decide) _)
  · rw [Core.call_world]
    congr 1

/-! ## Along the rules -/

section Along

variable {outcome : BfMatcher → Core W → Matched W} {I : List Effect → Core W → Prop}
  {rules : List BfRule}

variable (env maps outcome) in
/-- Try rules that do not decide: their effects and the state behind them, `none` when one of
them decides. -/
def passRules : List BfRule → Core W → Option (List Effect × Core W)
  | [], c => some ([], c)
  | rule :: rules, c =>
      match matchAll outcome rule.matchers c with
      | .no c' => passRules rules c'
      | .yes c' =>
          if rule.verdict.isTerminal then none
          else (passRules rules (performAll env maps rule.effects c')).map fun passed =>
            (rule.effects ++ passed.1, passed.2)

variable (env maps outcome I rules) in
/-- A property of the effects so far and the state: the matchers of the rules keep it, and
their effects extend it. -/
structure Follows : Prop where
  matcher : ∀ rule ∈ rules, ∀ m ∈ rule.matchers, ∀ effects c, I effects c →
    I effects (outcome m c).core
  effect : ∀ rule ∈ rules, ∀ e ∈ rule.effects, ∀ effects c, I effects c →
    I (effects ++ [e]) (e.perform env maps c)

theorem Follows.tail {rule : BfRule} (follows : Follows env maps outcome I (rule :: rules)) :
    Follows env maps outcome I rules :=
  ⟨fun r mem => follows.matcher r (List.mem_cons_of_mem _ mem),
    fun r mem => follows.effect r (List.mem_cons_of_mem _ mem)⟩

theorem matchAll_keeps {effects : List Effect} {ms : List BfMatcher}
    (keeps : ∀ m ∈ ms, ∀ c, I effects c → I effects (outcome m c).core) {c : Core W}
    (start : I effects c) : I effects (matchAll outcome ms c).core := by
  induction ms generalizing c with
  | nil => exact start
  | cons m ms ih =>
      have here := keeps m List.mem_cons_self c start
      rw [matchAll]
      cases out : outcome m c with
      | yes c' =>
          rw [out] at here
          exact ih (fun m' mem => keeps m' (List.mem_cons_of_mem _ mem)) here
      | no c' =>
          rw [out] at here
          exact here

theorem performAll_extends {more : List Effect}
    (extend : ∀ e ∈ more, ∀ effects c, I effects c → I (effects ++ [e]) (e.perform env maps c))
    {effects : List Effect} {c : Core W} (start : I effects c) :
    I (effects ++ more) (performAll env maps more c) := by
  induction more generalizing effects c with
  | nil => simpa [performAll] using start
  | cons e more ih =>
      have here := extend e List.mem_cons_self effects c start
      have rest := ih (fun e' mem => extend e' (List.mem_cons_of_mem _ mem)) here
      rwa [List.append_assoc] at rest

/-- The state in which the matchers of the first rule have been tried. -/
theorem Follows.matchAll {rule : BfRule} (follows : Follows env maps outcome I (rule :: rules))
    {effects : List Effect} {c : Core W} (start : I effects c) :
    I effects (matchAll outcome rule.matchers c).core :=
  matchAll_keeps (fun m mem c => follows.matcher rule List.mem_cons_self m mem effects c) start

/-- The property at a later rule. -/
theorem Follows.passRules (follows : Follows env maps outcome I rules) {effects more : List Effect}
    {c d : Core W} (start : I effects c)
    (passed : passRules env maps outcome rules c = some (more, d)) : I (effects ++ more) d := by
  induction rules generalizing effects more c with
  | nil =>
      cases passed
      rwa [List.append_nil]
  | cons rule rules ih =>
      have tried := follows.matchAll start
      rw [Bpfilter.passRules] at passed
      cases all : Bpfilter.matchAll outcome rule.matchers c with
      | no c' =>
          rw [all] at passed tried
          exact ih follows.tail tried passed
      | yes c' =>
          simp only [all] at passed tried
          split_ifs at passed
          obtain ⟨⟨later, d'⟩, rest, same⟩ := Option.map_eq_some_iff.mp passed
          cases same
          have acted := performAll_extends (follows.effect rule List.mem_cons_self) tried
          have after := ih follows.tail acted rest
          rwa [List.append_assoc] at after

end Along

end Bpfilter
