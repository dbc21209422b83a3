/-
# Xlate.IptGenerate -- the ruleset as an iptables blob

`_bf_ipt_gen_ipt_replace` lays out the chains of the iptables front end behind a
`struct ipt_replace`: a pass over the codegens counts the entries, a pass over the
hooks sets the offsets, and the entries are written through a pointer that moves on
with each of them.  Chains that iptables expects and that are missing are replaced by
empty ones.

The memory is zeroed, so an entry is written once, at the pointer, with everything
that is stored into it.  `Holds` is what the memory has to agree with: the bytes of
the entries one after the other.  From that, the entries of a hook are tiled
(`Holds.tiles`), and decoding the blob gives the chains back.
`replace_faithful_iff` has the one condition: the size field is 32 bits wide.
-/
import Bpfilter.Daemon.Requests
import Bpfilter.Xlate.IptBlob
import Bpfilter.Xlate.IptRoundTrip

namespace Bpfilter

set_option autoImplicit false

open Ebpf (Byte)

/-! ## The ruleset -/

/-- `struct bf_ipt_gen_ruleset_entry`: a chain, and whether it has a codegen. -/
structure IptRulesetEntry where
  chain : BfChain
  cgen : Bool

abbrev IptRuleset := BfNfInetHook → Option IptRulesetEntry

def IptRuleset.put (ruleset : IptRuleset) (hook : BfNfInetHook) (entry : IptRulesetEntry) :
    IptRuleset :=
  fun other => if other = hook then some entry else ruleset other

/-- The codegens of the iptables front end, by hook, and the number of their entries.  A
hook that is no Netfilter hook is an index outside the array. -/
def iptCollectRuleset : List BfChain → IptRuleset → Nat → Except GenErr (IptRuleset × Nat)
  | [], ruleset, nrules => .ok (ruleset, nrules)
  | chain :: rest, ruleset, nrules =>
      match bfHookToNfHook chain.hook with
      | none => .error .undefined
      | some hook =>
          iptCollectRuleset rest (ruleset.put hook ⟨chain, true⟩) (nrules + (chain.rules.length + 1))

/-- The chain iptables gets for a hook without codegen. -/
def iptDummy (hook : BfNfInetHook) : BfChain :=
  bfChainNew (bfNfHookToStr hook) (bfHookFromNfHook hook) .accept [] []

/-- The hooks from `BF_NF_INET_LOCAL_IN` to `BF_NF_INET_LOCAL_OUT`. -/
def iptMandatory : List BfNfInetHook := [.localIn, .forward, .localOut]

def iptAddDummies : List BfNfInetHook → IptRuleset → Nat → IptRuleset × Nat
  | [], ruleset, nrules => (ruleset, nrules)
  | hook :: rest, ruleset, nrules =>
      match ruleset hook with
      | some _ => iptAddDummies rest ruleset nrules
      | none => iptAddDummies rest (ruleset.put hook ⟨iptDummy hook, false⟩) (nrules + 1)

/-- `_bf_ipt_gen_get_ruleset` -/
def bfIptGenGetRuleset (cgens : List BfChain) : Except GenErr (IptRuleset × Nat) := do
  let (ruleset, nrules) ← iptCollectRuleset cgens (fun _ => none) 0
  .ok (iptAddDummies iptMandatory ruleset nrules)

/-! ## The entries -/

def leBytes64 (v : BitVec 64) : List Byte :=
  leBytes32 (v.setWidth 32) ++ leBytes32 ((v >>> 32).setWidth 32)

def zeros (n : Nat) : List Byte := List.replicate n 0

/-- `struct bf_counter` -/
structure BfCounter where
  packets : BitVec 64 := 0
  bytes : BitVec 64 := 0
  deriving DecidableEq, Repr

/-- `rule_size` -/
def iptRuleSize : Nat := sizeofIptEntry + sizeofStandardTarget

/-- `err_size` -/
def iptErrSize : Nat := sizeofIptEntry + 64

/-- An entry with a standard target, as it is stored. -/
def entryBytes (entry : IptEntry) (counter : BfCounter) : List Byte :=
  leBytes32 entry.ip.src ++ leBytes32 entry.ip.dst ++ leBytes32 entry.ip.smsk ++
    leBytes32 entry.ip.dmsk ++ zeros 64 ++ leBytes16 entry.ip.proto ++ [0, entry.ip.invflags] ++
    zeros 4 ++ leBytes16 entry.targetOffset ++ leBytes16 entry.nextOffset ++ zeros 4 ++
    leBytes64 counter.packets ++ leBytes64 counter.bytes ++
    leBytes16 entry.target.targetSize ++ zeros 30 ++ leBytes32 entry.target.verdict ++ zeros 4

/-- "ERROR" -/
def errorName : List Byte := [0x45, 0x52, 0x52, 0x4f, 0x52]

/-- The last entry, with an error target. -/
def errorBytes : List Byte :=
  zeros 88 ++ leBytes16 (BitVec.ofNat 16 sizeofIptEntry) ++ leBytes16 (BitVec.ofNat 16 iptErrSize) ++
    zeros 20 ++ leBytes16 64 ++ errorName ++ zeros 25 ++ errorName ++ zeros 27

/-- Store bytes at an offset. -/
def storeBytes (mem : Nat → Byte) (off : Nat) (bytes : List Byte) : Nat → Byte :=
  fun i => if i < off then mem i else bytes.getD (i - off) (mem i)

/-- The entries behind the header, and the offset of `entry` in them. -/
structure IptCursor where
  byte : Nat → Byte := fun _ => 0
  entry : Nat := 0

/-- Write an entry where the pointer is, and move on. -/
def IptCursor.write (cursor : IptCursor) (entry : IptEntry) (counter : BfCounter) : IptCursor where
  byte := storeBytes cursor.byte cursor.entry (entryBytes entry counter)
  entry := cursor.entry + iptRuleSize

/-- `BF_COUNTER_POLICY` -/
def bfCounterPolicy : Int := -2

/-- What `bf_cgen_get_counter` returns for the codegen of a hook. -/
abbrev CounterReader := BfNfInetHook → Int → Except Errno BfCounter

/-- The counter of an entry: zero unless it is asked for and there is a codegen. -/
def iptCounter (reader : Option CounterReader) (cgen : Bool) (hook : BfNfInetHook) (index : Int) :
    Except GenErr BfCounter :=
  match reader with
  | none => .ok {}
  | some read =>
      if cgen then
        match read hook index with
        | .ok counter => .ok counter
        | .error e => .error (.errno e)
      else .ok {}

/-- The rule loop of `_bf_ipt_gen_ipt_replace`. -/
def iptGenRules (reader : Option CounterReader) (cgen : Bool) (hook : BfNfInetHook) :
    List BfRule → IptCursor → Except GenErr IptCursor
  | [], cursor => .ok cursor
  | rule :: rest, cursor => do
      let entry ← bfRuleToIptEntry rule blankEntry
      let counter ← iptCounter reader cgen hook rule.index.toNat
      iptGenRules reader cgen hook rest (cursor.write entry counter)

/-- The entry of a chain's policy. -/
def iptGenPolicy (reader : Option CounterReader) (cgen : Bool) (hook : BfNfInetHook)
    (policy : BfVerdict) (cursor : IptCursor) : Except GenErr IptCursor := do
  let counter ← iptCounter reader cgen hook bfCounterPolicy
  let target ← bfVerdictToIptTarget policy blankEntry.target
  .ok (cursor.write { blankEntry with target } counter)

/-- The state of the loop over the hooks. -/
structure IptGen where
  validHooks : BitVec 32 := 0
  hookEntry : BfNfInetHook → BitVec 32 := fun _ => 0
  underflow : BfNfInetHook → BitVec 32 := fun _ => 0
  nextChainOff : Nat := 0
  cursor : IptCursor := {}

/-- The loop over the hooks: a chain's offsets, its rules and its policy. -/
def iptGenHooks (reader : Option CounterReader) (ruleset : IptRuleset) :
    List BfNfInetHook → IptGen → Except GenErr IptGen
  | [], gen => .ok gen
  | hook :: rest, gen =>
      match ruleset hook with
      | none => iptGenHooks reader ruleset rest gen
      | some ⟨chain, cgen⟩ => do
          let cursor ← iptGenRules reader cgen hook chain.rules gen.cursor
          let cursor ← iptGenPolicy reader cgen hook chain.policy cursor
          iptGenHooks reader ruleset rest {
            validHooks := gen.validHooks ||| (1 <<< hook.index)
            hookEntry := fun other =>
              if other = hook then BitVec.ofNat 32 gen.nextChainOff else gen.hookEntry other
            underflow := fun other =>
              if other = hook then
                BitVec.ofNat 32 (gen.nextChainOff + chain.rules.length * iptRuleSize)
              else gen.underflow other
            nextChainOff := gen.nextChainOff + (chain.rules.length + 1) * iptRuleSize
            cursor }

/-- What `_bf_ipt_gen_ipt_replace` returns: the header's count next to what is decoded. -/
structure IptOutput where
  numEntries : BitVec 32
  blob : IptBlob

/-- `_bf_ipt_gen_ipt_replace`, with a reader of counters for `with_counters`. -/
def bfIptGenIptReplace (cgens : List BfChain) (reader : Option CounterReader) :
    Except GenErr IptOutput := do
  let (ruleset, nrules) ← bfIptGenGetRuleset cgens
  let gen ← iptGenHooks reader ruleset bfNfInetHooks {}
  .ok {
    numEntries := BitVec.ofNat 32 (nrules + 1)
    blob := {
      validHooks := gen.validHooks
      hookEntry := gen.hookEntry
      underflow := gen.underflow
      area := {
        size := (BitVec.ofNat 32 (nrules * iptRuleSize + iptErrSize)).toNat
        byte := storeBytes gen.cursor.byte gen.cursor.entry errorBytes } } }

/-! ## Memory -/

/-- The memory starts with the bytes of a list. -/
def Holds (mem : Nat → Byte) (bytes : List Byte) : Prop :=
  ∀ (i : Nat) (byte : Byte), bytes[i]? = some byte → mem i = byte

section Memory

variable {mem : Nat → Byte} {held pre own post : List Byte}

theorem Holds.store (holds : Holds mem held) (new : List Byte) :
    Holds (storeBytes mem held.length new) (held ++ new) := by
  intro i byte at_
  unfold storeBytes
  by_cases before : i < held.length
  · rw [List.getElem?_append_left before] at at_
    rw [if_pos before]
    exact holds i byte at_
  · rw [List.getElem?_append_right (Nat.le_of_not_lt before)] at at_
    rw [if_neg before, List.getD_eq_getElem?_getD, at_]
    rfl

theorem Holds.left (holds : Holds mem (held ++ post)) : Holds mem held := by
  intro i byte at_
  apply holds
  rw [List.getElem?_append_left (List.getElem?_eq_some_iff.mp at_).1]
  exact at_

/-- A field of what is held behind `pre`. -/
theorem Holds.bytes {size : Nat} (holds : Holds mem (pre ++ own)) {k n : Nat}
    (fits : k + n ≤ own.length) :
    IptArea.bytes ⟨size, mem⟩ (pre.length + k) n = (own.drop k).take n := by
  apply List.ext_getElem?
  intro j
  unfold IptArea.bytes
  rw [List.getElem?_map, List.getElem?_take]
  by_cases inside : j < n
  · have there : (pre ++ own)[pre.length + k + j]? = own[k + j]? := by
      rw [List.getElem?_append_right (by omega)]
      congr 1
      omega
    have present : own[k + j]? = some (own.get ⟨k + j, by omega⟩) :=
      List.getElem?_eq_getElem _
    rw [List.getElem?_range inside, if_pos inside, List.getElem?_drop, present]
    exact congrArg some (holds _ _ (there.trans present))
  · rw [if_neg inside, List.getElem?_eq_none (by simpa using inside)]
    rfl

end Memory

/-- An entry as it is read back from memory. -/
def IptEntry.stored (entry : IptEntry) : IptEntry :=
  { entry with
    ip := { entry.ip with iniface := zeros 16, outiface := zeros 16 }
    target := { entry.target with name := "" } }

/-- The offsets every entry gets that is written. -/
structure IptEntry.Standard (entry : IptEntry) : Prop where
  targetOffset : entry.targetOffset = BitVec.ofNat 16 sizeofIptEntry
  nextOffset : entry.nextOffset = BitVec.ofNat 16 iptRuleSize

theorem entryBytes_length (entry : IptEntry) (counter : BfCounter) :
    (entryBytes entry counter).length = iptRuleSize := by
  simp [entryBytes, leBytes32, leBytes16, leBytes64, zeros, iptRuleSize, sizeofIptEntry,
    sizeofStandardTarget]

/-- Where the fields of an entry are in its bytes. -/
structure Fields (entry : IptEntry) (field : Nat → Nat → List Byte) : Prop where
  src : field 0 4 = leBytes32 entry.ip.src
  dst : field 4 4 = leBytes32 entry.ip.dst
  smsk : field 8 4 = leBytes32 entry.ip.smsk
  dmsk : field 12 4 = leBytes32 entry.ip.dmsk
  iniface : field 16 16 = zeros 16
  outiface : field 32 16 = zeros 16
  proto : field 80 2 = leBytes16 entry.ip.proto
  invflags : field 83 1 = [entry.ip.invflags]
  targetOffset : field 88 2 = leBytes16 entry.targetOffset
  nextOffset : field 90 2 = leBytes16 entry.nextOffset
  targetSize : field 112 2 = leBytes16 entry.target.targetSize
  targetName : field 114 29 = zeros 29
  verdict : field 144 4 = leBytes32 entry.target.verdict

theorem entryBytes_fields (entry : IptEntry) (counter : BfCounter) :
    Fields entry fun k n => ((entryBytes entry counter).drop k).take n := by
  constructor <;> simp [entryBytes, leBytes32, leBytes16, leBytes64, zeros, List.replicate]

section Entry

variable {mem : Nat → Byte} {pre : List Byte} {stored : IptEntry} {counter : BfCounter}
  {size : Nat}

/-- An entry that was written, read back. -/
theorem Holds.fields (holds : Holds mem (pre ++ entryBytes stored counter)) :
    Fields stored fun k n => IptArea.bytes ⟨size, mem⟩ (pre.length + k) n := by
  have fields := entryBytes_fields stored counter
  constructor <;> rw [holds.bytes (by rw [entryBytes_length]; decide)]
  · exact fields.src
  · exact fields.dst
  · exact fields.smsk
  · exact fields.dmsk
  · exact fields.iniface
  · exact fields.outiface
  · exact fields.proto
  · exact fields.invflags
  · exact fields.targetOffset
  · exact fields.nextOffset
  · exact fields.targetSize
  · exact fields.targetName
  · exact fields.verdict

theorem Fields.ip {area : IptArea} {off : Nat}
    (fields : Fields stored fun k n => area.bytes (off + k) n) : area.ip off = stored.stored.ip := by
  have byte : area.byte (off + 83) = stored.ip.invflags := by
    have single := fields.invflags
    simpa [IptArea.bytes] using single
  have src : area.bytes off 4 = _ := fields.src
  simp only [IptArea.ip, IptArea.u32, IptArea.u16, src, fields.dst, fields.smsk, fields.dmsk,
    fields.iniface, fields.outiface, fields.proto, byte, leBits_leBytes32, leBits_leBytes16,
    IptEntry.stored]

/-- An entry that was written is tiled. -/
theorem Holds.tiled (holds : Holds mem (pre ++ entryBytes stored counter))
    (standard : stored.Standard) (fits : pre.length + iptRuleSize ≤ size) :
    EntryTiled ⟨size, mem⟩ pre.length stored.stored := by
  have fields := @Holds.fields _ _ _ _ size holds
  have small : sizeofIptEntry ≤ iptRuleSize := by decide
  have offset : stored.targetOffset.toNat = sizeofIptEntry := by rw [standard.targetOffset]; rfl
  have next : stored.nextOffset.toNat = iptRuleSize := by rw [standard.nextOffset]; rfl
  have entry : entryAt ⟨size, mem⟩ pre.length = .ok { stored.stored with target := {} } := by
    rw [entryAt, if_pos (Nat.le_trans (Nat.add_le_add_left small _) fits), fields.ip]
    simp only [IptArea.u16, fields.targetOffset, fields.nextOffset, leBits_leBytes16]
    rfl
  have name : IptArea.cString (zeros 29) = "" := by decide
  have target : targetAt ⟨size, mem⟩ (pre.length + sizeofIptEntry) = .ok stored.stored.target := by
    have nameBytes : IptArea.bytes ⟨size, mem⟩ (pre.length + sizeofIptEntry + 2) 29 = _ :=
      fields.targetName
    have verdict : IptArea.bytes ⟨size, mem⟩ (pre.length + sizeofIptEntry + 32) 4 = _ :=
      fields.verdict
    have sized : IptArea.bytes ⟨size, mem⟩ (pre.length + sizeofIptEntry) 2 = _ := fields.targetSize
    have room : pre.length + sizeofIptEntry + sizeofStandardTarget ≤ size := fits
    have header : pre.length + sizeofIptEntry + sizeofEntryTarget ≤ size :=
      Nat.le_trans (Nat.add_le_add_left (by decide) _) room
    rw [targetAt, if_pos header]
    simp only [nameBytes, name, if_true, IptArea.u16, IptArea.u32, sized, verdict, leBits_leBytes16,
      leBits_leBytes32]
    rw [if_pos room]
    rfl
  refine ⟨?_, ?_, ?_, ?_⟩
  · rw [fullEntryAt, entry]
    show (targetAt ⟨size, mem⟩ (pre.length + stored.targetOffset.toNat) >>= _) = _
    rw [offset, target]
    rfl
  · exact Nat.le_of_eq offset.symm
  · show stored.targetOffset.toNat + IptTarget.length stored.stored.target ≤ stored.nextOffset.toNat
    rw [offset, next]
    exact Nat.le_refl _
  · show pre.length + stored.nextOffset.toNat ≤ size
    rw [next]
    exact fits

end Entry

/-! ## Entries in a row -/

/-- The bytes of entries one after the other. -/
def laidBytes (laid : List (IptEntry × BfCounter)) : List Byte :=
  laid.flatMap fun (entry, counter) => entryBytes entry counter

theorem laidBytes_length (laid : List (IptEntry × BfCounter)) :
    (laidBytes laid).length = laid.length * iptRuleSize := by
  induction laid with
  | nil => simp [laidBytes]
  | cons head rest ih =>
      rw [laidBytes, List.flatMap_cons, List.length_append, entryBytes_length]
      rw [laidBytes] at ih
      rw [ih, List.length_cons, Nat.succ_mul, Nat.add_comm]

theorem laidBytes_append (laid more : List (IptEntry × BfCounter)) :
    laidBytes (laid ++ more) = laidBytes laid ++ laidBytes more := List.flatMap_append

/-- Follow `next_offset` a number of times. -/
def walkTo (area : IptArea) : Nat → Nat → Nat
  | 0, off => off
  | n + 1, off => walkTo area n (off + (area.u16 (off + 90)).toNat)

section Laid

variable {mem : Nat → Byte} {size : Nat} {laid : List (IptEntry × BfCounter)}

theorem Holds.tiles {pre : List Byte} (holds : Holds mem (pre ++ laidBytes laid))
    (standard : ∀ entry ∈ laid, entry.1.Standard)
    (fits : pre.length + laid.length * iptRuleSize ≤ size) :
    Tiles ⟨size, mem⟩ (pre.length + laid.length * iptRuleSize) pre.length
      (laid.map fun entry => entry.1.stored) := by
  induction laid generalizing pre with
  | nil =>
      rw [List.length_nil, Nat.zero_mul, Nat.add_zero]
      exact .nil
  | cons head rest ih =>
      obtain ⟨entry, counter⟩ := head
      obtain ⟨first, standard⟩ := List.forall_mem_cons.mp standard
      have split : pre ++ laidBytes ((entry, counter) :: rest) =
          pre ++ entryBytes entry counter ++ laidBytes rest := by
        rw [List.append_assoc]
        rfl
      have length : (pre ++ entryBytes entry counter).length = pre.length + iptRuleSize := by
        rw [List.length_append, entryBytes_length]
      rw [split] at holds
      rw [List.length_cons, Nat.succ_mul, Nat.add_comm (_ * _), ← Nat.add_assoc] at fits ⊢
      have next : entry.stored.nextOffset.toNat = iptRuleSize := by
        show entry.nextOffset.toNat = _
        rw [first.nextOffset]
        rfl
      refine .cons (holds.left.tiled first (by omega)) ?_
      rw [next, ← length]
      rw [← length] at fits
      exact ih holds standard fits

/-- The walk over entries that were written takes them one by one. -/
theorem Holds.walk {pre : List Byte} (holds : Holds mem (pre ++ laidBytes laid))
    (standard : ∀ entry ∈ laid, entry.1.Standard) {n : Nat} (inside : n ≤ laid.length) :
    walkTo ⟨size, mem⟩ n pre.length = pre.length + n * iptRuleSize := by
  induction laid generalizing pre n with
  | nil =>
      obtain rfl := Nat.le_zero.mp inside
      rw [walkTo, Nat.zero_mul, Nat.add_zero]
  | cons head rest ih =>
      cases n with
      | zero => rw [walkTo, Nat.zero_mul, Nat.add_zero]
      | succ n =>
          obtain ⟨entry, counter⟩ := head
          obtain ⟨first, standard⟩ := List.forall_mem_cons.mp standard
          have split : pre ++ laidBytes ((entry, counter) :: rest) =
              pre ++ entryBytes entry counter ++ laidBytes rest := by
            rw [List.append_assoc]
            rfl
          have length : (pre ++ entryBytes entry counter).length = pre.length + iptRuleSize := by
            rw [List.length_append, entryBytes_length]
          rw [split] at holds
          have field := (@Holds.fields _ _ _ _ size holds.left).nextOffset
          have next : (IptArea.u16 ⟨size, mem⟩ (pre.length + 90)).toNat = iptRuleSize := by
            rw [IptArea.u16, field, leBits_leBytes16, first.nextOffset]
            rfl
          rw [walkTo, next, ← length, ih holds standard (Nat.le_of_succ_le_succ inside), length,
            Nat.succ_mul]
          omega

end Laid

/-! ## Rules -/

/-- An address of an entry is a single host, or absent. -/
def HostOrAbsent (addr mask : BitVec 32) : Prop := mask = 0xffffffff ∨ addr = 0 ∧ mask = 0

/-- An entry whose addresses are single hosts or absent. -/
structure IptEntry.Hosts (entry : IptEntry) : Prop where
  src : HostOrAbsent entry.ip.src entry.ip.smsk
  dst : HostOrAbsent entry.ip.dst entry.ip.dmsk

theorem HostOrAbsent.netmask {addr mask : BitVec 32} (host : HostOrAbsent addr mask) :
    ∃ n, (n = 32 ∨ n = 0 ∧ addr = 0) ∧ mask = netmask n := by
  obtain rfl | ⟨blank, rfl⟩ := host
  · exact ⟨32, .inl rfl, by decide⟩
  · exact ⟨0, .inr ⟨rfl, blank⟩, by decide⟩

/-- A verdict that is written is read back. -/
theorem target_forth {verdict : BfVerdict} {target blank : IptTarget}
    (written : bfVerdictToIptTarget verdict blank = .ok target) :
    bfIptTargetToVerdict { target with name := "" } = .ok verdict := by
  cases verdict with
  | accept =>
      cases written
      rfl
  | drop =>
      cases written
      rfl
  | «continue» => cases written

/-- The parts of an entry that was translated. -/
theorem bfIptEntryToRule_inv {entry : IptEntry} {rule : BfRule}
    (made : bfIptEntryToRule entry = .ok rule) :
    ∃ src dst proto verdict, iptSrcMatcher entry.ip = .ok src ∧ iptDstMatcher entry.ip = .ok dst ∧
      iptProtoMatcher entry.ip = .ok proto ∧ bfIptTargetToVerdict entry.target = .ok verdict ∧
      rule = { matchers := src ++ dst ++ proto, counters := true, verdict } := by
  unfold bfIptEntryToRule at made
  split at made
  · cases made
  · split at made
    · cases made
    · obtain ⟨src, okS, made⟩ := bind_eq_ok made
      obtain ⟨dst, okD, made⟩ := bind_eq_ok made
      obtain ⟨proto, okP, made⟩ := bind_eq_ok made
      obtain ⟨verdict, okV, made⟩ := bind_eq_ok made
      cases made
      exact ⟨src, dst, proto, verdict, okS, okD, okP, okV, rfl⟩

theorem bfIptEntryToRule_of_parts {entry : IptEntry} {src dst proto : List BfMatcher}
    {verdict : BfVerdict} (near : entry.targetOffset.toNat ≤ sizeofIptEntry)
    (iniface : entry.ip.iniface.headD 0 = 0) (outiface : entry.ip.outiface.headD 0 = 0)
    (okS : iptSrcMatcher entry.ip = .ok src) (okD : iptDstMatcher entry.ip = .ok dst)
    (okP : iptProtoMatcher entry.ip = .ok proto)
    (okV : bfIptTargetToVerdict entry.target = .ok verdict) :
    bfIptEntryToRule entry = .ok { matchers := src ++ dst ++ proto, counters := true, verdict } := by
  unfold bfIptEntryToRule
  rw [if_neg (Nat.not_lt.mpr near), if_neg (by rw [iniface, outiface]; simp), okS, okD, okP, okV]
  rfl

/-- The inversion flags that are written are read back. -/
theorem inverted_flagged (src dst : Bool) :
    decide (flagged dst iptInvDstip (flagged src iptInvSrcip 0) &&& iptInvSrcip ≠ 0) = src ∧
      decide (flagged dst iptInvDstip (flagged src iptInvSrcip 0) &&& iptInvDstip ≠ 0) = dst := by
  cases src <;> cases dst <;> decide

/-- An address that was read back gives the matcher of the address. -/
theorem iptAddrMatcher_back {addrType netType : BfMatcherType} {addr mask addr' mask' : BitVec 32}
    {n : Nat} {inverted inverted' : Bool} (side : n = 32 ∨ n = 0 ∧ addr = 0)
    (same : mask = netmask n)
    (given : n ≠ 0 → addr' = addr ∧ returnedMask n = .ok mask')
    (none : n = 0 → addr' = 0 ∧ mask' = 0) (flag : inverted' = (decide (n ≠ 0) && inverted)) :
    iptAddrMatcher addrType netType addr' mask' inverted' =
      iptAddrMatcher addrType netType addr mask inverted := by
  subst same
  obtain rfl | ⟨rfl, rfl⟩ := side
  · obtain ⟨rfl, returned⟩ := given (by decide)
    cases returned
    rw [flag]
    rfl
  · obtain ⟨rfl, rfl⟩ := none rfl
    rfl

/-- A rule made from an entry of single hosts is written and read back. -/
theorem host_rule_back {entry : IptEntry} {rule : BfRule} (hosts : entry.Hosts)
    (made : bfIptEntryToRule entry = .ok rule) :
    ∃ back, (∀ index, bfRuleToIptEntry { rule with index } blankEntry = .ok back) ∧
      back.Standard ∧ bfIptEntryToRule back.stored = .ok rule := by
  obtain ⟨n, sideS, smsk⟩ := hosts.src.netmask
  obtain ⟨k, sideD, dmsk⟩ := hosts.dst.netmask
  have le : n ≤ 32 := by omega
  have le' : k ≤ 32 := by omega
  obtain ⟨src, dst, proto, verdict, okS, okD, okP, okV, rfl⟩ := bfIptEntryToRule_inv made
  obtain ⟨target, -, written⟩ := bfRuleToIptEntry_eq le le' smsk dmsk okS okD okP okV
  have reads (m : Nat) (side : m = 32 ∨ m = 0) (ip : IptIp) (put : BitVec 32 → IptIp) :
      ∃ ip', readsBack m ip put = .ok ip' := by
    obtain rfl | rfl := side <;> exact ⟨_, rfl⟩
  obtain ⟨ip, first⟩ := reads n (by omega) {} (putSrc {} entry.ip.src (entry.ip.inverted iptInvSrcip))
  obtain ⟨ip', second⟩ :=
    reads k (by omega) ip (putDst ip entry.ip.dst (entry.ip.inverted iptInvDstip))
  rw [first, Except.bind, second, Except.bind] at written
  obtain ⟨flags, givenS, noneS, givenD, noneD⟩ := read_back first second
  refine ⟨_, fun index => written, ⟨rfl, rfl⟩, ?_⟩
  obtain ⟨inS, inD⟩ := inverted_flagged (decide (n ≠ 0) && entry.ip.inverted iptInvSrcip)
    (decide (k ≠ 0) && entry.ip.inverted iptInvDstip)
  rw [← flags] at inS inD
  have backS : iptAddrMatcher .ip4Saddr .ip4Snet ip'.src ip'.smsk (ip'.inverted iptInvSrcip) =
      .ok src := (iptAddrMatcher_back sideS smsk givenS noneS inS).trans okS
  have backD : iptAddrMatcher .ip4Daddr .ip4Dnet ip'.dst ip'.dmsk (ip'.inverted iptInvDstip) =
      .ok dst := (iptAddrMatcher_back sideD dmsk givenD noneD inD).trans okD
  have backV : bfIptTargetToVerdict { target with name := "" } = .ok verdict := by
    obtain ⟨_, -, rest⟩ := bind_eq_ok written
    obtain ⟨target', okT, done⟩ := bind_eq_ok rest
    cases done
    exact target_forth okT
  exact bfIptEntryToRule_of_parts (Nat.le_refl sizeofIptEntry) rfl rfl backS backD okP backV

/-! ## Chains -/

/-- A chain of the iptables front end whose entries had single hosts or no addresses. -/
def IptBuilt (hook : BfNfInetHook) (chain : BfChain) : Prop :=
  ∃ rules : IptHookEntries, bfIptEntriesToChain hook rules = .ok chain ∧
    ∀ entry ∈ rules.entries, entry.Hosts

/-- The entry a rule is written as. -/
def WrittenAs (rule : BfRule) (entry : IptEntry) : Prop :=
  bfRuleToIptEntry rule blankEntry = .ok entry ∧ entry.Standard

theorem iptAddRules_back {entries : List IptEntry} {start chain : BfChain}
    (hosts : ∀ entry ∈ entries, entry.Hosts) (ran : iptAddRules entries start = .ok chain) :
    chain.policy = start.policy ∧ ∃ rules back, chain.rules = start.rules ++ rules ∧
      List.Forall₂ WrittenAs rules back ∧
        iptAddRules (back.map IptEntry.stored) start = .ok chain := by
  induction entries generalizing start with
  | nil =>
      cases ran
      exact ⟨rfl, [], [], (List.append_nil _).symm, .nil, rfl⟩
  | cons entry rest ih =>
      obtain ⟨first, hosts⟩ := List.forall_mem_cons.mp hosts
      obtain ⟨rule, made, ran⟩ := bind_eq_ok ran
      obtain ⟨policy, rules, back, appended, written, again⟩ := ih hosts ran
      obtain ⟨entry', forth, standard, same⟩ := host_rule_back first made
      refine ⟨policy, { rule with index := BitVec.ofNat 32 start.rules.length } :: rules,
        entry' :: back, ?_, .cons ⟨forth _, standard⟩ written, ?_⟩
      · rw [appended, bfChainAddRule, List.append_assoc]
        rfl
      · rw [List.map_cons, iptAddRules, same]
        exact again

/-- What a chain is written as, and read back from. -/
structure ChainWritten (hook : BfNfInetHook) (chain : BfChain) (back : List IptEntry)
    (target : IptTarget) : Prop where
  rules : List.Forall₂ WrittenAs chain.rules back
  policy : bfVerdictToIptTarget chain.policy blankEntry.target = .ok target
  decoded : bfIptEntriesToChain hook ⟨back.map IptEntry.stored,
    ({ blankEntry with target } : IptEntry).stored⟩ = .ok chain

theorem IptBuilt.written {hook : BfNfInetHook} {chain : BfChain} (built : IptBuilt hook chain) :
    ∃ back target, ChainWritten hook chain back target := by
  obtain ⟨entries, ran, hosts⟩ := built
  obtain ⟨policy, okV, ran⟩ := bind_eq_ok ran
  obtain ⟨same, rules, back, appended, written, again⟩ := iptAddRules_back hosts ran
  obtain ⟨target, okT, -⟩ := @target_back _ blankEntry.target _ okV
  have policy' : chain.policy = policy := same
  refine ⟨back, target, ?_, ?_, ?_⟩
  · rw [appended]
    exact written
  · rw [policy']
    exact okT
  · rw [bfIptEntriesToChain]
    show (bfIptTargetToVerdict { target with name := "" } >>= _) = _
    rw [target_forth okT]
    exact again

theorem iptDummy_built (hook : BfNfInetHook) : IptBuilt hook (iptDummy hook) :=
  ⟨⟨[], { target := { verdict := -2 } }⟩, rfl, fun _ mem => absurd mem List.not_mem_nil⟩

/-! ## The loops -/

/-- The entries written so far, with the pointer behind them. -/
structure CursorAt (cursor : IptCursor) (laid : List (IptEntry × BfCounter)) : Prop where
  holds : Holds cursor.byte (laidBytes laid)
  entry : cursor.entry = laid.length * iptRuleSize
  standard : ∀ entry ∈ laid, entry.1.Standard

/-- The counters that are asked for can be read. -/
def Readable (reader : Option CounterReader) : Prop :=
  ∀ read, reader = some read → ∀ hook index, ∃ counter, read hook index = .ok counter

section Loops

variable {reader : Option CounterReader} {cgen : Bool} {hook : BfNfInetHook} {cursor : IptCursor}
  {laid : List (IptEntry × BfCounter)}

theorem CursorAt.write (at_ : CursorAt cursor laid) {entry : IptEntry} (standard : entry.Standard)
    (counter : BfCounter) : CursorAt (cursor.write entry counter) (laid ++ [(entry, counter)]) := by
  refine ⟨?_, ?_, ?_⟩
  · have stored := at_.holds.store (entryBytes entry counter)
    rw [laidBytes_length, ← at_.entry] at stored
    rw [laidBytes_append]
    simpa [laidBytes, IptCursor.write] using stored
  · rw [List.length_append, List.length_singleton, Nat.succ_mul, ← at_.entry]
    rfl
  · intro other mem
    obtain mem | mem := List.mem_append.mp mem
    · exact at_.standard other mem
    · rw [List.mem_singleton.mp mem]
      exact standard

theorem Readable.counter (readable : Readable reader) (index : Int) :
    ∃ counter, iptCounter reader cgen hook index = .ok counter := by
  unfold iptCounter
  cases reader with
  | none => exact ⟨_, rfl⟩
  | some read =>
      obtain ⟨counter, ran⟩ := readable read rfl hook index
      cases cgen with
      | false => exact ⟨_, rfl⟩
      | true => exact ⟨counter, by simp [ran]⟩

theorem iptGenRules_spec (readable : Readable reader) {rules : List BfRule} {back : List IptEntry}
    (written : List.Forall₂ WrittenAs rules back) (at_ : CursorAt cursor laid) :
    ∃ cursor' own, iptGenRules reader cgen hook rules cursor = .ok cursor' ∧
      own.map Prod.fst = back ∧ CursorAt cursor' (laid ++ own) := by
  induction written generalizing cursor laid with
  | nil => exact ⟨cursor, [], rfl, rfl, by rwa [List.append_nil]⟩
  | @cons rule entry rules back first rest ih =>
      obtain ⟨counter, read⟩ := @Readable.counter _ cgen hook readable rule.index.toNat
      obtain ⟨cursor', own, ran, same, after⟩ := ih (at_.write first.2 counter)
      refine ⟨cursor', (entry, counter) :: own, ?_, ?_, ?_⟩
      · rw [iptGenRules, first.1, read]
        exact ran
      · rw [List.map_cons, same]
      · rwa [List.append_assoc, List.singleton_append] at after

theorem iptGenPolicy_spec (readable : Readable reader) {policy : BfVerdict} {target : IptTarget}
    (written : bfVerdictToIptTarget policy blankEntry.target = .ok target)
    (at_ : CursorAt cursor laid) :
    ∃ cursor' counter, iptGenPolicy reader cgen hook policy cursor = .ok cursor' ∧
      CursorAt cursor' (laid ++ [({ blankEntry with target }, counter)]) := by
  obtain ⟨counter, read⟩ := @Readable.counter _ cgen hook readable bfCounterPolicy
  refine ⟨cursor.write { blankEntry with target } counter, counter, ?_, at_.write ⟨rfl, rfl⟩ counter⟩
  rw [iptGenPolicy, read, written]
  rfl

end Loops

/-- The number of entries a hook takes. -/
def IptRuleset.entries (ruleset : IptRuleset) (hook : BfNfInetHook) : Nat :=
  match ruleset hook with
  | none => 0
  | some entry => entry.chain.rules.length + 1

/-- The number of entries in front of a hook. -/
def IptRuleset.before (ruleset : IptRuleset) (hooks : List BfNfInetHook) (hook : BfNfInetHook) : Nat :=
  ((hooks.takeWhile (· ≠ hook)).map ruleset.entries).sum

/-- A chain is among the entries that were written, and the offsets of its hook say where. -/
def ChainPlaced (gen : IptGen) (laid : List (IptEntry × BfCounter)) (hook : BfNfInetHook)
    (chain : BfChain) (start : Nat) : Prop :=
  ∃ pre own policy post, laid = pre ++ (own ++ policy :: post) ∧ pre.length = start ∧
    own.length = chain.rules.length ∧
    gen.hookEntry hook = BitVec.ofNat 32 (start * iptRuleSize) ∧
    gen.underflow hook = BitVec.ofNat 32 ((start + chain.rules.length) * iptRuleSize) ∧
    bfIptEntriesToChain hook
      ⟨own.map fun entry => entry.1.stored, policy.1.stored⟩ = .ok chain

/-- What the loop over hooks leaves, with the entries it added. -/
structure HooksLaid (ruleset : IptRuleset) (hooks : List BfNfInetHook) (gen gen' : IptGen)
    (laid more : List (IptEntry × BfCounter)) : Prop where
  cursor : CursorAt gen'.cursor (laid ++ more)
  count : more.length = (hooks.map ruleset.entries).sum
  others : ∀ hook ∉ hooks, gen'.hookEntry hook = gen.hookEntry hook ∧
    gen'.underflow hook = gen.underflow hook
  valid : ∀ hook, gen'.validHooks.getLsbD hook.index =
    (gen.validHooks.getLsbD hook.index || (decide (hook ∈ hooks) && (ruleset hook).isSome))
  placed : ∀ hook ∈ hooks, ∀ entry, ruleset hook = some entry →
    ChainPlaced gen' (laid ++ more) hook entry.chain (laid.length + ruleset.before hooks hook)

theorem getLsbD_flag (hook other : BfNfInetHook) (v : BitVec 32) :
    (v ||| (1 <<< other.index)).getLsbD hook.index =
      (v.getLsbD hook.index || decide (hook = other)) := by
  rw [BitVec.getLsbD_or]
  congr 1
  cases hook <;> cases other <;> decide

theorem before_cons {ruleset : IptRuleset} {hook other : BfNfInetHook} {hooks : List BfNfInetHook}
    (differs : other ≠ hook) : ruleset.before (other :: hooks) hook =
      ruleset.entries other + ruleset.before hooks hook := by
  rw [IptRuleset.before, List.takeWhile_cons_of_pos (by simpa using differs), List.map_cons,
    List.sum_cons]
  rfl

theorem iptGenHooks_spec {reader : Option CounterReader} {ruleset : IptRuleset}
    (readable : Readable reader)
    (built : ∀ hook entry, ruleset hook = some entry → IptBuilt hook entry.chain)
    {hooks : List BfNfInetHook} (distinct : hooks.Nodup) {gen : IptGen}
    {laid : List (IptEntry × BfCounter)} (at_ : CursorAt gen.cursor laid)
    (off : gen.nextChainOff = laid.length * iptRuleSize) :
    ∃ gen' more, iptGenHooks reader ruleset hooks gen = .ok gen' ∧
      HooksLaid ruleset hooks gen gen' laid more := by
  induction hooks generalizing gen laid with
  | nil =>
      refine ⟨gen, [], rfl, ?_, rfl, fun _ _ => ⟨rfl, rfl⟩, fun hook => by simp, ?_⟩
      · rwa [List.append_nil]
      · exact fun hook mem => absurd mem List.not_mem_nil
  | cons hook rest ih =>
      obtain ⟨fresh, distinct⟩ := List.nodup_cons.mp distinct
      cases present : ruleset hook with
      | none =>
          obtain ⟨gen', more, ran, after⟩ := ih distinct at_ off
          have entries : ruleset.entries hook = 0 := by rw [IptRuleset.entries, present]
          refine ⟨gen', more, ?_, after.cursor, ?_, ?_, ?_, ?_⟩
          · rw [iptGenHooks, present]
            exact ran
          · rw [List.map_cons, List.sum_cons, entries, Nat.zero_add]
            exact after.count
          · exact fun other absent => after.others other fun mem => absent (List.mem_cons_of_mem _ mem)
          · intro other
            rw [after.valid other]
            by_cases same : other = hook
            · subst same
              simp [present]
            · simp [same]
          · intro other mem entry there
            have differs : hook ≠ other := by
              rintro rfl
              cases present.symm.trans there
            rw [before_cons differs, entries, Nat.zero_add]
            exact after.placed other ((List.mem_cons.mp mem).resolve_left differs.symm) entry there
      | some entry =>
          obtain ⟨chain, cgen⟩ := entry
          obtain ⟨back, target, written⟩ := (built hook _ present).written
          obtain ⟨cursor, own, ranRules, sameBack, afterRules⟩ :=
            @iptGenRules_spec reader cgen hook _ _ readable _ _ written.rules at_
          obtain ⟨cursor', counter, ranPolicy, afterPolicy⟩ :=
            @iptGenPolicy_spec reader cgen hook _ _ readable _ _ written.policy afterRules
          have length : own.length = chain.rules.length := by
            rw [written.rules.length_eq, ← sameBack, List.length_map]
          have entries : ruleset.entries hook = chain.rules.length + 1 := by
            rw [IptRuleset.entries, present]
          let policy : IptEntry × BfCounter := ({ blankEntry with target }, counter)
          let next : IptGen := {
            validHooks := gen.validHooks ||| (1 <<< hook.index)
            hookEntry := fun other =>
              if other = hook then BitVec.ofNat 32 gen.nextChainOff else gen.hookEntry other
            underflow := fun other =>
              if other = hook then
                BitVec.ofNat 32 (gen.nextChainOff + chain.rules.length * iptRuleSize)
              else gen.underflow other
            nextChainOff := gen.nextChainOff + (chain.rules.length + 1) * iptRuleSize
            cursor := cursor' }
          have off' : next.nextChainOff = (laid ++ own ++ [policy]).length * iptRuleSize := by
            show gen.nextChainOff + _ = _
            rw [off, ← Nat.add_mul]
            simp [length]
          obtain ⟨gen', more, ran, after⟩ := @ih distinct next _ afterPolicy off'
          have regroup : laid ++ own ++ [policy] ++ more = laid ++ (own ++ policy :: more) := by simp
          refine ⟨gen', own ++ policy :: more, ?_, ?_, ?_, ?_, ?_, ?_⟩
          · rw [iptGenHooks, present]
            show (iptGenRules reader cgen hook chain.rules gen.cursor >>= _) = _
            rw [ranRules]
            show (iptGenPolicy reader cgen hook chain.policy cursor >>= _) = _
            rw [ranPolicy]
            exact ran
          · rw [← regroup]
            exact after.cursor
          · rw [List.map_cons, List.sum_cons, entries, ← after.count, List.length_append,
              List.length_cons, length]
            omega
          · intro other absent
            rw [List.mem_cons, not_or] at absent
            obtain ⟨first, last⟩ := after.others other absent.2
            exact ⟨first.trans (if_neg absent.1), last.trans (if_neg absent.1)⟩
          · intro other
            rw [after.valid other, getLsbD_flag]
            by_cases same : other = hook
            · subst same
              simp [present]
            · simp [same]
          · intro other mem entry there
            by_cases same : other = hook
            · subst same
              cases present.symm.trans there
              obtain ⟨first, last⟩ := after.others other fresh
              refine ⟨laid, own, policy, more, rfl, ?_, length, ?_, ?_, ?_⟩
              · simp [IptRuleset.before]
              · rw [first]
                simp [next, off, IptRuleset.before]
              · rw [last]
                simp [next, off, IptRuleset.before, Nat.add_mul]
              · have stored : (own.map fun entry => entry.1.stored) = back.map IptEntry.stored := by
                  rw [← sameBack, List.map_map]
                  rfl
                rw [stored]
                exact written.decoded
            · have later := after.placed other ((List.mem_cons.mp mem).resolve_left same) entry there
              have position : laid.length + ruleset.before (hook :: rest) other =
                  (laid ++ own ++ [policy]).length + ruleset.before rest other := by
                rw [before_cons (Ne.symm same), entries]
                simp [length]
                omega
              rw [position, ← regroup]
              exact later

/-! ## The whole ruleset -/

/-- The chain of each hook: that of its codegen, or a dummy where iptables expects one. -/
def iptRuleset (cgens : List BfChain) : IptRuleset := fun hook =>
  match cgens.find? fun chain => bfHookToNfHook chain.hook = some hook with
  | some chain => some ⟨chain, true⟩
  | none => if hook ∈ iptMandatory then some ⟨iptDummy hook, false⟩ else none

/-- The entries of all hooks, without the error entry. -/
def IptRuleset.total (ruleset : IptRuleset) : Nat := (bfNfInetHooks.map ruleset.entries).sum

section Ruleset

variable {ruleset : IptRuleset} {hook : BfNfInetHook}

theorem IptRuleset.put_entries (entry : IptRulesetEntry) (other : BfNfInetHook) :
    (ruleset.put hook entry).entries other =
      if other = hook then entry.chain.rules.length + 1 else ruleset.entries other := by
  by_cases same : other = hook
  · simp [IptRuleset.entries, IptRuleset.put, same]
  · simp [IptRuleset.entries, IptRuleset.put, same]

/-- A chain for a hook that had none. -/
theorem IptRuleset.put_total (free : ruleset hook = none) (entry : IptRulesetEntry) :
    (ruleset.put hook entry).total = ruleset.total + (entry.chain.rules.length + 1) := by
  have none : ruleset.entries hook = 0 := by rw [IptRuleset.entries, free]
  unfold IptRuleset.total
  simp only [bfNfInetHooks, List.map_cons, List.map_nil, List.sum_cons, List.sum_nil,
    IptRuleset.put_entries]
  cases hook <;> simp [none] <;> omega

/-- The codegens fill the hooks they are for. -/
theorem iptCollectRuleset_spec {cgens : List BfChain} {nrules : Nat}
    (nf : ∀ chain ∈ cgens, ∃ hook, bfHookToNfHook chain.hook = some hook)
    (distinct : (cgens.map fun chain => bfHookToNfHook chain.hook).Nodup)
    (free : ∀ chain ∈ cgens, ∀ hook, bfHookToNfHook chain.hook = some hook → ruleset hook = none)
    (count : nrules = ruleset.total) :
    ∃ filled, iptCollectRuleset cgens ruleset nrules = .ok (filled, filled.total) ∧
      ∀ hook, filled hook =
        match cgens.find? fun chain => bfHookToNfHook chain.hook = some hook with
        | some chain => some ⟨chain, true⟩
        | none => ruleset hook := by
  induction cgens generalizing ruleset nrules with
  | nil => exact ⟨ruleset, by rw [iptCollectRuleset, count], fun _ => rfl⟩
  | cons chain rest ih =>
      obtain ⟨⟨own, hookEq⟩, nf⟩ := List.forall_mem_cons.mp nf
      obtain ⟨fresh, distinct⟩ := List.nodup_cons.mp distinct
      obtain ⟨first, free⟩ := List.forall_mem_cons.mp free
      have apart : ∀ other ∈ rest, bfHookToNfHook other.hook ≠ some own := by
        intro other mem same
        refine fresh (List.mem_map.mpr ⟨other, mem, same.trans hookEq.symm⟩)
      have stillFree : ∀ other ∈ rest, ∀ hook, bfHookToNfHook other.hook = some hook →
          ruleset.put own ⟨chain, true⟩ hook = none := by
        intro other mem hook there
        have differs : hook ≠ own := by
          rintro rfl
          exact apart other mem there
        rw [IptRuleset.put, if_neg differs]
        exact free other mem hook there
      have counted : nrules + (chain.rules.length + 1) =
          (ruleset.put own ⟨chain, true⟩).total := by
        rw [IptRuleset.put_total (first own hookEq), count]
      obtain ⟨filled, ran, found⟩ := ih nf distinct stillFree counted
      refine ⟨filled, ?_, ?_⟩
      · rw [iptCollectRuleset, hookEq]
        exact ran
      · intro hook
        rw [found hook]
        by_cases same : own = hook
        · subst same
          have none : rest.find? (fun chain => bfHookToNfHook chain.hook = some own) = none := by
            rw [List.find?_eq_none]
            exact fun other mem => by simpa using apart other mem
          rw [none, List.find?_cons_of_pos (by simpa using hookEq)]
          simp [IptRuleset.put]
        · have other : ¬ (bfHookToNfHook chain.hook = some hook) := by
            rw [hookEq]
            exact fun equal => same (Option.some.inj equal)
          rw [List.find?_cons_of_neg (by simpa using other)]
          simp [IptRuleset.put, Ne.symm same]

theorem iptAddDummies_spec {hooks : List BfNfInetHook} {nrules : Nat}
    (count : nrules = ruleset.total) :
    ∃ filled, iptAddDummies hooks ruleset nrules = (filled, filled.total) ∧
      ∀ hook, filled hook =
        match ruleset hook with
        | some entry => some entry
        | none => if hook ∈ hooks then some ⟨iptDummy hook, false⟩ else none := by
  induction hooks generalizing ruleset nrules with
  | nil =>
      refine ⟨ruleset, by rw [iptAddDummies, count], fun hook => ?_⟩
      cases ruleset hook <;> simp
  | cons first rest ih =>
      cases present : ruleset first with
      | some entry =>
          obtain ⟨filled, ran, found⟩ := ih count
          refine ⟨filled, by rw [iptAddDummies, present]; exact ran, fun hook => ?_⟩
          rw [found hook]
          by_cases same : hook = first
          · rw [same, present]
          · simp [same]
      | none =>
          obtain ⟨filled, ran, found⟩ := @ih (ruleset.put first ⟨iptDummy first, false⟩)
            (nrules + 1) (by rw [IptRuleset.put_total present, count]; rfl)
          refine ⟨filled, by rw [iptAddDummies, present]; exact ran, fun hook => ?_⟩
          rw [found hook]
          by_cases same : hook = first
          · rw [same, present]
            simp [IptRuleset.put]
          · simp [IptRuleset.put, same]

/-- Collecting the ruleset gives every hook its chain, and counts the entries. -/
theorem bfIptGenGetRuleset_spec {cgens : List BfChain}
    (nf : ∀ chain ∈ cgens, ∃ hook, bfHookToNfHook chain.hook = some hook)
    (distinct : (cgens.map fun chain => bfHookToNfHook chain.hook).Nodup) :
    bfIptGenGetRuleset cgens = .ok (iptRuleset cgens, (iptRuleset cgens).total) := by
  obtain ⟨filled, collected, own⟩ := @iptCollectRuleset_spec (fun _ => none) cgens 0 nf distinct
    (fun _ _ _ _ => rfl) rfl
  obtain ⟨whole, added, all⟩ := @iptAddDummies_spec filled iptMandatory filled.total rfl
  have same : whole = iptRuleset cgens := by
    funext hook
    rw [all hook, own hook, iptRuleset]
    cases cgens.find? fun chain => bfHookToNfHook chain.hook = some hook <;> rfl
  rw [bfIptGenGetRuleset, collected, ← same]
  exact congrArg Except.ok added

end Ruleset

/-! ## The blob -/

/-- The length of the entries, error entry included. -/
def iptReplaceSize (cgens : List BfChain) : Nat :=
  (iptRuleset cgens).total * iptRuleSize + iptErrSize

/-- A blob is faithful to a ruleset: it counts the entries, walking it from the start
takes them all and ends at its size, the offsets of each hook are where its entries
and its policy are, and decoding it gives the chains back. -/
structure FaithfulReplace (ruleset : IptRuleset) (out : IptOutput) : Prop where
  numEntries : out.numEntries.toNat = ruleset.total + 1
  inside : ∀ n < out.numEntries.toNat, walkTo out.blob.area n 0 < out.blob.area.size
  ends : walkTo out.blob.area out.numEntries.toNat 0 = out.blob.area.size
  valid : ∀ hook, out.blob.enabled hook = (ruleset hook).isSome
  offsets : ∀ hook entry, ruleset hook = some entry →
    out.blob.first hook = walkTo out.blob.area (ruleset.before bfNfInetHooks hook) 0 ∧
      out.blob.last hook = walkTo out.blob.area
        (ruleset.before bfNfInetHooks hook + entry.chain.rules.length) 0
  decoded : ∃ fuel, bfIptXlateRulesetSetAt out.blob fuel bfNfInetHooks =
    .ok (bfNfInetHooks.map fun hook => (hook, (ruleset hook).map (·.chain)))

/-- What is known of a blob that was generated. -/
structure Produced (ruleset : IptRuleset) (out : IptOutput)
    (laid : List (IptEntry × BfCounter)) : Prop where
  count : laid.length = ruleset.total
  numEntries : out.numEntries = BitVec.ofNat 32 (ruleset.total + 1)
  size : out.blob.area.size = (ruleset.total * iptRuleSize + iptErrSize) % 2 ^ 32
  standard : ∀ entry ∈ laid, entry.1.Standard
  holds : Holds out.blob.area.byte (laidBytes laid ++ errorBytes)
  valid : ∀ hook, out.blob.enabled hook = (ruleset hook).isSome
  placed : ∀ hook entry, ruleset hook = some entry →
    ChainPlaced { hookEntry := out.blob.hookEntry, underflow := out.blob.underflow } laid hook
      entry.chain (ruleset.before bfNfInetHooks hook)

theorem bfIptGenIptReplace_produced {cgens : List BfChain} {reader : Option CounterReader}
    (readable : Readable reader) (built : ∀ chain ∈ cgens, ∃ hook, IptBuilt hook chain)
    (distinct : (cgens.map fun chain => bfHookToNfHook chain.hook).Nodup) :
    ∃ out laid, bfIptGenIptReplace cgens reader = .ok out ∧
      Produced (iptRuleset cgens) out laid := by
  have hookOf {hook : BfNfInetHook} {chain : BfChain} (built : IptBuilt hook chain) :
      bfHookToNfHook chain.hook = some hook := by
    obtain ⟨rules, ran, -⟩ := built
    rw [(bfIptEntriesToChain_inv ran).hook, bfHookToNfHook_from]
  have own : ∀ hook entry, iptRuleset cgens hook = some entry → IptBuilt hook entry.chain := by
    intro hook entry there
    unfold iptRuleset at there
    cases found : cgens.find? fun chain => bfHookToNfHook chain.hook = some hook with
    | some chain =>
        simp only [found] at there
        cases there
        obtain ⟨other, made⟩ := built chain (List.mem_of_find?_eq_some found)
        have here := List.find?_some found
        rw [decide_eq_true_eq, hookOf made] at here
        cases here
        exact made
    | none =>
        simp only [found] at there
        split at there
        · cases there
          exact iptDummy_built hook
        · cases there
  have start : CursorAt {} [] := by
    refine ⟨fun i byte at_ => ?_, rfl, fun _ mem => absurd mem List.not_mem_nil⟩
    cases at_
  have each : bfNfInetHooks.Nodup := by decide
  have every (hook : BfNfInetHook) : hook ∈ bfNfInetHooks := by cases hook <;> decide
  obtain ⟨gen, laid, ran, after⟩ := @iptGenHooks_spec _ _ readable own _ each {} _ start rfl
  have placed := after.placed
  rw [List.nil_append] at placed
  obtain ⟨cursor, count, -, valid, -⟩ := after
  rw [List.nil_append] at cursor
  have stored := cursor.holds.store errorBytes
  rw [laidBytes_length, ← cursor.entry] at stored
  have nf : ∀ chain ∈ cgens, ∃ hook, bfHookToNfHook chain.hook = some hook := by
    intro chain mem
    obtain ⟨hook, made⟩ := built chain mem
    exact ⟨hook, hookOf made⟩
  let out : IptOutput := {
    numEntries := BitVec.ofNat 32 ((iptRuleset cgens).total + 1)
    blob := {
      validHooks := gen.validHooks
      hookEntry := gen.hookEntry
      underflow := gen.underflow
      area := {
        size := (BitVec.ofNat 32 ((iptRuleset cgens).total * iptRuleSize + iptErrSize)).toNat
        byte := storeBytes gen.cursor.byte gen.cursor.entry errorBytes } } }
  refine ⟨out, laid, ?_, ⟨count, rfl, ?_, cursor.standard, stored, ?_, ?_⟩⟩
  · rw [bfIptGenIptReplace, bfIptGenGetRuleset_spec nf distinct]
    show (iptGenHooks reader (iptRuleset cgens) bfNfInetHooks {} >>= _) = _
    rw [ran]
    rfl
  · exact BitVec.toNat_ofNat ..
  · intro hook
    have bit := valid hook
    rw [decide_eq_true (every hook)] at bit
    show gen.validHooks.getLsbD hook.index = _
    simpa using bit
  · intro hook entry there
    have here := placed hook (every hook) entry there
    rw [List.length_nil, Nat.zero_add] at here
    exact here

section Produced

variable {ruleset : IptRuleset} {out : IptOutput} {laid : List (IptEntry × BfCounter)}

theorem Produced.walk (produced : Produced ruleset out laid) {n : Nat} (inside : n ≤ ruleset.total) :
    walkTo out.blob.area n 0 = n * iptRuleSize := by
  have all := @Holds.walk _ out.blob.area.size laid [] produced.holds.left produced.standard n
    (by rw [produced.count]; exact inside)
  rwa [List.length_nil, Nat.zero_add] at all

/-- The walk over all entries ends behind the error entry. -/
theorem Produced.walk_ends (produced : Produced ruleset out laid) :
    walkTo out.blob.area (ruleset.total + 1) 0 = ruleset.total * iptRuleSize + iptErrSize := by
  have last (n off : Nat) : walkTo out.blob.area (n + 1) off =
      walkTo out.blob.area n off +
        (out.blob.area.u16 (walkTo out.blob.area n off + 90)).toNat := by
    induction n generalizing off with
    | zero => rfl
    | succ n ih => rw [walkTo, ih, walkTo]
  have error : out.blob.area.bytes (ruleset.total * iptRuleSize + 90) 2 =
      leBytes16 (BitVec.ofNat 16 iptErrSize) := by
    have field := @Holds.bytes _ _ errorBytes out.blob.area.size produced.holds 90 2
      (by decide +kernel)
    rw [laidBytes_length, produced.count] at field
    rw [show out.blob.area.bytes = IptArea.bytes ⟨out.blob.area.size, out.blob.area.byte⟩ from rfl,
      field]
    decide +kernel
  rw [last, produced.walk (Nat.le_refl _), IptArea.u16, error, leBits_leBytes16]
  rfl

theorem ruleset_before_le {hook : BfNfInetHook} {entry : IptRulesetEntry}
    (there : ruleset hook = some entry) :
    ruleset.before bfNfInetHooks hook + (entry.chain.rules.length + 1) ≤ ruleset.total := by
  have own : ruleset.entries hook = entry.chain.rules.length + 1 := by
    rw [IptRuleset.entries, there]
  rw [← own]
  unfold IptRuleset.before IptRuleset.total
  cases hook <;> simp [bfNfInetHooks, List.takeWhile] <;> omega

/-- A hook's chain is decoded from where it was placed. -/
theorem Produced.chain (produced : Produced ruleset out laid)
    (small : ruleset.total * iptRuleSize + iptErrSize < 2 ^ 32) {hook : BfNfInetHook}
    {entry : IptRulesetEntry} (there : ruleset hook = some entry) :
    (out.blob.first hook = ruleset.before bfNfInetHooks hook * iptRuleSize ∧
      out.blob.last hook =
        (ruleset.before bfNfInetHooks hook + entry.chain.rules.length) * iptRuleSize) ∧
      ∀ fuel, entry.chain.rules.length < fuel → out.blob.chain fuel hook = .ok entry.chain := by
  obtain ⟨pre, own, policy, post, split, start, length, first, last, decoded⟩ :=
    produced.placed hook entry there
  have room := ruleset_before_le there
  have fits (n : Nat) (inside : n ≤ ruleset.total) : n * iptRuleSize < 2 ^ 32 :=
    Nat.lt_of_le_of_lt (Nat.le_trans (Nat.mul_le_mul_right _ inside) (Nat.le_add_right ..)) small
  have firstEq : out.blob.first hook = ruleset.before bfNfInetHooks hook * iptRuleSize := by
    rw [IptBlob.first, show out.blob.hookEntry hook = _ from first, BitVec.toNat_ofNat,
      Nat.mod_eq_of_lt (fits _ (by omega))]
  have lastEq : out.blob.last hook =
      (ruleset.before bfNfInetHooks hook + entry.chain.rules.length) * iptRuleSize := by
    rw [IptBlob.last, show out.blob.underflow hook = _ from last, BitVec.toNat_ofNat,
      Nat.mod_eq_of_lt (fits _ (by omega))]
  have size : out.blob.area.size = ruleset.total * iptRuleSize + iptErrSize := by
    rw [produced.size, Nat.mod_eq_of_lt small]
  refine ⟨⟨firstEq, lastEq⟩, fun fuel enough => ?_⟩
  have holds : Holds out.blob.area.byte
      (laidBytes pre ++ laidBytes own ++ entryBytes policy.1 policy.2) := by
    have whole := produced.holds.left
    have regroup : laidBytes laid =
        laidBytes pre ++ laidBytes own ++ entryBytes policy.1 policy.2 ++ laidBytes post := by
      rw [split, laidBytes_append, laidBytes_append]
      simp [laidBytes]
    rw [regroup] at whole
    exact whole.left
  have preLength : (laidBytes pre).length = out.blob.first hook := by
    rw [laidBytes_length, start, firstEq]
  have ownLength : (laidBytes pre).length + own.length * iptRuleSize = out.blob.last hook := by
    rw [laidBytes_length, start, length, lastEq, Nat.add_mul]
  have joined : (laidBytes pre ++ laidBytes own).length = out.blob.last hook := by
    rw [List.length_append, laidBytes_length own, ownLength]
  have behind : out.blob.last hook + iptRuleSize ≤ out.blob.area.size := by
    rw [lastEq, size, ← Nat.succ_mul]
    exact Nat.le_trans (Nat.mul_le_mul_right _ (by omega)) (Nat.le_add_right ..)
  have standard (entry : IptEntry × BfCounter) (mem : entry ∈ own ++ policy :: post) :
      entry.1.Standard := produced.standard entry (by rw [split]; exact List.mem_append_right _ mem)
  have tiles := @Holds.tiles _ out.blob.area.size own _ holds.left
    (fun entry mem => standard entry (List.mem_append_left _ mem))
    (by rw [ownLength]; exact Nat.le_trans (Nat.le_add_right ..) behind)
  have tiled := @Holds.tiled _ _ _ _ out.blob.area.size holds
    (standard policy (List.mem_append_right _ List.mem_cons_self)) (by rw [joined]; exact behind)
  rw [ownLength, preLength] at tiles
  rw [joined] at tiled
  rw [IptBlob.chain, bfIptEntriesToChainAt_tiled tiles tiled fuel
    (by rw [List.length_map, length]; exact enough) hook, decoded]
  rfl

/-- A blob that was generated is faithful exactly when its size fits the field. -/
theorem Produced.faithful_iff (produced : Produced ruleset out laid) :
    FaithfulReplace ruleset out ↔ ruleset.total * iptRuleSize + iptErrSize < 2 ^ 32 := by
  have ruleSize : 1 ≤ iptRuleSize := by decide
  constructor
  · intro faithful
    by_contra large
    have total := faithful.ends
    rw [faithful.numEntries, produced.walk_ends, produced.size] at total
    have wrapped := Nat.mod_lt (ruleset.total * iptRuleSize + iptErrSize) (Nat.two_pow_pos 32)
    omega
  · intro small
    have few : ruleset.total + 1 < 2 ^ 32 := by
      have rules : ruleset.total * 1 ≤ ruleset.total * iptRuleSize := Nat.mul_le_mul_left _ ruleSize
      have error : 1 ≤ iptErrSize := by decide
      omega
    have entries : out.numEntries.toNat = ruleset.total + 1 := by
      rw [produced.numEntries, BitVec.toNat_ofNat, Nat.mod_eq_of_lt few]
    have size : out.blob.area.size = ruleset.total * iptRuleSize + iptErrSize := by
      rw [produced.size, Nat.mod_eq_of_lt small]
    refine ⟨entries, ?_, ?_, produced.valid, ?_, ?_⟩
    · intro n inside
      rw [entries] at inside
      rw [produced.walk (Nat.le_of_lt_succ inside), size]
      exact Nat.lt_of_le_of_lt (Nat.mul_le_mul_right _ (Nat.le_of_lt_succ inside))
        (Nat.lt_add_of_pos_right (by decide))
    · rw [entries, produced.walk_ends, size]
    · intro hook entry there
      obtain ⟨⟨first, last⟩, -⟩ := produced.chain small there
      have room := ruleset_before_le there
      rw [first, last, produced.walk (by omega), produced.walk (by omega)]
      exact ⟨rfl, rfl⟩
    · refine ⟨ruleset.total + 1, ?_⟩
      have decoded (hooks : List BfNfInetHook) :
          bfIptXlateRulesetSetAt out.blob (ruleset.total + 1) hooks =
            .ok (hooks.map fun hook => (hook, (ruleset hook).map (·.chain))) := by
        induction hooks with
        | nil => rfl
        | cons hook rest ih =>
            have valid := produced.valid hook
            cases there : ruleset hook with
            | none =>
                rw [there] at valid
                rw [xlate_off (by rw [valid]; exact Bool.false_ne_true), ih, List.map_cons, there]
                rfl
            | some entry =>
                rw [there] at valid
                have room := ruleset_before_le there
                rw [xlate_on valid, (produced.chain small there).2 _ (by omega), ih, List.map_cons,
                  there]
                rfl
      exact decoded bfNfInetHooks

end Produced

/-- **The blob is a fixpoint.** For chains of the iptables front end, at most one per
hook, whose rules have single hosts or no addresses, the blob is generated; it is
faithful to the ruleset exactly when the entries are less than 4 GiB. -/
theorem replace_faithful_iff {cgens : List BfChain} {reader : Option CounterReader}
    (readable : Readable reader) (built : ∀ chain ∈ cgens, ∃ hook, IptBuilt hook chain)
    (distinct : (cgens.map fun chain => bfHookToNfHook chain.hook).Nodup) :
    ∃ out, bfIptGenIptReplace cgens reader = .ok out ∧
      (FaithfulReplace (iptRuleset cgens) out ↔ iptReplaceSize cgens < 2 ^ 32) := by
  obtain ⟨out, laid, ran, produced⟩ := bfIptGenIptReplace_produced readable built distinct
  exact ⟨out, ran, produced.faithful_iff⟩

/-! Chains made of one entry, repeated. -/

/-- An accepting entry without addresses. -/
def plainEntry : IptEntry where
  targetOffset := 112
  target := { verdict := -2 }

theorem plainEntry_hosts : plainEntry.Hosts := ⟨.inr ⟨rfl, rfl⟩, .inr ⟨rfl, rfl⟩⟩

theorem iptAddRules_replicate {entry : IptEntry} {rule : BfRule}
    (made : bfIptEntryToRule entry = .ok rule) (n : Nat) (start : BfChain) :
    ∃ chain, iptAddRules (List.replicate n entry) start = .ok chain ∧
      chain.rules.length = start.rules.length + n := by
  induction n generalizing start with
  | zero => exact ⟨start, rfl, rfl⟩
  | succ n ih =>
      obtain ⟨chain, ran, length⟩ := ih (bfChainAddRule start rule)
      refine ⟨chain, ?_, ?_⟩
      · rw [List.replicate_succ, iptAddRules, made]
        exact ran
      · rw [length, bfChainAddRule, List.length_append, List.length_singleton]
        omega

/-- A chain of any length for the input hook. -/
theorem plain_chain (n : Nat) : ∃ chain, IptBuilt .localIn chain ∧ chain.rules.length = n := by
  obtain ⟨chain, ran, length⟩ := @iptAddRules_replicate plainEntry _ rfl n
    (bfChainNew (bfNfHookToStr .localIn) (bfHookFromNfHook .localIn) .accept [] [])
  refine ⟨chain, ⟨⟨List.replicate n plainEntry, plainEntry⟩, ran, ?_⟩, ?_⟩
  · intro entry mem
    rw [List.eq_of_mem_replicate mem]
    exact plainEntry_hosts
  · rw [length]
    exact Nat.zero_add n

/-- The ruleset of one chain: two more hooks get a dummy. -/
theorem iptReplaceSize_single {chain : BfChain} (built : IptBuilt .localIn chain) :
    iptReplaceSize [chain] = (chain.rules.length + 3) * iptRuleSize + iptErrSize := by
  obtain ⟨rules, ran, -⟩ := built
  have hook : bfHookToNfHook chain.hook = some .localIn := by
    rw [(bfIptEntriesToChain_inv ran).hook, bfHookToNfHook_from]
  have total : (iptRuleset [chain]).total = chain.rules.length + 3 := by
    simp [IptRuleset.total, bfNfInetHooks, IptRuleset.entries, iptRuleset, hook, iptMandatory,
      iptDummy, bfChainNew, bfChainNumber]
  rw [iptReplaceSize, total]

/-- One chain with two rules is generated and decoded again. -/
theorem two_rules_faithful : ∃ chain out, chain.rules.length = 2 ∧
    bfIptGenIptReplace [chain] none = .ok out ∧ FaithfulReplace (iptRuleset [chain]) out := by
  obtain ⟨chain, built, length⟩ := plain_chain 2
  obtain ⟨out, ran, faithful⟩ := @replace_faithful_iff [chain] none (fun _ none => by cases none)
    (fun other mem => ⟨.localIn, by rwa [List.mem_singleton.mp mem]⟩) (List.nodup_singleton _)
  refine ⟨chain, out, length, ran, faithful.mpr ?_⟩
  rw [iptReplaceSize_single built, length]
  decide

/-- The longest chain whose entries fit a request: with two dummies and the error entry
they take more than 4 GiB, and the size field wraps around. -/
theorem large_chain_not_faithful :
    ¬ ∀ (cgens : List BfChain) (reader : Option CounterReader), Readable reader →
      (∀ chain ∈ cgens, ∃ hook, IptBuilt hook chain) →
      (cgens.map fun chain => bfHookToNfHook chain.hook).Nodup →
      ∃ out, bfIptGenIptReplace cgens reader = .ok out ∧
        FaithfulReplace (iptRuleset cgens) out := by
  intro faithful
  obtain ⟨chain, built, length⟩ := plain_chain 28256362
  have readable : Readable none := fun _ none => by cases none
  have each : ∀ other ∈ [chain], ∃ hook, IptBuilt hook other :=
    fun other mem => ⟨.localIn, by rwa [List.mem_singleton.mp mem]⟩
  have distinct := List.nodup_singleton (bfHookToNfHook chain.hook)
  obtain ⟨out, ran, holds⟩ := faithful [chain] none readable each distinct
  obtain ⟨out', laid, ran', produced⟩ := bfIptGenIptReplace_produced readable each distinct
  cases ran.symm.trans ran'
  have small := produced.faithful_iff.mp holds
  have size := iptReplaceSize_single built
  rw [iptReplaceSize, length] at size
  rw [size] at small
  exact absurd small (by decide)

end Bpfilter
