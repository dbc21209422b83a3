/-
# Xlate.IptBlob -- decoding an iptables request from its bytes

A request carries its entries as one block of bytes with offsets into it: where each
hook's entries start, where its policy is, where an entry's target is and where the
next entry is.  The daemon checks the length of the block and none of the offsets.

Here the block is memory of a known size, and a read that leaves it is an outcome of
its own (`IptFault.outside`).  The rule loop runs on fuel, so a loop that never ends
is `.looping` for every amount of it.  `HookTiled` says that the offsets of a hook are
right, and `xlate_tiled` connects this decoder to the one on decoded entries.
`RefusedFirst` says which requests it refuses.
-/
import Bpfilter.Daemon.Front

namespace Bpfilter

set_option autoImplicit false

open Ebpf (Byte)

/-! ## Memory -/

/-- `entries`: a block of bytes behind `struct ipt_replace`. -/
structure IptArea where
  size : Nat
  byte : Nat → Byte

/-- Why a translation stops without a result. -/
inductive IptFault where
  | outside
  | looping
  | gen (e : GenErr)
  deriving DecidableEq, Repr

abbrev Decode (α : Type) := Except IptFault α

/-- A translation of fields that were read. -/
def ofXlate {α : Type} : Except GenErr α → Decode α
  | .ok a => .ok a
  | .error e => .error (.gen e)

namespace IptArea

variable (area : IptArea) (off : Nat)

def bytes (n : Nat) : List Byte := (List.range n).map fun i => area.byte (off + i)

def u32 : BitVec 32 := leBits 32 (area.bytes off 4)

def u16 : BitVec 16 := leBits 16 (area.bytes off 2)

/-- A string in a field: the bytes before the first zero. -/
def cString (bytes : List Byte) : String :=
  .ofList ((bytes.takeWhile (· ≠ 0)).map fun byte => Char.ofNat byte.toNat)

/-- `struct ipt_ip` -/
def ip : IptIp where
  src := area.u32 off
  dst := area.u32 (off + 4)
  smsk := area.u32 (off + 8)
  dmsk := area.u32 (off + 12)
  iniface := area.bytes (off + 16) 16
  outiface := area.bytes (off + 32) 16
  proto := area.u16 (off + 80)
  invflags := area.byte (off + 83)

end IptArea

/-- `sizeof(struct xt_entry_target)` -/
def sizeofEntryTarget : Nat := 32

/-- The fields of an entry in memory, without its target. -/
def entryAt (area : IptArea) (off : Nat) : Decode IptEntry :=
  if off + sizeofIptEntry ≤ area.size then
    .ok {
      ip := area.ip off
      targetOffset := area.u16 (off + 88)
      nextOffset := area.u16 (off + 90) }
  else .error .outside

/-- A target in memory.  The verdict is read from standard targets only. -/
def targetAt (area : IptArea) (off : Nat) : Decode IptTarget :=
  if off + sizeofEntryTarget ≤ area.size then
    let name := IptArea.cString (area.bytes (off + 2) 29)
    if name = "" then
      if off + sizeofStandardTarget ≤ area.size then
        .ok { name, targetSize := area.u16 off, verdict := area.u32 (off + 32) }
      else .error .outside
    else .ok { name, targetSize := area.u16 off }
  else .error .outside

/-! ## The decoder -/

/-- `_bf_ipt_entry_to_rule` on an entry in memory: the target is read last. -/
def bfIptEntryToRuleAt (area : IptArea) (off : Nat) : Decode BfRule := do
  let entry ← entryAt area off
  if sizeofIptEntry < entry.targetOffset.toNat then .error (.gen (.errno .enotsup))
  else if entry.ip.iniface.headD 0 ≠ 0 ∨ entry.ip.outiface.headD 0 ≠ 0 then
    .error (.gen (.errno .enotsup))
  else do
    let src ← ofXlate (iptSrcMatcher entry.ip)
    let dst ← ofXlate (iptDstMatcher entry.ip)
    let proto ← ofXlate (iptProtoMatcher entry.ip)
    let target ← targetAt area (off + entry.targetOffset.toNat)
    let verdict ← ofXlate (bfIptTargetToVerdict target)
    .ok { matchers := src ++ dst ++ proto, counters := true, verdict }

/-- The loop of `_bf_ipt_entries_to_chain`, from `first` up to `last`. -/
def walkRules (area : IptArea) (last : Nat) : Nat → Nat → BfChain → Decode BfChain
  | 0, _, _ => .error .looping
  | fuel + 1, first, chain =>
      if first < last then do
        let rule ← bfIptEntryToRuleAt area first
        let entry ← entryAt area first
        walkRules area last fuel (first + entry.nextOffset.toNat) (bfChainAddRule chain rule)
      else .ok chain

/-- The policy of a chain: the verdict of its last entry. -/
def policyAt (area : IptArea) (last : Nat) : Decode BfVerdict := do
  let entry ← entryAt area last
  let target ← targetAt area (last + entry.targetOffset.toNat)
  ofXlate (bfIptTargetToVerdict target)

/-- `_bf_ipt_entries_to_chain` -/
def bfIptEntriesToChainAt (area : IptArea) (fuel : Nat) (hook : BfNfInetHook) (first last : Nat) :
    Decode BfChain := do
  let policy ← policyAt area last
  walkRules area last fuel first
    (bfChainNew (bfNfHookToStr hook) (bfHookFromNfHook hook) policy [] [])

/-- The value of a hook in `enum nf_inet_hooks`. -/
def BfNfInetHook.index : BfNfInetHook → Nat
  | .preRouting => 0
  | .localIn => 1
  | .forward => 2
  | .localOut => 3
  | .postRouting => 4

/-- `struct ipt_replace`, as far as the translation reads it. -/
structure IptBlob where
  validHooks : BitVec 32
  hookEntry : BfNfInetHook → BitVec 32
  underflow : BfNfInetHook → BitVec 32
  area : IptArea

namespace IptBlob

variable (blob : IptBlob) (hook : BfNfInetHook)

/-- `ipt_is_hook_enabled` -/
def enabled : Bool := blob.validHooks.getLsbD hook.index

/-- `ipt_get_first_rule` -/
def first : Nat := (blob.hookEntry hook).toNat

/-- `ipt_get_last_rule` -/
def last : Nat := (blob.underflow hook).toNat

end IptBlob

/-- `_bf_ipt_xlate_ruleset_set`, from a hook on. -/
def bfIptXlateRulesetSetAt (blob : IptBlob) (fuel : Nat) :
    List BfNfInetHook → Decode (List (BfNfInetHook × Option BfChain))
  | [] => .ok []
  | hook :: rest =>
      if blob.enabled hook then do
        let chain ← bfIptEntriesToChainAt blob.area fuel hook (blob.first hook) (blob.last hook)
        let chains ← bfIptXlateRulesetSetAt blob fuel rest
        .ok ((hook, some chain) :: chains)
      else do
        let chains ← bfIptXlateRulesetSetAt blob fuel rest
        .ok ((hook, none) :: chains)

/-- `sizeof(struct ipt_replace)` -/
def sizeofIptReplace : Nat := 96

/-- The data of a request as `struct ipt_replace`. -/
def IptBlob.ofData (data : List Byte) : IptBlob :=
  let whole : IptArea := { size := data.length, byte := fun i => data.getD i 0 }
  { validHooks := whole.u32 32
    hookEntry := fun hook => whole.u32 (44 + 4 * hook.index)
    underflow := fun hook => whole.u32 (64 + 4 * hook.index)
    area := {
      size := (whole.u32 40).toNat
      byte := fun i => whole.byte (sizeofIptReplace + i) } }

/-- An entry in memory with its target. -/
def fullEntryAt (area : IptArea) (off : Nat) : Decode IptEntry := do
  let entry ← entryAt area off
  let target ← targetAt area (off + entry.targetOffset.toNat)
  .ok { entry with target }

/-- The length of the target an entry has. -/
def IptTarget.length (target : IptTarget) : Nat :=
  if target.name = "" then sizeofStandardTarget else sizeofEntryTarget

/-- An entry whose target is behind its fields and in front of the next entry, which
starts in the block or at its end. -/
structure EntryTiled (area : IptArea) (off : Nat) (entry : IptEntry) : Prop where
  full : fullEntryAt area off = .ok entry
  behind : sizeofIptEntry ≤ entry.targetOffset.toNat
  inside : entry.targetOffset.toNat + entry.target.length ≤ entry.nextOffset.toNat
  bound : off + entry.nextOffset.toNat ≤ area.size

/-- Entries from one offset to another, without gap. -/
inductive Tiles (area : IptArea) (last : Nat) : Nat → List IptEntry → Prop where
  | nil : Tiles area last last []
  | cons {off : Nat} {entry : IptEntry} {rest : List IptEntry} (head : EntryTiled area off entry)
      (tail : Tiles area last (off + entry.nextOffset.toNat) rest) :
      Tiles area last off (entry :: rest)

section Tiled

variable {area : IptArea} {off last : Nat} {entry : IptEntry}

theorem EntryTiled.pos (tiled : EntryTiled area off entry) : 0 < entry.nextOffset.toNat := by
  have behind := tiled.behind
  have inside := tiled.inside
  unfold sizeofIptEntry at behind
  omega

theorem Tiles.le {entries : List IptEntry} (tiles : Tiles area last off entries) : off ≤ last := by
  induction tiles with
  | nil => exact Nat.le_refl _
  | cons head tail ih => omega

theorem fullEntryAt_inv (full : fullEntryAt area off = .ok entry) :
    ∃ fields target, entryAt area off = .ok fields ∧
      targetAt area (off + fields.targetOffset.toNat) = .ok target ∧
      entry = { fields with target } := by
  obtain ⟨fields, at_, rest⟩ := bind_eq_ok full
  obtain ⟨target, found, done⟩ := bind_eq_ok rest
  cases done
  exact ⟨fields, target, at_, found, rfl⟩

/-- Translating an entry that is in the block is translating its fields. -/
theorem bfIptEntryToRuleAt_full (full : fullEntryAt area off = .ok entry) :
    bfIptEntryToRuleAt area off = ofXlate (bfIptEntryToRule entry) := by
  obtain ⟨fields, target, at_, found, rfl⟩ := fullEntryAt_inv full
  unfold bfIptEntryToRuleAt bfIptEntryToRule
  rw [at_]
  simp only [bind, Except.bind]
  split
  · rfl
  · split
    · rfl
    · cases iptSrcMatcher fields.ip with
      | error e => rfl
      | ok src =>
          cases iptDstMatcher fields.ip with
          | error e => rfl
          | ok dst =>
              cases iptProtoMatcher fields.ip with
              | error e => rfl
              | ok proto =>
                  simp only [ofXlate, found]
                  cases bfIptTargetToVerdict target with
                  | error e => rfl
                  | ok verdict => rfl

theorem policyAt_full (full : fullEntryAt area last = .ok entry) :
    policyAt area last = ofXlate (bfIptTargetToVerdict entry.target) := by
  obtain ⟨fields, target, at_, found, rfl⟩ := fullEntryAt_inv full
  unfold policyAt
  rw [at_]
  simp only [bind, Except.bind, found]

/-- The loop over tiled entries adds their rules. -/
theorem walkRules_tiles {entries : List IptEntry} (tiles : Tiles area last off entries) (fuel : Nat)
    (enough : entries.length < fuel) (chain : BfChain) :
    walkRules area last fuel off chain = ofXlate (iptAddRules entries chain) := by
  induction tiles generalizing fuel chain with
  | nil =>
      obtain ⟨fuel, rfl⟩ := Nat.exists_eq_succ_of_ne_zero (Nat.ne_of_gt enough)
      rw [walkRules, if_neg (Nat.lt_irrefl _)]
      rfl
  | @cons off entry rest head tail ih =>
      obtain ⟨fuel, rfl⟩ := Nat.exists_eq_succ_of_ne_zero (Nat.ne_of_gt (Nat.zero_lt_of_lt enough))
      have ahead : off < last := Nat.lt_of_lt_of_le (Nat.lt_add_of_pos_right head.pos) tail.le
      obtain ⟨fields, target, at_, found, same⟩ := fullEntryAt_inv head.full
      rw [walkRules, if_pos ahead, bfIptEntryToRuleAt_full head.full, at_, iptAddRules]
      simp only [bind, Except.bind]
      cases bfIptEntryToRule entry with
      | error e => rfl
      | ok rule =>
          have next : fields.nextOffset = entry.nextOffset := by rw [same]
          simp only [ofXlate, next]
          exact ih fuel (by simpa using enough) (bfChainAddRule chain rule)

theorem bfIptEntriesToChainAt_tiled {entries : List IptEntry} {policy : IptEntry}
    (tiles : Tiles area last off entries) (tiled : EntryTiled area last policy) (fuel : Nat)
    (enough : entries.length < fuel) (hook : BfNfInetHook) :
    bfIptEntriesToChainAt area fuel hook off last =
      ofXlate (bfIptEntriesToChain hook ⟨entries, policy⟩) := by
  unfold bfIptEntriesToChainAt bfIptEntriesToChain
  rw [policyAt_full tiled.full]
  simp only [bind, Except.bind]
  cases bfIptTargetToVerdict policy.target with
  | error e => rfl
  | ok verdict => exact walkRules_tiles tiles fuel enough _

end Tiled

/-- One offset is reached from another by `next_offset`, over entries in front of
`last` that are in the block and translated. -/
inductive Reached (area : IptArea) (last : Nat) : Nat → Nat → Prop where
  | here {off : Nat} : Reached area last off off
  | step {off off' : Nat} {rule : BfRule} {entry : IptEntry} (ahead : off < last)
      (translated : bfIptEntryToRuleAt area off = .ok rule) (at_ : entryAt area off = .ok entry)
      (rest : Reached area last (off + entry.nextOffset.toNat) off') : Reached area last off off'

/-- An entry in the block that the daemon does not support. -/
def EntryRefused (area : IptArea) (off : Nat) : Prop :=
  ∃ e, bfIptEntryToRuleAt area off = .error (.gen (.errno e))

/-- A policy in the block that the daemon does not support. -/
def PolicyRefused (area : IptArea) (last : Nat) : Prop :=
  ∃ e, policyAt area last = .error (.gen (.errno e))

/-- The policy of a hook is accepted, and so are the entries up to `last` or past it. -/
def HookAccepted (blob : IptBlob) (hook : BfNfInetHook) : Prop :=
  (∃ policy, policyAt blob.area (blob.last hook) = .ok policy) ∧
    ∃ off, Reached blob.area (blob.last hook) (blob.first hook) off ∧ blob.last hook ≤ off

/-- The policy of a hook is refused, or an entry that is reached. -/
def HookRefused (blob : IptBlob) (hook : BfNfInetHook) : Prop :=
  PolicyRefused blob.area (blob.last hook) ∨
    (∃ policy, policyAt blob.area (blob.last hook) = .ok policy) ∧
      ∃ off, Reached blob.area (blob.last hook) (blob.first hook) off ∧ off < blob.last hook ∧
        EntryRefused blob.area off

/-- Some enabled hook is refused, and the enabled hooks before it are accepted. -/
inductive RefusedFirst (blob : IptBlob) : List BfNfInetHook → Prop where
  | here {hook : BfNfInetHook} {rest : List BfNfInetHook} (enabled : blob.enabled hook = true)
      (refused : HookRefused blob hook) : RefusedFirst blob (hook :: rest)
  | later {hook : BfNfInetHook} {rest : List BfNfInetHook}
      (accepted : blob.enabled hook = true → HookAccepted blob hook)
      (refused : RefusedFirst blob rest) : RefusedFirst blob (hook :: rest)

section Walk

variable {area : IptArea} {last first off fuel : Nat} {chain chain' : BfChain} {e : Errno}

/-- A turn of the loop. -/
theorem walkRules_step {rule : BfRule} {entry : IptEntry} (ahead : first < last)
    (translated : bfIptEntryToRuleAt area first = .ok rule)
    (at_ : entryAt area first = .ok entry) :
    walkRules area last (fuel + 1) first chain =
      walkRules area last fuel (first + entry.nextOffset.toNat) (bfChainAddRule chain rule) := by
  rw [walkRules, if_pos ahead, translated, at_]
  rfl

/-- The loop gets to an offset it can reach, given the fuel. -/
theorem walkRules_reached (reached : Reached area last first off) (chain : BfChain) :
    ∃ turns chain', ∀ fuel, walkRules area last (fuel + turns) first chain =
      walkRules area last fuel off chain' := by
  induction reached generalizing chain with
  | here => exact ⟨0, chain, fun _ => rfl⟩
  | @step _ _ rule _ ahead translated at_ rest ih =>
      obtain ⟨turns, chain', same⟩ := ih (bfChainAddRule chain rule)
      refine ⟨turns + 1, chain', fun fuel => ?_⟩
      rw [← Nat.add_assoc, walkRules_step ahead translated at_, same fuel]

theorem walkRules_past (reached : Reached area last first off) (past : last ≤ off)
    (chain : BfChain) :
    ∃ bound, ∀ fuel ≥ bound, ∃ chain', walkRules area last fuel first chain = .ok chain' := by
  obtain ⟨turns, chain', same⟩ := walkRules_reached reached chain
  refine ⟨1 + turns, fun fuel enough => ⟨chain', ?_⟩⟩
  obtain ⟨more, rfl⟩ := Nat.exists_eq_add_of_le' enough
  rw [← Nat.add_assoc, same, walkRules, if_neg (Nat.not_lt.mpr past)]

theorem walkRules_stops (reached : Reached area last first off) (ahead : off < last)
    (refused : bfIptEntryToRuleAt area off = .error (.gen (.errno e))) (chain : BfChain) :
    ∃ bound, ∀ fuel ≥ bound,
      walkRules area last fuel first chain = .error (.gen (.errno e)) := by
  obtain ⟨turns, chain', same⟩ := walkRules_reached reached chain
  refine ⟨1 + turns, fun fuel enough => ?_⟩
  obtain ⟨more, rfl⟩ := Nat.exists_eq_add_of_le' enough
  rw [← Nat.add_assoc, same, walkRules, if_pos ahead, refused]
  rfl

end Walk

section Hooks

variable {blob : IptBlob} {hook : BfNfInetHook} {hooks : List BfNfInetHook} {fuel : Nat}

/-- The translation of one hook. -/
def IptBlob.chain (blob : IptBlob) (fuel : Nat) (hook : BfNfInetHook) : Decode BfChain :=
  bfIptEntriesToChainAt blob.area fuel hook (blob.first hook) (blob.last hook)

theorem HookAccepted.chain (accepted : HookAccepted blob hook) :
    ∃ bound, ∀ fuel ≥ bound, ∃ chain, blob.chain fuel hook = .ok chain := by
  obtain ⟨⟨policy, verdict⟩, off, reached, past⟩ := accepted
  obtain ⟨bound, walked⟩ := walkRules_past reached past
    (bfChainNew (bfNfHookToStr hook) (bfHookFromNfHook hook) policy [] [])
  refine ⟨bound, fun fuel enough => ?_⟩
  obtain ⟨chain, walk⟩ := walked fuel enough
  refine ⟨chain, ?_⟩
  rw [IptBlob.chain, bfIptEntriesToChainAt, verdict]
  exact walk

theorem HookRefused.chain (refused : HookRefused blob hook) :
    ∃ e bound, ∀ fuel ≥ bound, blob.chain fuel hook = .error (.gen (.errno e)) := by
  obtain ⟨e, policy⟩ | ⟨⟨policy, verdict⟩, off, reached, ahead, e, entry⟩ := refused
  · refine ⟨e, 0, fun fuel _ => ?_⟩
    rw [IptBlob.chain, bfIptEntriesToChainAt, policy]
    rfl
  · obtain ⟨bound, stops⟩ := walkRules_stops reached ahead entry
      (bfChainNew (bfNfHookToStr hook) (bfHookFromNfHook hook) policy [] [])
    refine ⟨e, bound, fun fuel enough => ?_⟩
    rw [IptBlob.chain, bfIptEntriesToChainAt, verdict]
    exact stops fuel enough

theorem xlate_on (enabled : blob.enabled hook = true) :
    bfIptXlateRulesetSetAt blob fuel (hook :: hooks) = (do
      let chain ← blob.chain fuel hook
      let chains ← bfIptXlateRulesetSetAt blob fuel hooks
      .ok ((hook, some chain) :: chains)) := by
  rw [bfIptXlateRulesetSetAt, if_pos enabled]
  rfl

theorem xlate_off (disabled : ¬ blob.enabled hook = true) :
    bfIptXlateRulesetSetAt blob fuel (hook :: hooks) = (do
      let chains ← bfIptXlateRulesetSetAt blob fuel hooks
      .ok ((hook, none) :: chains)) := by
  rw [bfIptXlateRulesetSetAt, if_neg disabled]

/-- A refused hook that comes first ends the translation with its error. -/
theorem RefusedFirst.xlate (refused : RefusedFirst blob hooks) :
    ∃ e bound, ∀ fuel ≥ bound,
      bfIptXlateRulesetSetAt blob fuel hooks = .error (.gen (.errno e)) := by
  induction refused with
  | here enabled refused =>
      obtain ⟨e, bound, fails⟩ := refused.chain
      refine ⟨e, bound, fun fuel enough => ?_⟩
      rw [xlate_on enabled, fails fuel enough]
      rfl
  | @later hook rest accepted refused ih =>
      obtain ⟨e, bound, fails⟩ := ih
      by_cases enabled : blob.enabled hook = true
      · obtain ⟨more, succeeds⟩ := (accepted enabled).chain
        refine ⟨e, max bound more, fun fuel enough => ?_⟩
        rw [ge_iff_le, Nat.max_le] at enough
        obtain ⟨chain, ran⟩ := succeeds fuel enough.2
        rw [xlate_on enabled, ran, fails fuel enough.1]
        rfl
      · refine ⟨e, bound, fun fuel enough => ?_⟩
        rw [xlate_off enabled, fails fuel enough]
        rfl

end Hooks

end Bpfilter
