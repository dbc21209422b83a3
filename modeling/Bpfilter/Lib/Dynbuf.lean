/-
# Lib.Dynbuf -- the dynamic buffer in memory

`struct bf_dynbuf` keeps a length, the room behind it and a pointer; its capacity is their sum
and is stored nowhere.  Here sizes are 64-bit and wrap, allocations may fail, and a store
outside of the block ends the run.

`Holds` is the invariant: the block is as long as the length and the room together, and starts
with what was written.  A write that grows the block keeps it when the new capacity does not
wrap to zero, which is a condition on the bits of the size asked for (`RoundsUp`,
`bfRoundNextPowerOf2_eq_zero_iff`).  `written_holds` is the result for whole runs, and
`bfDynbufWrite_refines` says that the buffer of `Lib.Stream` is this one.  When the capacity
does wrap, the block is freed and its pointer kept (`hugeWrite_frees`).
-/
import Bpfilter.Lib.Stream
import Bpfilter.Lib.Set
import Bpfilter.Proc.Hoare

namespace Bpfilter.Heap

set_option autoImplicit false

open Ebpf Ebpf.Mem Hoare

/-! ## Sizes -/

/-- A sum of type `size_t`. -/
def sizeAdd (a b : Nat) : Nat := (a + b) % 2 ^ 64

/-- A difference of type `size_t`. -/
def sizeSub (a b : Nat) : Nat := (a + 2 ^ 64 - b) % 2 ^ 64

theorem sizeAdd_eq {a b : Nat} (small : a + b < 2 ^ 64) : sizeAdd a b = a + b :=
  Nat.mod_eq_of_lt small

theorem sizeSub_eq {a b : Nat} (small : a < 2 ^ 64) (le : b ≤ a) : sizeSub a b = a - b := by
  unfold sizeSub
  omega

/-! ## The buffer -/

/-- What a pointer to a block is. -/
inductive Block where
  | null
  | live (bytes : List Byte)
  | freed

/-- The bytes that may be stored to. -/
def Block.bytes : Block → List Byte
  | .null => []
  | .live bytes => bytes
  | .freed => []

/-- `struct bf_dynbuf` -/
structure BfDynbuf where
  len : Nat
  rem : Nat
  data : Block

/-- `bf_dynbuf_default` -/
def bfDynbufDefault : BfDynbuf := ⟨0, 0, .null⟩

/-- Accesses that are undefined. -/
inductive Fault where
  | pastEnd | freed
  deriving DecidableEq, Repr

/-- What an allocation finds in the new bytes; `none` when it fails. -/
abbrev Outcome := Option (Nat → Byte)

/-- A block of another size: the old bytes, then whatever is there. -/
def resized (bytes : List Byte) (size : Nat) (found : Nat → Byte) : List Byte :=
  (bytes ++ (List.range (size - bytes.length)).map found).take size

/-- `bf_realloc`: a block of size zero is freed by a `realloc` that returns no other. -/
def bfRealloc (outcome : Outcome) (size : Nat) : Proc BfDynbuf Fault (Option Errno) := do
  match (← get).data, outcome with
  | .freed, _ => throw .freed
  | .null, none => pure (some .enomem)
  | .live _, none => do
      if size = 0 then modify fun buf => { buf with data := .freed }
      pure (some .enomem)
  | block, some found => do
      modify fun buf => { buf with data := .live (resized block.bytes size found) }
      pure none

/-- `_bf_round_next_power_of_2` -/
def bfRoundNextPowerOf2 (value : Nat) : Nat :=
  let value := sizeSub value 1
  let value := value ||| value >>> 1
  let value := value ||| value >>> 2
  let value := value ||| value >>> 4
  let value := value ||| value >>> 8
  let value := value ||| value >>> 16
  sizeAdd value 1

/-- `_bf_dynbuf_grow` -/
def bfDynbufGrow (outcome : Outcome) (reqCap : Nat) : Proc BfDynbuf Fault (Option Errno) := do
  if reqCap = 0 then pure none
  else do
    let buf ← get
    let newCap := bfRoundNextPowerOf2 (sizeAdd (sizeAdd buf.len buf.rem) reqCap)
    match ← bfRealloc outcome newCap with
    | some e => pure (some e)
    | none => do
        modify fun buf => { buf with rem := sizeSub newCap buf.len }
        pure none

/-- `memcpy` behind what the buffer holds. -/
def memcpyToEnd (data : List Byte) : Proc BfDynbuf Fault Unit := do
  let buf ← get
  if data = [] then pure ()
  else
    match buf.data with
    | .freed => throw .freed
    | block =>
        if block.bytes.length < buf.len + data.length then throw .pastEnd
        else modify fun buf => { buf with data := .live (writeAt block.bytes buf.len data) }

/-- The first statement of `bf_dynbuf_write`. -/
def growIfShort (outcome : Outcome) (dataLen : Nat) : Proc BfDynbuf Fault (Option Errno) := do
  if (← get).rem < dataLen then bfDynbufGrow outcome dataLen else pure none

/-- `bf_dynbuf_write` -/
def bfDynbufWrite (outcome : Outcome) (data : List Byte) : Proc BfDynbuf Fault (Option Errno) := do
  match ← growIfShort outcome data.length with
  | some e => pure (some e)
  | none => do
      memcpyToEnd data
      modify fun buf =>
        { buf with
          len := sizeAdd buf.len data.length
          rem := sizeSub buf.rem data.length }
      pure none

/-- `bf_dynbuf_take` -/
def bfDynbufTake : Proc BfDynbuf Fault Block := do
  let buf ← get
  modify fun _ => ⟨0, 0, .null⟩
  pure buf.data

/-! ## Rounding -/

/-- Somewhere below bit 64, 32 bits in a row are clear in the size less one. -/
def RoundsUp (size : Nat) : Prop := ∃ i < 64, ∀ j < 32, (size - 1).testBit (i + j) = false

instance decidableRoundsUp (size : Nat) : Decidable (RoundsUp size) :=
  inferInstanceAs (Decidable (∃ i < 64, ∀ j < 32, (size - 1).testBit (i + j) = false))

/-- The five shifts of the rounding. -/
def smeared (value : Nat) : Nat :=
  let value := value ||| value >>> 1
  let value := value ||| value >>> 2
  let value := value ||| value >>> 4
  let value := value ||| value >>> 8
  value ||| value >>> 16

/-- One shift doubles how far a bit is spread down. -/
theorem testBit_spread {value spread n : Nat}
    (before : ∀ i, spread.testBit i = true ↔ ∃ j < n, value.testBit (i + j) = true) (i : Nat) :
    (spread ||| spread >>> n).testBit i = true ↔ ∃ j < 2 * n, value.testBit (i + j) = true := by
  rw [Nat.testBit_or, Nat.testBit_shiftRight, Bool.or_eq_true, before, before]
  constructor
  · rintro (⟨j, small, set⟩ | ⟨j, small, set⟩)
    · exact ⟨j, by omega, set⟩
    · exact ⟨n + j, by omega, by rwa [← Nat.add_assoc, Nat.add_comm i n]⟩
  · rintro ⟨j, small, set⟩
    by_cases near : j < n
    · exact Or.inl ⟨j, near, set⟩
    · refine Or.inr ⟨j - n, by omega, ?_⟩
      rwa [show n + i + (j - n) = i + j by omega]

/-- A bit of the result is one of the 32 bits from there on. -/
theorem testBit_smeared (value i : Nat) :
    (smeared value).testBit i = true ↔ ∃ j < 32, value.testBit (i + j) = true := by
  have start : ∀ i, value.testBit i = true ↔ ∃ j < 1, value.testBit (i + j) = true := by
    intro i
    constructor
    · exact fun set => ⟨0, by decide, set⟩
    · rintro ⟨j, small, set⟩
      obtain rfl : j = 0 := by omega
      exact set
  exact testBit_spread (testBit_spread (testBit_spread (testBit_spread (testBit_spread start)))) i

theorem le_smeared (value : Nat) : value ≤ smeared value := by
  have smear : ∀ a b : Nat, a ≤ a ||| b := fun a b => Nat.left_le_or
  exact (smear _ _).trans ((smear _ _).trans ((smear _ _).trans ((smear _ _).trans (smear _ _))))

theorem smeared_lt {value : Nat} (small : value < 2 ^ 64) : smeared value < 2 ^ 64 := by
  refine Nat.lt_pow_two_of_testBit _ fun i high => ?_
  rw [Bool.eq_false_iff]
  intro set
  obtain ⟨j, -, set⟩ := (testBit_smeared value i).mp set
  rw [Nat.testBit_lt_two_pow (small.trans_le (Nat.pow_le_pow_right (by decide) (by omega)))] at set
  cases set

theorem bfRoundNextPowerOf2_eq {value : Nat} (pos : 0 < value) (small : value < 2 ^ 64) :
    bfRoundNextPowerOf2 value = (smeared (value - 1) + 1) % 2 ^ 64 := by
  unfold bfRoundNextPowerOf2 smeared
  rw [sizeSub_eq small pos]
  rfl

/-- The capacity wraps when every window of 32 bits has one that is set. -/
theorem bfRoundNextPowerOf2_eq_zero_iff {value : Nat} (pos : 0 < value) (small : value < 2 ^ 64) :
    bfRoundNextPowerOf2 value = 0 ↔ ¬ RoundsUp value := by
  have bound := smeared_lt (show value - 1 < 2 ^ 64 by omega)
  rw [bfRoundNextPowerOf2_eq pos small]
  have full : (smeared (value - 1) + 1) % 2 ^ 64 = 0 ↔ smeared (value - 1) = 2 ^ 64 - 1 := by omega
  have bits : RoundsUp value ↔ ∃ i < 64, (smeared (value - 1)).testBit i = false := by
    unfold RoundsUp
    simp only [← Bool.not_eq_true, testBit_smeared, not_exists, not_and]
  rw [full, bits]
  constructor
  · rintro all ⟨i, low, clear⟩
    rw [all, Nat.testBit_two_pow_sub_one] at clear
    simp only [decide_eq_false_iff_not] at clear
    exact clear low
  · intro none
    apply Nat.eq_of_testBit_eq
    intro i
    rw [Nat.testBit_two_pow_sub_one]
    by_cases low : i < 64
    · rw [decide_eq_true low]
      by_contra clear
      exact none ⟨i, low, by simpa using clear⟩
    · rw [decide_eq_false low]
      exact Nat.testBit_lt_two_pow (bound.trans_le (Nat.pow_le_pow_right (by decide) (by omega)))

/-- Otherwise it is large enough. -/
theorem le_bfRoundNextPowerOf2 {value : Nat} (pos : 0 < value) (small : value < 2 ^ 64)
    (rounds : RoundsUp value) :
    value ≤ bfRoundNextPowerOf2 value ∧ bfRoundNextPowerOf2 value < 2 ^ 64 := by
  have bound := smeared_lt (show value - 1 < 2 ^ 64 by omega)
  have large := le_smeared (value - 1)
  have nonzero : bfRoundNextPowerOf2 value ≠ 0 :=
    fun wraps => (bfRoundNextPowerOf2_eq_zero_iff pos small).mp wraps rounds
  rw [bfRoundNextPowerOf2_eq pos small] at nonzero ⊢
  omega

/-! ## The invariant -/

/-- How many bytes are allocated. -/
def Block.capacity : Block → Option Nat
  | .null => some 0
  | .live bytes => some bytes.length
  | .freed => none

/-- The buffer holds `content`: its block is as long as the length and the room together, and
starts with `content`. -/
structure Holds (buf : BfDynbuf) (content : List Byte) : Prop where
  capacity : buf.data.capacity = some (buf.len + buf.rem)
  bound : buf.len + buf.rem < 2 ^ 64
  content : buf.data.bytes.take buf.len = content

theorem holds_default : Holds bfDynbufDefault [] := ⟨rfl, by decide, rfl⟩

theorem Holds.capacity_bytes {buf : BfDynbuf} {content : List Byte} (holds : Holds buf content) :
    buf.data.bytes.length = buf.len + buf.rem := by
  have capacity := holds.capacity
  cases data : buf.data with
  | null =>
      rw [data] at capacity
      exact Option.some.inj capacity
  | live bytes =>
      rw [data] at capacity
      exact Option.some.inj capacity
  | freed =>
      rw [data] at capacity
      cases capacity

theorem Holds.not_freed {buf : BfDynbuf} {content : List Byte} (holds : Holds buf content) :
    buf.data ≠ .freed := by
  intro freed
  have capacity := holds.capacity
  rw [freed] at capacity
  cases capacity

theorem Holds.length {buf : BfDynbuf} {content : List Byte} (holds : Holds buf content) :
    content.length = buf.len := by
  rw [← holds.content, List.length_take, holds.capacity_bytes]
  omega

theorem length_resized {bytes : List Byte} {size : Nat} {found : Nat → Byte} :
    (resized bytes size found).length = size := by
  simp only [resized, List.length_take, List.length_append, List.length_map, List.length_range]
  omega

/-- A block keeps its start when it grows. -/
theorem take_resized {bytes : List Byte} {n size : Nat} {found : Nat → Byte}
    (small : n ≤ bytes.length) (fits : n ≤ size) :
    (resized bytes size found).take n = bytes.take n := by
  rw [resized, List.take_take, Nat.min_eq_left fits, List.take_append_of_le_length small]

/-! ## Growing -/

theorem bfRealloc_fails {buf : BfDynbuf} {size : Nat} (alive : buf.data ≠ .freed)
    (nonempty : size ≠ 0) : bfRealloc none size buf = .ok (some .enomem, buf) := by
  unfold bfRealloc
  rw [bind_run (get_run buf)]
  cases data : buf.data with
  | null => rfl
  | live bytes =>
      simp only [if_neg nonempty]
      rfl
  | freed => exact absurd data alive

theorem bfRealloc_works {buf : BfDynbuf} {size : Nat} (alive : buf.data ≠ .freed)
    (found : Nat → Byte) :
    bfRealloc (some found) size buf =
      .ok (none, { buf with data := .live (resized buf.data.bytes size found) }) := by
  unfold bfRealloc
  rw [bind_run (get_run buf)]
  cases data : buf.data with
  | null => rfl
  | live bytes => rfl
  | freed => exact absurd data alive

/-- The size a write of `n` bytes asks for. -/
def BfDynbuf.asked (buf : BfDynbuf) (n : Nat) : Nat := buf.len + buf.rem + n

theorem asked_eq {buf : BfDynbuf} {n : Nat} (small : buf.asked n < 2 ^ 64) :
    sizeAdd (sizeAdd buf.len buf.rem) n = buf.asked n := by
  unfold BfDynbuf.asked at small ⊢
  rw [sizeAdd_eq (a := buf.len) (by omega), sizeAdd_eq small]

/-- A growth that fails changes nothing. -/
theorem bfDynbufGrow_fails {buf : BfDynbuf} {content : List Byte} {n : Nat}
    (holds : Holds buf content) (pos : n ≠ 0) (small : buf.asked n < 2 ^ 64)
    (rounds : RoundsUp (buf.asked n)) : bfDynbufGrow none n buf = .ok (some .enomem, buf) := by
  have positive : 0 < buf.asked n := by
    unfold BfDynbuf.asked
    omega
  have large := (le_bfRoundNextPowerOf2 positive small rounds).1
  unfold bfDynbufGrow
  rw [if_neg pos, bind_run (get_run buf)]
  simp only [asked_eq small]
  rw [bind_run (bfRealloc_fails holds.not_freed (by omega))]
  rfl

/-- What is in a buffer that has grown. -/
theorem bfDynbufGrow_eq {buf : BfDynbuf} {n : Nat} (found : Nat → Byte)
    (alive : buf.data ≠ .freed) (pos : n ≠ 0) (small : buf.asked n < 2 ^ 64) :
    bfDynbufGrow (some found) n buf = .ok (none, ⟨buf.len,
      sizeSub (bfRoundNextPowerOf2 (buf.asked n)) buf.len,
      .live (resized buf.data.bytes (bfRoundNextPowerOf2 (buf.asked n)) found)⟩) := by
  unfold bfDynbufGrow
  rw [if_neg pos, bind_run (get_run buf)]
  simp only [asked_eq small]
  rw [bind_run (bfRealloc_works alive found)]
  dsimp only
  rw [bind_run (modify_run _ _), pure_run]

/-- A larger block holds the same. -/
theorem Holds.grown {buf : BfDynbuf} {content : List Byte} {newCap : Nat} {found : Nat → Byte}
    (holds : Holds buf content) (large : buf.len ≤ newCap) (bound : newCap < 2 ^ 64) :
    Holds ⟨buf.len, newCap - buf.len, .live (resized buf.data.bytes newCap found)⟩ content := by
  have sum : buf.len + (newCap - buf.len) = newCap := Nat.add_sub_cancel' large
  have capacity := holds.capacity_bytes
  have kept : (resized buf.data.bytes newCap found).take buf.len = buf.data.bytes.take buf.len :=
    take_resized (capacity ▸ Nat.le_add_right _ _) large
  refine ⟨?_, ?_, kept.trans holds.content⟩
  · rw [sum]
    exact congrArg some length_resized
  · rw [sum]
    exact bound

/-- A growth that works leaves the content, and room for the bytes to come. -/
theorem bfDynbufGrow_works {buf : BfDynbuf} {content : List Byte} {n : Nat} (found : Nat → Byte)
    (holds : Holds buf content) (pos : n ≠ 0) (small : buf.asked n < 2 ^ 64)
    (rounds : RoundsUp (buf.asked n)) :
    ∃ buf', bfDynbufGrow (some found) n buf = .ok (none, buf') ∧ Holds buf' content ∧
      buf'.len = buf.len ∧ n ≤ buf'.rem ∧
      buf'.len + buf'.rem = bfRoundNextPowerOf2 (buf.asked n) := by
  have asked : buf.asked n = buf.len + buf.rem + n := rfl
  obtain ⟨large, bound⟩ := le_bfRoundNextPowerOf2 (by omega) small rounds
  have ran := bfDynbufGrow_eq found holds.not_freed pos small
  -- nothing below may look inside the capacity
  generalize bfRoundNextPowerOf2 (buf.asked n) = newCap at *
  have le : buf.len ≤ newCap := by omega
  rw [sizeSub_eq bound le] at ran
  refine ⟨_, ran, holds.grown le bound, rfl, ?_, Nat.add_sub_cancel' le⟩
  dsimp only
  omega

/-! ## Writing -/

/-- Behind enough room, a write appends and uses that room. -/
theorem memcpyToEnd_appends {buf : BfDynbuf} {content data : List Byte} (holds : Holds buf content)
    (room : data.length ≤ buf.rem) :
    ∃ block, memcpyToEnd data buf = .ok ((), { buf with data := block }) ∧
      Holds ⟨sizeAdd buf.len data.length, sizeSub buf.rem data.length, block⟩ (content ++ data) := by
  have capacity := holds.capacity_bytes
  have bound := holds.bound
  rw [sizeAdd_eq (by omega), sizeSub_eq (by omega) room]
  have sum : buf.len + data.length + (buf.rem - data.length) = buf.len + buf.rem := by omega
  unfold memcpyToEnd
  rw [bind_run (get_run buf)]
  by_cases empty : data = []
  · rw [if_pos empty]
    refine ⟨buf.data, rfl, ?_, ?_, ?_⟩
    · rw [sum]
      exact holds.capacity
    · rw [sum]
      exact bound
    · rw [empty, List.length_nil, Nat.add_zero, List.append_nil]
      exact holds.content
  · rw [if_neg empty]
    have inside : ¬ buf.data.bytes.length < buf.len + data.length := by omega
    refine ⟨.live (writeAt buf.data.bytes buf.len data), ?_, ?_, ?_, ?_⟩
    · cases block : buf.data with
      | null =>
          simp only [← block, if_neg inside]
          rw [modify_run]
      | live bytes =>
          simp only [← block, if_neg inside]
          rw [modify_run]
      | freed => exact absurd block holds.not_freed
    · simp only [Block.capacity, Option.some.injEq]
      rw [length_writeAt (by omega), capacity, sum]
    · rw [sum]
      exact bound
    · rw [← holds.content]
      exact take_writeAt (by omega)

/-- The part of a write that comes after the block has been grown. -/
theorem bfDynbufWrite_appends {buf grown : BfDynbuf} {content data : List Byte} {outcome : Outcome}
    (ran : growIfShort outcome data.length buf = .ok (none, grown))
    (holds : Holds grown content) (room : data.length ≤ grown.rem) :
    ∃ buf', bfDynbufWrite outcome data buf = .ok (none, buf') ∧ Holds buf' (content ++ data) ∧
      buf'.len + buf'.rem = grown.len + grown.rem := by
  have bound := holds.bound
  obtain ⟨block, copied, holds'⟩ := memcpyToEnd_appends holds room
  refine ⟨_, ?_, holds', ?_⟩
  · unfold bfDynbufWrite
    rw [bind_run ran]
    dsimp only
    rw [bind_run copied, bind_run (modify_run _ _), pure_run]
  · dsimp only
    rw [sizeAdd_eq (by omega), sizeSub_eq (by omega) room]
    omega

theorem growIfShort_eq {buf : BfDynbuf} {outcome : Outcome} {n : Nat} (short : buf.rem < n) :
    growIfShort outcome n buf = bfDynbufGrow outcome n buf := by
  unfold growIfShort
  rw [bind_run (get_run buf), if_pos short]

theorem bfDynbufWrite_stops {buf grown : BfDynbuf} {data : List Byte} {outcome : Outcome}
    {e : Errno} (short : buf.rem < data.length)
    (ran : bfDynbufGrow outcome data.length buf = .ok (some e, grown)) :
    bfDynbufWrite outcome data buf = .ok (some e, grown) := by
  rw [← growIfShort_eq short] at ran
  unfold bfDynbufWrite
  rw [bind_run ran]
  rfl

/-- A write either works and appends, or fails and changes nothing. -/
theorem bfDynbufWrite_step {buf : BfDynbuf} {content data : List Byte} (outcome : Outcome)
    (holds : Holds buf content) (fits : buf.len + data.length < 2 ^ 63)
    (rounds : buf.rem < data.length → RoundsUp (buf.asked data.length)) :
    (∃ buf', bfDynbufWrite outcome data buf = .ok (none, buf') ∧ Holds buf' (content ++ data) ∧
        buf'.len + buf'.rem =
          if buf.rem < data.length then bfRoundNextPowerOf2 (buf.asked data.length)
          else buf.len + buf.rem) ∨
      (outcome = none ∧ bfDynbufWrite outcome data buf = .ok (some .enomem, buf)) := by
  by_cases short : buf.rem < data.length
  · have pos : data.length ≠ 0 := by omega
    have small : buf.asked data.length < 2 ^ 64 := by
      unfold BfDynbuf.asked
      omega
    cases outcome with
    | none =>
        exact Or.inr ⟨rfl, bfDynbufWrite_stops short
          (bfDynbufGrow_fails holds pos small (rounds short))⟩
    | some found =>
        obtain ⟨grown, ran, holds', -, room, capacity⟩ :=
          bfDynbufGrow_works found holds pos small (rounds short)
        obtain ⟨buf', wrote, holds'', sum⟩ :=
          bfDynbufWrite_appends ((growIfShort_eq short).trans ran) holds' room
        rw [if_pos short, ← capacity]
        exact Or.inl ⟨buf', wrote, holds'', sum⟩
  · have ran : growIfShort outcome data.length buf = .ok (none, buf) := by
      unfold growIfShort
      rw [bind_run (get_run buf), if_neg short, pure_run]
    obtain ⟨buf', wrote, holds', sum⟩ := bfDynbufWrite_appends ran holds (by omega)
    rw [if_neg short]
    exact Or.inl ⟨buf', wrote, holds', sum⟩

/-- Below the wrap, the capacity is the one `Lib.Stream` computes. -/
theorem bfRoundNextPowerOf2_refines {value : Nat} (pos : 0 < value) (small : value < 2 ^ 64)
    (rounds : RoundsUp value) : Bpfilter.bfRoundNextPowerOf2 value = bfRoundNextPowerOf2 value := by
  have large := (le_bfRoundNextPowerOf2 pos small rounds).1
  have bound := smeared_lt (show value - 1 < 2 ^ 64 by omega)
  have unbounded : Bpfilter.bfRoundNextPowerOf2 value = smeared (value - 1) + 1 := rfl
  rw [bfRoundNextPowerOf2_eq pos small] at large ⊢
  omega

/-- A write that works is one of the buffer `Lib.Stream` receives in. -/
theorem bfDynbufWrite_refines {buf buf' : BfDynbuf} {content data : List Byte} {outcome : Outcome}
    (holds : Holds buf content) (fits : buf.len + data.length < 2 ^ 63)
    (rounds : buf.rem < data.length → RoundsUp (buf.asked data.length))
    (ran : bfDynbufWrite outcome data buf = .ok (none, buf')) :
    Bpfilter.bfDynbufWrite ⟨content, buf.rem⟩ data = some ⟨content ++ data, buf'.rem⟩ := by
  rcases bfDynbufWrite_step outcome holds fits rounds with ⟨buf'', ran', holds', sum⟩ | ⟨-, fails⟩
  · rw [ran'] at ran
    cases ran
    have before := holds.length
    have after := holds'.length
    rw [List.length_append] at after
    unfold Bpfilter.bfDynbufWrite
    by_cases short : buf.rem < data.length
    · have asked : buf.asked data.length = content.length + buf.rem + data.length := by
        rw [before]
        rfl
      have positive : 0 < buf.asked data.length := by omega
      have small : buf.asked data.length < 2 ^ 64 := by omega
      have large := (le_bfRoundNextPowerOf2 positive small (rounds short)).1
      rw [if_pos short, ← bfRoundNextPowerOf2_refines positive small (rounds short)] at sum
      rw [← bfRoundNextPowerOf2_refines positive small (rounds short)] at large
      have room : ¬ Bpfilter.bfRoundNextPowerOf2 (buf.asked data.length) - content.length <
          data.length := by omega
      simp only [if_pos short, Bpfilter.bfDynbufGrow, if_neg (show data.length ≠ 0 by omega),
        ← asked, if_neg room]
      congr 2
      omega
    · rw [if_neg short] at sum
      simp only [if_neg short]
      congr 2
      omega
  · rw [fails] at ran
    cases ran

/-! ## Runs -/

inductive DynbufOp where
  | write (data : List Byte) (outcome : Outcome)
  | take

/-- A buffer, with the data written since the last take. -/
structure Written where
  buf : BfDynbuf
  content : List Byte

def Written.start : Written := ⟨bfDynbufDefault, []⟩

/-- One call, and what it adds to the data written. -/
def DynbufOp.call : DynbufOp → Proc Written Fault (Option Errno)
  | .write data outcome => fun s =>
      match bfDynbufWrite outcome data s.buf with
      | .ok (none, buf) => .ok (none, ⟨buf, s.content ++ data⟩)
      | .ok (some e, buf) => .ok (some e, ⟨buf, s.content⟩)
      | .error fault => .error fault
  | .take => fun s =>
      match bfDynbufTake s.buf with
      | .ok (_, buf) => .ok (none, ⟨buf, []⟩)
      | .error fault => .error fault

/-- The data of the buffer stays below `2 ^ 63` bytes. -/
def DynbufOp.Fits : DynbufOp → Written → Prop
  | .write data _, s => s.content.length + data.length < 2 ^ 63
  | .take, _ => True

/-- A write that has to grow the block asks for a size that can be rounded up. -/
def DynbufOp.Rounds : DynbufOp → Written → Prop
  | .write data _, s => s.buf.rem < data.length → RoundsUp (s.buf.asked data.length)
  | .take, _ => True

/-- What a call does: it returns, the buffer holds the data written, and a failed call leaves the
buffer as it was. -/
theorem DynbufOp.call_step {op : DynbufOp} {s : Written} (holds : Holds s.buf s.content)
    (fits : op.Fits s) (rounds : op.Rounds s) :
    ∃ r s', op.call s = .ok (r, s') ∧ Holds s'.buf s'.content ∧ (r ≠ none → s' = s) := by
  cases op with
  | write data outcome =>
      have fits : s.content.length + data.length < 2 ^ 63 := fits
      rw [holds.length] at fits
      rcases bfDynbufWrite_step outcome holds fits rounds with
        ⟨buf', ran, holds', -⟩ | ⟨-, ran⟩
      · refine ⟨none, ⟨buf', s.content ++ data⟩, ?_, holds', fun failed => absurd rfl failed⟩
        simp only [DynbufOp.call, ran]
      · refine ⟨some .enomem, s, ?_, holds, fun _ => rfl⟩
        simp only [DynbufOp.call, ran]
  | take => exact ⟨none, Written.start, rfl, holds_default, fun failed => absurd rfl failed⟩

/-- A write that works is one of the buffer messages are received in. -/
theorem DynbufOp.write_refines {s s' : Written} {data : List Byte} {outcome : Outcome}
    (holds : Holds s.buf s.content) (fits : (DynbufOp.write data outcome).Fits s)
    (rounds : (DynbufOp.write data outcome).Rounds s)
    (ran : (DynbufOp.write data outcome).call s = .ok (none, s')) :
    s'.content = s.content ++ data ∧
      Bpfilter.bfDynbufWrite ⟨s.content, s.buf.rem⟩ data = some ⟨s'.content, s'.buf.rem⟩ := by
  have small : s.content.length + data.length < 2 ^ 63 := fits
  rw [holds.length] at small
  simp only [DynbufOp.call] at ran
  cases wrote : bfDynbufWrite outcome data s.buf with
  | error fault =>
      rw [wrote] at ran
      cases ran
  | ok result =>
      obtain ⟨r, buf⟩ := result
      rw [wrote] at ran
      cases r with
      | some e => cases ran
      | none =>
          cases ran
          exact ⟨rfl, bfDynbufWrite_refines holds small rounds wrote⟩

/-- **Dynamic buffer.**  In every state of a run whose writes ask for sizes that can be rounded
up, the block is as long as the length and the room together and starts with what was written
since the last take; no call stores outside of it, a call that fails changes nothing, and a write
that works appends, as in the buffer messages are received in. -/
theorem written_holds {s : Written}
    (run : Run DynbufOp.call (fun op s => op.Fits s ∧ op.Rounds s) Written.start s) :
    Holds s.buf s.content ∧ (∀ op : DynbufOp, op.Fits s → op.Rounds s →
      ∃ r s', op.call s = .ok (r, s') ∧ (r ≠ none → s' = s)) ∧
    ∀ (data : List Byte) (outcome : Outcome) (s' : Written),
      (DynbufOp.write data outcome).Fits s → (DynbufOp.write data outcome).Rounds s →
      (DynbufOp.write data outcome).call s = .ok (none, s') → s'.content = s.content ++ data ∧
        Bpfilter.bfDynbufWrite ⟨s.content, s.buf.rem⟩ data = some ⟨s'.content, s'.buf.rem⟩ := by
  have holds : Holds s.buf s.content := by
    refine run.invariant (I := fun s : Written => Holds s.buf s.content) holds_default ?_
    intro op s r s' allowed ran
    obtain ⟨r', s'', ran', holds', -⟩ := op.call_step allowed.1 allowed.2.1 allowed.2.2
    rw [ran] at ran'
    cases ran'
    exact holds'
  refine ⟨holds, ?_, fun data outcome s' fits rounds => DynbufOp.write_refines holds fits rounds⟩
  intro op fits rounds
  obtain ⟨r, s', ran, -, same⟩ := op.call_step holds fits rounds
  exact ⟨r, s', ran, same⟩

/-- The state after a write of three bytes. -/
def threeWritten : Written := ⟨⟨3, 1, .live [1, 2, 3, 0]⟩, [1, 2, 3]⟩

theorem threeWritten_holds : Holds threeWritten.buf threeWritten.content ∧
    (∀ op : DynbufOp, op.Fits threeWritten → op.Rounds threeWritten →
      ∃ r s', op.call threeWritten = .ok (r, s') ∧ (r ≠ none → s' = threeWritten)) ∧
    Bpfilter.bfDynbufWrite ⟨[1, 2, 3], 1⟩ [4] = some ⟨[1, 2, 3, 4], 0⟩ := by
  have called : (DynbufOp.write [1, 2, 3] (some fun _ => 0)).call Written.start =
      .ok (none, threeWritten) := rfl
  have allowed : (DynbufOp.write [1, 2, 3] (some fun _ => 0)).Fits Written.start ∧
      (DynbufOp.write [1, 2, 3] (some fun _ => 0)).Rounds Written.start := by
    refine ⟨?_, fun _ => ?_⟩
    · change 0 + 3 < 2 ^ 63
      decide
    · decide +kernel
  obtain ⟨holds, calls, appends⟩ := written_holds (.tail .refl allowed called)
  have fits : (DynbufOp.write [4] none).Fits threeWritten := by
    change 3 + 1 < 2 ^ 63
    decide
  have rounds : (DynbufOp.write [4] none).Rounds threeWritten := by
    intro short
    cases short with
    | step impossible => cases impossible
  exact ⟨holds, calls, (appends [4] none ⟨⟨4, 0, .live [1, 2, 3, 4]⟩, [1, 2, 3, 4]⟩ fits rounds
    rfl).2⟩

/-! ## A capacity that wraps -/

/-- A write whose capacity wraps to zero frees the block, and keeps the pointer to it. -/
theorem bfDynbufWrite_frees {buf : BfDynbuf} {content data : List Byte} (holds : Holds buf content)
    (nonempty : buf.len + buf.rem ≠ 0) (short : buf.rem < data.length)
    (small : buf.asked data.length < 2 ^ 64) (wraps : ¬ RoundsUp (buf.asked data.length)) :
    bfDynbufWrite none data buf = .ok (some .enomem, { buf with data := .freed }) := by
  refine bfDynbufWrite_stops short ?_
  have zero := (bfRoundNextPowerOf2_eq_zero_iff
    (show 0 < buf.asked data.length by unfold BfDynbuf.asked; omega) small).mpr wraps
  have released : bfRealloc none 0 buf = .ok (some .enomem, { buf with data := .freed }) := by
    have capacity := holds.capacity
    unfold bfRealloc
    rw [bind_run (get_run buf)]
    cases data : buf.data with
    | null =>
        rw [data] at capacity
        exact absurd (Option.some.inj capacity).symm nonempty
    | live bytes => rfl
    | freed => exact absurd data holds.not_freed
  unfold bfDynbufGrow
  rw [if_neg (by omega), bind_run (get_run buf)]
  simp only [asked_eq small, zero]
  rw [bind_run released]
  rfl

/-- After `2 ^ 62 + 1` bytes the block has `2 ^ 63 - 2 ^ 31 + 1`, and one byte more than the room
left wraps the next capacity. -/
theorem hugeWrites_free {first second : List Byte} (found : Nat → Byte)
    (firstLength : first.length = 2 ^ 62 + 1) (secondLength : second.length = 2 ^ 62 - 2 ^ 31 + 1) :
    ∃ s s', Run DynbufOp.call (fun op s => op.Fits s) Written.start s ∧
      (DynbufOp.write second none).Fits s ∧
      (DynbufOp.write second none).call s = .ok (some .enomem, s') ∧ s' ≠ s := by
  have asked : bfDynbufDefault.asked first.length = 2 ^ 62 + 1 := by
    rw [firstLength]
    rfl
  have empty : bfDynbufDefault.rem < first.length := by
    rw [firstLength]
    decide
  have fits : bfDynbufDefault.len + first.length < 2 ^ 63 := by
    rw [firstLength]
    decide
  rcases bfDynbufWrite_step (some found) holds_default fits
    (fun _ => by rw [asked]; decide +kernel) with ⟨buf, ran, holds, capacity⟩ | ⟨failed, -⟩
  · rw [if_pos empty, asked, show bfRoundNextPowerOf2 (2 ^ 62 + 1) = 2 ^ 63 - 2 ^ 31 + 1 by
      decide +kernel] at capacity
    have length := holds.length
    rw [List.nil_append, firstLength] at length
    have called : (DynbufOp.write first (some found)).call Written.start =
        .ok (none, ⟨buf, [] ++ first⟩) := by
      simp only [DynbufOp.call, Written.start, ran]
    have size : buf.asked second.length = 2 ^ 63 + 2 ^ 62 - 2 ^ 32 + 2 := by
      unfold BfDynbuf.asked
      omega
    have freed := bfDynbufWrite_frees holds (by omega) (show buf.rem < second.length by omega)
      (by rw [size]; decide) (by rw [size]; decide +kernel)
    refine ⟨⟨buf, [] ++ first⟩, ⟨{ buf with data := .freed }, [] ++ first⟩,
      .tail .refl ?_ called, ?_, ?_, ?_⟩
    · change ([] : List Byte).length + first.length < 2 ^ 63
      rw [firstLength]
      decide
    · change ([] ++ first).length + second.length < 2 ^ 63
      rw [List.nil_append, firstLength, secondLength]
      decide
    · simp only [DynbufOp.call, freed]
    · intro same
      exact holds.not_freed (congrArg (fun s : Written => s.buf.data) same).symm
  · cases failed

/-- A failed write does not leave the buffer as it was. -/
theorem failedWrite_changes :
    ¬ ∀ s, Run DynbufOp.call (fun op s => op.Fits s) Written.start s →
      Holds s.buf s.content ∧ ∀ op : DynbufOp, op.Fits s →
        ∃ r s', op.call s = .ok (r, s') ∧ (r ≠ none → s' = s) := by
  intro claimed
  obtain ⟨s, s', run, fits, ran, changed⟩ := hugeWrites_free (fun _ => 0)
    (List.length_replicate (a := (0 : Byte))) (List.length_replicate (a := (0 : Byte)))
  obtain ⟨r, s'', ran', same⟩ := (claimed s run).2 _ fits
  rw [ran] at ran'
  cases ran'
  exact changed (same (Option.some_ne_none _))

end Bpfilter.Heap
