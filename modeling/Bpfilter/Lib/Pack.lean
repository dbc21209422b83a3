/-
# Lib.Pack -- serialised trees

The reader and writer of `libbpfilter/pack.c`, on the trees MessagePack messages
denote.  A writer function produces a node, a reader function checks the type of a
node and the range of its value; the keys of an object are looked up by name.

Non-negative integers are written as unsigned nodes, so the signed reader accepts
both kinds.  `Mpack` stands for the vendored byte-level library; `Mpack.Inverse` is
what is asked of it, that it reads a message as it was written.
-/
import Bpfilter.Ebpf.Machine
import Bpfilter.Lib.Matcher

namespace Bpfilter

set_option autoImplicit false

open Ebpf (Byte)

/-! ## Nodes -/

/-- A message node.  `int` holds the negative integers. -/
inductive Pack where
  | nil
  | bool (value : Bool)
  | int (value : BitVec 64)
  | uint (value : BitVec 64)
  | str (value : String)
  | bin (value : List Byte)
  | arr (values : List Pack)
  | map (entries : List (String × Pack))

/-- A MessagePack library. -/
structure Mpack where
  write : Pack → List Byte
  read : List Byte → Option Pack

/-- The library reads this message as it was written. -/
def Mpack.Inverse (mpack : Mpack) (node : Pack) : Prop :=
  mpack.read (mpack.write node) = some node

/-! ## Writer -/

/-- `bf_wpack_int`, also `bf_wpack_enum` -/
def bfWpackInt (value : BitVec 32) : Pack :=
  if value.msb then .int (value.signExtend 64) else .uint (value.signExtend 64)

/-- `bf_wpack_uint`, `bf_wpack_u8`, `bf_wpack_u32` and `bf_wpack_u64` -/
def bfWpackUint {w : Nat} (value : BitVec w) : Pack := .uint (value.setWidth 64)

/-! ## Reader -/

/-- `bf_rpack_int`, also `bf_rpack_enum` -/
def bfRpackInt : Pack → Except Errno (BitVec 32)
  | .int value =>
      if (value.setWidth 32).signExtend 64 = value then .ok (value.setWidth 32)
      else .error .einval
  | .uint value =>
      if value.toNat < 2 ^ 31 then .ok (value.setWidth 32) else .error .einval
  | _ => .error .edom

/-- `bf_rpack_uint`, `bf_rpack_u8`, `bf_rpack_u32` and `bf_rpack_u64` -/
def bfRpackUint (w : Nat) : Pack → Except Errno (BitVec w)
  | .uint value => if value.toNat < 2 ^ w then .ok (value.setWidth w) else .error .einval
  | _ => .error .edom

def bfRpackStr : Pack → Except Errno String
  | .str value => .ok value
  | _ => .error .edom

def bfRpackBool : Pack → Except Errno Bool
  | .bool value => .ok value
  | _ => .error .edom

def bfRpackBin : Pack → Except Errno (List Byte)
  | .bin value => .ok value
  | _ => .error .edom

/-- `bf_rpack_kv_node`: a key that occurs twice is not found. -/
def bfRpackKvNode (node : Pack) (key : String) : Except Errno Pack :=
  match node with
  | .map entries =>
      match entries.filter (·.1 == key) with
      | [entry] => .ok entry.2
      | _ => .error .enoent
  | _ => .error .edom

/-- The `bf_rpack_kv_` readers: look the key up, then read its node. -/
def bfRpackKv {α : Type} (read : Pack → Except Errno α) (node : Pack) (key : String) :
    Except Errno α := do
  read (← bfRpackKvNode node key)

/-- The values of an array node. -/
def bfRpackArray : Pack → Except Errno (List Pack)
  | .arr values => .ok values
  | _ => .error .edom

def bfRpackIsNil : Pack → Bool
  | .nil => true
  | _ => false

/-! ## What is written is read back -/

@[simp] theorem ok_bind {ε α β : Type} (a : α) (f : α → Except ε β) :
    (Except.ok a >>= f) = f a := rfl

@[simp] theorem bfRpackInt_write (value : BitVec 32) :
    bfRpackInt (bfWpackInt value) = .ok value := by
  unfold bfWpackInt
  split
  · rw [bfRpackInt, Ebpf.setWidth_signExtend, if_pos rfl]
  · rename_i positive
    rw [Bool.not_eq_true] at positive
    have small : value.toNat < 2 ^ 31 := by
      rw [BitVec.msb_eq_decide] at positive
      simpa using positive
    have wide : value.signExtend 64 = value.setWidth 64 := by
      rw [BitVec.signExtend_eq_setWidth_of_msb_false positive]
    have nat : (value.setWidth 64).toNat = value.toNat := by
      rw [BitVec.toNat_setWidth, Nat.mod_eq_of_lt (by omega)]
    rw [wide, bfRpackInt, nat, if_pos small,
      BitVec.setWidth_setWidth_of_le _ (show 32 ≤ 64 by decide), BitVec.setWidth_eq]

@[simp] theorem bfRpackUint_write {w : Nat} (fits : w ≤ 64) (value : BitVec w) :
    bfRpackUint w (bfWpackUint value) = .ok value := by
  have nat : (value.setWidth 64).toNat = value.toNat := by
    rw [BitVec.toNat_setWidth]
    exact Nat.mod_eq_of_lt (lt_of_lt_of_le value.isLt (Nat.pow_le_pow_right (by decide) fits))
  rw [bfWpackUint, bfRpackUint, nat, if_pos value.isLt, BitVec.setWidth_setWidth_of_le _ fits,
    BitVec.setWidth_eq]

/-- A list written element by element is read element by element. -/
theorem mapM_write {m : Type → Type} [Monad m] [LawfulMonad m] {α β γ : Type} {read : γ → m β}
    {write : α → γ} {value : α → β} (values : List α)
    (back : ∀ a ∈ values, read (write a) = pure (value a)) :
    (values.map write).mapM read = pure (values.map value) := by
  induction values with
  | nil => rfl
  | cons a rest ih =>
      rw [List.map_cons, List.mapM_cons, back a (List.mem_cons_self ..),
        ih fun b mem => back b (List.mem_cons_of_mem _ mem)]
      simp only [pure_bind, List.map_cons]

/-- A list whose elements can all be read. -/
theorem mapM_pure {m : Type → Type} [Monad m] [LawfulMonad m] {α β : Type} {read : α → m β}
    {value : α → β} (values : List α) (back : ∀ a ∈ values, read a = pure (value a)) :
    values.mapM read = pure (values.map value) := by
  have written := mapM_write values back
  rwa [List.map_id'] at written

/-! ## Enumerators -/

/-- The integer of an enumerator: its position in the enumeration. -/
def enumCode {α : Type} [DecidableEq α] (values : List α) (a : α) : BitVec 32 :=
  BitVec.ofNat 32 (values.idxOf a)

/-- The enumerator an integer stands for, when it is in range. -/
def enumOf {α : Type} (values : List α) (code : BitVec 32) : Option α := values[code.toNat]?

end Bpfilter
