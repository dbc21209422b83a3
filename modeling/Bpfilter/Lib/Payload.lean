/-
# Lib.Payload -- matcher payloads and the parsers that fill them

Integers in a payload are in the byte order of the host, ports in network byte
order.  The parse callbacks of the matcher table check what the C library has
converted: `strtoul` and `strtoll` leave a number and the rest of the string,
`inet_pton` leaves the bytes of an address, and the models take these as arguments.
Values that a callback finds by name (interfaces, protocols) are arguments too.
-/
import Bpfilter.Lib.Matcher

namespace Bpfilter

set_option autoImplicit false

open Ebpf

/-! ## Integers as bytes -/

/-- The bytes of a 16-bit integer on a little-endian host. -/
def leBytes16 (v : BitVec 16) : List Byte := [v.setWidth 8, (v >>> 8).setWidth 8]

/-- The bytes of a 32-bit integer on a little-endian host. -/
def leBytes32 (v : BitVec 32) : List Byte :=
  [v.setWidth 8, (v >>> 8).setWidth 8, (v >>> 16).setWidth 8, (v >>> 24).setWidth 8]

theorem leBits_leBytes16 (v : BitVec 16) : leBits 16 (leBytes16 v) = v := by
  apply BitVec.eq_of_toNat_eq
  have bound := v.isLt
  simp only [leBits, leBytes16, Mem.leValue, BitVec.toNat_ofNat, BitVec.toNat_setWidth,
    BitVec.toNat_ushiftRight, Nat.shiftRight_eq_div_pow]
  omega

theorem leBits_leBytes32 (v : BitVec 32) : leBits 32 (leBytes32 v) = v := by
  apply BitVec.eq_of_toNat_eq
  have bound := v.isLt
  simp only [leBits, leBytes32, Mem.leValue, BitVec.toNat_ofNat, BitVec.toNat_setWidth,
    BitVec.toNat_ushiftRight, Nat.shiftRight_eq_div_pow]
  omega

theorem payloadU32_addr (type : BfMatcherType) (op : BfMatcherOp) (v : BitVec 32) :
    (⟨type, op, leBytes32 v⟩ : BfMatcher).payloadU32 0 = v := leBits_leBytes32 v

theorem payloadU32_prefixlen (type : BfMatcherType) (op : BfMatcherOp) (a b : BitVec 32) :
    (⟨type, op, leBytes32 a ++ leBytes32 b⟩ : BfMatcher).payloadU32 0 = a := leBits_leBytes32 a

theorem payloadU32_data (type : BfMatcherType) (op : BfMatcherOp) (a b : BitVec 32) :
    (⟨type, op, leBytes32 a ++ leBytes32 b⟩ : BfMatcher).payloadU32 1 = b := leBits_leBytes32 b

theorem leBits_byte (b : Byte) : leBits 8 [b] = b := by
  have bound := b.isLt
  apply BitVec.eq_of_toNat_eq
  simp [leBits, Mem.leValue]

theorem payloadU8_cons (type : BfMatcherType) (op : BfMatcherOp) (b : Byte) (rest : List Byte) :
    (⟨type, op, b :: rest⟩ : BfMatcher).payloadU8 = b := leBits_byte b

theorem payloadU8_singleton (type : BfMatcherType) (op : BfMatcherOp) (b : Byte) :
    (⟨type, op, [b]⟩ : BfMatcher).payloadU8 = b := payloadU8_cons type op b []

theorem payloadU16_single (type : BfMatcherType) (op : BfMatcherOp) (v : BitVec 16) :
    (⟨type, op, leBytes16 v⟩ : BfMatcher).payloadU16 0 = v := leBits_leBytes16 v

theorem payloadU16_first (type : BfMatcherType) (op : BfMatcherOp) (a b : BitVec 16) :
    (⟨type, op, leBytes16 a ++ leBytes16 b⟩ : BfMatcher).payloadU16 0 = a := leBits_leBytes16 a

theorem payloadU16_second (type : BfMatcherType) (op : BfMatcherOp) (a b : BitVec 16) :
    (⟨type, op, leBytes16 a ++ leBytes16 b⟩ : BfMatcher).payloadU16 1 = b := leBits_leBytes16 b

/-! ## Parsers -/

/-- `_bf_parse_iface`: `idx` is the index of the interface of that name, if positive. -/
def bfParseIface (idx : Int) (ifindex : Nat) (rest : List Char) : Except Errno (List Byte) :=
  if 0 < idx then .ok (leBytes32 (BitVec.ofInt 32 idx))
  else if rest = [] ∧ 0 < ifindex ∧ ifindex ≤ 0xffffffff then
    .ok (leBytes32 (BitVec.ofNat 32 ifindex))
  else .error .einval

/-- `_bf_parse_l3_proto`: `name` is the ethertype of that name, `decimal` and `hexadecimal` are
the string read in the two bases. -/
def bfParseL3Proto (name : Option (BitVec 16)) (decimal hexadecimal : Nat × List Char) :
    Except Errno (List Byte) :=
  match name with
  | some ethertype => .ok (leBytes16 ethertype)
  | none =>
      if decimal.2 = [] ∧ decimal.1 ≤ 0xffff then .ok (leBytes16 (BitVec.ofNat 16 decimal.1))
      else if hexadecimal.2 = [] ∧ hexadecimal.1 ≤ 0xffff then
        .ok (leBytes16 (BitVec.ofNat 16 hexadecimal.1))
      else .error .einval

/-- `_bf_parse_l4_proto`: `name` is the protocol of that name. -/
def bfParseL4Proto (name : Option (BitVec 8)) (ipproto : Nat) (rest : List Char) :
    Except Errno (List Byte) :=
  match name with
  | some proto => .ok [proto]
  | none =>
      if rest = [] ∧ ipproto ≤ 0xff then .ok [BitVec.ofNat 8 ipproto] else .error .einval

/-- `_bf_parse_l4_port` -/
def bfParseL4Port (port : Nat) (rest : List Char) : Except Errno (List Byte) :=
  if rest = [] ∧ port ≤ 0xffff then .ok (leBytes16 (htobe16 (BitVec.ofNat 16 port)))
  else .error .einval

/-- `_bf_parse_l4_port_range`, once the string has been cut in two. -/
def bfParseL4PortRange (start stop : Nat × List Char) : Except Errno (List Byte) :=
  if start.2 ≠ [] ∨ 0xffff < start.1 then .error .einval
  else if stop.2 ≠ [] ∨ 0xffff < stop.1 then .error .einval
  else if stop.1 < start.1 then .error .einval
  else .ok (leBytes16 (BitVec.ofNat 16 start.1) ++ leBytes16 (BitVec.ofNat 16 stop.1))

/-- `_bf_parse_probability` -/
def bfParseProbability (proba : Nat) (rest : List Char) : Except Errno (List Byte) :=
  if rest = ['%'] ∧ proba ≤ 100 then .ok [BitVec.ofNat 8 proba] else .error .einval

/-- `_bf_parse_mark` -/
def bfParseMark (mark : Int) (rest : List Char) : Except Errno (List Byte) :=
  if rest ≠ [] then .error .einval
  else if mark < 0 then .error .einval
  else if 0xffffffff < mark then .error .einval
  else .ok (leBytes32 (BitVec.ofInt 32 mark))

/-- What the interface parser accepts: a positive index. -/
theorem bfParseIface_inv {idx : Int} {ifindex : Nat} {rest : List Char} {payload : List Byte}
    (int : idx < 2 ^ 31) (accepted : bfParseIface idx ifindex rest = .ok payload) :
    ∃ v : BitVec 32, v ≠ 0 ∧ payload = leBytes32 v := by
  unfold bfParseIface at accepted
  split_ifs at accepted with named number
  · cases accepted
    refine ⟨_, fun zero => ?_, rfl⟩
    have value := congrArg BitVec.toInt zero
    rw [BitVec.toInt_ofInt_eq_self (by decide) (by omega) (by omega)] at value
    simp at value
    omega
  · cases accepted
    refine ⟨_, fun zero => ?_, rfl⟩
    have value := congrArg BitVec.toNat zero
    rw [BitVec.toNat_ofNat, Nat.mod_eq_of_lt (by omega)] at value
    simp at value
    omega

theorem bfParseProbability_inv {proba : Nat} {rest : List Char} {payload : List Byte}
    (accepted : bfParseProbability proba rest = .ok payload) :
    proba ≤ 100 ∧ payload = [BitVec.ofNat 8 proba] := by
  unfold bfParseProbability at accepted
  split_ifs at accepted with fine
  cases accepted
  exact ⟨fine.2, rfl⟩

theorem bfParseMark_inv {mark : Int} {rest : List Char} {payload : List Byte}
    (accepted : bfParseMark mark rest = .ok payload) :
    0 ≤ mark ∧ mark < 2 ^ 32 ∧ payload = leBytes32 (BitVec.ofInt 32 mark) := by
  unfold bfParseMark at accepted
  split_ifs at accepted with junk negative big
  cases accepted
  exact ⟨by omega, by omega, rfl⟩

theorem bfParseL4Port_inv {port : Nat} {rest : List Char} {payload : List Byte}
    (accepted : bfParseL4Port port rest = .ok payload) :
    port ≤ 0xffff ∧ payload = leBytes16 (htobe16 (BitVec.ofNat 16 port)) := by
  unfold bfParseL4Port at accepted
  split_ifs at accepted with fine
  cases accepted
  exact ⟨fine.2, rfl⟩

theorem bfParseL4PortRange_inv {start stop : Nat × List Char} {payload : List Byte}
    (accepted : bfParseL4PortRange start stop = .ok payload) :
    start.1 ≤ stop.1 ∧ stop.1 ≤ 0xffff ∧
      payload = leBytes16 (BitVec.ofNat 16 start.1) ++ leBytes16 (BitVec.ofNat 16 stop.1) := by
  unfold bfParseL4PortRange at accepted
  split_ifs at accepted with first second order
  cases accepted
  exact ⟨by omega, by omega, rfl⟩

end Bpfilter
