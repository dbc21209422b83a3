/-
# Lib.PayloadPrint -- what is printed is parsed back

For each pair of callbacks of the matcher table, the printed text of a payload is parsed
to the bytes it was printed from (`RoundTrip`).  What a parser can write is known from
its inversion lemma; what is printed is a name of the table or digits.  Names come first
when text is parsed, which is fine for tables that read their names back and have no name
that starts with a digit (`NameTable.Sound`).

The printers see the payload as it lies in memory, with more bytes behind it.
-/
import Bpfilter.Lib.TextExact

namespace Bpfilter

set_option autoImplicit false

open Ebpf (Byte)
open Cstr

/-- Parsing what was printed of parsed bytes yields these bytes. -/
def RoundTrip (ops : PayloadOps) : Prop :=
  ∀ s bytes tail, ops.parse s = .ok bytes → ops.parse (ops.print (bytes ++ tail)) = .ok bytes

/-! ## Numbers in memory and in texts -/

section Numbers

theorem u8At_cons (b : Byte) (tail : List Byte) : u8At (b :: tail) = b := leBits_byte b

theorem u16At_first (v : BitVec 16) (tail : List Byte) : u16At (leBytes16 v ++ tail) 0 = v :=
  leBits_leBytes16 v

theorem u16At_second (a b : BitVec 16) (tail : List Byte) :
    u16At (leBytes16 a ++ leBytes16 b ++ tail) 1 = b := leBits_leBytes16 b

theorem u32At_first (v : BitVec 32) (tail : List Byte) : u32At (leBytes32 v ++ tail) 0 = v :=
  leBits_leBytes32 v

variable {n : Nat}

/-- A printed decimal number is read whole. -/
theorem strtoul_fmtDec (fits : n ≤ ulongMax) :
    (strtoul 10 (fmtDec n)).endptr = [] ∧ (strtoul 10 (fmtDec n)).value = n :=
  strtoul_toDigits fits

theorem decimal_fmtDec (n : Nat) : Decimal (fmtDec n) := decimal_toDigits n

theorem fmtDec_value (n : Nat) : digitsValue 10 (fmtDec n) = n :=
  (toDigits_spec (by decide) (by decide) n).2

theorem isDigitOf_toDigits (n : Nat) : ∀ c ∈ Nat.toDigits 16 n, isDigitOf 16 c = true :=
  (toDigits_spec (by decide) (by decide) n).1

/-- A hexadecimal literal is read by `strtoul` in base 16. -/
theorem strtoul_hexadecimal {digits : List Char} (some : digits ≠ [])
    (hex : ∀ c ∈ digits, isDigitOf 16 c = true) (fits : digitsValue 16 digits ≤ ulongMax) :
    (strtoul 16 ('0' :: 'x' :: digits)).endptr = [] ∧
      (strtoul 16 ('0' :: 'x' :: digits)).value = digitsValue 16 digits := by
  rw [strtoul, scan_tight rfl, scanDigits_hex (.inr rfl) (.inl rfl) some hex]
  refine ⟨rfl, ?_⟩
  show ulongOf false (digitsValue 16 digits) = _
  rw [ulongOf, if_neg (by omega), if_neg Bool.false_ne_true]

/-- In base 10, it is a zero and more. -/
theorem strtoul_ten_hexadecimal (digits : List Char) :
    (strtoul 10 ('0' :: 'x' :: digits)).endptr ≠ [] := by
  have stop : ∀ c ∈ ('x' :: digits).head?, c.isDigit = false := by
    intro c start
    cases start
    decide
  have read := @scanDigits_ten ['0'] ('x' :: digits) (by decide) stop
  rw [strtoul, scan_tight rfl, show '0' :: 'x' :: digits = ['0'] ++ 'x' :: digits from rfl, read]
  exact List.cons_ne_nil _ _

theorem strtoul_fmtHex4 (fits : n ≤ ulongMax) :
    (strtoul 16 (fmtHex4 n)).endptr = [] ∧ (strtoul 16 (fmtHex4 n)).value = n := by
  have value : digitsValue 16 (List.replicate (4 - (Nat.toDigits 16 n).length) '0' ++
      Nat.toDigits 16 n) = n := by
    rw [digitsValue_zeroes]
    exact (toDigits_spec (by decide) (by decide) n).2
  have hex : ∀ c ∈ List.replicate (4 - (Nat.toDigits 16 n).length) '0' ++ Nat.toDigits 16 n,
      isDigitOf 16 c = true := by
    intro c mem
    rcases List.mem_append.mp mem with mem | mem
    · rw [(List.mem_replicate.mp mem).2]
      decide
    · exact isDigitOf_toDigits n c mem
  have some : List.replicate (4 - (Nat.toDigits 16 n).length) '0' ++ Nat.toDigits 16 n ≠ [] :=
    fun empty => Nat.toDigits_ne_nil (List.append_eq_nil_iff.mp empty).2
  obtain ⟨whole, read⟩ := strtoul_hexadecimal some hex (by omega)
  exact ⟨whole, read.trans value⟩

/-- `strtoll` chooses base 16 by the prefix. -/
theorem strtoll_fmtHex (fits : (n : Int) ≤ llongMax) :
    (strtoll 0 (fmtHex n)).endptr = [] ∧ (strtoll 0 (fmtHex n)).value = n := by
  have read : scan 0 (fmtHex n) = some ⟨false, n, []⟩ := by
    rw [fmtHex, scan_tight rfl,
      scanDigits_hex (.inl rfl) (.inl rfl) Nat.toDigits_ne_nil (isDigitOf_toDigits n),
      (toDigits_spec (by decide) (by decide) n).2]
    rfl
  have low : ¬ (n : Int) < -llongMax - 1 := by
    rw [llongMax]
    omega
  simp only [strtoll, read, Bool.false_eq_true, if_false, if_neg (Int.not_lt.mpr fits), if_neg low]
  exact ⟨trivial, trivial⟩

end Numbers

/-! ## Names -/

/-- Names are read back, and none starts with a digit. -/
structure NameTable.Sound (table : NameTable) : Prop where
  readBack : ∀ entry ∈ table, table.fromStr entry.2.toList = some entry.1
  noDigit : ∀ entry ∈ table, (entry.2.toList.map Char.toLower).head?.any Char.isDigit = false

theorem bfIpprotoStrs_sound : bfIpprotoStrs.Sound := ⟨by decide, by decide⟩

theorem bfIcmpTypeStrs_sound : bfIcmpTypeStrs.Sound := ⟨by decide, by decide⟩

theorem bfIcmpv6TypeStrs_sound : bfIcmpv6TypeStrs.Sound := ⟨by decide, by decide⟩

theorem toLower_of_isDigit {c : Char} (digit : c.isDigit = true) : c.toLower = c := by
  have bounds := isDigit_iff.mp digit
  have notUpper : ¬ (c.val ≥ 'A'.val ∧ c.val ≤ 'Z'.val) := by
    rintro ⟨low, -⟩
    have high : 65 ≤ c.toNat := low
    omega
  unfold Char.toLower
  split
  · rename_i upper
    exact absurd upper notUpper
  · rfl

/-- Digits are no name. -/
theorem NameTable.Sound.fromStr_decimal {table : NameTable} (sound : table.Sound) {s : List Char}
    (decimal : Decimal s) : table.fromStr s = none := by
  rw [NameTable.fromStr, Option.map_eq_none_iff, List.find?_eq_none]
  intro entry mem same
  obtain ⟨c, cs, rfl⟩ := List.exists_cons_of_ne_nil decimal.1
  have digit := decimal.2 c (List.mem_cons_self ..)
  have equal := of_decide_eq_true same
  have start := sound.noDigit entry mem
  rw [← equal, List.map_cons, List.head?_cons, Option.any_some, toLower_of_isDigit digit,
    digit] at start
  cases start

theorem mem_of_lookup {table : NameTable} {v : Byte} {name : String}
    (found : table.lookup v = some name) : (v, name) ∈ table := by
  induction table with
  | nil => cases found
  | cons entry table ih =>
      obtain ⟨v', name'⟩ := entry
      rw [List.lookup_cons] at found
      split at found
      · rename_i same
        cases found
        rw [eq_of_beq same]
        exact List.mem_cons_self ..
      · exact List.mem_cons_of_mem _ (ih found)

theorem NameTable.Sound.fromStr_toStr {table : NameTable} (sound : table.Sound) {v : Byte}
    {name : List Char} (named : table.toStr v = some name) : table.fromStr name = some v := by
  obtain ⟨string, found, rfl⟩ := Option.map_eq_some_iff.mp named
  exact sound.readBack (v, string) (mem_of_lookup found)

/-- A byte is printed by its name, or in decimal. -/
theorem NameTable.Sound.print {table : NameTable} (sound : table.Sound) (b : Byte)
    (tail : List Byte) :
    table.fromStr (bfPrintNamedByte table (b :: tail)) = some b ∨
      table.fromStr (bfPrintNamedByte table (b :: tail)) = none ∧
        bfPrintNamedByte table (b :: tail) = fmtDec b.toNat := by
  unfold bfPrintNamedByte
  rw [u8At_cons]
  cases named : table.toStr b with
  | some name => exact .inl (sound.fromStr_toStr named)
  | none => exact .inr ⟨sound.fromStr_decimal (decimal_fmtDec _), rfl⟩

/-! ## Bytes -/

section Bytes

variable {b : Byte}

theorem byte_le_ulongMax (b : Byte) : b.toNat ≤ ulongMax := by
  have bound := b.isLt
  have high : (256 : Nat) < ulongMax := by decide
  omega

theorem bfParseByte_fmtDec (b : Byte) : bfParseByte (fmtDec b.toNat) = .ok [b] := by
  have bound := b.isLt
  obtain ⟨whole, value⟩ := strtoul_fmtDec (byte_le_ulongMax b)
  rw [bfParseByte, if_pos ⟨whole, by omega⟩, value, BitVec.ofNat_toNat, BitVec.setWidth_eq]

theorem bfParseByte_inv {s : List Char} {bytes : List Byte} (accepted : bfParseByte s = .ok bytes) :
    ∃ b, bytes = [b] := by
  unfold bfParseByte at accepted
  split_ifs at accepted <;>
    · cases accepted
      exact ⟨_, rfl⟩

theorem icmpCode_roundTrip : RoundTrip ⟨bfParseIcmpCode, bfPrintIcmpCode⟩ := by
  intro s bytes tail accepted
  obtain ⟨b, rfl⟩ := bfParseByte_inv accepted
  show bfParseByte (fmtDec (u8At (b :: tail)).toNat) = _
  rw [u8At_cons]
  exact bfParseByte_fmtDec b

theorem namedByte_roundTrip {table : NameTable} (sound : table.Sound) :
    RoundTrip ⟨bfParseNamedByte table, bfPrintNamedByte table⟩ := by
  intro s bytes tail accepted
  have single : ∃ b, bytes = [b] := by
    simp only [bfParseNamedByte] at accepted
    split at accepted
    · cases accepted
      exact ⟨_, rfl⟩
    · exact bfParseByte_inv accepted
  obtain ⟨b, rfl⟩ := single
  show bfParseNamedByte table (bfPrintNamedByte table (b :: tail)) = _
  unfold bfParseNamedByte
  rcases sound.print b tail with named | ⟨unnamed, printed⟩
  · rw [named]
  · rw [unnamed, printed]
    exact bfParseByte_fmtDec b

theorem l4Proto_roundTrip : RoundTrip l4ProtoTextOps := by
  intro s bytes tail accepted
  have single : ∃ b, bytes = [b] := by
    simp only [l4ProtoTextOps, bfParseL4ProtoText, bfParseL4Proto] at accepted
    split at accepted
    · cases accepted
      exact ⟨_, rfl⟩
    · split_ifs at accepted
      cases accepted
      exact ⟨_, rfl⟩
  obtain ⟨b, rfl⟩ := single
  show bfParseL4ProtoText (bfPrintNamedByte bfIpprotoStrs (b :: tail)) = _
  unfold bfParseL4ProtoText
  rcases bfIpprotoStrs_sound.print b tail with named | ⟨unnamed, printed⟩
  · rw [named]
    rfl
  · have bound := b.isLt
    obtain ⟨whole, value⟩ := strtoul_fmtDec (byte_le_ulongMax b)
    rw [unnamed, printed, whole, value, bfParseL4Proto, if_pos ⟨rfl, by omega⟩,
      BitVec.ofNat_toNat, BitVec.setWidth_eq]

theorem probability_roundTrip : RoundTrip ⟨bfParseProbabilityText, bfPrintProbability⟩ := by
  intro s bytes tail accepted
  obtain ⟨le, rfl⟩ := bfParseProbability_inv accepted
  generalize (strtoul 10 s).value = proba at le
  have percent : (BitVec.ofNat 8 proba).toNat = proba := by
    rw [BitVec.toNat_ofNat, Nat.mod_eq_of_lt (by omega)]
  have stop : ∀ c ∈ ['%'].head?, c.isDigit = false := by
    intro c start
    cases start
    decide
  have tight : loose (fmtDec proba ++ ['%']) = false := by
    rw [loose_append_of_ne_nil (decimal_fmtDec proba).1]
    exact (decimal_fmtDec proba).tight
  have read : strtoul 10 (fmtDec proba ++ ['%']) = ⟨proba, ['%'], false⟩ := by
    have high : (100 : Nat) < ulongMax := by decide
    rw [strtoul, scan_tight tight, scanDigits_ten (decimal_fmtDec proba) stop, fmtDec_value]
    simp only [Option.map_some, ulongOf, Bool.false_eq_true, if_false]
    rw [if_neg (by omega), decide_eq_false (by omega)]
  show bfParseProbabilityText (fmtDec (u8At (BitVec.ofNat 8 proba :: tail)).toNat ++ ['%']) = _
  rw [u8At_cons, percent, bfParseProbabilityText, read, bfParseProbability, if_pos ⟨rfl, le⟩]

/-- Every set of flags is read back. -/
theorem tcpFlags_byte : ∀ f : Byte, bfParseTcpFlags (printTcpFlagsLoop BfTcpFlag.all f) = .ok [f] := by
  decide +kernel

theorem tcpFlags_roundTrip : RoundTrip tcpFlagsTextOps := by
  intro s bytes tail accepted
  have single : ∃ b, bytes = [b] := by
    simp only [tcpFlagsTextOps, bfParseTcpFlags] at accepted
    cases flags : tcpFlagsLoop (tokens (· = ',') s) 0 with
    | error e =>
        rw [flags] at accepted
        cases accepted
    | ok f =>
        rw [flags] at accepted
        cases accepted
        exact ⟨f, rfl⟩
  obtain ⟨b, rfl⟩ := single
  show bfParseTcpFlags (printTcpFlagsLoop BfTcpFlag.all (u8At (b :: tail))) = _
  rw [u8At_cons]
  exact tcpFlags_byte b

end Bytes

/-! ## Words -/

theorem half_le_ulongMax (v : BitVec 16) : v.toNat ≤ ulongMax := by
  have bound := v.isLt
  have high : (65536 : Nat) < ulongMax := by decide
  omega

theorem l3Proto_roundTrip : RoundTrip ⟨bfParseL3ProtoText, bfPrintL3Proto⟩ := by
  intro s bytes tail accepted
  have half : ∃ v, bytes = leBytes16 v := by
    simp only [bfParseL3ProtoText, bfParseL3Proto] at accepted
    split at accepted
    · cases accepted
      exact ⟨_, rfl⟩
    · split_ifs at accepted <;>
        · cases accepted
          exact ⟨_, rfl⟩
  obtain ⟨v, rfl⟩ := half
  show bfParseL3ProtoText (bfPrintL3Proto (leBytes16 v ++ tail)) = _
  unfold bfPrintL3Proto
  rw [u16At_first]
  cases named : bfEthertypeToStr v with
  | some name =>
      unfold bfEthertypeToStr at named
      split_ifs at named with ip ipv6
      · cases named
        rw [ip]
        rfl
      · cases named
        rw [ipv6]
        rfl
  | none =>
      have bound := v.isLt
      obtain ⟨whole, value⟩ := strtoul_fmtHex4 (half_le_ulongMax v)
      have unnamed : bfEthertypeFromStr (fmtHex4 v.toNat) = none := by
        have other : ∀ name : List Char, (name.map Char.toLower).head? ≠ some '0' →
            bfStreqI (fmtHex4 v.toNat) name = false := by
          intro name start
          rw [bfStreqI, decide_eq_false_iff_not]
          intro same
          apply start
          rw [← same]
          rfl
        rw [bfEthertypeFromStr, other _ (by decide), other _ (by decide)]
        rfl
      show bfParseL3ProtoText (fmtHex4 v.toNat) = _
      rw [bfParseL3ProtoText, unnamed, bfParseL3Proto,
        if_neg fun h => strtoul_ten_hexadecimal _ h.1]
      dsimp only
      rw [if_pos ⟨whole, by omega⟩, value, BitVec.ofNat_toNat, BitVec.setWidth_eq]

theorem mark_roundTrip : RoundTrip markTextOps := by
  intro s bytes tail accepted
  obtain ⟨pos, small, rfl⟩ := bfParseMark_inv accepted
  generalize (strtoll 0 s).value = mark at pos small
  obtain ⟨n, rfl⟩ := Int.eq_ofNat_of_zero_le pos
  have word : (BitVec.ofInt 32 (n : Int)).toNat = n := by
    rw [BitVec.toNat_ofInt]
    omega
  have high : (2 ^ 32 : Int) ≤ llongMax := by decide
  obtain ⟨whole, value⟩ := @strtoll_fmtHex n (by omega)
  show bfParseMarkText (fmtHex (u32At (leBytes32 (BitVec.ofInt 32 n) ++ tail) 0).toNat) = _
  rw [u32At_first, word, bfParseMarkText, whole, value, bfParseMark, if_neg (not_not.mpr rfl),
    if_neg (by omega), if_neg (by omega)]

theorem portText_fmtDec {port : Nat} (fits : port ≤ 0xffff) : PortText (fmtDec port) port :=
  ⟨decimal_fmtDec port, fmtDec_value port, fits⟩

theorem htobe16_portBytes {port : Nat} (fits : port ≤ 0xffff) :
    (htobe16 (htobe16 (BitVec.ofNat 16 port))).toNat = port := by
  have swap : ∀ x : BitVec 16, (htobe16 x).toNat = x.toNat % 256 * 256 + x.toNat / 256 := by
    intro x
    have top := x.isLt
    rw [htobe16, BitVec.toNat_append, ← Nat.shiftLeft_add_eq_or_of_lt (BitVec.isLt _)]
    simp only [BitVec.toNat_setWidth, BitVec.toNat_ushiftRight, Nat.shiftLeft_eq,
      Nat.shiftRight_eq_div_pow]
    omega
  have value : (BitVec.ofNat 16 port).toNat = port := by
    rw [BitVec.toNat_ofNat, Nat.mod_eq_of_lt (by omega)]
  rw [swap, swap, value]
  omega

theorem port_roundTrip : RoundTrip portTextOps := by
  intro s bytes tail accepted
  obtain ⟨fits, rfl⟩ := bfParseL4Port_inv accepted
  generalize (strtoul 10 s).value = port at fits
  show bfParseL4PortText (fmtDec (htobe16 (u16At (portBytes port ++ tail) 0)).toNat) = _
  rw [portBytes, u16At_first, htobe16_portBytes fits]
  have text := portText_fmtDec fits
  exact bfParseL4PortText_ok_iff.mpr (.inr ⟨port, text.readsAs, fits, rfl⟩)

theorem length_fmtDec {n k : Nat} (pos : 0 < k) (fits : n < 10 ^ k) : (fmtDec n).length ≤ k :=
  (Nat.length_toDigits_le_iff (by decide) pos).mpr fits

theorem portRange_roundTrip : RoundTrip portRangeTextOps := by
  intro s bytes tail accepted
  obtain ⟨start, stop, range, rfl⟩ := bfParseL4PortRangeText_ok_iff.mp accepted
  obtain ⟨order, fits⟩ : start ≤ stop ∧ stop ≤ 0xffff := by
    rcases range with ⟨a, b, -, -, -, order, fits⟩ | ⟨a, b, -, -, port, order⟩
    · exact ⟨order, fits⟩
    · exact ⟨order, port.2.2⟩
  have value : ∀ {n : Nat}, n ≤ 0xffff → (BitVec.ofNat 16 n).toNat = n := by
    intro n small
    rw [BitVec.toNat_ofNat, Nat.mod_eq_of_lt (by omega)]
  have text : RangeText (fmtDec start ++ '-' :: fmtDec stop) start stop :=
    ⟨_, _, rfl, portText_fmtDec (order.trans fits), portText_fmtDec fits, order⟩
  have first := @length_fmtDec start 5 (by decide) (by omega)
  have second := @length_fmtDec stop 5 (by decide) (by omega)
  have whole : bfStrncpy bfPortRangeMaxLen (fmtDec start ++ '-' :: fmtDec stop) =
      fmtDec start ++ '-' :: fmtDec stop := by
    have limit : bfPortRangeMaxLen = 16 := rfl
    apply List.take_of_length_le
    rw [List.length_append, List.length_cons]
    omega
  show bfParseL4PortRangeText (fmtDec (u16At (rangeBytes start stop ++ tail) 0).toNat ++
    '-' :: fmtDec (u16At (rangeBytes start stop ++ tail) 1).toNat) = _
  rw [rangeBytes, u16At_second, List.append_assoc, u16At_first, value (order.trans fits), value fits]
  exact bfParseL4PortRangeText_ok_iff.mpr ⟨start, stop, .inr (whole.symm ▸ text), rfl⟩

/-! ## Addresses -/

section Addresses

variable {size textLen len limit : Nat} {start : Char → Bool} (inet : Inet size textLen start)

theorem addr_roundTrip :
    RoundTrip ⟨bfParseAddr inet.pton, fun payload => inet.ntop (payload.take size)⟩ := by
  intro s bytes tail accepted
  have length : bytes.length = size := by
    simp only [bfParseAddr] at accepted
    split at accepted
    · rename_i addr address
      cases accepted
      exact inet.size_eq address
    · cases accepted
  show bfParseAddr inet.pton (inet.ntop ((bytes ++ tail).take size)) = _
  rw [List.take_left' length, bfParseAddr, inet.pton_ntop length]

theorem net_roundTrip (room : textLen + 2 < len) (noSlash : start '/' = false)
    (small : limit < 1000) (fits : textLen + 4 < len) :
    RoundTrip ⟨bfParseNet len start limit inet.pton, bfPrintNet inet.ntop size⟩ := by
  intro s bytes tail accepted
  obtain ⟨a, l, addr, n, -, address, -, le, rfl⟩ := (bfParseNet_ok_iff inet room noSlash).mp accepted
  have length := inet.size_eq address
  have inverse := inet.pton_ntop length
  have short := inet.short inverse
  have digits := @length_fmtDec (n % 2 ^ 32) 3 (by decide) (by omega)
  have word : (BitVec.ofNat 32 n).toNat = n % 2 ^ 32 := BitVec.toNat_ofNat ..
  have printed : bfPrintNet inet.ntop size (netBytes addr n ++ tail) =
      inet.ntop addr ++ '/' :: fmtDec (n % 2 ^ 32) := by
    have address : ((netBytes addr n ++ tail).drop 4).take size = addr := by
      show (addr ++ tail).take size = addr
      exact List.take_left' length
    rw [bfPrintNet, address, netBytes, List.append_assoc, u32At_first, word]
  show bfParseNet len start limit inet.pton (bfPrintNet inet.ntop size (netBytes addr n ++ tail)) = _
  rw [printed, bfParseNet_ok_iff inet room noSlash]
  refine ⟨_, _, addr, n % 2 ^ 32, rfl, inverse, ?_, ?_, ?_⟩
  · rw [List.take_of_length_le (by omega)]
    have high : (1000 : Nat) < ulongMax := by decide
    have reads := ReadsAs.of_decimal (decimal_fmtDec (n % 2 ^ 32)) (by rw [fmtDec_value]; omega)
    rwa [fmtDec_value] at reads
  · rw [Nat.mod_mod]
    exact le
  · have same : BitVec.ofNat 32 (n % 2 ^ 32) = BitVec.ofNat 32 n := by
      apply BitVec.eq_of_toNat_eq
      rw [BitVec.toNat_ofNat, BitVec.toNat_ofNat, Nat.mod_mod]
    rw [netBytes, netBytes, same]

end Addresses

/-- **Callbacks.**  Every pair of the table but that of interfaces makes the round trip. -/
theorem textOps_roundTrip {names : Names} {type : BfMatcherType} {op : BfMatcherOp}
    {ops : PayloadOps} (notIface : type ≠ .metaIface)
    (supported : bfMatcherGetTextOps names type op = some ops) : RoundTrip ops := by
  cases type <;> first
    | exact absurd rfl notIface
    | cases op <;> cases supported <;> first
      | exact l3Proto_roundTrip
      | exact l4Proto_roundTrip
      | exact port_roundTrip
      | exact portRange_roundTrip
      | exact probability_roundTrip
      | exact mark_roundTrip
      | exact addr_roundTrip names.inet4
      | exact addr_roundTrip names.inet6
      | exact net_roundTrip names.inet4 (by decide) (by decide) (by decide) (by decide)
      | exact net_roundTrip names.inet6 (by decide) (by decide) (by decide) (by decide)
      | exact tcpFlags_roundTrip
      | exact namedByte_roundTrip bfIcmpTypeStrs_sound
      | exact namedByte_roundTrip bfIcmpv6TypeStrs_sound
      | exact icmpCode_roundTrip

end Bpfilter
