/-
# Lib.PayloadText -- the payload parsers and printers, from text and to text

The parse callbacks of the matcher table take the text of a payload and return the
bytes they write; the print callbacks take the bytes and return what they print.
`bfMatcherPayloadOps` is the table, one pair for each type and operator.

`inet_pton` and `inet_ntop` are parameters (`Inet`): an accepted text is as long and
as spelled as addresses are, and printing is undone by parsing.  The names of
interfaces are parameters too.
-/
import Bpfilter.Cstr.Number
import Bpfilter.Cstr.Token
import Bpfilter.Lib.Payload

namespace Bpfilter

set_option autoImplicit false

open Ebpf (Byte)
open Cstr (strtoul strtoll strtok tokens isDigitOf)

/-! ## Names -/

/-- `bf_streq_i` -/
def bfStreqI (lhs rhs : List Char) : Bool := lhs.map Char.toLower = rhs.map Char.toLower

/-- A table of names, in the order of the values. -/
abbrev NameTable := List (Byte × String)

/-- `bf_ipproto_to_str` and its like: the name of a value, if it has one. -/
def NameTable.toStr (table : NameTable) (v : Byte) : Option (List Char) :=
  (table.lookup v).map String.toList

/-- `bf_ipproto_from_str` and its like: the value of a name, in any case. -/
def NameTable.fromStr (table : NameTable) (s : List Char) : Option Byte :=
  (table.find? fun entry => bfStreqI s entry.2.toList).map Prod.fst

/-- `_bf_ipproto_strs` -/
def bfIpprotoStrs : NameTable :=
  [(ipprotoHopopts, "hop"), (ipprotoIcmp, "icmp"), (2, "igmp"), (ipprotoTcp, "tcp"),
    (ipprotoUdp, "udp"), (ipprotoRouting, "routing"), (ipprotoFragment, "frag"),
    (ipprotoAh, "ah"), (ipprotoIcmpv6, "icmpv6"), (ipprotoDstopts, "dst"), (ipprotoMh, "mh")]

/-- `_bf_icmp_type_strs` -/
def bfIcmpTypeStrs : NameTable :=
  [(0, "echo-reply"), (3, "destination-unreachable"), (4, "source-quench"), (5, "redirect"),
    (8, "echo-request"), (9, "router-advertisement"), (10, "router-solicitation"),
    (11, "time-exceeded"), (12, "parameter-problem"), (13, "timestamp-request"),
    (14, "timestamp-reply"), (15, "info-request"), (16, "info-reply"),
    (17, "address-mask-request"), (18, "address-mask-reply")]

/-- `_bf_icmpv6_type_strs` -/
def bfIcmpv6TypeStrs : NameTable :=
  [(1, "destination-unreachable"), (2, "packet-too-big"), (3, "time-exceeded"),
    (4, "parameter-problem"), (128, "echo-request"), (129, "echo-reply"),
    (130, "mld-listener-query"), (131, "mld-listener-report"), (132, "mld-listener-reduction"),
    (133, "nd-router-solicit"), (134, "nd-router-advert"), (135, "nd-neighbor-solicit"),
    (136, "nd-neighbor-advert"), (143, "mld2-listener-report")]

/-- `bf_ethertype_to_str` -/
def bfEthertypeToStr (ethertype : BitVec 16) : Option (List Char) :=
  if ethertype = ethPIp then some "ipv4".toList
  else if ethertype = ethPIpv6 then some "ipv6".toList
  else none

/-- `bf_ethertype_from_str` -/
def bfEthertypeFromStr (s : List Char) : Option (BitVec 16) :=
  if bfStreqI s "ipv4".toList then some ethPIp
  else if bfStreqI s "ipv6".toList then some ethPIpv6
  else none

inductive BfTcpFlag where
  | fin | syn | rst | psh | ack | urg | ece | cwr
  deriving DecidableEq, Repr

namespace BfTcpFlag

/-- The flags, in the order of their values. -/
def all : List BfTcpFlag := [.fin, .syn, .rst, .psh, .ack, .urg, .ece, .cwr]

/-- The bit of a flag. -/
def index : BfTcpFlag → Nat
  | .fin => 0
  | .syn => 1
  | .rst => 2
  | .psh => 3
  | .ack => 4
  | .urg => 5
  | .ece => 6
  | .cwr => 7

/-- `bf_tcp_flag_to_str` -/
def toStr : BfTcpFlag → List Char
  | .fin => "fin".toList
  | .syn => "syn".toList
  | .rst => "rst".toList
  | .psh => "psh".toList
  | .ack => "ack".toList
  | .urg => "urg".toList
  | .ece => "ece".toList
  | .cwr => "cwr".toList

/-- `bf_tcp_flag_from_str` -/
def fromStr (s : List Char) : Option BfTcpFlag := all.find? fun flag => bfStreqI flag.toStr s

end BfTcpFlag

/-! ## Addresses -/

/-- What an address is spelled with. -/
def addrChar (c : Char) : Bool := isDigitOf 16 c || c = '.' || c = ':'

/-- `inet_pton` and `inet_ntop` for one family: addresses of `size` bytes, in texts of at most
`textLen` characters that start with a character of `start`. -/
structure Inet (size textLen : Nat) (start : Char → Bool) where
  pton : List Char → Option (List Byte)
  ntop : List Byte → List Char
  size_eq : ∀ {s addr}, pton s = some addr → addr.length = size
  short : ∀ {s addr}, pton s = some addr → s.length ≤ textLen
  spelled : ∀ {s addr}, pton s = some addr → ∀ c ∈ s, addrChar c = true
  starts : ∀ {s addr}, pton s = some addr → s.head?.any start = true
  pton_ntop : ∀ {addr}, addr.length = size → pton (ntop addr) = some addr

/-- `isalpha` in the C locale. -/
def isalpha (c : Char) : Bool := c.isUpper || c.isLower

/-- Where an IPv4 network may start. -/
def ip4Start (c : Char) : Bool := c.isDigit

/-- Where an IPv6 network may start. -/
def ip6Start (c : Char) : Bool := isalpha c || c.isDigit || c = ':'

/-- What the callbacks ask the system. -/
structure Names where
  inet4 : Inet 4 15 ip4Start
  inet6 : Inet 16 45 ip6Start
  /-- `bf_if_index_from_name` -/
  ifIndexFromName : List Char → Int
  /-- `bf_if_name_from_index` -/
  ifNameFromIndex : Int → Option (List Char)

/-! ## Parsers -/

/-- `_bf_parse_iface` on the text. -/
def bfParseIfaceText (names : Names) (s : List Char) : Except Errno (List Byte) :=
  bfParseIface (names.ifIndexFromName s) (strtoul 10 s).value (strtoul 10 s).endptr

/-- `_bf_parse_l3_proto` on the text. -/
def bfParseL3ProtoText (s : List Char) : Except Errno (List Byte) :=
  bfParseL3Proto (bfEthertypeFromStr s) ((strtoul 10 s).value, (strtoul 10 s).endptr)
    ((strtoul 16 s).value, (strtoul 16 s).endptr)

/-- `_bf_parse_l4_proto` on the text. -/
def bfParseL4ProtoText (s : List Char) : Except Errno (List Byte) :=
  bfParseL4Proto (bfIpprotoStrs.fromStr s) (strtoul 10 s).value (strtoul 10 s).endptr

/-- `_bf_parse_l4_port` on the text. -/
def bfParseL4PortText (s : List Char) : Except Errno (List Byte) :=
  bfParseL4Port (strtoul 10 s).value (strtoul 10 s).endptr

/-- `BF_PORT_RANGE_MAX_LEN` -/
def bfPortRangeMaxLen : Nat := 16

/-- `bf_strncpy` into a buffer of `len` bytes. -/
def bfStrncpy (len : Nat) (src : List Char) : List Char := src.take (len - 1)

/-- `_bf_parse_l4_port_range` on the text. -/
def bfParseL4PortRangeText (s : List Char) : Except Errno (List Byte) :=
  let buf := bfStrncpy bfPortRangeMaxLen s
  if s.head?.any Char.isDigit = false then .error .einval
  else
    match strtok (· = '-') buf with
    | none => .error .einval
    | some (first, second) =>
        if second = [] then .error .einval
        else bfParseL4PortRange ((strtoul 10 first).value, (strtoul 10 first).endptr)
          ((strtoul 10 second).value, (strtoul 10 second).endptr)

/-- `_bf_parse_probability` on the text. -/
def bfParseProbabilityText (s : List Char) : Except Errno (List Byte) :=
  bfParseProbability (strtoul 10 s).value (strtoul 10 s).endptr

/-- `_bf_parse_mark` on the text. -/
def bfParseMarkText (s : List Char) : Except Errno (List Byte) :=
  bfParseMark (strtoll 0 s).value (strtoll 0 s).endptr

/-- The address parsers. -/
def bfParseAddr (pton : List Char → Option (List Byte)) (s : List Char) :
    Except Errno (List Byte) :=
  match pton s with
  | some addr => .ok addr
  | none => .error .einval

/-- `_bf_parse_ipv4_addr` -/
def bfParseIpv4Addr (names : Names) : List Char → Except Errno (List Byte) :=
  bfParseAddr names.inet4.pton

/-- `_bf_parse_ipv6_addr` -/
def bfParseIpv6Addr (names : Names) : List Char → Except Errno (List Byte) :=
  bfParseAddr names.inet6.pton

/-- The network parsers: a buffer of `len` bytes, prefix lengths up to `limit`.  The length that
is read is stored in 32 bits, then checked. -/
def bfParseNet (len : Nat) (start : Char → Bool) (limit : Nat)
    (pton : List Char → Option (List Byte)) (s : List Char) : Except Errno (List Byte) :=
  let buf := bfStrncpy len s
  if s.head?.any start = false then .error .einval
  else
    match strtok (· = '/') buf with
    | none => .error .einval
    | some (strip, strmask) =>
        if strmask = [] then .error .einval
        else
          match pton strip with
          | none => .error .einval
          | some addr =>
              let prefixlen := BitVec.ofNat 32 (strtoul 10 strmask).value
              if (strtoul 10 strmask).endptr ≠ [] ∨ limit < prefixlen.toNat then .error .einval
              else .ok (leBytes32 prefixlen ++ addr)

/-- `BF_IPV4_NET_MAX_LEN` -/
def bfIpv4NetMaxLen : Nat := 32

/-- `BF_IPV6_NET_MAX_LEN` -/
def bfIpv6NetMaxLen : Nat := 50

/-- `_bf_parse_ipv4_net` -/
def bfParseIpv4Net (names : Names) : List Char → Except Errno (List Byte) :=
  bfParseNet bfIpv4NetMaxLen ip4Start 32 names.inet4.pton

/-- `_bf_parse_ipv6_net` -/
def bfParseIpv6Net (names : Names) : List Char → Except Errno (List Byte) :=
  bfParseNet bfIpv6NetMaxLen ip6Start 128 names.inet6.pton

/-- The loop of `_bf_parse_tcp_flags`. -/
def tcpFlagsLoop : List (List Char) → Byte → Except Errno Byte
  | [], flags => .ok flags
  | token :: rest, flags =>
      match BfTcpFlag.fromStr token with
      | none => .error .einval
      | some flag => tcpFlagsLoop rest (flags ||| (1 : Byte) <<< flag.index)

/-- `_bf_parse_tcp_flags` -/
def bfParseTcpFlags (s : List Char) : Except Errno (List Byte) :=
  (tcpFlagsLoop (tokens (· = ',') s) 0).map fun flags => [flags]

/-- A byte in decimal, or else in hexadecimal. -/
def bfParseByte (s : List Char) : Except Errno (List Byte) :=
  if (strtoul 10 s).endptr = [] ∧ (strtoul 10 s).value ≤ 0xff then
    .ok [BitVec.ofNat 8 (strtoul 10 s).value]
  else if (strtoul 16 s).endptr = [] ∧ (strtoul 16 s).value ≤ 0xff then
    .ok [BitVec.ofNat 8 (strtoul 16 s).value]
  else .error .einval

/-- `_bf_parse_icmp_type` and `_bf_parse_icmpv6_type`. -/
def bfParseNamedByte (table : NameTable) (s : List Char) : Except Errno (List Byte) :=
  match table.fromStr s with
  | some v => .ok [v]
  | none => bfParseByte s

/-- `_bf_parse_icmp_type` -/
def bfParseIcmpType : List Char → Except Errno (List Byte) := bfParseNamedByte bfIcmpTypeStrs

/-- `_bf_parse_icmpv6_type` -/
def bfParseIcmpv6Type : List Char → Except Errno (List Byte) := bfParseNamedByte bfIcmpv6TypeStrs

/-- `_bf_parse_icmp_code` -/
def bfParseIcmpCode : List Char → Except Errno (List Byte) := bfParseByte

/-! ## Printers -/

/-- `%u` -/
def fmtDec (n : Nat) : List Char := Nat.toDigits 10 n

/-- `0x%x` -/
def fmtHex (n : Nat) : List Char := '0' :: 'x' :: Nat.toDigits 16 n

/-- `0x%04x` -/
def fmtHex4 (n : Nat) : List Char :=
  '0' :: 'x' :: (List.replicate (4 - (Nat.toDigits 16 n).length) '0' ++ Nat.toDigits 16 n)

/-- `*(uint8_t *)payload` -/
def u8At (payload : List Byte) : Byte := leBits 8 (payload.take 1)

/-- `((uint16_t *)payload)[i]` -/
def u16At (payload : List Byte) (i : Nat) : BitVec 16 := leBits 16 ((payload.drop (2 * i)).take 2)

/-- `((uint32_t *)payload)[i]` -/
def u32At (payload : List Byte) (i : Nat) : BitVec 32 := leBits 32 ((payload.drop (4 * i)).take 4)

/-- `_bf_print_iface` -/
def bfPrintIface (names : Names) (payload : List Byte) : List Char :=
  match names.ifNameFromIndex (u32At payload 0).toInt with
  | some name => name
  | none => fmtDec (u32At payload 0).toNat

/-- `_bf_print_l3_proto` -/
def bfPrintL3Proto (payload : List Byte) : List Char :=
  match bfEthertypeToStr (u16At payload 0) with
  | some name => name
  | none => fmtHex4 (u16At payload 0).toNat

/-- The printers of bytes with names. -/
def bfPrintNamedByte (table : NameTable) (payload : List Byte) : List Char :=
  match table.toStr (u8At payload) with
  | some name => name
  | none => fmtDec (u8At payload).toNat

/-- `_bf_print_l4_proto` -/
def bfPrintL4Proto : List Byte → List Char := bfPrintNamedByte bfIpprotoStrs

/-- `_bf_print_icmp_type` -/
def bfPrintIcmpType : List Byte → List Char := bfPrintNamedByte bfIcmpTypeStrs

/-- `_bf_print_icmpv6_type` -/
def bfPrintIcmpv6Type : List Byte → List Char := bfPrintNamedByte bfIcmpv6TypeStrs

/-- `_bf_print_icmp_code` -/
def bfPrintIcmpCode (payload : List Byte) : List Char := fmtDec (u8At payload).toNat

/-- `_bf_print_l4_port` -/
def bfPrintL4Port (payload : List Byte) : List Char := fmtDec (htobe16 (u16At payload 0)).toNat

/-- `_bf_print_l4_port_range` -/
def bfPrintL4PortRange (payload : List Byte) : List Char :=
  fmtDec (u16At payload 0).toNat ++ '-' :: fmtDec (u16At payload 1).toNat

/-- `_bf_print_probability` -/
def bfPrintProbability (payload : List Byte) : List Char := fmtDec (u8At payload).toNat ++ ['%']

/-- `_bf_print_mark` -/
def bfPrintMark (payload : List Byte) : List Char := fmtHex (u32At payload 0).toNat

/-- `_bf_print_ipv4_addr` -/
def bfPrintIpv4Addr (names : Names) (payload : List Byte) : List Char :=
  names.inet4.ntop (payload.take 4)

/-- `_bf_print_ipv6_addr` -/
def bfPrintIpv6Addr (names : Names) (payload : List Byte) : List Char :=
  names.inet6.ntop (payload.take 16)

/-- The printers of networks. -/
def bfPrintNet (ntop : List Byte → List Char) (size : Nat) (payload : List Byte) : List Char :=
  ntop ((payload.drop 4).take size) ++ '/' :: fmtDec (u32At payload 0).toNat

/-- `_bf_print_ipv4_net` -/
def bfPrintIpv4Net (names : Names) : List Byte → List Char := bfPrintNet names.inet4.ntop 4

/-- `_bf_print_ipv6_net` -/
def bfPrintIpv6Net (names : Names) : List Byte → List Char := bfPrintNet names.inet6.ntop 16

/-- The loop of `_bf_print_tcp_flags`: a flag is cleared when it is printed, and a comma follows
while others are left. -/
def printTcpFlagsLoop : List BfTcpFlag → Byte → List Char
  | [], _ => []
  | i :: rest, flag =>
      if flag.getLsbD i.index then
        let flag := flag &&& ~~~((1 : Byte) <<< i.index)
        i.toStr ++ (if flag ≠ 0 then [','] else []) ++ printTcpFlagsLoop rest flag
      else printTcpFlagsLoop rest flag

/-- `_bf_print_tcp_flags` -/
def bfPrintTcpFlags (payload : List Byte) : List Char :=
  printTcpFlagsLoop BfTcpFlag.all (u8At payload)

/-! ## The callbacks of the matcher table -/

/-- The callbacks of an operator. -/
structure PayloadOps where
  parse : List Char → Except Errno (List Byte)
  print : List Byte → List Char

/-- One pair of callbacks for equality, inequality and set membership. -/
def eqNeInText (ops : PayloadOps) : List (BfMatcherOp × PayloadOps) :=
  [(.eq, ops), (.ne, ops), (.inSet, ops)]

def portTextOps : PayloadOps := ⟨bfParseL4PortText, bfPrintL4Port⟩

def portRangeTextOps : PayloadOps := ⟨bfParseL4PortRangeText, bfPrintL4PortRange⟩

def l4ProtoTextOps : PayloadOps := ⟨bfParseL4ProtoText, bfPrintL4Proto⟩

def tcpFlagsTextOps : PayloadOps := ⟨bfParseTcpFlags, bfPrintTcpFlags⟩

def markTextOps : PayloadOps := ⟨bfParseMarkText, bfPrintMark⟩

/-- The callbacks in `_bf_matcher_metas`. -/
def bfMatcherTextOps (names : Names) : BfMatcherType → List (BfMatcherOp × PayloadOps)
  | .metaIface => [(.eq, ⟨bfParseIfaceText names, bfPrintIface names⟩)]
  | .metaL3Proto => [(.eq, ⟨bfParseL3ProtoText, bfPrintL3Proto⟩)]
  | .metaL4Proto => [(.eq, l4ProtoTextOps), (.ne, l4ProtoTextOps)]
  | .metaSport | .metaDport =>
      [(.eq, portTextOps), (.ne, portTextOps), (.range, portRangeTextOps)]
  | .metaProbability => [(.eq, ⟨bfParseProbabilityText, bfPrintProbability⟩)]
  | .metaMark => [(.eq, markTextOps), (.ne, markTextOps)]
  | .ip4Saddr | .ip4Daddr => eqNeInText ⟨bfParseIpv4Addr names, bfPrintIpv4Addr names⟩
  | .ip4Snet | .ip4Dnet => eqNeInText ⟨bfParseIpv4Net names, bfPrintIpv4Net names⟩
  | .ip4Proto | .ip6Nexthdr => eqNeInText l4ProtoTextOps
  | .ip6Saddr | .ip6Daddr => eqNeInText ⟨bfParseIpv6Addr names, bfPrintIpv6Addr names⟩
  | .ip6Snet | .ip6Dnet => eqNeInText ⟨bfParseIpv6Net names, bfPrintIpv6Net names⟩
  | .tcpSport | .tcpDport | .udpSport | .udpDport =>
      [(.eq, portTextOps), (.ne, portTextOps), (.inSet, portTextOps), (.range, portRangeTextOps)]
  | .tcpFlags =>
      [(.eq, tcpFlagsTextOps), (.ne, tcpFlagsTextOps), (.any, tcpFlagsTextOps),
        (.all, tcpFlagsTextOps)]
  | .icmpType => eqNeInText ⟨bfParseIcmpType, bfPrintIcmpType⟩
  | .icmpCode | .icmpv6Code => eqNeInText ⟨bfParseIcmpCode, bfPrintIcmpCode⟩
  | .icmpv6Type => eqNeInText ⟨bfParseIcmpv6Type, bfPrintIcmpv6Type⟩
  | .set => []

/-- `bf_matcher_get_ops(type, op)`: the callbacks of a supported operator. -/
def bfMatcherGetTextOps (names : Names) (type : BfMatcherType) (op : BfMatcherOp) :
    Option PayloadOps :=
  (bfMatcherTextOps names type).lookup op

/-- `bf_matcher_new_from_raw`; `fresh` is what `malloc` returned for the payload. -/
def bfMatcherNewFromRaw (names : Names) (fresh : Nat → Byte) (type : BfMatcherType)
    (op : BfMatcherOp) (payload : List Char) : Except Errno BfMatcher :=
  match bfMatcherGetOps type op, bfMatcherGetTextOps names type op with
  | some size, some ops =>
      match ops.parse payload with
      | .error e => .error e
      | .ok bytes => .ok ⟨type, op, bytes ++ ((List.range size).map fresh).drop bytes.length⟩
  | _, _ => .error .enoent

/-- A text that is parsed becomes the first bytes of the payload. -/
theorem bfMatcherNewFromRaw_parsed {names : Names} {fresh : Nat → Byte} {type : BfMatcherType}
    {op : BfMatcherOp} {s : List Char} {size : Nat} {ops : PayloadOps} {bytes : List Byte}
    (sized : bfMatcherGetOps type op = some size)
    (text : bfMatcherGetTextOps names type op = some ops) (parsed : ops.parse s = .ok bytes) :
    bfMatcherNewFromRaw names fresh type op s =
      .ok ⟨type, op, bytes ++ ((List.range size).map fresh).drop bytes.length⟩ := by
  rw [bfMatcherNewFromRaw, sized, text]
  simp only [parsed]

end Bpfilter
