/-
# Cgen.ViewMatch -- the code of a matcher decides its meaning

In a state that shows a view, the code of every supported matcher falls through exactly
when the matcher holds of the view (`Shows.continues_iff`), one lemma a family of
matchers.  It leaves a state that shows the view again, with one random number less for
a probability matcher (`Shows.outcome`): only those draw numbers (`matcherSlots_drawless`).
-/
import Bpfilter.Cgen.PacketView
import Bpfilter.Cgen.MatcherRuns

namespace Bpfilter

set_option autoImplicit false

open Ebpf

variable {W : Type} {env : Env W BfElfstubId} {maps : BfMaps} {host : Host} {chain : BfChain}
  {others : List (Addr × Nat)} {rng : W → Nat → BitVec 32} {flavor : BfFlavor} {v : PacketView}
  {c : Core W} {op : BfMatcherOp} {payload : List Byte}

/-! ## Payloads -/

theorem exists_leBytes16 (length : payload.length = 2) : ∃ x, payload = leBytes16 x := by
  refine ⟨leBits 16 payload, (leBits_inj (n := 2) length rfl).mp ?_⟩
  exact (leBits_leBytes16 _).symm

theorem exists_leBytes32 (length : payload.length = 4) : ∃ x, payload = leBytes32 x := by
  refine ⟨leBits 32 payload, (leBits_inj (n := 4) length rfl).mp ?_⟩
  exact (leBits_leBytes32 _).symm

/-- A payload of one byte. -/
theorem exists_byte (length : payload.length = 1) : ∃ b, payload = [b] :=
  List.length_eq_one_iff.mp length

/-! ## Metadata -/

section Metadata

variable (shows_ : Shows host flavor rng others v c)

include shows_

theorem iface_iff (length : payload.length = 4) :
    Continues env maps (matcherSlots host chain ⟨.metaIface, .eq, payload⟩) c ↔
      BfMatcher.holds chain ⟨.metaIface, .eq, payload⟩ v = true := by
  obtain ⟨x, rfl⟩ := exists_leBytes32 length
  rw [metaIface_decides shows_.ifindex]
  simp [BfMatcher.holds, payloadU32_addr]

theorem l3Proto_iff (length : payload.length = 2) :
    Continues env maps (matcherSlots host chain ⟨.metaL3Proto, .eq, payload⟩) c ↔
      BfMatcher.holds chain ⟨.metaL3Proto, .eq, payload⟩ v = true := by
  obtain ⟨x, rfl⟩ := exists_leBytes16 length
  rw [metaL3Proto_decides, shows_.ethertype, setWidth64_inj (by decide), htobe16_inj]
  simp [BfMatcher.holds, payloadU16_single]

theorem l4Proto_iff (length : payload.length = 2) :
    Continues env maps (matcherSlots host chain ⟨.metaL4Proto, op, payload⟩) c ↔
      BfMatcher.holds chain ⟨.metaL4Proto, op, payload⟩ v = true := by
  obtain ⟨proto, rest, rfl⟩ := List.length_eq_two.mp length
  rw [metaL4Proto_decides op proto [rest] c shows_.protocol]
  simp only [BfMatcher.holds, payloadU8_cons]

theorem probability_iff (length : payload.length = 1)
    (percent : (⟨.metaProbability, .eq, payload⟩ : BfMatcher).payloadU8.toNat ≤ 100)
    (draws : (env.helper bpfFuncGetPrandomU32 c.args c.mem c.world).r0 =
      (rng c.world 0).setWidth 64) :
    Continues env maps (matcherSlots host chain ⟨.metaProbability, .eq, payload⟩) c ↔
      BfMatcher.holds chain ⟨.metaProbability, .eq, payload⟩ v = true := by
  obtain ⟨b, rfl⟩ := exists_byte length
  rw [payloadU8_singleton] at percent
  have decides := @metaProbability_decides W env maps host chain b.toNat percent c _ draws
  rw [BitVec.ofNat_toNat, BitVec.setWidth_eq] at decides
  rw [decides, shows_.draws]
  simp only [BfMatcher.holds, payloadU8_singleton, Bool.not_eq_true', decide_eq_false_iff_not]

theorem mark_iff (length : payload.length = 4) (isOp : op = .eq ∨ op = .ne)
    (reads : bfHookToFlavor chain.hook ≠ .xdp) (same : flavor = bfHookToFlavor chain.hook) :
    Continues env maps (matcherSlots host chain ⟨.metaMark, op, payload⟩) c ↔
      BfMatcher.holds chain ⟨.metaMark, op, payload⟩ v = true := by
  subst same
  obtain ⟨x, rfl⟩ := exists_leBytes32 length
  obtain ⟨eq, ne⟩ := @metaMark_decides W env maps host chain reads x v.mark c
    (shows_.mark reads).loads
  simp only [BfMatcher.holds, payloadU32_addr, opHolds_iff]
  rcases isOp with rfl | rfl
  · rw [eq]
    exact (iff_true_right rfl).symm
  · rw [ne]
    exact (iff_false_right (by decide)).symm

end Metadata

/-! ## Ports -/

section Ports

/-- A payload of ports is that of a test. -/
theorem portTest_payload (type : BfMatcherType)
    (sized : ((op = .eq ∨ op = .ne) ∧ payload.length = 2) ∨ (op = .range ∧ payload.length = 4)) :
    (⟨type, op, payload⟩ : BfMatcher).portTest.op = op ∧
      (⟨type, op, payload⟩ : BfMatcher).portTest.payload = payload := by
  rcases sized with ⟨one, length⟩ | ⟨rfl, length⟩
  · obtain ⟨x, rfl⟩ := exists_leBytes16 length
    rcases one with rfl | rfl <;>
      simp only [BfMatcher.portTest, PortTest.op, PortTest.payload, payloadU16_single,
        htobe16_htobe16, and_self]
  · have split : payload = payload.take 2 ++ payload.drop 2 := (List.take_append_drop 2 _).symm
    have half : (payload.take 2).length = 2 := by
      rw [List.length_take]
      omega
    have rest : (payload.drop 2).length = 2 := by
      rw [List.length_drop]
      omega
    obtain ⟨a, first⟩ := exists_leBytes16 half
    obtain ⟨b, second⟩ := exists_leBytes16 rest
    rw [split, first, second]
    simp only [BfMatcher.portTest, PortTest.op, PortTest.payload, payloadU16_first,
      payloadU16_second, and_self]

/-- Where the port of a side is in the transport header. -/
def PortSide.start : PortSide → Nat
  | .source => 0
  | .destination => 2

/-- The field of a port matcher is the port. -/
theorem port_field (v : PacketView) (side : PortSide) (proto : PortProtocol) :
    v.field (side.protoType proto) =
      [v.transport side.start, v.transport (side.start + 1)] := by
  cases side <;> cases proto <;> rfl

theorem port_carries (v : PacketView) (side : PortSide) (proto : PortProtocol) :
    v.carries (side.protoType proto) = decide (v.protocol = proto.number) := by
  cases side <;> cases proto <;> rfl

variable (shows_ : Shows host flavor rng others v c)

include shows_

/-- The port of a packet of a protocol. -/
theorem Shows.portAt (side : PortSide) (proto : PortProtocol) (is : v.protocol = proto.number) :
    PortAt proto side (v.port side.start) c := by
  have protocol : c.regs 8 = proto.number.setWidth 64 := by rw [shows_.protocol, is]
  refine ⟨protocol, ?_⟩
  have carried : Bpfilter.carries c (side.protoType proto) = true := by
    rw [shows_.carries, port_carries, is]
    exact decide_eq_true rfl
  have bytes := shows_.fieldBytes carried
  rw [port_field] at bytes
  have field : Bpfilter.fieldBytes c (side.protoType proto) =
      c.mem.bytesAt (c.mem.load (ctxAddr (c.regs 10) .l4Hdr) 8 + side.offset.signExtend 64) 2 := by
    cases side <;> cases proto <;> rfl
  rw [load_eq_leBits _ _ (by decide), ← field, bytes, PacketView.port, htobe16_htobe16]

theorem port_iff (side : PortSide) (proto : PortProtocol)
    (sized : ((op = .eq ∨ op = .ne) ∧ payload.length = 2) ∨ (op = .range ∧ payload.length = 4)) :
    Continues env maps (matcherSlots host chain ⟨side.protoType proto, op, payload⟩) c ↔
      BfMatcher.holds chain ⟨side.protoType proto, op, payload⟩ v = true := by
  obtain ⟨isOp, isPayload⟩ := portTest_payload (side.protoType proto) sized
  have meaning : BfMatcher.holds chain ⟨side.protoType proto, op, payload⟩ v =
      (decide (v.protocol = proto.number) &&
        decide ((⟨side.protoType proto, op, payload⟩ : BfMatcher).portTest.Holds
          (v.port side.start))) := by
    rw [← port_carries v side proto, PacketView.port, ← port_field v side proto]
    cases side <;> cases proto <;> rfl
  rw [meaning, Bool.and_eq_true, decide_eq_true_iff, decide_eq_true_iff]
  generalize (⟨side.protoType proto, op, payload⟩ : BfMatcher).portTest = t at isOp isPayload ⊢
  subst isOp isPayload
  by_cases is : v.protocol = proto.number
  · rw [protoPort_continues_iff proto side t (shows_.portAt side proto is), and_iff_right is]
  · have other : c.regs 8 ≠ proto.number.setWidth 64 := by
      rw [shows_.protocol]
      exact fun same => is ((setWidth64_inj (by decide) _ _).mp same)
    refine iff_of_false (fun goesOn => ?_) fun both => is both.1
    exact not_continues_and_skips ⟨goesOn, protoPort_skips proto side t other⟩

theorem metaPort_iff (side : PortSide)
    (sized : ((op = .eq ∨ op = .ne) ∧ payload.length = 2) ∨ (op = .range ∧ payload.length = 4)) :
    Continues env maps (matcherSlots host chain ⟨side.metaType, op, payload⟩) c ↔
      BfMatcher.holds chain ⟨side.metaType, op, payload⟩ v = true := by
  obtain ⟨isOp, isPayload⟩ := portTest_payload side.metaType sized
  have meaning : BfMatcher.holds chain ⟨side.metaType, op, payload⟩ v = true ↔
      (v.protocol = ipprotoTcp ∨ v.protocol = ipprotoUdp) ∧ v.port side.start ≠ 0 ∧
        (⟨side.metaType, op, payload⟩ : BfMatcher).portTest.Holds (v.port side.start) := by
    cases side <;>
    · simp only [BfMatcher.holds, BfMatcher.metaPortTest, PortSide.metaType, PortSide.start,
        Bool.and_eq_true, decide_eq_true_iff, and_assoc]
      exact and_congr_right' (and_congr_right' decide_eq_true_iff)
  rw [meaning]
  generalize (⟨side.metaType, op, payload⟩ : BfMatcher).portTest = t at isOp isPayload ⊢
  subst isOp isPayload
  by_cases some : ∃ proto : PortProtocol, v.protocol = proto.number
  · obtain ⟨proto, is⟩ := some
    have known : v.protocol = ipprotoTcp ∨ v.protocol = ipprotoUdp := by
      cases proto with
      | tcp => exact .inl is
      | udp => exact .inr is
    rw [metaPort_continues_iff proto side t (shows_.portAt side proto is), and_iff_right known]
  · have other : ∀ proto : PortProtocol, c.regs 8 ≠ proto.number.setWidth 64 := by
      intro proto same
      rw [shows_.protocol] at same
      exact some ⟨proto, (setWidth64_inj (by decide) _ _).mp same⟩
    refine iff_of_false (fun goesOn => ?_) ?_
    · exact not_continues_and_skips ⟨goesOn, metaPort_skips side t other⟩
    · rintro ⟨tcp | udp, -⟩
      · exact some ⟨.tcp, tcp⟩
      · exact some ⟨.udp, udp⟩

end Ports

/-! ## Addresses -/

section Addresses

/-- The addresses are fields of the table. -/
theorem addr_field {ip : IpVersion} (t : AddrTest ip) (side : AddrSide) (c : Core W) :
    (carries c (t.type side) = true ↔ c.regs 7 = ip.protocol) ∧
      fieldBytes c (t.type side) = packetAddr ip side c := by
  have proto : (carries c (t.type side) = true ↔ c.regs 7 = ip.protocol) := by
    cases ip <;> cases side <;> cases net : t.prefixlen <;>
      simp only [AddrTest.type, net] <;> exact decide_eq_true_iff
  refine ⟨proto, ?_⟩
  cases ip <;> cases side <;> cases net : t.prefixlen <;> simp only [AddrTest.type, net] <;> rfl

/-- What follows the address in a payload is not read. -/
theorem matcherSlots_padded {ip : IpVersion} (t : AddrTest ip) (side : AddrSide) (op : BfMatcherOp)
    (pad : List Byte) (net : t.prefixlen.isSome = true) :
    matcherSlots host chain ⟨t.type side, op, t.payload ++ pad⟩ =
      matcherSlots host chain ⟨t.type side, op, t.payload⟩ := by
  obtain ⟨n, net⟩ := Option.isSome_iff_exists.mp net
  have length : t.payload.length = 4 + ip.size := by
    rw [AddrTest.payload, net, List.length_append, t.sized]
    rfl
  have take : ∀ k m, k + m ≤ 4 + ip.size →
      ((t.payload ++ pad).drop k).take m = (t.payload.drop k).take m := by
    intro k m fits
    rw [List.drop_append_of_le_length (by omega), List.take_append_of_le_length]
    rw [List.length_drop]
    omega
  cases ip with
  | v4 =>
      cases side <;>
        simp only [AddrTest.type, net, matcherSlots, ip4Slots, ip4NetSlots, BfMatcher.payloadU32,
          take (4 * 0) 4 (by decide), take (4 * 1) 4 (by decide)]
  | v6 =>
      cases side <;>
        simp only [AddrTest.type, net, matcherSlots, ip6Slots, ip6NetSlots, BfMatcher.payloadU32,
          take (4 * 0) 4 (by decide), take 4 16 (by decide)]

/-- A payload of an address is that of a test. -/
theorem addrTest_whole {type : BfMatcherType} (ip : IpVersion) (plain : type.isNet = false)
    (length : payload.length = ip.size) :
    ((⟨type, op, payload⟩ : BfMatcher).addrTest ip).payload = payload := by
  have whole : payload.takeD ip.size 0 = payload := by
    rw [List.takeD_eq_take _ (by omega), List.take_of_length_le (by omega)]
  simp only [BfMatcher.addrTest, plain, Bool.false_eq_true, if_false, AddrTest.payload, whole]

/-- A payload of a network is that of a test, and perhaps padding. -/
theorem addrTest_net {type : BfMatcherType} (ip : IpVersion) (net : type.isNet = true)
    (length : 4 + ip.size ≤ payload.length)
    (fits : ((⟨type, op, payload⟩ : BfMatcher).payloadU32 0).toNat ≤ 8 * ip.size) :
    ((⟨type, op, payload⟩ : BfMatcher).addrTest ip).payload ++ payload.drop (4 + ip.size) =
      payload := by
  have head : (payload.take 4).length = 4 := by
    rw [List.length_take]
    omega
  obtain ⟨prefixlen, first⟩ := exists_leBytes32 head
  have value : (⟨type, op, payload⟩ : BfMatcher).payloadU32 0 = prefixlen := by
    rw [BfMatcher.payloadU32, Nat.mul_zero, List.drop_zero, first, leBits_leBytes32]
  have number : BitVec.ofNat 32 (Fin.ofNat (8 * ip.size + 1) prefixlen.toNat).val = prefixlen := by
    rw [value] at fits
    rw [Fin.val_ofNat, Nat.mod_eq_of_lt (by omega), BitVec.ofNat_toNat, BitVec.setWidth_eq]
  have addr : (payload.drop 4).takeD ip.size 0 = (payload.drop 4).take ip.size :=
    List.takeD_eq_take _ (by rw [List.length_drop]; omega)
  simp only [BfMatcher.addrTest, net, if_true, AddrTest.payload, value, addr]
  rw [number, ← first, List.append_assoc, ← List.drop_drop, List.take_append_drop,
    List.take_append_drop]

variable (shows_ : Shows host flavor rng others v c)

include shows_

/-- The address matchers of one version and side. -/
theorem addr_iff {type : BfMatcherType} {ip : IpVersion} (side : AddrSide) {pad : List Byte}
    {t : AddrTest ip} (isType : t.type side = type) (isPayload : t.payload ++ pad = payload)
    (padded : pad ≠ [] → t.prefixlen.isSome = true)
    (meaning : BfMatcher.holds chain ⟨type, op, payload⟩ v =
      (v.carries type && opHolds op (t.Agrees (v.field type)))) :
    Continues env maps (matcherSlots host chain ⟨type, op, payload⟩) c ↔
      BfMatcher.holds chain ⟨type, op, payload⟩ v = true := by
  have slots : matcherSlots host chain ⟨type, op, payload⟩ =
      matcherSlots host chain ⟨t.type side, op, t.payload⟩ := by
    subst isType isPayload
    by_cases none : pad = []
    · rw [none, List.append_nil]
    · exact matcherSlots_padded t side op pad (padded none)
  obtain ⟨decides, skips⟩ := @matcherSlots_decidesAddr host chain ip t side op W env maps c
  obtain ⟨proto, field⟩ := addr_field t side c
  rw [slots, meaning, Bool.and_eq_true, ← shows_.carries, ← isType, proto, opHolds_iff_wanted]
  by_cases is : c.regs 7 = ip.protocol
  · rw [(decides is).1, and_iff_right is, ← shows_.fieldBytes (proto.mpr is), field]
  · refine iff_of_false (fun goesOn => ?_) fun both => is both.1
    exact not_continues_and_skips ⟨goesOn, skips is⟩

/-- The matchers of a whole address. -/
theorem addrWhole_iff {type : BfMatcherType} (ip : IpVersion) (side : AddrSide)
    (plain : type.isNet = false) (length : payload.length = ip.size)
    (isType : ((⟨type, op, payload⟩ : BfMatcher).addrTest ip).type side = type)
    (meaning : BfMatcher.holds chain ⟨type, op, payload⟩ v = (v.carries type && opHolds op
      (((⟨type, op, payload⟩ : BfMatcher).addrTest ip).Agrees (v.field type)))) :
    Continues env maps (matcherSlots host chain ⟨type, op, payload⟩) c ↔
      BfMatcher.holds chain ⟨type, op, payload⟩ v = true := by
  have exact_ : ((⟨type, op, payload⟩ : BfMatcher).addrTest ip).payload ++ [] = payload := by
    rw [List.append_nil, addrTest_whole ip plain length]
  exact addr_iff shows_ side isType exact_ (fun some => absurd rfl some) meaning

/-- The matchers of a network. -/
theorem addrNet_iff {type : BfMatcherType} (ip : IpVersion) (side : AddrSide)
    (net : type.isNet = true) (length : 4 + ip.size ≤ payload.length)
    (fits : ((⟨type, op, payload⟩ : BfMatcher).payloadU32 0).toNat ≤ 8 * ip.size)
    (isType : ((⟨type, op, payload⟩ : BfMatcher).addrTest ip).type side = type)
    (meaning : BfMatcher.holds chain ⟨type, op, payload⟩ v = (v.carries type && opHolds op
      (((⟨type, op, payload⟩ : BfMatcher).addrTest ip).Agrees (v.field type)))) :
    Continues env maps (matcherSlots host chain ⟨type, op, payload⟩) c ↔
      BfMatcher.holds chain ⟨type, op, payload⟩ v = true := by
  refine addr_iff shows_ side isType (addrTest_net ip net length fits) (fun _ => ?_) meaning
  simp only [BfMatcher.addrTest, net, if_true, Option.isSome_some]

end Addresses

/-! ## Fields of one byte, and flags -/

section Bytes

/-- Code that checks the ethertype first leaves for packets of others. -/
theorem network_skips {es : List Emitted} (e : BitVec 16)
    (first : es.head? = some (nextSlot (bpfJmpImm .ne 7 ((htobe16 e).setWidth 32) 0)))
    (other : c.regs 7 ≠ (htobe16 e).setWidth 64) : Skips env maps es c := by
  obtain ⟨rest, rfl⟩ := List.head?_eq_some_iff.mp first
  refine ⟨c, runs_of_eval (e := .out c) ?_⟩
  rw [List.map_cons, eval_nextSlot rfl, taken_ne_proto, if_pos (decide_eq_true other)]
  rfl

/-- Code that checks the protocol first leaves for packets of others. -/
theorem transport_skips {es rest : List Emitted} (proto : BitVec 8)
    (slots : es = l4Slots proto rest) (other : c.regs 8 ≠ proto.setWidth 64) :
    Skips env maps es c := by
  refine ⟨c, runs_of_eval (e := .out c) ?_⟩
  rw [slots, l4Slots, List.map_cons, eval_nextSlot rfl, taken_ne, signExtend_byte,
    if_pos (decide_eq_true other)]
  rfl

variable (shows_ : Shows host flavor rng others v c)

include shows_

theorem ip4Proto_iff (length : payload.length = 1) :
    Continues env maps (matcherSlots host chain ⟨.ip4Proto, op, payload⟩) c ↔
      BfMatcher.holds chain ⟨.ip4Proto, op, payload⟩ v = true := by
  obtain ⟨b, rfl⟩ := exists_byte length
  have carried := shows_.carries .ip4Proto
  have meaning : BfMatcher.holds chain ⟨.ip4Proto, op, [b]⟩ v =
      (v.carries .ip4Proto && opHolds op (v.field .ip4Proto = [b])) := by
    rw [BfMatcher.holds, BfMatcher.fieldTest, payloadU8_singleton]
  rw [meaning, ← carried, Bool.and_eq_true]
  cases has : carries c .ip4Proto with
  | true =>
      have ipv4 : c.regs 7 = ipv4Reg := of_decide_eq_true has
      have bytes := shows_.fieldBytes has
      have field : fieldBytes c .ip4Proto =
          c.mem.bytesAt (c.mem.load (ctxAddr (c.regs 10) .l3Hdr) 8 + 9) 1 := rfl
      have protocol : (ip4Packet c).protocol = b ↔ v.field .ip4Proto = [b] := by
        have one : (leBits (8 * 1) [b] : BitVec 8) = b := leBits_byte b
        rw [← bytes, field, ← leBits_inj (n := 1) (Mem.bytesAt_length ..) rfl, one]
        exact Iff.rfl
      rw [ip4Proto_decides op b ipv4, and_iff_right rfl]
      exact iff_of_eq (congrArg (opHolds op · = true) (decide_eq_decide.mpr protocol))
  | false =>
      have other : c.regs 7 ≠ (htobe16 ethPIp).setWidth 64 := of_decide_eq_false has
      refine iff_of_false (fun goesOn => ?_) fun both => absurd both.1 Bool.false_ne_true
      exact not_continues_and_skips ⟨goesOn, network_skips ethPIp rfl other⟩

theorem nexthdr_iff (length : payload.length = 1) (isOp : op = .eq ∨ op = .ne) :
    Continues env maps (matcherSlots host chain ⟨.ip6Nexthdr, op, payload⟩) c ↔
      BfMatcher.holds chain ⟨.ip6Nexthdr, op, payload⟩ v = true := by
  obtain ⟨b, rfl⟩ := exists_byte length
  have meaning : BfMatcher.holds chain ⟨.ip6Nexthdr, op, [b]⟩ v =
      (v.carries .ip6Nexthdr && opHolds op
        ((⟨.ip6Nexthdr, op, [b]⟩ : BfMatcher).nexthdrTest v)) := rfl
  rw [meaning, ← shows_.carries, Bool.and_eq_true]
  cases has : carries c .ip6Nexthdr with
  | true =>
      have ipv6 : c.regs 7 = ipv6Reg := of_decide_eq_true has
      rw [ip6Nexthdr_decides op isOp b ipv6 shows_.protocol, and_iff_right rfl, shows_.extensions,
        opHolds, BfMatcher.nexthdrTest, payloadU8_singleton, beq_iff_eq]
      split
      · exact decide_eq_decide.symm
      · exact decide_eq_decide.symm
  | false =>
      have other : c.regs 7 ≠ (htobe16 ethPIpv6).setWidth 64 := of_decide_eq_false has
      refine iff_of_false (fun goesOn => ?_) fun both => absurd both.1 Bool.false_ne_true
      exact not_continues_and_skips ⟨goesOn, network_skips ethPIpv6 rfl other⟩

end Bytes

/-! ## Flags and ICMP -/

section Transport

theorem flagTest_iff (isOp : isFlagOp op = true) (f g : Byte) :
    (⟨.tcpFlags, op, [f]⟩ : BfMatcher).flagTest g = true ↔
      flagsHold op (flagsOf f) (flagsOf g) := by
  rw [BfMatcher.flagTest, payloadU8_singleton]
  cases op with
  | eq => exact decide_eq_true_iff.trans (flagsOf_inj g f).symm
  | ne => exact decide_eq_true_iff.trans (flagsOf_inj g f).symm.not
  | any =>
      refine decide_eq_true_iff.trans ?_
      rw [flagsHold, Set.inter_comm, ← flagsOf_and, Set.nonempty_iff_ne_empty, ← flagsOf_zero]
      exact (flagsOf_inj _ _).symm.not
  | all =>
      refine decide_eq_true_iff.trans ?_
      rw [flagsHold, ← Set.inter_eq_left, Set.inter_comm, ← flagsOf_and]
      exact (flagsOf_inj _ _).symm
  | inSet | range => cases isOp

/-- Where a field of ICMP is. -/
def icmpField : BfMatcherType → Option (BitVec 8 × Nat)
  | .icmpType => some (ipprotoIcmp, 0)
  | .icmpCode => some (ipprotoIcmp, 1)
  | .icmpv6Type => some (ipprotoIcmpv6, 0)
  | .icmpv6Code => some (ipprotoIcmpv6, 1)
  | _ => none

variable (shows_ : Shows host flavor rng others v c)

include shows_

theorem flags_iff (length : payload.length = 1) (isOp : isFlagOp op = true) :
    Continues env maps (matcherSlots host chain ⟨.tcpFlags, op, payload⟩) c ↔
      BfMatcher.holds chain ⟨.tcpFlags, op, payload⟩ v = true := by
  obtain ⟨f, rfl⟩ := exists_byte length
  have meaning : BfMatcher.holds chain ⟨.tcpFlags, op, [f]⟩ v = (v.carries .tcpFlags &&
      (⟨.tcpFlags, op, [f]⟩ : BfMatcher).flagTest (leBits 8 (v.field .tcpFlags))) := rfl
  rw [meaning, ← shows_.carries, Bool.and_eq_true]
  cases has : carries c .tcpFlags with
  | true =>
      have tcp : c.regs 8 = ipprotoTcp.setWidth 64 := of_decide_eq_true has
      have here : FlagsAt (leBits 8 (v.field .tcpFlags)) c := by
        refine ⟨tcp, ?_⟩
        rw [load_eq_leBits _ _ (by decide), ← shows_.fieldBytes has]
        rfl
      rw [flags_continues_iff isOp f here, flagTest_iff isOp, and_iff_right rfl]
  | false =>
      have other : c.regs 8 ≠ ipprotoTcp.setWidth 64 := of_decide_eq_false has
      refine iff_of_false (fun goesOn => ?_) fun both => absurd both.1 Bool.false_ne_true
      exact not_continues_and_skips ⟨goesOn, flags_skips op f other⟩

theorem icmp_iff {type : BfMatcherType} {proto : BitVec 8} {off : Nat}
    (field : icmpField type = some (proto, off)) (length : payload.length = 1)
    (isOp : op = .eq ∨ op = .ne) :
    Continues env maps (matcherSlots host chain ⟨type, op, payload⟩) c ↔
      BfMatcher.holds chain ⟨type, op, payload⟩ v = true := by
  obtain ⟨b, rfl⟩ := exists_byte length
  have slots : matcherSlots host chain ⟨type, op, [b]⟩ = l4Slots proto
      [{ insn := bpfLdxMem .b 1 6 (BitVec.ofNat 16 off) },
        nextSlot (bpfJmpImm (mismatchJmp op) 1 (b.setWidth 32) 0)] := by
    rcases isOp with rfl | rfl <;> cases type <;> cases field <;>
    · simp only [matcherSlots, icmpSlots, icmpFieldSlots, payloadU8_singleton, mismatchJmp,
        reduceCtorEq, if_true, if_false]
      rfl
  have meaning : BfMatcher.holds chain ⟨type, op, [b]⟩ v =
      (v.carries type && opHolds op (v.field type = [b])) := by
    cases type <;> cases field <;>
      rw [BfMatcher.holds, BfMatcher.fieldTest, payloadU8_singleton]
  have layer : (carries c type = true ↔ c.regs 8 = proto.setWidth 64) ∧
      fieldBytes c type = c.mem.bytesAt (c.mem.load (ctxAddr (c.regs 10) .l4Hdr) 8 +
        (BitVec.ofNat 16 off).signExtend 64) 1 := by
    cases type <;> cases field <;> exact ⟨decide_eq_true_iff, rfl⟩
  rw [meaning, ← shows_.carries, Bool.and_eq_true]
  by_cases has : c.regs 8 = proto.setWidth 64
  · have carried := layer.1.mpr has
    let header := c.setReg 6 (c.mem.load (ctxAddr (c.regs 10) .l4Hdr) 8)
    let loaded := header.setReg 1 ((leBits 8 (fieldBytes c type)).setWidth 64)
    have checked : (bpfJmpImm .ne 8 (proto.setWidth 32) 0).taken c = false := by
      rw [taken_ne, has, signExtend_byte]
      simp
    have compared := @eval_compare W env maps 8 (by decide) op
      (fun jmp => bpfJmpImm jmp 1 (b.setWidth 32) 0) rfl loaded (leBits 8 (fieldBytes c type)) b
      (by rw [taken_imm, signExtend_byte]; rfl)
    have ran : eval env 0 ((matcherSlots host chain ⟨type, op, [b]⟩).map (Emitted.link maps)) c =
        if opHolds op (leBits 8 (fieldBytes c type) = b) then .fall 0 loaded else .out loaded := by
      rw [slots, l4Slots, List.map_cons, eval_nextSlot rfl, checked, if_neg Bool.false_ne_true,
        List.map_cons, link_insn, eval_ldx, add_ctxOff, List.map_cons, link_insn, eval_ldx]
      have loads : header.mem.load (header.regs 6 + (BitVec.ofNat 16 off).signExtend 64)
          Size.b.bytes = (leBits 8 (fieldBytes c type)).setWidth 64 := by
        rw [layer.2]
        exact load_eq_leBits _ _ (by decide)
      refine Eq.trans ?_ compared
      exact congrArg (fun value => eval env 0 _ (header.setReg 1 value)) loads
    have one : (leBits (8 * 1) [b] : BitVec 8) = b := leBits_byte b
    have same : leBits 8 (fieldBytes c type) = b ↔ v.field type = [b] := by
      rw [← shows_.fieldBytes carried, ← leBits_inj (n := 1) (by
        rw [layer.2, Mem.bytesAt_length]) rfl, one]
    rw [(decides_of_eval ran).1, and_iff_right carried]
    exact iff_of_eq (congrArg (opHolds op · = true) (decide_eq_decide.mpr same))
  · refine iff_of_false (fun goesOn => ?_) fun both => has (layer.1.mp both.1)
    exact not_continues_and_skips ⟨goesOn, transport_skips proto slots has⟩

end Transport

/-! ## Sets -/

section Sets

variable {set : BfSet}

/-- A packet without a protocol of the key leaves before the key is built. -/
theorem eval_set_leaves {m : BfMatcher} (found : bfChainGetSetForMatcher chain m = some set)
    (accepted : SetAccepted set) (lacks : set.key.all (carries c) = false) :
    eval env 0 ((setSlots chain m).map (Emitted.link maps)) c = .out c := by
  unfold setSlots
  rw [found]
  cases use : set.useTrie with
  | true =>
      obtain ⟨type, one, net⟩ := AcceptedKey.trie (accepted.useTrie.symm.trans use)
      have member : type ∈ set.key := by
        rw [one]
        exact List.mem_cons_self
      obtain ⟨info, known, -, inPacket, -⟩ := component_meta (accepted.key.supported type member)
      have absent : carries c type = false := by
        rwa [one, List.all_cons, List.all_nil, Bool.and_true] at lacks
      have checked := @eval_checkProtocol W env maps c type info known inPacket
      rw [absent, if_neg Bool.false_ne_true] at checked
      simp only [one, use, if_true, setTrieSlots, known]
      rw [List.map_append]
      exact eval_append_out _ checked
  | false =>
      have checked := @eval_setProtocols W env maps c set.key accepted.key.supported
      rw [lacks, if_neg Bool.false_ne_true] at checked
      simp only [use, Bool.false_eq_true, if_false]
      rw [List.map_append]
      exact eval_append_out _ checked

/-- A set matcher decides whether the packet is in its set. -/
theorem set_iff (shows_ : Shows host flavor rng others v c)
    (found : bfChainGetSetForMatcher chain ⟨.set, op, payload⟩ = some set)
    (accepted : SetAccepted set) (small : set.useTrie = false → set.elemSize ≤ 64)
    (map : SetMap env (env.mapAddr
      (maps.sets[((⟨.set, op, payload⟩ : BfMatcher).payloadU32 0).toNat]?.getD 0)) set) :
    Continues env maps (matcherSlots host chain ⟨.set, op, payload⟩) c ↔
      BfMatcher.holds chain ⟨.set, op, payload⟩ v = true := by
  have protocols : carries c = v.carries := funext shows_.carries
  have meaning : BfMatcher.holds chain ⟨.set, op, payload⟩ v = v.isIn set := by
    rw [BfMatcher.holds]
    simp only [found, Option.any_some]
  rw [meaning, PacketView.isIn]
  cases all : set.key.all v.carries with
  | false =>
      have leaves := @eval_set_leaves W env maps chain c set _ found accepted
        (by rw [protocols]; exact all)
      refine iff_of_false (fun goesOn => ?_) (by simp)
      exact not_continues_and_skips ⟨goesOn, c, runs_of_eval (e := .out c) (by
        rw [show matcherSlots host chain ⟨.set, op, payload⟩ = setSlots chain _ from rfl, leaves]
        rfl)⟩
  | true =>
      have carried : ∀ type ∈ set.key, carries c type = true := by
        rw [protocols]
        exact List.all_eq_true.mp all
      obtain ⟨e, falls, leaves⟩ := @eval_set W env maps c set chain _ found accepted small
        (shows_.scratchApart carried) map
      have tuple : packetTuple c set.key = v.tuple set.key :=
        List.flatMap_congr fun type mem => shows_.fieldBytes (carried type mem)
      have means : setHolds set c ↔ (if set.useTrie then
          set.elems.any fun elem => decide (prefixCovers elem (v.tuple set.key))
          else set.elems.contains (v.tuple set.key)) = true := by
        rw [setHolds, protocols, and_iff_right all, tuple]
        split
        · simp
        · simp
      rw [Bool.true_and, ← means]
      constructor
      · rintro ⟨d, ran⟩
        by_contra no
        have out : Runs env ((setSlots chain ⟨.set, op, payload⟩).map (Emitted.link maps)) 0 c
            (.out e) := runs_of_eval (by rw [leaves no]; rfl)
        cases ran.unique out
      · intro yes
        exact ⟨e, runs_of_eval (by
          rw [show matcherSlots host chain ⟨.set, op, payload⟩ = setSlots chain _ from rfl,
            falls yes]
          rfl)⟩

end Sets

/-! ## Draws -/

section Drawless

/-- A slot that does not draw a random number. -/
def Emitted.drawless (e : Emitted) : Bool :=
  match e.insn.code with
  | .call => e.fixup = none && e.insn.imm ≠ bpfFuncGetPrandomU32
  | _ => true

/-- A kernel that draws nothing. -/
def undrawn (env : Env W BfElfstubId) : Env W BfElfstubId :=
  { env with helper := fun id =>
      if id = bpfFuncGetPrandomU32 then fun _ m w => ⟨0, ⟨0, 0, 0, 0, 0⟩, m, w⟩
      else env.helper id }

theorem exec_undrawn {e : Emitted} (drawless : e.drawless = true) (hi : Option (BitVec 32))
    (c : Core W) : (e.link maps).exec (undrawn env) hi c = (e.link maps).exec env hi c := by
  have plain : ∀ i : BpfInsn, (i.code = .call → i.imm ≠ bpfFuncGetPrandomU32) →
      i.exec (undrawn env) hi c = i.exec env hi c := by
    intro i quiet
    unfold BpfInsn.exec
    cases code : i.code with
    | call =>
        have helper : (undrawn env).helper i.imm = env.helper i.imm := if_neg (quiet code)
        simp only [helper]
        rfl
    | _ => rfl
  unfold Emitted.drawless at drawless
  have call : e.insn.code = .call → e.fixup = none ∧ e.insn.imm ≠ bpfFuncGetPrandomU32 := by
    intro code
    rw [code] at drawless
    simpa using drawless
  have shown : ∀ i : BpfInsn, (i.code = .call → i.imm ≠ bpfFuncGetPrandomU32) →
      (Item.insn (S := BfElfstubId) i).exec (undrawn env) hi c = (Item.insn i).exec env hi c :=
    fun i quiet => by simp only [Item.exec, plain i quiet]
  unfold Emitted.link
  cases fixup : e.fixup with
  | none => exact shown _ fun code => (call code).2
  | some type =>
      have noCall : e.insn.code ≠ .call := fun code => by
        cases fixup.symm.trans (call code).1
      cases type with
      | jmpNextRule => rfl
      | elfstubCall id => rfl
      | countersMapFd | printerMapFd | logMapFd | setMapFd index =>
          exact shown _ fun code => absurd code noCall

theorem eval_undrawn {es : List Emitted} (drawless : es.all Emitted.drawless = true) (k : Nat)
    (c : Core W) : eval (undrawn env) k (es.map (Emitted.link maps)) c =
      eval env k (es.map (Emitted.link maps)) c := by
  induction es generalizing k c with
  | nil => cases k <;> rfl
  | cons e es ih =>
      rw [List.all_cons, Bool.and_eq_true] at drawless
      cases k with
      | succ k => exact ih drawless.2 k c
      | zero =>
          rw [List.map_cons, eval, eval, exec_undrawn drawless.1]
          split
          · split
            · exact ih drawless.2 _ _
            · rfl
          · rfl
          · rfl
          · rfl

theorem drawless_addrHalfSlots (addr : List Byte) (i : Nat) :
    (addrHalfSlots addr i).all Emitted.drawless = true := rfl

theorem drawless_addrCompareSlots (op : BfMatcherOp) (addr : List Byte) :
    (addrCompareSlots op addr).all Emitted.drawless = true := by
  unfold addrCompareSlots
  split
  · rw [List.all_append, drawless_addrHalfSlots]
    rfl
  · rw [List.all_append, drawless_addrHalfSlots]
    rfl

variable (m : BfMatcher)

theorem drawless_portSlots : (portSlots m).all Emitted.drawless = true := by
  unfold portSlots
  cases m.op <;> rfl

theorem drawless_ip4Slots : (ip4Slots m).all Emitted.drawless = true := by
  have mask : ∀ bits, (ip4MaskSlots bits).all Emitted.drawless = true := by
    intro bits
    unfold ip4MaskSlots
    split <;> rfl
  have net : (ip4NetSlots m).all Emitted.drawless = true := by
    rw [ip4NetSlots, List.all_cons, List.all_cons, List.all_append, mask]
    rfl
  unfold ip4Slots
  cases m.type <;> first | exact net | rfl

theorem drawless_ip6Slots : (ip6Slots m).all Emitted.drawless = true := by
  have mask : ∀ b, (ip6MaskSlots b).all Emitted.drawless = true := by
    intro b
    unfold ip6MaskSlots
    split <;> rfl
  have addr : (ip6AddrSlots m).all Emitted.drawless = true := by
    rw [ip6AddrSlots, List.all_append, drawless_addrCompareSlots]
    rfl
  have net : (ip6NetSlots m).all Emitted.drawless = true := by
    rw [ip6NetSlots, List.all_append, List.all_append, mask, drawless_addrCompareSlots]
    rfl
  have nexthdr : (ip6NexthdrSlots m).all Emitted.drawless = true := by
    unfold ip6NexthdrSlots
    split <;> rfl
  unfold ip6Slots
  cases m.type <;> first | exact addr | exact net | exact nexthdr | rfl

theorem drawless_tcpSlots : (tcpSlots m).all Emitted.drawless = true := by
  have flags : (tcpFlagsSlots m).all Emitted.drawless = true := by
    unfold tcpFlagsSlots
    cases m.op <;> rfl
  unfold tcpSlots
  cases m.type <;> first | exact drawless_portSlots m | exact flags | rfl

theorem drawless_udpSlots : (udpSlots m).all Emitted.drawless = true := by
  unfold udpSlots
  cases m.type <;> first | exact drawless_portSlots m | rfl

theorem drawless_icmpSlots : (icmpSlots m).all Emitted.drawless = true := by
  have field : ∀ proto off, (icmpFieldSlots m proto off).all Emitted.drawless = true := by
    intro proto off
    unfold icmpFieldSlots
    cases m.op <;> rfl
  unfold icmpSlots
  cases m.type <;> first | exact field _ _ | rfl

theorem drawless_metaSlots (host : Host) (chain : BfChain) (other : m.type ≠ .metaProbability) :
    (metaSlots host chain m).all Emitted.drawless = true := by
  have port : (metaPortSlots m).all Emitted.drawless = true := by
    rw [metaPortSlots, List.all_cons, List.all_append, List.all_cons, drawless_portSlots]
    rfl
  have mark : ∀ flavor, (metaMarkSlots host flavor m).all Emitted.drawless = true := by
    intro flavor
    unfold metaMarkSlots
    cases flavor <;> cases m.op <;> rfl
  unfold metaSlots
  cases type : m.type <;> first | exact port | exact mark _ | exact absurd type other | rfl

theorem drawless_setSlots (chain : BfChain) : (setSlots chain m).all Emitted.drawless = true := by
  have check : ∀ info, (checkProtocolSlots info).all Emitted.drawless = true := by
    intro info
    unfold checkProtocolSlots
    cases info.layer <;> rfl
  have load : ∀ info, (loadHeaderSlots info).all Emitted.drawless = true := by
    intro info
    unfold loadHeaderSlots
    cases info.layer <;> rfl
  have lookup : ∀ index off, (setLookupSlots index off).all Emitted.drawless = true :=
    fun _ _ => rfl
  have copy : ∀ hdrOffset offset src remaining,
      (stxPayloadSlots hdrOffset offset src remaining).all Emitted.drawless = true := by
    intro hdrOffset offset src remaining
    fun_induction stxPayloadSlots with
    | case1 => rfl
    | case2 src remaining some ih => exact ih
  have protocols : ∀ key, (setProtocolsSlots key).all Emitted.drawless = true := by
    intro key
    induction key with
    | nil => rfl
    | cons type rest ih =>
        rw [setProtocolsSlots, List.all_append, ih, Bool.and_true]
        cases bfMatcherGetMeta type with
        | none => rfl
        | some info => exact check info
  have build : ∀ key offset, (setKeySlots offset key).all Emitted.drawless = true := by
    intro key
    induction key with
    | nil => exact fun _ => rfl
    | cons type rest ih =>
        intro offset
        unfold setKeySlots
        cases bfMatcherGetMeta type with
        | none => rfl
        | some info => simp only [List.all_append, load, copy, ih, Bool.and_true]
  have trie : ∀ index type, (setTrieSlots index type).all Emitted.drawless = true := by
    intro index type
    unfold setTrieSlots
    cases bfMatcherGetMeta type with
    | none => rfl
    | some info =>
        simp only [List.all_append, check, load, lookup, Bool.and_true, Bool.true_and]
        cases type <;> rfl
  unfold setSlots
  cases bfChainGetSetForMatcher chain m with
  | none => rfl
  | some set =>
      simp only
      split
      · split
        · rfl
        · exact trie _ _
      · simp only [List.all_append, protocols, build, lookup, Bool.and_true]

/-- Only a probability matcher draws a number. -/
theorem matcherSlots_drawless (host : Host) (chain : BfChain) (other : m.type ≠ .metaProbability) :
    (matcherSlots host chain m).all Emitted.drawless = true := by
  unfold matcherSlots
  split
  case h_27 => exact drawless_setSlots m chain
  all_goals first
    | exact drawless_metaSlots m host chain other
    | exact drawless_ip4Slots m
    | exact drawless_ip6Slots m
    | exact drawless_tcpSlots m
    | exact drawless_udpSlots m
    | exact drawless_icmpSlots m

end Drawless

/-! ## Stores of set matchers -/

section Stores

/-- The stores of a component that fits are in the scratch area. -/
theorem stxPayloadSlots_inside (hdrOffset offset src remaining : Nat)
    (fits : offset + src + remaining ≤ 64) :
    ScratchStores (stxPayloadSlots hdrOffset offset src remaining) := by
  fun_induction stxPayloadSlots with
  | case1 => exact fun _ _ _ mem => (List.not_mem_nil mem).elim
  | case2 src remaining some ih =>
      have le := stxCopySize_bytes_le offset remaining (Nat.pos_of_ne_zero some)
      rintro size reg off (_ | ⟨_, _ | ⟨_, mem⟩⟩)
      · exact ⟨offset + src, rfl, by omega⟩
      · exact ih (by omega) size reg off mem

theorem setKeySlots_inside {key : List BfMatcherType} {offset : Nat}
    (supported : ∀ type ∈ key, (bfMatcherGetOps type .inSet).isSome)
    (plain : ∀ type ∈ key, type.isNet = false) (fits : offset + keySize key ≤ 64) :
    ScratchStores (setKeySlots offset key) := by
  induction key generalizing offset with
  | nil => exact fun _ _ _ mem => (List.not_mem_nil mem).elim
  | cons type key ih =>
      obtain ⟨info, known, size, -, -⟩ := component_meta (supported type List.mem_cons_self)
      have total : keySize (type :: key) = info.hdrPayloadSize + keySize key := by
        rw [size (plain type List.mem_cons_self)]
        rfl
      rw [setKeySlots, known]
      refine (scratch_loadHeader info).append (ScratchStores.append ?_ ?_)
      · exact stxPayloadSlots_inside _ _ _ _ (by omega)
      · apply ih
        · exact fun t mem => supported t (List.mem_cons_of_mem _ mem)
        · exact fun t mem => plain t (List.mem_cons_of_mem _ mem)
        · omega

/-- A set whose key fits the scratch area is written there. -/
theorem setSlots_inside {m : BfMatcher} {set : BfSet}
    (found : bfChainGetSetForMatcher chain m = some set) (accepted : SetAccepted set)
    (small : set.useTrie = false → set.elemSize ≤ 64) : ScratchStores (setSlots chain m) := by
  have lookup : ∀ index keyOff, ScratchStores (setLookupSlots index keyOff) :=
    fun index keyOff => .of_none rfl
  unfold setSlots
  rw [found]
  cases use : set.useTrie with
  | true =>
      obtain ⟨type, one, net⟩ := AcceptedKey.trie (accepted.useTrie.symm.trans use)
      simp only [one, use, if_true, setTrieSlots]
      cases bfMatcherGetMeta type with
      | none => exact fun _ _ _ mem => (List.not_mem_nil mem).elim
      | some info =>
          refine (scratch_checkProtocol info).append ((scratch_loadHeader info).append ?_)
          exact (trieKeySlots_scratch type _).append (lookup _ 4)
  | false =>
      have plain : ∀ type ∈ set.key, type.isNet = false := fun type mem =>
        accepted.key.no_net (accepted.useTrie.symm.trans use) mem
      have fits := small use
      rw [accepted.elemSize] at fits
      simp only [use, Bool.false_eq_true, if_false]
      refine (setProtocolsSlots_scratch set.key).append (ScratchStores.append ?_ (lookup _ 0))
      exact setKeySlots_inside accepted.key.supported plain (by omega)

end Stores

/-! ## Matchers -/

section Outcome

/-- The operator and the size of the payload are in the table of the type. -/
theorem BfMatcher.Supported.listed {type : BfMatcherType} {info : BfMatcherMeta}
    (supported : (⟨type, op, payload⟩ : BfMatcher).Supported chain) (other : type ≠ .set)
    (known : bfMatcherGetMeta type = some info) :
    op ≠ .inSet ∧ (op, payload.length) ∈ info.ops := by
  obtain ⟨notIn, listed⟩ := supported.table other
  refine ⟨notIn, ?_⟩
  simp only [bfMatcherGetOps, known, Option.bind_some] at listed
  obtain ⟨before, after, ops, -⟩ := List.lookup_eq_some_iff.mp listed
  rw [ops]
  exact List.mem_append_right _ List.mem_cons_self

/-- Fields that are compared with one value, or with the values of a set. -/
theorem op_of_eqNeIn {size : Nat} (listed : op ≠ .inSet ∧ (op, payload.length) ∈ eqNeIn size) :
    (op = .eq ∨ op = .ne) ∧ payload.length = size := by
  obtain ⟨notIn, mem⟩ := listed
  simp only [eqNeIn, List.mem_cons, Prod.mk.injEq, List.not_mem_nil, or_false] at mem
  rcases mem with ⟨rfl, length⟩ | ⟨rfl, length⟩ | ⟨rfl, -⟩
  · exact ⟨.inl rfl, length⟩
  · exact ⟨.inr rfl, length⟩
  · exact absurd rfl notIn

/-- Ports are compared with one value or with a range. -/
theorem op_of_ports (listed : op ≠ .inSet ∧ (op, payload.length) ∈ l4PortOps) :
    ((op = .eq ∨ op = .ne) ∧ payload.length = 2) ∨ (op = .range ∧ payload.length = 4) := by
  obtain ⟨notIn, mem⟩ := listed
  simp only [l4PortOps, List.mem_cons, Prod.mk.injEq, List.not_mem_nil, or_false] at mem
  rcases mem with ⟨rfl, length⟩ | ⟨rfl, length⟩ | ⟨rfl, -⟩ | ⟨rfl, length⟩
  · exact .inl ⟨.inl rfl, length⟩
  · exact .inl ⟨.inr rfl, length⟩
  · exact absurd rfl notIn
  · exact .inr ⟨rfl, length⟩

theorem op_of_metaPorts (listed : op ≠ .inSet ∧ (op, payload.length) ∈ metaPortOps) :
    ((op = .eq ∨ op = .ne) ∧ payload.length = 2) ∨ (op = .range ∧ payload.length = 4) := by
  refine op_of_ports ⟨listed.1, ?_⟩
  have mem := listed.2
  simp only [metaPortOps, List.mem_cons, List.not_mem_nil, or_false] at mem
  simp only [l4PortOps, List.mem_cons, List.not_mem_nil, or_false]
  tauto

/-- What the rules of a chain call: numbers are drawn one after the other, maps and buffers are
not in the memory of the program. -/
structure RuleCalls (env : Env W BfElfstubId) (rng : W → Nat → BitVec 32) : Prop where
  draw : ∀ args mem world,
    (env.helper bpfFuncGetPrandomU32 args mem world).r0 = (rng world 0).setWidth 64 ∧
      (env.helper bpfFuncGetPrandomU32 args mem world).mem = mem ∧
      rng (env.helper bpfFuncGetPrandomU32 args mem world).world = fun n => rng world (n + 1)
  lookup : ∀ args mem world, (env.helper bpfFuncMapLookupElem args mem world).mem = mem ∧
    rng (env.helper bpfFuncMapLookupElem args mem world).world = rng world
  log : ∀ args mem world, (env.sub .log args mem world).mem = mem ∧
    rng (env.sub .log args mem world).world = rng world
  updateCounters : ∀ args mem world, (env.sub .updateCounters args mem world).mem = mem ∧
    rng (env.sub .updateCounters args mem world).world = rng world

variable (env maps chain) in
/-- The map of the set of a matcher holds its elements. -/
def BfMatcher.SetLoaded (m : BfMatcher) : Prop :=
  ∀ set, m.type = .set → bfChainGetSetForMatcher chain m = some set →
    SetMap env (env.mapAddr (maps.sets[(m.payloadU32 0).toNat]?.getD 0)) set

variable (calls : RuleCalls env rng) (shows_ : Shows host flavor rng others v c)

include calls shows_

/-- **The code of a matcher decides its meaning.** -/
theorem Shows.continues_iff (same : flavor = bfHookToFlavor chain.hook) {m : BfMatcher}
    (supported : m.Supported chain) (loaded : m.SetLoaded env maps chain) :
    Continues env maps (matcherSlots host chain m) c ↔ m.holds chain v = true := by
  obtain ⟨type, op, payload⟩ := m
  have net := supported.network
  cases type with
  | set =>
      obtain ⟨set, found, accepted, small⟩ := supported.set rfl
      exact set_iff shows_ found accepted small (loaded set rfl found)
  | metaIface =>
      have listed := (supported.listed (by decide) rfl).2
      simp only [List.mem_cons, Prod.mk.injEq, List.not_mem_nil, or_false] at listed
      obtain ⟨rfl, length⟩ := listed
      exact iface_iff shows_ length
  | metaL3Proto =>
      have listed := (supported.listed (by decide) rfl).2
      simp only [List.mem_cons, Prod.mk.injEq, List.not_mem_nil, or_false] at listed
      obtain ⟨rfl, length⟩ := listed
      exact l3Proto_iff shows_ length
  | metaL4Proto =>
      have listed := (supported.listed (by decide) rfl).2
      simp only [List.mem_cons, Prod.mk.injEq, List.not_mem_nil, or_false] at listed
      rcases listed with ⟨rfl, length⟩ | ⟨rfl, length⟩
      · exact l4Proto_iff shows_ length
      · exact l4Proto_iff shows_ length
  | metaProbability =>
      have listed := (supported.listed (by decide) rfl).2
      simp only [List.mem_cons, Prod.mk.injEq, List.not_mem_nil, or_false] at listed
      obtain ⟨rfl, length⟩ := listed
      exact probability_iff shows_ length (supported.percent rfl) (calls.draw _ _ _).1
  | metaMark =>
      have listed := (supported.listed (by decide) rfl).2
      simp only [List.mem_cons, Prod.mk.injEq, List.not_mem_nil, or_false] at listed
      have isOp : op = .eq ∨ op = .ne := by tauto
      exact mark_iff shows_ (by tauto) isOp (supported.mark rfl) same
  | metaSport =>
      exact metaPort_iff shows_ .source (op_of_metaPorts (supported.listed (by decide) rfl))
  | metaDport =>
      exact metaPort_iff shows_ .destination (op_of_metaPorts (supported.listed (by decide) rfl))
  | ip4Saddr =>
      obtain ⟨-, length⟩ := op_of_eqNeIn (supported.listed (by decide) rfl)
      exact addrWhole_iff shows_ .v4 .source rfl length rfl rfl
  | ip4Daddr =>
      obtain ⟨-, length⟩ := op_of_eqNeIn (supported.listed (by decide) rfl)
      exact addrWhole_iff shows_ .v4 .destination rfl length rfl rfl
  | ip4Snet =>
      obtain ⟨-, length⟩ := op_of_eqNeIn (supported.listed (by decide) rfl)
      exact addrNet_iff shows_ .v4 .source rfl (by rw [length]; decide) (net rfl) rfl rfl
  | ip4Dnet =>
      obtain ⟨-, length⟩ := op_of_eqNeIn (supported.listed (by decide) rfl)
      exact addrNet_iff shows_ .v4 .destination rfl (by rw [length]; decide) (net rfl) rfl rfl
  | ip6Saddr =>
      obtain ⟨-, length⟩ := op_of_eqNeIn (supported.listed (by decide) rfl)
      exact addrWhole_iff shows_ .v6 .source rfl length rfl rfl
  | ip6Daddr =>
      obtain ⟨-, length⟩ := op_of_eqNeIn (supported.listed (by decide) rfl)
      exact addrWhole_iff shows_ .v6 .destination rfl length rfl rfl
  | ip6Snet =>
      obtain ⟨-, length⟩ := op_of_eqNeIn (supported.listed (by decide) rfl)
      exact addrNet_iff shows_ .v6 .source rfl (by rw [length]; decide) (net rfl) rfl rfl
  | ip6Dnet =>
      obtain ⟨-, length⟩ := op_of_eqNeIn (supported.listed (by decide) rfl)
      exact addrNet_iff shows_ .v6 .destination rfl (by rw [length]; decide) (net rfl) rfl rfl
  | ip4Proto =>
      obtain ⟨-, length⟩ := op_of_eqNeIn (supported.listed (by decide) rfl)
      exact ip4Proto_iff shows_ length
  | ip6Nexthdr =>
      obtain ⟨isOp, length⟩ := op_of_eqNeIn (supported.listed (by decide) rfl)
      exact nexthdr_iff shows_ length isOp
  | tcpSport => exact port_iff shows_ .source .tcp (op_of_ports (supported.listed (by decide) rfl))
  | tcpDport =>
      exact port_iff shows_ .destination .tcp (op_of_ports (supported.listed (by decide) rfl))
  | udpSport => exact port_iff shows_ .source .udp (op_of_ports (supported.listed (by decide) rfl))
  | udpDport =>
      exact port_iff shows_ .destination .udp (op_of_ports (supported.listed (by decide) rfl))
  | tcpFlags =>
      have listed := (supported.listed (by decide) rfl).2
      simp only [l4Meta, List.mem_cons, Prod.mk.injEq, List.not_mem_nil, or_false] at listed
      rcases listed with ⟨rfl, length⟩ | ⟨rfl, length⟩ | ⟨rfl, length⟩ | ⟨rfl, length⟩ <;>
        exact flags_iff shows_ length rfl
  | icmpType | icmpCode | icmpv6Type | icmpv6Code =>
      obtain ⟨isOp, length⟩ := op_of_eqNeIn (supported.listed (by decide) rfl)
      exact icmp_iff shows_ rfl length isOp

omit shows_ in
/-- A matcher that draws no number keeps everything but the scratch area. -/
theorem matcherOutcome_quiet {m : BfMatcher} (supported : m.Supported chain)
    (other : m.type ≠ .metaProbability) :
    Kept [] c (matcherOutcome env maps host chain m c).core ∧
      rng (matcherOutcome env maps host chain m c).core.world = rng c.world := by
  have quiet : QuietHelpers (undrawn env) rng := by
    refine ⟨fun args mem world => ?_, fun args mem world => ⟨rfl, rfl⟩⟩
    exact calls.lookup args mem world
  have same : matcherOutcome (undrawn env) maps host chain m c =
      matcherOutcome env maps host chain m c := by
    rw [matcherOutcome, eval_undrawn (matcherSlots_drawless m host chain other), matcherOutcome]
  rw [← same]
  refine (matcherOutcome_of_calm (calm_matcherSlots (quiet.keeps []) host chain m ?_) c).1
  intro isSet size src off mem d x
  obtain ⟨set, found, accepted, small⟩ := supported.set isSet
  obtain ⟨k, rfl, inside⟩ := setSlots_inside found accepted small size src off mem
  exact ⟨.storeScratch d inside x, rfl⟩

omit shows_ in
/-- A probability matcher draws one number. -/
theorem matcherOutcome_draws {m : BfMatcher} (is : m.type = .metaProbability) :
    Kept [] c (matcherOutcome env maps host chain m c).core ∧
      rng (matcherOutcome env maps host chain m c).core.world = fun n => rng c.world (n + 1) := by
  obtain ⟨-, mem, next⟩ := calls.draw c.args c.mem c.world
  let drawn := c.call (env.helper bpfFuncGetPrandomU32)
  let jump := bpfJmpImm .gt 0 (probabilityThreshold m.payloadU8) 0
  have ran : eval env 0 ((matcherSlots host chain m).map (Emitted.link maps)) c =
      if !jump.taken drawn then .fall 0 drawn else .out drawn := by
    simp only [matcherSlots, metaSlots, is]
    exact eval_lastJump (show jump.isJump = true from rfl) drawn
  have core : (matcherOutcome env maps host chain m c).core = drawn := by
    rw [matcherOutcome, ran]
    cases jump.taken drawn <;> rfl
  rw [core]
  exact ⟨(Kept.refl [] c).call mem, next⟩

/-- The packet matched. -/
def Matched.matched {W : Type} : Matched W → Bool
  | .yes _ => true
  | .no _ => false

/-- **A matcher** ends as its meaning says, in a state that shows what it leaves of the view. -/
theorem Shows.outcome (same : flavor = bfHookToFlavor chain.hook) {m : BfMatcher}
    (supported : m.Supported chain) (loaded : m.SetLoaded env maps chain) :
    (matcherOutcome env maps host chain m c).matched = m.holds chain v ∧
      Shows host flavor rng others (m.viewAfter v)
        (matcherOutcome env maps host chain m c).core := by
  refine ⟨?_, ?_⟩
  · have decides := shows_.continues_iff calls same supported loaded
    have ran := (matcherCode env maps host chain).runs m c
    rw [Bool.eq_iff_iff, ← decides]
    cases out : matcherOutcome env maps host chain m c with
    | yes d =>
        rw [show (matcherCode env maps host chain).outcome m c = .yes d from out] at ran
        exact iff_of_true rfl ⟨d, ran⟩
    | no d =>
        rw [show (matcherCode env maps host chain).outcome m c = .no d from out] at ran
        refine iff_of_false Bool.false_ne_true fun goesOn => ?_
        exact not_continues_and_skips ⟨goesOn, d, ran⟩
  · by_cases is : m.type = .metaProbability
    · obtain ⟨kept, next⟩ := matcherOutcome_draws calls is
      have after : m.viewAfter v = { v with draws := fun n => v.draws (n + 1) } := by
        rw [BfMatcher.viewAfter, is]
      rw [after]
      refine shows_.kept kept ?_
      rw [next, shows_.draws]
    · obtain ⟨kept, world⟩ := matcherOutcome_quiet calls supported is
      have after : m.viewAfter v = v := by
        unfold BfMatcher.viewAfter
        split
        · next type => exact absurd type is
        · rfl
      rw [after]
      exact shows_.keep kept world

end Outcome

end Bpfilter
