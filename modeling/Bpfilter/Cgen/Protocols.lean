/-
# Cgen.Protocols -- the protocol registers at the rules

The code in front of the rules leaves the ethertype in `r7` and the upper-layer
protocol in `r8`, and forgets the ones it has no parser for (`l3Kept`, `l4Kept`).  For
a packet of IPv6 the second one is what the walk over the extension headers found
(`ipv6View`); when rules need it, the walk has recorded the extension headers in the
context as well.

`head_protocols` is this for whole heads, of every flavor.  Cgen.ProtoMatch says what
the matchers make of it.
-/
import Bpfilter.Bpf.HeaderChain
import Bpfilter.Cgen.Headers

namespace Bpfilter

set_option autoImplicit false

open Ebpf

variable {W : Type} {env : Env W BfElfstubId} {maps : BfMaps} {packet : W → Packet}
  {copies : W → BitVec 32 → Addr → Nat → Bool} {others : List (Addr × Nat)}
  {readable : W → BitVec 32 → Bool}

/-! ## What is left -/

/-- The start of a header, where the packet can be read. -/
def Packet.slice (packet : Packet) (readable : BitVec 32 → Bool) : Slice := fun offset =>
  if readable offset then some (packet.ext offset) else none

/-- An ethertype without a parser is forgotten. -/
def l3Kept (r7 : BitVec 64) : BitVec 64 := if (l3Len r7).isSome then r7 else 0

/-- A protocol without a parser is forgotten. -/
def l4Kept (r8 : BitVec 64) : BitVec 64 := if (l4Len r8).isSome then r8 else 0

/-- What layer 3 says is above it. -/
def upperRead (flags : BfChainFlags) (packet : Packet) (slice : Slice) (offset : BitVec 32)
    (r7 : BitVec 64) : BitVec 64 :=
  if r7 = ipv4Reg then (packet (offset + 9)).setWidth 64
  else if r7 = ipv6Reg then (ipv6View flags slice offset (packet (offset + 6))).proto.setWidth 64
  else 0

/-- The byte of the context in which extension headers are recorded. -/
def ehByte (c : Core W) : BitVec 8 := c.mem (ctxAddr (c.regs 10) .ipv6Eh)

/-- After layer 3, for an ethertype and an offset. -/
structure UpperKnown (flags : BfChainFlags) (packet : Packet) (slice : Slice) (offset : BitVec 32)
    (r7 : BitVec 64) (d : Core W) : Prop where
  l3 : d.regs 7 = l3Kept r7
  l4 : d.regs 8 = upperRead flags packet slice offset r7
  eh : r7 = ipv6Reg → flags.storeNexthdr = true →
    ehByte d = (ipv6View flags slice offset (packet (offset + 6))).ipv6Eh

/-- At the rules. -/
structure ProtocolsKnown (flags : BfChainFlags) (packet : Packet) (slice : Slice)
    (offset : BitVec 32) (r7 : BitVec 64) (d : Core W) : Prop where
  l3 : d.regs 7 = l3Kept r7
  l4 : d.regs 8 = l4Kept (upperRead flags packet slice offset r7)
  start : offsetAt .l3Offset (d.regs 10) d.mem = offset
  eh : r7 = ipv6Reg → flags.storeNexthdr = true →
    ehByte d = (ipv6View flags slice offset (packet (offset + 6))).ipv6Eh

/-- The compiled stubs compute what their source does on the slices of the packet; the NH stub
records the extension headers. -/
structure ParseStubs (env : Env W BfElfstubId) (packet : W → Packet)
    (readable : W → BitVec 32 → Bool) : Prop where
  computes : Ipv6Stubs env fun w => (packet w).slice (readable w)
  records : ∀ args mem world, (env.sub .parseIpv6Nh args mem world).mem
      (args.r1 + BitVec.ofNat 64 RuntimeField.ipv6Eh.offset) =
    (bfParseIpv6Nh ((packet world).slice (readable world)) (stubL3Offset args.r1 mem)
      (stubNexthdr args.r1 mem)).ipv6Eh

/-! ## The view of an IPv6 packet -/

section View

variable {slice : Slice} {flags : BfChainFlags} {offset : BitVec 32} {first value upper : BitVec 8}

/-- The upper-layer protocols that have a parser. -/
def hasParser (proto : BitVec 8) : Bool := (l4Len (proto.setWidth 64)).isSome

theorem hasParser_facts (proto : BitVec 8) : hasParser proto = true →
    isExtHeader proto = false ∧ callsEhStub proto = false ∧ maskMisses proto = false ∧
      proto ≠ 0 := by
  revert proto
  decide +kernel

theorem not_calls_of_maskMisses (proto : BitVec 8) :
    maskMisses proto = true → callsEhStub proto = false ∧ isExtHeader proto = true := by
  revert proto
  decide +kernel

theorem calls_of_ext (covered : maskMisses first = false) (ext : isExtHeader first = true) :
    callsEhStub first = true := by
  refine (callsEhStub_of_walked first ?_).mpr covered
  rw [← Option.not_isSome, show (refAdvance first 0).isSome = true from ext]
  rfl

/-- A walk from a first value and an offset leads to an upper-layer protocol: the mask covers the
first value, there are at most six headers, and, for the EH stub, the header behind them can be
read unless they are six. -/
structure WalkReaches (flags : BfChainFlags) (slice : Slice) (first : BitVec 8)
    (offset : BitVec 32) (upper : BitVec 8) (headers : List (BitVec 8)) (stop : BitVec 32) :
    Prop where
  covered : maskMisses first = false
  chain : HeaderChain stubAdvance slice first offset headers upper stop
  short : headers.length ≤ bfIpv6ExtMaxChain
  ends : headers = [] ∨ flags.storeNexthdr = true ∨ headers.length = bfIpv6ExtMaxChain ∨
    (slice stop).isSome = true

/-- **The protocol of the view**, for protocols that have a parser. -/
theorem ipv6View_proto_iff (parsed : hasParser upper = true) :
    (ipv6View flags slice offset first).proto = upper ↔
      ∃ headers stop, WalkReaches flags slice first (offset + 40) upper headers stop := by
  obtain ⟨notExt, quiet, covers, -⟩ := hasParser_facts upper parsed
  have noHeaders : first = upper → ∃ headers stop,
      WalkReaches flags slice first (offset + 40) upper headers stop := by
    rintro rfl
    exact ⟨[], _, covers, .upper notExt, Nat.zero_le _, .inl rfl⟩
  cases calls : callsEhStub first with
  | false =>
      rw [ipv6View, calls, if_neg Bool.false_ne_true]
      refine ⟨noHeaders, ?_⟩
      rintro ⟨headers, stop, walk⟩
      cases walk.chain with
      | upper last => rfl
      | ext here long rest =>
          have called := calls_of_ext walk.covered (stubAdvance_exact.ext long)
          cases calls.symm.trans called
  | true =>
      have covered : maskMisses first = false := by
        by_contra missed
        have quiet := (not_calls_of_maskMisses first (Bool.eq_true_of_not_eq_false missed)).1
        cases calls.symm.trans quiet
      have moved : ∀ {headers stop}, HeaderChain stubAdvance slice first (offset + 40) headers upper
          stop → headers ≠ [] := by
        rintro headers stop chain rfl
        cases chain
        rw [calls] at quiet
        cases quiet
      rw [ipv6View, if_pos calls]
      cases store : flags.storeNexthdr with
      | true =>
          rw [if_pos rfl]
          refine (nhLoop_proto_iff notExt _ _ _ _).trans ⟨?_, ?_⟩
          · rintro ⟨headers, stop, chain, short⟩
            exact ⟨headers, stop, covered, chain, short, .inr (.inl store)⟩
          · rintro ⟨headers, stop, walk⟩
            exact ⟨headers, stop, walk.chain, walk.short⟩
      | false =>
          rw [if_neg Bool.false_ne_true]
          refine (ehLoop_proto_iff notExt _ _ _).trans ⟨?_, ?_⟩
          · rintro ⟨headers, stop, chain, short, ends⟩
            exact ⟨headers, stop, covered, chain, short, .inr (.inr ends)⟩
          · rintro ⟨headers, stop, walk⟩
            refine ⟨headers, stop, walk.chain, walk.short, ?_⟩
            rcases walk.ends with none | no | ends
            · exact absurd none (moved walk.chain)
            · rw [store] at no
              cases no
            · exact ends

/-- A record of headers meets the bit of a type. -/
theorem ehBits_or (x y bit : BitVec 8) :
    (x ||| y) &&& bit ≠ 0 ↔ x &&& bit ≠ 0 ∨ y &&& bit ≠ 0 := by
  rw [BitVec.and_or_distrib_right, ne_eq, show (0 : BitVec 8) = 0#8 from rfl, BitVec.or_eq_zero_iff,
    not_and_or]

theorem nhEhBits_meets (value type : BitVec 8) (ext : isExtHeader type = true) :
    nhEhBits value &&& bfIpv6EhBit type ≠ 0 ↔ value = type := by
  rcases (isExtHeader_iff type).mp ext with rfl | rfl | rfl | rfl | rfl | rfl <;> revert value <;>
    decide +kernel

/-- **The NH stub** records the extension headers it passes. -/
theorem nhLoop_ipv6Eh_iff (ext : isExtHeader value = true) (n : Nat) (first : BitVec 8)
    (offset : BitVec 32) (eh : BitVec 8) :
    (bfParseIpv6NhLoop slice n first offset eh).ipv6Eh &&& bfIpv6EhBit value ≠ 0 ↔
      eh &&& bfIpv6EhBit value ≠ 0 ∨ WalkPasses stubAdvance slice value n first offset := by
  induction n generalizing first offset eh with
  | zero =>
      rw [bfParseIpv6NhLoop]
      refine ⟨.inl, fun either => either.resolve_right fun passes => ?_⟩
      cases passes
  | succ n ih =>
      -- a walk that stops here passes nothing
      have stops : (∀ header, slice offset = some header → stubAdvance first header.hdrlen = none) →
          (eh &&& bfIpv6EhBit value ≠ 0 ↔ eh &&& bfIpv6EhBit value ≠ 0 ∨
            WalkPasses stubAdvance slice value (n + 1) first offset) := by
        intro none
        refine ⟨.inl, fun either => either.resolve_right fun passes => ?_⟩
        cases passes with
        | here found long => cases (none _ found).symm.trans long
        | later found long rest => cases (none _ found).symm.trans long
      rw [bfParseIpv6NhLoop_succ]
      cases found : slice offset with
      | none => exact stops fun header some => by cases found.symm.trans some
      | some header =>
          simp only
          cases long : stubAdvance first header.hdrlen with
          | none =>
              refine stops fun header' some => ?_
              cases found.symm.trans some
              exact long
          | some advance =>
              refine (ih _ _ _).trans ?_
              rw [ehBits_or, nhEhBits_meets first value ext, or_assoc]
              refine or_congr Iff.rfl ⟨?_, ?_⟩
              · rintro (rfl | rest)
                · exact .here found long
                · exact .later found long rest
              · intro passes
                cases passes with
                | here found' long' => exact .inl rfl
                | later found' long' rest =>
                    cases found.symm.trans found'
                    cases long.symm.trans long'
                    exact .inr rest

/-- **The record of the view.** -/
theorem ipv6View_ipv6Eh_iff (store : flags.storeNexthdr = true) (ext : isExtHeader value = true) :
    (ipv6View flags slice offset first).ipv6Eh &&& bfIpv6EhBit value ≠ 0 ↔
      maskMisses first = false ∧
        WalkPasses stubAdvance slice value bfIpv6ExtMaxChain first (offset + 40) := by
  cases calls : callsEhStub first with
  | false =>
      rw [ipv6View, calls, if_neg Bool.false_ne_true]
      refine iff_of_false (by simp) ?_
      rintro ⟨covered, passes⟩
      have ext : isExtHeader first = true := by
        cases passes with
        | here found long => exact stubAdvance_exact.ext long
        | later found long rest => exact stubAdvance_exact.ext long
      cases calls.symm.trans (calls_of_ext covered ext)
  | true =>
      have covered : maskMisses first = false := by
        by_contra missed
        have quiet := (not_calls_of_maskMisses first (Bool.eq_true_of_not_eq_false missed)).1
        cases calls.symm.trans quiet
      rw [ipv6View, if_pos calls, if_pos store, bfParseIpv6Nh,
        nhLoop_ipv6Eh_iff ext]
      simp [covered]

end View

/-! ## Layer 3 -/

theorem ipv4Reg_ne_ipv6Reg : ipv4Reg ≠ ipv6Reg := by decide

/-- A field that is apart from what was written. -/
theorem ehByte_of_touches {fs : Footprint} {c d : Core W} (frame : d.regs 10 = c.regs 10)
    (touches : Touches (c.regs 10) fs c.mem d.mem) (apart : fs.apart .ipv6Eh 1 = true) :
    ehByte d = ehByte c := by
  rw [ehByte, ehByte, frame]
  have here := Mem.inRange_add (ctxAddr (c.regs 10) .ipv6Eh) 1 0 (by decide) (by decide)
  rw [show BitVec.ofNat 64 0 = 0 from rfl, add_zero] at here
  exact touches.field apart here

section Layer3

variable {id : BitVec 32} {c d : Core W} {len : Nat} {copied : Bool} {offset : BitVec 32}

/-- The slice of an IPv6 header, as the code behind it finds it. -/
theorem Taken.headerAt {w : Packet} (taken : Taken w others .l3Hdr .l3Size .l2 copied
    (offsetAt .l3Offset (c.regs 10) c.mem) 40 [7] c d) :
    HeaderAt (w (offsetAt .l3Offset (c.regs 10) c.mem + 6)) (offsetAt .l3Offset (c.regs 10) c.mem)
      (c.regs 10) c.world d := by
  have denotes := taken.denotes
  rw [HeaderDenotes, taken.address] at denotes
  refine ⟨taken.framed.frame, taken.framed.world, denotes 6 (by decide), taken.address, ?_⟩
  have apart : (takenPrint .l3Hdr .l3Size .l2 copied 40).apart .l3Offset 4 = true := by
    cases copied <;> decide
  rw [taken.framed.touches.load apart]
  rfl

variable (env maps) in
/-- An IPv4 packet, behind its slice. -/
theorem upper_ipv4 {w : Packet} {slice : Slice} (flags : BfChainFlags)
    (ipv4 : c.regs 7 = ipv4Reg)
    (taken : Taken w others .l3Hdr .l3Size .l2 copied offset 20 [7] c d) :
    ∃ e, eval env 0 ((parseIpv4Slots ++ parseIpv6Slots flags).map (Emitted.link maps)) d =
        .fall 0 e ∧ UpperKnown flags w slice offset (c.regs 7) e := by
  have proto : d.regs 7 = c.regs 7 := taken.framed.regs 7 (by decide)
  obtain ⟨e, falls, framed, loaded⟩ := @eval_ipv4 W env maps d (proto.trans ipv4)
  have kept : e.regs 7 = c.regs 7 := (framed.regs 7 (by decide)).trans proto
  refine ⟨e, ?_, ?_, ?_, ?_⟩
  · rw [List.map_append, eval_append_fall _ falls]
    exact eval_ipv6_other flags (by rw [kept, ipv4]; exact ipv4Reg_ne_ipv6Reg)
  · rw [kept, ipv4]
    rfl
  · have touches := framed.touches
    rw [taken.framed.frame] at touches
    have denotes := taken.denotes.of_touches taken.sliced touches (by decide) (fun _ => by decide)
      (by decide)
    rw [HeaderDenotes, touches.load (by decide), taken.address] at denotes
    rw [loaded, upperRead, if_pos ipv4]
    exact congrArg (BitVec.setWidth 64) (denotes 9 (by decide))
  · intro six
    exact absurd (ipv4.symm.trans six) ipv4Reg_ne_ipv6Reg

/-- The walk leaves its protocol, and its record when rules need one. -/
theorem eval_ipv6_known (stubs : ParseStubs env packet readable) (flags : BfChainFlags)
    {nexthdr : BitVec 8} {r10 : BitVec 64} {world : W} (ipv6 : d.regs 7 = ipv6Reg)
    (header : HeaderAt nexthdr offset r10 world d)
    (fresh : flags.storeNexthdr = true → ehByte d = 0) :
    ∃ e, eval env 0 ((parseIpv6Slots flags).map (Emitted.link maps)) d = .fall 0 e ∧
      e.regs 7 = d.regs 7 ∧
      e.regs 8 = (ipv6View flags ((packet world).slice (readable world)) offset nexthdr).proto.setWidth
        64 ∧
      (flags.storeNexthdr = true →
        ehByte e =
          (ipv6View flags ((packet world).slice (readable world)) offset nexthdr).ipv6Eh) := by
  obtain ⟨e, falls, leaves⟩ := @eval_ipv6 W env maps _ stubs.computes flags d _ _ _ _ ipv6 header
  obtain ⟨s, path, same⟩ := @eval_ipv6_path W env maps flags d nexthdr ipv6 header.first
  obtain rfl : e = if callsEhStub nexthdr then afterEh env flags s else afterNoEh s := by
    cases falls.symm.trans path
    rfl
  have frame : s.regs 10 = r10 := (same.regs 10 (by simp)).trans header.frame
  have seven : s.regs 7 = d.regs 7 := same.regs 7 (by simp)
  refine ⟨_, falls, ?_, congrArg Prod.fst leaves, ?_⟩
  · split
    · exact (afterEh_saved flags s (by decide) (by decide)).trans seven
    · exact (afterNoEh_regs s (by decide)).trans seven
  intro store
  cases calls : callsEhStub nexthdr with
  | true =>
      -- the stub is the one that records
      obtain ⟨first, here, offsetIs, byte⟩ := header.stubArgs same
      have recorded := stubs.records (s.setReg 1 (ctxAddr (s.regs 10) .arg)).args s.mem s.world
      rw [Core.setReg_mem] at offsetIs byte
      rw [Core.setReg_world] at here
      rw [offsetIs, byte, here, first, ← ctxAddr_eq] at recorded
      rw [if_pos rfl, ehByte, afterEh_saved flags s (by decide) (by decide), frame, afterEh_mem,
        ipv6Stub, if_pos store, here, recorded, ipv6View, if_pos calls, if_pos store]
  | false =>
      have wrote : Touches (s.regs 10) [(.l4Offset, 4)] s.mem (afterNoEh s).mem :=
        Touches.store .l4Offset 4 _
      rw [if_neg Bool.false_ne_true, ipv6View, calls, if_neg Bool.false_ne_true,
        ehByte_of_touches (afterNoEh_regs s (by decide)) wrote (by decide), ehByte, same.mem, frame,
        ← header.frame]
      exact fresh store

variable (maps) in
/-- An IPv6 packet, behind its slice. -/
theorem upper_ipv6 (stubs : ParseStubs env packet readable) (flags : BfChainFlags)
    (ipv6 : c.regs 7 = ipv6Reg) (fresh : flags.storeNexthdr = true → ehByte c = 0)
    (taken : Taken (packet c.world) others .l3Hdr .l3Size .l2 copied
      (offsetAt .l3Offset (c.regs 10) c.mem) 40 [7] c d) :
    ∃ e, eval env 0 ((parseIpv4Slots ++ parseIpv6Slots flags).map (Emitted.link maps)) d =
        .fall 0 e ∧
      UpperKnown flags (packet c.world) ((packet c.world).slice (readable c.world))
        (offsetAt .l3Offset (c.regs 10) c.mem) (c.regs 7) e := by
  have proto : d.regs 7 = c.regs 7 := taken.framed.regs 7 (by decide)
  have untouched : ehByte d = ehByte c := by
    refine ehByte_of_touches taken.framed.frame taken.framed.touches ?_
    cases copied <;> decide
  obtain ⟨e, falls, kept, loaded, recorded⟩ := @eval_ipv6_known W env maps packet readable d _ stubs
    flags _ _ _ (proto.trans ipv6) taken.headerAt fun store => untouched.trans (fresh store)
  refine ⟨e, ?_, ?_, ?_, fun _ => recorded⟩
  · rw [List.map_append, eval_append_fall _ (eval_ipv4_other ?_), falls]
    rw [proto, ipv6]
    exact ipv4Reg_ne_ipv6Reg.symm
  · rw [kept, proto, ipv6]
    rfl
  · rw [loaded, upperRead, if_neg (by rw [ipv6]; exact ipv4Reg_ne_ipv6Reg.symm), if_pos ipv6]

/-- **Layer 3.** -/
theorem parseL3_known (slice : PacketSlice env id packet copies (c.regs 10) others)
    (stubs : ParseStubs env packet readable) (p : BfProgram) (forgotten : c.regs 8 = 0)
    (fresh : p.chain.flags.storeNexthdr = true → ehByte c = 0) :
    Ends env ((parseL3Slots p id).map (Emitted.link maps)) c
      (UpperKnown p.chain.flags (packet c.world) ((packet c.world).slice (readable c.world))
        (offsetAt .l3Offset (c.regs 10) c.mem) (c.regs 7)) fun _ => True := by
  cases known : l3Len (c.regs 7) with
  | none =>
      have neither : c.regs 7 ≠ ipv4Reg ∧ c.regs 7 ≠ ipv6Reg := by
        constructor <;> intro is <;> rw [is] at known <;> cases known
      refine .of_fall (eval_parseL3_none p known) ⟨?_, ?_, fun six => absurd six neither.2⟩
      · rw [l3Kept, known]
        rfl
      · rw [upperRead, if_neg neither.1, if_neg neither.2, ← forgotten]
        rfl
  | some len =>
      refine Ends.of_eval_eq (eval_parseL3_some p known) ?_
      rw [parseL3BodySlots_eq, List.map_append]
      refine ((takeL3_ends slice p known).mono (fun _ taken => taken) fun _ _ => trivial).append
        fun d taken => ?_
      rcases l3Len_cases known with ⟨ipv4, rfl⟩ | ⟨ipv6, rfl⟩
      · obtain ⟨e, falls, upper⟩ := upper_ipv4 env maps p.chain.flags ipv4 taken
        exact .of_fall falls upper
      · obtain ⟨e, falls, upper⟩ := upper_ipv6 maps stubs p.chain.flags ipv6 fresh taken
        exact .of_fall falls upper

end Layer3

/-! ## All layers -/

section Layers

variable {c d : Core W}

theorem parsedL4_known {w : Packet} {copied : Nat → Bool} (parsed : ParsedL4 w others copied c d) :
    d.regs 7 = c.regs 7 ∧ d.regs 8 = l4Kept (c.regs 8) ∧ ehByte d = ehByte c := by
  unfold ParsedL4 at parsed
  rw [l4Kept]
  cases known : l4Len (c.regs 8) with
  | none =>
      rw [known] at parsed
      subst parsed
      exact ⟨rfl, rfl, rfl⟩
  | some len =>
      rw [known] at parsed
      obtain ⟨framed, -, -⟩ := parsed
      refine ⟨framed.regs 7 (by decide), framed.regs 8 (by decide), ?_⟩
      refine ehByte_of_touches framed.frame framed.touches ?_
      generalize copied len = choice
      rcases (l4Len_cases known).2 with rfl | rfl <;> cases choice <;> decide

variable (maps) in
/-- Layer 3, then layer 4. -/
theorem upper_known {id : BitVec 32} (slice : PacketSlice env id packet copies (c.regs 10) others)
    (writes : Ipv6StubsWrite env) (stubs : ParseStubs env packet readable) (p q : BfProgram)
    (forgotten : c.regs 8 = 0) (fresh : p.chain.flags.storeNexthdr = true → ehByte c = 0) :
    Ends env ((parseL3Slots p id ++ parseL4Slots q id).map (Emitted.link maps)) c
      (ProtocolsKnown p.chain.flags (packet c.world) ((packet c.world).slice (readable c.world))
        (offsetAt .l3Offset (c.regs 10) c.mem) (c.regs 7)) fun _ => True := by
  rw [List.map_append]
  refine (((parseL3_ends slice writes p).and (parseL3_known slice stubs p forgotten fresh)).mono
    (fun _ both => both) fun _ _ => trivial).append fun d both => ?_
  obtain ⟨parsed, known⟩ := both
  have here : PacketSlice env id packet copies (d.regs 10) others :=
    parsed.done.frame.symm ▸ slice
  refine (parseL4_ends here q).mono (fun e four => ?_) fun _ _ => trivial
  obtain ⟨kept, upper, eh⟩ := parsedL4_known four
  have three := parsed.done
  have frame : e.regs 10 = c.regs 10 := four.done.frame.trans three.frame
  refine ⟨kept.trans known.l3, ?_, ?_, fun six store => eh.trans (known.eh six store)⟩
  · rw [upper, known.l4]
  · have touches := four.done.touches
    rw [three.frame] at touches
    have apart : (l3Most ((l3Len (c.regs 7)).any (copies c.world
        (offsetAt .l3Offset (c.regs 10) c.mem) (ctxAddr (c.regs 10) .l2)))).apart .l3Offset 4 =
        true := by
      generalize (l3Len (c.regs 7)).any _ = copied
      cases copied <;> decide
    rw [offsetAt, frame, touches.load (by decide), three.touches.load apart]
    rfl

/-- Parsing that starts at layer 3. -/
theorem fromL3_known {p : BfProgram} {kfunc : BtfKfunc}
    (dynptr : DynptrFrom env (p.host.kfuncId kfunc))
    (slice : PacketSlice env (p.host.kfuncId .bpfDynptrSlice) packet copies (c.regs 10) others)
    (writes : Ipv6StubsWrite env) (stubs : ParseStubs env packet readable)
    (forgotten : c.regs 8 = 0) (fresh : p.chain.flags.storeNexthdr = true → ehByte c = 0) :
    Ends env ((fromL3Slots p kfunc).map (Emitted.link maps)) c
      (ProtocolsKnown p.chain.flags (packet c.world) ((packet c.world).slice (readable c.world))
        (offsetAt .l3Offset (c.regs 10) c.mem) (c.regs 7)) fun _ => True := by
  rw [fromL3Slots, List.append_assoc, List.map_append]
  refine ((makeDynptr_ends dynptr p c).mono (fun _ created => created) fun _ _ => trivial).append
    fun d created => ?_
  have here : PacketSlice env (p.host.kfuncId .bpfDynptrSlice) packet copies (d.regs 10) others :=
    created.frame.symm ▸ slice
  have untouched := ehByte_of_touches created.frame created.touches (by decide)
  have upper := upper_known maps here writes stubs (p.noted dynptrMsg)
    ((p.noted dynptrMsg).noted l3Msg) ((created.regs 8 (by decide)).trans forgotten)
    fun store => untouched.trans (fresh (by simpa using store))
  rw [created.world, created.regs 7 (by decide), created.frame, offsetAt,
    created.touches.load (by decide)] at upper
  simpa [offsetAt] using upper

/-- Parsing that starts at layer 2. -/
theorem fromL2_known {p : BfProgram} {kfunc : BtfKfunc}
    (dynptr : DynptrFrom env (p.host.kfuncId kfunc))
    (slice : PacketSlice env (p.host.kfuncId .bpfDynptrSlice) packet copies (c.regs 10) others)
    (writes : Ipv6StubsWrite env) (stubs : ParseStubs env packet readable)
    (forgotten : c.regs 8 = 0) (fresh : p.chain.flags.storeNexthdr = true → ehByte c = 0) :
    Ends env ((fromL2Slots p kfunc).map (Emitted.link maps)) c
      (ProtocolsKnown p.chain.flags (packet c.world) ((packet c.world).slice (readable c.world)) 14
        (etherReg (packet c.world))) fun _ => True := by
  rw [fromL2Slots, List.append_assoc, List.append_assoc, List.map_append]
  refine ((makeDynptr_ends dynptr p c).mono (fun _ created => created) fun _ _ => trivial).append
    fun d created => ?_
  have here : PacketSlice env (p.host.kfuncId .bpfDynptrSlice) packet copies (d.regs 10) others :=
    created.frame.symm ▸ slice
  rw [List.map_append]
  refine ((parseL2_ends here rfl _).mono (fun _ two => two) fun _ _ => trivial).append
    fun e two => ?_
  have here₂ : PacketSlice env (p.host.kfuncId .bpfDynptrSlice) packet copies (e.regs 10) others :=
    two.framed.frame.symm ▸ here
  have untouched : ehByte e = ehByte c := by
    refine (ehByte_of_touches two.framed.frame two.framed.touches ?_).trans
      (ehByte_of_touches created.frame created.touches (by decide))
    generalize copies d.world 0 (ctxAddr (d.regs 10) .l2) 14 = copied
    cases copied <;> decide
  have eight : e.regs 8 = 0 :=
    ((two.framed.regs 8 (by decide)).trans (created.regs 8 (by decide))).trans forgotten
  have upper := upper_known maps here₂ writes stubs ((p.noted dynptrMsg).noted l2Msg)
    (((p.noted dynptrMsg).noted l2Msg).noted l3Msg) eight
    fun store => untouched.trans (fresh (by simpa using store))
  have world : e.world = c.world := two.framed.world.trans created.world
  rw [world, two.ethertype, created.world, two.framed.frame, offsetAt, two.offset] at upper
  simpa using upper

end Layers

/-! ## Whole heads -/

section Heads

variable {c : Core W}

/-- Where the layer 3 header of a packet starts. -/
def BfFlavor.l3Start (flavor : BfFlavor) : BitVec 32 := if flavor.parsesL2 then 14 else 0

/-- A prologue that does not parse layer 2 starts with the layer 3 header. -/
theorem prologueStart_offset (p : BfProgram) {flavor : BfFlavor} (upper : flavor.parsesL2 = false) :
    Ends env ((prologueStart p flavor).map (Emitted.link maps)) c
      (fun d => offsetAt .l3Offset (d.regs 10) d.mem = 0) fun _ => True := by
  cases flavor with
  | tc | xdp => cases upper
  | nf =>
      rw [prologueStart, List.append_assoc, List.map_append, List.map_append]
      refine (nfOpens_ends p).append fun d framed =>
        (family_ends framed).append fun e framed => ?_
      rw [Ends]
      simp only [List.map_cons, List.map_nil, link_insn]
      rw [eval_st, eval_ldx, eval_ldx, eval_alu64Imm, eval_stx, eval_nil]
      refine .inl ⟨_, rfl, ?_⟩
      simp only [add_ctxOff, Core.storeMem_regs, Core.setReg_regs, Fin.reduceEq, if_false, offsetAt,
        Core.storeMem_mem, Core.setReg_mem]
      rw [Mem.load_store_disjoint _ _ (disjoint_ctx _ _ _ (by decide) (by decide)) (by decide)]
      exact congrArg (BitVec.setWidth 32) (Mem.load_store_word _ _ 0)
  | cgroup =>
      rw [prologueStart, List.append_assoc, List.map_append, List.map_append]
      refine (cgroupOpens_ends p).append fun d framed =>
        (family_ends framed).append fun e framed => ?_
      rw [Ends, List.map_cons, link_insn, eval_st]
      refine .inl ⟨_, rfl, ?_⟩
      simp only [add_ctxOff, Core.storeMem_regs, offsetAt, Core.storeMem_mem]
      exact congrArg (BitVec.setWidth 32) (Mem.load_store_word _ _ 0)

theorem headStarted_eight (flags : BfChainFlags) (c : Core W) :
    (headStarted env maps flags c).regs 8 = 0 := by
  rw [headStarted, storeIf_regs]
  split <;> rfl

/-- The record of extension headers starts empty. -/
theorem headStarted_ehByte {flags : BfChainFlags} (store : flags.storeNexthdr = true) (c : Core W) :
    ehByte (headStarted env maps flags c) = 0 := by
  have frame : (headStarted env maps flags c).regs 10 = c.regs 10 := headStarted_regs _ _ (by decide)
  rw [ehByte, frame, headStarted, if_pos store, Core.storeMem_mem]
  exact Mem.store_first _ _ 0 (by decide) (by decide)

/-- What is known at the rules, of programs that parse layer 2 and of those that do not. -/
structure HeadKnown (chain : BfChain) (packet : Packet) (slice : Slice) (r7 : BitVec 64)
    (d : Core W) : Prop where
  known : ProtocolsKnown chain.flags packet slice (bfHookToFlavor chain.hook).l3Start r7 d
  ethertype : (bfHookToFlavor chain.hook).parsesL2 = true → r7 = etherReg packet

variable (maps) in
theorem prologueRest_known {p : BfProgram}
    (parse : ParseEnv env p.host packet copies (c.regs 10) others)
    (stubs : ParseStubs env packet readable) (forgotten : c.regs 8 = 0)
    (fresh : p.chain.flags.storeNexthdr = true → ehByte c = 0)
    (start : p.flavor.parsesL2 = false → offsetAt .l3Offset (c.regs 10) c.mem = 0) :
    Ends env ((prologueRest p p.flavor).map (Emitted.link maps)) c
      (fun d => ∃ r7, HeadKnown p.chain (packet c.world)
        ((packet c.world).slice (readable c.world)) r7 d) fun _ => True := by
  have lower : ∀ d : Core W, p.flavor.parsesL2 = true →
      ProtocolsKnown p.chain.flags (packet c.world) ((packet c.world).slice (readable c.world)) 14
        (etherReg (packet c.world)) d →
      ∃ r7, HeadKnown p.chain (packet c.world) ((packet c.world).slice (readable c.world)) r7 d := by
    intro d l2 known
    refine ⟨_, ?_, fun _ => rfl⟩
    rw [BfFlavor.l3Start, show bfHookToFlavor p.chain.hook = p.flavor from rfl, if_pos l2]
    exact known
  have upper : ∀ d : Core W, p.flavor.parsesL2 = false →
      ProtocolsKnown p.chain.flags (packet c.world) ((packet c.world).slice (readable c.world))
        (offsetAt .l3Offset (c.regs 10) c.mem) (c.regs 7) d →
      ∃ r7, HeadKnown p.chain (packet c.world) ((packet c.world).slice (readable c.world)) r7 d := by
    intro d l2 known
    rw [start l2] at known
    refine ⟨c.regs 7, ?_, fun no => ?_⟩
    · rw [BfFlavor.l3Start, show bfHookToFlavor p.chain.hook = p.flavor from rfl, l2]
      exact known
    · rw [show bfHookToFlavor p.chain.hook = p.flavor from rfl, l2] at no
      cases no
  generalize p.flavor = flavor at lower upper ⊢
  cases flavor with
  | nf =>
      exact (fromL3_known parse.fromSkb parse.slice parse.stubs stubs forgotten fresh).mono
        (fun d => upper d rfl) fun _ _ => trivial
  | tc =>
      exact (fromL2_known parse.fromSkb parse.slice parse.stubs stubs forgotten fresh).mono
        (fun d => lower d rfl) fun _ _ => trivial
  | xdp =>
      exact (fromL2_known parse.fromXdp parse.slice parse.stubs stubs forgotten fresh).mono
        (fun d => lower d rfl) fun _ _ => trivial
  | cgroup =>
      exact (fromL3_known parse.fromSkb parse.slice parse.stubs stubs forgotten fresh).mono
        (fun d => upper d rfl) fun _ _ => trivial

/-- **The protocols at the rules.** -/
theorem head_protocols {p : BfProgram}
    (parse : ParseEnv env p.host packet copies (c.regs 10) others)
    (stubs : ParseStubs env packet readable) :
    Ends env ((headSlots p).map (Emitted.link maps)) c
      (fun d => ∃ r7, HeadKnown p.chain (packet c.world)
        ((packet c.world).slice (readable c.world)) r7 d) fun _ => True := by
  rw [headSlots, List.map_append, List.map_append]
  apply Ends.append_fall (eval_headStart p.chain.flags c)
  have frame : (headStarted env maps p.chain.flags c).regs 10 = c.regs 10 :=
    headStarted_regs _ _ (by decide)
  have start : Ends env ((prologueStart p p.flavor).map (Emitted.link maps))
      (headStarted env maps p.chain.flags c)
      (fun e => Framed startPrint [8] (headStarted env maps p.chain.flags c) e ∧
        (p.flavor.parsesL2 = false → offsetAt .l3Offset (e.regs 10) e.mem = 0)) fun _ => True := by
    cases l2 : p.flavor.parsesL2 with
    | true =>
        refine (prologueStart_ends p p.flavor).mono (fun _ framed => ⟨framed, fun no => ?_⟩)
          fun _ h => h
        cases no
    | false =>
        exact (Ends.and (prologueStart_ends p p.flavor (E := fun _ => True))
          (prologueStart_offset p l2)).mono (fun _ both => ⟨both.1, fun _ => both.2⟩)
          fun _ _ => trivial
  refine start.append fun e ready => ?_
  obtain ⟨framed, offset⟩ := ready
  have here : ParseEnv env p.host packet copies (e.regs 10) others := by
    rw [framed.frame, frame]
    exact parse
  have world : e.world = c.world := framed.world.trans (headStarted_world _ _)
  have rest := prologueRest_known maps here stubs
    ((framed.regs 8 (by decide)).trans (headStarted_eight _ _))
    (fun store => (ehByte_of_touches framed.frame framed.touches (by decide)).trans
      (headStarted_ehByte store c)) offset
  rw [world] at rest
  exact rest

end Heads

end Bpfilter
