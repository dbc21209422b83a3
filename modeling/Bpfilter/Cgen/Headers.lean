/-
# Cgen.Headers -- the headers at the start of rule evaluation

The steps of `Cgen.Prologue` are put together to whole heads.  For each layer the
context ends up with the address and the size of a slice, or, when the layer was not
parsed, with what the stack held before (`LayerAt`).

The stored addresses of layers 3 and 4 denote the bytes of the packet.  That of layer
2 does unless both it and the layer 3 header were copied: the layer 3 slice is given
the layer 2 buffer (`l2Overwritten`).  `headers_denote_iff` says so for loaded
programs.
-/
import Bpfilter.Cgen.MatcherSizes
import Bpfilter.Cgen.Prologue

namespace Bpfilter

set_option autoImplicit false

open Ebpf

variable {W : Type} {env : Env W BfElfstubId} {maps : BfMaps} {packet : W → Packet}
  {copies : W → BitVec 32 → Addr → Nat → Bool} {others : List (Addr × Nat)}

/-! ## Wider footprints -/

/-- Every field of a footprint is in another one, with at least as many bytes. -/
def Footprint.within (fs gs : Footprint) : Bool :=
  fs.all fun f => gs.any fun g => g.1 = f.1 && f.2 ≤ g.2

theorem Touches.widen {r10 : BitVec 64} {fs gs : Footprint} {m m' : Mem}
    (touches : Touches r10 fs m m') (within : fs.within gs = true) : Touches r10 gs m m' := by
  intro x outside
  apply touches
  intro r mem inside
  obtain ⟨f, listed, rfl⟩ := List.mem_map.mp mem
  obtain ⟨g, there, covers⟩ := List.any_eq_true.mp (List.all_eq_true.mp within f listed)
  simp only [Bool.and_eq_true, decide_eq_true_eq] at covers
  refine outside _ (List.mem_map.mpr ⟨g, there, rfl⟩) ?_
  rw [covers.1]
  exact Nat.lt_of_lt_of_le inside covers.2

/-- The most a layer 3 step writes. -/
def l3Most (copied : Bool) : Footprint :=
  [(.l3Size, 1), (.l3Hdr, 8), (.ipv6Eh, 1), (.l4Offset, 4)] ++ slicePrint .l2 copied 40

/-- The most a layer 4 step writes. -/
def l4Most : Footprint := [(.l4Size, 1), (.l4Hdr, 8), (.l4, 20)]

/-! ## Layers -/

/-- What the context says about a layer: the size and the address of a slice, or what it said
before. -/
def LayerAt (hdr size buffer : RuntimeField) (len : Option Nat) (r10 : BitVec 64)
    (others : List (Addr × Nat)) (m₀ m : Mem) : Prop :=
  match len with
  | some n => ∃ copied, Sliced hdr size buffer copied n r10 others m
  | none => m.load (ctxAddr r10 size) 1 = m₀.load (ctxAddr r10 size) 1 ∧
      m.load (ctxAddr r10 hdr) 8 = m₀.load (ctxAddr r10 hdr) 8

section LayerAt

variable {hdr size buffer : RuntimeField} {len : Option Nat} {r10 : BitVec 64} {m₀ m₁ m m' : Mem}
  {fs : Footprint}

theorem LayerAt.of_touches (layer : LayerAt hdr size buffer len r10 others m₀ m)
    (touches : Touches r10 fs m m') (apartSize : fs.apart size 1 = true)
    (apartHdr : fs.apart hdr 8 = true) : LayerAt hdr size buffer len r10 others m₀ m' := by
  cases len with
  | some n =>
      obtain ⟨copied, sliced⟩ := layer
      exact ⟨copied, sliced.of_touches touches apartSize apartHdr⟩
  | none => exact ⟨(touches.load apartSize).trans layer.1, (touches.load apartHdr).trans layer.2⟩

/-- Earlier writes that are apart from the fields of the layer. -/
theorem LayerAt.before (layer : LayerAt hdr size buffer len r10 others m₁ m)
    (touches : Touches r10 fs m₀ m₁) (apartSize : fs.apart size 1 = true)
    (apartHdr : fs.apart hdr 8 = true) : LayerAt hdr size buffer len r10 others m₀ m := by
  cases len with
  | some n => exact layer
  | none => exact ⟨layer.1.trans (touches.load apartSize), layer.2.trans (touches.load apartHdr)⟩

end LayerAt

/-- After the layer 3 step. -/
structure L3Done (packet : Packet) (others : List (Addr × Nat)) (copied : Nat → Bool)
    (c d : Core W) : Prop where
  frame : d.regs 10 = c.regs 10
  world : d.world = c.world
  touches : Touches (c.regs 10) (l3Most ((l3Len (c.regs 7)).any copied)) c.mem d.mem
  proto : l3Len (d.regs 7) = l3Len (c.regs 7)
  layer : LayerAt .l3Hdr .l3Size .l2 (l3Len (c.regs 7)) (c.regs 10) others c.mem d.mem
  sliced : ∀ len, l3Len (c.regs 7) = some len →
    Sliced .l3Hdr .l3Size .l2 (copied len) len (c.regs 10) others d.mem
  denotes : ∀ len, l3Len (c.regs 7) = some len →
    HeaderDenotes packet .l3Hdr (offsetAt .l3Offset (c.regs 10) c.mem) len (c.regs 10) d.mem

theorem ParsedL3.done {packet : Packet} {copied : Nat → Bool} {c d : Core W}
    (parsed : ParsedL3 packet others copied c d) : L3Done packet others copied c d := by
  unfold ParsedL3 at parsed
  cases known : l3Len (c.regs 7) with
  | none =>
      rw [known] at parsed
      obtain rfl : d = c.setReg 7 0 := parsed
      refine ⟨rfl, rfl, .refl _ _, ?_, ?_, ?_, ?_⟩
      · rw [known]
        rfl
      · rw [known]
        exact ⟨rfl, rfl⟩
      · intro len some
        rw [known] at some
        cases some
      · intro len some
        rw [known] at some
        cases some
  | some len =>
      rw [known] at parsed
      refine ⟨parsed.framed.frame, parsed.framed.world, ?_, ?_, ?_, ?_, ?_⟩
      · rw [known, Option.any_some]
        apply parsed.framed.touches.widen
        generalize copied len = choice
        rcases l3Len_cases known with ⟨-, rfl⟩ | ⟨-, rfl⟩ <;> cases choice <;> decide
      · rw [parsed.framed.regs 7 (by decide)]
      · rw [known]
        exact ⟨_, parsed.sliced⟩
      · intro len' same
        rw [known] at same
        cases same
        exact parsed.sliced
      · intro len' same
        rw [known] at same
        cases same
        exact parsed.denotes

/-- After the layer 4 step. -/
structure L4Done (packet : Packet) (others : List (Addr × Nat)) (c d : Core W) : Prop where
  frame : d.regs 10 = c.regs 10
  kept : d.regs 7 = c.regs 7
  world : d.world = c.world
  touches : Touches (c.regs 10) l4Most c.mem d.mem
  layer : LayerAt .l4Hdr .l4Size .l4 (l4Len (d.regs 8)) (c.regs 10) others c.mem d.mem
  denotes : ∀ len, l4Len (d.regs 8) = some len →
    HeaderDenotes packet .l4Hdr (offsetAt .l4Offset (c.regs 10) d.mem) len (c.regs 10) d.mem

theorem ParsedL4.done {packet : Packet} {copied : Nat → Bool} {c d : Core W}
    (parsed : ParsedL4 packet others copied c d) : L4Done packet others c d := by
  unfold ParsedL4 at parsed
  cases known : l4Len (c.regs 8) with
  | none =>
      rw [known] at parsed
      obtain rfl : d = c.setReg 8 0 := parsed
      refine ⟨rfl, rfl, rfl, .refl _ _, ⟨rfl, rfl⟩, ?_⟩
      intro len some
      cases some
  | some len =>
      rw [known] at parsed
      have kept : l4Len (d.regs 8) = some len := by
        rw [parsed.framed.regs 8 (by decide)]
        exact known
      have touches : Touches (c.regs 10) l4Most c.mem d.mem := by
        apply parsed.framed.touches.widen
        generalize copied len = choice
        rcases (l4Len_cases known).2 with rfl | rfl <;> cases choice <;> decide
      refine ⟨parsed.framed.frame, parsed.framed.regs 7 (by decide), parsed.framed.world, touches,
        ?_, ?_⟩
      · rw [kept]
        exact ⟨_, parsed.sliced⟩
      · intro len' same
        rw [kept] at same
        cases same
        rw [offsetAt, touches.load (by decide)]
        exact parsed.denotes

/-! ## Layers 3 and 4 together -/

/-- Was the layer 3 header copied? -/
def l3Copied (choice : BitVec 32 → Addr → Nat → Bool) (c : Core W) : Bool :=
  (l3Len (c.regs 7)).any (choice (offsetAt .l3Offset (c.regs 10) c.mem) (ctxAddr (c.regs 10) .l2))

/-- The layers above the link layer, from the state `c` in which their parsing starts. -/
structure Layers (packet : Packet) (others : List (Addr × Nat))
    (choice : BitVec 32 → Addr → Nat → Bool) (c d : Core W) : Prop where
  frame : d.regs 10 = c.regs 10
  world : d.world = c.world
  touches : Touches (c.regs 10) (l3Most (l3Copied choice c) ++ l4Most) c.mem d.mem
  proto : l3Len (d.regs 7) = l3Len (c.regs 7)
  internet : LayerAt .l3Hdr .l3Size .l2 (l3Len (c.regs 7)) (c.regs 10) others c.mem d.mem
  internetSliced : ∀ len, l3Len (c.regs 7) = some len → Sliced .l3Hdr .l3Size .l2
    (choice (offsetAt .l3Offset (c.regs 10) c.mem) (ctxAddr (c.regs 10) .l2) len) len (c.regs 10)
    others d.mem
  internetDenotes : ∀ len, l3Len (c.regs 7) = some len →
    HeaderDenotes packet .l3Hdr (offsetAt .l3Offset (c.regs 10) c.mem) len (c.regs 10) d.mem
  transport : LayerAt .l4Hdr .l4Size .l4 (l4Len (d.regs 8)) (c.regs 10) others c.mem d.mem
  transportDenotes : ∀ len, l4Len (d.regs 8) = some len →
    HeaderDenotes packet .l4Hdr (offsetAt .l4Offset (c.regs 10) d.mem) len (c.regs 10) d.mem

theorem layers_of_done {packet : Packet} {choice : BitVec 32 → Addr → Nat → Bool}
    {c d e : Core W}
    (three : L3Done packet others
      (choice (offsetAt .l3Offset (c.regs 10) c.mem) (ctxAddr (c.regs 10) .l2)) c d)
    (four : L4Done packet others d e) : Layers packet others choice c e := by
  obtain ⟨frame, kept, world, touches, layer, denotes⟩ := four
  rw [three.frame] at touches layer denotes
  refine ⟨frame.trans three.frame, world.trans three.world, three.touches.trans touches, ?_,
    three.layer.of_touches touches (by decide) (by decide), ?_, ?_, ?_, denotes⟩
  · rw [kept, three.proto]
  · intro len known
    exact (three.sliced len known).of_touches touches (by decide) (by decide)
  · intro len known
    have apart : l4Most.apart .l2 len = true ∧ len ≤ 2 ^ 64 := by
      rcases l3Len_cases known with ⟨-, rfl⟩ | ⟨-, rfl⟩ <;> decide
    exact (three.denotes len known).of_touches (three.sliced len known) touches (by decide)
      (fun _ => apart.1) apart.2
  · refine layer.before three.touches ?_ ?_ <;>
      generalize (l3Len (c.regs 7)).any _ = copied <;> cases copied <;> decide

/-- What may have been written when parsing fails. -/
def parsePrint : Footprint :=
  [(.dynptr, 16), (.l2Size, 1), (.l2Hdr, 8), (.l2, 40), (.l3Offset, 4), (.l3Size, 1), (.l3Hdr, 8),
    (.ipv6Eh, 1), (.l4Offset, 4), (.l4Size, 1), (.l4Hdr, 8), (.l4, 20)]

theorem Framed.widen {fs gs : Footprint} {kept : List Reg} {c d : Core W}
    (framed : Framed fs kept c d) (within : fs.within gs = true) : Framed gs kept c d :=
  ⟨framed.frame, framed.regs, framed.world, framed.touches.widen within⟩

theorem Bailed.widen {p q : BfProgram} {fs gs : Footprint} {c d : Core W}
    (bailed : Bailed env maps q fs c d) (host : q.host = p.host) (chain : q.chain = p.chain)
    (within : fs.within gs = true) : Bailed env maps p gs c d := by
  obtain ⟨q', msg, e, host', chain', framed, rfl⟩ := bailed
  exact ⟨q', msg, e, host'.trans host, chain'.trans chain, framed.widen within, rfl⟩

theorem bailPrint_l3_within (r7 : BitVec 64) :
    (bailPrint .l3Size .l2 (l3Len r7)).within parsePrint = true := by
  cases known : l3Len r7 with
  | none => rfl
  | some len => rcases l3Len_cases known with ⟨-, rfl⟩ | ⟨-, rfl⟩ <;> decide

theorem bailPrint_l4_within (r8 : BitVec 64) :
    (bailPrint .l4Size .l4 (l4Len r8)).within parsePrint = true := by
  cases known : l4Len r8 with
  | none => rfl
  | some len => rcases (l4Len_cases known).2 with rfl | rfl <;> decide

theorem Footprint.within_append {fs gs hs : Footprint} (first : fs.within hs = true)
    (second : gs.within hs = true) : (fs ++ gs).within hs = true := by
  rw [Footprint.within, List.all_append, Bool.and_eq_true]
  exact ⟨first, second⟩

/-- Layer 3, then layer 4. -/
theorem layers_ends {id : BitVec 32} {c : Core W}
    (slice : PacketSlice env id packet copies (c.regs 10) others) (stubs : Ipv6StubsWrite env)
    {p q : BfProgram} (host : q.host = p.host) (chain : q.chain = p.chain) :
    Ends env ((parseL3Slots p id ++ parseL4Slots q id).map (Emitted.link maps)) c
      (Layers (packet c.world) others (copies c.world) c) (Bailed env maps p parsePrint c) := by
  rw [List.map_append]
  refine Ends.append ((parseL3_ends slice stubs p).mono (fun d parsed => parsed.done) fun d bailed =>
    bailed.widen rfl rfl (bailPrint_l3_within _)) fun d three => ?_
  have framed : Framed _ [] c d :=
    ⟨three.frame, fun _ mem => (List.not_mem_nil mem).elim, three.world, three.touches⟩
  have here : PacketSlice env id packet copies (d.regs 10) others := three.frame.symm ▸ slice
  refine (parseL4_ends here q).mono (fun e parsed => ?_) fun e bailed => ?_
  · have four := parsed.done
    rw [three.world] at four
    exact layers_of_done three four
  · refine (Bailed.after framed bailed).widen host chain ?_
    refine Footprint.within_append ?_ (bailPrint_l4_within _)
    generalize (l3Len (c.regs 7)).any _ = copied
    cases copied <;> decide

/-! ## All layers -/

/-- The ethertype is that of a layer 3 header that is copied, and so was the layer 2 header; the
bytes differ. -/
def l2Overwritten (packet : Packet) (choice : BitVec 32 → Addr → Nat → Bool) (r10 : BitVec 64) :
    Prop :=
  choice 0 (ctxAddr r10 .l2) 14 = true ∧
    (l3Len (etherReg packet)).any (choice 14 (ctxAddr r10 .l2)) = true ∧
    ∃ i < 14, packet (14 + BitVec.ofNat 32 i) ≠ packet (BitVec.ofNat 32 i)

theorem l3Len_ge {r7 : BitVec 64} {len : Nat} (known : l3Len r7 = some len) : 14 ≤ len := by
  rcases l3Len_cases known with ⟨-, rfl⟩ | ⟨-, rfl⟩ <;> decide

/-- The buffer holds the layer 3 header: it denotes the layer 2 header when both begin alike. -/
theorem overwritten_iff {packet : Packet} {choice : BitVec 32 → Addr → Nat → Bool}
    {r10 : BitVec 64} {m : Mem} {a : Addr} {len : Nat} (long : 14 ≤ len)
    (bytes : Denotes packet m a 14 len) (first : choice 0 (ctxAddr r10 .l2) 14 = true)
    (second : (l3Len (etherReg packet)).any (choice 14 (ctxAddr r10 .l2)) = true) :
    Denotes packet m a 0 14 ↔ ¬ l2Overwritten packet choice r10 := by
  constructor
  · rintro denotes ⟨-, -, i, inside, differs⟩
    apply differs
    rw [← bytes i (by omega), denotes i inside, zero_add]
  · intro same i inside
    rw [bytes i (by omega), zero_add]
    by_contra differs
    exact same ⟨first, second, i, inside, differs⟩

/-- The layer 2 header after layers 3 and 4. -/
theorem link_denotes_iff {packet : Packet} {choice : BitVec 32 → Addr → Nat → Bool}
    {c d e : Core W}
    (two : ParsedL2 packet others (choice 0 (ctxAddr (c.regs 10) .l2) 14) c d)
    (upper : Layers packet others choice d e) :
    HeaderDenotes packet .l2Hdr 0 14 (c.regs 10) e.mem ↔
      ¬ l2Overwritten packet choice (c.regs 10) := by
  have frame := two.framed.frame
  have touches := upper.touches
  have at_ : offsetAt .l3Offset (d.regs 10) d.mem = 14 := by
    rw [offsetAt, frame, two.offset]
    rfl
  have copied : l3Copied choice d =
      (l3Len (etherReg packet)).any (choice 14 (ctxAddr (c.regs 10) .l2)) := by
    rw [l3Copied, at_, two.ethertype, frame]
  rw [frame, copied] at touches
  cases first : choice 0 (ctxAddr (c.regs 10) .l2) 14 with
  | false =>
      rw [first] at two
      refine iff_of_true ?_ fun bad => absurd (bad.1.symm.trans first) (by decide)
      refine two.denotes.of_touches two.sliced touches ?_ (fun no => absurd no (by decide)) (by decide)
      generalize (l3Len (etherReg packet)).any _ = other
      cases other <;> decide
  | true =>
      rw [first] at two
      cases second : (l3Len (etherReg packet)).any (choice 14 (ctxAddr (c.regs 10) .l2)) with
      | false =>
          rw [second] at touches
          refine iff_of_true ?_ fun bad => absurd (bad.2.1.symm.trans second) (by decide)
          exact two.denotes.of_touches two.sliced touches (by decide) (fun _ => by decide)
            (by decide)
      | true =>
          obtain ⟨len, known, third⟩ := (Option.any_eq_true _ _).mp second
          have known' : l3Len (d.regs 7) = some len := two.ethertype ▸ known
          have sliced := upper.internetSliced len known'
          rw [at_, frame] at sliced
          have shared : e.mem.load (ctxAddr (c.regs 10) .l3Hdr) 8 = ctxAddr (c.regs 10) .l2 := by
            have placed := sliced.placed
            rwa [third] at placed
          have bytes := upper.internetDenotes len known'
          rw [HeaderDenotes, at_, frame, shared] at bytes
          have address : e.mem.load (ctxAddr (c.regs 10) .l2Hdr) 8 = ctxAddr (c.regs 10) .l2 := by
            rw [second] at touches
            rw [touches.load (by decide)]
            exact two.sliced.placed
          rw [HeaderDenotes, address]
          exact overwritten_iff (l3Len_ge known) bytes first second

/-- The size of the layer 2 header, for a program that parses it. -/
def l2Len (l2 : Bool) : Option Nat := if l2 then some 14 else none

/-- All layers, from the state `c` in which the dynamic pointer is created to the first rule;
`l2` says whether layer 2 is among them. -/
structure Headers (packet : Packet) (others : List (Addr × Nat))
    (choice : BitVec 32 → Addr → Nat → Bool) (l2 : Bool) (c d : Core W) : Prop where
  frame : d.regs 10 = c.regs 10
  world : d.world = c.world
  touches : Touches (c.regs 10) parsePrint c.mem d.mem
  proto : l3Len (d.regs 7) = l3Len (if l2 then etherReg packet else c.regs 7)
  link : LayerAt .l2Hdr .l2Size .l2 (l2Len l2) (c.regs 10) others c.mem d.mem
  linkDenotes : l2 = true → (HeaderDenotes packet .l2Hdr 0 14 (c.regs 10) d.mem ↔
    ¬ l2Overwritten packet choice (c.regs 10))
  internet : LayerAt .l3Hdr .l3Size .l2 (l3Len (d.regs 7)) (c.regs 10) others c.mem d.mem
  internetDenotes : ∀ len, l3Len (d.regs 7) = some len →
    HeaderDenotes packet .l3Hdr (offsetAt .l3Offset (c.regs 10) d.mem) len (c.regs 10) d.mem
  transport : LayerAt .l4Hdr .l4Size .l4 (l4Len (d.regs 8)) (c.regs 10) others c.mem d.mem
  transportDenotes : ∀ len, l4Len (d.regs 8) = some len →
    HeaderDenotes packet .l4Hdr (offsetAt .l4Offset (c.regs 10) d.mem) len (c.regs 10) d.mem

theorem upperPrint_within (copied : Bool) : (l3Most copied ++ l4Most).within parsePrint = true := by
  cases copied <;> decide

/-- The fields layers 3 and 4 leave alone. -/
theorem upperPrint_apart (copied : Bool) :
    (l3Most copied ++ l4Most).apart .l2Size 1 = true ∧
      (l3Most copied ++ l4Most).apart .l2Hdr 8 = true ∧
      (l3Most copied ++ l4Most).apart .l3Offset 4 = true := by
  cases copied <;> decide

/-- Layers 3 and 4, after code that wrote a footprint. -/
theorem Layers.headers {packet : Packet} {choice : BitVec 32 → Addr → Nat → Bool} {l2 : Bool}
    {fs : Footprint} {c d e : Core W} (framed : Framed fs [] c d)
    (upper : Layers packet others choice d e)
    (within : fs.within parsePrint = true)
    (fields : fs.apart .l3Size 1 = true ∧ fs.apart .l3Hdr 8 = true ∧ fs.apart .l4Size 1 = true ∧
      fs.apart .l4Hdr 8 = true)
    (proto : l3Len (d.regs 7) = l3Len (if l2 then etherReg packet else c.regs 7))
    (link : LayerAt .l2Hdr .l2Size .l2 (l2Len l2) (c.regs 10) others c.mem d.mem)
    (linkDenotes : l2 = true → (HeaderDenotes packet .l2Hdr 0 14 (c.regs 10) e.mem ↔
      ¬ l2Overwritten packet choice (c.regs 10))) : Headers packet others choice l2 c e := by
  obtain ⟨frame, world, touches, kept, internet, -, internetDenotes, transport, transportDenotes⟩ :=
    upper
  rw [framed.frame] at frame touches internet internetDenotes transport transportDenotes
  obtain ⟨apartSize, apartHdr, apartOffset⟩ := upperPrint_apart (l3Copied choice d)
  obtain ⟨size3, hdr3, size4, hdr4⟩ := fields
  refine ⟨frame, world.trans framed.world, ?_, kept.trans proto,
    link.of_touches touches apartSize apartHdr, linkDenotes, ?_, ?_,
    transport.before framed.touches size4 hdr4, transportDenotes⟩
  · exact (framed.touches.trans touches).widen
      (Footprint.within_append within (upperPrint_within _))
  · rw [kept]
    exact internet.before framed.touches size3 hdr3
  · intro len known
    rw [offsetAt, touches.load apartOffset]
    exact internetDenotes len (kept ▸ known)

/-- Parsing that starts at layer 3. -/
theorem fromL3_ends {p : BfProgram} {c : Core W} {kfunc : BtfKfunc}
    (dynptr : DynptrFrom env (p.host.kfuncId kfunc))
    (slice : PacketSlice env (p.host.kfuncId .bpfDynptrSlice) packet copies (c.regs 10) others)
    (stubs : Ipv6StubsWrite env) :
    Ends env ((fromL3Slots p kfunc).map (Emitted.link maps)) c
      (Headers (packet c.world) others (copies c.world) false c) (Bailed env maps p parsePrint c) := by
  rw [fromL3Slots, List.append_assoc, List.map_append]
  refine Ends.append ((makeDynptr_ends dynptr p c).mono (fun _ created => created) fun _ bailed =>
    bailed.widen rfl rfl (by decide)) fun d created => ?_
  have framed : Framed [(.dynptr, 16)] [] c d :=
    created.fewer fun _ mem => (List.not_mem_nil mem).elim
  have here : PacketSlice env (p.host.kfuncId .bpfDynptrSlice) packet copies (d.regs 10) others :=
    created.frame.symm ▸ slice
  refine (layers_ends here stubs (by simp) (by simp)).mono (fun e upper => ?_) fun e bailed => ?_
  · rw [created.world] at upper
    refine upper.headers framed (by decide) (by decide) ?_ ?_ (by simp)
    · rw [created.regs 7 (by decide)]
      rfl
    · exact ⟨created.touches.load (by decide), created.touches.load (by decide)⟩
  · refine (Bailed.after framed bailed).widen (by simp) (by simp) ?_
    exact Footprint.within_append (by decide) (by decide)

/-- Parsing that starts at layer 2. -/
theorem fromL2_ends {p : BfProgram} {c : Core W} {kfunc : BtfKfunc}
    (dynptr : DynptrFrom env (p.host.kfuncId kfunc))
    (slice : PacketSlice env (p.host.kfuncId .bpfDynptrSlice) packet copies (c.regs 10) others)
    (stubs : Ipv6StubsWrite env) :
    Ends env ((fromL2Slots p kfunc).map (Emitted.link maps)) c
      (Headers (packet c.world) others (copies c.world) true c) (Bailed env maps p parsePrint c) := by
  rw [fromL2Slots, List.append_assoc, List.append_assoc, List.map_append]
  refine Ends.append ((makeDynptr_ends dynptr p c).mono (fun _ created => created) fun _ bailed =>
    bailed.widen rfl rfl (by decide)) fun d created => ?_
  have framed : Framed [(.dynptr, 16)] [] c d :=
    created.fewer fun _ mem => (List.not_mem_nil mem).elim
  have here : PacketSlice env (p.host.kfuncId .bpfDynptrSlice) packet copies (d.regs 10) others :=
    created.frame.symm ▸ slice
  rw [List.map_append]
  refine Ends.append ((parseL2_ends here rfl _).mono (fun _ two => two) fun e bailed =>
    (Bailed.after framed bailed).widen (by simp) (by simp) (by decide)) fun e two => ?_
  have framed₂ := framed.trans (two.framed.fewer fun _ mem => (List.not_mem_nil mem).elim)
  have within : Footprint.within
      ([(.dynptr, 16)] ++ l2Print (copies d.world 0 (ctxAddr (d.regs 10) .l2) 14)) parsePrint =
      true := by
    generalize copies d.world 0 (ctxAddr (d.regs 10) .l2) 14 = copied
    cases copied <;> decide
  have here₂ : PacketSlice env (p.host.kfuncId .bpfDynptrSlice) packet copies (e.regs 10) others :=
    two.framed.frame.symm ▸ here
  refine (layers_ends here₂ stubs (by simp) (by simp)).mono (fun g upper => ?_) fun g bailed => ?_
  · rw [two.framed.world] at upper
    have denotes := link_denotes_iff two upper
    rw [created.world] at upper denotes
    rw [created.frame] at denotes
    refine upper.headers framed₂ within ?_ ?_ ?_ fun _ => denotes
    · generalize copies d.world 0 (ctxAddr (d.regs 10) .l2) 14 = copied
      cases copied <;> decide
    · rw [two.ethertype, created.world]
      rfl
    · rw [← created.frame]
      exact ⟨_, two.sliced⟩
  · exact (Bailed.after framed₂ bailed).widen (by simp) (by simp)
      (Footprint.within_append within (by decide))

/-! ## In front of the dynamic pointer -/

/-- What a prologue writes before it creates the dynamic pointer. -/
def startPrint : Footprint := [(.ifindex, 4), (.l3Offset, 4), (.pktSize, 8)]

/-- The family switch writes `r7` only. -/
theorem family_ends {reg : Reg} {fs : Footprint} {c d : Core W} {E : Core W → Prop}
    (framed : Framed fs [8] c d) :
    Ends env ((familySlots reg).map (Emitted.link maps)) d (Framed fs [8] c) E := by
  rw [familySlots]
  refine .of_fall (eval_swich2 ..) ?_
  split
  · exact framed.setReg _ (by decide) (by decide)
  split <;> exact framed.setReg _ (by decide) (by decide)

theorem nfOpens_ends (p : BfProgram) {c : Core W} {E : Core W → Prop} :
    Ends env (([bpfLdxMem .dw 2 1 (p.host.fieldOff .bpfNfCtxState),
      bpfLdxMem .dw 3 2 (p.host.fieldOff
        (if bfNfHookIsIngress p.chain.hook then .nfHookStateIn else .nfHookStateOut)),
      bpfLdxMem .w 4 3 (p.host.fieldOff .netDeviceIfindex),
      bpfStxMem .w 10 4 (ctxOff .ifindex),
      bpfLdxMem .b 3 2 (p.host.fieldOff .nfHookStatePf)] : List Emitted).map
      (Emitted.link maps)) c (Framed [(.ifindex, 4)] [8] c) E := by
  rw [Ends]
  simp only [List.map_cons, List.map_nil, link_insn]
  rw [eval_ldx, eval_ldx, eval_ldx, eval_stx, eval_ldx, eval_nil]
  refine .inl ⟨_, rfl, ?_⟩
  simp only [add_ctxOff]
  refine Framed.setReg (Framed.storeField (Framed.setReg (Framed.setReg (Framed.setReg
      (.refl [] _ _) _ ?_ ?_) _ ?_ ?_) _ ?_ ?_) .ifindex 4 _) _ ?_ ?_ <;> decide

theorem cgroupOpens_ends (p : BfProgram) {c : Core W} {E : Core W → Prop} :
    Ends env (([bpfLdxMem .w 3 1 uSkBuffLen, bpfAlu64Imm .add 3 14,
      bpfStxMem .dw 10 3 (ctxOff .pktSize),
      bpfLdxMem .w 2 1 (p.host.fieldOff .uSkBuffIfindex), bpfStxMem .w 10 2 (ctxOff .ifindex),
      bpfLdxMem .w 2 1 (p.host.fieldOff .uSkBuffFamily)] : List Emitted).map
      (Emitted.link maps)) c (Framed [(.pktSize, 8), (.ifindex, 4)] [8] c) E := by
  rw [Ends]
  simp only [List.map_cons, List.map_nil, link_insn]
  rw [eval_ldx, eval_alu64Imm, eval_stx, eval_ldx, eval_stx, eval_ldx, eval_nil]
  refine .inl ⟨_, rfl, ?_⟩
  simp only [add_ctxOff]
  refine Framed.setReg (Framed.storeField (Framed.setReg (Framed.storeField (Framed.setReg
      (Framed.setReg (.refl [] _ _) _ ?_ ?_) _ ?_ ?_) .pktSize 8 _) _ ?_ ?_) .ifindex 4 _) _
      ?_ ?_ <;> decide

theorem prologueStart_ends (p : BfProgram) (flavor : BfFlavor) {c : Core W} {E : Core W → Prop} :
    Ends env ((prologueStart p flavor).map (Emitted.link maps)) c (Framed startPrint [8] c) E := by
  cases flavor with
  | tc =>
      rw [Ends, prologueStart]
      simp only [List.map_cons, List.map_nil, link_insn]
      rw [eval_ldx, eval_stx, eval_ldx, eval_stx, eval_nil]
      refine .inl ⟨_, rfl, ?_⟩
      simp only [add_ctxOff]
      refine Framed.mono (Framed.storeField (Framed.setReg (Framed.storeField (Framed.setReg
        (.refl [] _ _) _ ?_ ?_) .pktSize 8 _) _ ?_ ?_) .ifindex 4 _) ?_ <;> decide
  | xdp =>
      rw [Ends, prologueStart]
      simp only [List.map_cons, List.map_nil, link_insn]
      rw [eval_ldx, eval_ldx, eval_alu64Reg, eval_stx, eval_ldx, eval_stx, eval_nil]
      refine .inl ⟨_, rfl, ?_⟩
      simp only [add_ctxOff]
      refine Framed.mono (Framed.storeField (Framed.setReg (Framed.storeField (Framed.setReg
        (Framed.setReg (Framed.setReg (.refl [] _ _) _ ?_ ?_) _ ?_ ?_) _ ?_ ?_) .pktSize 8 _) _
        ?_ ?_) .ifindex 4 _) ?_ <;> decide
  | nf =>
      rw [prologueStart, List.append_assoc, List.map_append, List.map_append]
      refine (nfOpens_ends p).append fun d framed =>
        (family_ends framed).append fun e framed => ?_
      rw [Ends]
      simp only [List.map_cons, List.map_nil, link_insn]
      rw [eval_st, eval_ldx, eval_ldx, eval_alu64Imm, eval_stx, eval_nil]
      refine .inl ⟨_, rfl, ?_⟩
      simp only [add_ctxOff]
      refine Framed.storeField (Framed.setReg (Framed.setReg (Framed.setReg
        (framed.storeField .l3Offset 4 _) _ ?_ ?_) _ ?_ ?_) _ ?_ ?_) .pktSize 8 _ <;> decide
  | cgroup =>
      rw [prologueStart, List.append_assoc, List.map_append, List.map_append]
      refine (cgroupOpens_ends p).append fun d framed =>
        (family_ends framed).append fun e framed => ?_
      rw [Ends, List.map_cons, link_insn, eval_st]
      refine .inl ⟨_, rfl, ?_⟩
      simp only [add_ctxOff]
      exact (framed.storeField .l3Offset 4 _).mono (by decide)

/-- The state in which the prologue starts. -/
def headStarted (env : Env W BfElfstubId) (maps : BfMaps) (flags : BfChainFlags) (c : Core W) :
    Core W :=
  let saved := ((c.storeMem (ctxAddr (c.regs 10) .arg) 8 (c.regs 1)).setReg 7 0).setReg 8 0
  let logged :=
    if flags.log then (saved.setReg 2 (env.mapAddr maps.lmap)).storeMem
      (ctxAddr (c.regs 10) .logMap) 8 (env.mapAddr maps.lmap)
    else saved
  if flags.storeNexthdr then logged.storeMem (ctxAddr (c.regs 10) .ipv6Eh) 8 0 else logged

theorem eval_headStart (flags : BfChainFlags) (c : Core W) :
    eval env 0 ((headStart flags).map (Emitted.link maps)) c =
      .fall 0 (headStarted env maps flags c) := by
  obtain ⟨log, storeNexthdr⟩ := flags
  simp only [headStarted, ← add_ctxOff]
  cases log <;> cases storeNexthdr <;> rfl

/-! ## Whole heads -/

/-- The flavors whose programs parse layer 2. -/
def BfFlavor.parsesL2 : BfFlavor → Bool
  | .tc | .xdp => true
  | .nf | .cgroup => false

theorem prologueRest_ends {p : BfProgram} {c : Core W}
    (parse : ParseEnv env p.host packet copies (c.regs 10) others) (flavor : BfFlavor) :
    Ends env ((prologueRest p flavor).map (Emitted.link maps)) c
      (Headers (packet c.world) others (copies c.world) flavor.parsesL2 c)
      (Bailed env maps p parsePrint c) := by
  cases flavor with
  | nf =>
      rw [prologueRest]
      exact fromL3_ends parse.fromSkb parse.slice parse.stubs
  | tc =>
      rw [prologueRest]
      exact fromL2_ends parse.fromSkb parse.slice parse.stubs
  | xdp =>
      rw [prologueRest]
      exact fromL2_ends parse.fromXdp parse.slice parse.stubs
  | cgroup =>
      rw [prologueRest]
      exact fromL3_ends parse.fromSkb parse.slice parse.stubs

/-- A conditional store. -/
theorem storeIf_world (b : Bool) (c : Core W) (a : Addr) (n : Nat) (v : BitVec 64) :
    (if b then c.storeMem a n v else c).world = c.world := by
  cases b <;> rfl

theorem storeIf_regs (b : Bool) (c : Core W) (a : Addr) (n : Nat) (v : BitVec 64) :
    (if b then c.storeMem a n v else c).regs = c.regs := by
  cases b <;> rfl

theorem headStarted_world (flags : BfChainFlags) (c : Core W) :
    (headStarted env maps flags c).world = c.world := by
  rw [headStarted, storeIf_world]
  split
  · rw [Core.storeMem_world, Core.setReg_world, Core.setReg_world, Core.setReg_world,
      Core.storeMem_world]
  · rw [Core.setReg_world, Core.setReg_world, Core.storeMem_world]

/-- The frame pointer and the registers the head does not use. -/
theorem headStarted_regs (flags : BfChainFlags) (c : Core W) {r : Reg} (other : 8 < r) :
    (headStarted env maps flags c).regs r = c.regs r := by
  have h2 : r ≠ 2 := by rintro rfl; exact absurd other (by decide)
  have h7 : r ≠ 7 := by rintro rfl; exact absurd other (by decide)
  have h8 : r ≠ 8 := by rintro rfl; exact absurd other (by decide)
  rw [headStarted, storeIf_regs]
  split
  · rw [Core.storeMem_regs, Core.setReg_regs, if_neg h2, Core.setReg_regs, if_neg h8,
      Core.setReg_regs, if_neg h7, Core.storeMem_regs]
  · rw [Core.setReg_regs, if_neg h8, Core.setReg_regs, if_neg h7, Core.storeMem_regs]

/-- The code in front of the rules has been executed; `e` is the state in which the dynamic
pointer was created. -/
structure HeadDone (env : Env W BfElfstubId) (maps : BfMaps) (packet : W → Packet)
    (copies : W → BitVec 32 → Addr → Nat → Bool) (others : List (Addr × Nat)) (chain : BfChain)
    (c e d : Core W) : Prop where
  started : Framed startPrint [8] (headStarted env maps chain.flags c) e
  headers : Headers (packet c.world) others (copies c.world) (bfHookToFlavor chain.hook).parsesL2 e d

/-- The code in front of the rules has failed. -/
def HeadFailed (env : Env W BfElfstubId) (maps : BfMaps) (p : BfProgram) (c d : Core W) : Prop :=
  ∃ e, Framed startPrint [8] (headStarted env maps p.chain.flags c) e ∧
    Bailed env maps p parsePrint e d

theorem head_ends {p : BfProgram} {c : Core W}
    (parse : ParseEnv env p.host packet copies (c.regs 10) others) :
    Ends env ((headSlots p).map (Emitted.link maps)) c
      (fun d => ∃ e, HeadDone env maps packet copies others p.chain c e d)
      (HeadFailed env maps p c) := by
  rw [headSlots, List.map_append, List.map_append]
  apply Ends.append_fall (eval_headStart p.chain.flags c)
  refine (prologueStart_ends p p.flavor).append fun e started => ?_
  have here : ParseEnv env p.host packet copies (e.regs 10) others := by
    rw [started.frame, headStarted_regs _ _ (by decide)]
    exact parse
  have world : e.world = c.world := started.world.trans (headStarted_world _ _)
  refine (prologueRest_ends here p.flavor).mono (fun d headers => ?_) fun d bailed => ?_
  · rw [world] at headers
    exact ⟨e, started, headers⟩
  · exact ⟨e, started, bailed⟩

/-- The addresses in the context denote the headers of the packet, for each layer that was
parsed. -/
structure HeadersDenote (packet : Packet) (flavor : BfFlavor) (d : Core W) : Prop where
  link : flavor.parsesL2 = true → HeaderDenotes packet .l2Hdr 0 14 (d.regs 10) d.mem
  internet : ∀ len, l3Len (d.regs 7) = some len →
    HeaderDenotes packet .l3Hdr (offsetAt .l3Offset (d.regs 10) d.mem) len (d.regs 10) d.mem
  transport : ∀ len, l4Len (d.regs 8) = some len →
    HeaderDenotes packet .l4Hdr (offsetAt .l4Offset (d.regs 10) d.mem) len (d.regs 10) d.mem

theorem HeadDone.frame {chain : BfChain} {c e d : Core W}
    (done : HeadDone env maps packet copies others chain c e d) :
    e.regs 10 = c.regs 10 ∧ d.regs 10 = c.regs 10 := by
  have start : e.regs 10 = c.regs 10 := done.started.frame.trans (headStarted_regs _ _ (by decide))
  exact ⟨start, done.headers.frame.trans start⟩

theorem HeadDone.denote_iff {chain : BfChain} {c e d : Core W}
    (done : HeadDone env maps packet copies others chain c e d) :
    HeadersDenote (packet c.world) (bfHookToFlavor chain.hook) d ↔
      ¬ ((bfHookToFlavor chain.hook).parsesL2 = true ∧
        l2Overwritten (packet c.world) (copies c.world) (c.regs 10)) := by
  obtain ⟨start, frame⟩ := done.frame
  obtain ⟨-, -, -, -, -, link, -, internet, -, transport⟩ := done.headers
  rw [start] at link internet transport
  constructor
  · rintro denote ⟨parsed, bad⟩
    have holds := denote.link parsed
    rw [frame] at holds
    exact (link parsed).mp holds bad
  · intro fine
    refine ⟨fun parsed => ?_, ?_, ?_⟩
    · rw [frame]
      exact (link parsed).mpr fun bad => fine ⟨parsed, bad⟩
    · rw [frame]
      exact internet
    · rw [frame]
      exact transport

/-! ## Loaded programs -/

section Loaded

variable {host : Host} {chain : BfChain} {q r : BfProgram}

/-- A program of the real generator, once loaded, contains its slots. -/
theorem bfProgramGenerate_embedded (compiled : host.StubsCompiled)
    (generated : bfProgramGenerate (bfProgramNew host chain maps) = .ok ((), q))
    (loaded : bfProgramLoadFixups q = .ok ((), r)) (target : Nat) :
    Embedded r.image 0 target ((programSlots (bfProgramNew host chain maps)
      (chain.rules.map (ruleSlots (matcherSlots host chain) (bfHookToFlavor chain.hook)))).map
      (Emitted.link maps)) := by
  obtain ⟨blocks, made⟩ := bfProgramGenerateWith_spec (bfMatcherGenerate_appends host chain) generated
  obtain rfl : blocks = chain.rules.map
      (ruleSlots (matcherSlots host chain) (bfHookToFlavor chain.hook)) :=
    forall₂_ruleSlots made.rules
  have calls : ∀ m, ∀ e ∈ matcherSlots host chain m, e.CallShaped := fun m e mem =>
    Emitted.callShaped_of_sound (List.all_eq_true.mp (sound_matcherSlots host chain m) e mem)
  exact programSlots_embedded compiled made (callShaped_programSlots _ calls chain.rules) loaded
    target

/-- A head that falls through leads to the first rule of the loaded program. -/
theorem head_reaches (compiled : host.StubsCompiled)
    (generated : bfProgramGenerate (bfProgramNew host chain maps) = .ok ((), q))
    (loaded : bfProgramLoadFixups q = .ok ((), r)) {c d : Core W}
    (ran : Runs env ((headSlots (bfProgramNew host chain maps)).map (Emitted.link maps)) 0 c
      (.fall d)) :
    Reaches env r.image (0, c) (rulesStart host chain maps, d) := by
  have emb := bfProgramGenerate_embedded compiled generated loaded 0
  rw [programSlots, List.map_append] at emb
  have reached := ran.simulated emb.append_left
  rw [End.Reached, List.length_map, Nat.zero_add, Nat.zero_add] at reached
  exact reached

/-- **Headers.**  When the code in front of the rules runs to its end, the program is at its first
rule, and the addresses in the context denote the headers of the packet unless the slice of layer
3 was copied over that of layer 2. -/
theorem headers_denote_iff (compiled : host.StubsCompiled)
    (generated : bfProgramGenerate (bfProgramNew host chain maps) = .ok ((), q))
    (loaded : bfProgramLoadFixups q = .ok ((), r)) {c d : Core W}
    (parse : ParseEnv env host packet copies (c.regs 10) [])
    (ran : Runs env ((headSlots (bfProgramNew host chain maps)).map (Emitted.link maps)) 0 c
      (.fall d)) :
    Reaches env r.image (0, c) (rulesStart host chain maps, d) ∧
      (HeadersDenote (packet c.world) (bfHookToFlavor chain.hook) d ↔
        ¬ ((bfHookToFlavor chain.hook).parsesL2 = true ∧
          l2Overwritten (packet c.world) (copies c.world) (c.regs 10))) := by
  refine ⟨head_reaches compiled generated loaded ran, ?_⟩
  obtain ⟨e, done⟩ := (head_ends parse).of_runs_fall ran
  exact done.denote_iff

end Loaded

/-! ## Sample packets -/

section Samples

/-- Where linear packets are. -/
def packetBase : Addr := 0x10000000000

/-- The address of a slice of a linear packet, when memory holds the packet there. -/
def linearAddr (a : Args) (m : Mem) (w : Packet) : Addr :=
  if a.r4.toNat ≤ 65536 ∧ ∀ i < a.r4.toNat,
      m (packetBase + (a.r2.setWidth 32).setWidth 64 + BitVec.ofNat 64 i) =
        w (a.r2.setWidth 32 + BitVec.ofNat 32 i) then
    packetBase + (a.r2.setWidth 32).setWidth 64
  else 0

/-- The kernel on linear packets, or on packets whose every slice has to be copied. -/
def layoutEnv (linear : Bool) : Env Packet BfElfstubId :=
  { bufferEnv with
    kfunc := fun id a m w =>
      if id = 2 then
        if linear then ⟨linearAddr a m w, a, m, w⟩ else bufferEnv.kfunc id a m w
      else ⟨0, a, m, w⟩ }

theorem linearAddr_found {a : Args} {m : Mem} {w : Packet} (found : linearAddr a m w ≠ 0) :
    linearAddr a m w = packetBase + (a.r2.setWidth 32).setWidth 64 ∧ a.r4.toNat ≤ 65536 ∧
      ∀ i < a.r4.toNat, m (packetBase + (a.r2.setWidth 32).setWidth 64 + BitVec.ofNat 64 i) =
        w (a.r2.setWidth 32 + BitVec.ofNat 32 i) := by
  unfold linearAddr at found ⊢
  split at found
  · next there =>
      rw [if_pos there]
      exact ⟨rfl, there⟩
  · exact absurd rfl found

theorem packet_apart {x : Addr} {offset : BitVec 32} {len : Nat} (small : len ≤ 65536)
    (inside : (x - (packetBase + offset.setWidth 64)).toNat < len) :
    ¬ (x - ((8192 : BitVec 64) - 512)).toNat < 512 := by
  have base : packetBase.toNat = 2 ^ 40 := rfl
  have low : ((8192 : BitVec 64) - 512).toNat = 7680 := rfl
  have bound := offset.isLt
  have top := x.isLt
  rw [BitVec.toNat_sub] at inside ⊢
  rw [BitVec.toNat_add, BitVec.toNat_setWidth, base] at inside
  rw [low]
  omega

theorem layoutEnv_slice (linear : Bool) :
    PacketSlice (layoutEnv linear) 2 (fun w => w) (fun _ _ _ _ => !linear) 8192 [] := by
  cases linear with
  | false =>
      have copying := bufferEnv_slice 2 8192
      exact {
        bytes := fun args mem world i found inside => copying.bytes args mem world i found inside
        copied := fun _ _ _ _ _ => rfl
        direct := fun _ _ _ _ no => absurd no (by decide)
        others := fun args mem world x outside => by
          refine copying.others args mem world x fun inside => ?_
          exact outside (args.r3, args.r4.toNat) List.mem_cons_self inside
        world := fun _ _ _ => rfl }
  | true =>
      refine ⟨?_, fun _ _ _ _ no => absurd no (by decide), ?_, fun _ mem _ => .refl _ mem,
        fun _ _ _ => rfl⟩
      · intro args mem world i found inside
        have reply : (layoutEnv true).kfunc 2 args mem world =
            ⟨linearAddr args mem world, args, mem, world⟩ := rfl
        rw [reply] at found ⊢
        obtain ⟨address, -, bytes⟩ := linearAddr_found found
        exact (congrArg (fun a => mem (a + BitVec.ofNat 64 i)) address).trans (bytes i inside)
      · intro args mem world found _
        obtain ⟨address, small, -⟩ := linearAddr_found found
        refine ⟨rfl, fun x inside => ?_, fun o mem => (List.not_mem_nil mem).elim⟩
        have here : (x - (packetBase + (args.r2.setWidth 32).setWidth 64)).toNat < args.r4.toNat :=
          address ▸ inside
        exact packet_apart small here

theorem layoutEnv_parse (linear : Bool) :
    ParseEnv (layoutEnv linear) sampleHost (fun w => w) (fun _ _ _ _ => !linear) 8192 [] where
  slice := layoutEnv_slice linear
  fromXdp := ⟨fun _ mem _ => .refl _ mem, fun _ _ _ => rfl⟩
  fromSkb := ⟨fun _ mem _ => .refl _ mem, fun _ _ _ => rfl⟩
  stubs := by
    refine ⟨?_, ?_⟩
    · intro flags r10 args mem world arg
      have store : ∀ v, Touches r10 ipv6StubFootprint mem
          (mem.store (args.r1 + BitVec.ofNat 64 RuntimeField.l4Offset.offset) 4 v) := by
        intro v
        rw [arg, ← ctxAddr_eq]
        exact (Touches.store .l4Offset 4 v).mono (by decide)
      unfold ipv6Stub
      split <;> exact store _
    · intro flags args mem world
      unfold ipv6Stub
      split <;> rfl

/-- An IPv4 packet of unknown protocol, with its Ethernet header. -/
def ipv4Packet : Packet := fun o => if o = 12 then 8 else if o = 14 then 0x45 else 0

def tcChain : BfChain := bfChainNew "c" .tcIngress .accept [] []

def tcGenerated : BfProgram :=
  resultOf bfProgramGenerate (bfProgramNew sampleHost tcChain sampleMaps)

def tcLoaded : BfProgram := resultOf bfProgramLoadFixups tcGenerated

/-- The packet arrives; its bytes are in memory where it would be if it is linear. -/
def arrival (w : Packet) : Core Packet where
  regs r := if r = 10 then 8192 else 0
  mem x := w ((x - packetBase).setWidth 32)
  world := w

/-- Does the evaluation of a piece of code fall through? -/
def fallsThrough {W : Type} : Eval W → Bool
  | .fall 0 _ => true
  | _ => false

theorem runs_of_fallsThrough {W S : Type} {env : Env W S} {items : List (Item S)} {c : Core W}
    (falls : fallsThrough (eval env 0 items c) = true) : ∃ d, Runs env items 0 c (.fall d) := by
  unfold fallsThrough at falls
  split at falls
  · next d ran =>
      refine ⟨d, runs_of_eval ?_⟩
      rw [ran]
      rfl
  · cases falls

theorem tc_falls (linear : Bool) : ∃ d, Runs (layoutEnv linear)
    ((headSlots (bfProgramNew sampleHost tcChain sampleMaps)).map (Emitted.link sampleMaps)) 0
    (arrival ipv4Packet) (.fall d) := by
  apply runs_of_fallsThrough
  cases linear <;> decide +kernel

theorem sampleHost_compiled : sampleHost.StubsCompiled := by
  rintro id stub ⟨⟩
  exact ⟨by decide, by decide⟩

/-- Behind the code in front of the rules, a linear packet has its headers denoted. -/
theorem linear_headers_denote : ∃ d,
    Reaches (layoutEnv true) tcLoaded.image (0, arrival ipv4Packet)
      (rulesStart sampleHost tcChain sampleMaps, d) ∧
    HeadersDenote ipv4Packet .tc d := by
  obtain ⟨d, ran⟩ := tc_falls true
  obtain ⟨reached, denote⟩ := headers_denote_iff sampleHost_compiled
    (gen_resultOf (by decide +kernel)) (gen_resultOf (by decide +kernel)) (layoutEnv_parse true) ran
  refine ⟨d, reached, denote.mpr ?_⟩
  rintro ⟨-, no, -⟩
  cases no

/-- A packet whose slices are copied does not: the layer 2 header is overwritten. -/
theorem copied_headers_not_denote : ∃ d,
    bfProgramGenerate (bfProgramNew sampleHost tcChain sampleMaps) = .ok ((), tcGenerated) ∧
    bfProgramLoadFixups tcGenerated = .ok ((), tcLoaded) ∧
    ParseEnv (layoutEnv false) sampleHost (fun w => w) (fun _ _ _ _ => true) 8192 [] ∧
    Runs (layoutEnv false) ((headSlots (bfProgramNew sampleHost tcChain sampleMaps)).map
      (Emitted.link sampleMaps)) 0 (arrival ipv4Packet) (.fall d) ∧
    ¬ HeadersDenote ipv4Packet .tc d := by
  obtain ⟨d, ran⟩ := tc_falls false
  obtain ⟨e, done⟩ := (head_ends (p := bfProgramNew sampleHost tcChain sampleMaps)
    (layoutEnv_parse false)).of_runs_fall ran
  refine ⟨d, gen_resultOf (by decide +kernel), gen_resultOf (by decide +kernel),
    layoutEnv_parse false, ran, ?_⟩
  intro denote
  exact done.denote_iff.mp denote ⟨rfl, rfl, rfl, 0, by decide, by decide⟩

end Samples

end Bpfilter
