/-
# Cgen.Slices -- slicing headers out of a packet

The parsing code asks the kernel for slices of the packet.  `PacketSlice` is the
contract of `bpf_dynptr_slice`: it may fail, and if it does not it either copies the
bytes to the buffer it was given or returns a pointer into the packet.  Which of the
two it does is the kernel's choice, for each offset, buffer and size (`copies`).

What code writes to the runtime context is a `Footprint`, a list of fields with
sizes; `Touches` bounds a change of memory by one.  `slice_stored` is the step common
to all layers: after a slice has been taken and its address stored, the address
denotes the bytes of the packet, and only the buffer of a copied slice was written.
A step that fails leaves through `bail`.
-/
import Bpfilter.Cgen.Ipv6Walk
import Bpfilter.Ebpf.Ends

namespace Bpfilter

set_option autoImplicit false

open Ebpf

/-! ## Footprints -/

/-- Fields of the runtime context, with the bytes written from the start of each. -/
abbrev Footprint := List (RuntimeField × Nat)

/-- A field and the number of its bytes are inside the context. -/
def RuntimeField.Fits (f : RuntimeField) (n : Nat) : Bool := f.offset + n ≤ sizeofRuntime

/-- The first `n` bytes of a field are apart from a footprint. -/
def Footprint.apart (fs : Footprint) (f : RuntimeField) (n : Nat) : Bool :=
  f.Fits n && fs.all fun g =>
    g.1.Fits g.2 && (f.offset + n ≤ g.1.offset || g.1.offset + g.2 ≤ f.offset)

/-- Only a footprint was written. -/
def Touches (r10 : BitVec 64) (fs : Footprint) (m m' : Mem) : Prop :=
  Mem.SameOutside (fs.map fun g => (ctxAddr r10 g.1, g.2)) m m'

section Touches

variable {r10 : BitVec 64} {fs gs : Footprint} {m m' m'' : Mem}

theorem Touches.refl (fs : Footprint) (m : Mem) : Touches r10 fs m m := Mem.SameOutside.refl _ m

theorem Touches.mono (touches : Touches r10 fs m m') (le : ∀ g ∈ fs, g ∈ gs) :
    Touches r10 gs m m' := by
  refine Mem.SameOutside.mono touches fun r mem => ?_
  obtain ⟨g, listed, rfl⟩ := List.mem_map.mp mem
  exact List.mem_map.mpr ⟨g, le g listed, rfl⟩

theorem Touches.trans (first : Touches r10 fs m m') (second : Touches r10 gs m' m'') :
    Touches r10 (fs ++ gs) m m'' :=
  Mem.SameOutside.trans (first.mono fun _ => List.mem_append_left _)
    (second.mono fun _ => List.mem_append_right _)

theorem Touches.store (f : RuntimeField) (n : Nat) (v : BitVec 64) :
    Touches r10 [(f, n)] m (m.store (ctxAddr r10 f) n v) := Mem.SameOutside.store m _ n v

theorem Footprint.apart_disjoint {f : RuntimeField} {n : Nat} (apart : fs.apart f n = true) :
    ∀ r ∈ fs.map fun g => (ctxAddr r10 g.1, g.2), Mem.Disjoint (ctxAddr r10 f) n r.1 r.2 := by
  intro r mem
  obtain ⟨g, listed, rfl⟩ := List.mem_map.mp mem
  simp only [Footprint.apart, RuntimeField.Fits, Bool.and_eq_true, Bool.or_eq_true,
    decide_eq_true_eq, List.all_eq_true] at apart
  obtain ⟨fits, sides⟩ := apart.2 g listed
  exact disjoint_ctx r10 f g.1 sides ⟨apart.1, fits⟩

/-- A field that was not written holds what it held. -/
theorem Touches.load (touches : Touches r10 fs m m') {f : RuntimeField} {n : Nat}
    (apart : fs.apart f n = true) : m'.load (ctxAddr r10 f) n = m.load (ctxAddr r10 f) n := by
  have fits : f.offset + n ≤ sizeofRuntime := by
    simpa [Footprint.apart, RuntimeField.Fits] using (Bool.and_eq_true_iff.mp apart).1
  refine Mem.SameOutside.load touches (Footprint.apart_disjoint apart) ?_
  unfold sizeofRuntime at fits
  omega

theorem Touches.field (touches : Touches r10 fs m m') {f : RuntimeField} {n : Nat}
    (apart : fs.apart f n = true) {x : Addr} (inside : Mem.InRange (ctxAddr r10 f) n x) :
    m' x = m x :=
  Mem.SameOutside.apply touches (Footprint.apart_disjoint apart) inside

/-- Memory outside the stack frame holds what it held. -/
theorem Touches.outside (touches : Touches r10 fs m m')
    (fits : fs.all (fun g => g.1.Fits g.2) = true) {a : Addr} {n : Nat}
    (apart : Mem.Disjoint a n (r10 - 512) 512) {x : Addr} (inside : Mem.InRange a n x) :
    m' x = m x := by
  refine Mem.SameOutside.apply touches ?_ inside
  intro r mem
  obtain ⟨g, listed, rfl⟩ := List.mem_map.mp mem
  have fit := List.all_eq_true.mp fits g listed
  exact disjoint_ctx_of_stack apart g.1 (by simpa [RuntimeField.Fits] using fit)

end Touches

/-! ## The kernel -/

section Callees

variable {W : Type}

/-- A range outside the stack frame, and apart from other memory. -/
def Outside (r10 : BitVec 64) (others : List (Addr × Nat)) (a : Addr) (n : Nat) : Prop :=
  Mem.Disjoint a n (r10 - 512) 512 ∧ ∀ o ∈ others, Mem.Disjoint a n o.1 o.2

/-- `bpf_dynptr_slice`.  A failed call may have written to the buffer; `others` is memory the
packet is not in. -/
structure PacketSlice (env : Env W BfElfstubId) (id : BitVec 32) (packet : W → Packet)
    (copies : W → BitVec 32 → Addr → Nat → Bool) (r10 : BitVec 64)
    (others : List (Addr × Nat)) : Prop where
  bytes : ∀ args mem world (i : Nat), (env.kfunc id args mem world).r0 ≠ 0 → i < args.r4.toNat →
    (env.kfunc id args mem world).mem ((env.kfunc id args mem world).r0 + BitVec.ofNat 64 i) =
      packet world (args.r2.setWidth 32 + BitVec.ofNat 32 i)
  copied : ∀ args mem world, (env.kfunc id args mem world).r0 ≠ 0 →
    copies world (args.r2.setWidth 32) args.r3 args.r4.toNat = true →
      (env.kfunc id args mem world).r0 = args.r3
  direct : ∀ args mem world, (env.kfunc id args mem world).r0 ≠ 0 →
    copies world (args.r2.setWidth 32) args.r3 args.r4.toNat = false →
      (env.kfunc id args mem world).mem = mem ∧
        Outside r10 others (env.kfunc id args mem world).r0 args.r4.toNat
  others : ∀ args mem world, Mem.SameOutside [(args.r3, args.r4.toNat)] mem
    (env.kfunc id args mem world).mem
  world : ∀ args mem world, (env.kfunc id args mem world).world = world

/-- `bpf_dynptr_from_xdp` and `bpf_dynptr_from_skb` write the dynamic pointer. -/
structure DynptrFrom (env : Env W BfElfstubId) (id : BitVec 32) : Prop where
  others : ∀ args mem world, Mem.SameOutside [(args.r3, 16)] mem
    (env.kfunc id args mem world).mem
  world : ∀ args mem world, (env.kfunc id args mem world).world = world

/-- The fields `bf_parse_ipv6` writes, in either stub. -/
def ipv6StubFootprint : Footprint := [(.ipv6Eh, 1), (.l4Offset, 4)]

/-- The stubs that walk over extension headers write to their context argument. -/
structure Ipv6StubsWrite (env : Env W BfElfstubId) : Prop where
  writes : ∀ flags r10 args mem world, args.r1 = ctxAddr r10 .arg →
    Touches r10 ipv6StubFootprint mem (env.sub (ipv6Stub flags) args mem world).mem
  world : ∀ flags args mem world, (env.sub (ipv6Stub flags) args mem world).world = world

end Callees

/-! ## Failed steps -/

section Steps

variable {W : Type} {env : Env W BfElfstubId} {maps : BfMaps}

/-- What `EMIT_PRINT` does. -/
def printed (env : Env W BfElfstubId) (maps : BfMaps) (msg : BfPrinterMsg) (c : Core W) : Core W :=
  let c₁ := c.setReg 1 (env.mapValueAddr maps.pmap (BitVec.ofNat 32 msg.offset))
  let c₂ := c₁.setReg 2 ((BitVec.ofNat 32 msg.len).signExtend 64)
  c₂.call (env.helper bpfFuncTracePrintk)

theorem eval_print (msg : BfPrinterMsg) (c : Core W) :
    eval env 0 ((printSlots msg).map (Emitted.link maps)) c = .fall 0 (printed env maps msg c) :=
  rfl

/-- The end of a program whose parsing failed: the error counter, a message when verbose, and the
accepting verdict. -/
def bail (env : Env W BfElfstubId) (maps : BfMaps) (p : BfProgram) (msg : String) (c : Core W) :
    Core W :=
  let counted := (Effect.counter (BitVec.ofNat 32 (bfProgramErrorCounterIdx p))).perform env maps c
  let noted :=
    if p.host.verboseBpf then printed env maps (bfPrinterAddMsg p.printer msg).1 counted
    else counted
  noted.setReg 0 ((acceptCode p.flavor).signExtend 64)

theorem eval_errorExit (p : BfProgram) (msg : String) (c : Core W) :
    eval env 0 ((errorExitSlots p msg).map (Emitted.link maps)) c =
      .exit (bail env maps p msg c) := by
  have print : ∀ d, eval env 0 ((if p.host.verboseBpf then
      printSlots (bfPrinterAddMsg p.printer msg).1 else []).map (Emitted.link maps)) d =
      .fall 0 (if p.host.verboseBpf then printed env maps (bfPrinterAddMsg p.printer msg).1 d
        else d) := by
    intro d
    split
    · exact eval_print _ d
    · rfl
  rw [errorExitSlots, List.append_assoc, List.map_append, eval_append_fall _ (eval_counter _ c),
    List.map_append, eval_append_fall _ (print _), eval_verdict]
  rfl

/-- The guard of a step that failed. -/
theorem eval_guard_failed (p : BfProgram) (msg : String) {guard : BpfInsn}
    (isJump : guard.isJump = true) {c : Core W} (failed : guard.taken c = false) :
    eval env 0 ((skipOver guard (errorExitSlots p msg)).map (Emitted.link maps)) c =
      .exit (bail env maps p msg c) :=
  (eval_skipOver_idle isJump _ failed).trans (eval_errorExit p msg c)

/-- The guard of a step that succeeded. -/
theorem eval_guard_passed (p : BfProgram) (msg : String) {guard : BpfInsn}
    (isJump : guard.isJump = true) {c : Core W} (passed : guard.taken c = true) :
    eval env 0 ((skipOver guard (errorExitSlots p msg)).map (Emitted.link maps)) c =
      .fall 0 c := by
  have short := errorExitSlots_length p msg
  exact eval_skipOver_taken isJump _ passed (by omega)

end Steps

/-! ## One slice -/

/-- The bytes at an address are those of the packet at an offset. -/
def Denotes (packet : Packet) (m : Mem) (a : Addr) (offset : BitVec 32) (len : Nat) : Prop :=
  ∀ i < len, m (a + BitVec.ofNat 64 i) = packet (offset + BitVec.ofNat 32 i)

/-- A slice is in its buffer, or outside the stack frame. -/
def Placed (r10 : BitVec 64) (others : List (Addr × Nat)) (buffer : RuntimeField) (copied : Bool)
    (a : Addr) (len : Nat) : Prop :=
  if copied then a = ctxAddr r10 buffer else Outside r10 others a len

/-- What a slice writes. -/
def slicePrint (buffer : RuntimeField) (copied : Bool) (len : Nat) : Footprint :=
  if copied then [(buffer, len)] else []

/-- The bytes of a slice are still there after a change apart from it. -/
theorem Denotes.of_touches {packet : Packet} {m m' : Mem} {a : Addr} {offset : BitVec 32}
    {len : Nat} {r10 : BitVec 64} {others : List (Addr × Nat)} {buffer : RuntimeField}
    {copied : Bool} {fs : Footprint} (denotes : Denotes packet m a offset len)
    (placed : Placed r10 others buffer copied a len)
    (touches : Touches r10 fs m m') (fits : fs.all (fun g => g.1.Fits g.2) = true)
    (apart : copied = true → fs.apart buffer len = true) (small : len ≤ 2 ^ 64) :
    Denotes packet m' a offset len := by
  intro i inside
  have here := Mem.inRange_add a len i inside small
  rw [← denotes i inside]
  cases copied with
  | true =>
      obtain rfl : a = ctxAddr r10 buffer := placed
      exact touches.field (apart rfl) here
  | false => exact touches.outside fits placed.1 here

section Slice

variable {W : Type} {env : Env W BfElfstubId} {id : BitVec 32} {packet : W → Packet}
  {copies : W → BitVec 32 → Addr → Nat → Bool} {r10 : BitVec 64} {others : List (Addr × Nat)}

/-- The address returned by a slice call is stored in a field of the context. -/
def storeHeader (r10 : BitVec 64) (hdr : RuntimeField) (c : Core W) : Core W :=
  c.storeMem (ctxAddr r10 hdr) 8 (c.regs 0)

/-- **One slice.**  Once the address of a slice is stored, the stored address denotes the bytes
of the packet; the buffer was written only if the slice was copied. -/
theorem slice_stored (slice : PacketSlice env id packet copies r10 others) {c : Core W}
    {hdr buffer : RuntimeField} {len : Nat} {copied : Bool} (small : len ≤ 2 ^ 64)
    (apart : Footprint.apart [(hdr, 8)] buffer len = true)
    (target : c.regs 3 = ctxAddr r10 buffer) (size : (c.regs 4).toNat = len)
    (choice : copies c.world ((c.regs 2).setWidth 32) (ctxAddr r10 buffer) len = copied)
    (found : (c.call (env.kfunc id)).regs 0 ≠ 0) :
    let d := storeHeader r10 hdr (c.call (env.kfunc id))
    Touches r10 ((hdr, 8) :: slicePrint buffer copied len) c.mem d.mem ∧
      d.mem.load (ctxAddr r10 hdr) 8 = d.regs 0 ∧
      Placed r10 others buffer copied (d.regs 0) len ∧
      Denotes (packet c.world) d.mem (d.regs 0) ((c.regs 2).setWidth 32) len := by
  intro d
  let reply := env.kfunc id c.args c.mem c.world
  have chosen : copies c.world (c.args.r2.setWidth 32) c.args.r3 c.args.r4.toNat = copied := by
    rw [show c.args.r3 = _ from target, show c.args.r4.toNat = len from size]
    exact choice
  have place : Placed r10 others buffer copied reply.r0 len := by
    cases copied with
    | true => exact (slice.copied c.args c.mem c.world found chosen).trans target
    | false =>
        have apart := (slice.direct c.args c.mem c.world found chosen).2
        rwa [show c.args.r4.toNat = len from size] at apart
  have written : Touches r10 (slicePrint buffer copied len) c.mem reply.mem := by
    cases copied with
    | true =>
        have others := slice.others c.args c.mem c.world
        rw [show c.args.r4.toNat = len from size, show c.args.r3 = _ from target] at others
        exact others
    | false =>
        have same := (slice.direct c.args c.mem c.world found chosen).1
        rw [show reply.mem = c.mem from same]
        exact .refl _ _
  have stored : Touches r10 [(hdr, 8)] reply.mem d.mem := .store hdr 8 _
  have fits : ([(hdr, 8)] : Footprint).all (fun g => g.1.Fits g.2) = true := by
    simp only [Footprint.apart, List.all_cons, List.all_nil, Bool.and_true,
      Bool.and_eq_true] at apart ⊢
    exact apart.2.1
  refine ⟨?_, Mem.load_store_reg .., place, ?_⟩
  · refine (written.trans stored).mono fun g mem => ?_
    obtain mem | mem := List.mem_append.mp mem
    · exact List.mem_cons_of_mem _ mem
    · rw [List.mem_singleton.mp mem]
      exact List.mem_cons_self
  · have bytes : Denotes (packet c.world) reply.mem reply.r0 ((c.regs 2).setWidth 32) len :=
      fun i inside => slice.bytes c.args c.mem c.world i found (by rwa [← size] at inside)
    exact bytes.of_touches place stored fits (fun _ => apart) small

end Slice

end Bpfilter
