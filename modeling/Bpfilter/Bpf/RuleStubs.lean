/-
# Bpf.RuleStubs -- the stubs rules call: counting and logging

`bfUpdateCounters` and `bfLog` are the C functions of `update_counters.bpf.c` and
`log.bpf.c`.  Both get the runtime context of the program, which they read from memory;
the first changes an element of the counters map, the second publishes a record in the
ring buffer when there is room for one.

What they do to the kernel is an `Observed`.  `StubsObserved` says that the kernel behind
a program runs these functions when the program calls its stubs.
-/
import Bpfilter.Bfcli.Parser
import Bpfilter.Cgen.Observed
import Bpfilter.Xlate.IptGenerate

namespace Bpfilter

set_option autoImplicit false

open Ebpf

/-! ## Counters -/

/-- Address of a field, given the address of the context. -/
def ctxField (ctx : Addr) (field : RuntimeField) : Addr := ctx + BitVec.ofNat 64 field.offset

theorem ctxField_ctxAddr (r10 : BitVec 64) (field : RuntimeField) :
    ctxField (ctxAddr r10 .arg) field = ctxAddr r10 field := by
  rw [ctxField, ctxAddr, ctxAddr, add_assoc]
  congr 1
  cases field <;> decide

/-- One packet more, of a size. -/
def BfCounter.count (counter : BfCounter) (size : BitVec 64) : BfCounter :=
  ⟨counter.packets + 1, counter.bytes + size⟩

/-- `bf_update_counters`: the map afterwards, and the returned value.  The keys of the map have
4 bytes. -/
def bfUpdateCounters (mem : Mem) (ctx : Addr) (key : BitVec 64) (map : List BfCounter) :
    List BfCounter × BitVec 8 :=
  let index := (key.setWidth 32).toNat
  match map[index]? with
  | none => (map, 1)
  | some counter => (map.set index (counter.count (mem.load (ctxField ctx .pktSize) 8)), 0)

/-- Count a packet in an element of the map, if the map has it. -/
def countIn (size : BitVec 64) (index : BitVec 32) (map : List BfCounter) : List BfCounter :=
  map.modify index.toNat fun counter => counter.count size

theorem bfUpdateCounters_counts (mem : Mem) (ctx : Addr) (index : BitVec 32)
    (map : List BfCounter) : (bfUpdateCounters mem ctx (index.setWidth 64) map).1 =
      countIn (mem.load (ctxField ctx .pktSize) 8) index map := by
  have key : ((index.setWidth 64).setWidth 32).toNat = index.toNat := by
    rw [BitVec.setWidth_setWidth_of_le _ (by decide), BitVec.setWidth_eq]
  simp only [bfUpdateCounters, key, countIn]
  cases found : map[index.toNat]? with
  | none => exact (List.modify_eq_self (List.getElem?_eq_none_iff.mp found)).symm
  | some counter =>
      have : Inhabited BfCounter := ⟨{}⟩
      rw [List.modify_eq_set, found]
      rfl

/-! ## Logs -/

namespace BfPkthdr

/-- `1 << hdr` -/
def flag (hdr : BfPkthdr) : BitVec 4 := 1 <<< hdr.index

/-- `BF_L2_SLICE_LEN`, `BF_L3_SLICE_LEN` and `BF_L4_SLICE_LEN`. -/
def sliceLen : BfPkthdr → Nat
  | .link => 16
  | .internet => 40
  | .transport => 24

/-- The fields of the context with the address and the size of a header. -/
def hdrField : BfPkthdr → RuntimeField
  | .link => .l2Hdr
  | .internet => .l3Hdr
  | .transport => .l4Hdr

def sizeField : BfPkthdr → RuntimeField
  | .link => .l2Size
  | .internet => .l3Size
  | .transport => .l4Size

end BfPkthdr

/-- `struct bf_log`: of each header, the bytes that were copied. -/
structure BfLog where
  ts : BitVec 64
  pktSize : BitVec 64
  ruleId : BitVec 32
  l3Proto : BitVec 16
  l4Proto : BitVec 8
  reqHeaders : BitVec 4
  headers : BitVec 4
  hdr : BfPkthdr → List Byte

/-- A header is copied: it is requested, and the context has its address and a size that fits. -/
def copiesHdr (mem : Mem) (ctx : Addr) (headers : BitVec 8) (hdr : BfPkthdr) : Bool :=
  headers &&& hdr.flag.setWidth 8 ≠ 0 && mem.load (ctxField ctx hdr.hdrField) 8 ≠ 0 &&
    (mem.load (ctxField ctx hdr.sizeField) 1).toNat ≤ hdr.sliceLen

/-- `bpf_probe_read_kernel` of a header that is copied. -/
def copiedHdr (mem : Mem) (ctx : Addr) (headers : BitVec 8) (hdr : BfPkthdr) : List Byte :=
  if copiesHdr mem ctx headers hdr then
    mem.bytesAt (mem.load (ctxField ctx hdr.hdrField) 8)
      (mem.load (ctxField ctx hdr.sizeField) 1).toNat
  else []

/-- The bit of a header that is copied. -/
def copiedBit (mem : Mem) (ctx : Addr) (headers : BitVec 8) (hdr : BfPkthdr) : BitVec 4 :=
  if copiesHdr mem ctx headers hdr then hdr.flag else 0

/-- `bf_log`: the published record, when `bpf_ringbuf_reserve` has room for it; `ts` is the
time then. -/
def bfLog (mem : Mem) (args : Args) (reserved : Option (BitVec 64)) : Option BfLog :=
  reserved.map fun ts =>
    let headers : BitVec 8 := args.r3.setWidth 8
    { ts
      pktSize := mem.load (ctxField args.r1 .pktSize) 8
      ruleId := args.r2.setWidth 32
      l3Proto := htobe16 (args.r4.setWidth 16)
      l4Proto := args.r5.setWidth 8
      reqHeaders := headers.setWidth 4
      headers := copiedBit mem args.r1 headers .link ||| copiedBit mem args.r1 headers .internet |||
        copiedBit mem args.r1 headers .transport
      hdr := copiedHdr mem args.r1 headers }

/-! ## What is observed -/

/-- What the stubs change: the counters of the program, the records in its ring buffer, and for
every reservation to come whether there is room, and the time. -/
structure Observed where
  counters : List BfCounter
  records : List BfLog
  reserved : Nat → Option (BitVec 64)

/-- The kernel of a program with these maps: its stubs are the functions above, and nothing else
its rules call changes what they change. -/
structure StubsObserved {W : Type} (env : Env W BfElfstubId) (maps : BfMaps) (seen : W → Observed) :
    Prop where
  update : ∀ args mem world, args.r2 = env.mapAddr maps.cmap →
    seen (env.sub .updateCounters args mem world).world =
      { seen world with counters := (bfUpdateCounters mem args.r1 args.r3 (seen world).counters).1 }
  log : ∀ args mem world, mem.load (ctxField args.r1 .logMap) 8 = env.mapAddr maps.lmap →
    seen (env.sub .log args mem world).world =
      { seen world with
        records := (seen world).records ++ (bfLog mem args ((seen world).reserved 0)).toList
        reserved := fun n => (seen world).reserved (n + 1) }
  lookup : ∀ args mem world,
    seen (env.helper bpfFuncMapLookupElem args mem world).world = seen world
  random : ∀ args mem world,
    seen (env.helper bpfFuncGetPrandomU32 args mem world).world = seen world
  print : ∀ args mem world, seen (env.helper bpfFuncTracePrintk args mem world).world = seen world

end Bpfilter
