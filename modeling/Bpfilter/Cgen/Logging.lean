/-
# Cgen.Logging -- what rules count and publish

At its first rule a program has the size of the packet in its context, and the address
and the size of every header it parsed (`LogContext`).  The rules keep all of it, so every
record the log stub publishes is faithful (`LogContext.publishes`): it has the requested
headers that were parsed, with the bytes of the packet.  What it says of a header that was
requested and not parsed is whatever the stack had.

The effects of rules change what is observed by a step each, `Effect.Recorded`
(`LogContext.sees`).
-/
import Bpfilter.Bpf.RuleStubs
import Bpfilter.Cgen.Verdict

namespace Bpfilter

set_option autoImplicit false

open Ebpf

/-! ## Records -/

/-- A record has a header. -/
def BfLog.has (log : BfLog) (hdr : BfPkthdr) : Bool := log.headers &&& hdr.flag ≠ 0

/-- A log mask requests a header. -/
def requests (headers : BitVec 8) (hdr : BfPkthdr) : Bool := headers &&& hdr.flag.setWidth 8 ≠ 0

/-- The lengths of the headers of a view, if they were parsed. -/
def PacketView.internetLen (v : PacketView) : Option Nat :=
  l3Len ((htobe16 v.ethertype).setWidth 64)

def PacketView.transportLen (v : PacketView) : Option Nat := l4Len (v.protocol.setWidth 64)

/-- What a record is about: a packet with this size and this view, seen by a program of a flavor;
the link header may have been written over. -/
structure LogSubject where
  flavor : BfFlavor
  packet : Packet
  size : BitVec 64
  view : PacketView
  overwritten : Prop

/-- **A faithful record** of a rule that logs some headers at some time. -/
structure BfLog.Faithful (subject : LogSubject) (ts : BitVec 64) (index : BitVec 32)
    (headers : BitVec 8) (log : BfLog) : Prop where
  time : log.ts = ts
  rule : log.ruleId = index
  size : log.pktSize = subject.size
  requested : log.reqHeaders = headers.setWidth 4
  network : log.l3Proto = subject.view.ethertype
  protocol : log.l4Proto = subject.view.protocol
  only : ∀ hdr, log.has hdr = true → requests headers hdr = true
  link : subject.flavor.parsesL2 = true → requests headers .link = true →
    log.has .link = true ∧ ((log.hdr .link =
      (List.range 14).map fun i => subject.packet (BitVec.ofNat 32 i)) ↔ ¬ subject.overwritten)
  internet : ∀ len, subject.view.internetLen = some len → requests headers .internet = true →
    log.has .internet = true ∧ log.hdr .internet = (List.range len).map subject.view.internet
  transport : ∀ len, subject.view.transportLen = some len → requests headers .transport = true →
    log.has .transport = true ∧ log.hdr .transport = (List.range len).map subject.view.transport

/-- What an effect of a rule does to what is observed. -/
def Effect.Recorded (subject : LogSubject) : Effect → Observed → Observed → Prop
  | .mark _, x, y => y = x
  | .counter index, x, y => y = { x with counters := countIn subject.size index x.counters }
  | .log index headers, x, y =>
      y.counters = x.counters ∧ (y.reserved = fun n => x.reserved (n + 1)) ∧
        match x.reserved 0 with
        | none => y.records = x.records
        | some ts => ∃ log : BfLog, log.Faithful subject ts index headers ∧
            y.records = x.records ++ [log]

/-- A record says nothing of extension headers. -/
theorem BfLog.Faithful.extensions {subject : LogSubject} {ts : BitVec 64} {index : BitVec 32}
    {headers : BitVec 8} {log : BfLog} (faithful : log.Faithful subject ts index headers)
    (x : BitVec 8) :
    log.Faithful { subject with view := { subject.view with extensions := x } } ts index headers :=
  ⟨faithful.time, faithful.rule, faithful.size, faithful.requested, faithful.network,
    faithful.protocol, faithful.only, faithful.link, faithful.internet, faithful.transport⟩

theorem Effect.Recorded.extensions {subject : LogSubject} {e : Effect} {x y : Observed}
    (recorded : e.Recorded subject x y) (eh : BitVec 8) :
    e.Recorded { subject with view := { subject.view with extensions := eh } } x y := by
  cases e with
  | mark value => exact recorded
  | counter index => exact recorded
  | log index headers =>
      obtain ⟨counters, reserved, records⟩ := recorded
      refine ⟨counters, reserved, ?_⟩
      cases slot : x.reserved 0 with
      | none =>
          rw [slot] at records
          exact records
      | some ts =>
          rw [slot] at records
          obtain ⟨log, faithful, published⟩ := records
          exact ⟨log, faithful.extensions eh, published⟩

/-! ## The context -/

section Context

variable {W : Type} {env : Env W BfElfstubId} {maps : BfMaps} {host : Host} {flavor : BfFlavor}
  {others : List (Addr × Nat)} {rng : W → Nat → BitVec 32} {v : PacketView} {b c : Core W}
  {len : Nat} {hdr : BfPkthdr} {packet : Packet} {choice : BitVec 32 → Addr → Nat → Bool}
  {size : BitVec 64} {logs : Bool} {headers : BitVec 8}

/-- The context has the size and the address of a header, which the rules leave where it is. -/
structure HdrReady (hdr : BfPkthdr) (others : List (Addr × Nat)) (len : Nat) (b : Core W) :
    Prop where
  length : (b.mem.load (ctxAddr (b.regs 10) hdr.sizeField) 1).toNat = len
  found : b.mem.load (ctxAddr (b.regs 10) hdr.hdrField) 8 ≠ 0
  fits : len ≤ hdr.sliceLen
  stays : ∃ buffer copied, buffer.offset + len ≤ 176 ∧
    Placed (b.regs 10) others buffer copied (b.mem.load (ctxAddr (b.regs 10) hdr.hdrField) 8) len

theorem Sliced.ready {buffer : RuntimeField} {copied : Bool}
    (sliced : Sliced hdr.hdrField hdr.sizeField buffer copied len (b.regs 10) others b.mem)
    (fits : len ≤ hdr.sliceLen) (below : buffer.offset + len ≤ 176) : HdrReady hdr others len b :=
  ⟨sliced.length, sliced.found, fits, buffer, copied, below, sliced.placed⟩

/-- A header that is ready is copied when it is requested. -/
theorem HdrReady.copied (ready : HdrReady hdr others len b) (kept : Kept others b c)
    (aside : Aside (b.regs 10) others) (requested : requests headers hdr = true) :
    copiesHdr c.mem (ctxAddr (c.regs 10) .arg) headers hdr = true ∧
      copiedHdr c.mem (ctxAddr (c.regs 10) .arg) headers hdr =
        b.mem.bytesAt (b.mem.load (ctxAddr (b.regs 10) hdr.hdrField) 8) len := by
  have address : c.mem.load (ctxAddr (b.regs 10) hdr.hdrField) 8 =
      b.mem.load (ctxAddr (b.regs 10) hdr.hdrField) 8 := by
    apply kept.load aside
    cases hdr <;> decide
  have length : c.mem.load (ctxAddr (b.regs 10) hdr.sizeField) 1 =
      b.mem.load (ctxAddr (b.regs 10) hdr.sizeField) 1 := by
    apply kept.load aside
    cases hdr <;> decide
  have copies : copiesHdr c.mem (ctxAddr (c.regs 10) .arg) headers hdr = true := by
    rw [copiesHdr, ctxField_ctxAddr, ctxField_ctxAddr, kept.frame, address, length, ready.length]
    rw [requests] at requested
    simp only [requested, ready.found, ready.fits, ne_eq, not_false_eq_true, decide_true,
      Bool.and_self]
  refine ⟨copies, ?_⟩
  rw [copiedHdr, if_pos copies, ctxField_ctxAddr, ctxField_ctxAddr, kept.frame, address, length,
    ready.length]
  obtain ⟨buffer, copied, below, placed⟩ := ready.stays
  exact Mem.bytesAt_congr (by omega) fun x inside => kept.placed aside placed below x inside

variable (env maps flavor others packet choice size logs) in
/-- What the log stub finds in the context at the first rule. -/
structure LogContext (b : Core W) : Prop where
  logMap : logs = true → b.mem.load (ctxAddr (b.regs 10) .logMap) 8 = env.mapAddr maps.lmap
  size : b.mem.load (ctxAddr (b.regs 10) .pktSize) 8 = size
  link : flavor.parsesL2 = true → HdrReady .link others 14 b
  linkDenotes : flavor.parsesL2 = true → (HeaderDenotes packet .l2Hdr 0 14 (b.regs 10) b.mem ↔
    ¬ l2Overwritten packet choice (b.regs 10))
  internet : ∀ len, l3Len (b.regs 7) = some len → HdrReady .internet others len b
  transport : ∀ len, l4Len (b.regs 8) = some len → HdrReady .transport others len b

theorem bits_or (link internet transport : Bool) (hdr : BfPkthdr) :
    decide (((if link then BfPkthdr.link.flag else 0) |||
      (if internet then BfPkthdr.internet.flag else 0) |||
        (if transport then BfPkthdr.transport.flag else 0)) &&& hdr.flag ≠ 0) =
      match hdr with
      | .link => link
      | .internet => internet
      | .transport => transport := by
  cases link <;> cases internet <;> cases transport <;> cases hdr <;> rfl

/-- The bits of a published record are those of the headers that are copied. -/
theorem bfLog_has {args : Args} {mem : Mem} {ts : BitVec 64} {log : BfLog}
    (published : bfLog mem args (some ts) = some log) (hdr : BfPkthdr) :
    log.has hdr = copiesHdr mem args.r1 (args.r3.setWidth 8) hdr := by
  cases published
  refine (bits_or _ _ _ hdr).trans ?_
  cases hdr <;> rfl

/-- The other fields of a published record. -/
theorem bfLog_fields {args : Args} {mem : Mem} {ts : BitVec 64} {log : BfLog}
    (published : bfLog mem args (some ts) = some log) :
    log.ts = ts ∧ log.pktSize = mem.load (ctxField args.r1 .pktSize) 8 ∧
      log.ruleId = args.r2.setWidth 32 ∧ log.l3Proto = htobe16 (args.r4.setWidth 16) ∧
      log.l4Proto = args.r5.setWidth 8 ∧ log.reqHeaders = (args.r3.setWidth 8).setWidth 4 ∧
      log.hdr = copiedHdr mem args.r1 (args.r3.setWidth 8) := by
  cases published
  exact ⟨rfl, rfl, rfl, rfl, rfl, rfl, rfl⟩

theorem logArgs_headers (index : BitVec 32) (headers : BitVec 8) (c : Core W) :
    (logArgs index headers c).r3.setWidth 8 = headers := by
  have wide : (headers.setWidth 32).setWidth 8 = headers := by
    rw [BitVec.setWidth_setWidth_of_le _ (by decide), BitVec.setWidth_eq]
  show ((headers.setWidth 32).signExtend 64).setWidth 8 = headers
  rw [← BitVec.setWidth_setWidth_of_le _ (by decide : 8 ≤ 32), setWidth_signExtend, wide]

theorem map_range_bytesAt {m : Mem} {a : Addr} {bytes : Nat → Byte} :
    m.bytesAt a len = (List.range len).map bytes ↔
      ∀ i < len, m (a + BitVec.ofNat 64 i) = bytes i := by
  rw [List.ext_getElem?_iff]
  refine forall_congr' fun i => ?_
  rw [Mem.getElem?_bytesAt, List.getElem?_map]
  by_cases inside : i < len
  · rw [if_pos inside, List.getElem?_range inside]
    simp [inside]
  · rw [if_neg inside, List.getElem?_eq_none (by rw [List.length_range]; omega)]
    simp [inside]

/-- **Records are faithful.** -/
theorem LogContext.publishes
    (context : LogContext env maps flavor others packet choice size logs b)
    (shown : Shows host flavor rng others v b) (kept : Kept others b c) (ts : BitVec 64)
    (index : BitVec 32) (headers : BitVec 8) :
    ∃ log, bfLog c.mem (logArgs index headers c) (some ts) = some log ∧
      log.Faithful ⟨flavor, packet, size, v, l2Overwritten packet choice (b.regs 10)⟩ ts index
        headers := by
  have aside := shown.aside
  have byte := logArgs_headers index headers c
  have first : (logArgs index headers c).r1 = ctxAddr (c.regs 10) .arg := rfl
  obtain ⟨log, published⟩ : ∃ log, bfLog c.mem (logArgs index headers c) (some ts) = some log :=
    ⟨_, rfl⟩
  refine ⟨log, published, ?_⟩
  have has := bfLog_has published
  obtain ⟨time, sized, rule, network, protocol, requested, bytes⟩ := bfLog_fields published
  rw [byte] at has requested bytes
  rw [first] at has sized bytes
  refine ⟨time, ?_, ?_, requested, ?_, ?_, fun hdr copied => ?_, fun l2 asked => ?_,
    fun len parsed asked => ?_, fun len parsed asked => ?_⟩
  · rw [rule]
    exact setWidth_signExtend index
  · rw [sized, ctxField_ctxAddr, kept.frame, kept.load aside (by decide)]
    exact context.size
  · rw [network, show (logArgs index headers c).r4 = c.regs 7 from rfl, kept.l3, shown.ethertype,
      BitVec.setWidth_setWidth_of_le _ (by decide), BitVec.setWidth_eq, htobe16_htobe16]
  · rw [protocol, show (logArgs index headers c).r5 = c.regs 8 from rfl, kept.l4, shown.protocol,
      BitVec.setWidth_setWidth_of_le _ (by decide), BitVec.setWidth_eq]
  · rw [has, copiesHdr, Bool.and_eq_true, Bool.and_eq_true] at copied
    exact copied.1.1
  · obtain ⟨copies, read⟩ := (context.link l2).copied kept aside asked
    refine ⟨(has _).trans copies, ?_⟩
    rw [bytes, read, map_range_bytesAt, ← context.linkDenotes l2]
    simp only [HeaderDenotes, Denotes, zero_add]
    rfl
  · have known : l3Len (b.regs 7) = some len := by
      rw [shown.ethertype]
      exact parsed
    obtain ⟨copies, read⟩ := (context.internet len known).copied kept aside asked
    refine ⟨(has _).trans copies, ?_⟩
    rw [bytes, read, map_range_bytesAt]
    exact (shown.internet len known).bytes
  · have known : l4Len (b.regs 8) = some len := by
      rw [shown.protocol]
      exact parsed
    obtain ⟨copies, read⟩ := (context.transport len known).copied kept aside asked
    refine ⟨(has _).trans copies, ?_⟩
    rw [bytes, read, map_range_bytesAt]
    exact (shown.transport len known).bytes

end Context

/-! ## Effects -/

section Effects

variable {W : Type} {env : Env W BfElfstubId} {maps : BfMaps} {host : Host} {chain : BfChain}
  {others : List (Addr × Nat)} {rng : W → Nat → BitVec 32} {v : PacketView} {b : Core W}
  {packet : Packet} {choice : BitVec 32 → Addr → Nat → Bool} {size : BitVec 64} {arg : Addr}
  {seen : W → Observed}

/-- A counter is updated with the size in the context. -/
theorem perform_counts (stubs : StubsObserved env maps seen) (index : BitVec 32) (c : Core W) :
    seen ((Effect.counter index).perform env maps c).world =
      { seen c.world with
        counters := countIn (c.mem.load (ctxAddr (c.regs 10) .pktSize) 8) index
          (seen c.world).counters } := by
  have world : ((Effect.counter index).perform env maps c).world =
      (env.sub .updateCounters (counterArgs env maps index c) c.mem c.world).world := by
    simp only [Effect.perform]
    rw [Core.call_world]
    congr 1
  rw [world, stubs.update _ _ _ rfl]
  have counts := bfUpdateCounters_counts c.mem (ctxAddr (c.regs 10) .arg) index
    (seen c.world).counters
  rw [ctxField_ctxAddr] at counts
  rw [← counts]
  rfl

/-- **Effects are recorded** along the rules. -/
theorem LogContext.sees (stubs : StubsObserved env maps seen) (calls : RuleCalls env rng)
    (context : LogContext env maps (bfHookToFlavor chain.hook) others packet choice size
      chain.flags.log b)
    (shown : Shows host (bfHookToFlavor chain.hook) rng others v b)
    (begins : Begins (bfHookToFlavor chain.hook) others arg b) :
    Seen env maps chain (Kept ((bfHookToFlavor chain.hook).written arg) b) seen
      (Effect.Recorded ⟨bfHookToFlavor chain.hook, packet, size, v,
        l2Overwritten packet choice (b.regs 10)⟩) where
  lookup := stubs.lookup
  random := stubs.random
  perform := by
    intro e c allowed few
    have kept := few.widen begins.listed
    have aside := begins.aside
    cases e with
    | mark value => rfl
    | counter index =>
        have counted := perform_counts stubs index c
        rw [kept.frame, kept.load aside (by decide), context.size] at counted
        exact counted
    | log index headers =>
        have quiet : ∀ args mem world, (env.sub .log args mem world).mem = mem :=
          fun args mem world => (calls.log args mem world).1
        have map : c.mem.load (ctxField (logArgs index headers c).r1 .logMap) 8 =
            env.mapAddr maps.lmap := by
          rw [show (logArgs index headers c).r1 = ctxAddr (c.regs 10) .arg from rfl,
            ctxField_ctxAddr, kept.frame, kept.load aside (by decide)]
          exact context.logMap allowed
        rw [(@perform_log_kept W env maps [] index headers c quiet).2, stubs.log _ _ _ map]
        refine ⟨rfl, rfl, ?_⟩
        simp only
        cases reserved : (seen c.world).reserved 0 with
        | none => exact List.append_nil _
        | some ts =>
            obtain ⟨log, published, faithful⟩ :=
              context.publishes shown kept ts index headers
            refine ⟨log, faithful, ?_⟩
            rw [published]
            rfl

end Effects

end Bpfilter
