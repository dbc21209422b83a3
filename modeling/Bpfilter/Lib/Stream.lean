/-
# Lib.Stream -- messages over a stream socket

`_bf_send_from_buff` cuts a message into frames of an eight-byte count of what
follows the frame and at most 1024 bytes, one `sendmsg` a frame.
`_bf_recv_in_buff` reads the count and the bytes back with one `recvmsg` a
frame. The socket is a stream: it keeps the bytes and their order, and a
`recvmsg` may return any non-empty part of what is pending.

The receiver never completes a frame: what a `recvmsg` returned IS its frame.
`message_received_iff_in_step` says what is left of the law: the message comes
back exactly when there are as many `recvmsg` as frames and wherever one of
them stopped short of a frame's end, the bytes it left repeat, with period
eight, into the next frame's count.
-/
import Bpfilter.Ebpf.Memory
import Bpfilter.Lib.Matcher

namespace Bpfilter

set_option autoImplicit false

open Ebpf Ebpf.Mem

/-! ## The dynamic buffer -/

/-- `struct bf_dynbuf`: the bytes written, and the room behind them. -/
structure BfDynbuf where
  data : List Byte
  rem : Nat
  deriving DecidableEq

def bfDynbufDefault : BfDynbuf := ⟨[], 0⟩

/-- `_bf_round_next_power_of_2`. -/
def bfRoundNextPowerOf2 (value : Nat) : Nat :=
  let value := value - 1
  let value := value ||| value >>> 1
  let value := value ||| value >>> 2
  let value := value ||| value >>> 4
  let value := value ||| value >>> 8
  let value := value ||| value >>> 16
  value + 1

/-- `_bf_dynbuf_grow`. -/
def bfDynbufGrow (buf : BfDynbuf) (reqCap : Nat) : BfDynbuf :=
  if reqCap = 0 then buf
  else
    let newCap := bfRoundNextPowerOf2 (buf.data.length + buf.rem + reqCap)
    { buf with rem := newCap - buf.data.length }

/-- `bf_dynbuf_write`; `none` is a `memcpy` past the room. -/
def bfDynbufWrite (buf : BfDynbuf) (data : List Byte) : Option BfDynbuf :=
  let buf := if buf.rem < data.length then bfDynbufGrow buf data.length else buf
  if buf.rem < data.length then none
  else some ⟨buf.data ++ data, buf.rem - data.length⟩

theorem le_roundNextPowerOf2 (value : Nat) : value ≤ bfRoundNextPowerOf2 value := by
  have smear : ∀ a b : Nat, a ≤ a ||| b := fun a b => Nat.left_le_or
  have kept : value - 1 + 1 ≤ bfRoundNextPowerOf2 value := by
    apply Nat.add_le_add_right
    exact (smear _ _).trans ((smear _ _).trans ((smear _ _).trans ((smear _ _).trans (smear _ _))))
  omega

/-- The room is made before it is used, so a write appends. -/
theorem bfDynbufWrite_appends (buf : BfDynbuf) (data : List Byte) :
    ∃ rem, bfDynbufWrite buf data = some ⟨buf.data ++ data, rem⟩ := by
  unfold bfDynbufWrite
  by_cases short : buf.rem < data.length
  · have asked : data.length ≠ 0 := by omega
    have room := le_roundNextPowerOf2 (buf.data.length + buf.rem + data.length)
    simp only [if_pos short, bfDynbufGrow, if_neg asked]
    rw [if_neg (by omega)]
    exact ⟨_, rfl⟩
  · simp only [if_neg short]
    exact ⟨_, rfl⟩

/-! ## Sending -/

/-- `BF_MSG_BUF_SIZE`. -/
def msgBufSize : Nat := 1024

/-- The eight bytes of a `size_t`. -/
def sizeBytes (n : Nat) : List Byte := (List.range 8).map (byteOf (BitVec.ofNat 64 n))

@[simp] theorem sizeBytes_length (n : Nat) : (sizeBytes n).length = 8 := by
  simp [sizeBytes]

/-- The next `sendmsg`: the count of the bytes behind this frame, then its bytes. -/
def frame (buf : List Byte) : List Byte :=
  let sendSize := min msgBufSize buf.length
  sizeBytes (buf.length - sendSize) ++ buf.take sendSize

/-- `_bf_send_from_buff`, and the bytes it wrote to the socket. The `call`-th
`sendmsg` returns `sendmsg call` of the bytes it was given. -/
def bfSendFromBuff (sendmsg : Nat → List Byte → Except Errno Nat) (call : Nat) (buf : List Byte) :
    Except Errno Unit × List Byte :=
  if 0 < buf.length then
    let sendSize := min msgBufSize buf.length
    match sendmsg call (frame buf) with
    | .error e => (.error e, [])
    | .ok r =>
        if r ≠ sendSize + 8 then (.error .eio, (frame buf).take r)
        else
          let rest := bfSendFromBuff sendmsg (call + 1) (buf.drop sendSize)
          (rest.1, (frame buf).take r ++ rest.2)
  else (.ok (), [])
termination_by buf.length
decreasing_by
  have : 0 < msgBufSize := by decide
  simp only [List.length_drop]
  omega

/-- The frames of a message, one behind the other. -/
def wire (buf : List Byte) : List Byte :=
  if 0 < buf.length then frame buf ++ wire (buf.drop msgBufSize) else []
termination_by buf.length
decreasing_by
  have : 0 < msgBufSize := by decide
  simp only [List.length_drop]
  omega

/-- How many frames a message takes. -/
def frameCount (buf : List Byte) : Nat := (buf.length + (msgBufSize - 1)) / msgBufSize

/-! ## Receiving -/

/-- What becomes of `_bf_recv_in_buff`. -/
inductive Received where
  /-- Success, with the `recvmsg` outcomes it did not take. -/
  | ok (buf : BfDynbuf) (rest : List (Except Errno (List Byte)))
  | err (e : Errno)
  /-- Blocked in `recvmsg`, and nothing is pending. -/
  | waiting
  /-- A write past the end of the buffer. -/
  | undefined
  deriving DecidableEq

/-- `_bf_recv_in_buff`: each element is what the next `recvmsg` returns. -/
def bfRecvInBuff (buf : BfDynbuf) : List (Except Errno (List Byte)) → Received
  | [] => .waiting
  | .error e :: _ => .err e
  | .ok r :: rest =>
      if r.length < 8 then .err .eio
      else
        let remaining := leValue (r.take 8)
        match bfDynbufWrite buf (r.drop 8) with
        | none => .undefined
        | some buf => if remaining > 0 then bfRecvInBuff buf rest else .ok buf rest

/-- A stream socket delivers the pending bytes in order, each `recvmsg`
returning at least one byte and at most the two buffers it was given. -/
structure Delivers (chunks : List (List Byte)) (stream : List Byte) : Prop where
  bytes : chunks.flatten = stream
  nonempty : ∀ chunk ∈ chunks, chunk ≠ []
  bounded : ∀ chunk ∈ chunks, chunk.length ≤ 8 + msgBufSize

/-! ## What is on the wire -/

theorem frame_bytes (buf : List Byte) :
    frame buf = sizeBytes (buf.length - msgBufSize) ++ buf.take msgBufSize := by
  rcases Nat.le_total msgBufSize buf.length with long | short
  · simp only [frame, Nat.min_eq_left long]
  · simp only [frame, Nat.min_eq_right short, Nat.sub_self, Nat.sub_eq_zero_of_le short,
      List.take_length, List.take_of_length_le short]

theorem wire_nil : wire [] = [] := by
  rw [wire]
  simp

/-- A message is its first count, its first bytes, and the message of the others. -/
theorem wire_eq {buf : List Byte} (nonempty : buf ≠ []) :
    wire buf = sizeBytes (buf.length - msgBufSize) ++ buf.take msgBufSize ++
      wire (buf.drop msgBufSize) := by
  rw [wire, if_pos (List.length_pos_iff.mpr nonempty), frame_bytes]

/-- A send that succeeds has written the message. -/
theorem bfSendFromBuff_written {sendmsg : Nat → List Byte → Except Errno Nat} {call : Nat}
    {buf written : List Byte} (sent : bfSendFromBuff sendmsg call buf = (.ok (), written)) :
    written = wire buf := by
  induction buf using wire.induct generalizing call written with
  | case2 buf ended =>
      rw [bfSendFromBuff, if_neg ended] at sent
      rw [wire, if_neg ended]
      exact (congrArg Prod.snd sent).symm
  | case1 buf sending ih =>
      have whole : (frame buf).length = min msgBufSize buf.length + 8 := by
        simp [frame, Nat.add_comm]
      rw [bfSendFromBuff, if_pos sending] at sent
      rw [wire, if_pos sending]
      simp only at sent
      cases given : sendmsg call (frame buf) with
      | error e => simp [given] at sent
      | ok r =>
          simp only [given] at sent
          by_cases partly : r ≠ min msgBufSize buf.length + 8
          · simp [if_pos partly] at sent
          · rw [if_neg partly] at sent
            obtain ⟨done, bytes⟩ := Prod.mk.injEq .. ▸ sent
            have all : (frame buf).take r = frame buf := List.take_of_length_le (by omega)
            have rest : buf.drop (min msgBufSize buf.length) = buf.drop msgBufSize := by
              rcases Nat.le_total msgBufSize buf.length with long | short
              · rw [Nat.min_eq_left long]
              · rw [Nat.min_eq_right short, List.drop_length, List.drop_of_length_le short]
            rw [rest] at done bytes
            have tail := @ih (call + 1) _ (Prod.ext done rfl)
            rw [← bytes, all]
            exact congrArg (frame buf ++ ·) tail

/-- Eight bytes a frame beside the message. -/
theorem wire_length (buf : List Byte) : (wire buf).length = buf.length + 8 * frameCount buf := by
  induction buf using wire.induct with
  | case2 buf ended =>
      have empty : buf = [] := List.length_eq_zero_iff.mp (by omega)
      subst empty
      simp [wire_nil, frameCount, msgBufSize]
  | case1 buf sending ih =>
      rw [wire, if_pos sending, List.length_append, ih, frame_bytes]
      simp only [List.length_append, sizeBytes_length, List.length_take, List.length_drop,
        frameCount, msgBufSize]
      omega

/-- The eight bytes of a count are all zero when it is. -/
theorem leValue_eq_zero {bytes : List Byte} : leValue bytes = 0 ↔ ∀ b ∈ bytes, b = 0 := by
  induction bytes with
  | nil => simp [leValue]
  | cons b bs ih =>
      have byte : b.toNat = 0 ↔ b = 0 :=
        ⟨fun zero => BitVec.eq_of_toNat_eq zero, fun zero => by rw [zero]; rfl⟩
      have low : 256 * leValue bs = 0 ↔ leValue bs = 0 := by omega
      rw [leValue, List.forall_mem_cons, ← ih, Nat.add_eq_zero_iff, byte, low]

theorem leValue_sizeBytes {n : Nat} (fits : n < 2 ^ 64) : leValue (sizeBytes n) = n := by
  rw [sizeBytes, leValue_byteOf, BitVec.toNat_ofNat]
  omega

/-! ## What the receiver makes of a delivery -/

/-- One whole `recvmsg`, appended. -/
theorem bfRecvInBuff_cons (buf : BfDynbuf) {chunk : List Byte} (counted : 8 ≤ chunk.length)
    (rest : List (Except Errno (List Byte))) :
    ∃ rem, bfRecvInBuff buf (.ok chunk :: rest) =
      if leValue (chunk.take 8) = 0 then .ok ⟨buf.data ++ chunk.drop 8, rem⟩ rest
      else bfRecvInBuff ⟨buf.data ++ chunk.drop 8, rem⟩ rest := by
  obtain ⟨rem, written⟩ := bfDynbufWrite_appends buf (chunk.drop 8)
  refine ⟨rem, ?_⟩
  rw [bfRecvInBuff, if_neg (by omega), written]
  rcases Nat.eq_zero_or_pos (leValue (chunk.take 8)) with last | more
  · simp [last]
  · simp [more, Nat.pos_iff_ne_zero.mp more]

/-- A receive that succeeds took eight bytes a `recvmsg` for counts and kept
every other byte. -/
theorem received_length {chunks : List (List Byte)} {buf out : BfDynbuf}
    (received : bfRecvInBuff buf (chunks.map .ok) = .ok out []) :
    out.data.length + 8 * chunks.length = buf.data.length + chunks.flatten.length := by
  induction chunks generalizing buf with
  | nil => cases received
  | cons chunk rest ih =>
      rcases Nat.lt_or_ge chunk.length 8 with short | counted
      · simp [bfRecvInBuff, short] at received
      · obtain ⟨rem, step⟩ := bfRecvInBuff_cons buf counted (rest.map .ok)
        rw [List.map_cons, step] at received
        simp only [List.flatten_cons, List.length_append, List.length_cons]
        by_cases last : leValue (chunk.take 8) = 0
        · simp only [if_pos last, Received.ok.injEq, List.map_eq_nil_iff] at received
          obtain ⟨rfl, rfl⟩ := received
          simp
          omega
        · rw [if_neg last] at received
          have tail := ih received
          simp only [List.length_append, List.length_drop] at tail
          omega

/-- What was received stays at the front. -/
theorem received_prefix {chunks : List (Except Errno (List Byte))} {buf out : BfDynbuf}
    {rest : List (Except Errno (List Byte))}
    (received : bfRecvInBuff buf chunks = .ok out rest) : buf.data <+: out.data := by
  induction chunks generalizing buf with
  | nil => cases received
  | cons chunk later ih =>
      cases chunk with
      | error e => cases received
      | ok chunk =>
          rcases Nat.lt_or_ge chunk.length 8 with short | counted
          · simp [bfRecvInBuff, short] at received
          · obtain ⟨rem, step⟩ := bfRecvInBuff_cons buf counted later
            rw [step] at received
            by_cases last : leValue (chunk.take 8) = 0
            · simp only [if_pos last, Received.ok.injEq] at received
              rw [← received.1]
              exact List.prefix_append ..
            · rw [if_neg last] at received
              exact (List.prefix_append ..).trans (ih received)

/-! ## Staying in step -/

/-- The bytes of `stream` from `start` to `stop` repeat eight bytes further on. -/
def Repeats (stream : List Byte) (start stop : Nat) : Prop :=
  ∀ j, start ≤ j → j < stop → stream[j]? = stream[j + 8]?

/-- How far the first `n` calls of `recvmsg` read. -/
def readBy (chunks : List (List Byte)) (n : Nat) : Nat := (chunks.take n).flatten.length

/-- As many calls as frames, and what a call leaves of its frame repeats into
the next frame's count. -/
structure InStep (buf : List Byte) (chunks : List (List Byte)) : Prop where
  calls : chunks.length = frameCount buf
  repeats : ∀ i < chunks.length,
    Repeats (wire buf) (readBy chunks i) ((8 + msgBufSize) * i)

/-- The bytes a call left, taken for the count, are the count. -/
theorem repeats_head {late count more : List Byte} (size : count.length = 8) :
    Repeats (late ++ count ++ more) 0 late.length ↔ (late ++ count).drop 8 = late := by
  constructor
  · intro repeats
    apply List.ext_getElem?
    intro j
    rw [List.getElem?_drop]
    rcases Nat.lt_or_ge j late.length with inside | outside
    · have same := repeats j (Nat.zero_le j) inside
      rw [List.append_assoc, List.getElem?_append_left inside, ← List.append_assoc,
        List.getElem?_append_left (by simp; omega)] at same
      rw [same, Nat.add_comm]
    · rw [List.getElem?_eq_none (by simp; omega), List.getElem?_eq_none outside]
  · intro same j _ inside
    rw [List.append_assoc, List.getElem?_append_left inside, ← List.append_assoc,
      List.getElem?_append_left (by simp; omega), Nat.add_comm j 8, ← List.getElem?_drop, same]

theorem repeats_shift {front stream : List Byte} {start stop : Nat} :
    Repeats (front ++ stream) (front.length + start) (front.length + stop) ↔
      Repeats stream start stop := by
  constructor
  · intro repeats j after before
    have same := repeats (front.length + j) (by omega) (by omega)
    rwa [List.getElem?_append_right (by omega), List.getElem?_append_right (by omega),
      Nat.add_sub_cancel_left, Nat.add_assoc, Nat.add_sub_cancel_left] at same
  · intro repeats j after before
    have same := repeats (j - front.length) (by omega) (by omega)
    rw [List.getElem?_append_right (by omega), List.getElem?_append_right (by omega), same]
    congr 1
    omega

/-- Taking the count early does not change whether it is zero: the bytes taken
are the count's own bytes, in another order. -/
theorem early_count_zero {late count : List Byte} (same : (late ++ count).drop 8 = late) :
    leValue ((late ++ count).take 8) = 0 ↔ leValue count = 0 := by
  have split : (late ++ count).take 8 ++ late = late ++ count := by
    conv_rhs => rw [← List.take_append_drop 8 (late ++ count), same]
  have perm : ((late ++ count).take 8).Perm count := by
    have swapped : (late ++ (late ++ count).take 8).Perm (late ++ count) :=
      List.perm_append_comm.trans (List.Perm.of_eq split)
    exact (List.perm_append_left_iff late).mp swapped
  rw [leValue_eq_zero, leValue_eq_zero]
  exact ⟨fun zero b mem => zero b (perm.mem_iff.mpr mem),
    fun zero b mem => zero b (perm.mem_iff.mp mem)⟩

theorem flatten_length_le {chunks : List (List Byte)} {n : Nat}
    (bounded : ∀ chunk ∈ chunks, chunk.length ≤ n) : chunks.flatten.length ≤ chunks.length * n := by
  induction chunks with
  | nil => simp
  | cons chunk rest ih =>
      obtain ⟨head, tail⟩ := List.forall_mem_cons.mp bounded
      rw [List.flatten_cons, List.length_append, List.length_cons, Nat.succ_mul]
      have := ih tail
      omega

/-- As many calls as frames leave less than a frame behind at each of them. -/
theorem frames_bound {chunks : List (List Byte)} {buf late : List Byte} (nonempty : buf ≠ [])
    (bounded : ∀ chunk ∈ chunks, chunk.length ≤ 8 + msgBufSize)
    (bytes : chunks.flatten = late ++ wire buf) (calls : chunks.length = frameCount buf) :
    late.length < msgBufSize := by
  have total := flatten_length_le bounded
  have some : 0 < buf.length := List.length_pos_iff.mpr nonempty
  rw [bytes, List.length_append, wire_length, calls] at total
  simp only [frameCount, msgBufSize] at total ⊢
  omega

/-- One call and what is behind it: `late` is what the calls before it left of
their frames, `kept` what this one leaves of the frame it reads into. -/
theorem call_splits {chunk late count payload more : List Byte} {rest : List (List Byte)}
    (bytes : chunk ++ rest.flatten = late ++ count ++ payload ++ more)
    (within : chunk.length ≤ (late ++ count ++ payload).length) :
    ∃ kept, late ++ count ++ payload = chunk ++ kept ∧ rest.flatten = kept ++ more := by
  rw [List.append_eq_append_iff] at bytes
  rcases bytes with ⟨kept, whole, rest⟩ | ⟨past, whole, more⟩
  · exact ⟨kept, whole, rest⟩
  · have empty : past = [] := by
      have := congrArg List.length whole
      simp only [List.length_append] at this within
      exact List.length_eq_zero_iff.mp (by omega)
    subst empty
    exact ⟨[], by simpa using whole.symm, by simpa using more.symm⟩

/-- The step: a call that takes the whole of `late` and the count hands past
the bytes of its frame up to `kept` exactly when the count was taken in step. -/
theorem drop_count_iff {chunk late count payload kept : List Byte} (size : count.length = 8)
    (whole : late ++ count ++ payload = chunk ++ kept) (reach : late.length + 8 ≤ chunk.length) :
    chunk.drop 8 <+: late ++ payload ↔ (late ++ count).drop 8 = late := by
  have dropped : (late ++ count).drop 8 ++ payload = chunk.drop 8 ++ kept := by
    rw [← List.drop_append_of_le_length (by simp; omega), whole,
      List.drop_append_of_le_length (by omega)]
  constructor
  · rintro ⟨tail, same⟩
    have front := congrArg (List.take late.length) dropped
    rw [List.take_append_of_le_length (by simp; omega), List.take_of_length_le (by simp; omega),
      List.take_append_of_le_length (by simp; omega)] at front
    have other := congrArg (List.take late.length) same
    rw [List.take_append_of_le_length (by simp; omega), List.take_left] at other
    rw [front, other]
  · intro same
    rw [same] at dropped
    exact ⟨kept, dropped.symm⟩

/-- The message arrived: success, every byte taken, the buffer as sent. -/
def Arrives (buf : BfDynbuf) (data : List Byte) (chunks : List (List Byte)) : Prop :=
  ∃ out, bfRecvInBuff buf (chunks.map .ok) = .ok out [] ∧ out.data = buf.data ++ data

/-- The calls from one that finds `late` of the frame before it still pending. -/
structure InStepFrom (late buf : List Byte) (chunks : List (List Byte)) : Prop where
  calls : chunks.length = frameCount buf
  repeats : ∀ i < chunks.length,
    Repeats (late ++ wire buf) (readBy chunks i) (late.length + (8 + msgBufSize) * i)

theorem Arrives.calls {buf : BfDynbuf} {late data : List Byte} {chunks : List (List Byte)}
    (arrives : Arrives buf (late ++ data) chunks) (bytes : chunks.flatten = late ++ wire data) :
    chunks.length = frameCount data := by
  obtain ⟨out, received, same⟩ := arrives
  have counted := received_length received
  rw [same, bytes] at counted
  simp only [List.length_append, wire_length] at counted
  omega

/-- The only call of a message of one frame. -/
theorem arrives_last {buf : BfDynbuf} {late data chunk : List Byte} (count : List Byte)
    (size : count.length = 8) (zero : leValue count = 0) (whole : chunk = late ++ count ++ data) :
    Arrives buf (late ++ data) [chunk] ↔ (late ++ count).drop 8 = late := by
  have taken : chunk.take 8 = (late ++ count).take 8 := by
    rw [whole, List.take_append_of_le_length (by simp; omega)]
  have kept : chunk.drop 8 = (late ++ count).drop 8 ++ data := by
    rw [whole, List.drop_append_of_le_length (by simp; omega)]
  have counted : 8 ≤ chunk.length := by simp [whole]; omega
  obtain ⟨rem, step⟩ := bfRecvInBuff_cons buf counted []
  constructor
  · rintro ⟨out, received, same⟩
    rw [List.map_cons, List.map_nil, step] at received
    by_cases last : leValue (chunk.take 8) = 0
    · simp only [if_pos last, Received.ok.injEq, and_true] at received
      rw [← received, kept] at same
      exact List.append_cancel_right (List.append_cancel_left same)
    · simp [if_neg last, bfRecvInBuff] at received
  · intro same
    have last : leValue (chunk.take 8) = 0 := by
      rw [taken]
      exact (early_count_zero same).mpr zero
    rw [if_pos last] at step
    exact ⟨_, step, by rw [kept, same]⟩

/-- A call that is not the last one. -/
theorem arrives_step {buf : BfDynbuf} {late count payload kept tail chunk : List Byte}
    {rest : List (List Byte)} (size : count.length = 8) (more : leValue count ≠ 0)
    (whole : late ++ count ++ payload = chunk ++ kept) (reach : late.length + 8 ≤ chunk.length)
    (unread : rest ≠ []) :
    ∃ rem, Arrives buf (late ++ (payload ++ tail)) (chunk :: rest) ↔
      (late ++ count).drop 8 = late ∧
        Arrives ⟨buf.data ++ chunk.drop 8, rem⟩ (kept ++ tail) rest := by
  have counted : 8 ≤ chunk.length := by omega
  obtain ⟨rem, step⟩ := bfRecvInBuff_cons buf counted (rest.map .ok)
  refine ⟨rem, ?_⟩
  have taken : chunk.take 8 = (late ++ count).take 8 := by
    have front := congrArg (List.take 8) whole
    rwa [List.take_append_of_le_length (by simp; omega), List.take_append_of_le_length counted,
      eq_comm] at front
  have joined (same : (late ++ count).drop 8 = late) : chunk.drop 8 ++ kept = late ++ payload := by
    have behind := congrArg (List.drop 8) whole
    rwa [List.drop_append_of_le_length (by simp; omega), List.drop_append_of_le_length counted,
      same, eq_comm] at behind
  constructor
  · rintro ⟨out, received, same⟩
    rw [List.map_cons, step] at received
    by_cases last : leValue (chunk.take 8) = 0
    · simp only [if_pos last, Received.ok.injEq, List.map_eq_nil_iff] at received
      exact absurd received.2 unread
    · rw [if_neg last] at received
      have front : chunk.drop 8 <+: late ++ payload := by
        have start := received_prefix received
        rw [same] at start
        have start : chunk.drop 8 <+: late ++ payload ++ tail := by
          simpa using (List.prefix_append_right_inj buf.data).mp start
        apply List.prefix_of_prefix_length_le start (List.prefix_append ..)
        have := congrArg List.length whole
        simp only [List.length_append, List.length_drop] at this ⊢
        omega
      have inStep := (drop_count_iff size whole reach).mp front
      refine ⟨inStep, out, received, ?_⟩
      rw [same, ← List.append_assoc late, ← joined inStep]
      simp only [List.append_assoc]
  · rintro ⟨same, out, received, bytes⟩
    have last : leValue (chunk.take 8) ≠ 0 := by
      rw [taken]
      exact fun zero => more ((early_count_zero same).mp zero)
    rw [if_neg last] at step
    refine ⟨out, step.trans received, ?_⟩
    rw [bytes, ← List.append_assoc late, ← joined same]
    simp only [List.append_assoc]

/-- Staying in step from one call to the next. -/
theorem inStepFrom_cons {late count payload kept tail chunk : List Byte} {rest : List (List Byte)}
    {buf : List Byte} (size : count.length = 8) (sent : wire buf = count ++ payload ++ wire tail)
    (full : payload.length = msgBufSize) (frames : frameCount buf = frameCount tail + 1)
    (whole : late ++ count ++ payload = chunk ++ kept) :
    InStepFrom late buf (chunk :: rest) ↔
      (late ++ count).drop 8 = late ∧ InStepFrom kept tail rest := by
  have stream : late ++ wire buf = late ++ count ++ (payload ++ wire tail) := by
    simp only [sent, List.append_assoc]
  have behind : late ++ wire buf = chunk ++ (kept ++ wire tail) := by
    rw [← List.append_assoc, ← whole, sent]
    simp only [List.append_assoc]
  have lengths : late.length + (8 + msgBufSize) = chunk.length + kept.length := by
    have := congrArg List.length whole
    simp only [List.length_append, size, full] at this
    omega
  have head : Repeats (late ++ wire buf) (readBy (chunk :: rest) 0)
      (late.length + (8 + msgBufSize) * 0) ↔ (late ++ count).drop 8 = late := by
    rw [stream]
    exact repeats_head size
  have later (i : Nat) : Repeats (late ++ wire buf) (readBy (chunk :: rest) (i + 1))
      (late.length + (8 + msgBufSize) * (i + 1)) ↔
      Repeats (kept ++ wire tail) (readBy rest i) (kept.length + (8 + msgBufSize) * i) := by
    have stop : late.length + (8 + msgBufSize) * (i + 1) =
        chunk.length + (kept.length + (8 + msgBufSize) * i) := by
      rw [Nat.mul_succ]
      omega
    rw [behind, stop, readBy, List.take_succ_cons, List.flatten_cons, List.length_append]
    exact repeats_shift
  constructor
  · rintro ⟨calls, repeats⟩
    refine ⟨head.mp (repeats 0 (by simp)), ⟨?_, ?_⟩⟩
    · rw [frames, List.length_cons] at calls
      omega
    · intro i inside
      exact (later i).mp (repeats (i + 1) (by simpa using inside))
  · rintro ⟨same, calls, repeats⟩
    refine ⟨by rw [List.length_cons, calls, frames], ?_⟩
    intro i inside
    cases i with
    | zero => exact head.mpr same
    | succ i => exact (later i).mpr (repeats i (by simpa using inside))

/-- The last frame: one call takes it, in step. -/
theorem inStepFrom_last {late count chunk : List Byte} {rest : List (List Byte)} {buf : List Byte}
    (size : count.length = 8) (sent : wire buf = count ++ buf) (frames : frameCount buf = 1) :
    InStepFrom late buf (chunk :: rest) ↔ (late ++ count).drop 8 = late ∧ rest = [] := by
  have head : Repeats (late ++ wire buf) 0 late.length ↔ (late ++ count).drop 8 = late := by
    rw [sent, ← List.append_assoc]
    exact repeats_head size
  constructor
  · rintro ⟨calls, repeats⟩
    refine ⟨head.mp (repeats 0 (by simp)), ?_⟩
    rw [frames, List.length_cons] at calls
    exact List.length_eq_zero_iff.mp (by omega)
  · rintro ⟨same, rfl⟩
    refine ⟨frames.symm, ?_⟩
    intro i inside
    obtain rfl : i = 0 := by simpa using inside
    exact head.mpr same

/-- What is left of a message arrives exactly when its calls stay in step. -/
theorem arrives_iff_inStepFrom {chunks : List (List Byte)} {buf : BfDynbuf} {late data : List Byte}
    (some : data ≠ []) (addressable : data.length < 2 ^ 64)
    (bounded : ∀ chunk ∈ chunks, chunk.length ≤ 8 + msgBufSize)
    (bytes : chunks.flatten = late ++ wire data) :
    Arrives buf (late ++ data) chunks ↔ InStepFrom late data chunks := by
  induction chunks generalizing buf late data with
  | nil =>
      have empty := congrArg List.length bytes
      have positive := List.length_pos_iff.mpr some
      rw [List.flatten_nil, List.length_append, wire_length] at empty
      simp only [List.length_nil] at empty
      omega
  | cons chunk rest ih =>
      obtain ⟨head, tail⟩ := List.forall_mem_cons.mp bounded
      have positive := List.length_pos_iff.mpr some
      have size := sizeBytes_length (data.length - msgBufSize)
      have sent := wire_eq some
      have value : leValue (sizeBytes (data.length - msgBufSize)) = data.length - msgBufSize :=
        leValue_sizeBytes (by omega)
      rcases Nat.lt_or_ge msgBufSize data.length with long | short
      · -- frames follow: the calls behind this one go on from what it leaves
        have behind : data.drop msgBufSize ≠ [] := by
          simpa using long
        have full : (data.take msgBufSize).length = msgBufSize := by
          simp
          omega
        have frames : frameCount data = frameCount (data.drop msgBufSize) + 1 := by
          simp only [frameCount, List.length_drop]
          simp only [msgBufSize] at long ⊢
          omega
        rw [sent, List.flatten_cons, ← List.append_assoc, ← List.append_assoc] at bytes
        obtain ⟨kept, whole, others⟩ := call_splits bytes (by
          simp only [List.length_append, size, full]
          omega)
        -- both sides ask for one call a frame, which bounds what this call can leave
        have either (calls : (chunk :: rest).length = frameCount data) :
            Arrives buf (late ++ data) (chunk :: rest) ↔ InStepFrom late data (chunk :: rest) := by
          have fewer : rest.length = frameCount (data.drop msgBufSize) := by
            rw [frames, List.length_cons] at calls
            omega
          have little := frames_bound behind tail others fewer
          have reach : late.length + 8 ≤ chunk.length := by
            have := congrArg List.length whole
            simp only [List.length_append, size, full] at this
            omega
          have unread : rest ≠ [] := by
            rintro rfl
            have := List.length_pos_iff.mpr behind
            simp only [frameCount, List.length_nil, msgBufSize] at fewer this
            omega
          obtain ⟨rem, step⟩ := @arrives_step buf late _ _ kept (data.drop msgBufSize) chunk rest size
            (by omega) whole reach unread
          rw [List.take_append_drop] at step
          rw [step, inStepFrom_cons size sent full frames whole,
            ih behind (by rw [List.length_drop]; omega) tail others]
        constructor
        · intro arrives
          have calls := arrives.calls (by
            rw [List.flatten_cons, bytes, sent]
            simp only [List.append_assoc])
          exact (either calls).mp arrives
        · intro inStep
          exact (either inStep.calls).mpr inStep
      · -- the only frame
        have whole : data.take msgBufSize = data := List.take_of_length_le short
        have ended : data.drop msgBufSize = [] := List.drop_of_length_le short
        have frames : frameCount data = 1 := by
          simp only [frameCount]
          simp only [msgBufSize] at short ⊢
          omega
        rw [whole, ended, wire_nil, List.append_nil] at sent
        have last (alone : rest = []) : Arrives buf (late ++ data) (chunk :: rest) ↔
            (late ++ sizeBytes (data.length - msgBufSize)).drop 8 = late := by
          subst alone
          apply arrives_last _ size (by omega)
          rw [List.flatten_cons, List.flatten_nil, List.append_nil, sent] at bytes
          rw [bytes, List.append_assoc]
        rw [inStepFrom_last size sent frames]
        constructor
        · intro arrives
          have calls := arrives.calls bytes
          have alone : rest = [] := by
            rw [frames, List.length_cons] at calls
            exact List.length_eq_zero_iff.mp (by omega)
          exact ⟨(last alone).mp arrives, alone⟩
        · rintro ⟨same, alone⟩
          exact (last alone).mpr same

/-- **What the framing needs of the stream.** A message that was sent arrives,
whole and alone, exactly when the deliveries stay in step with its frames. -/
theorem message_received_iff_in_step {sendmsg : Nat → List Byte → Except Errno Nat}
    {data written : List Byte} {chunks : List (List Byte)} (some : data ≠ [])
    (addressable : data.length < 2 ^ 64)
    (sent : bfSendFromBuff sendmsg 0 data = (.ok (), written))
    (delivered : Delivers chunks written) :
    (∃ out, bfRecvInBuff bfDynbufDefault (chunks.map .ok) = .ok out [] ∧ out.data = data) ↔
      InStep data chunks := by
  have stream := delivered.bytes
  rw [bfSendFromBuff_written sent] at stream
  have law := @arrives_iff_inStepFrom chunks bfDynbufDefault [] data some addressable
    delivered.bounded stream
  constructor
  · intro received
    obtain ⟨calls, repeats⟩ := law.mp received
    refine ⟨calls, ?_⟩
    intro i inside
    simpa using repeats i inside
  · rintro ⟨calls, repeats⟩
    refine law.mpr ⟨calls, ?_⟩
    intro i inside
    simpa using repeats i inside

/-- A message of two frames. -/
def twoFrames : List Byte := List.replicate msgBufSize 0x41 ++ [0x42]

/-- Each frame is delivered by a call of its own. -/
theorem two_frames_in_step :
    (∃ out, bfRecvInBuff bfDynbufDefault ([frame twoFrames, frame [0x42]].map .ok) = .ok out [] ∧
      out.data = twoFrames) ↔ InStep twoFrames [frame twoFrames, frame [0x42]] :=
  @message_received_iff_in_step (fun _ bytes => .ok bytes.length) twoFrames
    (frame twoFrames ++ frame [0x42]) [frame twoFrames, frame [0x42]] (by decide +kernel)
    (by decide +kernel) (by decide +kernel) ⟨rfl, by decide +kernel, by decide +kernel⟩

/-- One byte is sent, and the first `recvmsg` returns one byte of its count. -/
theorem count_cut_short :
    bfSendFromBuff (fun _ bytes => .ok bytes.length) 0 [0x41] =
        (.ok (), [0, 0, 0, 0, 0, 0, 0, 0, 0x41]) ∧
      Delivers [[0], [0, 0, 0, 0, 0, 0, 0, 0x41]] [0, 0, 0, 0, 0, 0, 0, 0, 0x41] ∧
      bfRecvInBuff bfDynbufDefault [.ok [0], .ok [0, 0, 0, 0, 0, 0, 0, 0x41]] = .err .eio :=
  ⟨by decide +kernel, ⟨by decide, by decide, by decide⟩, by decide⟩

end Bpfilter
