/-
# Daemon.Printer -- the string the messages are assembled into

`bf_printer_add_msg` hands out offsets while the program is generated; the string they
point into is assembled when it is loaded.  Every offset is derived from the last message
of the list alone, and a printer may be saved and loaded in between.

`Consecutive` is the invariant: the messages lie one behind the other, in the order of the list.
An assembled string is then the concatenation of the messages (`bfPrinterAssemble_consecutive`).
`PrinterHistory.Sound.refuses_iff` says which calls return no message, and `printer_runs` of a
whole history of calls that every message returned in it is where its offset says, and that
no other calls went without one.
-/
import Mathlib.Algebra.Order.BigOperators.Group.Finset
import Bpfilter.Daemon.Save

namespace Bpfilter

set_option autoImplicit false

open Ebpf (Byte)

/-! ## Calls -/

/-- The bytes of a message, with the final zero. -/
def messageBytes (str : String) : List Byte := str.toByteArray.data.toList.map UInt8.toBitVec ++ [0]

/-- `bf_printer_add_msg` when an allocation may fail: `NULL`, and the printer as it was.  All
messages are in memory, so one that would bring them to `2 ^ 64` bytes cannot be allocated. -/
def bfPrinterTryAddMsg (works : Bool) (printer : BfPrinter) (str : String) :
    Option BfPrinterMsg × BfPrinter :=
  match printer.msgs.find? (·.str == str) with
  | some msg => (some msg, printer)
  | none =>
      if works ∧ bfPrinterTotalSize printer + (str.utf8ByteSize + 1) < 2 ^ 64 then
        let added := bfPrinterAddMsg printer str
        (some added.1, added.2)
      else (none, printer)

def MsgState.msg (state : MsgState) : BfPrinterMsg := ⟨state.offset.toNat, state.len.toNat, state.str⟩

/-- `bf_printer_pack` and `bf_printer_new_from_pack` of what it wrote. -/
def bfPrinterReload (printer : BfPrinter) : Except Errno BfPrinter :=
  (bfPrinterNewFromPack (bfPrinterPack (printer.msgs.map BfPrinterMsg.state))).map fun msgs =>
    ⟨msgs.map MsgState.msg⟩

/-- `bf_printer_assemble`; `found` is what `malloc` left in the string. -/
def bfPrinterAssemble (found : Nat → Byte) (printer : BfPrinter) : List Byte :=
  if bfPrinterTotalSize printer = 0 then [0]
  else
    printer.msgs.foldl
      (fun text msg => writeAt text msg.offset ((messageBytes msg.str).take msg.len))
      ((List.range (bfPrinterTotalSize printer)).map found)

theorem length_messageBytes (str : String) : (messageBytes str).length = str.utf8ByteSize + 1 := by
  simp only [messageBytes, List.length_append, List.length_map, Array.length_toList,
    List.length_singleton]
  rfl

/-! ## One message behind the other -/

/-- The messages fill a string from `offset` on, in order. -/
def Consecutive (offset : Nat) : List BfPrinterMsg → Prop
  | [] => True
  | msg :: rest =>
      msg.offset = offset ∧ msg.len = msg.str.utf8ByteSize + 1 ∧ Consecutive (offset + msg.len) rest

/-- How long a list of messages is. -/
def messagesSize (msgs : List BfPrinterMsg) : Nat := (msgs.map fun msg => msg.str.utf8ByteSize + 1).sum

theorem messagesSize_cons (msg : BfPrinterMsg) (msgs : List BfPrinterMsg) :
    messagesSize (msg :: msgs) = msg.str.utf8ByteSize + 1 + messagesSize msgs := rfl

theorem messagesSize_append (msgs more : List BfPrinterMsg) :
    messagesSize (msgs ++ more) = messagesSize msgs + messagesSize more := by
  simp only [messagesSize, List.map_append, List.sum_append]

theorem Consecutive.append {msgs more : List BfPrinterMsg} {offset : Nat}
    (placed : Consecutive offset msgs)
    (behind : Consecutive (offset + messagesSize msgs) more) : Consecutive offset (msgs ++ more) := by
  induction msgs generalizing offset with
  | nil => exact behind
  | cons msg rest ih =>
      obtain ⟨here, len, placed⟩ := placed
      refine ⟨here, len, ih placed ?_⟩
      rwa [len, Nat.add_assoc, ← messagesSize_cons]

/-- The last message ends where the whole list does. -/
theorem Consecutive.last {msgs : List BfPrinterMsg} {msg : BfPrinterMsg} {offset : Nat}
    (placed : Consecutive offset (msgs ++ [msg])) :
    msg.offset + msg.len = offset + messagesSize (msgs ++ [msg]) := by
  induction msgs generalizing offset with
  | nil =>
      obtain ⟨here, len, -⟩ := placed
      rw [here, len]
      rfl
  | cons first rest ih =>
      obtain ⟨-, len, placed⟩ := placed
      rw [ih placed, len, List.cons_append, messagesSize_cons, Nat.add_assoc]

/-- The size taken from the last message is the size of all. -/
theorem bfPrinterTotalSize_consecutive {printer : BfPrinter} (placed : Consecutive 0 printer.msgs) :
    bfPrinterTotalSize printer = messagesSize printer.msgs := by
  unfold bfPrinterTotalSize
  rcases List.eq_nil_or_concat printer.msgs with empty | ⟨before, last, msgs⟩
  · rw [empty]
    rfl
  · rw [List.concat_eq_append] at msgs
    rw [msgs] at placed ⊢
    rw [List.getLast?_concat]
    simpa only [Nat.zero_add] using placed.last

/-- A message is inside of the list. -/
theorem Consecutive.bounds {msgs : List BfPrinterMsg} {offset : Nat} (placed : Consecutive offset msgs)
    {msg : BfPrinterMsg} (mem : msg ∈ msgs) :
    offset ≤ msg.offset ∧ msg.offset + msg.len ≤ offset + messagesSize msgs ∧
      msg.len = msg.str.utf8ByteSize + 1 := by
  induction msgs generalizing offset with
  | nil => exact absurd mem List.not_mem_nil
  | cons first rest ih =>
      obtain ⟨here, len, placed⟩ := placed
      rw [messagesSize_cons]
      rcases List.mem_cons.mp mem with same | mem
      · rw [same]
        omega
      · have behind := ih placed mem
        omega

/-- Two messages of a list without repetitions do not overlap. -/
theorem Consecutive.apart {msgs : List BfPrinterMsg} {offset : Nat} (placed : Consecutive offset msgs)
    {msg msg' : BfPrinterMsg} (mem : msg ∈ msgs) (mem' : msg' ∈ msgs) (other : msg ≠ msg') :
    msg.offset + msg.len ≤ msg'.offset ∨ msg'.offset + msg'.len ≤ msg.offset := by
  induction msgs generalizing offset with
  | nil => exact absurd mem List.not_mem_nil
  | cons first rest ih =>
      obtain ⟨here, len, placed⟩ := placed
      rcases List.mem_cons.mp mem with same | mem
      · rcases List.mem_cons.mp mem' with same' | mem'
        · exact absurd (same.trans same'.symm) other
        · have behind := (placed.bounds mem').1
          rw [same]
          omega
      · rcases List.mem_cons.mp mem' with same' | mem'
        · have behind := (placed.bounds mem).1
          rw [same']
          omega
        · exact ih placed mem mem'

/-! ## The assembled string -/

/-- The string of a list of messages. -/
def messagesText (msgs : List BfPrinterMsg) : List Byte := msgs.flatMap fun msg => messageBytes msg.str

theorem length_messagesText (msgs : List BfPrinterMsg) :
    (messagesText msgs).length = messagesSize msgs := by
  induction msgs with
  | nil => rfl
  | cons msg rest ih =>
      rw [messagesSize_cons, ← ih, ← length_messageBytes, ← List.length_append]
      rfl

/-- Copying the messages one by one is copying their string. -/
theorem Consecutive.assemble {msgs : List BfPrinterMsg} {offset : Nat} {text : List Byte}
    (placed : Consecutive offset msgs) (fits : offset + messagesSize msgs ≤ text.length) :
    msgs.foldl (fun text msg => writeAt text msg.offset ((messageBytes msg.str).take msg.len)) text =
      writeAt text offset (messagesText msgs) := by
  induction msgs generalizing offset text with
  | nil => simp [writeAt, messagesText]
  | cons msg rest ih =>
      obtain ⟨here, len, placed⟩ := placed
      rw [messagesSize_cons] at fits
      have size := length_messageBytes msg.str
      have whole : (messageBytes msg.str).take msg.len = messageBytes msg.str :=
        List.take_of_length_le (by omega)
      have copied : (writeAt text offset (messageBytes msg.str)).length = text.length :=
        length_writeAt (by omega)
      rw [List.foldl_cons, whole, here, ih placed (by omega), len, ← size,
        writeAt_writeAt (by omega)]
      rfl

/-- What is assembled is the string of the messages. -/
theorem bfPrinterAssemble_consecutive {printer : BfPrinter} (found : Nat → Byte)
    (placed : Consecutive 0 printer.msgs) :
    bfPrinterAssemble found printer =
      if printer.msgs = [] then [0] else messagesText printer.msgs := by
  unfold bfPrinterAssemble
  rw [bfPrinterTotalSize_consecutive placed]
  cases msgs : printer.msgs with
  | nil => rfl
  | cons msg rest =>
      have nonempty : messagesSize (msg :: rest) ≠ 0 := by
        rw [messagesSize_cons]
        omega
      rw [if_neg nonempty, if_neg (List.cons_ne_nil msg rest), ← msgs,
        placed.assemble (by rw [List.length_map, List.length_range]; omega), writeAt,
        List.drop_of_length_le]
      · simp
      · rw [List.length_map, List.length_range, length_messagesText]
        omega

/-- A message is where its offset says. -/
theorem Consecutive.slice {msgs : List BfPrinterMsg} {offset : Nat} (placed : Consecutive offset msgs)
    {msg : BfPrinterMsg} (mem : msg ∈ msgs) :
    ((messagesText msgs).drop (msg.offset - offset)).take msg.len = messageBytes msg.str := by
  induction msgs generalizing offset with
  | nil => exact absurd mem List.not_mem_nil
  | cons first rest ih =>
      obtain ⟨here, len, placed⟩ := placed
      have text : messagesText (first :: rest) = messageBytes first.str ++ messagesText rest := rfl
      have size := length_messageBytes first.str
      rcases List.mem_cons.mp mem with same | mem
      · rw [same, here, Nat.sub_self, List.drop_zero, text, len, ← size, List.take_left]
      · have behind := (placed.bounds mem).1
        have skipped : msg.offset - offset =
            (messageBytes first.str).length + (msg.offset - (offset + first.len)) := by omega
        rw [text, skipped, List.drop_append, List.drop_of_length_le (by omega), List.nil_append,
          Nat.add_sub_cancel_left]
        exact ih placed mem

/-! ## Histories -/

inductive PrinterOp where
  | addMsg (works : Bool) (str : String)
  | reload

/-- A printer, with every message returned so far and what was asked for. -/
structure PrinterHistory where
  printer : BfPrinter
  returned : List (String × BfPrinterMsg)

/-- `bf_printer_new` -/
def PrinterHistory.start : PrinterHistory := ⟨⟨[]⟩, []⟩

/-- One call; a printer that cannot be read back stays the old one. -/
def PrinterHistory.call (s : PrinterHistory) : PrinterOp → PrinterHistory
  | .addMsg works str =>
      match bfPrinterTryAddMsg works s.printer str with
      | (some msg, printer) => ⟨printer, s.returned ++ [(str, msg)]⟩
      | (none, printer) => { s with printer }
  | .reload =>
      match bfPrinterReload s.printer with
      | .ok printer => { s with printer }
      | .error _ => s

/-- The messages are consecutive, one for each string, and are those returned. -/
structure PrinterHistory.Sound (s : PrinterHistory) : Prop where
  consecutive : Consecutive 0 s.printer.msgs
  fits : messagesSize s.printer.msgs < 2 ^ 64
  unique : (s.printer.msgs.map (·.str)).Nodup
  kept : ∀ str msg, (str, msg) ∈ s.returned → msg ∈ s.printer.msgs ∧ msg.str = str
  asked : ∀ msg ∈ s.printer.msgs, (msg.str, msg) ∈ s.returned

theorem sound_start : PrinterHistory.start.Sound where
  consecutive := trivial
  fits := by decide
  unique := List.nodup_nil
  kept := fun _ _ mem => absurd mem List.not_mem_nil
  asked := fun _ mem => absurd mem List.not_mem_nil

/-- Offsets and lengths that fit in 64 bits are read back as they were. -/
theorem bfPrinterReload_consecutive {printer : BfPrinter} (consecutive : Consecutive 0 printer.msgs)
    (fits : messagesSize printer.msgs < 2 ^ 64) : bfPrinterReload printer = .ok printer := by
  have back : (printer.msgs.map BfPrinterMsg.state).map MsgState.msg = printer.msgs := by
    rw [List.map_map]
    refine (List.map_congr_left ?_).trans (List.map_id _)
    intro msg mem
    have bounds := consecutive.bounds mem
    simp only [Function.comp_apply, BfPrinterMsg.state, MsgState.msg, BitVec.toNat_ofNat, id]
    rw [Nat.mod_eq_of_lt (by omega), Nat.mod_eq_of_lt (by omega)]
  unfold bfPrinterReload
  rw [bfPrinterNewFromPack_pack]
  simp only [Except.map, back]

/-- What a call that adds a message returns, and what it leaves. -/
theorem bfPrinterTryAddMsg_inv {works : Bool} {printer printer' : BfPrinter} {str : String}
    {result : Option BfPrinterMsg} (ran : bfPrinterTryAddMsg works printer str = (result, printer')) :
    (∃ msg ∈ printer.msgs, msg.str = str ∧ result = some msg ∧ printer' = printer) ∨
      (result = none ∧ printer' = printer) ∨
      (∃ msg, (∀ old ∈ printer.msgs, old.str ≠ str) ∧
        msg = ⟨bfPrinterTotalSize printer, str.utf8ByteSize + 1, str⟩ ∧ result = some msg ∧
        printer' = ⟨printer.msgs ++ [msg]⟩ ∧
        bfPrinterTotalSize printer + (str.utf8ByteSize + 1) < 2 ^ 64) := by
  unfold bfPrinterTryAddMsg at ran
  cases found : printer.msgs.find? (·.str == str) with
  | some msg =>
      rw [found] at ran
      cases ran
      have same := List.find?_some found
      exact Or.inl ⟨msg, List.mem_of_find?_eq_some found, by simpa using same, rfl, rfl⟩
  | none =>
      simp only [found] at ran
      split at ran
      · rename_i room
        have added : bfPrinterAddMsg printer str =
            (⟨bfPrinterTotalSize printer, str.utf8ByteSize + 1, str⟩,
              ⟨printer.msgs ++ [⟨bfPrinterTotalSize printer, str.utf8ByteSize + 1, str⟩]⟩) := by
          simp only [bfPrinterAddMsg, found]
        rw [added] at ran
        cases ran
        refine Or.inr (Or.inr ⟨_, ?_, rfl, rfl, rfl, room.2⟩)
        intro old mem same
        have absent := List.find?_eq_none.mp found old mem
        exact absent (by simpa using same)
      · cases ran
        exact Or.inr (Or.inl ⟨rfl, rfl⟩)

theorem PrinterHistory.Sound.addMsg {s : PrinterHistory} (sound : s.Sound) (works : Bool)
    (str : String) : (s.call (.addMsg works str)).Sound := by
  have size := bfPrinterTotalSize_consecutive sound.consecutive
  unfold PrinterHistory.call
  obtain ⟨result, printer', ran⟩ : ∃ result printer',
      bfPrinterTryAddMsg works s.printer str = (result, printer') := ⟨_, _, rfl⟩
  simp only [ran]
  rcases bfPrinterTryAddMsg_inv ran with
    ⟨msg, mem, text, rfl, rfl⟩ | ⟨rfl, rfl⟩ | ⟨msg, fresh, made, rfl, rfl, room⟩
  · refine ⟨sound.consecutive, sound.fits, sound.unique, ?_, ?_⟩
    · intro str' msg' returned
      rcases List.mem_append.mp returned with before | now
      · exact sound.kept str' msg' before
      · cases List.mem_singleton.mp now
        exact ⟨mem, text⟩
    · exact fun msg' mem' => List.mem_append_left _ (sound.asked msg' mem')
  · exact sound
  · have text : msg.str = str := by rw [made]
    refine ⟨?_, ?_, ?_, ?_, ?_⟩
    · refine sound.consecutive.append ⟨?_, ?_, trivial⟩
      · rw [made, size, Nat.zero_add]
      · rw [made]
    · rw [messagesSize_append, ← size]
      simpa only [messagesSize, List.map_cons, List.map_nil, List.sum_singleton, text] using room
    · rw [List.map_append, List.map_singleton, List.nodup_append]
      refine ⟨sound.unique, List.nodup_singleton _, ?_⟩
      intro other mem name mem' same
      obtain ⟨old, oldMem, rfl⟩ := List.mem_map.mp mem
      rw [List.mem_singleton.mp mem', text] at same
      exact fresh old oldMem same
    · intro str' msg' returned
      rcases List.mem_append.mp returned with before | now
      · obtain ⟨mem, text'⟩ := sound.kept str' msg' before
        exact ⟨List.mem_append_left _ mem, text'⟩
      · cases List.mem_singleton.mp now
        exact ⟨List.mem_append_right _ (List.mem_singleton.mpr rfl), text⟩
    · intro msg' mem
      rcases List.mem_append.mp mem with before | now
      · exact List.mem_append_left _ (sound.asked msg' before)
      · rw [List.mem_singleton.mp now, text]
        exact List.mem_append_right _ (List.mem_singleton.mpr rfl)

theorem PrinterHistory.Sound.call {s : PrinterHistory} (sound : s.Sound) (op : PrinterOp) :
    (s.call op).Sound := by
  cases op with
  | addMsg works str => exact sound.addMsg works str
  | reload =>
      have back := bfPrinterReload_consecutive sound.consecutive sound.fits
      simp only [PrinterHistory.call, back]
      exact sound

/-- The history of a list of calls. -/
def PrinterHistory.run (s : PrinterHistory) (ops : List PrinterOp) : PrinterHistory :=
  ops.foldl PrinterHistory.call s

theorem PrinterHistory.Sound.run {s : PrinterHistory} (sound : s.Sound) (ops : List PrinterOp) :
    (s.run ops).Sound := by
  induction ops generalizing s with
  | nil => exact sound
  | cons op ops ih => exact ih (sound.call op)

/-- One message for each string. -/
theorem PrinterHistory.Sound.same {s : PrinterHistory} (sound : s.Sound) {str : String}
    {msg msg' : BfPrinterMsg} (returned : (str, msg) ∈ s.returned)
    (returned' : (str, msg') ∈ s.returned) : msg = msg' := by
  obtain ⟨mem, text⟩ := sound.kept str msg returned
  obtain ⟨mem', text'⟩ := sound.kept str msg' returned'
  exact List.inj_on_of_nodup_map sound.unique mem mem' (text.trans text'.symm)

/-! ## What a history asks for -/

/-- The bytes that different strings need, each with its final zero. -/
def textsSize (strs : List String) : Nat := strs.toFinset.sum fun str => str.utf8ByteSize + 1

theorem textsSize_mono {strs more : List String} (within : strs ⊆ more) :
    textsSize strs ≤ textsSize more :=
  Finset.sum_le_sum_of_subset fun _ mem => List.mem_toFinset.mpr (within (List.mem_toFinset.mp mem))

theorem textsSize_concat {strs : List String} {str : String} (fresh : str ∉ strs) :
    textsSize (strs ++ [str]) = textsSize strs + (str.utf8ByteSize + 1) := by
  have absent : str ∉ strs.toFinset := fun mem => fresh (List.mem_toFinset.mp mem)
  have grown : (strs ++ [str]).toFinset = insert str strs.toFinset := by
    ext other
    simp
  rw [textsSize, grown, Finset.sum_insert absent, Nat.add_comm]
  rfl

/-- The strings a message was returned for. -/
def PrinterHistory.texts (s : PrinterHistory) : List String := s.returned.map Prod.fst

/-- The strings a message was asked for. -/
def askedTexts : List PrinterOp → List String
  | [] => []
  | .addMsg _ str :: ops => str :: askedTexts ops
  | .reload :: ops => askedTexts ops

/-- The allocations of a call work. -/
def PrinterOp.Works : PrinterOp → Prop
  | .addMsg works _ => works = true
  | .reload => True

theorem PrinterHistory.Sound.mem_texts {s : PrinterHistory} (sound : s.Sound) {str : String} :
    str ∈ s.texts ↔ ∃ msg ∈ s.printer.msgs, msg.str = str := by
  rw [PrinterHistory.texts, List.mem_map]
  constructor
  · rintro ⟨⟨_, msg⟩, returned, rfl⟩
    exact ⟨msg, sound.kept _ msg returned⟩
  · rintro ⟨msg, mem, rfl⟩
    exact ⟨_, sound.asked msg mem, rfl⟩

/-- The size of all messages is that of the distinct strings returned. -/
theorem PrinterHistory.Sound.size {s : PrinterHistory} (sound : s.Sound) :
    messagesSize s.printer.msgs = textsSize s.texts := by
  have same : (s.printer.msgs.map (·.str)).toFinset = s.texts.toFinset := by
    ext str
    rw [List.mem_toFinset, List.mem_toFinset, sound.mem_texts, List.mem_map]
  rw [textsSize, ← same, List.sum_toFinset _ sound.unique, List.map_map]
  rfl

/-- A call returns no message exactly when its string is new and either an allocation
fails or the string does not fit. -/
theorem PrinterHistory.Sound.refuses_iff {s : PrinterHistory} (sound : s.Sound) (works : Bool)
    (str : String) :
    (bfPrinterTryAddMsg works s.printer str).1 = none ↔
      str ∉ s.texts ∧ (works = true → 2 ^ 64 ≤ textsSize s.texts + (str.utf8ByteSize + 1)) := by
  have size : bfPrinterTotalSize s.printer = textsSize s.texts := by
    rw [bfPrinterTotalSize_consecutive sound.consecutive, sound.size]
  rw [sound.mem_texts]
  unfold bfPrinterTryAddMsg
  cases found : s.printer.msgs.find? (·.str == str) with
  | some msg =>
      have among := List.mem_of_find?_eq_some found
      have same : msg.str = str := by simpa using List.find?_some found
      simp only [reduceCtorEq, false_iff]
      exact fun refused => refused.1 ⟨msg, among, same⟩
  | none =>
      have fresh : ¬ ∃ msg ∈ s.printer.msgs, msg.str = str := by simpa using found
      rw [size]
      by_cases room : works = true ∧ textsSize s.texts + (str.utf8ByteSize + 1) < 2 ^ 64
      · simp only [if_pos room, reduceCtorEq, false_iff]
        exact fun refused => Nat.not_lt.mpr (refused.2 room.1) room.2
      · simp only [if_neg room, true_iff]
        exact ⟨fresh, fun on => Nat.le_of_not_lt fun less => room ⟨on, less⟩⟩

theorem PrinterHistory.texts_addMsg {s : PrinterHistory} {works : Bool} {str : String}
    (served : (bfPrinterTryAddMsg works s.printer str).1 ≠ none) :
    (s.call (.addMsg works str)).texts = s.texts ++ [str] := by
  unfold PrinterHistory.call
  cases ran : bfPrinterTryAddMsg works s.printer str with
  | mk result printer =>
      cases result with
      | none => exact absurd (by rw [ran]) served
      | some msg => simp [PrinterHistory.texts, ran]

theorem PrinterHistory.texts_reload (s : PrinterHistory) : (s.call .reload).texts = s.texts := by
  unfold PrinterHistory.call
  cases bfPrinterReload s.printer <;> simp [PrinterHistory.texts]

/-- A history whose allocations work, of strings that fit, is served in full. -/
theorem PrinterHistory.Sound.served {s : PrinterHistory} (sound : s.Sound) {ops : List PrinterOp}
    (alloc : ∀ op ∈ ops, op.Works) (fits : textsSize (s.texts ++ askedTexts ops) < 2 ^ 64) :
    (s.run ops).texts = s.texts ++ askedTexts ops := by
  induction ops generalizing s with
  | nil => simp [PrinterHistory.run, askedTexts]
  | cons op ops ih =>
      have later : ∀ op ∈ ops, op.Works := fun op mem => alloc op (List.mem_cons_of_mem _ mem)
      have now := alloc op List.mem_cons_self
      cases op with
      | reload =>
          have same := s.texts_reload
          rw [askedTexts] at fits ⊢
          rw [← same] at fits ⊢
          exact ih (sound.call .reload) later fits
      | addMsg works str =>
          have served : (bfPrinterTryAddMsg works s.printer str).1 ≠ none := by
            intro refused
            obtain ⟨fresh, full⟩ := (sound.refuses_iff works str).mp refused
            have least : textsSize (s.texts ++ [str]) ≤
                textsSize (s.texts ++ askedTexts (.addMsg works str :: ops)) := by
              refine textsSize_mono fun other mem => ?_
              simp only [askedTexts, List.mem_append, List.mem_cons, List.not_mem_nil,
                or_false] at mem ⊢
              tauto
            rw [textsSize_concat fresh] at least
            exact absurd (full now) (Nat.not_le.mpr (Nat.lt_of_le_of_lt least fits))
          have grown := PrinterHistory.texts_addMsg served
          have split : s.texts ++ askedTexts (.addMsg works str :: ops) =
              (s.call (.addMsg works str)).texts ++ askedTexts ops := by
            rw [grown, askedTexts, List.append_assoc]
            rfl
          rw [split] at fits ⊢
          exact ih (sound.addMsg works str) later fits

/-- **Printer.**  After any history of calls, every message returned in it is still in the printer
and is where its offset says in the assembled string; equal strings have one message, different
ones do not overlap, and the string is as long as the different messages together.  A call goes
without a message only when its string is new and an allocation fails or it does not fit, so a
history without these has a message for each string it asks for. -/
theorem printer_runs (ops : List PrinterOp) (found : Nat → Byte) :
    let s := PrinterHistory.start.run ops
    let text := bfPrinterAssemble found s.printer
    (∀ str msg, (str, msg) ∈ s.returned → msg ∈ s.printer.msgs ∧
      (text.drop msg.offset).take msg.len = messageBytes str) ∧
    (∀ str msg msg', (str, msg) ∈ s.returned → (str, msg') ∈ s.returned → msg = msg') ∧
    (∀ str str' msg msg', (str, msg) ∈ s.returned → (str', msg') ∈ s.returned → str ≠ str' →
      msg.offset + msg.len ≤ msg'.offset ∨ msg'.offset + msg'.len ≤ msg.offset) ∧
    (text.length = if s.returned = [] then 1 else textsSize s.texts) ∧
    (∀ works str, (bfPrinterTryAddMsg works s.printer str).1 = none ↔
      str ∉ s.texts ∧ (works = true → 2 ^ 64 ≤ textsSize s.texts + (str.utf8ByteSize + 1))) ∧
    ((∀ op ∈ ops, op.Works) → textsSize (askedTexts ops) < 2 ^ 64 →
      s.texts = askedTexts ops) := by
  have sound := sound_start.run ops
  intro s text
  have assembled : text = if s.printer.msgs = [] then [0] else messagesText s.printer.msgs :=
    bfPrinterAssemble_consecutive found sound.consecutive
  refine ⟨?_, fun str msg msg' => sound.same, ?_, ?_, sound.refuses_iff, ?_⟩
  · intro str msg returned
    obtain ⟨mem, asked⟩ := sound.kept str msg returned
    refine ⟨mem, ?_⟩
    rw [assembled, if_neg (List.ne_nil_of_mem mem), ← asked]
    exact sound.consecutive.slice mem
  · intro str str' msg msg' returned returned' different
    obtain ⟨mem, asked⟩ := sound.kept str msg returned
    obtain ⟨mem', asked'⟩ := sound.kept str' msg' returned'
    refine sound.consecutive.apart mem mem' fun same => different ?_
    rw [← asked, ← asked', same]
  · rw [assembled]
    by_cases empty : s.printer.msgs = []
    · have none : s.returned = [] := by
        refine List.eq_nil_iff_forall_not_mem.mpr ?_
        rintro ⟨str, msg⟩ returned
        have mem := (sound.kept str msg returned).1
        change msg ∈ s.printer.msgs at mem
        rw [empty] at mem
        exact absurd mem List.not_mem_nil
      rw [if_pos empty, if_pos none]
      rfl
    · have some : s.returned ≠ [] := by
        obtain ⟨msg, mem⟩ := List.exists_mem_of_ne_nil _ empty
        exact List.ne_nil_of_mem (sound.asked msg mem)
      rw [if_neg empty, if_neg some, length_messagesText]
      exact sound.size
  · intro works fits
    exact sound_start.served works fits

end Bpfilter
