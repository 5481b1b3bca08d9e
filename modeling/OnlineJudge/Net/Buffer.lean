/-
# `Buffer`: the byte queue between a socket and the server

`Buffer` (`net/muduo.hpp`) keeps the bytes of a connection in one `std::vector<char>` with two
offsets: the bytes between `_reader_idx` and `_writer_idx` can be read, new ones are written from
`_writer_idx` on.  A write that does not fit behind `_writer_idx` either moves the readable bytes
to the front, over themselves, or makes the vector larger.

Every operation that asserts something is a partial function here, `none` where the assertion
fails.  The offsets are natural numbers: they never exceed the size of the vector, which is below
`2 ^ 63`, so nothing the code computes with them wraps.

* `Valid`: `_reader_idx <= _writer_idx <= _buffer.size()`.
* `buffer_refines`: the buffer refines a queue of bytes, through all three ways a write can go.
* `buffer_fifo`: so no run of its operations fails an assertion, and every run reads what was
  written, in order.
-/
import OnlineJudge.Lib.ArrayCopy
import OnlineJudge.Lib.ByteString
import OnlineJudge.Lib.Refinement

namespace OnlineJudge.Net

open ArrayCopy

/-! ## 1. The operations

One definition for each function of the class, in its order.  The way in which a write makes room is
in `EnsureWriteSpace` alone, and every write of some bytes goes through it. -/

def bufferDefaultSize : Nat := 1024

structure Buffer where
  buffer : Bytes
  readerIdx : Nat
  writerIdx : Nat
deriving DecidableEq

namespace Buffer

/-- `Buffer()`. -/
def new : Buffer := ⟨List.replicate bufferDefaultSize 0, 0, 0⟩

def tailIdleSize (b : Buffer) : Nat := b.buffer.length - b.writerIdx

def headIdleSize (b : Buffer) : Nat := b.readerIdx

def readAbleSize (b : Buffer) : Nat := b.writerIdx - b.readerIdx

def moveReadOffset (b : Buffer) (len : Nat) : Option Buffer :=
  if len = 0 then some b
  else if len ≤ b.readAbleSize then some { b with readerIdx := b.readerIdx + len }
  else none

def moveWriteOffset (b : Buffer) (len : Nat) : Option Buffer :=
  if len ≤ b.tailIdleSize then some { b with writerIdx := b.writerIdx + len } else none

/-- `EnsureWriteSpace`: there is room behind the readable bytes, or there is once they are moved to
the front, or the vector grows. -/
def ensureWriteSpace (b : Buffer) (len : Nat) : Buffer :=
  if b.tailIdleSize ≥ len then b
  else if len ≤ b.tailIdleSize + b.headIdleSize then
    ⟨copyWithin b.buffer b.readerIdx 0 b.readAbleSize, 0, b.readAbleSize⟩
  else { b with buffer := resize b.buffer (b.writerIdx + len) }

def write (b : Buffer) (data : Bytes) : Buffer :=
  if data.length = 0 then b
  else
    let b := b.ensureWriteSpace data.length
    { b with buffer := copyIn b.buffer b.writerIdx data }

def writeAndPush (b : Buffer) (data : Bytes) : Option Buffer :=
  (b.write data).moveWriteOffset data.length

def writeString (b : Buffer) (data : Bytes) : Buffer := b.write data

def writeStringAndPush (b : Buffer) (data : Bytes) : Option Buffer :=
  (b.writeString data).moveWriteOffset data.length

/-- The `len` bytes at `ReadPosition`. -/
def atReadPosition (b : Buffer) (len : Nat) : Bytes := (b.buffer.drop b.readerIdx).take len

/-- `WriteBuffer`, of another buffer: its readable bytes. -/
def writeBuffer (b data : Buffer) : Buffer := b.write (data.atReadPosition data.readAbleSize)

/-- `WriteBufferAndPush`, of another buffer. -/
def writeBufferAndPush (b data : Buffer) : Option Buffer :=
  (b.writeBuffer data).moveWriteOffset data.readAbleSize

/-- `Read`: the bytes that are copied out. -/
def read (b : Buffer) (len : Nat) : Option Bytes :=
  if len ≤ b.readAbleSize then some (b.atReadPosition len) else none

def readAndPop (b : Buffer) (len : Nat) : Option (Bytes × Buffer) := do
  let bytes ← b.read len
  let b ← b.moveReadOffset len
  return (bytes, b)

def readAsString (b : Buffer) (len : Nat) : Option Bytes :=
  if len ≤ b.readAbleSize then b.read len else none

def readAsStringAndPop (b : Buffer) (len : Nat) : Option (Bytes × Buffer) :=
  if len ≤ b.readAbleSize then do
    let str ← b.readAsString len
    let b ← b.moveReadOffset len
    return (str, b)
  else none

/-- `FindCRLF`: the distance from `ReadPosition` to the first newline. -/
def findCRLF (b : Buffer) : Option Nat :=
  ByteString.find [10] (b.atReadPosition b.readAbleSize)

def getLine (b : Buffer) : Option Bytes :=
  match b.findCRLF with
  | none => some []
  | some pos => b.readAsString (pos + 1)

def getLineAndPop (b : Buffer) : Option (Bytes × Buffer) := do
  let str ← b.getLine
  let b ← b.moveReadOffset str.length
  return (str, b)

def clear (b : Buffer) : Buffer := { b with readerIdx := 0, writerIdx := 0 }

/-! ## 2. The readable bytes

What the class is for is in the bytes between the offsets.  `content` takes them out of the vector,
and the rest of the vector is of no interest. -/

/-- The offsets are in order and inside the vector.  Every assertion of the class is one of these,
or that the caller asks for no more than there is. -/
structure Valid (b : Buffer) : Prop where
  reader : b.readerIdx ≤ b.writerIdx
  writer : b.writerIdx ≤ b.buffer.length

/-- The readable bytes. -/
def content (b : Buffer) : Bytes := b.atReadPosition b.readAbleSize

theorem valid_new : new.Valid where
  reader := Nat.le_refl 0
  writer := Nat.zero_le _

theorem length_content {b : Buffer} (h : b.Valid) : b.content.length = b.readAbleSize := by
  have hreader := h.reader
  have hwriter := h.writer
  rw [content, atReadPosition, List.length_take, List.length_drop, readAbleSize]
  omega

/-- The readable bytes lie between the two offsets. -/
theorem content_eq (b : Buffer) : b.content = (b.buffer.take b.writerIdx).drop b.readerIdx := by
  rw [content, atReadPosition, readAbleSize, List.drop_take]

theorem atReadPosition_eq {b : Buffer} {len : Nat} (h : len ≤ b.readAbleSize) :
    b.atReadPosition len = b.content.take len := by
  rw [content, atReadPosition, atReadPosition, List.take_take, Nat.min_eq_left h]

/-! ## 3. What each operation does to them

Under `Valid`, each operation is described by what it does to `content`, and it keeps `Valid`. -/

/-- **`EnsureWriteSpace` makes room and keeps the readable bytes**, whichever of the three ways
it takes. -/
theorem ensureWriteSpace_spec {b : Buffer} (h : b.Valid) (len : Nat) :
    (b.ensureWriteSpace len).Valid ∧ len ≤ (b.ensureWriteSpace len).tailIdleSize ∧
      (b.ensureWriteSpace len).content = b.content := by
  have hreader := h.reader
  have hwriter := h.writer
  unfold ensureWriteSpace
  split
  · rename_i htail
    exact ⟨h, htail, rfl⟩
  · split
    · rename_i htail hroom
      have hmoved : copyWithin b.buffer b.readerIdx 0 b.readAbleSize =
          b.content ++ b.buffer.drop b.readAbleSize := by
        have hfits : b.readerIdx + b.readAbleSize ≤ b.buffer.length := by
          rw [readAbleSize]
          omega
        rw [copyWithin_eq b.readAbleSize (Nat.zero_le _) hfits, List.take_zero, List.nil_append,
          Nat.zero_add]
        rfl
      refine ⟨⟨Nat.zero_le _, ?_⟩, ?_, ?_⟩
      · simp only [length_copyWithin, readAbleSize]
        omega
      · simp only [tailIdleSize, length_copyWithin, headIdleSize, readAbleSize] at hroom ⊢
        omega
      · rw [content_eq]
        simp only [hmoved, List.drop_zero]
        rw [← length_content h, List.take_left]
    · rename_i htail hroom
      have hgrow : b.buffer.length ≤ b.writerIdx + len := by
        simp only [tailIdleSize] at htail
        omega
      refine ⟨⟨hreader, ?_⟩, ?_, ?_⟩
      · simp only [length_resize]
        omega
      · simp only [tailIdleSize, length_resize]
        omega
      · rw [content_eq, content_eq]
        simp only [resize_of_le hgrow, List.take_append_of_le_length hwriter]

/-- **A write puts the bytes behind the readable ones**, and moving the offset makes them
readable. -/
theorem writeAndPush_spec {b : Buffer} (h : b.Valid) (data : Bytes) :
    ∃ b', b.writeAndPush data = some b' ∧ b'.Valid ∧ b'.content = b.content ++ data := by
  unfold writeAndPush write
  split
  · rename_i hempty
    rw [List.eq_nil_of_length_eq_zero hempty]
    exact ⟨b, by simp [moveWriteOffset], h, by simp⟩
  · obtain ⟨hvalid, hroom, hcontent⟩ := ensureWriteSpace_spec h data.length
    rw [← hcontent]
    generalize b.ensureWriteSpace data.length = b₁ at hvalid hroom
    have hreader := hvalid.reader
    have hwriter := hvalid.writer
    have hfits : b₁.writerIdx + data.length ≤ b₁.buffer.length := by
      rw [tailIdleSize] at hroom
      omega
    refine ⟨⟨copyIn b₁.buffer b₁.writerIdx data, b₁.readerIdx, b₁.writerIdx + data.length⟩,
      ?_, ⟨?_, ?_⟩, ?_⟩
    · have hroom' : data.length ≤
          tailIdleSize { b₁ with buffer := copyIn b₁.buffer b₁.writerIdx data } := by
        rw [tailIdleSize, length_copyIn]
        exact hroom
      exact if_pos hroom'
    · simp only
      omega
    · rw [length_copyIn]
      exact hfits
    · have hlen : (b₁.buffer.take b₁.writerIdx ++ data).length = b₁.writerIdx + data.length := by
        rw [List.length_append, List.length_take_of_le hwriter]
      rw [content_eq, content_eq]
      simp only [copyIn_eq data hfits]
      rw [← hlen, List.take_left, List.drop_append_of_le_length]
      rw [List.length_take_of_le hwriter]
      exact hreader

/-- Writing another buffer writes its readable bytes. -/
theorem writeBufferAndPush_eq (b : Buffer) {data : Buffer} (h : data.Valid) :
    b.writeBufferAndPush data = b.writeAndPush data.content := by
  rw [writeAndPush, length_content h]
  rfl

/-- **Moving the read offset drops bytes at the front**, as many as were asked for; the assertion
holds as there are as many. -/
theorem moveReadOffset_spec {b : Buffer} (h : b.Valid) {len : Nat} (hlen : len ≤ b.readAbleSize) :
    ∃ b', b.moveReadOffset len = some b' ∧ b'.Valid ∧ b'.content = b.content.drop len := by
  unfold moveReadOffset
  split
  · rename_i hzero
    exact ⟨b, rfl, h, by rw [hzero, List.drop_zero]⟩
  · have hreader := h.reader
    have hsize : len ≤ b.writerIdx - b.readerIdx := hlen
    refine ⟨{ b with readerIdx := b.readerIdx + len }, rfl, ⟨?_, h.writer⟩, ?_⟩
    · simp only
      omega
    · rw [content_eq, content_eq, List.drop_drop]

theorem readAsString_eq {b : Buffer} {len : Nat} (h : len ≤ b.readAbleSize) :
    b.readAsString len = some (b.content.take len) := by
  rw [readAsString, if_pos h, read, if_pos h, atReadPosition_eq h]

/-- **Reading takes bytes off the front.** -/
theorem readAndPop_spec {b : Buffer} (h : b.Valid) {len : Nat} (hlen : len ≤ b.readAbleSize) :
    ∃ b', b.readAndPop len = some (b.content.take len, b') ∧ b'.Valid ∧
      b'.content = b.content.drop len := by
  obtain ⟨b', hmove, hvalid, hcontent⟩ := moveReadOffset_spec h hlen
  refine ⟨b', ?_, hvalid, hcontent⟩
  rw [readAndPop, read, if_pos hlen, atReadPosition_eq hlen, hmove]
  rfl

theorem readAsStringAndPop_eq (b : Buffer) (len : Nat) :
    b.readAsStringAndPop len = b.readAndPop len := by
  rw [readAsStringAndPop, readAndPop, readAsString, read]
  split <;> rfl

/-- The line at the front, with its newline; nothing if no line is complete. -/
def firstLine (queue : Bytes) : Bytes :=
  match ByteString.find [10] queue with
  | none => []
  | some pos => queue.take (pos + 1)

theorem length_firstLine (queue : Bytes) : (firstLine queue).length ≤ queue.length := by
  unfold firstLine
  split
  · exact Nat.zero_le _
  · exact List.length_take_le' _ _

/-- **Taking a line off the front**, with its newline, or nothing if no line is complete. -/
theorem getLineAndPop_spec {b : Buffer} (h : b.Valid) :
    ∃ b', b.getLineAndPop = some (firstLine b.content, b') ∧ b'.Valid ∧
      b'.content = b.content.drop (firstLine b.content).length := by
  have hline : b.getLine = some (firstLine b.content) := by
    rw [getLine, findCRLF, firstLine]
    change (match ByteString.find [10] b.content with
      | none => some []
      | some pos => b.readAsString (pos + 1)) = _
    cases hpos : ByteString.find [10] b.content with
    | none => rfl
    | some pos =>
      have hlen := (ByteString.find_eq_some hpos).2.length_le
      rw [List.length_drop, length_content h, List.length_singleton] at hlen
      exact readAsString_eq (by omega)
  have hlen : (firstLine b.content).length ≤ b.readAbleSize := by
    rw [← length_content h]
    exact length_firstLine b.content
  obtain ⟨b', hmove, hvalid, hcontent⟩ := moveReadOffset_spec h hlen
  refine ⟨b', ?_, hvalid, hcontent⟩
  rw [getLineAndPop, hline]
  simp only [Option.bind_eq_bind, Option.bind_some, hmove]
  rfl

/-! ## 4. The queue

The calls of the class as data, so that a run is a list of them.  The queue is a list of bytes with
the calls on it, and has no offsets. -/

/-- A buffer as it can be handed to another one. -/
abbrev ValidBuffer := { b : Buffer // b.Valid }

/-- A call.  Operations that come in two halves, such as `Write` and `MoveWriteOffset`, are called
as a whole. -/
inductive Op
  | writeAndPush (data : Bytes)
  | writeStringAndPush (data : Bytes)
  | writeBufferAndPush (data : ValidBuffer)
  | readAndPop (len : Nat)
  | readAsStringAndPop (len : Nat)
  | moveReadOffset (len : Nat)
  | getLineAndPop
  | clear

/-- A call on a buffer: the bytes it returns, if any, and the buffer afterwards; `none` when an
assertion fails. -/
def call : Refinement.Impl Buffer Op Bytes
  | b, .writeAndPush data => (b.writeAndPush data).map ([], ·)
  | b, .writeStringAndPush data => (b.writeStringAndPush data).map ([], ·)
  | b, .writeBufferAndPush data => (b.writeBufferAndPush data.val).map ([], ·)
  | b, .readAndPop len => b.readAndPop len
  | b, .readAsStringAndPop len => b.readAsStringAndPop len
  | b, .moveReadOffset len => (b.moveReadOffset len).map ([], ·)
  | b, .getLineAndPop => b.getLineAndPop
  | b, .clear => some ([], b.clear)

/-- The caller asks for no more than there is. -/
def Op.Readable (b : Buffer) : Op → Prop
  | .readAndPop len | .readAsStringAndPop len | .moveReadOffset len => len ≤ b.readAbleSize
  | _ => True

instance (b : Buffer) (op : Op) : Decidable (op.Readable b) := by
  cases op <;> unfold Op.Readable <;> infer_instance

/-- The bytes that a call puts in at the back. -/
def Op.pushed : Op → Bytes
  | .writeAndPush data | .writeStringAndPush data => data
  | .writeBufferAndPush data => data.val.content
  | _ => []

/-- The bytes that a call takes off the front of a queue. -/
def Op.popped (queue : Bytes) : Op → Bytes
  | .readAndPop len | .readAsStringAndPop len | .moveReadOffset len => queue.take len
  | .getLineAndPop => firstLine queue
  | .clear => queue
  | _ => []

/-- Whether a call returns the bytes it takes off. -/
def Op.returns : Op → Bool
  | .readAndPop _ | .readAsStringAndPop _ | .getLineAndPop => true
  | _ => false

/-- A call on a queue of bytes: what it returns, and the queue afterwards. -/
def queueCall : Refinement.Spec Bytes Op Bytes := fun queue op =>
  (if op.returns then op.popped queue else [],
    queue.drop (op.popped queue).length ++ op.pushed)

/-- The readable bytes of a buffer are the queue.  This is the relation of the refinement, and it
says nothing of the rest of the vector. -/
def Holds (b : Buffer) (queue : Bytes) : Prop := b.Valid ∧ b.content = queue

theorem drop_length_take (queue : Bytes) (len : Nat) :
    queue.drop (queue.take len).length = queue.drop len := by
  rw [List.length_take]
  rcases Nat.le_total len queue.length with hle | hge
  · rw [Nat.min_eq_left hle]
  · rw [Nat.min_eq_right hge, List.drop_length, List.drop_eq_nil_of_le hge]

/-- **A buffer refines a queue of bytes**, call by call. -/
theorem buffer_refines :
    Refinement.Refines call queueCall Holds (fun b op => op.Readable b) where
  step := by
    rintro b queue op ⟨hvalid, rfl⟩ hread
    have hpush : ∀ data, (∃ b', b.writeAndPush data = some b' ∧ b'.Valid ∧
        b'.content = b.content ++ data) → ∃ b', (b.writeAndPush data).map (([] : Bytes), ·) =
          some ([], b') ∧ Holds b' (b.content.drop (([] : Bytes)).length ++ data) := by
      rintro data ⟨b', hcall, hvalid', hcontent⟩
      exact ⟨b', by rw [hcall, Option.map_some], hvalid', hcontent⟩
    cases op with
    | writeAndPush data => exact hpush data (writeAndPush_spec hvalid data)
    | writeStringAndPush data => exact hpush data (writeAndPush_spec hvalid data)
    | writeBufferAndPush data =>
      have hwrite := hpush data.val.content (writeAndPush_spec hvalid data.val.content)
      rwa [← writeBufferAndPush_eq b data.property] at hwrite
    | readAndPop len =>
      obtain ⟨b', hcall, hvalid', hcontent⟩ := readAndPop_spec hvalid hread
      refine ⟨b', hcall, hvalid', ?_⟩
      rw [hcontent, ← drop_length_take]
      exact (List.append_nil _).symm
    | readAsStringAndPop len =>
      obtain ⟨b', hcall, hvalid', hcontent⟩ := readAndPop_spec hvalid hread
      refine ⟨b', (readAsStringAndPop_eq b len).trans hcall, hvalid', ?_⟩
      rw [hcontent, ← drop_length_take]
      exact (List.append_nil _).symm
    | moveReadOffset len =>
      obtain ⟨b', hcall, hvalid', hcontent⟩ := moveReadOffset_spec hvalid hread
      refine ⟨b', by rw [call, hcall]; rfl, hvalid', ?_⟩
      rw [hcontent, ← drop_length_take]
      exact (List.append_nil _).symm
    | getLineAndPop =>
      obtain ⟨b', hcall, hvalid', hcontent⟩ := getLineAndPop_spec hvalid
      exact ⟨b', hcall, hvalid', hcontent.trans (List.append_nil _).symm⟩
    | clear =>
      refine ⟨b.clear, rfl, ⟨Nat.le_refl 0, Nat.zero_le _⟩, ?_⟩
      rw [queueCall, Op.popped, List.drop_length]
      rfl

/-- The bytes that a run takes off a queue. -/
def poppedBytes : Bytes → List Op → Bytes
  | _, [] => []
  | queue, op :: ops => op.popped queue ++ poppedBytes (queueCall queue op).2 ops

theorem popped_append_drop (queue : Bytes) (op : Op) :
    op.popped queue ++ queue.drop (op.popped queue).length = queue := by
  have hline : firstLine queue ++ queue.drop (firstLine queue).length = queue := by
    unfold firstLine
    split
    · rfl
    · rw [drop_length_take, List.take_append_drop]
  cases op with
  | readAndPop len | readAsStringAndPop len | moveReadOffset len =>
    rw [Op.popped, drop_length_take, List.take_append_drop]
  | getLineAndPop => exact hline
  | clear => rw [Op.popped, List.drop_length, List.append_nil]
  | _ => rfl

/-- **A queue loses and invents nothing**: what was in it and what was written is what was taken
off and what is left, in this order. -/
theorem queue_conserves (queue : Bytes) (ops : List Op) :
    queue ++ ops.flatMap Op.pushed =
      poppedBytes queue ops ++ (Refinement.Spec.run queueCall queue ops).2 := by
  induction ops generalizing queue with
  | nil => simp [poppedBytes, Refinement.Spec.run]
  | cons op ops ih =>
    have hrest := ih (queueCall queue op).2
    rw [List.flatMap_cons, poppedBytes, List.append_assoc]
    calc queue ++ (op.pushed ++ ops.flatMap Op.pushed)
        = op.popped queue ++ ((queueCall queue op).2 ++ ops.flatMap Op.pushed) := by
          rw [queueCall, List.append_assoc, ← List.append_assoc (op.popped queue),
            popped_append_drop]
      _ = op.popped queue ++ (poppedBytes (queueCall queue op).2 ops ++
            (Refinement.Spec.run queueCall queue (op :: ops)).2) := by
          rw [hrest]
          rfl

/-- **A buffer is a queue of bytes.**  Take any calls that ask for no more than there is.  None
of them fails an assertion; they return what the calls on a queue return; the offsets are in order
and inside the vector; and the readable bytes are the bytes written without the bytes popped. -/
theorem buffer_fifo (ops : List Op)
    (h : Transition.Along (Refinement.Impl.next call) (fun b op => op.Readable b) new ops) :
    ∃ b, Refinement.Impl.run call new ops =
        some ((Refinement.Spec.run queueCall [] ops).1, b) ∧
      b.Valid ∧ ops.flatMap Op.pushed = poppedBytes [] ops ++ b.content := by
  have hnew : Holds new [] := ⟨valid_new, rfl⟩
  obtain ⟨b, hrun, hvalid, hcontent⟩ := buffer_refines.run hnew h
  refine ⟨b, hrun, hvalid, ?_⟩
  rw [hcontent, ← queue_conserves, List.nil_append]

set_option maxRecDepth 20000 in
/-- A request line is written, and read in two parts. -/
theorem buffer_fifo_line :
    ∃ b, Refinement.Impl.run call new [.writeAndPush (ByteString.ascii "GET /\n."), .readAndPop 4,
          .getLineAndPop, .moveReadOffset 1] =
        some ([[], ByteString.ascii "GET ", ByteString.ascii "/\n", []], b) ∧
      b.Valid ∧ b.content = [] := by
  obtain ⟨b, hrun, hvalid, hcontent⟩ := buffer_fifo
    [.writeAndPush (ByteString.ascii "GET /\n."), .readAndPop 4, .getLineAndPop,
      .moveReadOffset 1] (by decide)
  exact ⟨b, hrun, hvalid, (List.append_cancel_left hcontent).symm⟩

end Buffer

end OnlineJudge.Net
