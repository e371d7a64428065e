import Jack.Proofs.Sinks

namespace Jack

/-- What a writer can be asked for. -/
inductive WriterRequest where
  | write (instruction : Instruction)
  | flush
deriving DecidableEq, Repr

def WriterRequest.instruction? : WriterRequest → Option Instruction
  | write instruction => some instruction
  | flush => none

/-- The instructions among some requests. -/
def WriterRequest.instructions (requests : List WriterRequest) : List Instruction :=
  requests.filterMap instruction?

namespace Instruction

/-- The lines of instructions, one behind the other. -/
def lines (code : List Instruction) : ByteArray :=
  (String.join (code.map line)).toUTF8

/-- Where each of the lines ends, from a byte on. -/
def lineEnds (start : Nat) : List Instruction → List Nat
  | [] => []
  | instruction :: code =>
    (start + instruction.line.toUTF8.size) ::
      lineEnds (start + instruction.line.toUTF8.size) code

end Instruction

namespace Writer

/-- The writer behind a request, and the error if the request fails. -/
def perform (writer : Writer) : WriterRequest → Writer × Option SinkError
  | .write instruction => writer.write instruction
  | .flush => (writer, writer.flush)

/-- The writer behind some requests. It goes on if one of them fails. -/
def after (writer : Writer) (requests : List WriterRequest) : Writer :=
  requests.foldl (fun writer request => (writer.perform request).1) writer

end Writer

/-- Hands over pieces of a line one after the other, up to the first that is not taken whole. -/
def Sink.writePieces (sink : Sink) : List ByteArray → Sink × Option SinkError
  | [] => (sink, none)
  | piece :: pieces =>
    match sink.write piece with
    | (after, none) => after.writePieces pieces
    | (after, some error) => (after, some error)

/-- A line in pieces is counted behind the last of them. -/
def Writer.writePieces (writer : Writer) (pieces : List ByteArray) : Writer × Option SinkError :=
  match writer.sink.writePieces pieces with
  | (sink, none) => (⟨sink, writer.count + 1⟩, none)
  | (sink, some error) => (⟨sink, writer.count⟩, some error)

namespace Sink

theorem write_empty (sink : Sink) : sink.write .empty = (sink, none) := by
  unfold write
  split
  · rw [ByteArray.append_empty]
  · rw [ByteArray.size_empty, if_pos (Nat.zero_le _), ByteArray.append_empty]

/-- Two pieces are taken as one. -/
theorem write_append (sink : Sink) (first last : ByteArray) :
    sink.write (first ++ last) =
      match sink.write first with
      | (after, none) => after.write last
      | (after, some error) => (after, some error) := by
  obtain ⟨_ | limit, flushFails, held⟩ := sink
  · simp only [write, ByteArray.append_assoc]
  simp only [write, ByteArray.size_append]
  by_cases fits : first.size ≤ limit - held.size
  · have left : limit - (held.size + first.size) = limit - held.size - first.size := by omega
    simp only [if_pos fits, ByteArray.size_append, left]
    by_cases whole : first.size + last.size ≤ limit - held.size
    · rw [if_pos whole, if_pos (by omega), ByteArray.append_assoc]
    · rw [if_neg whole, if_neg (by omega), extract_zero_append, extract_of_size_le fits,
        ByteArray.append_assoc]
  · have none : limit - held.size - first.size = 0 := by omega
    simp only [if_neg fits, if_neg (show ¬first.size + last.size ≤ limit - held.size by omega)]
    rw [extract_zero_append, none, ByteArray.extract_same, ByteArray.append_empty]

theorem writePieces_eq (sink : Sink) (pieces : List ByteArray) :
    sink.writePieces pieces = sink.write (pieces.foldr (· ++ ·) .empty) := by
  induction pieces generalizing sink with
  | nil => exact sink.write_empty.symm
  | cons piece pieces ih =>
    rw [writePieces, List.foldr_cons, write_append]
    rcases sink.write piece with ⟨after, _ | error⟩
    · exact ih after
    · rfl

/-- A sink with a limit that has been given a text. -/
def cutOff (limit : Nat) (flushFails : Bool) (text : ByteArray) : Sink :=
  ⟨some limit, flushFails, text.extract 0 limit⟩

variable {limit : Nat} {flushFails : Bool} {text bytes : ByteArray}

/-- More bytes are taken if they end within the limit. What is held is the front of all in any
case. -/
theorem write_cutOff (inhabited : 0 < bytes.size) :
    (cutOff limit flushFails text).write bytes =
      (cutOff limit flushFails (text ++ bytes),
        if limit < (text ++ bytes).size then some .full else none) := by
  have room : limit - (text.extract 0 limit).size = limit - text.size := by
    rw [ByteArray.size_extract]
    omega
  simp only [write, cutOff, room, extract_zero_append, ByteArray.size_append]
  by_cases exceeds : limit < text.size + bytes.size
  · rw [if_pos exceeds, if_neg (by omega)]
  · have whole : bytes.extract 0 (limit - text.size) = bytes := extract_of_size_le (by omega)
    rw [if_neg exceeds, if_pos (by omega), whole]

/-- What is behind the limit makes no difference. -/
theorem cutOff_append (exceeds : limit ≤ text.size) :
    cutOff limit flushFails (text ++ bytes) = cutOff limit flushFails text := by
  have none : limit - text.size = 0 := Nat.sub_eq_zero_of_le exceeds
  rw [cutOff, extract_zero_append, none, ByteArray.extract_same, ByteArray.append_empty]
  rfl

end Sink

namespace Instruction

theorem size_line_pos (instruction : Instruction) : 0 < instruction.line.toUTF8.size := by
  have size : instruction.line.toUTF8.size = instruction.text.utf8ByteSize + 1 :=
    String.utf8ByteSize_append
  omega

theorem lines_cons (instruction : Instruction) (code : List Instruction) :
    lines (instruction :: code) = instruction.line.toUTF8 ++ lines code :=
  toUTF8_lines_cons instruction code

theorem lines_append (first last : List Instruction) :
    lines (first ++ last) = lines first ++ lines last := by
  rw [lines, List.map_append, String.join_append]
  rfl

theorem lines_concat (code : List Instruction) (instruction : Instruction) :
    lines (code ++ [instruction]) = lines code ++ instruction.line.toUTF8 := by
  rw [lines_append, lines_cons]
  exact congrArg _ ByteArray.append_empty

theorem lineEnds_append (start : Nat) (first last : List Instruction) :
    lineEnds start (first ++ last) =
      lineEnds start first ++ lineEnds (start + (lines first).size) last := by
  induction first generalizing start with
  | nil => rfl
  | cons instruction first ih =>
    rw [List.cons_append, lineEnds, lineEnds, ih, lines_cons, ByteArray.size_append,
      ← Nat.add_assoc, List.cons_append]

/-- Lines end behind the place where they begin. -/
theorem lt_of_mem_lineEnds {start place : Nat} {code : List Instruction}
    (member : place ∈ lineEnds start code) : start < place := by
  induction code generalizing start with
  | nil => cases member
  | cons instruction code ih =>
    have positive := instruction.size_line_pos
    rcases List.mem_cons.1 member with rfl | later
    · omega
    · have further := ih later
      omega

end Instruction

namespace Writer

variable {limit : Nat} {flushFails : Bool}

/-- A writer that has been asked for the lines of some instructions. -/
def cutOff (limit : Nat) (flushFails : Bool) (code : List Instruction) : Writer where
  sink := .cutOff limit flushFails (Instruction.lines code)
  count := (Instruction.lineEnds 0 code).countP (· ≤ limit)

/-- One more line is counted if it ends within the limit. -/
theorem count_concat (code : List Instruction) (instruction : Instruction) :
    (cutOff limit flushFails (code ++ [instruction])).count =
      (cutOff limit flushFails code).count +
        if limit < (Instruction.lines (code ++ [instruction])).size then 0 else 1 := by
  have within : (Instruction.lines code).size + instruction.line.toUTF8.size ≤ limit ↔
      ¬limit < (Instruction.lines (code ++ [instruction])).size := by
    rw [Instruction.lines_concat, ByteArray.size_append, Nat.not_lt]
  simp only [cutOff, Instruction.lineEnds_append, Instruction.lineEnds, List.countP_append,
    List.countP_singleton, Nat.zero_add, decide_eq_true_eq, within, ite_not]

theorem write_cutOff (code : List Instruction) (instruction : Instruction) :
    (cutOff limit flushFails code).write instruction =
      (cutOff limit flushFails (code ++ [instruction]),
        if limit < (Instruction.lines (code ++ [instruction])).size then some .full else none) := by
  have later : cutOff limit flushFails (code ++ [instruction]) =
      ⟨.cutOff limit flushFails (Instruction.lines (code ++ [instruction])),
        (cutOff limit flushFails (code ++ [instruction])).count⟩ := rfl
  have sink : (cutOff limit flushFails code).sink =
      .cutOff limit flushFails (Instruction.lines code) := rfl
  rw [later, count_concat, write, sink, Sink.write_cutOff instruction.size_line_pos,
    ← Instruction.lines_concat]
  by_cases exceeds : limit < (Instruction.lines (code ++ [instruction])).size
  · simp only [if_pos exceeds, Nat.add_zero]
  · simp only [if_neg exceeds]

theorem after_cutOff (code : List Instruction) (requests : List WriterRequest) :
    (cutOff limit flushFails code).after requests =
      cutOff limit flushFails (code ++ WriterRequest.instructions requests) := by
  induction requests generalizing code with
  | nil => exact congrArg _ (List.append_nil code).symm
  | cons request requests ih =>
    cases request with
    | write instruction =>
      have step : (cutOff limit flushFails code).after (.write instruction :: requests) =
          ((cutOff limit flushFails code).write instruction).1.after requests := rfl
      rw [step, write_cutOff, ih, List.append_assoc]
      rfl
    | flush => exact ih code

/-- Nothing more comes of a writer that has been asked for more than the limit. -/
theorem cutOff_append {code : List Instruction}
    (exceeds : limit < (Instruction.lines code).size) (more : List Instruction) :
    cutOff limit flushFails (code ++ more) = cutOff limit flushFails code := by
  have none : (Instruction.lineEnds (Instruction.lines code).size more).countP (· ≤ limit) = 0 := by
    refine List.countP_eq_zero.2 fun place member within => ?_
    have behind := Instruction.lt_of_mem_lineEnds member
    have inside := of_decide_eq_true within
    omega
  rw [cutOff, Instruction.lines_append, Sink.cutOff_append exceeds.le, Instruction.lineEnds_append,
    List.countP_append, Nat.zero_add, none]
  rfl

/-- What has come of a writer to a sink with a limit when it has been asked for some writes and
flushes, whether these have failed or not. -/
structure CutsOff (limit : Nat) (flushFails : Bool) (code : List Instruction) (writer : Writer) :
    Prop where
  /-- The sink holds the front of all lines, in order. -/
  held : writer.sink.held = (Instruction.lines code).extract 0 limit
  /-- The lines that end within the limit are counted. -/
  count : writer.count = (Instruction.lineEnds 0 code).countP (· ≤ limit)
  /-- Another line fails exactly if it ends beyond the limit. -/
  write : ∀ instruction, (writer.write instruction).2 =
    if limit < (Instruction.lines (code ++ [instruction])).size then some .full else none
  /-- Flushing may fail, but it changes nothing. -/
  flush : writer.perform .flush = (writer, if flushFails then some .flush else none)
  /-- When a line has failed, it is not counted, all that come later fail, and whatever comes later
  changes nothing. -/
  closed : ∀ instruction failed error, writer.write instruction = (failed, some error) →
    failed.count = writer.count ∧
      ∀ requests next, failed.after requests = failed ∧ failed.write next = (failed, some .full)

theorem cutsOff_cutOff (code : List Instruction) :
    CutsOff limit flushFails code (cutOff limit flushFails code) := by
  refine ⟨rfl, rfl, fun instruction => ?_, rfl, fun instruction failed error wrote => ?_⟩
  · rw [write_cutOff]
  · rw [write_cutOff] at wrote
    obtain ⟨rfl, isError⟩ := Prod.mk.inj wrote
    have exceeds : limit < (Instruction.lines (code ++ [instruction])).size := by
      by_contra within
      rw [if_neg within] at isError
      cases isError
    refine ⟨?_, fun requests next => ⟨?_, ?_⟩⟩
    · rw [count_concat, if_pos exceeds, Nat.add_zero]
    · rw [after_cutOff, cutOff_append exceeds]
    · have beyond : limit < (Instruction.lines (code ++ [instruction] ++ [next])).size := by
        rw [Instruction.lines_append, ByteArray.size_append]
        exact Nat.lt_add_right _ exceeds
      rw [write_cutOff, cutOff_append exceeds, if_pos beyond]

theorem ofSink_eq (limit : Nat) (flushFails : Bool) :
    ofSink ⟨some limit, flushFails, .empty⟩ = cutOff limit flushFails [] := by
  have nothing : (Instruction.lines []).extract 0 limit = .empty :=
    extract_of_size_le (Nat.zero_le limit)
  rw [cutOff, Sink.cutOff, nothing]
  rfl

/-- Whatever a writer is asked for, its sink holds the front of all lines up to the limit, and it
makes no difference in which pieces the lines are handed over. -/
theorem after_cutsOff (limit : Nat) (flushFails : Bool) :
    (∀ requests, CutsOff limit flushFails (WriterRequest.instructions requests)
      ((ofSink ⟨some limit, flushFails, .empty⟩).after requests)) ∧
    ∀ (writer : Writer) (instruction : Instruction) (pieces : List ByteArray),
      pieces.foldr (· ++ ·) .empty = instruction.line.toUTF8 →
      writer.writePieces pieces = writer.write instruction := by
  refine ⟨fun requests => ?_, fun writer instruction pieces whole => ?_⟩
  · rw [ofSink_eq, after_cutOff, List.nil_append]
    exact cutsOff_cutOff _
  · rw [writePieces, Sink.writePieces_eq, whole]
    rfl

/-- One line fits, the next one is cut off, and a shorter one behind it comes too late. -/
theorem after_cutsOff_torn : ∃ requests writer,
    requests = [.write (.push .constant 7), .flush, .write .ret, .write (.operate .or)] ∧
      (ofSink ⟨some 20, true, .empty⟩).after requests = writer ∧
      CutsOff 20 true [.push .constant 7, .ret, .operate .or] writer ∧
      writer.sink.held = "push constant 7\nretu".toUTF8 ∧ writer.count = 1 ∧
      writer.writePieces ["if".toUTF8, "-goto x".toUTF8, "\n".toUTF8] =
        writer.write (.ifGoto "x") := by
  have cutsOff := (after_cutsOff 20 true).1
    [.write (.push .constant 7), .flush, .write .ret, .write (.operate .or)]
  refine ⟨_, _, rfl, rfl, cutsOff, cutsOff.held.trans ?_, cutsOff.count.trans ?_,
    (after_cutsOff 20 true).2 _ _ _ ?_⟩
  · decide +kernel
  · decide +kernel
  · decide +kernel

end Writer

end Jack
