import Jack.Vm.Instruction

namespace Jack

inductive SinkError where
  | full
  | flush
deriving DecidableEq, Repr

def SinkError.message : SinkError → String
  | full => "sink full"
  | flush => "flush failed"

/-- A sink of bytes. One without a capacity takes everything. -/
structure Sink where
  capacity : Option Nat
  flushFails : Bool
  held : ByteArray

namespace Sink

def unlimited : Sink :=
  ⟨none, false, .empty⟩

/-- Takes the bytes for which there is room, and fails if there is not room for all. -/
def write (sink : Sink) (bytes : ByteArray) : Sink × Option SinkError :=
  match sink.capacity with
  | none => ({ sink with held := sink.held ++ bytes }, none)
  | some capacity =>
    let room := capacity - sink.held.size
    if bytes.size ≤ room then ({ sink with held := sink.held ++ bytes }, none)
    else ({ sink with held := sink.held ++ bytes.extract 0 room }, some .full)

def flush (sink : Sink) : Option SinkError :=
  if sink.flushFails then some .flush else none

end Sink

/-- A sink for instructions that counts those written as a whole. -/
structure Writer where
  sink : Sink
  count : Nat

namespace Writer

def ofSink (sink : Sink) : Writer :=
  ⟨sink, 0⟩

def write (writer : Writer) (instruction : Instruction) : Writer × Option SinkError :=
  match writer.sink.write instruction.line.toUTF8 with
  | (sink, none) => (⟨sink, writer.count + 1⟩, none)
  | (sink, some error) => (⟨sink, writer.count⟩, some error)

def flush (writer : Writer) : Option SinkError :=
  writer.sink.flush

end Writer

end Jack
