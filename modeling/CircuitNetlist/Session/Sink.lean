import CircuitNetlist.Fault

/-!
# Sinks

A sink takes bytes in order. One with a capacity keeps the part of a write that still fits and
refuses the write if anything is left of it; a write of no bytes always fits.
-/
namespace CircuitNetlist

structure Sink where
  content : ByteArray := .empty
  /-- How many bytes the sink takes, if it has a limit. -/
  capacity : Option Nat := none
  flushFails : Bool := false

namespace Sink

/-- The part of some bytes that still fits. -/
def fitting (s : Sink) (bytes : ByteArray) : ByteArray :=
  match s.capacity with
  | none => bytes
  | some capacity => bytes.extract 0 (capacity - s.content.size)

/-- Writes a text, and says what went wrong. -/
def write (s : Sink) (text : String) : Sink × Option OutputFault :=
  let bytes := text.toUTF8
  let kept := s.fitting bytes
  ({ s with content := s.content ++ kept },
    if kept.size < bytes.size then some .sinkFull else none)

/-- What a flush says. -/
def flush (s : Sink) : Option OutputFault :=
  if s.flushFails then some .flushFailed else none

end Sink

end CircuitNetlist
