import WideMultiplier.Listing

/-!
# Writing to a sink

A sink takes bytes until it is full. An offer that does not fit is taken as far as there is room,
and the rest is offered again; a full sink refuses. Writing stops at the first refusal, so that what
the sink has taken is always a first part of the text.
-/

namespace WideMultiplier

/-- A text that a sink did not take in full, with the reason it gave. -/
structure SinkFault where
  reason : String
deriving DecidableEq

/-- The text of a sink fault. -/
def SinkFault.message (fault : SinkFault) : String :=
  "write failed: " ++ fault.reason

/-- A sink with room for a number of bytes: the bytes taken, the room left, how many offers it has
refused, and the reason that it gives when it is full. -/
structure Sink where
  taken : List UInt8
  room : Nat
  refusals : Nat
  fault : SinkFault
deriving DecidableEq

namespace Sink

/-- The reason that a full disk gives. -/
def full : SinkFault :=
  ⟨"disk full"⟩

/-- An empty sink on a disk. -/
def ofRoom (room : Nat) : Sink :=
  ⟨[], room, 0, full⟩

/-- Offers bytes: the number of bytes taken, which is not zero, or a refusal. -/
def offer (sink : Sink) (bytes : List UInt8) : Except SinkFault Nat × Sink :=
  if sink.room = 0 then (.error sink.fault, { sink with refusals := sink.refusals + 1 })
  else
    let count := min sink.room bytes.length
    (.ok count, { sink with taken := sink.taken ++ bytes.take count, room := sink.room - count })

/-- The reason that is given when an offer is accepted but nothing of it is taken. -/
def stalled : SinkFault :=
  ⟨"failed to write whole buffer"⟩

/-- Offers bytes until all are taken or an offer is refused. -/
def writeAll (sink : Sink) : List UInt8 → Except SinkFault Unit × Sink
  | [] => (.ok (), sink)
  | byte :: rest =>
    match sink.offer (byte :: rest) with
    | (.error fault, after) => (.error fault, after)
    | (.ok 0, after) => (.error stalled, after)
    | (.ok (count + 1), after) => after.writeAll (rest.drop count)
termination_by bytes => bytes.length
decreasing_by
  simp only [List.length_drop, List.length_cons]
  omega

/-- Writes pieces of text one after the other and stops at the first that is refused. -/
def writePieces (sink : Sink) : List String → Except SinkFault Unit × Sink
  | [] => (.ok (), sink)
  | piece :: rest =>
    match sink.writeAll piece.toUTF8.toList with
    | (.error fault, sink) => (.error fault, sink)
    | (.ok (), sink) => writePieces sink rest

/-- Writes the listing of a pair of factors. -/
def writeListing (sink : Sink) (operands : Operands) : Except SinkFault Unit × Sink :=
  sink.writePieces (Listing.pieces operands)

end Sink

end WideMultiplier
