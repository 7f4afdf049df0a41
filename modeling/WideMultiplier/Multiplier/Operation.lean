import WideMultiplier.Multiplier.Phases
import WideMultiplier.Multiplier.Snapshot

/-!
# Operations

Everything a host can do with a multiplier, as a value, so that a history is a list of operations.
`Operation.apply` carries an operation out over a bus: it gives the multiplier and the bus after it,
the answer, and the events that were reported.
-/

namespace WideMultiplier

/-- A request of the host. -/
inductive Operation where
  | reset
  | start
  | issue (base : UInt64)
  | advance
  | run
  | load (operands : Operands)
  | loadBytes (a b : List UInt8)
  | beginLoad (baseA baseB : UInt64)
  | loadCycle
  | writeBackCycle
  | markWritten
  | snapshot
  | restore (image : Snapshot)

/-- What the host is told. -/
inductive Answer where
  /-- The operation has no result. -/
  | done
  /-- What an advance did. -/
  | advanced (outcome : Outcome)
  /-- The number of advances made, and the counters after them. -/
  | ran (advances : Nat) (counters : Counters)
  /-- Whether a request was accepted. -/
  | checked (result : Except Fault Unit)
  /-- The flag of a transfer phase, or a fault. -/
  | moved (result : Except Fault Bool)
  /-- A snapshot that was taken. -/
  | captured (snapshot : Snapshot)

/-- The result of an operation. -/
structure Applied (σ : Type) where
  multiplier : Multiplier
  bus : σ
  answer : Answer
  events : List Event

namespace Operation

/-- The result of an operation that leaves the bus alone and always succeeds. -/
def succeed {σ : Type} (bus : σ) (multiplier : Multiplier) : Applied σ :=
  ⟨multiplier, bus, .done, []⟩

/-- The result of an operation that leaves the bus alone and may be refused. -/
def check {σ : Type} (bus : σ) (multiplier : Multiplier) :
    Except Fault Multiplier → Applied σ
  | .ok changed => ⟨changed, bus, .checked (.ok ()), []⟩
  | .error fault => ⟨multiplier, bus, .checked (.error fault), []⟩

/-- The result of a cycle of a transfer phase. -/
def move {σ : Type} (moved : Moved σ) : Applied σ :=
  ⟨moved.multiplier, moved.bus, .moved moved.result, moved.events⟩

/-- Carries an operation out. -/
def apply {σ : Type} [LimbBus σ] (multiplier : Multiplier) (bus : σ) : Operation → Applied σ
  | .reset => succeed bus multiplier.reset
  | .start => succeed bus multiplier.start
  | .issue base => succeed bus (multiplier.issue base)
  | .advance =>
    let advanced := multiplier.advance
    ⟨advanced.multiplier, bus, .advanced advanced.outcome, advanced.events⟩
  | .run =>
    let ran := multiplier.run
    ⟨ran.multiplier, bus, .ran ran.advances ran.multiplier.pipeline.counters, []⟩
  | .load operands => succeed bus (multiplier.load operands)
  | .loadBytes a b => check bus multiplier (multiplier.loadBytes a b)
  | .beginLoad baseA baseB => succeed bus (multiplier.beginLoad baseA baseB)
  | .loadCycle => move (multiplier.loadCycle bus)
  | .writeBackCycle => move (multiplier.writeBackCycle bus)
  | .markWritten => succeed bus multiplier.markWritten
  | .snapshot => ⟨multiplier, bus, .captured multiplier.snapshot, []⟩
  | .restore image => check bus multiplier (multiplier.restore image)

end Operation

end WideMultiplier
