import WideMultiplier.Main
import WideMultiplier.Console.Surroundings
import WideMultiplier.Proofs.SchoolbookValue
import WideMultiplier.Sink
import WideMultiplier.Wide.Total
import WideMultiplier.Multiplier.Operation
import WideMultiplier.Proofs.LimbPairs
import WideMultiplier.Proofs.MemoryRegion
import WideMultiplier.Proofs.Pipeline.Stages
import WideMultiplier.Proofs.Pipeline.Conservation
import WideMultiplier.Proofs.Pipeline.Progress
import WideMultiplier.Proofs.Pipeline.Sampling
import WideMultiplier.Proofs.Pipeline.Closing
import WideMultiplier.Proofs.Multiplier.Control
import WideMultiplier.Proofs.Multiplier.History
import WideMultiplier.Proofs.Multiplier.Recording
import WideMultiplier.Proofs.Multiplier.WriteBack
import WideMultiplier.Proofs.Multiplier.Transfers
import WideMultiplier.Proofs.Multiplier.WellFormed
import WideMultiplier.Proofs.Multiplier.Reachable
import WideMultiplier.Proofs.Multiplier.Restoring
import WideMultiplier.Proofs.Multiplier.Converging
import WideMultiplier.Proofs.Multiplier.FaultyMemory
import WideMultiplier.Proofs.Multiplier.Overlap
import WideMultiplier.Proofs.Multiplier.RoundTrip
import WideMultiplier.Proofs.Multiplier.Lockstep
import WideMultiplier.Proofs.Multiplier.Rerun
import WideMultiplier.Proofs.SchoolbookLoops
import WideMultiplier.Proofs.Latency
import WideMultiplier.Proofs.Pipeline.CycleCount
import WideMultiplier.Proofs.Multiplier.RunLength
import WideMultiplier.Proofs.Multiplier.Undisturbed
import WideMultiplier.Proofs.CursorRange
import WideMultiplier.Proofs.Pipeline.Flow
import WideMultiplier.Proofs.Pipeline.Retirement
import WideMultiplier.Proofs.Pipeline.RetireTimes
import WideMultiplier.Proofs.Pipeline.QueueSlots
import WideMultiplier.Proofs.Pipeline.Tally
import WideMultiplier.Proofs.Multiplier.Acceptance
import WideMultiplier.Proofs.Multiplier.Checking
import WideMultiplier.Proofs.Numeral
import WideMultiplier.Proofs.Listing
import WideMultiplier.Proofs.Console.Files
import WideMultiplier.Proofs.Console.Arguments
import WideMultiplier.Proofs.Console.Verification
import WideMultiplier.Proofs.Pipeline.Bounds
import WideMultiplier.Proofs.Pipeline.Narration
import WideMultiplier.Proofs.Multiplier.Trace
import WideMultiplier.Proofs.Sweep
import WideMultiplier.Proofs.Multiplier.Staging
import WideMultiplier.Proofs.Listing.Reading
import WideMultiplier.Proofs.Listing.Edits
import WideMultiplier.Proofs.Listing.DataLines
import WideMultiplier.Proofs.Display
import WideMultiplier.Proofs.MemoryRows
import WideMultiplier.Proofs.Sink
import WideMultiplier.Proofs.RunningSum
import WideMultiplier.Proofs.Numeral.Reading
import WideMultiplier.Proofs.Console.Options
import WideMultiplier.Proofs.Console.Settings
import WideMultiplier.Proofs.Console.CommandLine
