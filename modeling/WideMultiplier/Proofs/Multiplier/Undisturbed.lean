import WideMultiplier.Proofs.Multiplier.Recording
import WideMultiplier.Proofs.Multiplier.RunLength

/-!
# Runs are not disturbed

While a run is under way, transfers, snapshots and snapshots that do not fit are held off: such a
call changes nothing and makes no access to its bus (`Operation.apply_of_heldOff`). So calls of this
kind may come between the advances of a run in any number, and the run is the same as without them:
`Multiplier.Reachable.run_undisturbed`.
-/

namespace WideMultiplier

namespace Operation

/-- Whether an operation is held off while a run is under way: it loads factors, writes the product
back, takes a snapshot, or is to take over a snapshot that does not fit. -/
def HeldOff : Operation → Prop
  | .load _ | .loadBytes _ _ | .beginLoad _ _ | .loadCycle | .writeBackCycle | .markWritten
  | .snapshot => True
  | .restore image => image.validate ≠ .ok ()
  | _ => False

/-- While a run is under way, an operation that is held off touches neither the multiplier nor the
bus and reports nothing. -/
theorem apply_of_heldOff {multiplier : Multiplier}
    (hpending : multiplier.flags.multiplyDone = false)
    (hprogress : multiplier.progress = .running) {operation : Operation} (h : operation.HeldOff)
    {σ : Type} [LimbBus σ] (bus : σ) :
    ∃ answer, operation.apply multiplier bus = ⟨multiplier, bus, answer, []⟩ := by
  have hlocked : multiplier.progress.isRunning = true := by
    rw [hprogress]
    rfl
  cases operation with
  | load operands => exact ⟨.done, by simp [apply, succeed, Multiplier.load, hlocked]⟩
  | loadBytes a b =>
      exact ⟨.checked (.ok ()), by simp [apply, check, Multiplier.loadBytes, hlocked]⟩
  | beginLoad baseA baseB =>
      exact ⟨.done, by simp [apply, succeed, Multiplier.beginLoad, hlocked]⟩
  | loadCycle =>
      rw [apply, Multiplier.loadCycle_of_idle (.inr hprogress)]
      exact ⟨_, rfl⟩
  | writeBackCycle =>
      rw [apply, Multiplier.writeBackCycle_of_idle (.inr hpending)]
      exact ⟨_, rfl⟩
  | markWritten => exact ⟨.done, by simp [apply, succeed, Multiplier.markWritten, hpending]⟩
  | snapshot => exact ⟨_, rfl⟩
  | restore image =>
      -- a snapshot that does not fit is refused before anything is taken over
      cases hvalid : image.validate with
      | error fault =>
          exact ⟨.checked (.error fault),
            by simp [apply, check, Multiplier.restore_of_error hvalid]⟩
      | ok => exact absurd hvalid h
  | _ => exact h.elim

end Operation

/-- The accesses that a call makes to its bus, in order. -/
def HostCall.accesses (multiplier : Multiplier) (call : HostCall) : List Access :=
  (call.operation.apply multiplier (Recorder.ofBus call.bus)).bus.accesses

namespace Multiplier

/-- Whether each call among some that runs hold off is indeed held off where it comes: it changes
nothing, makes no access to its bus and reports nothing. -/
def HoldsOff (multiplier : Multiplier) : List HostCall → Prop
  | [] => True
  | call :: rest =>
    (call.operation.HeldOff →
        multiplier.serve call = multiplier ∧ call.accesses multiplier = [] ∧
          (call.operation.apply multiplier call.bus).events = []) ∧
      HoldsOff (multiplier.serve call) rest

/-- The outcomes of the advances among some calls, in order. -/
def outcomes (multiplier : Multiplier) : List HostCall → List Outcome
  | [] => []
  | call :: rest =>
    match call.operation with
    | .advance => multiplier.advance.outcome :: outcomes (multiplier.serve call) rest
    | _ => outcomes (multiplier.serve call) rest

section Interspersed

variable {σ : Type} [LimbBus σ] (bus : σ)

/-- An advance behind each of some lists of calls. -/
def interspersed (gaps : List (List HostCall)) : List HostCall :=
  gaps.flatMap fun gap => gap ++ [.over bus .advance]

/-- So many advances, with nothing between them. -/
def advances (count : Nat) : List HostCall :=
  List.replicate count (.over bus .advance)

theorem serveAll_advances (multiplier : Multiplier) (count : Nat) :
    multiplier.serveAll (advances bus count) = multiplier.afterAdvances count := by
  induction count generalizing multiplier with
  | zero => rfl
  | succ count ih =>
      rw [afterAdvances_succ, ← ih]
      rfl

end Interspersed

variable {config : Config} {unit : Multiplier}

/-- A run under way holds calls off, one after the other. -/
theorem holdsOff_gap (hpending : unit.flags.multiplyDone = false)
    (hprogress : unit.progress = .running) {gap : List HostCall}
    (hgap : ∀ call ∈ gap, call.operation.HeldOff) (rest : List HostCall) :
    (unit.HoldsOff rest → unit.HoldsOff (gap ++ rest)) ∧
      unit.outcomes (gap ++ rest) = unit.outcomes rest ∧
      unit.serveAll gap = unit := by
  induction gap with
  | nil => exact ⟨id, rfl, rfl⟩
  | cons call gap ih =>
      have hheld : call.operation.HeldOff := hgap call List.mem_cons_self
      have hserve : unit.serve call = unit := by
        obtain ⟨answer, happly⟩ :=
          Operation.apply_of_heldOff hpending hprogress hheld call.bus
        rw [serve, happly]
      have haccesses : call.accesses unit = [] := by
        obtain ⟨answer, happly⟩ :=
          Operation.apply_of_heldOff hpending hprogress hheld (Recorder.ofBus call.bus)
        rw [HostCall.accesses, happly]
        rfl
      have hevents : (call.operation.apply unit call.bus).events = [] := by
        obtain ⟨answer, happly⟩ :=
          Operation.apply_of_heldOff hpending hprogress hheld call.bus
        rw [happly]
      obtain ⟨hrest, houtcomes, hsame⟩ :=
        ih fun other hother => hgap other (List.mem_cons_of_mem _ hother)
      refine ⟨fun hafter => ⟨fun _ => ⟨hserve, haccesses, hevents⟩, ?_⟩, ?_, ?_⟩
      · rw [hserve]
        exact hrest hafter
      · rw [← houtcomes, List.cons_append, outcomes, hserve]
        split
        · next hadvance =>
            rw [hadvance] at hheld
            exact hheld.elim
        · rfl
      · rw [serveAll_cons, hserve, hsame]

/-- Calls that a run holds off make no difference between its advances. -/
theorem WellFormed.interspersed (h : WellFormed config unit)
    (hrunning : unit.flags.multiplyDone = false → unit.progress = .running) {σ : Type} [LimbBus σ]
    (bus : σ) {gaps : List (List HostCall)}
    (hheld : ∀ gap ∈ gaps, ∀ call ∈ gap, call.operation.HeldOff)
    (hends : gaps.length ≤ unit.advancesLeft) :
    unit.HoldsOff (Multiplier.interspersed bus gaps) ∧
      unit.outcomes (Multiplier.interspersed bus gaps) = unit.outcomes (advances bus gaps.length) ∧
      unit.serveAll (Multiplier.interspersed bus gaps) =
        unit.serveAll (advances bus gaps.length) := by
  induction gaps generalizing unit with
  | nil => exact ⟨trivial, rfl, rfl⟩
  | cons gap gaps ih =>
      rw [List.length_cons] at hends
      -- an advance is left, so the run is still pending when the calls of this gap come
      have hpending : unit.flags.multiplyDone = false := by
        rw [Bool.eq_false_iff]
        intro hdone
        rw [h.advancesLeft_eq_zero_iff.mpr hdone] at hends
        omega
      have hleft := h.advancesLeft_advance hpending
      obtain ⟨hrest, houtcomes, hsame⟩ :=
        ih h.advance advance_progress
          (fun other hother => hheld other (List.mem_cons_of_mem _ hother)) (by omega)
      obtain ⟨hgap, hgapOutcomes, hgapSame⟩ := holdsOff_gap hpending (hrunning hpending)
        (hheld gap List.mem_cons_self) (.over bus .advance :: Multiplier.interspersed bus gaps)
      have hsplit : Multiplier.interspersed bus (gap :: gaps) =
          gap ++ .over bus .advance :: Multiplier.interspersed bus gaps := by
        rw [Multiplier.interspersed, List.flatMap_cons, List.append_assoc]
        rfl
      have hadvances : advances bus (gap :: gaps).length =
          .over bus .advance :: advances bus gaps.length := List.replicate_succ
      rw [hsplit, hadvances]
      refine ⟨hgap ⟨fun hadvance => hadvance.elim, hrest⟩, ?_, ?_⟩
      · rw [hgapOutcomes]
        exact congrArg (unit.advance.outcome :: ·) houtcomes
      · rw [serveAll_append, hgapSame]
        exact hsame

/-- A run that is under way holds off loads, write-backs, snapshots and snapshots that do not fit,
wherever they come between the advances that are left: each of them changes nothing and makes no
access. The advances have the same outcomes and lead to the same multiplier as without them, and
together they come to the end of the run. -/
theorem Reachable.run_undisturbed (h : Reachable config unit) (hrunning : unit.progress = .running)
    {σ : Type} [LimbBus σ] (bus : σ) (gaps : List (List HostCall))
    (hheld : ∀ gap ∈ gaps, ∀ call ∈ gap, call.operation.HeldOff)
    (hends : gaps.length ≤ unit.advancesLeft) :
    unit.HoldsOff (interspersed bus gaps) ∧
      unit.outcomes (interspersed bus gaps) = unit.outcomes (advances bus gaps.length) ∧
      unit.serveAll (interspersed bus gaps) = unit.serveAll (advances bus gaps.length) ∧
      (gaps.length = unit.advancesLeft →
        unit.serveAll (interspersed bus gaps) = unit.run.multiplier ∧
          (unit.serveAll (interspersed bus gaps)).flags.multiplyDone = true) := by
  have hformed := h.wellFormed
  obtain ⟨hholds, houtcomes, hsame⟩ :=
    hformed.interspersed (fun _ => hrunning) bus hheld hends
  refine ⟨hholds, houtcomes, hsame, fun hall => ?_⟩
  have hrun : unit.serveAll (interspersed bus gaps) = unit.run.multiplier := by
    rw [hsame, serveAll_advances, hall, run, hformed.runWithin_eq hformed.advancesLeft_le]
  rw [hrun]
  exact ⟨rfl, run_multiplyDone hformed.consistent⟩

/-- The calls that come before each advance of `Reachable.run_undisturbed_delayQueue`: images of no
length, a cycle of a write-back, and a snapshot without the limbs of A. -/
def disturbances : List HostCall :=
  [.over (Memory.zero 0) (.loadBytes [] []), .over (Memory.zero 0) .writeBackCycle,
    .over (Memory.zero 0) (.restore { Reachable.halfway with operandA := #[] })]

/-- A run of the default profile comes to its end undisturbed. -/
theorem Reachable.run_undisturbed_delayQueue :
    (idle (.ofProfile .delayQueue)).start.serveAll
        (interspersed (Memory.zero 0) (List.replicate 1002 disturbances)) =
      (idle (.ofProfile .delayQueue)).start.run.multiplier := by
  have hreachable : Reachable (.ofProfile .delayQueue) (idle (.ofProfile .delayQueue)).start :=
    .serve (.create rfl) (.over (Memory.zero 0) .start)
  have hheld : ∀ call ∈ disturbances, call.operation.HeldOff := by
    intro call hcall
    simp only [disturbances, List.mem_cons, List.not_mem_nil, or_false] at hcall
    rcases hcall with rfl | rfl | rfl
    · trivial
    · trivial
    · intro hvalid
      cases hvalid
  have hleft : (idle (.ofProfile .delayQueue)).start.advancesLeft = 1002 := by
    rw [advancesLeft_of_running rfl rfl]
    decide +kernel
  have hends : (List.replicate 1002 disturbances).length =
      (idle (.ofProfile .delayQueue)).start.advancesLeft := by
    rw [List.length_replicate, hleft]
  obtain ⟨-, -, -, hrun⟩ := run_undisturbed hreachable rfl (Memory.zero 0)
    (List.replicate 1002 disturbances)
    (fun gap hgap => (List.eq_of_mem_replicate hgap).symm ▸ hheld) (Nat.le_of_eq hends)
  exact (hrun hends).1

end Multiplier

end WideMultiplier
