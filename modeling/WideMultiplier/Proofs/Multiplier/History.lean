import WideMultiplier.Memory
import WideMultiplier.Proofs.Multiplier.Control

/-!
# Histories

A history is a list of calls, each an operation with the bus that it is carried out over. In the
history of a multiplier whose run is under way there is a call that began that run, and the factors
have not changed since (`Multiplier.exists_begin_of_running`). So a run that completes has
multiplied the factors that were loaded when it began: `Multiplier.product_of_completed_run`.
-/

namespace WideMultiplier

/-- A call of the host: an operation, and the bus that it is carried out over. -/
structure HostCall where
  σ : Type
  [limbBus : LimbBus σ]
  bus : σ
  operation : Operation

attribute [instance] HostCall.limbBus

/-- An operation over a bus. -/
def HostCall.over {σ : Type} [LimbBus σ] (bus : σ) (operation : Operation) : HostCall :=
  ⟨σ, bus, operation⟩

namespace Multiplier

/-- The multiplier after a call. -/
def serve (multiplier : Multiplier) (call : HostCall) : Multiplier :=
  (call.operation.apply multiplier call.bus).multiplier

/-- The multiplier after some calls, one after the other. -/
def serveAll (multiplier : Multiplier) (calls : List HostCall) : Multiplier :=
  calls.foldl serve multiplier

@[simp] theorem serveAll_nil (multiplier : Multiplier) : multiplier.serveAll [] = multiplier := rfl

@[simp] theorem serveAll_cons (multiplier : Multiplier) (call : HostCall) (rest : List HostCall) :
    multiplier.serveAll (call :: rest) = (multiplier.serve call).serveAll rest := rfl

@[simp] theorem serveAll_append (multiplier : Multiplier) (first second : List HostCall) :
    multiplier.serveAll (first ++ second) = (multiplier.serveAll first).serveAll second :=
  List.foldl_append

/-- Requests keep a multiplier consistent. -/
theorem Consistent.serveAll {multiplier : Multiplier} (h : Consistent multiplier)
    (calls : List HostCall) : Consistent (multiplier.serveAll calls) := by
  induction calls generalizing multiplier with
  | nil => exact h
  | cons call rest ih => exact ih (h.apply call.bus call.operation)

/-- Advancing to the end of a run is nothing but advancing so often. -/
theorem run_eq_serveAll {σ : Type} [LimbBus σ] (bus : σ) (multiplier : Multiplier) :
    multiplier.run.multiplier =
      multiplier.serveAll (List.replicate multiplier.run.advances (.over bus .advance)) := by
  have hrun : ∀ budget (multiplier : Multiplier), (multiplier.runWithin budget).multiplier =
      multiplier.serveAll
        (List.replicate (multiplier.runWithin budget).advances (.over bus .advance)) := by
    intro budget
    induction budget with
    | zero =>
        intro multiplier
        rfl
    | succ budget ih =>
        intro multiplier
        cases hdone : multiplier.flags.multiplyDone with
        | true => simp [runWithin, hdone]
        | false =>
            simp only [runWithin, hdone, Bool.false_eq_true, if_false, List.replicate_succ,
              serveAll_cons]
            exact ih multiplier.advance.multiplier
  exact hrun advanceBudget multiplier

/-- Whether no call among some begins a run. -/
def NoneBegins (multiplier : Multiplier) : List HostCall → Prop
  | [] => True
  | call :: rest =>
    ¬ call.operation.Begins multiplier ∧ NoneBegins (multiplier.serve call) rest

theorem noneBegins_append {multiplier : Multiplier} {first second : List HostCall} :
    multiplier.NoneBegins (first ++ second) ↔
      multiplier.NoneBegins first ∧ (multiplier.serveAll first).NoneBegins second := by
  induction first generalizing multiplier with
  | nil => simp [NoneBegins]
  | cons call rest ih => simp [NoneBegins, ih, and_assoc]

/-- The beginning of a history's last run: calls before it, the call that began it, and calls behind
it that did not begin another. -/
structure LastBegin (multiplier : Multiplier) (history before : List HostCall) (starter : HostCall)
    (after : List HostCall) : Prop where
  history_eq : history = before ++ starter :: after
  begins : starter.operation.Begins (multiplier.serveAll before)
  none_later : (multiplier.serveAll (before ++ [starter])).NoneBegins after

namespace LastBegin

variable {multiplier : Multiplier} {history before after : List HostCall} {starter : HostCall}

/-- A call that begins a run is the beginning of the last one. -/
theorem of_begins (h : starter.operation.Begins (multiplier.serveAll history)) :
    LastBegin multiplier (history ++ [starter]) history starter [] :=
  ⟨rfl, h, trivial⟩

/-- A call that does not begin a run leaves the last beginning where it was. -/
theorem snoc (h : LastBegin multiplier history before starter after) {call : HostCall}
    (hcall : ¬ call.operation.Begins (multiplier.serveAll history)) :
    LastBegin multiplier (history ++ [call]) before starter (after ++ [call]) := by
  refine ⟨by simp [h.history_eq], h.begins, noneBegins_append.mpr ⟨h.none_later, ?_, trivial⟩⟩
  rw [← serveAll_append, List.append_assoc, List.singleton_append, ← h.history_eq]
  exact hcall

end LastBegin

/-- A run that is under way began somewhere in the history, on the factors that are still loaded. -/
theorem exists_begin_of_running {multiplier : Multiplier} (h : Consistent multiplier)
    (hidle : multiplier.progress = .notStarted) (history : List HostCall)
    (hrunning : (multiplier.serveAll history).progress = .running) :
    ∃ before starter after, LastBegin multiplier history before starter after ∧
      (multiplier.serveAll history).operands = (multiplier.serveAll before).operands := by
  induction history using List.reverseRecOn with
  | nil =>
      rw [serveAll_nil, hidle] at hrunning
      cases hrunning
  | append_singleton history call ih =>
      rw [serveAll_append] at hrunning ⊢
      obtain ⟨hsource, hoperands⟩ := Operation.apply_of_running (h.serveAll history) call.bus
        call.operation hrunning
      have hkept : ((multiplier.serveAll history).serveAll [call]).operands =
          (multiplier.serveAll history).operands := hoperands
      by_cases hbegins : call.operation.Begins (multiplier.serveAll history)
      · exact ⟨history, call, [], .of_begins hbegins, hkept⟩
      · -- the call left a run under way that had begun before it
        have hbefore := hsource.resolve_left hbegins
        obtain ⟨before, starter, after, hlast, hsame⟩ := ih hbefore
        exact ⟨before, starter, after ++ [call], hlast.snoc hbegins, hkept.trans hsame⟩

end Multiplier

/-! ## Completed runs -/

namespace Operation

/-- Whether an operation completes a run: an advance that answers so, or advancing a pending run to
its end. -/
def Completes (multiplier : Multiplier) : Operation → Prop
  | .advance => ∃ cycles, multiplier.advance.outcome = .completed cycles
  | .run => multiplier.flags.multiplyDone = false
  | _ => False

instance (multiplier : Multiplier) (operation : Operation) :
    Decidable (operation.Completes multiplier) :=
  match operation with
  | .advance =>
    match h : multiplier.advance.outcome with
    | .completed cycles => isTrue ⟨cycles, h⟩
    | .idle | .started | .cycle _ => isFalse (by simp [Completes, h])
  | .run => inferInstanceAs (Decidable (multiplier.flags.multiplyDone = false))
  | .reset | .start | .issue _ | .load _ | .loadBytes _ _ | .beginLoad _ _ | .loadCycle
  | .writeBackCycle | .markWritten | .snapshot | .restore _ => isFalse id

/-- An operation that completes a run either took it up or began it itself. -/
theorem running_or_begins_of_completes {multiplier : Multiplier} {operation : Operation}
    (h : operation.Completes multiplier) :
    multiplier.progress = .running ∧ ¬ operation.Begins multiplier ∨
      operation.Begins multiplier := by
  cases operation with
  | advance =>
      obtain ⟨cycles, hcompleted⟩ := h
      cases multiplier.advance_case with
      | completed hpending hprogress hfinished hafter count houtcome =>
          exact .inl ⟨hprogress, by simp [Begins, houtcome]⟩
      | idle hdone hafter houtcome => simp [houtcome] at hcompleted
      | started hpending hprogress hafter houtcome => simp [houtcome] at hcompleted
      | cycle hpending hprogress hfinished hafter closed houtcome => simp [houtcome] at hcompleted
  | run =>
      have hpending : multiplier.flags.multiplyDone = false := h
      cases multiplier.advance_case with
      | idle hdone hafter houtcome => simp [hpending] at hdone
      | started hpending hprogress hafter houtcome => exact .inr houtcome
      | cycle hpending hprogress hfinished hafter closed houtcome =>
          exact .inl ⟨hprogress, by simp [Begins, houtcome]⟩
      | completed hpending hprogress hfinished hafter count houtcome =>
          exact .inl ⟨hprogress, by simp [Begins, houtcome]⟩
  | _ => cases h

end Operation

namespace Multiplier

/-- A multiplier that has just multiplied two factors and is to write the product back behind an
address. -/
structure Multiplied (operands : Operands) (base : UInt64) (multiplier : Multiplier) : Prop where
  multiplyDone : multiplier.flags.multiplyDone = true
  writeDone : multiplier.flags.writeDone = false
  writeOffset : multiplier.transfer.writeOffset = 0
  baseProduct : multiplier.transfer.baseProduct = base
  operands_eq : multiplier.operands = operands
  value : multiplier.product.value = operands.a.value * operands.b.value

/-- An advance of a pending run keeps the factors and the address. If it is the last of the run, it
leaves the product. -/
theorem advance_of_pending {multiplier : Multiplier} (h : Consistent multiplier)
    (hpending : multiplier.flags.multiplyDone = false) :
    multiplier.advance.multiplier.operands = multiplier.operands ∧
      multiplier.advance.multiplier.transfer.baseProduct = multiplier.transfer.baseProduct ∧
      (multiplier.advance.multiplier.flags.multiplyDone = true →
        Multiplied multiplier.operands multiplier.transfer.baseProduct
          multiplier.advance.multiplier) := by
  cases multiplier.advance_case with
  | idle hdone hafter houtcome =>
      rw [hpending] at hdone
      cases hdone
  | started hpending hprogress hafter houtcome =>
      rw [hafter]
      exact ⟨rfl, rfl, fun hdone => by cases hdone⟩
  | cycle hpending hprogress hfinished hafter closed houtcome =>
      rw [hafter]
      refine ⟨rfl, rfl, fun hdone => ?_⟩
      rw [show multiplier.clocked.flags.multiplyDone = false from hpending] at hdone
      cases hdone
  | completed hpending hprogress hfinished hafter cycles houtcome =>
      obtain ⟨count, hrun⟩ := h.running hprogress
      rw [hafter]
      exact ⟨rfl, rfl, fun _ => ⟨rfl, rfl, rfl, rfl, rfl, hrun.value_clocked hfinished⟩⟩

/-- What stays the same while a pending run is advanced, and what its end leaves. -/
structure Advancing (before current : Multiplier) : Prop where
  consistent : Consistent current
  operands : current.operands = before.operands
  baseProduct : current.transfer.baseProduct = before.transfer.baseProduct
  multiplied : current.flags.multiplyDone = true →
    Multiplied before.operands before.transfer.baseProduct current

/-- Advancing a pending run to its end multiplies the factors that are loaded. -/
theorem multiplied_run {multiplier : Multiplier} (h : Consistent multiplier)
    (hpending : multiplier.flags.multiplyDone = false) :
    Multiplied multiplier.operands multiplier.transfer.baseProduct multiplier.run.multiplier := by
  have hstep : ∀ current, Advancing multiplier current → current.flags.multiplyDone = false →
      Advancing multiplier current.advance.multiplier := by
    intro current hcurrent hopen
    have hadvance := advance_of_pending hcurrent.consistent hopen
    rw [hcurrent.operands, hcurrent.baseProduct] at hadvance
    obtain ⟨hoperands, hbase, hdone⟩ := hadvance
    exact ⟨hcurrent.consistent.advance, hoperands, hbase, hdone⟩
  have hstart : Advancing multiplier multiplier := by
    refine ⟨h, rfl, rfl, fun hdone => ?_⟩
    rw [hpending] at hdone
    cases hdone
  have hend : Advancing multiplier multiplier.run.multiplier :=
    runWithin_induction hstep advanceBudget hstart
  exact hend.multiplied (run_multiplyDone h)

/-- An operation that completes a run gives the product of the factors that are loaded. -/
theorem multiplied_of_completes {multiplier : Multiplier} (h : Consistent multiplier)
    {call : HostCall} (hcompletes : call.operation.Completes multiplier) :
    Multiplied multiplier.operands multiplier.transfer.baseProduct (multiplier.serve call) := by
  obtain ⟨σ, bus, operation⟩ := call
  cases operation with
  | advance =>
      obtain ⟨cycles, hcompleted⟩ := hcompletes
      cases multiplier.advance_case with
      | completed hpending hprogress hfinished hafter count houtcome =>
          have hdone : multiplier.advance.multiplier.flags.multiplyDone = true := by
            rw [hafter]
            rfl
          exact (advance_of_pending h hpending).2.2 hdone
      | idle hdone hafter houtcome => simp [houtcome] at hcompleted
      | started hpending hprogress hafter houtcome => simp [houtcome] at hcompleted
      | cycle hpending hprogress hfinished hafter closed houtcome => simp [houtcome] at hcompleted
  | run => exact multiplied_run h hcompletes
  | _ => cases hcompletes

/-- Whatever was asked of a multiplier, and however its runs were aborted, restarted and restored:
when a run completes, the product is that of the factors that were loaded when this run began, and
these are still loaded. -/
theorem product_of_completed_run {config : Config} {unit : Multiplier}
    (hcreate : Multiplier.create config = .ok unit) (history : List HostCall) (last : HostCall)
    (hcompletes : last.operation.Completes (unit.serveAll history)) :
    ∃ before starter after, LastBegin unit (history ++ [last]) before starter after ∧
      (∃ product, (unit.serveAll (history ++ [last])).finishedProduct = some product ∧
        product.value =
          (unit.serveAll before).operands.a.value * (unit.serveAll before).operands.b.value) ∧
      (unit.serveAll (history ++ [last])).operands = (unit.serveAll before).operands := by
  have hconsistent := (Consistent.create hcreate).serveAll history
  have hidle : unit.progress = .notStarted := by
    obtain ⟨-, rfl⟩ := create_of_ok hcreate
    rfl
  have hdone : Multiplied (unit.serveAll history).operands
      (unit.serveAll history).transfer.baseProduct (unit.serveAll (history ++ [last])) := by
    rw [serveAll_append]
    exact multiplied_of_completes hconsistent hcompletes
  have hproduct : (unit.serveAll (history ++ [last])).finishedProduct =
      some (unit.serveAll (history ++ [last])).product := by
    rw [finishedProduct, if_pos hdone.multiplyDone]
  rcases Operation.running_or_begins_of_completes hcompletes with ⟨hrunning, hnot⟩ | hbegins
  · -- the run began before the last call, which did not begin another
    obtain ⟨before, starter, after, hlast, hsame⟩ :=
      exists_begin_of_running (Consistent.create hcreate) hidle history hrunning
    refine ⟨before, starter, after ++ [last], hlast.snoc hnot, ⟨_, hproduct, ?_⟩, ?_⟩
    · rw [hdone.value, hsame]
    · rw [hdone.operands_eq, hsame]
  · exact ⟨history, last, [], .of_begins hbegins, ⟨_, hproduct, hdone.value⟩, hdone.operands_eq⟩

/-- The calls of a host that loads two factors, issues a run and advances it so often. -/
def multiplication (operands : Operands) (base : UInt64) (advances : Nat) : List HostCall :=
  [.over (Memory.zero 0) (.load operands), .over (Memory.zero 0) (.issue base)] ++
    List.replicate advances (.over (Memory.zero 0) .advance)

/-- A run of the single-cycle profile, from its issue to its completion. -/
theorem product_of_completed_run_singleCycle :
    ∃ product,
      ((idle (.ofProfile .singleCycle)).serveAll
        (multiplication ⟨Vector.replicate operandLimbs 3, Vector.replicate operandLimbs 5⟩ 64 128 ++
          [.over (Memory.zero 0) .advance])).finishedProduct = some product ∧
      product.value = OperandLimbs.value (Vector.replicate operandLimbs 3) *
        OperandLimbs.value (Vector.replicate operandLimbs 5) := by
  have hcreate : Multiplier.create (.ofProfile .singleCycle) =
      .ok (idle (.ofProfile .singleCycle)) := rfl
  have hheld : ((idle (.ofProfile .singleCycle)).serveAll
        (multiplication ⟨Vector.replicate operandLimbs 3, Vector.replicate operandLimbs 5⟩ 64 128 ++
          [.over (Memory.zero 0) .advance])).operands =
      ⟨Vector.replicate operandLimbs 3, Vector.replicate operandLimbs 5⟩ := by decide +kernel
  obtain ⟨before, starter, after, -, ⟨product, hproduct, hvalue⟩, hoperands⟩ :=
    product_of_completed_run hcreate
      (multiplication ⟨Vector.replicate operandLimbs 3, Vector.replicate operandLimbs 5⟩ 64 128)
      (.over (Memory.zero 0) .advance) ⟨128, by decide +kernel⟩
  rw [← hoperands, hheld] at hvalue
  exact ⟨product, hproduct, hvalue⟩

end Multiplier

end WideMultiplier
