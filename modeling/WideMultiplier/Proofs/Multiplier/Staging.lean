import WideMultiplier.Proofs.Multiplier.Checking

/-!
# Factors staged along three paths

Two factors come into the store as byte images, as limbs, or limb by limb from a memory that the
images lie in. The limbs that are read from an image have its bytes
(`OperandLimbs.exists_ofBytes`), so that all three paths lead to the same store, and to the same
multiplier except for the addresses (`Multiplier.StagedTo.alike`). What is staged stays until
something is staged over it (`Multiplier.Staged.serve`). `Multiplier.Reachable.staging_paths_agree`
puts these together.
-/

namespace WideMultiplier

/-! ## Images -/

/-- The limbs that are read from the pieces of an image have the bytes of the image. -/
theorem Limbs.toBytes_pieces (image : List UInt8) (count : Nat)
    (h : limbBytes * count ≤ image.length) :
    toBytes ((List.range count).map fun index =>
        Limb.ofBytes ((image.drop (limbBytes * index)).take limbBytes)) =
      image.take (limbBytes * count) := by
  induction count with
  | zero => rfl
  | succ count ih =>
      rw [Nat.mul_succ] at h
      have hpiece : ((image.drop (limbBytes * count)).take limbBytes).length = limbBytes := by
        rw [List.length_take, List.length_drop]
        omega
      rw [List.range_succ, List.map_append, List.map_singleton, toBytes, List.flatMap_append,
        List.flatMap_singleton, Limb.toBytes_ofBytes hpiece, Nat.mul_succ, List.take_add]
      exact congrArg (· ++ _) (ih (by omega))

namespace OperandLimbs

/-- Factors with the same value have the same limbs. -/
theorem value_inj {left right : OperandLimbs} (h : left.value = right.value) : left = right := by
  apply Vector.toList_inj.mp
  exact Limbs.value_inj (by simp) h

/-- The bytes of a factor write its value. -/
theorem bytesValue_toBytes (limbs : OperandLimbs) :
    bytesValue (Limbs.toBytes limbs.toList) = limbs.value :=
  Limbs.bytesValue_toBytes limbs.toList

/-- Factors with the same bytes are the same. -/
theorem toBytes_inj {left right : OperandLimbs}
    (h : Limbs.toBytes left.toList = Limbs.toBytes right.toList) : left = right :=
  Vector.toList_inj.mp (Limbs.toBytes_inj (by simp) h)

/-- An image of the right length is read as a factor that has its bytes. -/
theorem exists_ofBytes (operand : Operand) {image : List UInt8} (h : image.length = operandBytes) :
    ∃ limbs, ofBytes operand image = .ok limbs ∧ Limbs.toBytes limbs.toList = image := by
  refine ⟨_, if_pos h, ?_⟩
  have hpieces := Limbs.toBytes_pieces image operandLimbs (by rw [h, Nat.mul_comm])
  rw [List.take_of_length_le (by rw [h, Nat.mul_comm])] at hpieces
  refine Eq.trans (congrArg _ ?_) hpieces
  exact List.ext_getElem (by simp) fun index hleft hright => by simp

/-- The bytes of a factor are read as that factor. -/
theorem ofBytes_toBytes (operand : Operand) (limbs : OperandLimbs) :
    ofBytes operand (Limbs.toBytes limbs.toList) = .ok limbs := by
  obtain ⟨read, hok, hbytes⟩ := exists_ofBytes operand limbs.length_toBytes
  rw [hok, toBytes_inj hbytes]

end OperandLimbs

/-- The bytes of two factors are read as these factors. -/
theorem Operands.ofBytes_toBytes (operands : Operands) :
    ofBytes (Limbs.toBytes operands.a.toList) (Limbs.toBytes operands.b.toList) =
      .ok operands := by
  rw [ofBytes, OperandLimbs.ofBytes_toBytes]
  dsimp only
  rw [OperandLimbs.ofBytes_toBytes]

/-- An image of another length is refused, that of A before that of B. -/
theorem Operands.ofBytes_of_length {a b : List UInt8} :
    (a.length ≠ operandBytes →
      ofBytes a b = .error (.operandLength .a operandBytes a.length)) ∧
    (a.length = operandBytes → b.length ≠ operandBytes →
      ofBytes a b = .error (.operandLength .b operandBytes b.length)) := by
  constructor
  · intro ha
    rw [ofBytes, OperandLimbs.ofBytes, if_neg ha]
  · intro ha hb
    rw [ofBytes, OperandLimbs.ofBytes, if_pos ha]
    dsimp only
    rw [OperandLimbs.ofBytes, if_neg hb]

namespace Multiplier

/-! ## Loads from a memory -/

/-- Whether two multipliers differ at most in the addresses of the factors. -/
def AlikeButBases (first second : Multiplier) : Prop :=
  second =
    { first with
      transfer := { first.transfer with
        baseA := second.transfer.baseA
        baseB := second.transfer.baseB } }

/-- A multiplier that has loaded so many limbs of each factor from some addresses. -/
def stagingAt (unit : Multiplier) (baseA baseB : UInt64) (count : Nat) (operands : Operands) :
    Multiplier :=
  { unit with
    operands
    transfer := { unit.transfer with baseA, baseB, loadOffset := count }
    flags := { unit.flags with loadDone := decide (count = operandLimbs) } }

/-- A load from a memory that has come to a limb: the limbs before it are those that lie in memory,
and nothing but the load has moved. -/
def StagedTo (unit : Multiplier) (memory : Memory) (baseA baseB : UInt64) (count : Nat)
    (current : Multiplier) : Prop :=
  ∃ operands : Operands, current = unit.stagingAt baseA baseB count operands ∧
    operands.a.LoadedFrom memory baseA.toNat count ∧
    operands.b.LoadedFrom memory baseB.toNat count

section Loads

variable {unit current : Multiplier} {memory : Memory} {baseA baseB : UInt64} {count : Nat}
  {operands : Operands}

/-- A load that has just begun has come to the first limb. -/
theorem stagedTo_beginLoad (hfree : unit.progress = .notStarted) :
    unit.StagedTo memory baseA baseB 0 (unit.beginLoad baseA baseB) := by
  refine ⟨unit.operands, ?_, nofun, nofun⟩
  simp [beginLoad, stagingAt, hfree, Progress.isRunning]

theorem loadedTo_stagingAt (hfree : unit.progress = .notStarted) :
    LoadedTo { unit.transfer with baseA, baseB } count
      (unit.stagingAt baseA baseB count operands) :=
  ⟨hfree, rfl, rfl, rfl, rfl⟩

/-- Loading the next limb of each factor. -/
theorem takeLimbs_stagingAt (h : Loading (unit.stagingAt baseA baseB count operands)) (a b : Limb) :
    (unit.stagingAt baseA baseB count operands).takeLimbs h a b =
      unit.stagingAt baseA baseB (count + 1)
        ⟨operands.a.set count a h.offset_lt, operands.b.set count b h.offset_lt⟩ := by
  have hpending : decide (count = operandLimbs) = false := h.pending
  simp [takeLimbs, countLoaded, stagingAt, hpending, Bool.beq_eq_decide_eq]

variable (hfree : unit.progress = .notStarted) (hsize : memory.size ≤ Memory.maxBytes)
  (hA : baseA.toNat + operandBytes ≤ memory.size) (hB : baseB.toNat + operandBytes ≤ memory.size)

include hfree hsize hA hB

/-- A cycle of the load leads to the next limb and leaves the memory alone. -/
theorem StagedTo.step (h : unit.StagedTo memory baseA baseB count current)
    (hcount : count < operandLimbs) :
    (current.loadCycle memory).result = .ok (decide (count + 1 = operandLimbs)) ∧
      unit.StagedTo memory baseA baseB (count + 1) (current.loadCycle memory).multiplier ∧
      (current.loadCycle memory).bus = memory := by
  obtain ⟨operands, rfl, hfactorA, hfactorB⟩ := h
  have hloaded : LoadedTo { unit.transfer with baseA, baseB } count
      (unit.stagingAt baseA baseB count operands) := loadedTo_stagingAt hfree
  have hloading := hloaded.loading hcount
  obtain ⟨hnextA, hholdsA⟩ := hloaded.holds_nextA hsize hA hcount
  obtain ⟨hnextB, hholdsB⟩ := hloaded.holds_nextB hsize hB hcount
  obtain ⟨events, hcycle⟩ := loadCycle_of_holds hloading hholdsA hholdsB
  rw [hcycle, hnextA, hnextB]
  exact ⟨rfl, ⟨_, takeLimbs_stagingAt hloading _ _, hfactorA.set hcount, hfactorB.set hcount⟩, rfl⟩

/-- The load takes a cycle for each limb of a factor. -/
theorem exists_stagedTo {budget : Nat} (hbudget : operandLimbs ≤ budget) :
    ∃ loaded, (unit.beginLoad baseA baseB).loadAll budget memory =
        .ok (operandLimbs, loaded, memory) ∧
      unit.StagedTo memory baseA baseB operandLimbs loaded := by
  have hstep : ∀ {count current bus},
      unit.StagedTo memory baseA baseB count current ∧ bus = memory → count < operandLimbs →
      (current.loadCycle bus).result = .ok (decide (count + 1 = operandLimbs)) ∧
        unit.StagedTo memory baseA baseB (count + 1) (current.loadCycle bus).multiplier ∧
        (current.loadCycle bus).bus = memory := by
    rintro count current bus ⟨hstaged, rfl⟩ hcount
    exact hstaged.step hfree hsize hA hB hcount
  obtain ⟨loaded, after, hall, hstaged, rfl⟩ := repeatCycle_of_stages
    (fun count current bus => unit.StagedTo memory baseA baseB count current ∧ bus = memory)
    hstep ⟨stagedTo_beginLoad hfree, rfl⟩ (by decide) ((Nat.zero_add budget).symm ▸ hbudget)
  exact ⟨loaded, (loadAll_eq_repeatCycle _ _ _).trans hall, hstaged⟩

omit hsize hA hB in
/-- Where the images of two factors lie in memory, the load leads to the same multiplier as loading
the factors, except for the addresses. -/
theorem StagedTo.alike {loaded : Multiplier}
    (h : unit.StagedTo memory baseA baseB operandLimbs loaded)
    (ha : memory.region baseA.toNat operandBytes = Limbs.toBytes operands.a.toList)
    (hb : memory.region baseB.toNat operandBytes = Limbs.toBytes operands.b.toList) :
    (unit.load operands).AlikeButBases loaded := by
  obtain ⟨read, rfl, hfactorA, hfactorB⟩ := h
  have hsame : read = operands := by
    refine Operands.ext (OperandLimbs.value_inj ?_) (OperandLimbs.value_inj ?_)
    · rw [hfactorA.value_eq, ha, OperandLimbs.bytesValue_toBytes]
    · rw [hfactorB.value_eq, hb, OperandLimbs.bytesValue_toBytes]
  rw [hsame]
  simp [AlikeButBases, load, finishLoad, stagingAt, hfree, Progress.isRunning]

end Loads

end Multiplier

/-! ## Runs on what is staged -/

/-- Whether an operation is there to put other factors into the store, or to begin with that. -/
def Operation.Supplies : Operation → Prop
  | .reset | .load _ | .loadBytes _ _ | .beginLoad _ _ | .restore _ => True
  | _ => False

/-- Whether an operation does put other factors into the store, or begins to: a request to stage
some is ignored while a run is under way, and images and snapshots may be refused. -/
def Operation.Replaces (multiplier : Multiplier) : Operation → Prop
  | .reset => True
  | .load _ | .beginLoad _ _ => multiplier.progress = .notStarted
  | .loadBytes a b =>
    multiplier.progress = .notStarted ∧ ∃ after, multiplier.loadBytes a b = .ok after
  | .restore image => ∃ after, multiplier.restore image = .ok after
  | _ => False

namespace Multiplier

/-- Whether no call among some replaces the factors. -/
def NoneReplaces (multiplier : Multiplier) : List HostCall → Prop
  | [] => True
  | call :: rest =>
    ¬ call.operation.Replaces multiplier ∧ NoneReplaces (multiplier.serve call) rest

theorem noneReplaces_append {multiplier : Multiplier} {first second : List HostCall} :
    multiplier.NoneReplaces (first ++ second) ↔
      multiplier.NoneReplaces first ∧ (multiplier.serveAll first).NoneReplaces second := by
  induction first generalizing multiplier with
  | nil => simp [NoneReplaces]
  | cons call rest ih => simp [NoneReplaces, ih, and_assoc]

section Replacing

variable {multiplier : Multiplier} {σ : Type} [LimbBus σ] (bus : σ)

/-- An operation that is there to replace the factors and does not do so does nothing. -/
theorem apply_of_not_replaces {operation : Operation} (hsupplies : operation.Supplies)
    (h : ¬ operation.Replaces multiplier) :
    (operation.apply multiplier bus).multiplier = multiplier := by
  have hlocked : multiplier.progress ≠ .notStarted → multiplier.progress.isRunning = true := by
    cases multiplier.progress with
    | notStarted => exact fun hnot => absurd rfl hnot
    | running => exact fun _ => rfl
  cases operation with
  | reset => exact absurd trivial h
  | load operands =>
      show multiplier.load operands = multiplier
      rw [load, if_pos (hlocked h)]
  | beginLoad baseA baseB =>
      show multiplier.beginLoad baseA baseB = multiplier
      rw [beginLoad, if_pos (hlocked h)]
  | loadBytes a b =>
      simp only [Operation.apply]
      cases hload : multiplier.loadBytes a b with
      | error fault => rfl
      | ok after =>
          have hrunning := hlocked fun hfree => h ⟨hfree, after, hload⟩
          rw [loadBytes, if_pos hrunning, Except.ok.injEq] at hload
          exact hload.symm
  | restore image =>
      simp only [Operation.apply]
      cases hrestore : multiplier.restore image with
      | error fault => rfl
      | ok after => exact absurd ⟨after, hrestore⟩ h
  | _ => exact hsupplies.elim

end Replacing

/-- A multiplier into whose store these factors are staged. -/
structure Staged (operands : Operands) (multiplier : Multiplier) : Prop where
  operands_eq : multiplier.operands = operands
  loadDone : multiplier.flags.loadDone = true

namespace Staged

variable {operands : Operands} {multiplier : Multiplier}

/-- An advance keeps what is staged. -/
theorem advance (h : Staged operands multiplier) :
    Staged operands multiplier.advance.multiplier := by
  cases multiplier.advance_case with
  | idle hdone hafter houtcome =>
      rw [hafter]
      exact h
  | started hpending hprogress hafter houtcome =>
      rw [hafter]
      exact ⟨h.operands_eq, h.loadDone⟩
  | cycle hpending hprogress hfinished hafter closed houtcome =>
      rw [hafter]
      exact ⟨h.operands_eq, h.loadDone⟩
  | completed hpending hprogress hfinished hafter cycles houtcome =>
      rw [hafter]
      exact ⟨h.operands_eq, h.loadDone⟩

/-- Every call that does not replace the factors keeps what is staged. -/
theorem serve (h : Staged operands multiplier) (call : HostCall)
    (hreplaces : ¬ call.operation.Replaces multiplier) :
    Staged operands (multiplier.serve call) := by
  obtain ⟨σ, bus, operation⟩ := call
  have hsupplied : operation.Supplies →
      Staged operands (operation.apply multiplier bus).multiplier := by
    intro hsupplies
    rw [apply_of_not_replaces bus hsupplies hreplaces]
    exact h
  cases operation with
  | reset | load | loadBytes | beginLoad | restore => exact hsupplied trivial
  | start | issue | snapshot => exact ⟨h.operands_eq, h.loadDone⟩
  | advance => exact h.advance
  | run => exact runWithin_induction (fun _ hkept _ => hkept.advance) advanceBudget h
  | loadCycle =>
      show Staged operands (multiplier.loadCycle bus).multiplier
      rw [loadCycle_of_idle (.inl h.loadDone)]
      exact h
  | writeBackCycle =>
      show Staged operands (multiplier.writeBackCycle bus).multiplier
      unfold writeBackCycle
      split
      · exact h
      · dsimp only
        split
        · exact h
        · split
          · exact h
          · exact ⟨h.operands_eq, h.loadDone⟩
  | markWritten =>
      show Staged operands multiplier.markWritten
      unfold markWritten
      split
      · exact ⟨h.operands_eq, h.loadDone⟩
      · exact h

theorem serveAll (h : Staged operands multiplier) (calls : List HostCall)
    (hreplaces : multiplier.NoneReplaces calls) : Staged operands (multiplier.serveAll calls) := by
  induction calls generalizing multiplier with
  | nil => exact h
  | cons call rest ih => exact ih (h.serve call hreplaces.1) hreplaces.2

end Staged

/-- While no run is under way, a call that neither begins one nor replaces the factors leaves the
product and begins none. -/
theorem product_serve {multiplier : Multiplier} (hfree : multiplier.progress = .notStarted)
    (call : HostCall) (hbegins : ¬ call.operation.Begins multiplier)
    (hreplaces : ¬ call.operation.Replaces multiplier) :
    (multiplier.serve call).progress = .notStarted ∧
      (multiplier.serve call).product = multiplier.product := by
  obtain ⟨σ, bus, operation⟩ := call
  have hsupplied : operation.Supplies →
      (operation.apply multiplier bus).multiplier.progress = .notStarted ∧
        (operation.apply multiplier bus).multiplier.product = multiplier.product := by
    intro hsupplies
    rw [apply_of_not_replaces bus hsupplies hreplaces]
    exact ⟨hfree, rfl⟩
  have htransfer : operation.Transfers →
      (operation.apply multiplier bus).multiplier.progress = .notStarted ∧
        (operation.apply multiplier bus).multiplier.product = multiplier.product := by
    intro htransfers
    have hsame := Operation.apply_sameRun multiplier bus htransfers
    exact ⟨hsame.progress.trans hfree, hsame.product⟩
  have hadvance : multiplier.advance.outcome ≠ .started →
      multiplier.flags.multiplyDone = true := by
    intro houtcome
    cases multiplier.advance_case with
    | idle hdone hafter hidle => exact hdone
    | started hpending hprogress hafter hstarted => exact absurd hstarted houtcome
    | cycle hpending hprogress hfinished hafter closed hcycle =>
        rw [hfree] at hprogress
        cases hprogress
    | completed hpending hprogress hfinished hafter cycles hcompleted =>
        rw [hfree] at hprogress
        cases hprogress
  cases operation with
  | reset | restore => exact hsupplied trivial
  | start => exact absurd trivial hbegins
  | issue base => exact ⟨rfl, rfl⟩
  | advance =>
      show multiplier.advance.multiplier.progress = _ ∧ multiplier.advance.multiplier.product = _
      rw [advance_of_done (hadvance hbegins)]
      exact ⟨hfree, rfl⟩
  | run =>
      show multiplier.run.multiplier.progress = _ ∧ multiplier.run.multiplier.product = _
      rw [run, runWithin_of_done _ (hadvance hbegins)]
      exact ⟨hfree, rfl⟩
  | load | loadBytes | beginLoad | loadCycle | writeBackCycle | markWritten | snapshot =>
      exact htransfer trivial

theorem product_serveAll {multiplier : Multiplier} (hfree : multiplier.progress = .notStarted)
    (calls : List HostCall) (hbegins : multiplier.NoneBegins calls)
    (hreplaces : multiplier.NoneReplaces calls) :
    (multiplier.serveAll calls).product = multiplier.product := by
  induction calls generalizing multiplier with
  | nil => rfl
  | cons call rest ih =>
      obtain ⟨hnext, hproduct⟩ := product_serve hfree call hbegins.1 hreplaces.1
      exact (ih hnext hbegins.2 hreplaces.2).trans hproduct

/-- When a run completes, none is under way any more. -/
theorem progress_of_completes {multiplier : Multiplier} (h : Consistent multiplier)
    {call : HostCall} (hcompletes : call.operation.Completes multiplier) :
    (multiplier.serve call).progress = .notStarted := by
  obtain ⟨σ, bus, operation⟩ := call
  cases operation with
  | advance =>
      obtain ⟨cycles, hcompleted⟩ := hcompletes
      show multiplier.advance.multiplier.progress = .notStarted
      cases multiplier.advance_case with
      | completed hpending hprogress hfinished hafter count houtcome =>
          rw [hafter]
          rfl
      | idle hdone hafter houtcome => simp [houtcome] at hcompleted
      | started hpending hprogress hafter houtcome => simp [houtcome] at hcompleted
      | cycle hpending hprogress hfinished hafter closed houtcome => simp [houtcome] at hcompleted
  | run => exact run_progress h
  | _ => cases hcompletes

/-- A run on factors that are staged leaves the bytes of their product, which stand there until
another run begins or other factors are staged. -/
theorem Staged.toBytes_product {operands : Operands} {multiplier : Multiplier}
    (h : Staged operands multiplier) (hconsistent : Consistent multiplier)
    {before after : List HostCall} {last : HostCall}
    (hreplaces : multiplier.NoneReplaces (before ++ last :: after))
    (hcompletes : last.operation.Completes (multiplier.serveAll before))
    (hbegins : (multiplier.serveAll (before ++ [last])).NoneBegins after) :
    (multiplier.serveAll (before ++ last :: after)).product.toBytes =
      bytesOf productBytes (operands.a.value * operands.b.value) := by
  obtain ⟨hbefore, -, hafter⟩ := noneReplaces_append.mp hreplaces
  have hready := hconsistent.serveAll before
  have hmultiplied := multiplied_of_completes hready hcompletes
  have hfree := progress_of_completes hready hcompletes
  rw [serveAll_append] at hbegins
  have hstays := product_serveAll hfree after hbegins hafter
  have hproduct : (multiplier.serveAll (before ++ last :: after)).product =
      ((multiplier.serveAll before).serve last).product := by
    rw [serveAll_append, serveAll_cons]
    exact hstays
  have hvalue : Limbs.value ((multiplier.serveAll before).serve last).product.toList =
      operands.a.value * operands.b.value := by
    rw [← (h.serveAll before hbefore).operands_eq]
    exact hmultiplied.value
  rw [hproduct, Product.toBytes, Limbs.toBytes_eq_bytesOf, Vector.length_toList, Nat.mul_comm,
    hvalue]

/-! ## The three paths -/

namespace Reachable

variable {config : Config} {unit : Multiplier}

/-- While no run is under way, the images of two factors are staged alike along all three paths: as
images, as the limbs that have their bytes, of which there is one pair, and over any memory that
both images lie in, which alone sets the addresses. The factors have the values of their images.
Whatever is asked for behind that, a run that completes before the factors are replaced leaves the
bytes of the product of both values, up to the next run. An image of another length is refused, that
of A before that of B, and changes nothing. -/
theorem staging_paths_agree (h : Reachable config unit) (hfree : unit.progress = .notStarted) :
    (∀ a b : List UInt8, a.length = operandBytes → b.length = operandBytes →
      ∃ operands : Operands,
        (∀ other : Operands,
          Limbs.toBytes other.a.toList = a ∧ Limbs.toBytes other.b.toList = b ↔
            other = operands) ∧
        unit.loadBytes a b = .ok (unit.load operands) ∧
        (∀ (memory : Memory) (baseA baseB : UInt64) (budget : Nat),
          memory.size ≤ Memory.maxBytes → baseA.toNat + operandBytes ≤ memory.size →
          baseB.toNat + operandBytes ≤ memory.size →
          memory.region baseA.toNat operandBytes = a →
          memory.region baseB.toNat operandBytes = b → operandLimbs ≤ budget →
          ∃ loaded, (unit.beginLoad baseA baseB).loadAll budget memory =
              .ok (operandLimbs, loaded, memory) ∧
            (unit.load operands).AlikeButBases loaded) ∧
        ∀ staged, (unit.load operands).AlikeButBases staged →
          (staged.operands.a.value = bytesValue a ∧ staged.operands.b.value = bytesValue b) ∧
          ∀ before last after, staged.NoneReplaces (before ++ last :: after) →
            last.operation.Completes (staged.serveAll before) →
            (staged.serveAll (before ++ [last])).NoneBegins after →
            (staged.serveAll (before ++ last :: after)).product.toBytes =
              bytesOf productBytes (bytesValue a * bytesValue b)) ∧
      ∀ (a b : List UInt8) (σ : Type) [LimbBus σ] (bus : σ),
        (a.length ≠ operandBytes →
          (Operation.loadBytes a b).apply unit bus =
            ⟨unit, bus, .checked (.error (.operandLength .a operandBytes a.length)), []⟩) ∧
        (a.length = operandBytes → b.length ≠ operandBytes →
          (Operation.loadBytes a b).apply unit bus =
            ⟨unit, bus, .checked (.error (.operandLength .b operandBytes b.length)), []⟩) := by
  have hopen : unit.progress.isRunning = false := by rw [hfree]; rfl
  have hload : ∀ operands, unit.load operands = { unit with operands }.finishLoad := by
    intro operands
    rw [load, hopen]
    rfl
  constructor
  · intro a b ha hb
    obtain ⟨readA, -, hreadA⟩ := OperandLimbs.exists_ofBytes .a ha
    obtain ⟨readB, -, hreadB⟩ := OperandLimbs.exists_ofBytes .b hb
    refine ⟨⟨readA, readB⟩, fun other => ⟨?_, ?_⟩, ?_, ?_, ?_⟩
    · rintro ⟨hotherA, hotherB⟩
      exact Operands.ext (OperandLimbs.toBytes_inj (hotherA.trans hreadA.symm))
        (OperandLimbs.toBytes_inj (hotherB.trans hreadB.symm))
    · rintro rfl
      exact ⟨hreadA, hreadB⟩
    · rw [loadBytes, hopen, ← hreadA, ← hreadB, Operands.ofBytes_toBytes ⟨readA, readB⟩, hload]
      rfl
    · intro memory baseA baseB budget hsize hA hB hregionA hregionB hbudget
      obtain ⟨loaded, hall, hstaged⟩ := exists_stagedTo hfree hsize hA hB hbudget
      exact ⟨loaded, hall, hstaged.alike hfree (hregionA.trans hreadA.symm)
        (hregionB.trans hreadB.symm)⟩
    · intro staged halike
      have hvalid : unit.pipeline.shape.validate = .ok () := h.wellFormed.consistent.valid
      rw [hload] at halike
      have hstaged : Staged ⟨readA, readB⟩ staged := by
        rw [halike]
        exact ⟨rfl, rfl⟩
      have hconsistent : Consistent staged := by
        rw [halike]
        exact .of_notStarted hvalid hfree
      rw [hstaged.operands_eq, ← hreadA, ← hreadB, OperandLimbs.bytesValue_toBytes,
        OperandLimbs.bytesValue_toBytes]
      exact ⟨⟨rfl, rfl⟩, fun before last after hreplaces hcompletes hbegins =>
        hstaged.toBytes_product hconsistent hreplaces hcompletes hbegins⟩
  · intro a b σ _ bus
    obtain ⟨hfirst, hsecond⟩ := @Operands.ofBytes_of_length a b
    constructor
    · intro ha
      rw [Operation.apply, loadBytes, hopen, hfirst ha]
      rfl
    · intro ha hb
      rw [Operation.apply, loadBytes, hopen, hsecond ha hb]
      rfl

/-- A memory that the images of two factors lie in. -/
def twoImages : Memory :=
  ((Memory.zero 1048).putBytes 8 (List.replicate operandBytes 3)).putBytes 520
    (List.replicate operandBytes 5)

/-- The images lie where they were put. -/
theorem size_region_twoImages :
    twoImages.size = 1048 ∧ twoImages.region 8 operandBytes = List.replicate operandBytes 3 ∧
      twoImages.region 520 operandBytes = List.replicate operandBytes 5 := by
  have hlength : ∀ byte : UInt8, (List.replicate operandBytes byte).length = operandBytes :=
    fun byte => List.length_replicate
  have hfirst : 8 + (List.replicate operandBytes (3 : UInt8)).length ≤
      (Memory.zero 1048).size := by
    rw [hlength]
    decide
  have hsecond : 520 + (List.replicate operandBytes (5 : UInt8)).length ≤
      ((Memory.zero 1048).putBytes 8 (List.replicate operandBytes 3)).size := by
    rw [hlength, Memory.size_putBytes]
    decide
  have hregionA := Memory.region_putBytes _ hfirst
  have hregionB := Memory.region_putBytes _ hsecond
  rw [hlength] at hregionA hregionB
  refine ⟨by rw [twoImages, Memory.size_putBytes, Memory.size_putBytes]; rfl, ?_, hregionB⟩
  rw [← hregionA]
  exact Memory.region_congr fun place _ hbehind =>
    Memory.byteAt_putBytes_of_outside _ hsecond (.inl hbehind)

/-- A multiplier in the middle of a load. -/
def halfLoaded : Multiplier :=
  (idle (.ofProfile .singleCycle)).serveAll
    [.over twoImages (.beginLoad 16 24), .over twoImages .loadCycle]

/-- In the middle of a load other factors are staged, along two of the paths, and multiplied. -/
theorem staging_paths_agree_halfLoaded :
    ∃ operands loaded,
      halfLoaded.loadBytes (List.replicate operandBytes 3) (List.replicate operandBytes 5) =
          .ok (halfLoaded.load operands) ∧
        (halfLoaded.beginLoad 8 520).loadAll operandLimbs twoImages =
          .ok (operandLimbs, loaded, twoImages) ∧
        (halfLoaded.load operands).AlikeButBases loaded ∧
        (loaded.serveAll
          [.over twoImages (.issue 0), .over twoImages .run]).product.toBytes =
          bytesOf productBytes (bytesValue (List.replicate operandBytes 3) *
            bytesValue (List.replicate operandBytes 5)) := by
  have hreachable : Reachable (.ofProfile .singleCycle) halfLoaded :=
    .serve (.serve (.create rfl) _) _
  have hfree : halfLoaded.progress = .notStarted := by decide +kernel
  obtain ⟨hpaths, -⟩ := staging_paths_agree hreachable hfree
  obtain ⟨operands, -, hbytes, hmemory, hruns⟩ :=
    hpaths (List.replicate operandBytes 3) (List.replicate operandBytes 5) List.length_replicate
      List.length_replicate
  obtain ⟨hsize, hregionA, hregionB⟩ := size_region_twoImages
  obtain ⟨loaded, hall, halike⟩ := hmemory twoImages 8 520 operandLimbs (by rw [hsize]; decide)
    (by rw [hsize]; decide) (by rw [hsize]; decide) hregionA hregionB le_rfl
  refine ⟨operands, loaded, hbytes, hall, halike, ?_⟩
  have hproduct := (hruns loaded halike).2 [.over twoImages (.issue 0)] (.over twoImages .run) []
  exact hproduct ⟨id, id, trivial⟩ rfl trivial

end Reachable

end Multiplier

end WideMultiplier
