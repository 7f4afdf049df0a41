import WideMultiplier.Check
import WideMultiplier.Proofs.MemoryRegion
import WideMultiplier.Proofs.Multiplier.Control

/-!
# Cycles of a transfer

A cycle of a pending load reads one limb of each factor, and a cycle of a pending write-back writes
one limb of the product: `Multiplier.load_case` and `Multiplier.write_case` say all that such a
cycle does. Where the bus serves the limbs that are left, each cycle moves the next of them, so that
the transfer takes exactly as many cycles as there are limbs left (`Multiplier.loadAll_of_loading`,
`Multiplier.writeBackAll_of_writing`).
-/

namespace WideMultiplier

variable {σ : Type} [LimbBus σ]

namespace Multiplier

/-! ## One cycle -/

/-- A load that is pending and that no run holds up. -/
structure Loading (multiplier : Multiplier) : Prop where
  pending : multiplier.flags.loadDone = false
  free : multiplier.progress = .notStarted
  offset_lt : multiplier.transfer.loadOffset < operandLimbs

/-- A write-back that is pending. -/
structure Writing (multiplier : Multiplier) : Prop where
  complete : multiplier.flags.multiplyDone = true
  pending : multiplier.flags.writeDone = false
  offset_lt : multiplier.transfer.writeOffset < productLimbs

/-- The address of the limb of A that is loaded next. -/
def nextA (multiplier : Multiplier) : UInt64 :=
  Transfer.limbAddress multiplier.transfer.baseA multiplier.transfer.loadOffset

/-- The address of the limb of B that is loaded next. -/
def nextB (multiplier : Multiplier) : UInt64 :=
  Transfer.limbAddress multiplier.transfer.baseB multiplier.transfer.loadOffset

/-- The address to which the next limb of the product is written. -/
def nextProduct (multiplier : Multiplier) : UInt64 :=
  Transfer.limbAddress multiplier.transfer.baseProduct multiplier.transfer.writeOffset

/-- The multiplier that has loaded one more limb of each factor. -/
def takeLimbs (multiplier : Multiplier) (h : Loading multiplier) (a b : Limb) : Multiplier :=
  { multiplier with
    operands :=
      ⟨multiplier.operands.a.set multiplier.transfer.loadOffset a h.offset_lt,
        multiplier.operands.b.set multiplier.transfer.loadOffset b h.offset_lt⟩ }.countLoaded

variable {multiplier : Multiplier}

/-- A cycle of a load that is done or held up does nothing. -/
theorem loadCycle_of_idle (h : multiplier.flags.loadDone = true ∨ multiplier.progress = .running)
    (bus : σ) :
    multiplier.loadCycle bus = ⟨multiplier, bus, .ok multiplier.flags.loadDone, []⟩ := by
  rw [loadCycle, if_pos]
  rcases h with hdone | hrunning
  · simp [hdone]
  · simp [hrunning, Progress.isRunning]

/-- A cycle of a write-back does nothing when there is nothing to write back. -/
theorem writeBackCycle_of_idle
    (h : multiplier.flags.writeDone = true ∨ multiplier.flags.multiplyDone = false) (bus : σ) :
    multiplier.writeBackCycle bus = ⟨multiplier, bus, .ok multiplier.flags.writeDone, []⟩ := by
  rw [writeBackCycle, if_pos]
  rcases h with hdone | hopen
  · simp [hdone]
  · simp [hopen]

/-- What a cycle of a pending load does. -/
inductive LoadCase (h : Loading multiplier) (bus : σ) : Prop where
  /-- The limb of A cannot be read. -/
  | failedA (fault : BusFault) (hread : (LimbBus.read multiplier.nextA bus).1 = .error fault)
      (hcycle : multiplier.loadCycle bus =
        ⟨multiplier, (LimbBus.read multiplier.nextA bus).2, .error (.bus fault), []⟩)
  /-- The limb of A is read and dropped, since that of B cannot be read. -/
  | failedB (a : Limb) (fault : BusFault) (first : σ)
      (hread : LimbBus.read multiplier.nextA bus = (.ok a, first))
      (hsecond : (LimbBus.read multiplier.nextB first).1 = .error fault)
      (hcycle : multiplier.loadCycle bus =
        ⟨multiplier, (LimbBus.read multiplier.nextB first).2, .error (.bus fault), []⟩)
  /-- Both limbs are loaded. -/
  | loaded (a b : Limb) (first second : σ)
      (hread : LimbBus.read multiplier.nextA bus = (.ok a, first))
      (hsecond : LimbBus.read multiplier.nextB first = (.ok b, second))
      (hcycle : multiplier.loadCycle bus =
        ⟨multiplier.takeLimbs h a b, second,
          .ok (decide (multiplier.transfer.loadOffset + 1 = operandLimbs)),
          multiplier.traced [.limbLoaded multiplier.transfer.loadOffset]⟩)

theorem load_case (h : Loading multiplier) (bus : σ) : LoadCase h bus := by
  have hfree : (multiplier.flags.loadDone || multiplier.progress.isRunning) = false := by
    simp [h.pending, h.free, Progress.isRunning]
  have hset : ∀ a b, multiplier.operands.setLimb multiplier.transfer.loadOffset a b =
      .ok ⟨multiplier.operands.a.set multiplier.transfer.loadOffset a h.offset_lt,
        multiplier.operands.b.set multiplier.transfer.loadOffset b h.offset_lt⟩ := by
    intro a b
    rw [Operands.setLimb, dif_pos h.offset_lt]
  have hdone : ∀ a b, (multiplier.takeLimbs h a b).flags.loadDone =
      decide (multiplier.transfer.loadOffset + 1 = operandLimbs) := by
    intro a b
    simp [takeLimbs, countLoaded, h.pending, Bool.beq_eq_decide_eq]
  cases hread : LimbBus.read multiplier.nextA bus with
  | mk result first =>
      cases result with
      | error fault =>
          refine .failedA fault (by rw [hread]) ?_
          rw [nextA] at hread
          simp [loadCycle, hfree, hread, nextA]
      | ok a =>
          cases hsecond : LimbBus.read multiplier.nextB first with
          | mk result second =>
              cases result with
              | error fault =>
                  refine .failedB a fault first hread (by rw [hsecond]) ?_
                  rw [nextA] at hread
                  rw [nextB] at hsecond
                  simp [loadCycle, hfree, hread, hsecond, nextB]
              | ok b =>
                  refine .loaded a b first second hread hsecond ?_
                  rw [nextA] at hread
                  rw [nextB] at hsecond
                  rw [← hdone a b]
                  simp [loadCycle, hfree, hread, hsecond, hset, takeLimbs]

/-- The limb of the product that is written next. -/
def nextLimb (multiplier : Multiplier) (h : Writing multiplier) : Limb :=
  have hoffset := h.offset_lt
  multiplier.product[multiplier.transfer.writeOffset]

/-- What a cycle of a pending write-back does. -/
inductive WriteCase (h : Writing multiplier) (bus : σ) : Prop where
  /-- The limb cannot be written. -/
  | failed (fault : BusFault) (after : σ)
      (hwrite : LimbBus.write multiplier.nextProduct (multiplier.nextLimb h) bus =
        (.error fault, after))
      (hcycle : multiplier.writeBackCycle bus = ⟨multiplier, after, .error (.bus fault), []⟩)
  /-- The limb is written. -/
  | written (after : σ)
      (hwrite : LimbBus.write multiplier.nextProduct (multiplier.nextLimb h) bus = (.ok (), after))
      (hcycle : multiplier.writeBackCycle bus =
        ⟨multiplier.countWritten, after,
          .ok (decide (multiplier.transfer.writeOffset + 1 = productLimbs)),
          multiplier.traced
            [.limbWritten multiplier.transfer.writeOffset multiplier.nextProduct]⟩)

theorem write_case (h : Writing multiplier) (bus : σ) : WriteCase h bus := by
  have hopen : (multiplier.flags.writeDone || !multiplier.flags.multiplyDone) = false := by
    simp [h.pending, h.complete]
  have hlimb : multiplier.product.limb multiplier.transfer.writeOffset =
      .ok (multiplier.nextLimb h) := by
    rw [Product.limb, dif_pos h.offset_lt]
    rfl
  have hdone : multiplier.countWritten.flags.writeDone =
      decide (multiplier.transfer.writeOffset + 1 = productLimbs) := by
    simp [countWritten, h.pending, Bool.beq_eq_decide_eq]
  cases hwrite : LimbBus.write multiplier.nextProduct (multiplier.nextLimb h) bus with
  | mk result after =>
      cases result with
      | error fault =>
          refine .failed fault after hwrite ?_
          rw [nextProduct] at hwrite
          simp [writeBackCycle, hopen, hlimb, hwrite]
      | ok done =>
          refine .written after hwrite ?_
          rw [nextProduct] at hwrite
          rw [← hdone]
          simp [writeBackCycle, hopen, hlimb, hwrite, nextProduct]

/-! ## All cycles of a phase -/

/-- Repeats a cycle until it answers that its phase is done, but at most as often as the budget
allows. A fault ends it. -/
def repeatCycle (cycle : Multiplier → σ → Moved σ) :
    Nat → Multiplier → σ → Except Fault (Nat × Multiplier × σ)
  | 0, multiplier, bus => .ok (0, multiplier, bus)
  | budget + 1, multiplier, bus =>
    let moved := cycle multiplier bus
    match moved.result with
    | .error fault => .error fault
    | .ok true => .ok (1, moved.multiplier, moved.bus)
    | .ok false =>
      match repeatCycle cycle budget moved.multiplier moved.bus with
      | .error fault => .error fault
      | .ok (cycles, rest) => .ok (cycles + 1, rest)

theorem loadAll_eq_repeatCycle (budget : Nat) (multiplier : Multiplier) (bus : σ) :
    multiplier.loadAll budget bus = repeatCycle loadCycle budget multiplier bus := by
  induction budget generalizing multiplier bus with
  | zero => rfl
  | succ budget ih =>
      have hrest := ih (multiplier.loadCycle bus).multiplier (multiplier.loadCycle bus).bus
      rw [loadAll, repeatCycle]
      cases (multiplier.loadCycle bus).result with
      | error fault => rfl
      | ok done =>
          cases done with
          | true => rfl
          | false => exact hrest ▸ rfl

theorem writeBackAll_eq_repeatCycle (budget : Nat) (multiplier : Multiplier) (bus : σ) :
    multiplier.writeBackAll budget bus = repeatCycle writeBackCycle budget multiplier bus := by
  induction budget generalizing multiplier bus with
  | zero => rfl
  | succ budget ih =>
      have hrest := ih (multiplier.writeBackCycle bus).multiplier
        (multiplier.writeBackCycle bus).bus
      rw [writeBackAll, repeatCycle]
      cases (multiplier.writeBackCycle bus).result with
      | error fault => rfl
      | ok done =>
          cases done with
          | true => rfl
          | false => exact hrest ▸ rfl

omit [LimbBus σ] in
/-- Where each cycle leads from one stage to the next and the last one answers that the phase is
done, the phase takes as many cycles as there are stages left. -/
theorem repeatCycle_of_stages {cycle : Multiplier → σ → Moved σ} {last : Nat}
    (Stage : Nat → Multiplier → σ → Prop)
    (hstep : ∀ {count multiplier bus}, Stage count multiplier bus → count < last →
      (cycle multiplier bus).result = .ok (decide (count + 1 = last)) ∧
        Stage (count + 1) (cycle multiplier bus).multiplier (cycle multiplier bus).bus)
    {count budget : Nat} {multiplier : Multiplier} {bus : σ} (h : Stage count multiplier bus)
    (hcount : count < last) (hbudget : last ≤ count + budget) :
    ∃ after bus', repeatCycle cycle budget multiplier bus = .ok (last - count, after, bus') ∧
      Stage last after bus' := by
  induction budget generalizing count multiplier bus with
  | zero => omega
  | succ budget ih =>
      obtain ⟨hresult, hstage⟩ := hstep h hcount
      by_cases hlast : count + 1 = last
      · -- the phase is done with this cycle
        refine ⟨(cycle multiplier bus).multiplier, (cycle multiplier bus).bus, ?_, ?_⟩
        · rw [repeatCycle, hresult, decide_eq_true hlast, show last - count = 1 by omega]
        · rw [hlast] at hstage
          exact hstage
      · obtain ⟨after, bus', hrest, hend⟩ := ih hstage (by omega) (by omega)
        refine ⟨after, bus', ?_, hend⟩
        rw [repeatCycle, hresult, decide_eq_false hlast]
        simp only [hrest]
        rw [show last - (count + 1) + 1 = last - count by omega]

end Multiplier

/-! ## Buses that serve a transfer -/

namespace LimbBus

/-- Whether a bus serves reads: in each of some states a read at each of some addresses succeeds and
leads to such a state again. -/
def ServesReads (addresses : UInt64 → Prop) (states : σ → Prop) : Prop :=
  ∀ address bus, addresses address → states bus →
    (∃ limb, (LimbBus.read address bus).1 = .ok limb) ∧ states (LimbBus.read address bus).2

/-- Whether a bus serves writes: in each of some states a write at each of some addresses succeeds
and leads to such a state again. -/
def ServesWrites (addresses : UInt64 → Prop) (states : σ → Prop) : Prop :=
  ∀ address limb bus, addresses address → states bus →
    (LimbBus.write address limb bus).1 = .ok () ∧ states (LimbBus.write address limb bus).2

end LimbBus

namespace Transfer

/-- Whether an address is that of a limb of a factor. -/
def IsFactorAddress (transfer : Transfer) (address : UInt64) : Prop :=
  ∃ index < operandLimbs,
    address = limbAddress transfer.baseA index ∨ address = limbAddress transfer.baseB index

/-- Whether an address is that of a limb of the product. -/
def IsProductAddress (transfer : Transfer) (address : UInt64) : Prop :=
  ∃ index < productLimbs, address = limbAddress transfer.baseProduct index

/-- The address of a limb, if it does not wrap around. -/
theorem toNat_limbAddress {base : UInt64} {index : Nat}
    (h : base.toNat + limbBytes * index < UInt64.size) :
    (limbAddress base index).toNat = base.toNat + limbBytes * index := by
  have hoffset : (UInt64.ofNat (index * limbBytes)).toNat = limbBytes * index := by
    rw [Nat.mul_comm]
    exact UInt64.toNat_ofNat_of_lt' (by omega)
  rw [limbAddress, UInt64.toNat_add, hoffset]
  exact Nat.mod_eq_of_lt h

/-- A limb of a buffer that lies in a range lies in it too. An address that wraps around only lies
lower. -/
theorem limbAddress_add_le {base : UInt64} {index count size : Nat} (hindex : index < count)
    (h : base.toNat + count * limbBytes ≤ size) :
    (limbAddress base index).toNat + limbBytes ≤ size := by
  have hwrapped : (limbAddress base index).toNat ≤ base.toNat + index * limbBytes := by
    rw [limbAddress, UInt64.toNat_add, UInt64.toNat_ofNat']
    exact Nat.le_trans (Nat.mod_le _ _) (Nat.add_le_add_left (Nat.mod_le _ _) _)
  have hlimb : index * limbBytes + limbBytes ≤ count * limbBytes := by
    rw [← Nat.succ_mul]
    exact Nat.mul_le_mul_right _ hindex
  omega

end Transfer

namespace Memory

variable {memory : Memory} {base : UInt64} {index count : Nat}

/-- A limb of a buffer that lies in memory lies in it too. -/
theorem holds_limb (hindex : index < count)
    (h : base.toNat + count * limbBytes ≤ memory.size) :
    memory.holds (Transfer.limbAddress base index).toNat = true := by
  rw [holds, decide_eq_true_eq]
  exact Transfer.limbAddress_add_le hindex h

/-- In a buffer that lies in memory no address wraps around. -/
theorem toNat_limbAddress (hsize : memory.size ≤ maxBytes) (hindex : index < count)
    (h : base.toNat + count * limbBytes ≤ memory.size) :
    (Transfer.limbAddress base index).toNat = base.toNat + limbBytes * index := by
  have hmax : maxBytes < UInt64.size := by decide
  have hbefore : limbBytes * index ≤ count * limbBytes := by
    rw [Nat.mul_comm]
    exact Nat.mul_le_mul_right _ (Nat.le_of_lt hindex)
  exact Transfer.toNat_limbAddress (by omega)

variable {transfer : Transfer} {size : Nat}

/-- A memory serves the limbs of factors that lie in it. -/
theorem servesReads (hA : transfer.baseA.toNat + operandBytes ≤ size)
    (hB : transfer.baseB.toNat + operandBytes ≤ size) :
    LimbBus.ServesReads transfer.IsFactorAddress fun memory : Memory => memory.size = size := by
  intro address memory haddress hsize
  have hholds : memory.holds address.toNat = true := by
    rw [← hsize] at hA hB
    obtain ⟨index, hindex, rfl | rfl⟩ := haddress
    · exact holds_limb hindex hA
    · exact holds_limb hindex hB
  exact ⟨⟨memory.limbAt address.toNat, if_pos hholds⟩, hsize⟩

/-- A memory serves the limbs of a product that lies in it. -/
theorem servesWrites (h : transfer.baseProduct.toNat + productBytes ≤ size) :
    LimbBus.ServesWrites transfer.IsProductAddress fun memory : Memory => memory.size = size := by
  intro address limb memory haddress hsize
  have hholds : memory.holds address.toNat = true := by
    rw [← hsize] at h
    obtain ⟨index, hindex, rfl⟩ := haddress
    exact holds_limb hindex h
  have hwrite : LimbBus.write address limb memory = (.ok (), memory.putLimb address.toNat limb) :=
    if_pos hholds
  rw [hwrite]
  exact ⟨rfl, (size_putLimb memory _ limb).trans hsize⟩

end Memory

namespace Multiplier

/-- A load of the factors at some addresses that has come to a limb. -/
structure LoadedTo (transfer : Transfer) (count : Nat) (multiplier : Multiplier) : Prop where
  free : multiplier.progress = .notStarted
  baseA : multiplier.transfer.baseA = transfer.baseA
  baseB : multiplier.transfer.baseB = transfer.baseB
  loadOffset : multiplier.transfer.loadOffset = count
  loadDone : multiplier.flags.loadDone = decide (count = operandLimbs)

namespace LoadedTo

variable {transfer : Transfer} {count : Nat} {multiplier : Multiplier}

/-- A load that has not come to its end is pending. -/
theorem loading (h : LoadedTo transfer count multiplier) (hcount : count < operandLimbs) :
    Loading multiplier := by
  refine ⟨?_, h.free, ?_⟩
  · rw [h.loadDone, decide_eq_false (Nat.ne_of_lt hcount)]
  · rw [h.loadOffset]
    exact hcount

/-- A pending load has come to the limb at its offset. -/
theorem of_loading (h : Loading multiplier) :
    LoadedTo multiplier.transfer multiplier.transfer.loadOffset multiplier :=
  ⟨h.free, rfl, rfl, rfl, by rw [h.pending, decide_eq_false (Nat.ne_of_lt h.offset_lt)]⟩

theorem nextA_eq (h : LoadedTo transfer count multiplier) :
    multiplier.nextA = Transfer.limbAddress transfer.baseA count := by
  rw [nextA, h.baseA, h.loadOffset]

theorem nextB_eq (h : LoadedTo transfer count multiplier) :
    multiplier.nextB = Transfer.limbAddress transfer.baseB count := by
  rw [nextB, h.baseB, h.loadOffset]

/-- In a memory that holds the factors the next limb of A lies at its place. -/
theorem holds_nextA (h : LoadedTo transfer count multiplier) {memory : Memory}
    (hsize : memory.size ≤ Memory.maxBytes)
    (hA : transfer.baseA.toNat + operandBytes ≤ memory.size) (hcount : count < operandLimbs) :
    multiplier.nextA.toNat = transfer.baseA.toNat + limbBytes * count ∧
      memory.holds multiplier.nextA.toNat = true := by
  rw [h.nextA_eq]
  exact ⟨Memory.toNat_limbAddress hsize hcount hA, Memory.holds_limb hcount hA⟩

/-- In a memory that holds the factors the next limb of B lies at its place. -/
theorem holds_nextB (h : LoadedTo transfer count multiplier) {memory : Memory}
    (hsize : memory.size ≤ Memory.maxBytes)
    (hB : transfer.baseB.toNat + operandBytes ≤ memory.size) (hcount : count < operandLimbs) :
    multiplier.nextB.toNat = transfer.baseB.toNat + limbBytes * count ∧
      memory.holds multiplier.nextB.toNat = true := by
  rw [h.nextB_eq]
  exact ⟨Memory.toNat_limbAddress hsize hcount hB, Memory.holds_limb hcount hB⟩

/-- A load that has come to its end is done. -/
theorem done (h : LoadedTo transfer operandLimbs multiplier) :
    multiplier.flags.loadDone = true :=
  h.loadDone

/-- One more limb of each factor. -/
theorem takeLimbs (h : LoadedTo transfer count multiplier) (hloading : Loading multiplier)
    (a b : Limb) : LoadedTo transfer (count + 1) (multiplier.takeLimbs hloading a b) where
  free := h.free
  baseA := h.baseA
  baseB := h.baseB
  loadOffset := congrArg (· + 1) h.loadOffset
  loadDone := by
    simp [Multiplier.takeLimbs, countLoaded, hloading.pending, h.loadOffset, Bool.beq_eq_decide_eq]

end LoadedTo

/-- A pending load takes a cycle for each limb that is left, if the bus serves them. -/
theorem loadAll_of_loading {multiplier : Multiplier} (h : Loading multiplier)
    {states : σ → Prop} (hserves : LimbBus.ServesReads multiplier.transfer.IsFactorAddress states)
    {bus : σ} (hbus : states bus) {budget : Nat}
    (hbudget : operandLimbs - multiplier.transfer.loadOffset ≤ budget) :
    ∃ loaded after, multiplier.loadAll budget bus =
        .ok (operandLimbs - multiplier.transfer.loadOffset, loaded, after) ∧
      LoadedTo multiplier.transfer operandLimbs loaded ∧ states after := by
  have hstep : ∀ {count current bus}, LoadedTo multiplier.transfer count current ∧ states bus →
      count < operandLimbs →
      (current.loadCycle bus).result = .ok (decide (count + 1 = operandLimbs)) ∧
        LoadedTo multiplier.transfer (count + 1) (current.loadCycle bus).multiplier ∧
        states (current.loadCycle bus).bus := by
    intro count current bus hstage hcount
    obtain ⟨hto, hstates⟩ := hstage
    have hA : multiplier.transfer.IsFactorAddress current.nextA :=
      ⟨count, hcount, .inl hto.nextA_eq⟩
    have hB : multiplier.transfer.IsFactorAddress current.nextB :=
      ⟨count, hcount, .inr hto.nextB_eq⟩
    obtain ⟨⟨limbA, hlimbA⟩, hfirst⟩ := hserves _ _ hA hstates
    cases load_case (hto.loading hcount) bus with
    | failedA fault hread hcycle =>
        rw [hread] at hlimbA
        cases hlimbA
    | failedB a fault first hread hsecond hcycle =>
        rw [hread] at hfirst
        obtain ⟨⟨limbB, hlimbB⟩, -⟩ := hserves _ _ hB hfirst
        rw [hsecond] at hlimbB
        cases hlimbB
    | loaded a b first second hread hsecond hcycle =>
        rw [hread] at hfirst
        obtain ⟨-, hlast⟩ := hserves _ _ hB hfirst
        rw [hsecond] at hlast
        rw [hcycle, hto.loadOffset]
        exact ⟨rfl, hto.takeLimbs (hto.loading hcount) a b, hlast⟩
  obtain ⟨loaded, after, hall, hto, hstates⟩ := repeatCycle_of_stages
    (fun count current bus => LoadedTo multiplier.transfer count current ∧ states bus)
    hstep ⟨.of_loading h, hbus⟩ h.offset_lt (Nat.sub_le_iff_le_add'.mp hbudget)
  refine ⟨loaded, after, ?_, hto, hstates⟩
  rw [loadAll_eq_repeatCycle, hall]

/-- A write-back of a product to some address that has come to a limb. -/
structure WrittenTo (product : Product) (base : UInt64) (count : Nat) (multiplier : Multiplier) :
    Prop where
  multiplyDone : multiplier.flags.multiplyDone = true
  product_eq : multiplier.product = product
  baseProduct : multiplier.transfer.baseProduct = base
  writeOffset : multiplier.transfer.writeOffset = count
  writeDone : multiplier.flags.writeDone = decide (count = productLimbs)

namespace WrittenTo

variable {product : Product} {base : UInt64} {count : Nat} {multiplier : Multiplier}

/-- A write-back that has not come to its end is pending. -/
theorem writing (h : WrittenTo product base count multiplier) (hcount : count < productLimbs) :
    Writing multiplier := by
  refine ⟨h.multiplyDone, ?_, ?_⟩
  · rw [h.writeDone, decide_eq_false (Nat.ne_of_lt hcount)]
  · rw [h.writeOffset]
    exact hcount

/-- A pending write-back has come to the limb at its offset. -/
theorem of_writing (h : Writing multiplier) :
    WrittenTo multiplier.product multiplier.transfer.baseProduct multiplier.transfer.writeOffset
      multiplier :=
  ⟨h.complete, rfl, rfl, rfl, by rw [h.pending, decide_eq_false (Nat.ne_of_lt h.offset_lt)]⟩

theorem nextProduct_eq (h : WrittenTo product base count multiplier) :
    multiplier.nextProduct = Transfer.limbAddress base count := by
  rw [nextProduct, h.baseProduct, h.writeOffset]

theorem nextLimb_eq (h : WrittenTo product base count multiplier) (hwriting : Writing multiplier)
    (hcount : count < productLimbs) : multiplier.nextLimb hwriting = product[count] := by
  simp only [nextLimb, h.product_eq, h.writeOffset]

/-- In a memory that has room for the product the next limb goes to its place. -/
theorem holds_nextProduct (h : WrittenTo product base count multiplier) {memory : Memory}
    (hsize : memory.size ≤ Memory.maxBytes) (hrange : base.toNat + productBytes ≤ memory.size)
    (hcount : count < productLimbs) :
    multiplier.nextProduct.toNat = base.toNat + limbBytes * count ∧
      memory.holds multiplier.nextProduct.toNat = true := by
  rw [h.nextProduct_eq]
  exact ⟨Memory.toNat_limbAddress hsize hcount hrange, Memory.holds_limb hcount hrange⟩

/-- A write-back that has come to its end is done. -/
theorem done (h : WrittenTo product base productLimbs multiplier) :
    multiplier.flags.writeDone = true :=
  h.writeDone

/-- One more limb of the product. -/
theorem countWritten (h : WrittenTo product base count multiplier) (hwriting : Writing multiplier) :
    WrittenTo product base (count + 1) multiplier.countWritten where
  multiplyDone := h.multiplyDone
  product_eq := h.product_eq
  baseProduct := h.baseProduct
  writeOffset := congrArg (· + 1) h.writeOffset
  writeDone := by
    simp [Multiplier.countWritten, hwriting.pending, h.writeOffset, Bool.beq_eq_decide_eq]

end WrittenTo

/-- A pending write-back takes a cycle for each limb that is left, if the bus serves them. -/
theorem writeBackAll_of_writing {multiplier : Multiplier} (h : Writing multiplier)
    {states : σ → Prop}
    (hserves : LimbBus.ServesWrites multiplier.transfer.IsProductAddress states)
    {bus : σ} (hbus : states bus) {budget : Nat}
    (hbudget : productLimbs - multiplier.transfer.writeOffset ≤ budget) :
    ∃ written after, multiplier.writeBackAll budget bus =
        .ok (productLimbs - multiplier.transfer.writeOffset, written, after) ∧
      WrittenTo multiplier.product multiplier.transfer.baseProduct productLimbs written ∧
      states after := by
  have hstep : ∀ {count current bus},
      WrittenTo multiplier.product multiplier.transfer.baseProduct count current ∧ states bus →
      count < productLimbs →
      (current.writeBackCycle bus).result = .ok (decide (count + 1 = productLimbs)) ∧
        WrittenTo multiplier.product multiplier.transfer.baseProduct (count + 1)
          (current.writeBackCycle bus).multiplier ∧
        states (current.writeBackCycle bus).bus := by
    intro count current bus hstage hcount
    obtain ⟨hto, hstates⟩ := hstage
    have haddress : multiplier.transfer.IsProductAddress current.nextProduct :=
      ⟨count, hcount, hto.nextProduct_eq⟩
    obtain ⟨hok, hlast⟩ :=
      hserves _ (current.nextLimb (hto.writing hcount)) _ haddress hstates
    cases write_case (hto.writing hcount) bus with
    | failed fault after hwrite hcycle =>
        rw [hwrite] at hok
        cases hok
    | written after hwrite hcycle =>
        rw [hwrite] at hlast
        rw [hcycle, hto.writeOffset]
        exact ⟨rfl, hto.countWritten (hto.writing hcount), hlast⟩
  obtain ⟨written, after, hall, hto, hstates⟩ := repeatCycle_of_stages
    (fun count current bus =>
      WrittenTo multiplier.product multiplier.transfer.baseProduct count current ∧ states bus)
    hstep ⟨.of_writing h, hbus⟩ h.offset_lt (Nat.sub_le_iff_le_add'.mp hbudget)
  refine ⟨written, after, ?_, hto, hstates⟩
  rw [writeBackAll_eq_repeatCycle, hall]

end Multiplier

end WideMultiplier
