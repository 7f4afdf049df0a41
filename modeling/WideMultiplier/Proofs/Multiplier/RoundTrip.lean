import WideMultiplier.Proofs.Multiplier.FaultyMemory
import WideMultiplier.Proofs.Multiplier.Reachable

/-!
# Round trips through memory

A host lets a multiplier load two factors from memory, multiply them and write the product back, and
tries every cycle that fails again (`Multiplier.roundTrip`). However reads and writes fail on the
way, each limb is moved once, and the bytes of the product end up in memory
(`Multiplier.Reachable.round_trip`). The cycles of each transfer go through stages, one for each
limb that was moved (`Multiplier.FactorsLoaded.step`, `Multiplier.ProductWritten.step`), and a cycle
that fails stays in its stage.
-/

namespace WideMultiplier

namespace Multiplier

/-! ## The host -/

section Host

variable {σ : Type}

/-- Repeats a cycle until it answers that its phase is done, also after faults: the number of cycles
that were no faults, and the state after them. There is no result if the budget of cycles runs out.
-/
def persist (cycle : Multiplier → σ → Moved σ) :
    Nat → Multiplier → σ → Option (Nat × Multiplier × σ)
  | 0, _, _ => none
  | budget + 1, multiplier, bus =>
    let moved := cycle multiplier bus
    match moved.result with
    | .error _ => persist cycle budget moved.multiplier moved.bus
    | .ok true => some (1, moved.multiplier, moved.bus)
    | .ok false =>
      match persist cycle budget moved.multiplier moved.bus with
      | none => none
      | some (cycles, rest) => some (cycles + 1, rest)

/-- What a round trip has come to: the cycles of each transfer that were no faults, and the state
after them. -/
structure RoundTrip (σ : Type) where
  loads : Nat
  writes : Nat
  multiplier : Multiplier
  bus : σ

/-- Loads two factors, multiplies them and writes the product back. There is no result if the budget
of cycles runs out in one of the transfers. -/
def roundTrip [LimbBus σ] (multiplier : Multiplier) (budget : Nat)
    (baseA baseB baseProduct : UInt64) (bus : σ) : Option (RoundTrip σ) :=
  match persist loadCycle budget (multiplier.beginLoad baseA baseB) bus with
  | none => none
  | some (loads, loaded, bus) =>
    match persist writeBackCycle budget (loaded.issue baseProduct).run.multiplier bus with
    | none => none
    | some (writes, written, bus) => some ⟨loads, writes, written, bus⟩

variable {cycle : Multiplier → σ → Moved σ}

/-- Where each cycle fails in its stage or leads to the next one, and the last one answers that the
phase is done, the cycles that do not fail are as many as there are stages left. -/
theorem persist_of_stages {last : Nat} {Stage : Nat → Multiplier → σ → Prop}
    (hstep : ∀ {count multiplier bus}, Stage count multiplier bus → count < last →
      ((∃ fault, (cycle multiplier bus).result = .error fault) ∧
          Stage count (cycle multiplier bus).multiplier (cycle multiplier bus).bus) ∨
        ((cycle multiplier bus).result = .ok (decide (count + 1 = last)) ∧
          Stage (count + 1) (cycle multiplier bus).multiplier (cycle multiplier bus).bus))
    {budget count cycles : Nat} {multiplier after : Multiplier} {bus bus' : σ}
    (h : Stage count multiplier bus) (hcount : count < last)
    (hpersist : persist cycle budget multiplier bus = some (cycles, after, bus')) :
    cycles = last - count ∧ Stage last after bus' := by
  induction budget generalizing count cycles multiplier bus with
  | zero => cases hpersist
  | succ budget ih =>
      rw [persist] at hpersist
      rcases hstep h hcount with ⟨⟨fault, hresult⟩, hsame⟩ | ⟨hresult, hnext⟩
      · rw [hresult] at hpersist
        exact ih hsame hcount hpersist
      · rw [hresult] at hpersist
        by_cases hlast : count + 1 = last
        · rw [decide_eq_true hlast] at hpersist
          cases hpersist
          rw [hlast] at hnext
          exact ⟨by omega, hnext⟩
        · rw [decide_eq_false hlast] at hpersist
          dsimp only at hpersist
          split at hpersist
          · cases hpersist
          · next more rest hrest =>
              cases hpersist
              obtain ⟨hmore, hend⟩ := ih hnext (by omega) hrest
              exact ⟨by omega, hend⟩

/-- Where moreover each failure uses up some patience, the budget of cycles does not run out. -/
theorem exists_persist (Stage : Nat → Multiplier → σ → Prop) (last : Nat) (patience : σ → Nat)
    (hstep : ∀ {count multiplier bus}, Stage count multiplier bus → count < last →
      ((∃ fault, (cycle multiplier bus).result = .error fault) ∧
          Stage count (cycle multiplier bus).multiplier (cycle multiplier bus).bus ∧
          patience (cycle multiplier bus).bus < patience bus) ∨
        ((cycle multiplier bus).result = .ok (decide (count + 1 = last)) ∧
          Stage (count + 1) (cycle multiplier bus).multiplier (cycle multiplier bus).bus ∧
          patience (cycle multiplier bus).bus ≤ patience bus))
    {budget count : Nat} {multiplier : Multiplier} {bus : σ} (h : Stage count multiplier bus)
    (hcount : count < last) (hbudget : patience bus + (last - count) ≤ budget) :
    ∃ cycles after bus', persist cycle budget multiplier bus = some (cycles, after, bus') := by
  induction budget generalizing count multiplier bus with
  | zero => omega
  | succ budget ih =>
      rw [persist]
      rcases hstep h hcount with ⟨⟨fault, hresult⟩, hsame, hless⟩ | ⟨hresult, hnext, hle⟩
      · rw [hresult]
        exact ih hsame hcount (by omega)
      · rw [hresult]
        by_cases hlast : count + 1 = last
        · rw [decide_eq_true hlast]
          exact ⟨_, _, _, rfl⟩
        · rw [decide_eq_false hlast]
          obtain ⟨cycles, after, bus', hrest⟩ := ih hnext (by omega) (by omega)
          dsimp only
          rw [hrest]
          exact ⟨_, _, _, rfl⟩

end Host

/-! ## Loading from memory -/

/-- A load over a memory with outages that has come to a limb: the limbs before it are those that
lie in memory, and no access has touched the memory. -/
structure FactorsLoaded (config : Config) (transfer : Transfer) (start : FaultyBus Memory)
    (count : Nat) (multiplier : Multiplier) (bus : FaultyBus Memory) : Prop where
  formed : WellFormed config multiplier
  loadedTo : LoadedTo transfer count multiplier
  factorA : multiplier.operands.a.LoadedFrom start.bus transfer.baseA.toNat count
  factorB : multiplier.operands.b.LoadedFrom start.bus transfer.baseB.toNat count
  memory : bus.bus = start.bus
  reads : start.reads.Later bus.reads
  writes : bus.writes = start.writes

section Loads

variable {config : Config} {transfer : Transfer} {start bus : FaultyBus Memory}
  {multiplier : Multiplier} {budget : Nat} (hsize : start.bus.size ≤ Memory.maxBytes)
  (hA : transfer.baseA.toNat + operandBytes ≤ start.bus.size)
  (hB : transfer.baseB.toNat + operandBytes ≤ start.bus.size)

include hsize hA hB

/-- A cycle of a load fails in its stage or leads to the next one. -/
theorem FactorsLoaded.step {count : Nat}
    (h : FactorsLoaded config transfer start count multiplier bus)
    (hcount : count < operandLimbs) :
    ((∃ fault, (multiplier.loadCycle bus).result = .error fault) ∧
        FactorsLoaded config transfer start count (multiplier.loadCycle bus).multiplier
          (multiplier.loadCycle bus).bus ∧
        bus.reads.Failed (multiplier.loadCycle bus).bus.reads) ∨
      ((multiplier.loadCycle bus).result = .ok (decide (count + 1 = operandLimbs)) ∧
        FactorsLoaded config transfer start (count + 1) (multiplier.loadCycle bus).multiplier
          (multiplier.loadCycle bus).bus ∧
        bus.reads.Later (multiplier.loadCycle bus).bus.reads) := by
  have hloading := h.loadedTo.loading hcount
  have hoffset := h.loadedTo.loadOffset
  have hformed : WellFormed config (multiplier.loadCycle bus).multiplier :=
    h.formed.apply bus .loadCycle
  obtain ⟨hnextA, hholdsA⟩ := h.loadedTo.holds_nextA hsize hA hcount
  obtain ⟨hnextB, hholdsB⟩ := h.loadedTo.holds_nextB hsize hB hcount
  rw [← h.memory] at hholdsA hholdsB
  rcases loadCycle_cases hloading hholdsA hholdsB with
    ⟨fault, reads, hfailed, hcycle⟩ | ⟨reads, events, hlater, hcycle⟩
  · left
    rw [hcycle] at hformed ⊢
    exact ⟨⟨fault, rfl⟩, ⟨hformed, h.loadedTo, h.factorA, h.factorB, h.memory,
      h.reads.trans hfailed.toLater, h.writes⟩, hfailed⟩
  · right
    rw [hcycle] at hformed ⊢
    refine ⟨by rw [hoffset], ⟨hformed, h.loadedTo.takeLimbs hloading _ _, ?_, ?_, h.memory,
      h.reads.trans hlater, h.writes⟩, hlater⟩
    · have hset := h.factorA.set hcount
      simp only [takeLimbs, countLoaded, hoffset, h.memory, hnextA]
      exact hset
    · have hset := h.factorB.set hcount
      simp only [takeLimbs, countLoaded, hoffset, h.memory, hnextB]
      exact hset

/-- A load that comes to its end has loaded each limb once. -/
theorem FactorsLoaded.of_persist (h : FactorsLoaded config transfer start 0 multiplier bus)
    {cycles : Nat} {after : Multiplier} {bus' : FaultyBus Memory}
    (hpersist : persist loadCycle budget multiplier bus = some (cycles, after, bus')) :
    cycles = operandLimbs ∧ FactorsLoaded config transfer start operandLimbs after bus' := by
  refine persist_of_stages (fun hstage hcount => ?_) h (by decide) hpersist
  rcases hstage.step hsize hA hB hcount with ⟨hfault, hsame, -⟩ | ⟨hresult, hnext, -⟩
  · exact .inl ⟨hfault, hsame⟩
  · exact .inr ⟨hresult, hnext⟩

/-- A load comes to its end if the failures do. -/
theorem FactorsLoaded.exists_persist (h : FactorsLoaded config transfer start 0 multiplier bus)
    {last : Nat} (hsettled : start.reads.SettledBy last) (hbudget : last + operandLimbs ≤ budget) :
    ∃ cycles after bus', persist loadCycle budget multiplier bus = some (cycles, after, bus') := by
  refine Multiplier.exists_persist (FactorsLoaded config transfer start) operandLimbs
    (fun bus => last - bus.reads.made) (fun hstage hcount => ?_) h (by decide) (by omega)
  rcases hstage.step hsize hA hB hcount with ⟨hfault, hsame, hfailed⟩ | ⟨hresult, hnext, hlater⟩
  · exact .inl ⟨hfault, hsame, hfailed.sub_lt (hstage.reads.settledBy hsettled)⟩
  · exact .inr ⟨hresult, hnext, Nat.sub_le_sub_left hlater.made_le last⟩

end Loads

/-! ## Writing back to memory -/

/-- A write-back over a memory with outages that has come to a limb: the limbs before it are stored
in memory, and nothing else was touched. -/
structure ProductWritten (product : Product) (base : UInt64) (memory : Memory) (writes : Outages)
    (count : Nat) (multiplier : Multiplier) (bus : FaultyBus Memory) : Prop where
  writtenTo : WrittenTo product base count multiplier
  stored : product.StoredIn base.toNat count memory bus.bus
  writes : writes.Later bus.writes

section Writes

variable {product : Product} {base : UInt64} {memory : Memory} {writes : Outages}
  {multiplier : Multiplier} {bus : FaultyBus Memory} {budget : Nat}
  (hsize : memory.size ≤ Memory.maxBytes) (hrange : base.toNat + productBytes ≤ memory.size)

include hsize hrange

/-- A cycle of a write-back fails in its stage or leads to the next one. -/
theorem ProductWritten.step {count : Nat}
    (h : ProductWritten product base memory writes count multiplier bus)
    (hcount : count < productLimbs) :
    ((∃ fault, (multiplier.writeBackCycle bus).result = .error fault) ∧
        ProductWritten product base memory writes count (multiplier.writeBackCycle bus).multiplier
          (multiplier.writeBackCycle bus).bus ∧
        bus.writes.Failed (multiplier.writeBackCycle bus).bus.writes) ∨
      ((multiplier.writeBackCycle bus).result = .ok (decide (count + 1 = productLimbs)) ∧
        ProductWritten product base memory writes (count + 1)
          (multiplier.writeBackCycle bus).multiplier (multiplier.writeBackCycle bus).bus ∧
        bus.writes.Later (multiplier.writeBackCycle bus).bus.writes) := by
  have hwriting := h.writtenTo.writing hcount
  have hoffset := h.writtenTo.writeOffset
  have hlimb := h.writtenTo.nextLimb_eq hwriting hcount
  rw [← h.stored.size_eq] at hsize
  obtain ⟨hnext, hholds⟩ :=
    h.writtenTo.holds_nextProduct hsize (by rw [h.stored.size_eq]; exact hrange) hcount
  rcases writeBackCycle_cases hwriting hholds with
    ⟨fault, writes, hfailed, hcycle⟩ | ⟨writes, events, hlater, hcycle⟩
  · left
    rw [hcycle]
    exact ⟨⟨fault, rfl⟩, ⟨h.writtenTo, h.stored, h.writes.trans hfailed.toLater⟩, hfailed⟩
  · right
    rw [hcycle]
    refine ⟨by rw [hoffset], ⟨h.writtenTo.countWritten hwriting, ?_, h.writes.trans hlater⟩,
      hlater⟩
    rw [hlimb, hnext]
    exact h.stored.putLimb hcount hrange

/-- A write-back that comes to its end has stored each limb once. -/
theorem ProductWritten.of_persist
    (h : ProductWritten product base memory writes 0 multiplier bus) {cycles : Nat}
    {after : Multiplier} {bus' : FaultyBus Memory}
    (hpersist : persist writeBackCycle budget multiplier bus = some (cycles, after, bus')) :
    cycles = productLimbs ∧ ProductWritten product base memory writes productLimbs after bus' := by
  refine persist_of_stages (fun hstage hcount => ?_) h (by decide) hpersist
  rcases hstage.step hsize hrange hcount with ⟨hfault, hsame, -⟩ | ⟨hresult, hnext, -⟩
  · exact .inl ⟨hfault, hsame⟩
  · exact .inr ⟨hresult, hnext⟩

/-- A write-back comes to its end if the failures do. -/
theorem ProductWritten.exists_persist
    (h : ProductWritten product base memory writes 0 multiplier bus) {last : Nat}
    (hsettled : writes.SettledBy last) (hbudget : last + productLimbs ≤ budget) :
    ∃ cycles after bus',
      persist writeBackCycle budget multiplier bus = some (cycles, after, bus') := by
  refine Multiplier.exists_persist (ProductWritten product base memory writes) productLimbs
    (fun bus => last - bus.writes.made) (fun hstage hcount => ?_) h (by decide) (by omega)
  rcases hstage.step hsize hrange hcount with ⟨hfault, hsame, hfailed⟩ | ⟨hresult, hnext, hlater⟩
  · exact .inl ⟨hfault, hsame, hfailed.sub_lt (hstage.writes.settledBy hsettled)⟩
  · exact .inr ⟨hresult, hnext, Nat.sub_le_sub_left hlater.made_le last⟩

end Writes

/-! ## The way there and back -/

section Trips

variable {config : Config} {unit : Multiplier} {memory : Memory} {baseA baseB baseProduct : UInt64}

/-- A load that has just begun has come to the first limb. -/
theorem factorsLoaded_beginLoad (h : WellFormed config unit) (hfree : unit.progress = .notStarted)
    (baseA baseB : UInt64) (start : FaultyBus Memory) :
    FactorsLoaded config { unit.transfer with baseA, baseB } start 0
      (unit.beginLoad baseA baseB) start := by
  have hbegun : unit.beginLoad baseA baseB =
      { unit with
        transfer := { unit.transfer with baseA, baseB, loadOffset := 0 }
        flags := { unit.flags with loadDone := false } } := by
    simp [beginLoad, hfree, Progress.isRunning]
  have hformed : WellFormed config (unit.beginLoad baseA baseB) :=
    h.apply start (.beginLoad baseA baseB)
  rw [hbegun] at hformed ⊢
  refine ⟨hformed, ⟨hfree, rfl, rfl, rfl, rfl⟩, ?_, ?_, rfl, .refl _, rfl⟩
  · intro index hindex hlt
    cases hlt
  · intro index hindex hlt
    cases hlt

/-- Behind a load the product of the factors is written back from the first limb on. -/
theorem FactorsLoaded.productWritten {transfer : Transfer} {start bus : FaultyBus Memory}
    {loaded : Multiplier} (h : FactorsLoaded config transfer start operandLimbs loaded bus)
    (base : UInt64) :
    ProductWritten (loaded.issue base).run.multiplier.product base start.bus start.writes 0
      (loaded.issue base).run.multiplier bus := by
  have hmultiplied := multiplied_run (h.formed.issue base).consistent rfl
  refine ⟨⟨hmultiplied.multiplyDone, rfl, hmultiplied.baseProduct, hmultiplied.writeOffset, ?_⟩,
    ?_, ?_⟩
  · rw [hmultiplied.writeDone]
    rfl
  · rw [h.memory]
    exact .zero _ _ _
  · rw [h.writes]
    exact .refl _

/-- Behind a load the product is that of the numbers that the bytes in memory write. -/
theorem FactorsLoaded.value_product {transfer : Transfer} {start bus : FaultyBus Memory}
    {loaded : Multiplier} (h : FactorsLoaded config transfer start operandLimbs loaded bus)
    (base : UInt64) :
    (loaded.issue base).run.multiplier.product.value =
      bytesValue (start.bus.region transfer.baseA.toNat operandBytes) *
        bytesValue (start.bus.region transfer.baseB.toNat operandBytes) := by
  have hmultiplied := multiplied_run (h.formed.issue base).consistent rfl
  calc
    (loaded.issue base).run.multiplier.product.value
        = loaded.operands.a.value * loaded.operands.b.value := hmultiplied.value
    _ = _ := by rw [h.factorA.value_eq, h.factorB.value_eq]

/-- A round trip comes to its end when both of its transfers do. -/
theorem roundTrip_eq_some_iff {σ : Type} [LimbBus σ] {budget : Nat} {bus : σ}
    {trip : RoundTrip σ} :
    unit.roundTrip budget baseA baseB baseProduct bus = some trip ↔
      ∃ loaded middle,
        persist loadCycle budget (unit.beginLoad baseA baseB) bus =
            some (trip.loads, loaded, middle) ∧
          persist writeBackCycle budget (loaded.issue baseProduct).run.multiplier middle =
            some (trip.writes, trip.multiplier, trip.bus) := by
  unfold roundTrip
  constructor
  · intro htrip
    split at htrip
    · cases htrip
    · next loads loaded middle hload =>
        split at htrip
        · cases htrip
        · next writes written after hwrite =>
            cases htrip
            exact ⟨loaded, middle, hload, hwrite⟩
  · rintro ⟨loaded, middle, hload, hwrite⟩
    rw [hload]
    dsimp only
    rw [hwrite]

/-- A host that loads two factors from memory, multiplies them, writes the product back and tries
again what fails, moves each limb once. It leaves the bytes of the product behind its address and
all others as they were, whatever lies where: the factors are those that lay in memory at first. A
cycle that fails changes neither the multiplier nor the memory. The host comes to an end if the
failures do. -/
theorem Reachable.round_trip (h : Reachable config unit) (hfree : unit.progress = .notStarted)
    (hsize : memory.size ≤ Memory.maxBytes) (hA : baseA.toNat + operandBytes ≤ memory.size)
    (hB : baseB.toNat + operandBytes ≤ memory.size)
    (hproduct : baseProduct.toNat + productBytes ≤ memory.size) (reads writes : Outages) :
    (∀ (budget : Nat) (trip : RoundTrip (FaultyBus Memory)),
      unit.roundTrip budget baseA baseB baseProduct ⟨memory, reads, writes⟩ = some trip →
        trip.loads = operandLimbs ∧ trip.writes = productLimbs ∧
          trip.bus.bus.size = memory.size ∧
          trip.bus.bus.region baseProduct.toNat productBytes =
            bytesOf productBytes (bytesValue (memory.region baseA.toNat operandBytes) *
              bytesValue (memory.region baseB.toNat operandBytes)) ∧
          ∀ place, place < baseProduct.toNat ∨ baseProduct.toNat + productBytes ≤ place →
            trip.bus.bus.byteAt place = memory.byteAt place) ∧
      (∀ (current : Multiplier) (bus : FaultyBus Memory) (fault : Fault),
        ((current.loadCycle bus).result = .error fault →
          (current.loadCycle bus).multiplier = current ∧
            (current.loadCycle bus).bus.bus = bus.bus) ∧
        ((current.writeBackCycle bus).result = .error fault →
          (current.writeBackCycle bus).multiplier = current ∧
            (current.writeBackCycle bus).bus.bus = bus.bus)) ∧
      ∀ last, reads.SettledBy last → writes.SettledBy last →
        ∃ (budget : Nat) (trip : RoundTrip (FaultyBus Memory)),
          unit.roundTrip budget baseA baseB baseProduct ⟨memory, reads, writes⟩ = some trip := by
  have hbegun := factorsLoaded_beginLoad h.wellFormed hfree baseA baseB ⟨memory, reads, writes⟩
  refine ⟨?_, ?_, ?_⟩
  · intro budget trip htrip
    obtain ⟨loaded, middle, hload, hwrite⟩ := roundTrip_eq_some_iff.mp htrip
    obtain ⟨hloads, hloaded⟩ := hbegun.of_persist hsize hA hB hload
    obtain ⟨hwrites, hwritten⟩ :=
      (hloaded.productWritten baseProduct).of_persist hsize hproduct hwrite
    refine ⟨hloads, hwrites, hwritten.stored.size_eq, ?_, hwritten.stored.outside⟩
    rw [hwritten.stored.region_eq, hloaded.value_product]
  · intro current bus fault
    exact ⟨current.loadCycle_of_error bus, current.writeBackCycle_of_error bus⟩
  · intro last hreads hwrites
    have hbudget : last + operandLimbs ≤ last + productLimbs :=
      Nat.add_le_add_left (by decide) last
    obtain ⟨loads, loaded, middle, hload⟩ := hbegun.exists_persist hsize hA hB hreads hbudget
    obtain ⟨-, hloaded⟩ := hbegun.of_persist hsize hA hB hload
    obtain ⟨stores, written, after, hwrite⟩ := (hloaded.productWritten baseProduct).exists_persist
      hsize hproduct hwrites (Nat.le_refl _)
    exact ⟨last + productLimbs, ⟨loads, stores, written, after⟩,
      roundTrip_eq_some_iff.mpr ⟨loaded, middle, hload, hwrite⟩⟩

/-- A memory whose only bytes that are not zero lie in both factors and under the product. -/
def overlapping : Memory :=
  (Memory.zero 2048).putLimb 504 7

/-- A round trip over such a memory, on which one read and one write fail. -/
theorem Reachable.round_trip_overlapping :
    ∃ (budget : Nat) (trip : RoundTrip (FaultyBus Memory)),
      (idle (.ofProfile .singleCycle)).roundTrip budget 0 256 500
          ⟨overlapping, .after 5, .after 7⟩ = some trip ∧
        trip.loads = 64 ∧ trip.writes = 128 ∧
        trip.bus.bus.region (500 : UInt64).toNat productBytes =
          bytesOf productBytes
            (bytesValue (overlapping.region (0 : UInt64).toNat operandBytes) *
              bytesValue (overlapping.region (256 : UInt64).toNat operandBytes)) := by
  have hnew : Reachable (.ofProfile .singleCycle) (idle (.ofProfile .singleCycle)) := .create rfl
  have hsize : overlapping.size = 2048 := by
    rw [overlapping, Memory.size_putLimb]
    rfl
  have hlimit : overlapping.size ≤ Memory.maxBytes := by
    rw [hsize]
    decide
  have hA : (0 : UInt64).toNat + operandBytes ≤ overlapping.size := by
    rw [hsize]
    decide
  have hB : (256 : UInt64).toNat + operandBytes ≤ overlapping.size := by
    rw [hsize]
    decide
  have hproduct : (500 : UInt64).toNat + productBytes ≤ overlapping.size := by
    rw [hsize]
    decide
  have hsettled : ∀ skip ≤ 7, (Outages.after skip).SettledBy 8 := by
    intro skip hskip number hnumber
    simp only [Outages.after, beq_eq_false_iff_ne]
    omega
  obtain ⟨hends, -, hcomes⟩ :=
    round_trip hnew rfl hlimit hA hB hproduct (.after 5) (.after 7)
  obtain ⟨budget, trip, htrip⟩ := hcomes 8 (hsettled 5 (by decide)) (hsettled 7 (by decide))
  obtain ⟨hloads, hwrites, -, hregion, -⟩ := hends budget trip htrip
  exact ⟨budget, trip, htrip, hloads, hwrites, hregion⟩

end Trips

end Multiplier

end WideMultiplier
