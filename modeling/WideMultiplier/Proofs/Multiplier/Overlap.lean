import WideMultiplier.Proofs.Multiplier.Converging
import WideMultiplier.Proofs.Multiplier.Recording

/-!
# Loads and write-backs overlap

The next factors may be loaded while the last product is written back. A cycle of a load leaves what
a write-back works on alone, and the other way round (`Multiplier.DrainsAlike.loadCycle`,
`Multiplier.LoadsAlike.writeBackCycle`), so where their buffers lie apart in memory each phase goes
as if the other one were not there (`Multiplier.overlap`). Hence the cycles of both may be mixed in
any order: `Multiplier.Reachable.transfers_overlap`.
-/

namespace WideMultiplier

/-- A phase that moves limbs over a bus. -/
inductive TransferPhase where
  | load
  | writeBack
deriving DecidableEq

/-- A cycle of a phase. -/
def TransferPhase.cycle {σ : Type} [LimbBus σ] (multiplier : Multiplier) (bus : σ) :
    TransferPhase → Moved σ
  | .load => multiplier.loadCycle bus
  | .writeBack => multiplier.writeBackCycle bus

/-- What a cycle answers, and the events that it reports. -/
structure Reply where
  result : Except Fault Bool
  events : List Event

/-- The state after some cycles, and what each of them replied. -/
structure Transferred (σ : Type) where
  multiplier : Multiplier
  bus : σ
  replies : List (TransferPhase × Reply)

namespace Transferred

variable {σ : Type}

/-- The replies to the cycles of one phase, in order. -/
def repliesTo (transferred : Transferred σ) (phase : TransferPhase) : List Reply :=
  transferred.replies.filterMap fun reply => if reply.1 = phase then some reply.2 else none

/-- The same state with one more reply in front. -/
def preceded (transferred : Transferred σ) (phase : TransferPhase) (reply : Reply) :
    Transferred σ :=
  { transferred with replies := (phase, reply) :: transferred.replies }

theorem repliesTo_preceded (transferred : Transferred σ) (first : TransferPhase) (reply : Reply)
    (phase : TransferPhase) : (transferred.preceded first reply).repliesTo phase =
      if first = phase then reply :: transferred.repliesTo phase
      else transferred.repliesTo phase := by
  by_cases hsame : first = phase <;> simp [repliesTo, preceded, hsame]

end Transferred

namespace Multiplier

/-- Makes cycles of the two phases in some order, over one bus. -/
def transferAll {σ : Type} [LimbBus σ] (multiplier : Multiplier) (bus : σ) :
    List TransferPhase → Transferred σ
  | [] => ⟨multiplier, bus, []⟩
  | phase :: rest =>
    let moved := phase.cycle multiplier bus
    (transferAll moved.multiplier moved.bus rest).preceded phase ⟨moved.result, moved.events⟩

end Multiplier

/-! ## Limbs that lie apart -/

namespace Memory

/-- Whether limbs at two addresses have no byte in common. -/
def Apart (first second : UInt64) : Prop :=
  first.toNat + limbBytes ≤ second.toNat ∨ second.toNat + limbBytes ≤ first.toNat

/-- A read leaves the memory as it is. -/
theorem bus_read (address : UInt64) (memory : Memory) :
    LimbBus.read address memory = (memory.read address, memory) := rfl

theorem bus_write (address : UInt64) (limb : Limb) (memory : Memory) :
    LimbBus.write address limb memory = memory.write address limb := rfl

/-- A limb reads the same after a write elsewhere. -/
theorem read_write_of_apart {address place : UInt64} (h : Apart address place) (limb : Limb)
    (memory : Memory) : (memory.write place limb).2.read address = memory.read address := by
  unfold write
  split
  · next hholds =>
      have hlimb : (memory.putLimb place.toNat limb).limbAt address.toNat =
          memory.limbAt address.toNat := by
        refine congrArg Limb.ofBytes (region_congr fun byte hfrom hto => ?_)
        have hlength : (Limb.toBytes limb).length = limbBytes := Limb.length_toBytes _
        have hfits : place.toNat + limbBytes ≤ memory.size := of_decide_eq_true hholds
        refine byteAt_putBytes_of_outside _ (by rwa [hlength]) ?_
        rw [hlength]
        rcases h with hbefore | hbehind
        · exact .inl (by omega)
        · exact .inr (by omega)
      rw [read, read, holds, size_putLimb, hlimb]
      rfl
  · rfl

end Memory

namespace Transfer

/-- Whether no limb of a factor that is left to load has a byte in common with a limb of the product
that is left to write back. -/
def Apart (transfer : Transfer) : Prop :=
  ∀ index place, transfer.loadOffset ≤ index → index < operandLimbs →
    transfer.writeOffset ≤ place → place < productLimbs →
      Memory.Apart (limbAddress transfer.baseA index) (limbAddress transfer.baseProduct place) ∧
        Memory.Apart (limbAddress transfer.baseB index) (limbAddress transfer.baseProduct place)

/-- Factors and a product whose buffers lie in memory and do not meet there lie apart limb by limb.
-/
theorem apart_of_disjoint {transfer : Transfer} {size : Nat} (hsize : size ≤ Memory.maxBytes)
    (hA : transfer.baseA.toNat + operandBytes ≤ size)
    (hB : transfer.baseB.toNat + operandBytes ≤ size)
    (hproduct : transfer.baseProduct.toNat + productBytes ≤ size)
    (hfirst : transfer.baseA.toNat + operandBytes ≤ transfer.baseProduct.toNat ∨
      transfer.baseProduct.toNat + productBytes ≤ transfer.baseA.toNat)
    (hsecond : transfer.baseB.toNat + operandBytes ≤ transfer.baseProduct.toNat ∨
      transfer.baseProduct.toNat + productBytes ≤ transfer.baseB.toNat) : transfer.Apart := by
  have hmax : Memory.maxBytes + productBytes < UInt64.size := by decide
  intro index place _ hindex _ hplace
  have hfactor : limbBytes * index + limbBytes ≤ operandBytes := by
    rw [← Nat.mul_succ, Nat.mul_comm]
    exact Nat.mul_le_mul_right _ hindex
  have hlimb : limbBytes * place + limbBytes ≤ productBytes := by
    rw [← Nat.mul_succ, Nat.mul_comm]
    exact Nat.mul_le_mul_right _ hplace
  rw [Memory.Apart, Memory.Apart, toNat_limbAddress (by omega), toNat_limbAddress (by omega),
    toNat_limbAddress (by omega)]
  omega

/-- Whether the limbs of the factors that are left to load read the same in two memories. -/
def ReadsAlike (transfer : Transfer) (before after : Memory) : Prop :=
  ∀ index, transfer.loadOffset ≤ index → index < operandLimbs →
    after.read (limbAddress transfer.baseA index) = before.read (limbAddress transfer.baseA index) ∧
      after.read (limbAddress transfer.baseB index) =
        before.read (limbAddress transfer.baseB index)

end Transfer

namespace Multiplier

/-! ## What each phase works on -/

/-- Multipliers between which a load makes no difference. -/
structure LoadsAlike (left right : Multiplier) : Prop extends SameLoad left right where
  config : right.config = left.config
  operands : right.operands = left.operands
  progress : right.progress = left.progress

/-- Multipliers between which a write-back makes no difference. -/
structure DrainsAlike (left right : Multiplier) : Prop where
  config : right.config = left.config
  product : right.product = left.product
  multiplyDone : right.flags.multiplyDone = left.flags.multiplyDone
  writeDone : right.flags.writeDone = left.flags.writeDone
  baseProduct : right.transfer.baseProduct = left.transfer.baseProduct
  writeOffset : right.transfer.writeOffset = left.transfer.writeOffset

/-- The multiplier that loads like one multiplier and writes back like another. -/
def combined (loads writes : Multiplier) (pipeline : Pipeline) : Multiplier :=
  { loads with
    product := writes.product
    pipeline
    flags := ⟨writes.flags.multiplyDone, loads.flags.loadDone, writes.flags.writeDone⟩
    transfer :=
      ⟨loads.transfer.baseA, loads.transfer.baseB, writes.transfer.baseProduct,
        loads.transfer.loadOffset, writes.transfer.writeOffset⟩ }

/-- How a multiplier loads and writes back is all there is to it besides the pipeline. -/
theorem LoadsAlike.eq_combined {loads writes current : Multiplier} (h : LoadsAlike loads current)
    (hdrains : DrainsAlike writes current) :
    current = combined loads writes current.pipeline := by
  rw [combined, ← h.config, ← h.operands, ← h.progress, ← h.loadDone, ← h.baseA, ← h.baseB,
    ← h.loadOffset, ← hdrains.product, ← hdrains.multiplyDone, ← hdrains.writeDone,
    ← hdrains.baseProduct, ← hdrains.writeOffset]

theorem LoadsAlike.refl (multiplier : Multiplier) : LoadsAlike multiplier multiplier :=
  ⟨⟨rfl, rfl, rfl, rfl⟩, rfl, rfl, rfl⟩

theorem DrainsAlike.refl (multiplier : Multiplier) : DrainsAlike multiplier multiplier :=
  ⟨rfl, rfl, rfl, rfl, rfl, rfl⟩

variable {left right : Multiplier}

/-- What a load does not work on. -/
theorem LoadsAlike.exists_eq (h : LoadsAlike left right) :
    ∃ product pipeline multiplyDone writeDone baseProduct writeOffset, right =
      { left with
        product, pipeline
        flags := { left.flags with multiplyDone, writeDone }
        transfer := { left.transfer with baseProduct, writeOffset } } :=
  ⟨right.product, right.pipeline, right.flags.multiplyDone, right.flags.writeDone,
    right.transfer.baseProduct, right.transfer.writeOffset, h.eq_combined (.refl right)⟩

/-- What a write-back does not work on. -/
theorem DrainsAlike.exists_eq (h : DrainsAlike left right) :
    ∃ operands pipeline progress loadDone baseA baseB loadOffset, right =
      { left with
        operands, pipeline, progress
        flags := { left.flags with loadDone }
        transfer := { left.transfer with baseA, baseB, loadOffset } } := by
  have hright := (LoadsAlike.refl right).eq_combined h
  rw [combined, h.config] at hright
  exact ⟨right.operands, right.pipeline, right.progress, right.flags.loadDone,
    right.transfer.baseA, right.transfer.baseB, right.transfer.loadOffset, hright⟩

/-- A cycle of a load does the same on multipliers that load alike, over memories that read alike.
-/
theorem LoadsAlike.step (h : LoadsAlike left right) {memory other : Memory}
    (hreads : left.flags.loadDone = false →
      other.read left.nextA = memory.read left.nextA ∧
        other.read left.nextB = memory.read left.nextB) :
    LoadsAlike (left.loadCycle memory).multiplier (right.loadCycle other).multiplier ∧
      (right.loadCycle other).result = (left.loadCycle memory).result ∧
      (right.loadCycle other).events = (left.loadCycle memory).events := by
  obtain ⟨product, pipeline, multiplyDone, writeDone, baseProduct, writeOffset, rfl⟩ := h.exists_eq
  unfold loadCycle
  dsimp only
  split
  · exact ⟨h, rfl, rfl⟩
  · next hfree =>
      simp only [Bool.or_eq_true, not_or, Bool.not_eq_true] at hfree
      obtain ⟨hA, hB⟩ := hreads hfree.1
      rw [nextA] at hA
      rw [nextB] at hB
      rw [Memory.bus_read, Memory.bus_read, hA]
      cases memory.read (Transfer.limbAddress left.transfer.baseA left.transfer.loadOffset) with
      | error fault => exact ⟨h, rfl, rfl⟩
      | ok a =>
          dsimp only
          rw [Memory.bus_read, Memory.bus_read, hB]
          cases memory.read (Transfer.limbAddress left.transfer.baseB left.transfer.loadOffset) with
          | error fault => exact ⟨h, rfl, rfl⟩
          | ok b =>
              dsimp only
              cases left.operands.setLimb left.transfer.loadOffset a b with
              | error fault => exact ⟨h, rfl, rfl⟩
              | ok operands => exact ⟨⟨⟨rfl, rfl, rfl, rfl⟩, rfl, rfl, rfl⟩, rfl, rfl⟩

/-- A cycle of a write-back does the same on multipliers that write back alike. -/
theorem DrainsAlike.step (h : DrainsAlike left right) {σ : Type} [LimbBus σ] (bus : σ) :
    DrainsAlike (left.writeBackCycle bus).multiplier (right.writeBackCycle bus).multiplier ∧
      (right.writeBackCycle bus).bus = (left.writeBackCycle bus).bus ∧
      (right.writeBackCycle bus).result = (left.writeBackCycle bus).result ∧
      (right.writeBackCycle bus).events = (left.writeBackCycle bus).events := by
  obtain ⟨operands, pipeline, progress, loadDone, baseA, baseB, loadOffset, rfl⟩ := h.exists_eq
  unfold writeBackCycle
  dsimp only
  split
  · exact ⟨h, rfl, rfl, rfl⟩
  · cases left.product.limb left.transfer.writeOffset with
    | error fault => exact ⟨h, rfl, rfl, rfl⟩
    | ok limb =>
        dsimp only
        obtain ⟨fault | done, after⟩ := LimbBus.write (Transfer.limbAddress
          left.transfer.baseProduct left.transfer.writeOffset) limb bus
        · exact ⟨h, rfl, rfl, rfl⟩
        · exact ⟨⟨rfl, rfl, rfl, rfl, rfl, rfl⟩, rfl, rfl, rfl⟩

/-! ## Neither phase disturbs the other -/

section Frames

variable {σ : Type} [LimbBus σ] (multiplier : Multiplier) (bus : σ)

/-- A cycle of a load counts one more limb of each factor or changes nothing. -/
theorem loadCycle_eq_or : (multiplier.loadCycle bus).multiplier = multiplier ∨
    ∃ operands, (multiplier.loadCycle bus).multiplier =
      { multiplier with operands }.countLoaded := by
  unfold loadCycle
  split
  · exact .inl rfl
  · dsimp only
    split
    · exact .inl rfl
    · split
      · exact .inl rfl
      · split
        · exact .inl rfl
        · exact .inr ⟨_, rfl⟩

/-- A cycle of a write-back counts one more limb of the product or changes nothing. -/
theorem writeBackCycle_eq_or : (multiplier.writeBackCycle bus).multiplier = multiplier ∨
    (multiplier.writeBackCycle bus).multiplier = multiplier.countWritten := by
  cases multiplier.writeBack_case bus with
  | idle hidle hafter hresult hstores => exact .inl hafter
  | failed hpending fault hafter hresult hstores => exact .inl hafter
  | stored hpending hoffset hafter hresult hstores => exact .inr hafter

/-- A cycle of a load makes no difference to a write-back. -/
theorem DrainsAlike.loadCycle (h : DrainsAlike left right) :
    DrainsAlike left (right.loadCycle bus).multiplier := by
  rcases right.loadCycle_eq_or bus with hsame | ⟨operands, hloaded⟩
  · rw [hsame]
    exact h
  · rw [hloaded]
    exact ⟨h.config, h.product, h.multiplyDone, h.writeDone, h.baseProduct, h.writeOffset⟩

/-- A cycle of a write-back makes no difference to a load. -/
theorem LoadsAlike.writeBackCycle (h : LoadsAlike left right) :
    LoadsAlike left (right.writeBackCycle bus).multiplier := by
  rcases right.writeBackCycle_eq_or bus with hsame | hwritten
  · rw [hsame]
    exact h
  · rw [hwritten]
    exact ⟨⟨h.loadDone, h.baseA, h.baseB, h.loadOffset⟩, h.config, h.operands, h.progress⟩

end Frames

/-- A cycle of a load leaves a memory as it is. -/
theorem loadCycle_memory (multiplier : Multiplier) (memory : Memory) :
    (multiplier.loadCycle memory).bus = memory := by
  unfold loadCycle
  split
  · rfl
  · dsimp only
    rw [Memory.bus_read]
    cases memory.read (Transfer.limbAddress multiplier.transfer.baseA
        multiplier.transfer.loadOffset) with
    | error fault => rfl
    | ok a =>
        dsimp only
        rw [Memory.bus_read]
        cases memory.read (Transfer.limbAddress multiplier.transfer.baseB
            multiplier.transfer.loadOffset) with
        | error fault => rfl
        | ok b =>
            dsimp only
            cases multiplier.operands.setLimb multiplier.transfer.loadOffset a b <;> rfl

/-- A cycle of a write-back changes no limb that lies apart from the one that it writes. -/
theorem read_writeBackCycle {multiplier : Multiplier} {memory : Memory} {address : UInt64}
    (h : multiplier.transfer.writeOffset < productLimbs →
      Memory.Apart address multiplier.nextProduct) :
    (multiplier.writeBackCycle memory).bus.read address = memory.read address := by
  unfold writeBackCycle
  split
  · rfl
  · dsimp only
    by_cases hoffset : multiplier.transfer.writeOffset < productLimbs
    · rw [Product.limb, dif_pos hoffset]
      have hkept := Memory.read_write_of_apart (h hoffset)
        multiplier.product[multiplier.transfer.writeOffset] memory
      rw [nextProduct] at hkept
      dsimp only
      rw [Memory.bus_write]
      split
      · next hfailed =>
          rw [hfailed] at hkept
          exact hkept
      · next hwritten =>
          rw [hwritten] at hkept
          exact hkept
    · rw [Product.limb, dif_neg hoffset]

/-! ## Both phases together -/

/-- A load and a write-back that are both under way, as seen from each of them alone. What is still
to be read does not lie where anything is still to be written. -/
structure Overlapping (config : Config) (loads : Multiplier) (before : Memory)
    (writes current : Multiplier) (after : Memory) : Prop where
  formed : WellFormed config current
  loadsAlike : LoadsAlike loads current
  drainsAlike : DrainsAlike writes current
  pipeline : current.pipeline = loads.pipeline
  readsAlike : current.transfer.ReadsAlike before after
  apart : current.transfer.Apart

namespace Overlapping

variable {config : Config} {loads writes current : Multiplier} {before after : Memory}

/-- A cycle of the load goes as if there were no write-back. -/
theorem load (h : Overlapping config loads before writes current after) :
    Overlapping config (loads.loadCycle before).multiplier before writes
        (current.loadCycle after).multiplier after ∧
      (current.loadCycle after).result = (loads.loadCycle before).result ∧
      (current.loadCycle after).events = (loads.loadCycle before).events := by
  have hreads : loads.flags.loadDone = false →
      after.read loads.nextA = before.read loads.nextA ∧
        after.read loads.nextB = before.read loads.nextB := by
    intro hpending
    rw [← h.loadsAlike.loadDone] at hpending
    have hnext := h.readsAlike _ (Nat.le_refl _) (h.formed.load.lt hpending)
    rw [h.loadsAlike.baseA, h.loadsAlike.baseB, h.loadsAlike.loadOffset] at hnext
    exact hnext
  obtain ⟨hloads, hresult, hevents⟩ := h.loadsAlike.step hreads
  have hformed : WellFormed config (current.loadCycle after).multiplier :=
    h.formed.loadsFactors after (show Operation.loadCycle.LoadsFactors from trivial)
  have hpipeline : (current.loadCycle after).multiplier.pipeline =
      (loads.loadCycle before).multiplier.pipeline := by
    rw [(current.loadCycle_sameDrain after).pipeline, (loads.loadCycle_sameDrain before).pipeline,
      h.pipeline]
  -- what is left to load afterwards was left before
  have hleft : (current.loadCycle after).multiplier.transfer.ReadsAlike before after ∧
      (current.loadCycle after).multiplier.transfer.Apart := by
    rcases current.loadCycle_eq_or after with hsame | ⟨operands, hloaded⟩
    · rw [hsame]
      exact ⟨h.readsAlike, h.apart⟩
    · rw [hloaded]
      constructor
      · exact fun index hindex => h.readsAlike index (Nat.le_of_succ_le hindex)
      · exact fun index place hindex => h.apart index place (Nat.le_of_succ_le hindex)
  exact ⟨⟨hformed, hloads, h.drainsAlike.loadCycle after, hpipeline, hleft.1, hleft.2⟩, hresult,
    hevents⟩

/-- A cycle of the write-back goes as if there were no load. -/
theorem writeBack (h : Overlapping config loads before writes current after) :
    Overlapping config loads before (writes.writeBackCycle after).multiplier
        (current.writeBackCycle after).multiplier (current.writeBackCycle after).bus ∧
      (current.writeBackCycle after).bus = (writes.writeBackCycle after).bus ∧
      (current.writeBackCycle after).result = (writes.writeBackCycle after).result ∧
      (current.writeBackCycle after).events = (writes.writeBackCycle after).events := by
  obtain ⟨hdrains, hbus, hresult, hevents⟩ := h.drainsAlike.step after
  have hkept : current.transfer.ReadsAlike before (current.writeBackCycle after).bus := by
    intro index hindex hlt
    obtain ⟨hA, hB⟩ := h.readsAlike index hindex hlt
    constructor
    · rw [← hA]
      exact read_writeBackCycle fun hplace =>
        (h.apart index _ hindex hlt (Nat.le_refl _) hplace).1
    · rw [← hB]
      exact read_writeBackCycle fun hplace =>
        (h.apart index _ hindex hlt (Nat.le_refl _) hplace).2
  have hpipeline : (current.writeBackCycle after).multiplier.pipeline = loads.pipeline := by
    rw [(current.writeBackCycle_sameRun after).pipeline, h.pipeline]
  -- what is left to write back afterwards was left before
  have hleft : (current.writeBackCycle after).multiplier.transfer.ReadsAlike before
        (current.writeBackCycle after).bus ∧
      (current.writeBackCycle after).multiplier.transfer.Apart := by
    rcases current.writeBackCycle_eq_or after with hsame | hwritten
    · rw [hsame]
      exact ⟨hkept, h.apart⟩
    · rw [hwritten]
      refine ⟨hkept, fun index place hindex hlt hplace => ?_⟩
      exact h.apart index place hindex hlt (Nat.le_of_succ_le hplace)
  exact ⟨⟨h.formed.writeBackCycle after, h.loadsAlike.writeBackCycle after, hdrains, hpipeline,
    hleft.1, hleft.2⟩, hbus, hresult, hevents⟩

end Overlapping

/-- Cycles of both phases over a memory that went like the cycles of each phase alone. -/
structure Overlaid (loaded written both : Transferred Memory) : Prop where
  loadsAlike : LoadsAlike loaded.multiplier both.multiplier
  drainsAlike : DrainsAlike written.multiplier both.multiplier
  pipeline : both.multiplier.pipeline = loaded.multiplier.pipeline
  bus : both.bus = written.bus
  loadReplies : both.repliesTo .load = loaded.repliesTo .load
  drainReplies : both.repliesTo .writeBack = written.repliesTo .writeBack

/-- Nothing is left open by the cycles of each phase alone. -/
theorem Overlaid.unique {loaded written first second : Transferred Memory}
    (hfirst : Overlaid loaded written first) (hsecond : Overlaid loaded written second) :
    first.multiplier = second.multiplier ∧ first.bus = second.bus ∧
      ∀ phase, first.repliesTo phase = second.repliesTo phase := by
  refine ⟨?_, hfirst.bus.trans hsecond.bus.symm, fun phase => ?_⟩
  · rw [hfirst.loadsAlike.eq_combined hfirst.drainsAlike,
      hsecond.loadsAlike.eq_combined hsecond.drainsAlike, hfirst.pipeline, hsecond.pipeline]
  · cases phase with
    | load => rw [hfirst.loadReplies, hsecond.loadReplies]
    | writeBack => rw [hfirst.drainReplies, hsecond.drainReplies]

/-- A cycle of a load comes before the others and leaves the memory to them. -/
theorem transferAll_load (multiplier : Multiplier) (memory : Memory) (rest : List TransferPhase) :
    multiplier.transferAll memory (.load :: rest) =
      ((multiplier.loadCycle memory).multiplier.transferAll memory rest).preceded .load
        ⟨(multiplier.loadCycle memory).result, (multiplier.loadCycle memory).events⟩ := by
  rw [transferAll]
  dsimp only [TransferPhase.cycle]
  rw [loadCycle_memory]

/-- A cycle of a write-back comes before the others. -/
theorem transferAll_writeBack {σ : Type} [LimbBus σ] (multiplier : Multiplier) (bus : σ)
    (rest : List TransferPhase) :
    multiplier.transferAll bus (.writeBack :: rest) =
      ((multiplier.writeBackCycle bus).multiplier.transferAll
          (multiplier.writeBackCycle bus).bus rest).preceded .writeBack
        ⟨(multiplier.writeBackCycle bus).result, (multiplier.writeBackCycle bus).events⟩ := rfl

/-- Cycles of both phases go like the cycles of each phase alone, in whatever order they come. -/
theorem overlap {config : Config} {loads writes current : Multiplier} {before after : Memory}
    (h : Overlapping config loads before writes current after) (cycles : List TransferPhase) :
    Overlaid (loads.transferAll before (List.replicate (cycles.count .load) .load))
      (writes.transferAll after (List.replicate (cycles.count .writeBack) .writeBack))
      (current.transferAll after cycles) := by
  induction cycles generalizing loads writes current after with
  | nil => exact ⟨h.loadsAlike, h.drainsAlike, h.pipeline, rfl, rfl, rfl⟩
  | cons phase rest ih =>
      cases phase with
      | load =>
          obtain ⟨hnext, hresult, hevents⟩ := h.load
          have hrest := ih hnext
          rw [List.count_cons_self, List.count_cons_of_ne (by decide), List.replicate_succ,
            transferAll_load, transferAll_load]
          refine ⟨hrest.loadsAlike, hrest.drainsAlike, hrest.pipeline, hrest.bus, ?_, ?_⟩
          · rw [Transferred.repliesTo_preceded, Transferred.repliesTo_preceded, hrest.loadReplies,
              hresult, hevents]
          · exact hrest.drainReplies
      | writeBack =>
          obtain ⟨hnext, hbus, hresult, hevents⟩ := h.writeBack
          have hrest := ih hnext
          rw [List.count_cons_self, List.count_cons_of_ne (by decide), List.replicate_succ,
            transferAll_writeBack, transferAll_writeBack, ← hbus]
          refine ⟨hrest.loadsAlike, hrest.drainsAlike, hrest.pipeline, hrest.bus, ?_, ?_⟩
          · exact hrest.loadReplies
          · rw [Transferred.repliesTo_preceded, Transferred.repliesTo_preceded, hrest.drainReplies,
              hresult, hevents]

/-- Where no limb that is left to load shares a byte with a limb that is left to write back, cycles
of a load and of a write-back may be mixed in any order. Each cycle replies what it replies when all
cycles of the load come first, and the multiplier and the memory end up the same. -/
theorem Reachable.transfers_overlap {config : Config} {unit : Multiplier}
    (h : Reachable config unit) (hapart : unit.transfer.Apart) (memory : Memory)
    (cycles : List TransferPhase) :
    let mixed := unit.transferAll memory cycles
    let ordered := unit.transferAll memory
      (List.replicate (cycles.count .load) .load ++
        List.replicate (cycles.count .writeBack) .writeBack)
    mixed.multiplier = ordered.multiplier ∧ mixed.bus = ordered.bus ∧
      ∀ phase, mixed.repliesTo phase = ordered.repliesTo phase := by
  intro mixed ordered
  have hstart : Overlapping config unit memory unit unit memory :=
    ⟨h.wellFormed, .refl unit, .refl unit, rfl, fun _ _ _ => ⟨rfl, rfl⟩, hapart⟩
  have hordered := overlap hstart
    (List.replicate (cycles.count .load) .load ++
      List.replicate (cycles.count .writeBack) .writeBack)
  rw [List.count_append, List.count_append, List.count_replicate_self, List.count_replicate_self,
    List.count_replicate, List.count_replicate, if_neg (by decide), if_neg (by decide),
    Nat.add_zero, Nat.zero_add] at hordered
  exact (overlap hstart cycles).unique hordered

/-- A multiplier that has begun to load factors, with part of a product yet to be written back. -/
def busy : Multiplier :=
  (idle (.ofProfile .singleCycle)).serveAll
    [.over (Memory.zero 0) (.restore Reachable.halfway), .over (Memory.zero 0) (.beginLoad 0 512)]

/-- Some cycles of such a multiplier may be put in order. -/
theorem Reachable.transfers_overlap_busy :
    (busy.transferAll (Memory.zero 2048) [.writeBack, .load, .writeBack, .load]).multiplier =
        (busy.transferAll (Memory.zero 2048) [.load, .load, .writeBack, .writeBack]).multiplier ∧
      (busy.transferAll (Memory.zero 2048) [.writeBack, .load, .writeBack, .load]).bus =
        (busy.transferAll (Memory.zero 2048) [.load, .load, .writeBack, .writeBack]).bus := by
  have hreachable : Reachable (.ofProfile .singleCycle) busy := .serveAll (.create rfl) _
  have htransfer : busy.transfer = ⟨0, 512, 1024, 0, 100⟩ := by decide +kernel
  have hapart : busy.transfer.Apart := by
    have hsize : 2048 ≤ Memory.maxBytes := by decide
    rw [htransfer]
    refine Transfer.apart_of_disjoint hsize ?_ ?_ ?_ ?_ ?_ <;> decide
  obtain ⟨hmultiplier, hbus, -⟩ := transfers_overlap hreachable hapart (Memory.zero 2048)
    [.writeBack, .load, .writeBack, .load]
  exact ⟨hmultiplier, hbus⟩

end Multiplier

end WideMultiplier
