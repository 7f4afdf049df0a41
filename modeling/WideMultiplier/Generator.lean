import WideMultiplier.Operands

/-!
# Random operands

A generator hands out factors one after the other, each filled from a source of random limbs. The
source is started from a seed, so the same seed always gives the same factors.
-/

namespace WideMultiplier

/-- A source of random limbs: how it is started from a seed, and how it fills a factor. -/
class LimbSource (ρ : Type) where
  ofSeed : UInt64 → ρ
  fill : ρ → OperandLimbs × ρ

/-- A source of factors, with the seed that it was started from. -/
structure Generator (ρ : Type) where
  seed : UInt64
  source : ρ
deriving DecidableEq

namespace Generator

variable {ρ : Type} [LimbSource ρ]

/-- The generator of a seed, before its first factor. -/
def ofSeed (seed : UInt64) : Generator ρ :=
  ⟨seed, LimbSource.ofSeed seed⟩

/-- The next factor, and the generator after it. -/
def operand (generator : Generator ρ) : OperandLimbs × Generator ρ :=
  let (limbs, source) := LimbSource.fill generator.source
  (limbs, { generator with source })

/-- The next pair of factors, A first. -/
def pair (generator : Generator ρ) : Operands × Generator ρ :=
  let (a, afterA) := generator.operand
  let (b, afterB) := afterA.operand
  (⟨a, b⟩, afterB)

end Generator

/-- The first pair of factors that a seed gives with a source. -/
def Operands.ofSeed (ρ : Type) [LimbSource ρ] (seed : UInt64) : Operands :=
  (Generator.ofSeed seed : Generator ρ).pair.1

end WideMultiplier
