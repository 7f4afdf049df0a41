import WideMultiplier.Generator

/-!
# The key stream

The source of random limbs that the program runs with: the ChaCha stream cipher with eight rounds. A
64-bit seed is expanded into a 256-bit key by the PCG32 generator; the nonce is zero and blocks are
counted from zero. A block is sixteen 32-bit words, and each two words in succession are one limb,
the lower half first.
-/

namespace WideMultiplier

/-- A key stream: its key, and the number of factors that were filled from it. -/
structure Keystream where
  key : List UInt32
  drawn : Nat
deriving DecidableEq

namespace Keystream

/-- Rotates a 32-bit word to the left. -/
def rotateLeft (word count : UInt32) : UInt32 :=
  word <<< count ||| word >>> (32 - count)

/-- Rotates a 32-bit word to the right. -/
def rotateRight (word count : UInt32) : UInt32 :=
  word >>> count ||| word <<< ((32 - count) % 32)

/-! ## Expanding a seed -/

/-- The next state of the seed generator. -/
def nextState (state : UInt64) : UInt64 :=
  state * 6364136223846793005 + 11634580027462260723

/-- The word that a state of the seed generator gives. -/
def outputWord (state : UInt64) : UInt32 :=
  rotateRight (((state >>> 18 ^^^ state) >>> 27).toUInt32) ((state >>> 59).toUInt32)

/-- The words that follow a state of the seed generator. -/
def expand : Nat → UInt64 → List UInt32
  | 0, _ => []
  | count + 1, state =>
    let following := nextState state
    outputWord following :: expand count following

/-! ## Blocks -/

/-- The sixteen words that a block is computed on. -/
abbrev Block := Vector UInt32 16

/-- Mixes four words of a block. -/
def quarterRound (a b c d : Fin 16) (block : Block) : Block :=
  let a₁ := block[a] + block[b]
  let d₁ := rotateLeft (block[d] ^^^ a₁) 16
  let c₁ := block[c] + d₁
  let b₁ := rotateLeft (block[b] ^^^ c₁) 12
  let a₂ := a₁ + b₁
  let d₂ := rotateLeft (d₁ ^^^ a₂) 8
  let c₂ := c₁ + d₂
  let b₂ := rotateLeft (b₁ ^^^ c₂) 7
  (((block.set a a₂).set b b₂).set c c₂).set d d₂

/-- Mixes the four columns of a block, then its four diagonals. -/
def doubleRound (block : Block) : Block :=
  let columns := quarterRound 3 7 11 15 <| quarterRound 2 6 10 14 <|
    quarterRound 1 5 9 13 <| quarterRound 0 4 8 12 block
  quarterRound 3 4 9 14 <| quarterRound 2 7 8 13 <|
    quarterRound 1 6 11 12 <| quarterRound 0 5 10 15 columns

/-- Eight rounds. -/
def mix (block : Block) : Block :=
  doubleRound (doubleRound (doubleRound (doubleRound block)))

/-- The block that is mixed: four constants, the key, the number of the block, and a zero nonce. -/
def input (key : List UInt32) (number : Nat) : Block :=
  let word (index : Nat) : UInt32 := key.getD index 0
  #v[0x61707865, 0x3320646e, 0x79622d32, 0x6b206574,
    word 0, word 1, word 2, word 3, word 4, word 5, word 6, word 7,
    UInt32.ofNat number, UInt32.ofNat (number / UInt32.size), 0, 0]

/-- The words of a block of the key stream: the mixed block and the block before mixing, added. -/
def block (key : List UInt32) (number : Nat) : List UInt32 :=
  let before := input key number
  List.zipWith (· + ·) (mix before).toList before.toList

/-- Each two words in succession as one limb, the lower half first. -/
def pairWords : List UInt32 → List Limb
  | low :: high :: rest => (low.toUInt64 ||| high.toUInt64 <<< 32) :: pairWords rest
  | _ => []

/-- The limbs in a block. -/
abbrev blockLimbs : Nat := 8

/-- The number of blocks in a factor. -/
abbrev operandBlocks : Nat := operandLimbs / blockLimbs

/-- The limbs of the next factor. -/
def limbs (stream : Keystream) : List Limb :=
  (List.range' (stream.drawn * operandBlocks) operandBlocks).flatMap fun number =>
    pairWords (block stream.key number)

instance : LimbSource Keystream where
  ofSeed seed := ⟨expand 8 seed, 0⟩
  fill stream :=
    let limbs := stream.limbs.toArray
    (Vector.ofFn fun index => limbs.getD index 0, { stream with drawn := stream.drawn + 1 })

end Keystream

end WideMultiplier
