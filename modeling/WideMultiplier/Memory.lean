import WideMultiplier.Bus
import WideMultiplier.Limb.Bytes

/-!
# Memory

A flat memory is a bus. Limbs lie in it at any byte address, least significant byte first, and an
access that does not lie inside it in full is a fault. Several limbs in succession are moved one
after the other, up to the first that is a fault. The bytes are kept in pages, so that a large
memory that is mostly blank costs little; `Memory.byteAt_putByte` says that a page boundary cannot
be seen. No memory, and no list of limbs that is read at once, has more than `Memory.maxBytes`
bytes.
-/

namespace WideMultiplier

/-- The number of bytes in a page. -/
abbrev pageBytes : Nat := 1024

/-- The bytes at `pageBytes` successive addresses. -/
abbrev Page := Vector UInt8 pageBytes

/-- A byte-addressed memory that starts at address 0. The last page may reach past its end. -/
structure Memory where
  size : Nat
  pages : Vector Page (size / pageBytes + 1)

namespace Memory

/-- A page of zeros. -/
def blankPage : Page :=
  Vector.replicate pageBytes 0

/-- A memory of zeros. -/
def zero (size : Nat) : Memory :=
  ⟨size, Vector.replicate _ blankPage⟩

/-- The most bytes of a block of storage: addresses inside it differ by less than half of what a
word can count. -/
abbrev maxBytes : Nat := UInt64.size / 2 - 1

/-- A memory of zeros, if it is not too large. -/
def create? (size : Nat) : Option Memory :=
  if size ≤ maxBytes then some (zero size) else none

/-- The byte at an address. -/
def byteAt (memory : Memory) (address : Nat) : UInt8 :=
  (memory.pages.getD (address / pageBytes) blankPage).getD (address % pageBytes) 0

/-- Puts a byte at an address. -/
def putByte (memory : Memory) (address : Nat) (byte : UInt8) : Memory :=
  match memory with
  | ⟨size, ⟨pages, hpages⟩⟩ =>
    ⟨size,
      ⟨pages.modify (address / pageBytes) fun page =>
          page.set (address % pageBytes) byte (Nat.mod_lt _ (by decide)),
        by rw [Array.size_modify, hpages]⟩⟩

/-- All bytes in order. -/
def bytes (memory : Memory) : List UInt8 :=
  (List.range memory.size).map memory.byteAt

/-- Whether a limb at this address lies in the memory. -/
def holds (memory : Memory) (address : Nat) : Bool :=
  address + limbBytes ≤ memory.size

/-- The eight bytes from this address on, as a limb. -/
def limbAt (memory : Memory) (address : Nat) : Limb :=
  Limb.ofBytes ((List.range' address limbBytes).map memory.byteAt)

/-- Puts bytes into the memory one after the other. -/
def putBytes (memory : Memory) (address : Nat) : List UInt8 → Memory
  | [] => memory
  | byte :: rest => putBytes (memory.putByte address byte) (address + 1) rest

/-- Puts the eight bytes of a limb into the memory. -/
def putLimb (memory : Memory) (address : Nat) (limb : Limb) : Memory :=
  memory.putBytes address (Limb.toBytes limb)

/-- Reads the limb at an address. -/
def read (address : UInt64) (memory : Memory) : Except BusFault Limb :=
  if memory.holds address.toNat then .ok (memory.limbAt address.toNat)
  else .error (.readFailed address)

/-- Writes a limb at an address. A write that is a fault changes nothing. -/
def write (address : UInt64) (limb : Limb) (memory : Memory) : Except BusFault Unit × Memory :=
  if memory.holds address.toNat then (.ok (), memory.putLimb address.toNat limb)
  else (.error (.writeFailed address), memory)

/-- Writes limbs one after the other and stops at the first that does not fit. The limbs before it
stay written. -/
def writeLimbs (address : UInt64) : List Limb → Memory → Except BusFault Unit × Memory
  | [], memory => (.ok (), memory)
  | limb :: rest, memory =>
    match memory.write address limb with
    | (.error fault, memory) => (.error fault, memory)
    | (.ok (), memory) => writeLimbs (address + 8) rest memory

/-- Reads limbs one after the other and stops at the first that is out of range. The limbs that were
read before are given latest first. -/
def readLimbsFrom (memory : Memory) : List Limb → UInt64 → Nat → Except BusFault (List Limb)
  | taken, _, 0 => .ok taken.reverse
  | taken, address, count + 1 =>
    match memory.read address with
    | .error fault => .error fault
    | .ok limb => memory.readLimbsFrom (limb :: taken) (address + 8) count

/-- Reads limbs one after the other and stops at the first that is out of range. -/
def readLimbs (address : UInt64) (count : Nat) (memory : Memory) : Except BusFault (List Limb) :=
  memory.readLimbsFrom [] address count

/-- Reads limbs one after the other, if a block of storage can hold so many. -/
def readBlock? (address : UInt64) (count : Nat) (memory : Memory) :
    Option (Except BusFault (List Limb)) :=
  if count * limbBytes ≤ maxBytes then some (memory.readLimbs address count) else none

instance : LimbBus Memory where
  read address memory := (memory.read address, memory)
  write := Memory.write

/-- The byte that was put at an address stands there, and all others are as before. -/
theorem byteAt_putByte (memory : Memory) {address : Nat} (place : Nat) (byte : UInt8)
    (haddress : address < memory.size) :
    (memory.putByte address byte).byteAt place =
      if place = address then byte else memory.byteAt place := by
  obtain ⟨size, ⟨pages, hpages⟩⟩ := memory
  have hpage : address / pageBytes < pages.size := by
    rw [hpages]
    exact Nat.lt_succ_of_le (Nat.div_le_div_right (Nat.le_of_lt haddress))
  simp only [byteAt, putByte, Vector.getD, Array.getD_eq_getD_getElem?, Array.getElem?_modify]
  by_cases hsame : address / pageBytes = place / pageBytes
  · rw [if_pos hsame, ← hsame, Array.getElem?_eq_getElem hpage]
    simp only [Option.map_some, Option.getD_some, Vector.toArray_set]
    rw [Array.getElem?_set]
    by_cases hplace : address % pageBytes = place % pageBytes
    · have heq : place = address := by
        rw [← Nat.div_add_mod place pageBytes, ← hsame, ← hplace, Nat.div_add_mod]
      rw [if_pos hplace, if_pos heq]
      rfl
    · rw [if_neg hplace, if_neg (by rintro rfl; exact hplace rfl)]
  · rw [if_neg hsame, if_neg (by rintro rfl; exact hsame rfl)]

end Memory

end WideMultiplier
