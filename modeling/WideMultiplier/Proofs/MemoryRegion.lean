import WideMultiplier.Memory
import WideMultiplier.Proofs.LongNumber

/-!
# Regions of memory

A region is a row of bytes in memory. What is put into a region stands there and nowhere else
(`Memory.region_putBytes`, `Memory.byteAt_putBytes_of_outside`), and the limbs that lie in a region
one behind the other write the same number as its bytes (`Memory.value_limbsAt`,
`Limbs.toBytes_eq_bytesOf`).
-/

namespace WideMultiplier

/-! ## Numbers by their bytes -/

/-- Bytes appended at the significant end count from the place after the last one. -/
theorem bytesValue_append (low high : List UInt8) :
    bytesValue (low ++ high) = bytesValue low + 256 ^ low.length * bytesValue high := by
  induction low with
  | nil => simp [bytesValue]
  | cons byte rest ih =>
      rw [List.cons_append, bytesValue, bytesValue, ih, List.length_cons]
      ring

/-- A number of some bytes is below that power of 256. -/
theorem bytesValue_lt (bytes : List UInt8) : bytesValue bytes < 256 ^ bytes.length := by
  induction bytes with
  | nil => simp [bytesValue]
  | cons byte rest ih =>
      have hbyte : byte.toNat < 256 := UInt8.toNat_lt byte
      rw [bytesValue, List.length_cons, pow_succ']
      omega

/-- The bytes of a number split at any place. -/
theorem bytesOf_add (low high number : Nat) :
    bytesOf (low + high) number = bytesOf low number ++ bytesOf high (number / 256 ^ low) := by
  induction low generalizing number with
  | zero => simp [bytesOf]
  | succ low ih =>
      rw [Nat.add_right_comm, bytesOf, ih, bytesOf, List.cons_append, Nat.div_div_eq_div_mul,
        pow_succ']

/-- The lowest bytes of a number do not depend on what stands at the places behind them. -/
theorem bytesOf_add_mul (count low high : Nat) :
    bytesOf count (low + 256 ^ count * high) = bytesOf count low := by
  induction count generalizing low with
  | zero => rfl
  | succ count ih =>
      have hsplit : low + 256 ^ (count + 1) * high = low + 256 * (256 ^ count * high) := by
        rw [pow_succ']
        ring
      have hlow : UInt8.ofNat (low + 256 * (256 ^ count * high)) = UInt8.ofNat low := by
        apply UInt8.toNat_inj.mp
        rw [UInt8.toNat_ofNat', UInt8.toNat_ofNat']
        omega
      rw [hsplit, bytesOf, bytesOf, hlow, Nat.add_mul_div_left _ _ (by decide), ih]

/-- The bytes of the limbs of a long number are the bytes of the number. -/
theorem Limbs.toBytes_eq_bytesOf (limbs : List Limb) :
    toBytes limbs = bytesOf (limbBytes * limbs.length) (value limbs) := by
  have hbase : Limb.base = 256 ^ limbBytes := rfl
  induction limbs with
  | nil => rfl
  | cons limb rest ih =>
      have hlimb : limb.toNat < 256 ^ limbBytes := Limb.toNat_lt limb
      have hplace : 0 < 256 ^ limbBytes := Nat.pow_pos (by decide)
      rw [toBytes, List.flatMap_cons, List.length_cons, Nat.mul_succ, Nat.add_comm, bytesOf_add,
        value_cons, hbase, bytesOf_add_mul, Nat.add_mul_div_left _ _ hplace,
        Nat.div_eq_of_lt hlimb, Nat.zero_add, ← ih]
      rfl

/-- The bytes of a long number write it. -/
theorem Limbs.bytesValue_toBytes (limbs : List Limb) :
    bytesValue (toBytes limbs) = value limbs := by
  have hlt := value_lt limbs
  rw [show Limb.base = 256 ^ limbBytes from rfl, ← pow_mul] at hlt
  rw [toBytes_eq_bytesOf, bytesValue_bytesOf, Nat.mod_eq_of_lt hlt]

/-- Bytes are those of the number that they write. -/
theorem bytesOf_bytesValue (bytes : List UInt8) :
    bytesOf bytes.length (bytesValue bytes) = bytes := by
  induction bytes with
  | nil => rfl
  | cons byte rest ih =>
      have hbyte : byte.toNat < 256 := UInt8.toNat_lt byte
      have hlow : UInt8.ofNat (byte.toNat + 256 * bytesValue rest) = byte := by
        apply UInt8.toNat_inj.mp
        rw [UInt8.toNat_ofNat']
        omega
      have hhigh : (byte.toNat + 256 * bytesValue rest) / 256 = bytesValue rest := by omega
      rw [List.length_cons, bytesValue, bytesOf, hlow, hhigh, ih]

/-- Eight bytes are those of the limb that is read from them. -/
theorem Limb.toBytes_ofBytes {bytes : List UInt8} (h : bytes.length = limbBytes) :
    toBytes (ofBytes bytes) = bytes := by
  have hlt := bytesValue_lt bytes
  rw [h] at hlt
  rw [toBytes, ofBytes, UInt64.toNat_ofNat_of_lt' hlt, ← h]
  exact bytesOf_bytesValue bytes

namespace Memory

variable {memory : Memory}

/-! ## Bytes that are put into memory -/

@[simp] theorem size_putByte (memory : Memory) (address : Nat) (byte : UInt8) :
    (memory.putByte address byte).size = memory.size := rfl

@[simp] theorem size_putBytes (memory : Memory) (address : Nat) (bytes : List UInt8) :
    (memory.putBytes address bytes).size = memory.size := by
  induction bytes generalizing memory address with
  | nil => rfl
  | cons byte rest ih => rw [putBytes, ih, size_putByte]

@[simp] theorem size_putLimb (memory : Memory) (address : Nat) (limb : Limb) :
    (memory.putLimb address limb).size = memory.size :=
  size_putBytes memory address _

/-- Bytes outside the region that is written stay. -/
theorem byteAt_putBytes_of_outside {address place : Nat} (bytes : List UInt8)
    (hsize : address + bytes.length ≤ memory.size)
    (hplace : place < address ∨ address + bytes.length ≤ place) :
    (memory.putBytes address bytes).byteAt place = memory.byteAt place := by
  induction bytes generalizing memory address with
  | nil => rfl
  | cons byte rest ih =>
      rw [List.length_cons] at hsize hplace
      rw [putBytes, ih (by rw [size_putByte]; omega) (by omega),
        byteAt_putByte memory place byte (by omega), if_neg (by omega)]

/-! ## Regions -/

/-- The bytes from an address on. -/
def region (memory : Memory) (address count : Nat) : List UInt8 :=
  (List.range' address count).map memory.byteAt

@[simp] theorem length_region (memory : Memory) (address count : Nat) :
    (memory.region address count).length = count := by
  simp [region]

/-- A region splits at any place. -/
theorem region_add (memory : Memory) (address low high : Nat) :
    memory.region address (low + high) =
      memory.region address low ++ memory.region (address + low) high := by
  rw [region, region, region, ← List.map_append, List.range'_append_1]

/-- Regions with the same bytes are equal. -/
theorem region_congr {other : Memory} {address count : Nat}
    (h : ∀ place, address ≤ place → place < address + count →
      other.byteAt place = memory.byteAt place) :
    other.region address count = memory.region address count := by
  refine List.map_congr_left fun place hplace => ?_
  rw [List.mem_range'_1] at hplace
  exact h place hplace.1 hplace.2

/-- What is put into a region stands there. -/
theorem region_putBytes {address : Nat} (bytes : List UInt8)
    (hsize : address + bytes.length ≤ memory.size) :
    (memory.putBytes address bytes).region address bytes.length = bytes := by
  induction bytes generalizing memory address with
  | nil => rfl
  | cons byte rest ih =>
      rw [List.length_cons] at hsize
      have hrest : address + 1 + rest.length ≤ (memory.putByte address byte).size := by
        rw [size_putByte]
        omega
      have hfirst : ((memory.putByte address byte).putBytes (address + 1) rest).byteAt address =
          byte := by
        rw [byteAt_putBytes_of_outside rest hrest (by omega),
          byteAt_putByte memory address byte (by omega), if_pos rfl]
      rw [putBytes, List.length_cons, region, List.range'_succ, List.map_cons, hfirst]
      exact congrArg (byte :: ·) (ih hrest)

/-! ## Limbs in a region -/

/-- The limbs that lie one behind the other from an address on. -/
def limbsAt (memory : Memory) (address count : Nat) : List Limb :=
  (List.range count).map fun index => memory.limbAt (address + limbBytes * index)

/-- A limb is the number that its bytes write. -/
theorem toNat_limbAt (memory : Memory) (address : Nat) :
    (memory.limbAt address).toNat = bytesValue (memory.region address limbBytes) := by
  have hlt := bytesValue_lt (memory.region address limbBytes)
  rw [length_region] at hlt
  exact UInt64.toNat_ofNat_of_lt' hlt

/-- The limbs in a region write the same number as its bytes. -/
theorem value_limbsAt (memory : Memory) (address count : Nat) :
    Limbs.value (memory.limbsAt address count) =
      bytesValue (memory.region address (limbBytes * count)) := by
  induction count with
  | zero => rfl
  | succ count ih =>
      have hlimbs : memory.limbsAt address (count + 1) =
          memory.limbsAt address count ++ [memory.limbAt (address + limbBytes * count)] := by
        rw [limbsAt, List.range_succ, List.map_append]
        rfl
      have hlength : (memory.limbsAt address count).length = count := by simp [limbsAt]
      have hplace : Limb.base ^ count = 256 ^ (limbBytes * count) := by
        rw [pow_mul]
        rfl
      rw [hlimbs, Limbs.value_append, hlength, ih, Nat.mul_succ, region_add, bytesValue_append,
        length_region, hplace, Limbs.value_cons, Limbs.value_nil, toNat_limbAt, Nat.mul_zero,
        Nat.add_zero]

end Memory

/-! ## Factors and products in a region -/

namespace OperandLimbs

variable {limbs : OperandLimbs} {memory : Memory} {base count : Nat}

/-- Whether the first limbs of a factor are those that lie in memory from an address on. -/
def LoadedFrom (limbs : OperandLimbs) (memory : Memory) (base count : Nat) : Prop :=
  ∀ index (h : index < operandLimbs), index < count →
    limbs[index] = memory.limbAt (base + limbBytes * index)

/-- One more limb from memory. -/
theorem LoadedFrom.set (h : LoadedFrom limbs memory base count) (hcount : count < operandLimbs) :
    LoadedFrom (limbs.set count (memory.limbAt (base + limbBytes * count)) hcount) memory base
      (count + 1) := by
  intro index hindex hlt
  rw [Vector.getElem_set]
  split
  · next hsame => rw [hsame]
  · next hother => exact h index hindex (by omega)

/-- A factor whose limbs all lie in memory is the number that the bytes there write. -/
theorem LoadedFrom.value_eq (h : LoadedFrom limbs memory base operandLimbs) :
    limbs.value = bytesValue (memory.region base operandBytes) := by
  have hlimbs : limbs.toList = memory.limbsAt base operandLimbs := by
    refine List.ext_getElem (by simp [Memory.limbsAt]) fun index hleft hright => ?_
    have hindex : index < operandLimbs := by simpa using hleft
    rw [Vector.getElem_toList, h index hindex hindex]
    simp [Memory.limbsAt]
  rw [value, hlimbs, Memory.value_limbsAt]
  rfl

end OperandLimbs

/-- Whether one memory is another one in which the first limbs of a product were put from an address
on. -/
structure Product.StoredIn (product : Product) (base count : Nat) (before after : Memory) :
    Prop where
  size_eq : after.size = before.size
  inside : after.region base (limbBytes * count) = Limbs.toBytes (product.toList.take count)
  outside : ∀ place, place < base ∨ base + limbBytes * count ≤ place →
    after.byteAt place = before.byteAt place

namespace Product.StoredIn

variable {product : Product} {base count : Nat} {before after : Memory}

/-- No limb is stored yet. -/
theorem zero (product : Product) (base : Nat) (memory : Memory) :
    StoredIn product base 0 memory memory :=
  ⟨rfl, rfl, fun _ _ => rfl⟩

/-- One more limb is stored. -/
theorem putLimb (h : StoredIn product base count before after) (hcount : count < productLimbs)
    (hrange : base + productBytes ≤ before.size) :
    StoredIn product base (count + 1) before
      (after.putLimb (base + limbBytes * count) product[count]) := by
  have hlimb : limbBytes * count + limbBytes ≤ productBytes := by
    rw [← Nat.mul_succ, Nat.mul_comm]
    exact Nat.mul_le_mul_right _ hcount
  have hlength : (Limb.toBytes product[count]).length = limbBytes := Limb.length_toBytes _
  have hfits : base + limbBytes * count + (Limb.toBytes product[count]).length ≤ after.size := by
    rw [hlength, h.size_eq]
    omega
  refine ⟨(Memory.size_putLimb _ _ _).trans h.size_eq, ?_, fun place hplace => ?_⟩
  · -- the limbs before it stay, and the bytes of the new one stand behind them
    have hbefore : (after.putLimb (base + limbBytes * count) product[count]).region base
        (limbBytes * count) = after.region base (limbBytes * count) := by
      refine Memory.region_congr fun place hfrom hto => ?_
      exact Memory.byteAt_putBytes_of_outside _ hfits (.inl hto)
    have hnew := Memory.region_putBytes (Limb.toBytes product[count]) hfits
    rw [hlength] at hnew
    have hlist : count < product.toList.length := by
      rw [Vector.length_toList]
      exact hcount
    rw [Nat.mul_succ, Memory.region_add, hbefore, h.inside, List.take_succ_eq_append_getElem hlist,
      Limbs.toBytes, Limbs.toBytes, List.flatMap_append, List.flatMap_singleton,
      Vector.getElem_toList]
    exact congrArg _ hnew
  · rw [Nat.mul_succ] at hplace
    rw [Memory.putLimb, Memory.byteAt_putBytes_of_outside _ hfits (by omega)]
    exact h.outside place (by omega)

/-- Where all limbs of a product are stored, the bytes of its value stand. -/
theorem region_eq (h : StoredIn product base productLimbs before after) :
    after.region base productBytes = bytesOf productBytes product.value := by
  have hinside := h.inside
  rw [List.take_of_length_le (by simp), Limbs.toBytes_eq_bytesOf, Vector.length_toList] at hinside
  exact hinside

end Product.StoredIn

end WideMultiplier
