import WideMultiplier.Proofs.MemoryRegion

/-!
# Rows of limbs in memory

Limbs that are moved one after the other from an address on lie there in a row. As many of them are
moved as the memory has room for (`Memory.writeLimbs_eq`, `Memory.readLimbs_eq`), and the first that
does not fit is the fault. `Memory.limb_rows` says what this makes of the bytes: those of the limbs
that were written stand in their region, all others stay, and a read gives the bytes as they stand.
-/

namespace WideMultiplier

/-- Long numbers of the same length and with the same bytes have the same limbs. -/
theorem Limbs.toBytes_inj {left right : List Limb} (hlength : left.length = right.length)
    (h : toBytes left = toBytes right) : left = right := by
  refine value_inj hlength ?_
  rw [← bytesValue_toBytes, h, bytesValue_toBytes]

/-- Every limb has eight bytes. -/
theorem Limbs.length_toBytes (limbs : List Limb) :
    (toBytes limbs).length = limbBytes * limbs.length := by
  rw [toBytes_eq_bytesOf, length_bytesOf]

/-- The bytes of a factor are as many as an image has. -/
theorem OperandLimbs.length_toBytes (limbs : OperandLimbs) :
    (Limbs.toBytes limbs.toList).length = operandBytes := by
  rw [Limbs.length_toBytes, Vector.length_toList, Nat.mul_comm]

namespace Memory

/-! ## Limbs and their bytes -/

/-- Bytes that are put behind others. -/
theorem putBytes_append (memory : Memory) (address : Nat) (low high : List UInt8) :
    memory.putBytes address (low ++ high) =
      (memory.putBytes address low).putBytes (address + low.length) high := by
  induction low generalizing memory address with
  | nil => rfl
  | cons byte rest ih =>
      rw [List.cons_append, putBytes, ih, putBytes, List.length_cons, Nat.add_comm rest.length 1,
        Nat.add_assoc]

/-- The first limb of a row is the one at its address. -/
theorem limbsAt_succ (memory : Memory) (address count : Nat) :
    memory.limbsAt address (count + 1) =
      memory.limbAt address :: memory.limbsAt (address + limbBytes) count := by
  rw [limbsAt, List.range_succ_eq_map, List.map_cons, List.map_map]
  refine congrArg _ (List.map_congr_left fun index _ => ?_)
  rw [Function.comp_apply, Nat.mul_succ, Nat.add_comm (limbBytes * index), Nat.add_assoc]

@[simp] theorem length_limbsAt (memory : Memory) (address count : Nat) :
    (memory.limbsAt address count).length = count := by
  simp [limbsAt]

/-- The bytes of a limb in memory are those that stand there. -/
theorem toBytes_limbAt (memory : Memory) (address : Nat) :
    Limb.toBytes (memory.limbAt address) = memory.region address limbBytes :=
  Limb.toBytes_ofBytes (length_region memory address limbBytes)

/-- The bytes of the limbs in a row are those that stand there. -/
theorem toBytes_limbsAt (memory : Memory) (address count : Nat) :
    Limbs.toBytes (memory.limbsAt address count) =
      memory.region address (limbBytes * count) := by
  induction count generalizing address with
  | zero => rfl
  | succ count ih =>
      rw [limbsAt_succ, Nat.mul_succ, Nat.add_comm (limbBytes * count), region_add,
        ← toBytes_limbAt, ← ih]
      exact List.flatMap_cons

/-! ## Room for limbs -/

variable {memory : Memory}

/-- How many limbs of a row from an address on lie in memory. -/
def room (memory : Memory) (address : Nat) : Nat :=
  (memory.size - address) / limbBytes

/-- A row has room if it lies in memory, or has no limb. -/
theorem le_room_iff {address count : Nat} :
    count ≤ memory.room address ↔ count = 0 ∨ address + limbBytes * count ≤ memory.size := by
  simp only [room, limbBytes]
  omega

/-- A limb in memory takes one of the places that there are from its address on. -/
theorem room_of_holds {address : Nat} (h : address + limbBytes ≤ memory.size) :
    memory.room address = memory.room (address + limbBytes) + 1 := by
  simp only [room, limbBytes] at *
  omega

theorem room_of_not_holds {address : Nat} (h : ¬ address + limbBytes ≤ memory.size) :
    memory.room address = 0 := by
  simp only [room, limbBytes] at *
  omega

@[simp] theorem room_putLimb (memory : Memory) (place : Nat) (limb : Limb) (address : Nat) :
    (memory.putLimb place limb).room address = memory.room address := by
  rw [room, size_putLimb, room]

variable {address : UInt64}

/-- The address behind a limb that lies in memory. -/
theorem toNat_add_limbBytes (hsize : memory.size ≤ maxBytes)
    (h : address.toNat + limbBytes ≤ memory.size) :
    (address + 8).toNat = address.toNat + limbBytes := by
  have hmax : maxBytes < UInt64.size := by decide
  rw [UInt64.toNat_add]
  exact Nat.mod_eq_of_lt (Nat.lt_of_le_of_lt (h.trans hsize) hmax)

/-- The address of the first limb of a row that does not lie in memory. -/
def rowEnd (memory : Memory) (address : UInt64) : UInt64 :=
  UInt64.ofNat (address.toNat + limbBytes * memory.room address.toNat)

/-- That address does not wrap. -/
theorem toNat_rowEnd (hsize : memory.size ≤ maxBytes) (address : UInt64) :
    (memory.rowEnd address).toNat =
      address.toNat + limbBytes * memory.room address.toNat := by
  refine UInt64.toNat_ofNat_of_lt' ?_
  have haddress : address.toNat < UInt64.size := UInt64.toNat_lt_size address
  have hmax : maxBytes < UInt64.size := by decide
  rcases le_room_iff.mp (Nat.le_refl (memory.room address.toNat)) with hnone | hfits
  · rw [hnone]
    exact haddress
  · exact Nat.lt_of_le_of_lt (hfits.trans hsize) hmax

theorem rowEnd_of_holds (hsize : memory.size ≤ maxBytes)
    (h : address.toNat + limbBytes ≤ memory.size) :
    memory.rowEnd address = memory.rowEnd (address + 8) := by
  rw [rowEnd, rowEnd, toNat_add_limbBytes hsize h, room_of_holds h]
  congr 1
  ring

theorem rowEnd_of_not_holds (h : ¬ address.toNat + limbBytes ≤ memory.size) :
    memory.rowEnd address = address := by
  rw [rowEnd, room_of_not_holds h]
  exact UInt64.ofNat_toNat

/-! ## Rows that are written and read -/

/-- As many limbs are written as there is room for, and the first that does not fit is a fault. -/
theorem writeLimbs_eq (hsize : memory.size ≤ maxBytes) (limbs : List Limb) :
    memory.writeLimbs address limbs =
      (if limbs.length ≤ memory.room address.toNat then .ok ()
        else .error (.writeFailed (memory.rowEnd address)),
      memory.putBytes address.toNat (Limbs.toBytes (limbs.take (memory.room address.toNat)))) := by
  induction limbs generalizing memory address with
  | nil => simp [writeLimbs, Limbs.toBytes, putBytes]
  | cons limb rest ih =>
      by_cases hfirst : address.toNat + limbBytes ≤ memory.size
      · have hnext := toNat_add_limbBytes hsize hfirst
        have hwrite : memory.write address limb = (.ok (), memory.putLimb address.toNat limb) := by
          rw [write, holds, decide_eq_true hfirst, if_pos rfl]
        have hrest := @ih (memory.putLimb address.toNat limb) (address + 8)
          (by rw [size_putLimb]; exact hsize)
        have hend : (memory.putLimb address.toNat limb).rowEnd (address + 8) =
            memory.rowEnd address := by
          rw [rowEnd_of_holds hsize hfirst, rowEnd, room_putLimb, rowEnd]
        have hbytes : ∀ others, Limbs.toBytes (limb :: others) =
            Limb.toBytes limb ++ Limbs.toBytes others := fun _ => List.flatMap_cons
        rw [writeLimbs, hwrite]
        dsimp only
        rw [hrest, hend, room_putLimb, hnext, room_of_holds hfirst, List.take_succ_cons, hbytes,
          putBytes_append, Limb.length_toBytes, List.length_cons]
        simp only [Nat.add_le_add_iff_right]
        rfl
      · have hwrite : memory.write address limb = (.error (.writeFailed address), memory) := by
          rw [write, holds, decide_eq_false hfirst]
          rfl
        rw [writeLimbs, hwrite, room_of_not_holds hfirst, rowEnd_of_not_holds hfirst]
        rfl

/-- As many limbs are read as lie in memory, and the first that does not is a fault. -/
theorem readLimbs_eq (hsize : memory.size ≤ maxBytes) (count : Nat) :
    memory.readLimbs address count =
      if count ≤ memory.room address.toNat then .ok (memory.limbsAt address.toNat count)
      else .error (.readFailed (memory.rowEnd address)) := by
  suffices hfrom : ∀ taken, memory.readLimbsFrom taken address count =
      if count ≤ memory.room address.toNat then
        .ok (taken.reverse ++ memory.limbsAt address.toNat count)
      else .error (.readFailed (memory.rowEnd address)) from hfrom []
  induction count generalizing address with
  | zero =>
      intro taken
      rw [if_pos (Nat.zero_le _), readLimbsFrom, limbsAt, List.range_zero, List.map_nil,
        List.append_nil]
  | succ count ih =>
      intro taken
      by_cases hfirst : address.toNat + limbBytes ≤ memory.size
      · have hnext := toNat_add_limbBytes hsize hfirst
        have hread : memory.read address = .ok (memory.limbAt address.toNat) := by
          rw [read, holds, decide_eq_true hfirst, if_pos rfl]
        rw [readLimbsFrom, hread]
        dsimp only
        rw [ih, ← rowEnd_of_holds hsize hfirst, hnext, limbsAt_succ, List.reverse_cons,
          List.append_assoc, List.singleton_append, room_of_holds hfirst]
        simp only [Nat.add_le_add_iff_right]
      · have hread : memory.read address = .error (.readFailed address) := by
          rw [read, holds, decide_eq_false hfirst]
          rfl
        rw [readLimbsFrom, hread, room_of_not_holds hfirst, rowEnd_of_not_holds hfirst]
        rfl

/-! ## What becomes of the bytes -/

/-- Whether one memory is another one in which bytes were put from an address on. -/
structure PutAt (before after : Memory) (address : Nat) (bytes : List UInt8) : Prop where
  size_eq : after.size = before.size
  inside : after.region address bytes.length = bytes
  outside : ∀ place, place < address ∨ address + bytes.length ≤ place →
    after.byteAt place = before.byteAt place

/-- The limbs of a row that have room are put into memory. -/
theorem putAt_room (limbs : List Limb) {address count : Nat} (h : count ≤ memory.room address) :
    PutAt memory (memory.putBytes address (Limbs.toBytes (limbs.take count))) address
      (Limbs.toBytes (limbs.take count)) := by
  have hlength := Limbs.length_toBytes (limbs.take count)
  have hroom : (limbs.take count).length ≤ memory.room address :=
    (List.length_take_le _ _).trans h
  rcases le_room_iff.mp hroom with hnone | hfits
  · rw [List.eq_nil_of_length_eq_zero hnone]
    exact ⟨rfl, rfl, fun _ _ => rfl⟩
  · rw [← hlength] at hfits
    exact ⟨size_putBytes _ _ _, region_putBytes _ hfits,
      fun place => byteAt_putBytes_of_outside _ hfits⟩

/-- Limbs that have room are written in full. -/
theorem exists_writeLimbs (limbs : List Limb) (hsize : memory.size ≤ maxBytes)
    (h : limbs.length ≤ memory.room address.toNat) :
    ∃ after, memory.writeLimbs address limbs = (.ok (), after) ∧
      PutAt memory after address.toNat (Limbs.toBytes limbs) := by
  have hput := putAt_room limbs h
  rw [List.take_length] at hput
  refine ⟨_, ?_, hput⟩
  rw [writeLimbs_eq hsize, if_pos h, List.take_of_length_le h]

/-- Limbs that were put into memory are read back. -/
theorem PutAt.readLimbs_eq {before after : Memory} {limbs : List Limb}
    (h : PutAt before after address.toNat (Limbs.toBytes limbs))
    (hsize : before.size ≤ maxBytes) (hroom : limbs.length ≤ before.room address.toNat) :
    after.readLimbs address limbs.length = .ok limbs := by
  have hinside := h.inside
  rw [Limbs.length_toBytes, ← toBytes_limbsAt] at hinside
  rw [Memory.readLimbs_eq (h.size_eq.trans_le hsize), room, h.size_eq, ← room, if_pos hroom,
    Limbs.toBytes_inj (length_limbsAt _ _ _) hinside]

/-- Whether the limb with an index is the first of a row from an address on that does not lie in
memory. -/
structure FirstOutside (memory : Memory) (address index : Nat) : Prop where
  inside : ∀ earlier < index, address + limbBytes * earlier + limbBytes ≤ memory.size
  outside : memory.size < address + limbBytes * index + limbBytes

/-- It is the limb behind those that have room. -/
theorem firstOutside_room (memory : Memory) (address : Nat) :
    memory.FirstOutside address (memory.room address) := by
  constructor
  · intro earlier hearlier
    have hroom := le_room_iff.mp (Nat.succ_le_of_lt hearlier)
    simp only [limbBytes] at *
    omega
  · have hroom := mt le_room_iff.mpr (Nat.not_succ_le_self (memory.room address))
    simp only [limbBytes] at *
    omega

/-- What a write of a row of limbs comes to. -/
structure RowWrite (memory : Memory) (address : UInt64) (limbs : List Limb)
    (result : Except BusFault Unit) (after : Memory) : Prop where
  ok_iff : result = .ok () ↔
    limbs = [] ∨ address.toNat + limbBytes * limbs.length ≤ memory.size
  /-- All limbs stand in memory and are read back. -/
  of_ok : result = .ok () →
    PutAt memory after address.toNat (Limbs.toBytes limbs) ∧
      after.readBlock? address limbs.length = some (.ok limbs)
  /-- The limbs in front of the first that does not fit stand in memory. -/
  of_error : ∀ fault, result = .error fault → ∃ index < limbs.length, ∃ place : UInt64,
    memory.FirstOutside address.toNat index ∧
      place.toNat = address.toNat + limbBytes * index ∧ fault = .writeFailed place ∧
      PutAt memory after address.toNat (Limbs.toBytes (limbs.take index))

/-- What a read of a row of limbs comes to. -/
structure RowRead (memory : Memory) (address : UInt64) (count : Nat)
    (answer : Option (Except BusFault (List Limb))) : Prop where
  /-- More limbs than a block of storage can hold are not read. -/
  none_iff : answer = none ↔ maxBytes < limbBytes * count
  error_iff : (∃ fault, answer = some (.error fault)) ↔
    limbBytes * count ≤ maxBytes ∧ 0 < count ∧
      memory.size < address.toNat + limbBytes * count
  /-- The bytes of the limbs are those that stand in memory. -/
  of_ok : ∀ limbs, answer = some (.ok limbs) →
    limbs.length = count ∧
      Limbs.toBytes limbs = memory.region address.toNat (limbBytes * count)
  of_error : ∀ fault, answer = some (.error fault) → ∃ index < count, ∃ place : UInt64,
    memory.FirstOutside address.toNat index ∧
      place.toNat = address.toNat + limbBytes * index ∧ fault = .readFailed place

/-- A row of limbs is written as far as it fits. -/
theorem rowWrite (hsize : memory.size ≤ maxBytes) (address : UInt64) (limbs : List Limb) :
    RowWrite memory address limbs (memory.writeLimbs address limbs).1
      (memory.writeLimbs address limbs).2 := by
  by_cases hroom : limbs.length ≤ memory.room address.toNat
  · obtain ⟨after, hwrite, hput⟩ := exists_writeLimbs limbs hsize hroom
    have hfits := le_room_iff.mp hroom
    rw [hwrite]
    refine ⟨iff_of_true rfl ?_, fun _ => ⟨hput, ?_⟩, fun fault herror => by cases herror⟩
    · rwa [← List.length_eq_zero_iff]
    · have hblock : limbs.length * limbBytes ≤ maxBytes := by
        simp only [limbBytes] at *
        omega
      rw [readBlock?, if_pos hblock, hput.readLimbs_eq hsize hroom]
  · have hwrite := @writeLimbs_eq memory address hsize limbs
    rw [if_neg hroom] at hwrite
    have hbeyond := mt le_room_iff.mpr hroom
    rw [hwrite]
    refine ⟨iff_of_false nofun ?_, nofun, ?_⟩
    · rwa [← List.length_eq_zero_iff]
    · rintro fault ⟨⟩
      exact ⟨_, Nat.lt_of_not_le hroom, _, firstOutside_room _ _, toNat_rowEnd hsize address, rfl,
        putAt_room limbs (Nat.le_refl _)⟩

/-- A row of limbs is read if it lies in memory. -/
theorem rowRead (hsize : memory.size ≤ maxBytes) (address : UInt64) (count : Nat) :
    RowRead memory address count (memory.readBlock? address count) := by
  by_cases hblock : limbBytes * count ≤ maxBytes
  · have hread := @readLimbs_eq memory address hsize count
    rw [readBlock?, if_pos (by rwa [Nat.mul_comm]), hread]
    by_cases hroom : count ≤ memory.room address.toNat
    · have hfits := le_room_iff.mp hroom
      rw [if_pos hroom]
      refine ⟨iff_of_false nofun (Nat.not_lt.mpr hblock), iff_of_false nofun ?_, ?_, nofun⟩
      · rintro ⟨-, hpos, hbeyond⟩
        omega
      · rintro limbs ⟨⟩
        exact ⟨length_limbsAt _ _ _, toBytes_limbsAt _ _ _⟩
    · have hbeyond := mt le_room_iff.mpr hroom
      rw [if_neg hroom]
      refine ⟨iff_of_false nofun (Nat.not_lt.mpr hblock),
        iff_of_true ⟨_, rfl⟩ ⟨hblock, by omega, by omega⟩, nofun, ?_⟩
      rintro fault ⟨⟩
      exact ⟨_, Nat.lt_of_not_le hroom, _, firstOutside_room _ _, toNat_rowEnd hsize address, rfl⟩
  · rw [readBlock?, if_neg (by rwa [Nat.mul_comm])]
    exact ⟨iff_of_true rfl (Nat.lt_of_not_le hblock), iff_of_false nofun fun h => hblock h.1, nofun,
      nofun⟩

/-- A limb is read where it lies in memory, and it is the number that its bytes write. -/
theorem read_eq_ok_iff {limb : Limb} :
    memory.read address = .ok limb ↔ address.toNat + limbBytes ≤ memory.size ∧
      limb.toNat = bytesValue (memory.region address.toNat limbBytes) := by
  rw [read, holds, ← toNat_limbAt, UInt64.toNat_inj]
  by_cases hholds : address.toNat + limbBytes ≤ memory.size
  · simp [hholds, eq_comm]
  · simp [hholds]

/-- Rows of limbs at any address are written as far as they fit and read if they lie in memory, and
a limb is read as the bytes stand. -/
theorem limb_rows (hsize : memory.size ≤ maxBytes) (address : UInt64) :
    (∀ limbs, RowWrite memory address limbs (memory.writeLimbs address limbs).1
      (memory.writeLimbs address limbs).2) ∧
    (∀ count, RowRead memory address count (memory.readBlock? address count)) ∧
    (∀ limb, memory.read address = .ok limb ↔ address.toNat + limbBytes ≤ memory.size ∧
      limb.toNat = bytesValue (memory.region address.toNat limbBytes)) ∧
    (LimbBus.read address memory).2 = memory :=
  ⟨rowWrite hsize address, rowRead hsize address, fun _ => read_eq_ok_iff, rfl⟩

/-- Of three limbs at address 4, two fit into a memory of 24 bytes. -/
theorem limb_rows_unaligned :
    (zero 24).size ≤ maxBytes ∧
      RowWrite (zero 24) 4 [1, 2, 3] (.error (.writeFailed 20))
        ((zero 24).putBytes 4 (Limbs.toBytes [1, 2])) ∧
      RowRead (zero 24) 4 3 (some (.error (.readFailed 20))) := by
  have hsize : (zero 24).size ≤ maxBytes := by decide
  have hrows := limb_rows hsize 4
  have hwrite := hrows.1 [1, 2, 3]
  have hread := hrows.2.1 3
  rw [writeLimbs_eq hsize] at hwrite
  exact ⟨hsize, hwrite, hread⟩

/-- A read of more limbs than a block of storage can hold does not name the first limb outside. -/
theorem oversized_read :
    (zero 8).FirstOutside 0 1 ∧ (zero 8).size < 0 + limbBytes * 2 ^ 60 ∧
      (zero 8).readBlock? 0 (2 ^ 60) = none := by
  refine ⟨firstOutside_room (zero 8) 0, ?_, ?_⟩
  · decide
  · decide

end Memory

end WideMultiplier
