import WideMultiplier.Sink

/-!
# What a sink takes

A sink takes bytes as far as it has room, and what does not fit is given up at the first refusal:
`Sink.written` is what comes of bytes that are written at once (`Sink.writeAll_eq`). The bytes may
as well come in pieces, however small, since writing what is left behind a first part comes to the
same as writing it all (`Sink.written_append`). So `Sink.writePieces_eq` holds of every way to break
up a text, and `Sink.writeListing_takes` of a listing.
-/

namespace WideMultiplier

/-! ## Bytes of a text -/

/-- Taking bytes one after the other gives those that are left behind those taken before. -/
theorem toList_loop_eq (bytes : ByteArray) (index : Nat) (taken : List UInt8) :
    ByteArray.toList.loop bytes index taken = taken.reverse ++ bytes.data.toList.drop index := by
  fun_induction ByteArray.toList.loop bytes index taken with
  | case1 index taken hlt ih =>
      have hindex : index < bytes.data.toList.length := by simpa using hlt
      rw [ih, List.drop_eq_getElem_cons hindex]
      simp [ByteArray.get!, hlt]
  | case2 index taken hle =>
      rw [List.drop_eq_nil_of_le (by simpa using Nat.le_of_not_lt hle)]
      simp

/-- The list of bytes holds the bytes. -/
theorem toList_eq_data (bytes : ByteArray) : bytes.toList = bytes.data.toList := by
  rw [ByteArray.toList, toList_loop_eq]
  rfl

/-- The bytes of a text that is put together are those of its parts. -/
theorem toUTF8_append (front back : String) :
    (front ++ back).toUTF8.toList = front.toUTF8.toList ++ back.toUTF8.toList := by
  simp only [toList_eq_data, String.toUTF8_eq_toByteArray, String.toByteArray_append,
    ByteArray.data_append, Array.toList_append]

namespace Sink

/-! ## Bytes at once -/

/-- What comes of bytes that a sink is to take: it takes as many as it has room for, and refuses
once if those are not all. -/
def written (sink : Sink) (bytes : List UInt8) : Except SinkFault Unit × Sink :=
  if bytes.length ≤ sink.room then
    (.ok (), { sink with taken := sink.taken ++ bytes, room := sink.room - bytes.length })
  else
    (.error sink.fault,
      { sink with
        taken := sink.taken ++ bytes.take sink.room
        room := 0
        refusals := sink.refusals + 1 })

/-- Nothing is written without bytes. -/
theorem written_nil (sink : Sink) : sink.written [] = (.ok (), sink) := by
  simp [written]

/-- A full sink refuses whatever it is offered. -/
theorem writeAll_of_full {sink : Sink} (hfull : sink.room = 0) {bytes : List UInt8}
    (hne : bytes ≠ []) :
    sink.writeAll bytes = (.error sink.fault, { sink with refusals := sink.refusals + 1 }) := by
  cases bytes with
  | nil => exact absurd rfl hne
  | cons byte rest => rw [writeAll, offer, if_pos hfull]

/-- A sink with room takes of an offer what it can, and the rest is offered to what is left of
it. -/
theorem writeAll_of_room {sink : Sink} (hroom : sink.room ≠ 0) (bytes : List UInt8) :
    sink.writeAll bytes =
      writeAll { sink with
        taken := sink.taken ++ bytes.take sink.room
        room := sink.room - bytes.length } (bytes.drop sink.room) := by
  cases bytes with
  | nil => simp [writeAll]
  | cons byte rest =>
      obtain ⟨count, hcount⟩ : ∃ count, min sink.room (byte :: rest).length = count + 1 :=
        Nat.exists_eq_add_one.mpr (by simp; omega)
      have hoffer : sink.offer (byte :: rest) =
          (.ok (count + 1), { sink with
            taken := sink.taken ++ (byte :: rest).take sink.room
            room := sink.room - (byte :: rest).length }) := by
        have htaken : sink.room - (count + 1) = sink.room - (byte :: rest).length := by omega
        rw [offer, if_neg hroom, List.take_eq_take_min, ← htaken]
        simp only [hcount]
      have hdrop : rest.drop count = (byte :: rest).drop sink.room := by
        rcases Nat.le_total sink.room (byte :: rest).length with hle | hle
        · rw [show sink.room = count + 1 by omega, List.drop_succ_cons]
        · rw [List.drop_eq_nil_of_le hle, List.drop_eq_nil_of_le]
          simp only [List.length_cons] at hcount hle
          omega
      rw [writeAll, hoffer, ← hdrop]

/-- At most two offers write bytes: one of them takes what fits, and the other is refused. -/
theorem writeAll_eq (sink : Sink) (bytes : List UInt8) :
    sink.writeAll bytes = sink.written bytes := by
  by_cases hfits : bytes.length ≤ sink.room
  · by_cases hfull : sink.room = 0
    · have hempty : bytes = [] := List.eq_nil_of_length_eq_zero (by omega)
      rw [hempty, writeAll, written_nil]
    · rw [writeAll_of_room hfull, List.drop_eq_nil_of_le hfits, writeAll, written, if_pos hfits,
        List.take_of_length_le hfits]
  · have hleft : bytes.drop sink.room ≠ [] := mt List.drop_eq_nil_iff.mp hfits
    by_cases hfull : sink.room = 0
    · rw [hfull, List.drop_zero] at hleft
      rw [writeAll_of_full hfull hleft, written, if_neg hfits, hfull, List.take_zero,
        List.append_nil, ← hfull]
    · have hnone : sink.room - bytes.length = 0 := by omega
      rw [writeAll_of_room hfull, writeAll_of_full hnone hleft, written, if_neg hfits, hnone]

/-! ## Bytes in pieces -/

/-- Behind bytes that fit, the rest is written to what is left of the sink. -/
theorem written_append {sink : Sink} {front : List UInt8} (hfits : front.length ≤ sink.room)
    (rest : List UInt8) :
    sink.written (front ++ rest) =
      written { sink with taken := sink.taken ++ front, room := sink.room - front.length }
        rest := by
  have hiff : (front ++ rest).length ≤ sink.room ↔ rest.length ≤ sink.room - front.length := by
    rw [List.length_append]
    omega
  by_cases hrest : rest.length ≤ sink.room - front.length
  · rw [written, written, if_pos (hiff.mpr hrest), if_pos hrest, List.append_assoc,
      List.length_append, Nat.sub_sub]
  · rw [written, written, if_neg (mt hiff.mp hrest), if_neg hrest, List.append_assoc,
      List.take_append, List.take_of_length_le hfits]

/-- Behind bytes that do not fit, nothing more is written. -/
theorem written_append_of_lt {sink : Sink} {front : List UInt8} (hlong : sink.room < front.length)
    (rest : List UInt8) : sink.written (front ++ rest) = sink.written front := by
  have hlonger : ¬ (front ++ rest).length ≤ sink.room := by
    rw [List.length_append]
    omega
  rw [written, written, if_neg hlonger, if_neg (Nat.not_le.mpr hlong),
    List.take_append_of_le_length (Nat.le_of_lt hlong)]

/-- Pieces are written as the text that they make up. -/
theorem writePieces_eq (sink : Sink) (pieces : List String) :
    sink.writePieces pieces = sink.written (String.join pieces).toUTF8.toList := by
  induction pieces generalizing sink with
  | nil =>
      have hempty : (String.join []).toUTF8.toList = [] := by
        rw [toList_eq_data]
        rfl
      rw [hempty, writePieces, written_nil]
  | cons piece rest ih =>
      rw [writePieces, writeAll_eq, String.join_cons, toUTF8_append]
      by_cases hfits : piece.toUTF8.toList.length ≤ sink.room
      · rw [written_append hfits, ← ih, written, if_pos hfits]
      · rw [written_append_of_lt (Nat.not_le.mp hfits), written, if_neg hfits]

example : ((ofRoom 3).writePieces ["ab", "cd", "ef"]).2 = ⟨[97, 98, 99], 0, 1, full⟩ := by
  decide +kernel

/-! ## Listings -/

/-- A sink takes of a listing what it has room for. It is an error, the one of the sink, if that is
not the whole listing; the sink has then refused once, so that nothing is offered behind the offer
that it refused. All this holds however the listing is broken into pieces. -/
theorem writeListing_takes (sink : Sink) (operands : Operands) :
    (sink.writeListing operands).2.taken =
        sink.taken ++ (Listing.render operands).toUTF8.toList.take sink.room ∧
      (sink.writeListing operands).1 =
        (if (Listing.render operands).toUTF8.toList.length ≤ sink.room then .ok ()
          else .error sink.fault) ∧
      (sink.writeListing operands).2.refusals =
        sink.refusals +
          (if (Listing.render operands).toUTF8.toList.length ≤ sink.room then 0 else 1) ∧
      ∀ pieces, String.join pieces = Listing.render operands →
        sink.writePieces pieces = sink.writeListing operands := by
  have hwritten : sink.writeListing operands =
      sink.written (Listing.render operands).toUTF8.toList :=
    writePieces_eq sink (Listing.pieces operands)
  rw [hwritten]
  refine ⟨?_, ?_, ?_, ?_⟩
  · rw [written]
    split
    · next hfits => rw [List.take_of_length_le hfits]
    · rfl
  · rw [written]
    split <;> rfl
  · rw [written]
    split <;> rfl
  · intro pieces hpieces
    rw [writePieces_eq, hpieces]

end Sink

end WideMultiplier
