import WideMultiplier.Proofs.SchoolbookValue

/-!
# Schoolbook multiplication in place

Written as two nested loops, schoolbook multiplication keeps all limbs of the result in one list: a
row replaces the limbs of its window where they stand and puts its last carry behind them.
`Schoolbook.inPlace_eq_product` says that the loops give the schoolbook product. The main statement,
`Operands.schoolbook_exact`, says that this is the product of the two values, and that the word of
every inner step holds its sum.
-/

namespace WideMultiplier

namespace Schoolbook

/-! ## The loops -/

/-- What a row works on: the limbs of the result, and the carry. -/
structure RowState where
  result : List Limb
  carry : Limb

namespace RowState

variable (xs ys : List Limb) (i j : Nat) (state : RowState)

/-- The sum of inner step `j` of row `i`: the product of two limbs, the limb of the result at their
place, and the carry. -/
def sum : Nat :=
  (xs.getD i 0).toNat * (ys.getD j 0).toNat + (state.result.getD (i + j) 0).toNat +
    state.carry.toNat

/-- The word that inner step `j` of row `i` computes its sum in. -/
def word : DoubleLimb :=
  multiplyAdd (xs.getD i 0) (ys.getD j 0) (state.result.getD (i + j) 0) state.carry

/-- Inner step `j` of row `i`: the low limb of the word is stored, and the high one is the carry. -/
def step : RowState :=
  ⟨state.result.set (i + j) (Limb.split (state.word xs ys i j)).1,
    (Limb.split (state.word xs ys i j)).2⟩

end RowState

/-- Row `i` after some of its inner steps, from the result that the rows before it have left. -/
def rowInPlace (xs ys : List Limb) (i : Nat) (result : List Limb) : Nat → RowState
  | 0 => ⟨result, 0⟩
  | steps + 1 => (rowInPlace xs ys i result steps).step xs ys i steps

/-- The result after some rows. A row ends by storing its carry. -/
def inPlace (xs ys : List Limb) : Nat → List Limb
  | 0 => List.replicate (xs.length + ys.length) 0
  | rows + 1 =>
    let row := rowInPlace xs ys rows (inPlace xs ys rows) ys.length
    row.result.set (rows + ys.length) row.carry

/-- What the loops hold before inner step `j` of row `i`. -/
def stateAt (xs ys : List Limb) (i j : Nat) : RowState :=
  rowInPlace xs ys i (inPlace xs ys i) j

/-! ## The loops give the schoolbook product -/

section Loops

variable (xs ys : List Limb)

/-- Behind the last limb of a row comes its carry. -/
theorem addRow_nil (x : Limb) (window : List Limb) (carry : Limb) :
    addRow x [] window carry = [carry] := by
  simp [addRow]

/-- The limbs from an index on are the limb there and the limbs behind it. -/
theorem exists_drop_eq_cons (limbs : List Limb) {index : Nat} (h : index < limbs.length) :
    ∃ limb, limbs.getD index 0 = limb ∧ limbs.drop index = limb :: limbs.drop (index + 1) :=
  ⟨limbs[index], by simp [h], List.drop_eq_getElem_cons h⟩

/-- The inner steps of a row store its limbs one after the other and leave the limbs around them
alone. -/
theorem rowInPlace_cases {i : Nat} {final window : List Limb} (above : List Limb)
    (hfinal : final.length = i) (hwindow : window.length = ys.length) {steps : Nat}
    (hsteps : steps ≤ ys.length) :
    ∃ low, low.length = steps ∧
      (rowInPlace xs ys i (final ++ window ++ above) steps).result =
        final ++ low ++ (window.drop steps ++ above) ∧
      addRow (xs.getD i 0) ys window 0 =
        low ++ addRow (xs.getD i 0) (ys.drop steps) (window.drop steps)
          (rowInPlace xs ys i (final ++ window ++ above) steps).carry := by
  induction steps with
  | zero => exact ⟨[], rfl, by simp [rowInPlace], rfl⟩
  | succ steps ih =>
      obtain ⟨low, hlow, hresult, hrow⟩ := ih (Nat.le_of_succ_le hsteps)
      obtain ⟨y, hy, hyDrop⟩ := exists_drop_eq_cons ys hsteps
      obtain ⟨below, -, hbelowDrop⟩ := exists_drop_eq_cons window (hwindow ▸ hsteps)
      have hplace : i + steps = (final ++ low).length := by simp [hfinal, hlow]
      rw [rowInPlace, RowState.step]
      generalize rowInPlace xs ys i (final ++ window ++ above) steps = state at hresult hrow ⊢
      rw [hbelowDrop] at hresult hrow
      rw [hyDrop, addRow] at hrow
      -- the step meets the first limb of the window that the row has not passed
      have hword : state.word xs ys i steps =
          multiplyAdd (xs.getD i 0) y below state.carry := by
        rw [RowState.word, hresult, hplace, hy]
        simp
      refine ⟨low ++ [(Limb.split (state.word xs ys i steps)).1], by simp [hlow], ?_, ?_⟩
      · rw [hresult, hplace]
        simp
      · rw [hrow, hword]
        simp

/-- After some rows the result holds the limbs that are final, the window of the next row, and
zeros. -/
theorem inPlace_cases {rows : Nat} (hrows : rows ≤ xs.length) :
    ∃ final window, final.length = rows ∧ window.length = ys.length ∧
      inPlace xs ys rows = final ++ window ++ List.replicate (xs.length - rows) 0 ∧
      product xs ys = final ++ addRows ys (xs.drop rows) window := by
  induction rows with
  | zero =>
      refine ⟨[], List.replicate ys.length 0, rfl, by simp, ?_, rfl⟩
      rw [inPlace, List.nil_append, List.replicate_append_replicate, Nat.sub_zero, Nat.add_comm]
  | succ rows ih =>
      obtain ⟨final, window, hfinal, hwindow, hresult, hproduct⟩ := ih (Nat.le_of_succ_le hrows)
      obtain ⟨x, hx, hxDrop⟩ := exists_drop_eq_cons xs hrows
      have habove : xs.length - rows = xs.length - (rows + 1) + 1 := by omega
      obtain ⟨low, hlow, hlimbs, hrow⟩ := rowInPlace_cases xs ys
        (List.replicate (xs.length - rows) 0) hfinal hwindow (Nat.le_refl _)
      rw [← hresult, List.drop_of_length_le (Nat.le_of_eq hwindow), List.nil_append, habove,
        List.replicate_succ] at hlimbs
      rw [← hresult, List.drop_length, addRow_nil, hx] at hrow
      have hplace : rows + ys.length = (final ++ low).length := by simp [hfinal, hlow]
      rw [inPlace, hlimbs, hplace, hproduct, hxDrop, addRows, hrow]
      generalize (rowInPlace xs ys rows (inPlace xs ys rows) ys.length).carry = carry
      -- the lowest limb of the row is final, and the others are the next window
      cases low with
      | nil => exact ⟨final ++ [carry], [], by simp [hfinal], hlow, by simp, by simp⟩
      | cons lowest rest =>
          refine ⟨final ++ [lowest], rest ++ [carry], by simp [hfinal], ?_, by simp, by simp⟩
          simpa using hlow

/-- The loops give the schoolbook product. -/
theorem inPlace_eq_product : inPlace xs ys xs.length = product xs ys := by
  obtain ⟨final, window, -, -, hresult, hproduct⟩ := inPlace_cases xs ys (Nat.le_refl _)
  rw [hresult, hproduct, List.drop_length, addRows, Nat.sub_self]
  simp

/-! ## Every inner step is exact -/

/-- The rows keep the length of the result. -/
theorem length_rowInPlace (i : Nat) (result : List Limb) (steps : Nat) :
    (rowInPlace xs ys i result steps).result.length = result.length := by
  induction steps with
  | zero => rfl
  | succ steps ih => simpa [rowInPlace, RowState.step] using ih

/-- The result has room for both numbers throughout. -/
theorem length_inPlace (rows : Nat) : (inPlace xs ys rows).length = xs.length + ys.length := by
  induction rows with
  | zero => simp [inPlace]
  | succ rows ih => simpa [inPlace, length_rowInPlace] using ih

variable (i j : Nat) (state : RowState)

/-- A word holds the sum of its step, since the largest product leaves room for two more limbs. -/
theorem RowState.toNat_word : (state.word xs ys i j).toNat = state.sum xs ys i j :=
  toNat_multiplyAdd _ _ _ _

/-- The sum of a step is what it stores and what it carries. -/
theorem RowState.value_split_word :
    (Limb.split (state.word xs ys i j)).1.toNat +
        Limb.base * (Limb.split (state.word xs ys i j)).2.toNat =
      state.sum xs ys i j := by
  rw [Limb.value_split, toNat_word]

end Loops

end Schoolbook

/-- The schoolbook product of two factors is what the loops leave, and writes the product of their
values. Each inner step of the loops finds a limb of the result at its place, its sum fits in a
128-bit word, and the limb that it stores and the carry that it hands on make up the sum. -/
theorem Operands.schoolbook_exact (operands : Operands) :
    operands.schoolbook.value = operands.a.value * operands.b.value ∧
      operands.schoolbook.toList =
        Schoolbook.inPlace operands.a.toList operands.b.toList operandLimbs ∧
      ∀ i j : Fin operandLimbs,
        let xs := operands.a.toList
        let ys := operands.b.toList
        let state := Schoolbook.stateAt xs ys i j
        i + j < state.result.length ∧
          state.sum xs ys i j < 2 ^ 128 ∧
          (state.word xs ys i j).toNat = state.sum xs ys i j ∧
          (Limb.split (state.word xs ys i j)).1.toNat +
              Limb.base * (Limb.split (state.word xs ys i j)).2.toNat =
            state.sum xs ys i j := by
  refine ⟨operands.value_schoolbook, ?_, ?_⟩
  · have hloops := Schoolbook.inPlace_eq_product operands.a.toList operands.b.toList
    rw [Vector.length_toList] at hloops
    exact hloops.symm
  · intro i j xs ys state
    have hword := Schoolbook.RowState.toNat_word xs ys i j state
    refine ⟨?_, ?_, hword, Schoolbook.RowState.value_split_word xs ys i j state⟩
    · have hlength : state.result.length = operandLimbs + operandLimbs := by
        simp [state, Schoolbook.stateAt, Schoolbook.length_rowInPlace, Schoolbook.length_inPlace,
          xs, ys]
      rw [hlength]
      exact Nat.add_lt_add i.isLt j.isLt
    · rw [← hword]
      exact (state.word xs ys i j).isLt

end WideMultiplier
