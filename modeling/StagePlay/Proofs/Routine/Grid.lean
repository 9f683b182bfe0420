import StagePlay.Proofs.Number.Halves
import StagePlay.Proofs.Program.Spelling
import StagePlay.Routine.Builtin

/-!
# The cells of the grid

A coordinate is meant for the whole number nearest to it, a half going up, of those that the grid
has (`nearestCell`). The cell is computed by adding a half to a float, and so there is one float for
which it is another one (`gridCell_eq`): the float just below a half comes to cell 1.

* `Block.coordinate` — a coordinate of a block, which is finite;
* `Routine.gridCell_eq`, `Routine.value_grid` — the cell of a coordinate, and the exact coordinate of
  a cell;
* `Block.isCell_destination` — the place to which a block leads.
-/

namespace StagePlay

open Number

/-! ### Arguments -/

/-- The number that an argument stands for is finite; what is not counts as none. -/
theorem Argument.isFinite_of_number? {a : Argument} {x : Float} (h : a.number? = some x) :
    isFinite x = true := by
  by_contra hx
  have hnone : (Argument.number x).number? = none := if_neg hx
  rw [Arguments.number?_finite h] at hnone
  exact nomatch hnone

/-- **The coordinate that a block gives**, which is 0 if it gives no number. -/
def Block.coordinate (b : Block) (name : String) : Float := (b.number? name).getD 0.0

theorem Block.isFinite_coordinate (b : Block) (name : String) :
    isFinite (b.coordinate name) = true := by
  unfold coordinate
  cases hnumber : b.number? name with
  | none => rfl
  | some x =>
    obtain ⟨a, -, ha⟩ := Option.bind_eq_some_iff.mp hnumber
    exact Argument.isFinite_of_number? ha

namespace Routine

/-! ### Cells -/

/-- **The cell that a coordinate is meant for**: the nearest whole number, a half going up, of the
rows and columns that there are. -/
def nearestCell (v : Float) : Int := max (-gridLimit) (min gridLimit (round (value v)))

/-- **The cell that a coordinate comes to**: the one that it is meant for, but for the float just
below a half, which comes to the next one. Adding a half to that float gives 1 after rounding. -/
def reachedCell (v : Float) : Int := if v = belowHalf then 1 else nearestCell v

/-- Beyond the grid, it does not matter how a sum is rounded: the cell is the outermost one in any
case. -/
theorem gridCell_of_large {v : Float} (hv : isFinite v = true) (hlarge : 2 ^ 50 < |value v|) :
    gridCell v = nearestCell v := by
  have hsum := rounds_add_half hv
  unfold gridCell nearestCell gridLimit
  rw [Exact.floor_ofFloat hsum.finite, round_eq]
  rcases lt_abs.mp hlarge with hlarge | hlarge
  · -- above the last cell
    have hmost : (15 : ℚ) ≤ value (v + 0.5) :=
      hsum.nearest.ge (representable_intCast (n := 15) (by norm_num)) (by linarith)
    have hfloor : 15 ≤ ⌊value (v + 0.5)⌋ := Int.le_floor.mpr (by exact_mod_cast hmost)
    have hround : 15 ≤ ⌊value v + 1 / 2⌋ := Int.le_floor.mpr (by push_cast; linarith)
    omega
  · -- below the first one
    have hleast : value (v + 0.5) ≤ (-16 : ℤ) :=
      hsum.nearest.le (representable_intCast (n := -16) (by norm_num)) (by push_cast; linarith)
    have hfloor : ⌊value (v + 0.5)⌋ ≤ -16 := by
      exact_mod_cast (Int.floor_le (value (v + 0.5))).trans hleast
    have hround : ⌊value v + 1 / 2⌋ < -15 := Int.floor_lt.mpr (by push_cast; linarith)
    omega

/-- **The cell of a coordinate**, computed by adding a half, is the one that it is meant for, with a
single exception. Up to `2 ^ 50` the sum is exact enough for its floor to be right, and beyond that
the cell is the outermost one. -/
theorem gridCell_eq {v : Float} (hv : isFinite v = true) : gridCell v = reachedCell v := by
  unfold reachedCell
  split
  · next hbelow =>
    subst hbelow
    unfold gridCell
    rw [floor_belowHalf]
    decide
  · next hbelow =>
    -- the exception is a matter of the value, and no other float has that value
    by_cases hbound : |value v| ≤ 2 ^ 50
    · have hne : value v ≠ 1 / 2 - 2 ^ (-54 : ℤ) := by
        intro hvalue
        refine hbelow (eq_of_value_eq hv rfl ?_ (hvalue.trans value_belowHalf.symm))
        rw [hvalue]
        norm_num
      unfold gridCell nearestCell
      rw [floor_add_half hv hbound hne]
    · exact gridCell_of_large hv (not_le.mp hbound)

example : gridCell (-2.5) = -2 := rfl

/-- The float just below a half is meant for the cell in the middle, so for it the two cells differ.
-/
theorem nearestCell_belowHalf : nearestCell belowHalf = 0 := by
  have hround : round (value belowHalf) = 0 := by
    rw [value_belowHalf, round_eq_zero_iff]
    norm_num
  unfold nearestCell
  rw [hround]
  decide

/-- **The coordinate of a cell** is exact: the cells are ten units apart, and small whole numbers
are floats. -/
theorem value_grid (v : Float) : isFinite (grid v) = true ∧ value (grid v) = 10 * gridCell v := by
  have hcell : |gridScale * gridCell v| ≤ 150 := by
    unfold gridScale gridCell gridLimit
    rw [abs_le]
    omega
  have hsmall : |gridScale * gridCell v| < 2 ^ 53 := hcell.trans_lt (by norm_num)
  have hrounds := rounds_ofInt hsmall
  have hexact := hrounds.nearest.eq (representable_intCast hsmall)
  refine ⟨hrounds.finite, ?_⟩
  unfold grid
  rw [hexact, Int.cast_mul]
  rfl

end Routine

/-! ### Places -/

/-- **A place that is a cell of the grid**, exactly. It is said of the values, so that it does not
matter how zero is written. -/
structure Point.IsCell (p : Point) (column row : Int) : Prop where
  finite_x : isFinite p.x = true
  finite_y : isFinite p.y = true
  value_x : value p.x = 10 * column
  value_y : value p.y = 10 * row

/-- The place to which the coordinates of a block lead. -/
def Block.destination (b : Block) : Point :=
  ⟨Routine.grid (b.coordinate "x"), Routine.grid (b.coordinate "y")⟩

/-- **The place to which a block leads** is a cell of the grid, on either axis the one that its
coordinate comes to, whatever arguments the block has. -/
theorem Block.isCell_destination (b : Block) : b.destination.IsCell
    (Routine.reachedCell (b.coordinate "x")) (Routine.reachedCell (b.coordinate "y")) := by
  obtain ⟨hfinite, hvalue⟩ := Routine.value_grid (b.coordinate "x")
  obtain ⟨hfinite', hvalue'⟩ := Routine.value_grid (b.coordinate "y")
  rw [Routine.gridCell_eq (b.isFinite_coordinate "x")] at hvalue
  rw [Routine.gridCell_eq (b.isFinite_coordinate "y")] at hvalue'
  exact ⟨hfinite, hfinite', hvalue, hvalue'⟩

end StagePlay
