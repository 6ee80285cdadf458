import Mathlib.Algebra.BigOperators.Group.List.Basic
import Mathlib.Algebra.Order.Floor.Div
import Mathlib.Data.List.SplitLengths

/-! # Balanced splitting

A list cut into a given number of parts whose lengths differ by at most one: the remainder of the
division goes to the first parts, one element each.
-/

namespace Etl.BalancedSplit

open List

/-- The length of part `i` of `count` parts of `total` elements. -/
def partSize (total count i : ℕ) : ℕ := total / count + if i < total % count then 1 else 0

/-- The lengths of all parts. -/
def partSizes (total count : ℕ) : List ℕ := (List.range count).map (partSize total count)

/-- Takes the parts off the front of the list one after the other. -/
def splitOffParts {α : Type} (sizes : List ℕ) (elements : List α) : List (List α) × List α :=
  sizes.foldl (fun (parts, remaining) size =>
    (parts ++ [remaining.take size], remaining.drop size)) ([], elements)

theorem sum_map_range_ite (count extra : ℕ) :
    ((List.range count).map fun i => if i < extra then 1 else 0).sum = min count extra := by
  induction count with
  | zero => simp
  | succ count ih =>
    rw [range_succ, map_append, sum_append]
    simp only [map_cons, map_nil, sum_cons, sum_nil]
    split_ifs <;> omega

variable {total count : ℕ}

/-- The parts have all elements. -/
theorem sum_partSizes (hcount : 0 < count) : (partSizes total count).sum = total := by
  have hsum : (partSizes total count).sum =
      ((List.range count).map fun _ => total / count).sum +
        ((List.range count).map fun i => if i < total % count then 1 else 0).sum :=
    sum_map_add
  rw [hsum, sum_map_range_ite, map_const', sum_replicate, length_range,
    min_eq_right (Nat.mod_lt total hcount).le]
  exact Nat.div_add_mod total count

/-- No part is longer than the quotient rounded up. -/
theorem partSize_le {bound : ℕ} (htotal : total ≤ count * bound) (i : ℕ) :
    partSize total count i ≤ bound := by
  have hdiv := Nat.div_add_mod total count
  have hquotient : total / count ≤ bound := Nat.div_le_of_le_mul htotal
  rw [partSize]
  split_ifs with hi
  · -- a remainder is left, so the quotient itself is below the bound
    have hlt : count * (total / count) < count * bound := by omega
    exact Nat.lt_of_mul_lt_mul_left hlt
  · exact hquotient

theorem partSize_pos (hle : count ≤ total) (hcount : 0 < count) (i : ℕ) :
    0 < partSize total count i :=
  Nat.lt_of_lt_of_le (Nat.div_pos hle hcount) (Nat.le_add_right _ _)

theorem splitOffParts_eq {α : Type} (sizes : List ℕ) (elements : List α) :
    (splitOffParts sizes elements).1 = sizes.splitLengths elements := by
  have hfold : ∀ (parts : List (List α)) (remaining : List α),
      (sizes.foldl (fun (parts, remaining) size =>
        (parts ++ [remaining.take size], remaining.drop size)) (parts, remaining)).1 =
        parts ++ sizes.splitLengths remaining := by
    induction sizes with
    | nil => simp
    | cons size sizes ih =>
      intro parts remaining
      rw [foldl_cons, ih, splitLengths_cons, append_assoc, singleton_append]
  exact hfold [] elements

end Etl.BalancedSplit
