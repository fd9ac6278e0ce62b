import ControlHierarchy.Proofs.Constraint.Grouping
import Mathlib.Data.List.Perm.Basic

/-!
# Sentinels come and go

A merge that gives every row two bounds puts a sentinel in the place of a missing
one. When the rows are split again, each sentinel makes a row that is not
restricted, so the restricted rows are those that the parts have
(`BoundedRow.restrictedBelow_fill`, `BoundedRow.restrictedAbove_fill`). They only
come in another order: the rows of a part were together, and now all rows bounded
above come first (`Faces.restrictedRows_merge_twoSided`).
-/

namespace ControlHierarchy

open BoundScalar (restricts)

/-- Equalities stay apart and rows have both bounds. -/
def Policy.twoSided : Policy := ⟨false, true⟩

namespace BoundedRow

variable {r : BoundedRow Float} {rows : List (BoundedRow Float)}

/-- The upper bound of a row as the right-hand side of an inequality, if it
restricts anything. -/
def restrictedBelow (r : BoundedRow Float) : Option (List Float × Float) :=
  r.withSide.filter (restricts ·.2)

/-- The lower bound of a row as the right-hand side of the flipped inequality, if
it restricts anything. -/
def restrictedAbove (r : BoundedRow Float) : Option (List Float × Float) :=
  (r.lower.map fun l => (r.coefficients.map (-·), -l)).filter (restricts ·.2)

theorem not_restricts_unboundedAbove : restricts (BoundScalar.unboundedAbove : Float) = false := rfl

theorem not_restricts_unboundedBelow : restricts (-(BoundScalar.unboundedBelow : Float)) = false :=
  rfl

/-- The sentinel above is not restricted. -/
theorem restrictedBelow_fill (r : BoundedRow Float) :
    r.fill.restrictedBelow = r.restrictedBelow := by
  cases h : r.upper with
  | none =>
    simp [restrictedBelow, withSide, fill, h, Option.filter, not_restricts_unboundedAbove]
  | some u => simp [restrictedBelow, withSide, fill, h]

/-- The sentinel below is not restricted once it is flipped. -/
theorem restrictedAbove_fill (r : BoundedRow Float) :
    r.fill.restrictedAbove = r.restrictedAbove := by
  cases h : r.lower with
  | none => simp [restrictedAbove, fill, h, Option.filter, not_restricts_unboundedBelow]
  | some l => simp [restrictedAbove, fill, h]

theorem restrictedBelow_below (r : BoundedRow Float) :
    r.below.bind restrictedBelow = r.restrictedBelow := by
  cases h : r.upper with
  | none => simp [restrictedBelow, withSide, below, h]
  | some u => simp [restrictedBelow, withSide, below, h]

theorem restrictedBelow_above (r : BoundedRow Float) :
    r.above.bind restrictedBelow = r.restrictedAbove := by
  cases h : r.lower with
  | none => simp [restrictedAbove, above, h]
  | some l => simp [restrictedBelow, restrictedAbove, withSide, above, h]

end BoundedRow

namespace Faces

open BoundedRow (restrictedBelow restrictedAbove)

/-- The rows that a program has from a part: those bounded above, and the flipped
ones that were bounded below. -/
def splitRows (f : Faces Float) : List (List Float × Float) :=
  f.rows.filterMap restrictedBelow ++ f.rows.filterMap restrictedAbove

theorem restrictedRows_eq (f : Faces Float) :
    f.restrictedRows = f.rows.filterMap restrictedBelow := by
  rw [restrictedRows, upperRows, List.filter_filterMap]
  rfl

/-- A plain merge splits the rows of each part. -/
theorem restrictedRows_merge_plain (parts : List (Faces Float)) :
    (merge .plain parts).restrictedRows = parts.flatMap splitRows := by
  rw [restrictedRows_eq, rows_merge, List.filterMap_flatMap]
  refine List.flatMap_congr fun g _ => ?_
  simp only [normalize, folded, Policy.plain, BoundedRow.normalize, Bool.false_eq_true, if_false,
    List.nil_append, List.filterMap_append, List.filterMap_filterMap,
    BoundedRow.restrictedBelow_below, BoundedRow.restrictedBelow_above, splitRows]

/-- All rows bounded above come first in a merge with two bounds, once it is split. -/
theorem splitRows_merge_twoSided (parts : List (Faces Float)) :
    (merge .twoSided parts).splitRows =
      parts.flatMap (fun g => g.rows.filterMap restrictedBelow) ++
        parts.flatMap fun g => g.rows.filterMap restrictedAbove := by
  have filled : (merge .twoSided parts).rows = (parts.flatMap Faces.rows).map BoundedRow.fill := by
    rw [rows_merge, List.map_flatMap]
    rfl
  have below : restrictedBelow ∘ BoundedRow.fill = restrictedBelow :=
    funext BoundedRow.restrictedBelow_fill
  have above : restrictedAbove ∘ BoundedRow.fill = restrictedAbove :=
    funext BoundedRow.restrictedAbove_fill
  rw [splitRows, filled, List.filterMap_map, List.filterMap_map, below, above,
    List.filterMap_flatMap, List.filterMap_flatMap]

/-- Merging some of the parts with two bounds first gives the rows that merging all
parts gives, up to their order. -/
theorem restrictedRows_merge_twoSided (own parts : List (Faces Float)) :
    (merge .plain (own ++ [merge .twoSided parts])).restrictedRows.Perm
      (merge .plain (own ++ parts)).restrictedRows := by
  rw [restrictedRows_merge_plain, restrictedRows_merge_plain, List.flatMap_append,
    List.flatMap_append, List.flatMap_singleton, splitRows_merge_twoSided]
  exact (List.flatMap_append_perm parts _ _).append_left _

/-- The box of a merge does not depend on the policy. -/
theorem box_merge (policy policy' : Policy) (parts : List (Faces Float)) :
    (merge policy parts).box = (merge policy' parts).box := by
  induction parts with
  | nil => rfl
  | cons g parts ih => rw [merge_cons, merge_cons, add, add, ih]; rfl

/-- A policy that keeps equalities apart keeps all of them. -/
theorem equations_merge {policy : Policy} (keeps : policy.foldsEqualities = false)
    (parts : List (Faces Float)) :
    (merge policy parts).equations = parts.flatMap Faces.equations := by
  induction parts with
  | nil => rfl
  | cons g parts ih =>
    rw [merge_cons, add, ih, normalize, kept, keeps, List.flatMap_cons]
    rfl

theorem box_merge_twoSided (own parts : List (Faces Float)) :
    (merge .plain (own ++ [merge .twoSided parts])).box = (merge .plain (own ++ parts)).box := by
  have inner := box_merge .twoSided .plain parts
  rw [merge_append, merge_append, add, add, merge_cons, add, normalize, inner]
  exact congrArg (meet _) (meet_none _)

theorem equations_merge_twoSided (own parts : List (Faces Float)) :
    (merge .plain (own ++ [merge .twoSided parts])).equations =
      (merge .plain (own ++ parts)).equations := by
  rw [equations_merge rfl, equations_merge rfl, List.flatMap_append, List.flatMap_append,
    List.flatMap_singleton, equations_merge rfl]

end Faces

end ControlHierarchy
