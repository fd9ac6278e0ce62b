import ControlHierarchy.Constraint.Node
import ControlHierarchy.Proofs.Constraint.Merging

/-!
# What validating setters let through

The setters of a leaf constraint and the merge of an aggregate check arrays by
rules of their own. Whatever passes a setter fits into a merge
(`LinearSystem.fits_setBox`, `fits_setEqualities`, `fits_setInequalities`), so
that a constraint which is only set through setters fits from the beginning
(`LeafConstraint.fits_validated`).
-/

namespace ControlHierarchy

variable {α : Type} {n : Nat} {name : String}

namespace LinearSystem

variable {s t : LinearSystem α}

/-- A box that passes is absent on both sides, or has both ends for each variable. -/
theorem fits_setBox {lower upper : Option (ArrayData α)} (fits : s.Fits n)
    (h : s.setBox name n lower upper = .ok t) : t.Fits n := by
  obtain ⟨l, -, h⟩ := bind_eq_ok.1 h
  obtain ⟨u, -, h⟩ := bind_eq_ok.1 h
  obtain ⟨together, h⟩ := throw_then.1 h
  obtain ⟨sized, h⟩ := throw_then.1 h
  cases h
  refine ⟨?_, fits.equalities, fits.inequalities⟩
  cases l with
  | nil =>
    have none : u = [] := by simpa using together
    exact .inl (by simp [none])
  | cons a l =>
    have lengths : ((a :: l).length : Int) = n ∧ (u.length : Int) = n := by simpa using sized
    rw [Int.ofNat_inj, Int.ofNat_inj] at lengths
    exact .inr (by simp only [Tensor.shape, lengths, and_self])

theorem fits_setEqualities {matrix rightHandSide : Option (ArrayData α)} (fits : s.Fits n)
    (h : s.setEqualities name n matrix rightHandSide = .ok t) : t.Fits n := by
  obtain ⟨m, -, h⟩ := bind_eq_ok.1 h
  obtain ⟨b, -, h⟩ := bind_eq_ok.1 h
  obtain ⟨shapes, h⟩ := throw_then.1 h
  cases h
  have matched : (m.width : Int) = n ∧ m.height = b.length := by simpa using shapes
  rw [Int.ofNat_inj] at matched
  refine ⟨fits.box, .inr ⟨m.height, ?_, ?_⟩, fits.inequalities⟩
  · rw [Tensor.shape, matched.1]
  · rw [Tensor.shape, matched.2]

theorem checkRowBound_eq_ok {rows : Nat} {bound : List α} :
    checkRowBound name rows bound = .ok () ↔ bound = [] ∨ bound.length = rows := by
  unfold checkRowBound
  split
  · next wrong =>
    simp only [Bool.and_eq_true, Bool.not_eq_true', decide_eq_true_eq] at wrong
    refine iff_of_false (fun h => nomatch h) ?_
    rintro (rfl | length)
    · cases wrong.1
    · exact wrong.2 length
  · next right =>
    refine iff_of_true rfl ?_
    by_cases empty : bound = []
    · exact .inl empty
    · exact .inr (by simpa [empty] using right)

/-- Rows that pass have a bound if there are any, and bounds need rows. -/
theorem fits_setInequalities {matrix lower upper : Option (ArrayData α)} (fits : s.Fits n)
    (h : s.setInequalities name n matrix lower upper = .ok t) : t.Fits n := by
  obtain ⟨m, -, h⟩ := bind_eq_ok.1 h
  obtain ⟨l, -, h⟩ := bind_eq_ok.1 h
  obtain ⟨u, -, h⟩ := bind_eq_ok.1 h
  obtain ⟨width, h⟩ := throw_then.1 h
  obtain ⟨bounded, h⟩ := throw_then.1 h
  obtain ⟨lengthL, h⟩ := then_eq_ok.1 h
  obtain ⟨lengthU, h⟩ := then_eq_ok.1 h
  cases h
  rw [checkRowBound_eq_ok] at lengthL lengthU
  refine ⟨fits.box, fits.equalities, ?_⟩
  by_cases rows : m.height = 0
  · have noLower : l = [] := lengthL.elim id fun length => List.length_eq_zero_iff.1 (length ▸ rows)
    have noUpper : u = [] := lengthU.elim id fun length => List.length_eq_zero_iff.1 (length ▸ rows)
    exact .inl (by simp [rows, noLower, noUpper])
  · refine .inr ⟨m.height, rows, ?_, ?_, ?_, ?_⟩
    · rw [Tensor.shape, Int.ofNat_inj.1 (not_not.1 width)]
    · exact lengthL.imp (by simp +contextual) fun length => by rw [Tensor.shape, length]
    · exact lengthU.imp (by simp +contextual) fun length => by rw [Tensor.shape, length]
    · rintro ⟨noLower, noUpper⟩
      simp only [Tensor.size_vector, List.length_eq_zero_iff] at noLower noUpper
      exact bounded (by simp [noLower, noUpper, Nat.pos_of_ne_zero rows])

theorem fits_free {size : Int} (h : free size = .ok s) : ∃ n : Nat, size = n ∧ s.Fits n := by
  obtain ⟨n, count, presents⟩ := presents_free h
  exact ⟨n, count, presents.fits (Faces.normal_free .plain)⟩

end LinearSystem

namespace LeafConstraint

/-- A constraint that can be declared has room, and arrays that fit. -/
theorem fits_validated {data : SystemData α} {c : LeafConstraint α}
    (h : validated name n data = .ok c) :
    (∃ blank : LinearSystem α, LinearSystem.free n = .ok blank) ∧ c.size = n ∧
      c.rule = .validated ∧ c.system.Fits n := by
  obtain ⟨blank, start, h⟩ := bind_eq_ok.1 h
  obtain ⟨boxed, box, h⟩ := bind_eq_ok.1 h
  obtain ⟨equated, equalities, h⟩ := bind_eq_ok.1 h
  obtain ⟨ruled, rows, h⟩ := bind_eq_ok.1 h
  cases h
  rw [LinearSystem.blank, if_neg (Int.not_lt.2 (Int.natCast_nonneg n))] at start
  obtain ⟨k, count, fits⟩ := LinearSystem.fits_free start
  cases Int.ofNat_inj.1 count
  have boxFits := LinearSystem.fits_setBox fits box
  have equalitiesFit := LinearSystem.fits_setEqualities boxFits equalities
  exact ⟨⟨blank, start⟩, rfl, rfl, LinearSystem.fits_setInequalities equalitiesFit rows⟩

end LeafConstraint

end ControlHierarchy
