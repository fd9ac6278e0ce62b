import ControlHierarchy.Error

/-!
# Aggregation policies

A policy says in which form a merge leaves its rows: whether equalities become
inequality rows, and whether inequality rows carry both bounds. As a word it is
the sum of one for the first and two for the second. Words are kept as integers
where a caller may store any, and are read by their two lowest bits.
-/

namespace ControlHierarchy

/-- How a merge normalizes the rows of its parts. -/
structure Policy where
  /-- Equalities are folded into the inequality rows. -/
  foldsEqualities : Bool
  /-- Every inequality row carries a lower and an upper bound; otherwise there
  are upper bounds only. -/
  bilateral : Bool
  deriving DecidableEq

namespace Policy

/-- Equalities stay apart and rows are bounded above only. -/
def plain : Policy := ⟨false, false⟩

def standard : Policy := ⟨true, true⟩

def word (p : Policy) : Int := (if p.foldsEqualities then 1 else 0) + (if p.bilateral then 2 else 0)

def ofWord (word : Int) : Policy := ⟨word % 2 == 1, word / 2 % 2 == 1⟩

/-- Accepts an integer with no bit beyond the two flags. -/
def validate : Literal → Except Error Policy
  | .integer word => if word / 4 = 0 then .ok (ofWord word) else .error (.policyOutOfRange word)
  | value => .error (.policyNotInteger value)

theorem ofWord_word (p : Policy) : ofWord p.word = p := by
  obtain ⟨_ | _, _ | _⟩ := p <;> rfl

theorem validate_word (p : Policy) : validate (.integer p.word) = .ok p := by
  obtain ⟨_ | _, _ | _⟩ := p <;> rfl

end Policy

end ControlHierarchy
