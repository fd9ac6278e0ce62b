/-!
# Cells

Numbered cells of one kind. A cell that was never written reads as the blank
value, and a write beyond the last cell fills the gap with blanks; so one law,
`read_write`, holds without a condition on the numbers.
-/

namespace ControlHierarchy

/-- Numbered cells. -/
structure Cells (β : Type) where
  blank : β
  entries : Array β

namespace Cells

variable {β : Type}

def unwritten (blank : β) : Cells β := ⟨blank, #[]⟩

/-- The number of the first cell after all written ones. -/
def next (c : Cells β) : Nat := c.entries.size

def read (c : Cells β) (i : Nat) : β := c.entries.getD i c.blank

def write (c : Cells β) (i : Nat) (v : β) : Cells β :=
  if h : i < c.entries.size then ⟨c.blank, c.entries.set i v⟩
  else ⟨c.blank, (c.entries ++ Array.replicate (i - c.entries.size) c.blank).push v⟩

/-- The first written cell whose content passes a test. -/
def find? (c : Cells β) (test : β → Bool) : Option Nat := c.entries.findIdx? test

theorem read_write (c : Cells β) (i j : Nat) (v : β) :
    (c.write i v).read j = if j = i then v else c.read j := by
  unfold write read
  split
  · next h => simp only [Array.getD_eq_getD_getElem?]; grind
  · next h => simp only [Array.getD_eq_getD_getElem?]; grind

@[simp] theorem read_unwritten (blank : β) (i : Nat) : (unwritten blank).read i = blank := by
  simp [unwritten, read]

theorem read_write_self (c : Cells β) (i : Nat) (v : β) : (c.write i v).read i = v := by
  rw [read_write, if_pos rfl]

theorem read_write_of_ne (c : Cells β) {i j : Nat} (v : β) (h : j ≠ i) :
    (c.write i v).read j = c.read j := by
  rw [read_write, if_neg h]

/-- To write what a cell holds already changes no cell. -/
theorem read_write_read (c : Cells β) (i j : Nat) : (c.write i (c.read i)).read j = c.read j := by
  rw [read_write]
  split
  · next here => rw [here]
  · rfl

theorem next_write (c : Cells β) (i : Nat) (v : β) : (c.write i v).next = max c.next (i + 1) := by
  unfold write next
  split
  · next here => rw [Array.size_set]; omega
  · next here => rw [Array.size_push, Array.size_append, Array.size_replicate]; omega

theorem lt_next_write (c : Cells β) (i : Nat) (v : β) : i < (c.write i v).next := by
  rw [next_write]
  omega

theorem next_le_next_write (c : Cells β) (i : Nat) (v : β) : c.next ≤ (c.write i v).next := by
  rw [next_write]
  omega

end Cells

end ControlHierarchy
