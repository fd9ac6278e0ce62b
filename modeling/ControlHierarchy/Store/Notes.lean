import ControlHierarchy.Field
import ControlHierarchy.Reference

/-!
# Notes

A value can be assigned to any field of a constraint, a task, a stack or a
layout. It is noted down beside the object, and there it is found again by the
same object and the same field.
-/

namespace ControlHierarchy

/-- A value noted down for a field of an object. -/
structure Note where
  owner : Object
  field : Field
  value : Object

/-- The notes on all objects, the latest one first. -/
abbrev Notes := List Note

namespace Notes

def isOn (owner : Object) (field : Field) (note : Note) : Bool :=
  note.owner.same owner && note.field == field

def read? (notes : Notes) (owner : Object) (field : Field) : Option Object :=
  (notes.find? (isOn owner field)).map Note.value

def write (notes : Notes) (owner : Object) (field : Field) (value : Object) : Notes :=
  ⟨owner, field, value⟩ :: notes

def erase (notes : Notes) (owner : Object) (field : Field) : Notes :=
  notes.filter fun note => !isOn owner field note

/-- Drops what is noted down for several fields of an object. -/
def eraseAll (notes : Notes) (owner : Object) (fields : List Field) : Notes :=
  fields.foldl (erase · owner ·) notes

theorem read?_write (notes : Notes) (owner other : Object) (field field' : Field) (value : Object) :
    (notes.write owner field value).read? other field' =
      if owner.same other && field == field' then some value else notes.read? other field' := by
  simp only [read?, write, List.find?_cons, isOn]
  cases owner.same other && field == field' <;> rfl

theorem read?_erase_self (notes : Notes) (owner : Object) (field : Field) :
    (notes.erase owner field).read? owner field = none := by
  simp [read?, erase, List.find?_eq_none]

end Notes

end ControlHierarchy
