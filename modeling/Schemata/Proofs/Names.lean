import Schemata.Table

/-!
Families and keys are known by their names, since no two of them share one.
-/
namespace Schemata

/-- A search by name finds a value by its own name only. -/
theorem find_name_eq_some_iff {α : Type} {all : List α} {name : α → String}
    (h : ∀ value, all.find? (name · == name value) = some value) (text : String) (value : α) :
    all.find? (name · == text) = some value ↔ text = name value := by
  constructor
  · intro hfound
    have hname := List.find?_some hfound
    exact (beq_iff_eq.mp hname).symm
  · rintro rfl
    exact h value

theorem Family.ofName_eq_some_iff (text : String) (value : Family) :
    Family.ofName? text = some value ↔ text = value.name :=
  find_name_eq_some_iff (by intro value; cases value <;> rfl) text value

theorem Key.ofName_eq_some_iff (text : String) (value : Key) :
    Key.ofName? text = some value ↔ text = value.name :=
  find_name_eq_some_iff (by intro value; cases value <;> rfl) text value

end Schemata
