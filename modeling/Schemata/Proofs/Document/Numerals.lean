import Schemata.Document.Literal

/-!
The characters of numbers that stand in a document as they are: sizes of types, and defaults
that are plain decimal numbers.
-/
namespace Schemata.Document

theorem toList_count (n : UInt32) : (toString n).toList = Nat.toDigits 10 n.toNat := by
  change (toString n.toNat).toList = _
  simp

theorem isDigit_of_mem_count {n : UInt32} {c : Char} (h : c ∈ (toString n).toList) :
    c.isDigit = true := by
  rw [toList_count] at h
  exact Nat.isDigit_of_mem_toDigits (by decide) (by decide) h

theorem char_of_isNumber {value : String} (h : isNumber value = true) {c : Char}
    (hc : c ∈ value.toList) : c = '-' ∨ c.isDigit = true ∨ c = '.' := by
  unfold isNumber at h
  split at h
  · rename_i rest heq
    rw [heq] at hc
    rcases List.mem_cons.mp hc with rfl | hc
    · exact Or.inl rfl
    · simp only [Bool.and_eq_true, List.all_eq_true, Bool.or_eq_true, beq_iff_eq] at h
      exact Or.inr (h.1.2 c hc)
  · simp only [Bool.and_eq_true, List.all_eq_true, Bool.or_eq_true, beq_iff_eq] at h
    exact Or.inr (h.1.2 c hc)

end Schemata.Document
