import Mathlib.Tactic.SplitIfs
import Schemata.Text.Blank
import Schemata.Text.Casing

/-!
Letters and digits of ASCII by their code points. A change of case moves a letter by the same distance
everywhere, so that a text in small letters only depends on its letters and not on their case.
-/
namespace Schemata.Text

theorem isUpper_iff {c : Char} : c.isUpper = true ↔ 65 ≤ c.toNat ∧ c.toNat ≤ 90 :=
  decide_eq_true_iff

theorem isLower_iff {c : Char} : c.isLower = true ↔ 97 ≤ c.toNat ∧ c.toNat ≤ 122 :=
  (Bool.and_eq_true _ _).to_iff.trans (and_congr decide_eq_true_iff decide_eq_true_iff)

theorem isAlpha_iff {c : Char} :
    c.isAlpha = true ↔ 65 ≤ c.toNat ∧ c.toNat ≤ 90 ∨ 97 ≤ c.toNat ∧ c.toNat ≤ 122 :=
  Bool.or_eq_true_iff.trans (or_congr isUpper_iff isLower_iff)

theorem isDigit_iff {c : Char} : c.isDigit = true ↔ 48 ≤ c.toNat ∧ c.toNat ≤ 57 :=
  Char.isDigit_iff_toNat

theorem toNat_toUpper (c : Char) :
    c.toUpper.toNat = if 97 ≤ c.toNat ∧ c.toNat ≤ 122 then c.toNat - 32 else c.toNat := by
  by_cases h : 'a'.val ≤ c.val ∧ c.val ≤ 'z'.val
  · have hvalue : c.toUpper.val = c.val + ('A'.val - 'a'.val) := by
      delta Char.toUpper
      rw [dif_pos h]
    have hsmall : 97 ≤ c.toNat ∧ c.toNat ≤ 122 := h
    have hmoved : c.toUpper.toNat = (c.toNat + 4294967264) % 2 ^ 32 := by
      rw [Char.toNat, hvalue, UInt32.toNat_add]
      rfl
    rw [if_pos hsmall]
    omega
  · have hother : ¬(97 ≤ c.toNat ∧ c.toNat ≤ 122) := h
    rw [if_neg hother]
    exact congrArg Char.toNat (dif_neg h)

theorem toNat_toLower (c : Char) :
    c.toLower.toNat = if 65 ≤ c.toNat ∧ c.toNat ≤ 90 then c.toNat + 32 else c.toNat := by
  by_cases h : c.val ≥ 'A'.val ∧ c.val ≤ 'Z'.val
  · have hvalue : c.toLower.val = c.val + ('a'.val - 'A'.val) := congrArg Char.val (dif_pos h)
    have hcapital : 65 ≤ c.toNat ∧ c.toNat ≤ 90 := h
    have hmoved : c.toLower.toNat = (c.toNat + 32) % 2 ^ 32 := by
      rw [Char.toNat, hvalue, UInt32.toNat_add]
      rfl
    rw [if_pos hcapital]
    omega
  · have hother : ¬(65 ≤ c.toNat ∧ c.toNat ≤ 90) := h
    rw [if_neg hother]
    exact congrArg Char.toNat (dif_neg h)

theorem isAlpha_toLower (c : Char) : c.toLower.isAlpha = c.isAlpha := by
  rw [Bool.eq_iff_iff, isAlpha_iff, isAlpha_iff, toNat_toLower]
  split_ifs <;> omega

/-- Nothing but the character itself becomes a character that is no letter. -/
theorem toLower_eq_iff {c : Char} (h : c.isAlpha = false) (d : Char) : d.toLower = c ↔ d = c := by
  rw [← Bool.not_eq_true, isAlpha_iff] at h
  rw [← Char.toNat_inj, ← Char.toNat_inj, toNat_toLower]
  split_ifs <;> omega

theorem toUpper_eq_iff {c : Char} (h : c.isAlpha = false) (d : Char) : d.toUpper = c ↔ d = c := by
  rw [← Bool.not_eq_true, isAlpha_iff] at h
  rw [← Char.toNat_inj, ← Char.toNat_inj, toNat_toUpper]
  split_ifs <;> omega

theorem isAscii_toUpper (c : Char) : c.toUpper.toNat < 128 ↔ c.toNat < 128 := by
  rw [toNat_toUpper]
  split_ifs <;> omega

theorem isAscii_toLower (c : Char) : c.toLower.toNat < 128 ↔ c.toNat < 128 := by
  rw [toNat_toLower]
  split_ifs <;> omega

/-- No letter is a blank, in either case. -/
theorem isBlank_toLower (c : Char) : isBlank c.toLower = isBlank c := by
  have hlower := toNat_toLower c
  by_cases hcapital : 65 ≤ c.toNat ∧ c.toNat ≤ 90
  · rw [if_pos hcapital] at hlower
    rw [Bool.eq_iff_iff]
    simp only [isBlank, hlower, Bool.or_eq_true, Bool.and_eq_true, decide_eq_true_eq, beq_iff_eq]
    omega
  · rw [if_neg hcapital] at hlower
    rw [Char.toNat_inj.mp hlower]

theorem lower_lower (s : String) : lower (lower s) = lower s := by
  have hchar (c : Char) : c.toLower.toLower = c.toLower := by
    rw [← Char.toNat_inj, toNat_toLower c.toLower, toNat_toLower c]
    split_ifs <;> omega
  simp only [lower, String.map_map, Function.comp_def, hchar]

theorem lower_upper (s : String) : lower (upper s) = lower s := by
  have hchar (c : Char) : c.toUpper.toLower = c.toLower := by
    rw [← Char.toNat_inj, toNat_toLower, toNat_toUpper, toNat_toLower]
    split_ifs <;> omega
  simp only [lower, upper, String.map_map, Function.comp_def, hchar]

theorem toUpper_toLower (c : Char) : c.toLower.toUpper = c.toUpper := by
  rw [← Char.toNat_inj, toNat_toUpper, toNat_toLower, toNat_toUpper]
  split_ifs <;> omega

theorem upper_lower (s : String) : upper (lower s) = upper s := by
  simp only [lower, upper, String.map_map, Function.comp_def, toUpper_toLower]

theorem upper_append (s t : String) : upper (s ++ t) = upper s ++ upper t := by
  rw [← String.toList_inj]
  simp only [upper, String.toList_map, String.toList_append, List.map_append]

theorem sameLetters_eq (s t : String) :
    sameLetters s t = decide (s.toList.map Char.toLower = t.toList.map Char.toLower) := by
  rw [Bool.eq_iff_iff, decide_eq_true_iff, sameLetters, beq_iff_eq, lower, lower,
    ← String.toList_inj, String.toList_map, String.toList_map]

end Schemata.Text
