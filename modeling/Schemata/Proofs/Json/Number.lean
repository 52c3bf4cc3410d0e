import Mathlib.Data.List.Basic
import Schemata.Json.Number

/-!
Whole numbers in a text. A row of digits without a needless zero is read as its value, as
long as that fits a word and nothing follows that would go on with the number.
-/
namespace Schemata.Json

/-- Nothing that a number could go on with. -/
def EndsNumber : List Char → Prop
  | [] => True
  | c :: _ => c.isDigit = false ∧ c ≠ '.' ∧ c ≠ 'e' ∧ c ≠ 'E'

theorem EndsNumber.startsWithDigit {rest : List Char} (h : EndsNumber rest) :
    startsWithDigit rest = false := by
  cases rest with
  | nil => rfl
  | cons c rest => exact h.1

theorem le_ofDigitChars (digits : List Char) (value : Nat) :
    value ≤ Nat.ofDigitChars 10 digits value := by
  rw [Nat.ofDigitChars_eq_ofDigitChars_zero]
  have hpower : 1 ≤ 10 ^ digits.length := Nat.one_le_pow _ _ (by decide)
  have hscaled := Nat.mul_le_mul_right value hpower
  omega

theorem takeDigits_append {digits rest : List Char} {value : Nat} (count : Nat)
    (hdigits : ∀ c ∈ digits, c.isDigit = true)
    (hfits : Nat.ofDigitChars 10 digits value < wordSize) (hrest : EndsNumber rest) :
    takeDigits value count (digits ++ rest) =
      ((Nat.ofDigitChars 10 digits value, count + digits.length), rest) := by
  induction digits generalizing value count with
  | nil =>
    cases rest with
    | nil => rfl
    | cons c rest =>
      have hstop : (c.isDigit && decide (value * 10 + Text.digitValue c < wordSize)) = false := by
        rw [hrest.1, Bool.false_and]
      simp [takeDigits, hstop]
  | cons c digits ih =>
    have hvalue : value * 10 + Text.digitValue c = 10 * value + (c.toNat - '0'.toNat) := by
      rw [Text.digitValue, Nat.mul_comm]
    rw [Nat.ofDigitChars_cons, ← hvalue] at hfits ⊢
    have hbelow : value * 10 + Text.digitValue c < wordSize :=
      Nat.lt_of_le_of_lt (le_ofDigitChars digits _) hfits
    have hdigit : c.isDigit = true := hdigits c List.mem_cons_self
    have htail := ih (count + 1) (fun d hd => hdigits d (List.mem_cons_of_mem _ hd)) hfits
    rw [List.cons_append, takeDigits, if_pos (by simp [hdigit, hbelow]), htail,
      List.length_cons]
    simp only [Nat.add_assoc, Nat.add_comm 1]

theorem afterWhole_of_endsNumber {rest : List Char} (h : EndsNumber rest) (value : Nat) :
    afterWhole true value rest = .ok (.natural value, rest) := by
  unfold afterWhole
  split
  · exact absurd rfl h.2.1
  · exact absurd rfl h.2.2.1
  · exact absurd rfl h.2.2.2
  · rfl

theorem readNumber_digits {c : Char} {digits rest : List Char}
    (hdigits : ∀ d ∈ c :: digits, d.isDigit = true) (hzero : c = '0' → digits = [])
    (hfits : Nat.ofDigitChars 10 (c :: digits) 0 < wordSize) (hrest : EndsNumber rest) :
    readNumber true (c :: digits ++ rest) =
      .ok (.natural (Nat.ofDigitChars 10 (c :: digits) 0), rest) := by
  have hvalue : Nat.ofDigitChars 10 (c :: digits) 0 =
      Nat.ofDigitChars 10 digits (Text.digitValue c) := by
    rw [Nat.ofDigitChars_cons, Nat.mul_zero, Nat.zero_add, Text.digitValue]
  have htail : ∀ d ∈ digits, d.isDigit = true := fun d hd => hdigits d (List.mem_cons_of_mem _ hd)
  rw [hvalue] at hfits ⊢
  by_cases hc : c = '0'
  · subst c
    rw [hzero rfl]
    simp only [List.cons_append, List.nil_append, readNumber, hrest.startsWithDigit,
      Bool.false_eq_true, if_false]
    exact afterWhole_of_endsNumber hrest 0
  · have htaken := takeDigits_append 1 htail hfits hrest
    rw [List.cons_append, readNumber, if_pos (hdigits c List.mem_cons_self), htaken]
    · simp only [hrest.startsWithDigit, Bool.false_eq_true, if_false]
      exact afterWhole_of_endsNumber hrest _
    · exact fun heq => absurd heq hc

/-- Only zero is written with a zero in front. -/
theorem eq_zero_of_head_toDigits {n : Nat} (h : (Nat.toDigits 10 n).head? = some '0') : n = 0 := by
  induction n using Nat.strongRecOn with
  | ind n ih =>
    by_cases hsmall : n < 10
    · rw [Nat.toDigits_of_lt_base hsmall, List.head?_cons, Option.some.injEq] at h
      exact Nat.digitChar_eq_zero.mp h
    · rw [Nat.toDigits_of_base_le (by decide) (Nat.not_lt.mp hsmall),
        List.head?_append_of_ne_nil _ Nat.toDigits_ne_nil] at h
      have hquotient := ih (n / 10) (by omega) h
      omega

theorem exists_toDigits (n : Nat) :
    ∃ c digits, Nat.toDigits 10 n = c :: digits ∧ (∀ d ∈ c :: digits, d.isDigit = true) ∧
      (c = '0' → digits = []) := by
  have hdigits : ∀ d ∈ Nat.toDigits 10 n, d.isDigit = true :=
    fun d hd => Nat.isDigit_of_mem_toDigits (by decide) (by decide) hd
  cases hwritten : Nat.toDigits 10 n with
  | nil => exact absurd hwritten Nat.toDigits_ne_nil
  | cons c digits =>
    refine ⟨c, digits, rfl, hwritten ▸ hdigits, fun hc => ?_⟩
    have hn : n = 0 := eq_zero_of_head_toDigits (by rw [hwritten, hc]; rfl)
    rw [hn, Nat.toDigits_zero] at hwritten
    cases hwritten
    rfl

end Schemata.Json
