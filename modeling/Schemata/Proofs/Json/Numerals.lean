import Mathlib.Data.List.TakeWhile
import Schemata.Json.Skip
import Schemata.Proofs.Json.Grammar

/-!
Numbers as the readers take them. A number that is passed over is one of the grammar, and each
one of the grammar is passed over. The only numbers that are read as natural ones are digits
without a sign, a fraction or an exponent.
-/
namespace Schemata.Json

variable {s t rest digits : List Char}

theorem digits_cons_takeWhile {c : Char} (hc : c.isDigit = true) (s : List Char) :
    Digits (c :: s.takeWhile Char.isDigit) := by
  refine ⟨List.cons_ne_nil _ _, fun d hd => ?_⟩
  rcases List.mem_cons.mp hd with rfl | hd
  · exact hc
  · exact List.mem_takeWhile_imp hd

theorem takeWhile_append_skipDigits (s : List Char) :
    s.takeWhile Char.isDigit ++ skipDigits s = s :=
  List.takeWhile_append_dropWhile

theorem skipDigits_append (hdigits : ∀ c ∈ digits, c.isDigit = true)
    (ht : startsWithDigit t = false) : skipDigits (digits ++ t) = t := by
  rw [skipDigits, List.dropWhile_append_of_pos hdigits]
  cases t with
  | nil => rfl
  | cons c t => rw [List.dropWhile_cons_of_neg (by simpa [startsWithDigit] using ht)]

section Skipping

theorem exists_of_skipExponent (h : skipExponent s = .ok rest) :
    ∃ sign digits, (sign = [] ∨ sign = ['+'] ∨ sign = ['-']) ∧ Digits digits ∧
      s = sign ++ (digits ++ rest) := by
  have hsplit : ∃ sign c t, (sign = [] ∨ sign = ['+'] ∨ sign = ['-']) ∧ s = sign ++ c :: t ∧
      c.isDigit = true ∧ rest = skipDigits t := by
    unfold skipExponent at h
    dsimp only at h
    split at h
    · cases h
    · rename_i c t hsign
      split at h
      · rename_i hdigit
        cases h
        split at hsign
        · exact ⟨['+'], c, t, by simp, by rw [hsign]; rfl, hdigit, rfl⟩
        · exact ⟨['-'], c, t, by simp, by rw [hsign]; rfl, hdigit, rfl⟩
        · exact ⟨[], c, t, by simp, hsign, hdigit, rfl⟩
      · cases h
  obtain ⟨sign, c, t, hsign, rfl, hdigit, rfl⟩ := hsplit
  refine ⟨sign, _, hsign, digits_cons_takeWhile hdigit t, ?_⟩
  rw [List.cons_append, takeWhile_append_skipDigits]

theorem exists_of_skipAfterDecimals (h : skipAfterDecimals s = .ok rest) :
    ∃ exponent, IsExponent exponent ∧ s = exponent ++ rest := by
  unfold skipAfterDecimals at h
  split at h
  · obtain ⟨sign, digits, hsign, hdigits, rfl⟩ := exists_of_skipExponent h
    exact ⟨'e' :: (sign ++ digits), Or.inr ⟨'e', sign, digits, Or.inl rfl, hsign, hdigits, rfl⟩,
      by simp⟩
  · obtain ⟨sign, digits, hsign, hdigits, rfl⟩ := exists_of_skipExponent h
    exact ⟨'E' :: (sign ++ digits), Or.inr ⟨'E', sign, digits, Or.inr rfl, hsign, hdigits, rfl⟩,
      by simp⟩
  · cases h
    exact ⟨[], Or.inl rfl, rfl⟩

theorem exists_of_skipAfterWhole (h : skipAfterWhole s = .ok rest) :
    ∃ fraction exponent, IsFraction fraction ∧ IsExponent exponent ∧
      s = fraction ++ (exponent ++ rest) := by
  unfold skipAfterWhole at h
  split at h
  · rename_i c s
    split at h
    · rename_i hdigit
      obtain ⟨exponent, hexponent, htail⟩ := exists_of_skipAfterDecimals h
      refine ⟨'.' :: c :: s.takeWhile Char.isDigit, exponent,
        Or.inr ⟨_, digits_cons_takeWhile hdigit s, rfl⟩, hexponent, ?_⟩
      rw [← htail, List.cons_append, List.cons_append, takeWhile_append_skipDigits]
    · cases h
  · cases h
  · obtain ⟨exponent, hexponent, rfl⟩ := exists_of_skipAfterDecimals h
    exact ⟨[], exponent, Or.inl rfl, hexponent, rfl⟩

theorem isWhole_zero : IsWhole ['0'] := ⟨⟨by simp, by simp⟩, by simp⟩

theorem isWhole_cons {c : Char} (hdigits : Digits (c :: digits)) (hc : c ≠ '0') :
    IsWhole (c :: digits) :=
  ⟨hdigits, fun h => absurd (Option.some.inj h) hc⟩

/-- A number that is passed over is one. -/
theorem exists_of_skipNumber (h : skipNumber s = .ok rest) :
    ∃ unsigned, IsUnsigned unsigned ∧ s = unsigned ++ rest := by
  have hsplit : ∃ whole t, IsWhole whole ∧ s = whole ++ t ∧ skipAfterWhole t = .ok rest := by
    unfold skipNumber at h
    split at h
    · cases h
    · split at h
      · cases h
      · exact ⟨['0'], _, isWhole_zero, rfl, h⟩
    · cases h
      exact ⟨['0'], [], isWhole_zero, rfl, rfl⟩
    · rename_i c s hzero hlone
      split at h
      · rename_i hdigit
        have hc : c ≠ '0' := by
          rintro rfl
          cases s with
          | nil => exact hlone rfl rfl
          | cons d s => exact hzero d s rfl rfl
        refine ⟨_, _, isWhole_cons (digits_cons_takeWhile hdigit s) hc, ?_, h⟩
        rw [List.cons_append, takeWhile_append_skipDigits]
      · cases h
  obtain ⟨whole, t, hwhole, rfl, hafter⟩ := hsplit
  obtain ⟨fraction, exponent, hfraction, hexponent, rfl⟩ := exists_of_skipAfterWhole hafter
  exact ⟨_, ⟨whole, fraction, exponent, hwhole, hfraction, hexponent, rfl⟩, by simp⟩

theorem skipExponent_append {sign : List Char} (hsign : sign = [] ∨ sign = ['+'] ∨ sign = ['-'])
    (hdigits : Digits digits) (hrest : startsWithDigit rest = false) :
    skipExponent (sign ++ (digits ++ rest)) = .ok rest := by
  obtain ⟨hne, hall⟩ := hdigits
  obtain ⟨c, digits, rfl⟩ := List.exists_cons_of_ne_nil hne
  have hdigit : c.isDigit = true := hall c List.mem_cons_self
  have hskip : skipDigits (digits ++ rest) = rest :=
    skipDigits_append (fun d hd => hall d (List.mem_cons_of_mem _ hd)) hrest
  rcases hsign with rfl | rfl | rfl
  · have hplus : c ≠ '+' := by rintro rfl; cases hdigit
    have hminus : c ≠ '-' := by rintro rfl; cases hdigit
    simp [skipExponent, hplus, hminus, hdigit, hskip]
  · simp [skipExponent, hdigit, hskip]
  · simp [skipExponent, hdigit, hskip]

theorem skipAfterDecimals_append {exponent : List Char} (h : IsExponent exponent)
    (hrest : EndsNumber rest) : skipAfterDecimals (exponent ++ rest) = .ok rest := by
  rcases h with rfl | ⟨e, sign, digits, he, hsign, hdigits, rfl⟩
  · rw [List.nil_append]
    unfold skipAfterDecimals
    split
    · exact absurd rfl hrest.2.2.1
    · exact absurd rfl hrest.2.2.2
    · rfl
  · have hskip := skipExponent_append hsign hdigits hrest.startsWithDigit
    rcases he with rfl | rfl
    · simpa [skipAfterDecimals] using hskip
    · simpa [skipAfterDecimals] using hskip

/-- An exponent begins with no digit and no point, and neither does what ends a number. -/
theorem IsExponent.starts {exponent : List Char} (h : IsExponent exponent)
    (hrest : EndsNumber rest) :
    startsWithDigit (exponent ++ rest) = false ∧ (exponent ++ rest).head? ≠ some '.' := by
  rcases h with rfl | ⟨e, sign, digits, rfl | rfl, _, _, rfl⟩
  · cases rest with
    | nil => exact ⟨rfl, by simp⟩
    | cons c rest => exact ⟨hrest.1, fun hhead => hrest.2.1 (Option.some.inj hhead)⟩
  · exact ⟨rfl, by simp⟩
  · exact ⟨rfl, by simp⟩

theorem skipAfterWhole_append {fraction exponent : List Char} (hfraction : IsFraction fraction)
    (hexponent : IsExponent exponent) (hrest : EndsNumber rest) :
    skipAfterWhole (fraction ++ (exponent ++ rest)) = .ok rest := by
  have hskip := skipAfterDecimals_append hexponent hrest
  obtain ⟨hstart, hpoint⟩ := hexponent.starts hrest
  rcases hfraction with rfl | ⟨digits, ⟨hne, hall⟩, rfl⟩
  · rw [List.nil_append]
    unfold skipAfterWhole
    split
    · rename_i heq
      rw [heq] at hpoint
      exact absurd rfl hpoint
    · rename_i heq
      rw [heq] at hpoint
      exact absurd rfl hpoint
    · exact hskip
  · obtain ⟨c, digits, rfl⟩ := List.exists_cons_of_ne_nil hne
    have hdigit : c.isDigit = true := hall c List.mem_cons_self
    have hdrop : skipDigits (digits ++ (exponent ++ rest)) = exponent ++ rest :=
      skipDigits_append (fun d hd => hall d (List.mem_cons_of_mem _ hd)) hstart
    simp only [List.cons_append, skipAfterWhole, hdigit, hdrop, if_true]
    exact hskip

theorem IsFraction.startsWithDigit {fraction : List Char} (h : IsFraction fraction)
    (ht : startsWithDigit t = false) : startsWithDigit (fraction ++ t) = false := by
  rcases h with rfl | ⟨digits, _, rfl⟩
  · exact ht
  · rfl

/-- A number is passed over up to its end. -/
theorem skipNumber_append {unsigned : List Char} (h : IsUnsigned unsigned)
    (hrest : EndsNumber rest) : skipNumber (unsigned ++ rest) = .ok rest := by
  obtain ⟨whole, fraction, exponent, ⟨⟨hne, hall⟩, hzero⟩, hfraction, hexponent, rfl⟩ := h
  have hskip := skipAfterWhole_append hfraction hexponent hrest
  have hstart := hfraction.startsWithDigit (hexponent.starts hrest).1
  obtain ⟨c, digits, rfl⟩ := List.exists_cons_of_ne_nil hne
  have hdigit : c.isDigit = true := hall c List.mem_cons_self
  rw [List.append_assoc, List.append_assoc, List.cons_append]
  by_cases hc : c = '0'
  · obtain rfl : digits = [] := by simpa [hc] using hzero
    subst hc
    rw [List.nil_append]
    -- a leading zero looks at the character behind it, if there is one
    cases htail : fraction ++ (exponent ++ rest) with
    | nil =>
      rw [htail] at hskip
      exact hskip
    | cons d t =>
      rw [htail] at hskip hstart
      rw [skipNumber, if_neg (by simpa [startsWithDigit] using hstart)]
      exact hskip
  · have hdrop : skipDigits (digits ++ (fraction ++ (exponent ++ rest))) =
        fraction ++ (exponent ++ rest) :=
      skipDigits_append (fun d hd => hall d (List.mem_cons_of_mem _ hd)) hstart
    unfold skipNumber
    split
    · rename_i heq
      cases heq
    · rename_i heq
      exact absurd (List.cons.inj heq).1 hc
    · rename_i heq
      exact absurd (List.cons.inj heq).1 hc
    · rename_i heq
      obtain ⟨rfl, rfl⟩ := List.cons.inj heq
      rw [if_pos hdigit, hdrop]
      exact hskip

end Skipping

section Reading

/-- The reader gives no natural number. -/
def NeverNatural (result : Except Fault (JsonNumber × List Char)) : Prop :=
  ∀ n rest, result ≠ .ok (.natural n, rest)

theorem neverNatural_error (e : Fault) : NeverNatural (.error e) := fun _ _ h => nomatch h

theorem neverNatural_fraction (x : Float) (s : List Char) :
    NeverNatural (.ok (.fraction x, s)) := fun _ _ h => nomatch h

variable {positive : Bool} {significand : Nat} {exponent : Int}

theorem neverNatural_finishFraction (s : List Char) :
    NeverNatural (finishFraction positive significand exponent s) := by
  unfold finishFraction
  split
  · exact neverNatural_fraction _ _
  · exact neverNatural_error _

theorem neverNatural_readExponentDigits (raises : Bool) (s : List Char) :
    NeverNatural (readExponentDigits positive raises significand exponent s) := by
  cases s with
  | nil => exact neverNatural_error _
  | cons c s =>
    rw [readExponentDigits]
    split
    · exact neverNatural_error _
    · split
      · exact neverNatural_finishFraction _
      · split
        · exact neverNatural_error _
        · exact neverNatural_fraction _ _

theorem neverNatural_readExponent (s : List Char) :
    NeverNatural (readExponent positive significand exponent s) := by
  unfold readExponent
  split
  all_goals exact neverNatural_readExponentDigits _ _

theorem neverNatural_afterDecimals (s : List Char) :
    NeverNatural (afterDecimals positive significand exponent s) := by
  unfold afterDecimals
  split
  · exact neverNatural_readExponent _
  · exact neverNatural_readExponent _
  · exact neverNatural_finishFraction _

theorem neverNatural_readDecimals (s : List Char) :
    NeverNatural (readDecimals positive significand exponent s) := by
  unfold readDecimals
  split
  · exact neverNatural_afterDecimals _
  · split
    · exact neverNatural_error _
    · exact neverNatural_error _

theorem neverNatural_afterLongWhole (value excess : Nat) (s : List Char) :
    NeverNatural (afterLongWhole positive value excess s) := by
  unfold afterLongWhole
  split
  · exact neverNatural_readDecimals _
  · exact neverNatural_afterDecimals _

theorem eq_of_afterWhole {value n : Nat}
    (h : afterWhole positive value s = .ok (.natural n, rest)) :
    positive = true ∧ value = n ∧ s = rest := by
  unfold afterWhole at h
  split at h
  · exact absurd h (neverNatural_readDecimals _ n rest)
  · exact absurd h (neverNatural_readExponent _ n rest)
  · exact absurd h (neverNatural_readExponent _ n rest)
  · unfold wholeNumber at h
    split at h
    · rename_i hpositive
      cases h
      exact ⟨hpositive, rfl, rfl⟩
    · split at h
      · cases h
      · cases h

theorem exists_of_takeDigits {value count total taken : Nat}
    (h : takeDigits value count s = ((total, taken), rest)) :
    ∃ digits, (∀ c ∈ digits, c.isDigit = true) ∧ s = digits ++ rest ∧
      total = Nat.ofDigitChars 10 digits value := by
  induction s generalizing value count with
  | nil =>
    cases h
    exact ⟨[], by simp, rfl, rfl⟩
  | cons c s ih =>
    rw [takeDigits] at h
    split at h
    · rename_i htake
      obtain ⟨digits, hdigits, rfl, htotal⟩ := ih h
      have hdigit : c.isDigit = true := (Bool.and_eq_true_iff.mp htake).1
      refine ⟨c :: digits, ?_, rfl, ?_⟩
      · intro d hd
        rcases List.mem_cons.mp hd with rfl | hd
        · exact hdigit
        · exact hdigits d hd
      · rw [htotal, Nat.ofDigitChars_cons, Text.digitValue, Nat.mul_comm]
    · cases h
      exact ⟨[], by simp, rfl, rfl⟩

/-- A natural number is read from its digits alone. -/
theorem exists_whole_of_readNumber {n : Nat}
    (h : readNumber positive s = .ok (.natural n, rest)) :
    positive = true ∧ ∃ digits, IsWhole digits ∧ Nat.ofDigitChars 10 digits 0 = n ∧
      s = digits ++ rest := by
  unfold readNumber at h
  split at h
  · cases h
  · split at h
    · cases h
    · obtain ⟨hpositive, rfl, rfl⟩ := eq_of_afterWhole h
      exact ⟨hpositive, ['0'], isWhole_zero, rfl, rfl⟩
  · rename_i c s hzero
    split at h
    · rename_i hdigit
      cases htaken : takeDigits (Text.digitValue c) 1 s with
      | mk counted left =>
        obtain ⟨total, taken⟩ := counted
        obtain ⟨digits, hdigits, rfl, htotal⟩ := exists_of_takeDigits htaken
        rw [htaken] at h
        dsimp only at h
        split at h
        -- digits that no longer fit a word make a double of the number
        · exact absurd h (neverNatural_afterLongWhole _ _ _ n rest)
        · obtain ⟨hpositive, rfl, rfl⟩ := eq_of_afterWhole h
          refine ⟨hpositive, c :: digits, isWhole_cons ⟨List.cons_ne_nil _ _, ?_⟩ ?_, ?_, rfl⟩
          · intro d hd
            rcases List.mem_cons.mp hd with rfl | hd
            · exact hdigit
            · exact hdigits d hd
          · rintro rfl
            exact hzero rfl
          · rw [Nat.ofDigitChars_cons, Nat.mul_zero, Nat.zero_add, htotal, Text.digitValue]
    · cases h

end Reading

end Schemata.Json
