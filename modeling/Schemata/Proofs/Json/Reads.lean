import Schemata.Json.Reader
import Schemata.Proofs.Json.Number
import Schemata.Proofs.Json.Scan

/-!
What a reader makes of a text, whatever stands around it: blanks in front, and behind it
anything that would not go on with a number. Here are the texts of strings, flags and
counts, of optional values and of variants.
-/
namespace Schemata.Json

/-- Blanks may stand in front of the text, and what follows it is left over. -/
def Reads {α : Type} (reader : Reader α) (s : List Char) (value : α) : Prop :=
  ∀ blanks rest, Blanks blanks → EndsNumber rest →
    reader (blanks ++ s ++ rest) = .ok (value, rest)

/-- The text begins with neither a blank nor the given character. -/
def Starts (avoided : Char) (s : List Char) : Prop :=
  ∃ c t, s = c :: t ∧ isBlank c = false ∧ c ≠ avoided

theorem skipBlanks_token {blanks : List Char} (hblanks : Blanks blanks) {c : Char}
    (hc : isBlank c = false) (s : List Char) : skipBlanks (blanks ++ c :: s) = c :: s := by
  rw [skipBlanks_append hblanks, skipBlanks_cons hc]

/-- A reader that skips blanks comes to the text behind them. -/
theorem skipBlanks_text {blanks : List Char} (hblanks : Blanks blanks) {c : Char}
    (hc : isBlank c = false) (s rest : List Char) :
    skipBlanks (blanks ++ c :: s ++ rest) = c :: (s ++ rest) := by
  rw [List.append_assoc, List.cons_append, skipBlanks_token hblanks hc]

theorem isBlank_of_isDigit {c : Char} (h : c.isDigit = true) : isBlank c = false := by
  have hrange : '0'.toNat ≤ c.toNat ∧ c.toNat ≤ '9'.toNat := Char.isDigit_iff_toNat.mp h
  have hne : ∀ d : Char, d.toNat < '0'.toNat → (c == d) = false := by
    intro d hd
    rw [beq_eq_false_iff_ne]
    rintro rfl
    omega
  simp [isBlank, hne ' ' (by decide), hne '\n' (by decide), hne '\t' (by decide),
    hne '\r' (by decide)]

theorem endsNumber_cons {c : Char} (h : c.isDigit = false ∧ c ≠ '.' ∧ c ≠ 'e' ∧ c ≠ 'E')
    (s : List Char) : EndsNumber (c :: s) := h

theorem endsNumber_cons_of_isBlank {c : Char} (h : isBlank c = true) (s : List Char) :
    EndsNumber (c :: s) := by
  simp only [isBlank, Bool.or_eq_true, beq_iff_eq, or_assoc] at h
  rcases h with rfl | rfl | rfl | rfl
  all_goals exact endsNumber_cons (by decide) s

/-- Blanks end a number, and without them what follows does. -/
theorem endsNumber_append {blanks s : List Char} (hblanks : Blanks blanks) (hs : EndsNumber s) :
    EndsNumber (blanks ++ s) := by
  cases blanks with
  | nil => exact hs
  | cons c rest => exact endsNumber_cons_of_isBlank (hblanks c List.mem_cons_self) _

theorem endsNumber_of_blanks {blanks : List Char} (hblanks : Blanks blanks) :
    EndsNumber blanks := by
  have h := endsNumber_append hblanks (s := []) trivial
  rwa [List.append_nil] at h

theorem ok_bind {ε α β : Type} (value : α) (next : α → Except ε β) :
    (Except.ok value >>= next) = next value := rfl

theorem exists_of_bind_ok {ε α β : Type} {first : Except ε α} {next : α → Except ε β} {result : β}
    (h : (first >>= next) = .ok result) :
    ∃ value, first = .ok value ∧ next value = .ok result := by
  cases first with
  | error e => cases h
  | ok value => exact ⟨value, rfl, h⟩

namespace Reader

variable {α : Type} {reader item : Reader α} {s : List Char} {value : α}

theorem reads_stringFor (wanted s : String) :
    Reads (stringFor wanted) (quotedChars s.toList) s := by
  intro blanks rest hblanks _
  have htext : blanks ++ quotedChars s.toList ++ rest =
      blanks ++ '"' :: (s.toList.flatMap escapedChar ++ '"' :: rest) := by
    simp [quotedChars]
  rw [stringFor, htext, skipBlanks_token hblanks (by decide)]
  simp only [readString_escaped, ok_bind, String.ofList_toList]
  rfl

theorem reads_string (s : String) : Reads string (quotedChars s.toList) s :=
  reads_stringFor "a string" s

theorem reads_true : Reads flag "true".toList true := by
  intro blanks rest hblanks _
  have hskip : skipBlanks (blanks ++ "true".toList ++ rest) = 't' :: ("rue".toList ++ rest) :=
    skipBlanks_text hblanks (by decide) ..
  rw [flag, hskip]
  simp only [readWord_append, ok_bind]
  rfl

theorem reads_false : Reads flag "false".toList false := by
  intro blanks rest hblanks _
  have hskip : skipBlanks (blanks ++ "false".toList ++ rest) = 'f' :: ("alse".toList ++ rest) :=
    skipBlanks_text hblanks (by decide) ..
  rw [flag, hskip]
  simp only [readWord_append, ok_bind]
  rfl

theorem starts_toDigits {avoided : Char} (h : avoided.isDigit = false) (n : Nat) :
    Starts avoided (Nat.toDigits 10 n) := by
  obtain ⟨c, digits, hwritten, hdigits, _⟩ := exists_toDigits n
  have hdigit : c.isDigit = true := hdigits c List.mem_cons_self
  refine ⟨c, digits, hwritten, isBlank_of_isDigit hdigit, ?_⟩
  rintro rfl
  rw [h] at hdigit
  cases hdigit

theorem reads_digits {c : Char} {digits : List Char} {n : UInt32}
    (hdigits : ∀ d ∈ c :: digits, d.isDigit = true) (hzero : c = '0' → digits = [])
    (hvalue : Nat.ofDigitChars 10 (c :: digits) 0 = n.toNat) : Reads count (c :: digits) n := by
  intro blanks rest hblanks hrest
  have hsmall : n.toNat < UInt32.size := UInt32.toNat_lt_size n
  have hfits : Nat.ofDigitChars 10 (c :: digits) 0 < wordSize :=
    hvalue ▸ Nat.lt_trans hsmall (by decide)
  have hread := readNumber_digits hdigits hzero hfits hrest
  have hdigit : c.isDigit = true := hdigits c List.mem_cons_self
  rw [count, skipBlanks_text hblanks (isBlank_of_isDigit hdigit)]
  split
  · rename_i heq
    have hminus : c = '-' := (List.cons.inj heq).1
    subst c
    cases hdigit
  · rename_i heq
    obtain ⟨rfl, rfl⟩ := List.cons.inj heq
    rw [if_pos hdigit, ← List.cons_append, hread, ok_bind, hvalue]
    simp [ofNumber, hsmall]
  · rename_i heq
    cases heq

theorem reads_count (n : UInt32) : Reads count (Nat.toDigits 10 n.toNat) n := by
  have hvalue : Nat.ofDigitChars 10 (Nat.toDigits 10 n.toNat) 0 = n.toNat :=
    Nat.ofDigitChars_ten_toDigits
  obtain ⟨c, digits, hwritten, hdigits, hzero⟩ := exists_toDigits n.toNat
  rw [hwritten] at hvalue ⊢
  exact reads_digits hdigits hzero hvalue

theorem reads_none (reader : Reader α) : Reads (optional reader) "null".toList none := by
  intro blanks rest hblanks _
  have hskip : skipBlanks (blanks ++ "null".toList ++ rest) = 'n' :: ("ull".toList ++ rest) :=
    skipBlanks_text hblanks (by decide) ..
  rw [optional, hskip]
  simp only [readWord_append, ok_bind]
  rfl

theorem reads_some (hstarts : Starts 'n' s) (h : Reads reader s value) :
    Reads (optional reader) s (some value) := by
  intro blanks rest hblanks hrest
  obtain ⟨c, t, rfl, hblank, hnull⟩ := hstarts
  have hread := h [] rest blanks_nil hrest
  rw [optional, skipBlanks_text hblanks hblank]
  split
  · rename_i heq
    exact absurd (List.cons.inj heq).1 hnull
  · rw [List.nil_append, List.cons_append] at hread
    rw [hread, ok_bind]
    rfl

theorem reads_variant {known : List String} {ofName? : String → Option α} {name : String}
    (h : ofName? name = some value) :
    Reads (variant known ofName?) (quotedChars name.toList) value := by
  intro blanks rest hblanks hrest
  have hread := reads_stringFor "variant identifier" name [] rest blanks_nil hrest
  have hskip : skipBlanks (blanks ++ quotedChars name.toList ++ rest) =
      quotedChars name.toList ++ rest := skipBlanks_text hblanks (by decide) ..
  rw [variant, hskip]
  change variantName known ofName? ([] ++ quotedChars name.toList ++ rest) = .ok (value, rest)
  rw [variantName, hread, ok_bind]
  simp only [h]
  rfl

end Reader

end Schemata.Json
