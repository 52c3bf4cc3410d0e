import Mathlib.Data.List.TakeWhile
import Schemata.Json.Scan
import Schemata.Json.Value

/-!
Blanks and strings, written and scanned. Blanks may be added in front of whatever begins
with a scan for blanks, and the scan of a written string gives the string and what follows it.
-/
namespace Schemata.Json

def Blanks (s : List Char) : Prop := ∀ c ∈ s, isBlank c = true

instance (s : List Char) : Decidable (Blanks s) :=
  decidable_of_iff (s.all isBlank = true) List.all_eq_true

theorem skipBlanks_append {blanks : List Char} (h : Blanks blanks) (s : List Char) :
    skipBlanks (blanks ++ s) = skipBlanks s :=
  List.dropWhile_append_of_pos h

theorem skipBlanks_cons {c : Char} (h : isBlank c = false) (s : List Char) :
    skipBlanks (c :: s) = c :: s := by
  rw [skipBlanks, List.dropWhile_cons, if_neg (by rw [h]; exact Bool.false_ne_true)]

theorem skipBlanks_blanks {blanks : List Char} (h : Blanks blanks) : skipBlanks blanks = [] := by
  simpa [skipBlanks] using skipBlanks_append h []

theorem blanks_nil : Blanks [] := fun _ h => nomatch h

theorem blanks_space : Blanks [' '] := by decide

/-- The break before a line, with its indent. -/
theorem blanks_newline (width : Nat) : Blanks ('\n' :: List.replicate width ' ') := by
  intro c hc
  rcases List.mem_cons.mp hc with rfl | hc
  · decide
  · rw [(List.mem_replicate.mp hc).2]
    decide

theorem Blanks.append {blanks blanks' : List Char} (h : Blanks blanks) (h' : Blanks blanks') :
    Blanks (blanks ++ blanks') := by
  intro c hc
  rcases List.mem_append.mp hc with hc | hc
  · exact h c hc
  · exact h' c hc

theorem exists_blanks (s : List Char) : ∃ blanks, Blanks blanks ∧ s = blanks ++ skipBlanks s :=
  ⟨s.takeWhile isBlank, fun _ hc => List.mem_takeWhile_imp hc,
    List.takeWhile_append_dropWhile.symm⟩

theorem exists_blanks_of_skipBlanks {s t : List Char} (h : skipBlanks s = t) :
    ∃ blanks, Blanks blanks ∧ s = blanks ++ t :=
  h ▸ exists_blanks s

theorem readWord_append (word s : List Char) : readWord word (word ++ s) = .ok s := by
  induction word with
  | nil => cases s <;> rfl
  | cons w word ih => simpa [readWord] using ih

theorem eq_append_of_readWord {word s rest : List Char} (h : readWord word s = .ok rest) :
    s = word ++ rest := by
  induction word generalizing s with
  | nil =>
    cases h
    rfl
  | cons w word ih =>
    cases s with
    | nil => cases h
    | cons c s =>
      rw [readWord] at h
      split at h
      · rename_i hc
        rw [hc, ih h, List.cons_append]
      · cases h

theorem readString_plain {c : Char} (s : List Char) (hquote : c ≠ '"') (hslash : c ≠ '\\')
    (hcontrol : 0x20 ≤ c.toNat) :
    readString .plain (c :: s) = Text.prepend c <$> readString .plain s := by
  rw [readString, if_neg hquote, if_neg hslash, if_neg (Nat.not_lt.mpr hcontrol)]

theorem readString_short {c d : Char} (s : List Char) (h : shortEscape? c = some d) :
    readString .plain ('\\' :: c :: s) = Text.prepend d <$> readString .plain s := by
  rw [readString, if_neg (by decide), if_pos rfl, readString, h]

theorem hexValue_hexDigit : ∀ n < 16, Text.hexValue? (hexDigit n) = some n := by
  decide

/-- What is left to do when the four digits of an escape have been read. -/
def afterCode (lead : Option Nat) (code : Nat) : Reader (List Char) := fun s =>
  match lead with
  | none =>
    if isTrail code then fault .loneSurrogate s
    else if isLead code then readString (.lead code) s
    else Text.prepend (Char.ofNat code) <$> readString .plain s
  | some first =>
    if isTrail code then Text.prepend (pairedChar first code) <$> readString .plain s
    else fault .loneSurrogate s

theorem readString_digit {c : Char} {v : Nat} (hv : Text.hexValue? c = some v) (lead : Option Nat)
    (digits value : Nat) (t : List Char) :
    readString (.hex lead digits value) (c :: t) =
      if digits < 3 then readString (.hex lead (digits + 1) (16 * value + v)) t
      else afterCode lead (16 * value + v) t := by
  rw [readString, hv]
  rfl

theorem readString_hex_append {a b c d : Char} {v w x y : Nat} (ha : Text.hexValue? a = some v)
    (hb : Text.hexValue? b = some w) (hc : Text.hexValue? c = some x)
    (hd : Text.hexValue? d = some y) (lead : Option Nat) (t : List Char) :
    readString (.hex lead 0 0) (a :: b :: c :: d :: t) =
      afterCode lead (16 * (16 * (16 * v + w) + x) + y) t := by
  rw [readString_digit ha, if_pos (by decide), readString_digit hb, if_pos (by decide),
    readString_digit hc, if_pos (by decide), readString_digit hd, if_neg (by decide),
    Nat.mul_zero, Nat.zero_add]

theorem readString_hex (first second third fourth : Nat) (s : List Char)
    (hfirst : first < 16) (hsecond : second < 16) (hthird : third < 16) (hfourth : fourth < 16)
    (hcode : isTrail (16 * (16 * (16 * first + second) + third) + fourth) = false)
    (hcode' : isLead (16 * (16 * (16 * first + second) + third) + fourth) = false) :
    readString .plain ('\\' :: 'u' :: hexDigit first :: hexDigit second :: hexDigit third ::
        hexDigit fourth :: s) =
      Text.prepend (Char.ofNat (16 * (16 * (16 * first + second) + third) + fourth)) <$>
        readString .plain s := by
  have hread := readString_hex_append (hexValue_hexDigit first hfirst)
    (hexValue_hexDigit second hsecond) (hexValue_hexDigit third hthird)
    (hexValue_hexDigit fourth hfourth) none s
  simp only [afterCode, hcode, hcode', Bool.false_eq_true, if_false] at hread
  exact hread

/-- A control character without a short escape is written by its code. -/
theorem readString_control {c : Char} (s : List Char) (h : c.toNat < 0x20) :
    readString .plain ('\\' :: 'u' :: '0' :: '0' :: hexDigit (c.toNat / 16) ::
        hexDigit (c.toNat % 16) :: s) = Text.prepend c <$> readString .plain s := by
  have hcode : 16 * (16 * (16 * 0 + 0) + c.toNat / 16) + c.toNat % 16 = c.toNat := by omega
  have hread := readString_hex 0 0 (c.toNat / 16) (c.toNat % 16) s (by omega) (by omega)
    (by omega) (by omega) (by rw [hcode]; simp [isTrail]; omega)
    (by rw [hcode]; simp [isLead]; omega)
  rw [hcode, Char.ofNat_toNat] at hread
  exact hread

theorem readString_escapedChar (c : Char) (s : List Char) :
    readString .plain (escapedChar c ++ s) = Text.prepend c <$> readString .plain s := by
  unfold escapedChar
  split
  · exact readString_short s rfl
  · exact readString_short s rfl
  · exact readString_short s rfl
  · exact readString_short s rfl
  · exact readString_short s rfl
  · exact readString_short s rfl
  · exact readString_short s rfl
  · rename_i hquote hslash _ _ _ _ _
    split
    · rename_i hcontrol
      exact readString_control s hcontrol
    · rename_i hplain
      exact readString_plain s hquote hslash (Nat.not_lt.mp hplain)

theorem readString_escaped (s rest : List Char) :
    readString .plain (s.flatMap escapedChar ++ '"' :: rest) = .ok (s, rest) := by
  induction s with
  | nil => rw [List.flatMap_nil, List.nil_append, readString, if_pos rfl]
  | cons c s ih =>
    rw [List.flatMap_cons, List.append_assoc, readString_escapedChar, ih]
    rfl

end Schemata.Json
