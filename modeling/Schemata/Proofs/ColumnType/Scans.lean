import Schemata.ColumnType
import Schemata.Proofs.Text.Blanks
import Schemata.Proofs.Text.Letters
import Schemata.Proofs.Text.Search

/-!
The three scans that read a column type: the leading name, the first list of arguments and the
word unsigned. What they find determines the type, and blanks around the spelling change none
of it.
-/
namespace Schemata.ColumnType

open Text

theorem isNameChar_iff {c : Char} :
    isNameChar c = true ↔
      65 ≤ c.toNat ∧ c.toNat ≤ 90 ∨ c.toNat = 95 ∨ 97 ≤ c.toNat ∧ c.toNat ≤ 122 := by
  have hline : c = '_' ↔ c.toNat = 95 := Char.toNat_inj.symm
  rw [isNameChar, Bool.or_eq_true, beq_iff_eq, isAlpha_iff, hline]
  omega

theorem isNameChar_toUpper {c : Char} : isNameChar c.toUpper = isNameChar c := by
  rw [Bool.eq_iff_iff, isNameChar_iff, isNameChar_iff, toNat_toUpper]
  split_ifs <;> omega

theorem isNameChar_toLower {c : Char} : isNameChar c.toLower = isNameChar c := by
  rw [Bool.eq_iff_iff, isNameChar_iff, isNameChar_iff, toNat_toLower]
  split_ifs <;> omega

theorem not_isNameChar_of_isBlank {c : Char} (h : isBlank c = true) : isNameChar c = false := by
  rw [← Bool.not_eq_true, isNameChar_iff]
  simp only [isBlank, Bool.or_eq_true, Bool.and_eq_true, decide_eq_true_eq, beq_iff_eq] at h
  omega

theorem not_isBlank_of_isNameChar {c : Char} (h : isNameChar c = true) : isBlank c = false := by
  rw [← Bool.not_eq_true]
  intro hblank
  rw [not_isNameChar_of_isBlank hblank] at h
  cases h

theorem takeWhile_isNameChar_blanks {back : List Char} (h : Blanks back) (s : List Char) :
    (s ++ back).takeWhile isNameChar = s.takeWhile isNameChar := by
  have hback : back.takeWhile isNameChar = [] := by
    cases back with
    | nil => rfl
    | cons c back =>
      rw [List.takeWhile_cons, not_isNameChar_of_isBlank (h c List.mem_cons_self)]
      rfl
  rw [List.takeWhile_append, hback, List.append_nil, ite_eq_right_iff]
  intro hlength
  exact ((List.takeWhile_prefix isNameChar).eq_of_length hlength).symm

theorem leadingName_blanks {front back : List Char} (hfront : Blanks front) (hback : Blanks back)
    (s : List Char) : leadingName (front ++ (s ++ back)) = leadingName s := by
  rw [leadingName, leadingName, dropBlanks, List.dropWhile_append_of_pos hfront,
    List.dropWhile_append]
  split
  · rename_i hempty
    have hnone : back.dropWhile isBlank = [] := List.dropWhile_eq_nil_iff.mpr hback
    rw [hnone, dropBlanks, List.isEmpty_iff.mp hempty]
  · exact takeWhile_isNameChar_blanks hback _

theorem not_mem_of_isBlank {s : List Char} (h : Blanks s) {c : Char} (hc : isBlank c = false) :
    c ∉ s := by
  intro hmem
  rw [h c hmem] at hc
  cases hc

theorem argumentText_append_left {front : List Char} (h : '(' ∉ front) (s : List Char) :
    argumentText? (front ++ s) = argumentText? s := by
  rw [argumentText?, argumentText?, cut_append_left h]
  cases cut ['('] s with
  | none => rfl
  | some parts => rfl

theorem argumentText_append_right {back : List Char} (hopen : '(' ∉ back) (hclose : ')' ∉ back)
    (s : List Char) : argumentText? (s ++ back) = argumentText? s := by
  rw [argumentText?, argumentText?, cut_append_right hopen]
  cases cut ['('] s with
  | none => rfl
  | some parts =>
    simp only [Option.map_some, Option.bind_eq_bind, Option.bind_some, cut_append_right hclose]
    cases cut [')'] parts.2 with
    | none => rfl
    | some _ => rfl

/-- The first list, with no bracket before it and none that closes inside it. -/
theorem argumentText_bracketed {inside : List Char} (h : ')' ∉ inside) (rest : List Char) :
    argumentText? ('(' :: (inside ++ ')' :: rest)) = some inside := by
  have hopen : cut ['('] ('(' :: (inside ++ ')' :: rest)) = some ([], inside ++ ')' :: rest) :=
    cut_append (s := []) List.not_mem_nil [] _
  have hclose : cut [')'] (inside ++ ')' :: rest) = some (inside, rest) := cut_append h [] rest
  simp only [argumentText?, hopen, hclose, Option.bind_eq_bind, Option.bind_some, Option.pure_def]

theorem contains_lower_iff {raw : String} :
    contains (lower raw) "unsigned" = true ↔
      "unsigned".toList <:+: raw.toList.map Char.toLower := by
  rw [contains, occursIn_iff, lower, String.toList_map]

/-- What the scans find, put together. -/
def ofParts (token : String) (arguments : List UInt32) (unsigned : Bool) : ColumnType :=
  let length := if takesPrecision token then none else arguments[0]?
  let isFlag := (token == "tinyint" || token == "bit") && length == some 1
  { family := if isFlag then .boolean else Family.ofTypeName token
    token
    length
    precision := if takesPrecision token then arguments[0]? else none
    scale := if takesPrecision token then arguments[1]? else none
    unsigned }

theorem ofText_eq (raw : String) :
    ofText raw = ofParts (lower (String.ofList (leadingName raw.toList)))
      ((arguments? raw.toList).getD []) (contains (lower raw) "unsigned") :=
  rfl

theorem toList_token (raw : String) :
    (ofText raw).token.toList = (leadingName raw.toList).map Char.toLower := by
  rw [ofText, lower, String.toList_map, String.toList_ofList]

/-- The name of a type has no other characters than the scan for it takes. -/
theorem isNameChar_of_mem_token {raw : String} :
    ∀ c ∈ (ofText raw).token.toList, isNameChar c = true := by
  intro c hc
  rw [toList_token] at hc
  obtain ⟨d, hd, rfl⟩ := List.mem_map.mp hc
  rw [isNameChar_toLower]
  exact List.mem_takeWhile_imp hd

theorem toLower_eq_of_isBlank {c : Char} (h : isBlank c = true) : c.toLower = c := by
  rw [← Char.toNat_inj, toNat_toLower]
  simp only [isBlank, Bool.or_eq_true, Bool.and_eq_true, decide_eq_true_eq, beq_iff_eq] at h
  split
  · omega
  · rfl

theorem not_mem_unsigned_of_isBlank {s : List Char} (h : Blanks s) :
    ∀ c ∈ s.map Char.toLower, c ∉ "unsigned".toList := by
  intro c hc hmem
  have hletters : ∀ d ∈ "unsigned".toList, isBlank d = false := by simp [isBlank]
  obtain ⟨d, hd, rfl⟩ := List.mem_map.mp hc
  rw [toLower_eq_of_isBlank (h d hd)] at hmem
  exact not_mem_of_isBlank h (hletters d hmem) hd

/-- Blanks around a spelling are not read. -/
theorem ofText_of_blanks {raw other : String} {front back : List Char} (hfront : Blanks front)
    (hback : Blanks back) (h : raw.toList = front ++ (other.toList ++ back)) :
    ofText raw = ofText other := by
  have hname : leadingName raw.toList = leadingName other.toList := by
    rw [h, leadingName_blanks hfront hback]
  have harguments : arguments? raw.toList = arguments? other.toList := by
    rw [arguments?, arguments?, h, argumentText_append_left (not_mem_of_isBlank hfront (by decide)),
      argumentText_append_right (not_mem_of_isBlank hback (by decide))
        (not_mem_of_isBlank hback (by decide))]
  have hunsigned : contains (lower raw) "unsigned" = contains (lower other) "unsigned" := by
    have hne : "unsigned".toList ≠ [] := by decide
    rw [Bool.eq_iff_iff, contains_lower_iff, contains_lower_iff, h, List.map_append,
      List.map_append, infix_append_left_iff hne (not_mem_unsigned_of_isBlank hfront),
      infix_append_right_iff hne (not_mem_unsigned_of_isBlank hback)]
  rw [ofText_eq, ofText_eq, hname, harguments, hunsigned]

theorem ofText_trim (raw : String) : ofText (trim raw) = ofText raw := by
  obtain ⟨front, back, hfront, hback, h⟩ := exists_blanks_around_trim raw
  exact (ofText_of_blanks hfront hback h).symm

end Schemata.ColumnType
