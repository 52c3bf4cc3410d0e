import Schemata.Proofs.ColumnType.Native
import Schemata.Proofs.Traversals

/-!
The numbers of a column type. They come from the parts of the first list in brackets, all of
them or none: a part is a number when it is written with digits and, if it has one, a plus sign
before them, and its value fits. What the numbers mean is decided by the name of the type
alone, and so is the family, but for the two names that a length of one turns into flags.
-/
namespace Schemata.ColumnType

open Text

/-- The text stands between the first opening bracket and the first closing one behind it. -/
def Bracketed (s inside : List Char) : Prop :=
  ∃ before after, s = before ++ '(' :: (inside ++ ')' :: after) ∧ '(' ∉ before ∧ ')' ∉ inside

/-- The part is a number: digits behind an optional plus sign, with blanks around them. -/
def Writes (part : List Char) (n : UInt32) : Prop :=
  ∃ front sign digits back, part = front ++ (sign ++ digits ++ back) ∧
    Blanks front ∧ Blanks back ∧ (sign = [] ∨ sign = ['+']) ∧
    digits ≠ [] ∧ (∀ c ∈ digits, c.isDigit = true) ∧ Nat.ofDigitChars 10 digits 0 = n.toNat

theorem argumentText_eq_some_iff {s inside : List Char} :
    argumentText? s = some inside ↔ Bracketed s inside := by
  constructor
  · intro h
    obtain ⟨⟨before, inner⟩, hopen, hinner⟩ := Option.bind_eq_some_iff.mp h
    obtain ⟨⟨body, after⟩, hclose, hbody⟩ := Option.bind_eq_some_iff.mp hinner
    cases hbody
    obtain ⟨hs, hbefore⟩ := eq_append_of_cut (List.cons_ne_nil _ _) hopen
    obtain ⟨hinner, hinside⟩ := eq_append_of_cut (List.cons_ne_nil _ _) hclose
    rw [List.singleton_infix_iff] at hbefore hinside
    exact ⟨before, after, by rw [hs, hinner]; rfl, hbefore, hinside⟩
  · rintro ⟨before, after, rfl, hbefore, hinside⟩
    rw [argumentText_append_left hbefore, argumentText_bracketed hinside]

/-- A sign before the digits is passed over. -/
theorem count_plus {digits : List Char} (h : ∀ c ∈ digits, c.isDigit = true) :
    count? ('+' :: digits) = count? digits := by
  have hplus : ∀ rest, digits ≠ '+' :: rest := by
    rintro rest rfl
    exact absurd (h '+' List.mem_cons_self) (by decide)
  unfold count?
  split
  · rename_i rest heq
    cases heq
    split
    · rename_i rest
      exact absurd rfl (hplus rest)
    · rfl
  · rename_i hother
    exact absurd rfl (hother digits)

theorem exists_digits_of_count {s : List Char} {n : UInt32} (h : count? s = some n) :
    ∃ sign digits, s = sign ++ digits ∧ (sign = [] ∨ sign = ['+']) ∧ digits ≠ [] ∧
      (∀ c ∈ digits, c.isDigit = true) ∧ Nat.ofDigitChars 10 digits 0 = n.toNat := by
  have hparts : ∃ sign digits, s = sign ++ digits ∧ (sign = [] ∨ sign = ['+']) ∧
      (if digits.isEmpty || !digits.all Char.isDigit then none
        else if decimalValue digits < UInt32.size then
          some (UInt32.ofNat (decimalValue digits))
        else none) = some n := by
    unfold count? at h
    split at h
    · rename_i digits
      exact ⟨['+'], digits, rfl, Or.inr rfl, h⟩
    · exact ⟨[], s, rfl, Or.inl rfl, h⟩
  obtain ⟨sign, digits, hs, hsign, hvalue⟩ := hparts
  split at hvalue
  · cases hvalue
  · rename_i hdigits
    rw [Bool.or_eq_true, not_or, List.isEmpty_iff, Bool.not_eq_true', Bool.not_eq_false,
      List.all_eq_true] at hdigits
    split at hvalue
    · rename_i hsmall
      cases hvalue
      exact ⟨sign, digits, hs, hsign, hdigits.1, hdigits.2, (UInt32.toNat_ofNat_of_lt hsmall).symm⟩
    · cases hvalue

theorem char_of_mem_signed {sign digits : List Char} (hsign : sign = [] ∨ sign = ['+'])
    (hdigits : ∀ c ∈ digits, c.isDigit = true) :
    ∀ c ∈ sign ++ digits, c = '+' ∨ c.isDigit = true := by
  intro c hc
  rcases List.mem_append.mp hc with hc | hc
  · rcases hsign with rfl | rfl
    · cases hc
    · exact Or.inl (List.mem_singleton.mp hc)
  · exact Or.inr (hdigits c hc)

theorem argument_eq_some_iff {part : List Char} {n : UInt32} :
    argument? part = some n ↔ Writes part n := by
  constructor
  · intro h
    obtain ⟨front, back, hfront, hback, hpart⟩ := exists_blanks_around_trim (String.ofList part)
    obtain ⟨sign, digits, hs, hsign, hdigits⟩ := exists_digits_of_count h
    rw [trim, String.toList_ofList, String.toList_ofList, hs] at hpart
    exact ⟨front, sign, digits, back, hpart, hfront, hback, hsign, hdigits⟩
  · rintro ⟨front, sign, digits, back, rfl, hfront, hback, hsign, hne, hdigits, hvalue⟩
    have hblank : ∀ c ∈ sign ++ digits, isBlank c = false := by
      intro c hc
      rcases char_of_mem_signed hsign hdigits c hc with rfl | hdigit
      · decide
      · exact isBlank_of_isDigit hdigit
    rw [argument?, dropBlanks_around hfront hback hblank]
    have hcount : count? digits = some n := count_digits hne hdigits hvalue
    rcases hsign with rfl | rfl
    · exact hcount
    · exact (count_plus hdigits).trans hcount

theorem arguments_eq_some_iff {s : List Char} {values : List UInt32} :
    arguments? s = some values ↔
      ∃ inside, Bracketed s inside ∧ List.Forall₂ Writes (inside.splitOn ',') values := by
  rw [arguments?, Option.bind_eq_bind, Option.bind_eq_some_iff]
  simp only [argumentText_eq_some_iff, mapM_eq_some_iff, argument_eq_some_iff]

theorem arguments_eq_none_iff {s : List Char} :
    arguments? s = none ↔
      (¬∃ inside, Bracketed s inside) ∨
        ∃ inside, Bracketed s inside ∧ ∃ part ∈ inside.splitOn ',', ¬∃ n, Writes part n := by
  have hpart (part : List Char) : argument? part = none ↔ ¬∃ n, Writes part n := by
    simp only [← argument_eq_some_iff, ← Option.isSome_iff_exists, Option.not_isSome_iff_eq_none]
  simp only [← argumentText_eq_some_iff, ← hpart, ← mapM_eq_none_iff]
  rw [arguments?, Option.bind_eq_bind]
  cases argumentText? s with
  | none => simp
  | some inside => simp

/-- There is always a first number when there are numbers at all. -/
theorem arguments_ne_nil (s : List Char) : arguments? s ≠ some [] := by
  intro h
  obtain ⟨inside, _, hparts⟩ := arguments_eq_some_iff.mp h
  exact List.splitOn_ne_nil ',' inside (List.forall₂_nil_right_iff.mp hparts)

theorem ofParts_unsized_iff (token : String) (arguments : List UInt32) (unsigned : Bool) :
    ((ofParts token arguments unsigned).length = none ∧
        (ofParts token arguments unsigned).precision = none ∧
        (ofParts token arguments unsigned).scale = none) ↔ arguments = [] := by
  unfold ofParts
  cases takesPrecision token with
  | true =>
    cases arguments with
    | nil => simp
    | cons first more => simp
  | false =>
    cases arguments with
    | nil => simp
    | cons first more => simp

theorem ofText_unsized_iff (raw : String) :
    ((ofText raw).length = none ∧ (ofText raw).precision = none ∧ (ofText raw).scale = none) ↔
      arguments? raw.toList = none := by
  rw [ofText_eq, ofParts_unsized_iff]
  cases harguments : arguments? raw.toList with
  | none => simp
  | some values =>
    have hne : values ≠ [] := by
      rintro rfl
      exact arguments_ne_nil raw.toList harguments
    simp [hne]

/-- The types whose first two numbers are a precision and a scale. -/
def precisionTokens : List String :=
  ["decimal", "numeric", "dec", "fixed", "float", "double", "real"]

theorem sizes_of_arguments {raw : String} {first : UInt32} {more : List UInt32}
    (h : arguments? raw.toList = some (first :: more)) :
    if (ofText raw).token ∈ precisionTokens then
      (ofText raw).precision = some first ∧ (ofText raw).scale = more.head? ∧
        (ofText raw).length = none
    else
      (ofText raw).length = some first ∧ (ofText raw).precision = none ∧
        (ofText raw).scale = none := by
  rw [ofText_eq, h]
  generalize lower (String.ofList (leadingName raw.toList)) = token
  have htoken : takesPrecision token = true ↔ token ∈ precisionTokens := List.contains_iff_mem
  split
  · rename_i hmem
    simp [ofParts, htoken.mpr hmem, List.head?_eq_getElem?]
  · rename_i hmem
    have hnot : takesPrecision token = false := by
      rw [← Bool.not_eq_true, htoken]
      exact hmem
    simp [ofParts, hnot]

theorem ofTypeName_eq_boolean_iff (token : String) :
    Family.ofTypeName token = .boolean ↔ token = "bool" ∨ token = "boolean" := by
  constructor
  · intro h
    rw [Family.ofTypeName] at h
    cases hfound : Family.all.find? (·.typeNames.contains token) with
    | none =>
      rw [hfound] at h
      cases h
    | some family =>
      rw [hfound, Option.getD_some] at h
      subst h
      have hmem := List.find?_some hfound
      simpa [Family.typeNames] using hmem
  · rintro (rfl | rfl)
    · decide
    · decide

theorem family_eq_boolean_iff (raw : String) :
    (ofText raw).family = .boolean ↔
      (ofText raw).token = "bool" ∨ (ofText raw).token = "boolean" ∨
        ((ofText raw).token = "tinyint" ∨ (ofText raw).token = "bit") ∧
          (ofText raw).length = some 1 := by
  rw [ofText_eq]
  generalize lower (String.ofList (leadingName raw.toList)) = token
  generalize (arguments? raw.toList).getD [] = arguments
  let length := (ofParts token arguments false).length
  have hflag : ((token == "tinyint" || token == "bit") && length == some 1) = true ↔
      (token = "tinyint" ∨ token = "bit") ∧ length = some 1 := by
    simp only [Bool.and_eq_true, Bool.or_eq_true, beq_iff_eq]
  by_cases h : (token = "tinyint" ∨ token = "bit") ∧ length = some 1
  · exact iff_of_true (if_pos (hflag.mpr h)) (Or.inr (Or.inr h))
  · have hfamily : (ofParts token arguments (contains (lower raw) "unsigned")).family =
        Family.ofTypeName token := if_neg (hflag.not.mpr h)
    rw [hfamily, ofTypeName_eq_boolean_iff]
    exact or_congr_right (or_iff_left h).symm

theorem family_of_isDecimal {raw : String} (h : (ofText raw).isDecimal = true) :
    (ofText raw).family = .float := by
  rw [isDecimal, List.contains_iff_mem] at h
  rw [ofText_eq] at h ⊢
  generalize lower (String.ofList (leadingName raw.toList)) = token at h ⊢
  have hmem : token ∈ ["decimal", "numeric", "dec", "fixed", "money"] := h
  simp only [List.mem_cons, List.not_mem_nil, or_false] at hmem
  -- the names are literals: none of them is one of the two that may become flags
  rcases hmem with rfl | rfl | rfl | rfl | rfl
  all_goals rfl

/-- A type is without numbers just when it has no list in brackets or one part of the list is no
number. Otherwise the first two numbers are a precision and a scale for the names that take
them, and the first one is a length for all other names. The boolean family has two names of
its own and two that a length of one brings to it; the names of decimals are of one family. -/
theorem ofText_reads_arguments (raw : String) :
    ((ofText raw).length = none ∧ (ofText raw).precision = none ∧ (ofText raw).scale = none ↔
        (¬∃ inside, Bracketed raw.toList inside) ∨
          ∃ inside, Bracketed raw.toList inside ∧
            ∃ part ∈ inside.splitOn ',', ¬∃ n, Writes part n) ∧
      (∀ inside first more, Bracketed raw.toList inside →
        List.Forall₂ Writes (inside.splitOn ',') (first :: more) →
          if (ofText raw).token ∈ precisionTokens then
            (ofText raw).precision = some first ∧ (ofText raw).scale = more.head? ∧
              (ofText raw).length = none
          else
            (ofText raw).length = some first ∧ (ofText raw).precision = none ∧
              (ofText raw).scale = none) ∧
      ((ofText raw).family = .boolean ↔
        (ofText raw).token = "bool" ∨ (ofText raw).token = "boolean" ∨
          ((ofText raw).token = "tinyint" ∨ (ofText raw).token = "bit") ∧
            (ofText raw).length = some 1) ∧
      ((ofText raw).isDecimal = true → (ofText raw).family = .float) := by
  refine ⟨?_, ?_, family_eq_boolean_iff raw, family_of_isDecimal⟩
  · rw [ofText_unsized_iff, arguments_eq_none_iff]
  · intro inside first more hinside hparts
    exact sizes_of_arguments (arguments_eq_some_iff.mpr ⟨inside, hinside, hparts⟩)

/-- The first bracket closes at once, whatever comes behind it. -/
theorem fixed_with_a_sign_and_blanks :
    Bracketed " Fixed( +10 ,4294967295))(1".toList " +10 ,4294967295".toList ∧
      (ofText " Fixed( +10 ,4294967295))(1").precision = some 10 ∧
      (ofText " Fixed( +10 ,4294967295))(1").scale = some 4294967295 ∧
      (ofText " Fixed( +10 ,4294967295))(1").family = .float := by
  have hinside : Bracketed " Fixed( +10 ,4294967295))(1".toList " +10 ,4294967295".toList :=
    argumentText_eq_some_iff.mp (by decide +kernel)
  have hparts : " +10 ,4294967295".toList.splitOn ',' =
      [" +10 ".toList, "4294967295".toList] := by
    decide +kernel
  have hfirst : Writes " +10 ".toList 10 := argument_eq_some_iff.mp (by decide +kernel)
  have hsecond : Writes "4294967295".toList 4294967295 :=
    argument_eq_some_iff.mp (by decide +kernel)
  obtain ⟨_, hsizes, _, hdecimal⟩ := ofText_reads_arguments " Fixed( +10 ,4294967295))(1"
  have hnumbers := hsizes _ 10 [4294967295] hinside (hparts ▸ .cons hfirst (.cons hsecond .nil))
  rw [if_pos (by decide +kernel)] at hnumbers
  exact ⟨hinside, hnumbers.1, hnumbers.2.1, hdecimal (by decide +kernel)⟩

end Schemata.ColumnType
