import Schemata.Document.CreateTable
import Schemata.Proofs.ColumnType.Scans
import Schemata.Proofs.Document.Numerals
import Schemata.Proofs.Text.Joined

/-!
The type that a create-table statement writes is read as the type of the column again. A native
spelling has three parts, and each scan finds its own: the name in capitals ends at the bracket
or the blank behind it, the list holds the arguments that were kept, and the word unsigned is
nowhere but at the end or in the name. Where the spelling is not native it is the trimmed one.
-/
namespace Schemata.ColumnType

open Text

/-- The arguments that a type of this name keeps. -/
def kept (token : String) (arguments : List UInt32) : List UInt32 :=
  arguments.take (if takesPrecision token then 2 else 1)

theorem ofParts_kept (token : String) (arguments : List UInt32) (unsigned : Bool) :
    ofParts token (kept token arguments) unsigned = ofParts token arguments unsigned := by
  unfold ofParts kept
  cases takesPrecision token with
  | true => simp
  | false => simp

def listed (arguments : List UInt32) : List Char :=
  [','].intercalate (arguments.map fun n => (toString n).toList)

/-- A list of arguments in brackets, or nothing when there are none. -/
def bracketed (arguments : List UInt32) : List Char :=
  if arguments = [] then [] else '(' :: (listed arguments ++ [')'])

theorem argumentSuffix_ofParts (token : String) (arguments : List UInt32) (unsigned : Bool) :
    (ofParts token arguments unsigned).argumentSuffix.toList =
      bracketed (kept token arguments) := by
  unfold argumentSuffix ofParts kept
  cases takesPrecision token with
  | true =>
    match arguments with
    | [] => rfl
    | [precision] => simp [bracketed, listed]
    | precision :: scale :: rest => simp [bracketed, listed]
  | false =>
    match arguments with
    | [] => rfl
    | length :: rest => simp [bracketed, listed]

theorem isBlank_of_isDigit {c : Char} (h : c.isDigit = true) : isBlank c = false := by
  rw [isDigit_iff] at h
  simp only [isBlank, Bool.or_eq_false_iff, Bool.and_eq_false_iff, decide_eq_false_iff_not,
    beq_eq_false_iff_ne]
  omega

theorem count_digits {digits : List Char} (hne : digits ≠ [])
    (hdigits : ∀ c ∈ digits, c.isDigit = true) {n : UInt32} (hvalue : decimalValue digits = n.toNat) :
    count? digits = some n := by
  have hall : digits.all Char.isDigit = true := List.all_eq_true.mpr hdigits
  have hsmall : n.toNat < UInt32.size := n.toNat_lt
  have hcount : count? digits = if digits.isEmpty || !digits.all Char.isDigit then none
      else if decimalValue digits < UInt32.size then some (UInt32.ofNat (decimalValue digits))
      else none := by
    unfold count?
    split
    · exact absurd (hdigits '+' List.mem_cons_self) (by decide)
    · rfl
  rw [hcount, hall, hvalue, if_pos hsmall, UInt32.ofNat_toNat]
  simp [hne]

theorem argument_count (n : UInt32) : argument? (toString n).toList = some n := by
  have hdigits : ∀ c ∈ (toString n).toList, c.isDigit = true :=
    fun _ hc => Document.isDigit_of_mem_count hc
  have hblank : ∀ c ∈ (toString n).toList, isBlank c = false :=
    fun c hc => isBlank_of_isDigit (hdigits c hc)
  have hne : (toString n).toList ≠ [] := by
    rw [Document.toList_count]
    exact Nat.toDigits_ne_nil
  have hvalue : decimalValue (toString n).toList = n.toNat := by
    rw [Document.toList_count]
    exact Nat.ofDigitChars_ten_toDigits
  rw [argument?, dropBlanks_of_not_isBlank hblank, dropTrailingBlanks_of_not_isBlank hblank]
  exact count_digits hne hdigits hvalue

theorem mapM_argument (arguments : List UInt32) :
    (arguments.map fun n => (toString n).toList).mapM argument? = some arguments := by
  induction arguments with
  | nil => rfl
  | cons n arguments ih =>
    rw [List.map_cons, List.mapM_cons, argument_count, ih]
    rfl

theorem not_mem_count {c : Char} (h : c.isDigit = false) (n : UInt32) :
    c ∉ (toString n).toList := by
  intro hmem
  rw [Document.isDigit_of_mem_count hmem] at h
  cases h

theorem char_of_mem_listed {arguments : List UInt32} :
    ∀ c ∈ listed arguments, c.isDigit = true ∨ c = ',' := by
  refine forall_mem_intercalate (fun c hc => Or.inr (List.mem_singleton.mp hc)) ?_
  intro item hitem c hc
  obtain ⟨n, _, rfl⟩ := List.mem_map.mp hitem
  exact Or.inl (Document.isDigit_of_mem_count hc)

theorem arguments_bracketed (arguments : List UInt32) :
    (arguments? (bracketed arguments)).getD [] = arguments := by
  by_cases hnone : arguments = []
  · rw [hnone]
    rfl
  · have hclose : ')' ∉ listed arguments := by
      intro hmem
      rcases char_of_mem_listed _ hmem with hdigit | hcomma
      · exact absurd hdigit (by decide)
      · exact absurd hcomma (by decide)
    have hitems : ∀ item ∈ arguments.map fun n => (toString n).toList, ',' ∉ item := by
      intro item hitem
      obtain ⟨n, _, rfl⟩ := List.mem_map.mp hitem
      exact not_mem_count (by decide) n
    have hsplit : (listed arguments).splitOn ',' = arguments.map fun n => (toString n).toList :=
      List.splitOn_intercalate ',' hitems (by simpa using hnone)
    rw [bracketed, if_neg hnone, arguments?, argumentText_bracketed hclose]
    simp only [Option.bind_eq_bind, Option.bind_some, hsplit, mapM_argument, Option.getD_some]

/-- No character of a list belongs to a word. -/
theorem not_isNameChar_of_mem_bracketed {arguments : List UInt32} {c : Char}
    (h : c ∈ bracketed arguments) : isNameChar c = false := by
  rw [bracketed] at h
  split at h
  · cases h
  · have hc : c = '(' ∨ (c.isDigit = true ∨ c = ',') ∨ c = ')' := by
      simp only [List.mem_cons, List.mem_append, List.not_mem_nil, or_false] at h
      exact h.imp_right (Or.imp_left (char_of_mem_listed c))
    rcases hc with rfl | (hdigit | rfl) | rfl
    · decide
    · rw [isDigit_iff] at hdigit
      rw [← Bool.not_eq_true, isNameChar_iff]
      omega
    · decide
    · decide

theorem leadingName_append {name tail : List Char} (hne : name ≠ [])
    (hname : ∀ c ∈ name, isNameChar c = true) (htail : tail.takeWhile isNameChar = []) :
    leadingName (name ++ tail) = name := by
  have hblanks : dropBlanks (name ++ tail) = name ++ tail := by
    obtain ⟨c, name, rfl⟩ := List.exists_cons_of_ne_nil hne
    have hink := not_isBlank_of_isNameChar (hname c List.mem_cons_self)
    rw [dropBlanks, List.cons_append, List.dropWhile_cons_of_neg (by simp [hink])]
  rw [leadingName, hblanks, List.takeWhile_append_of_pos hname, htail, List.append_nil]

/-- The end of a native spelling. -/
def unsignedMark (unsigned : Bool) : String := if unsigned then " UNSIGNED" else ""

theorem toList_native_ofParts (token : String) (arguments : List UInt32) (unsigned : Bool) :
    (ofParts token arguments unsigned).native.toList =
      token.toList.map Char.toUpper ++
        (bracketed (kept token arguments) ++ (unsignedMark unsigned).toList) := by
  rw [native, String.toList_append, String.toList_append, argumentSuffix_ofParts,
    List.append_assoc]
  simp [upper, unsignedMark, ofParts]

section Parts

variable {token : String} (hname : ∀ c ∈ token.toList, isNameChar c = true)
  (arguments : List UInt32) (unsigned : Bool)
include hname

theorem leadingName_native (hne : token ≠ "") :
    leadingName (ofParts token arguments unsigned).native.toList =
      token.toList.map Char.toUpper := by
  have htail : (bracketed (kept token arguments) ++ (unsignedMark unsigned).toList).takeWhile
      isNameChar = [] := by
    cases hlist : bracketed (kept token arguments) with
    | nil =>
      cases unsigned with
      | true => decide
      | false => rfl
    | cons c rest =>
      have hfirst := not_isNameChar_of_mem_bracketed (hlist ▸ List.mem_cons_self (a := c))
      rw [List.cons_append, List.takeWhile_cons, hfirst]
      rfl
  have hcapitals : ∀ c ∈ token.toList.map Char.toUpper, isNameChar c = true := by
    intro c hc
    obtain ⟨d, hd, rfl⟩ := List.mem_map.mp hc
    rw [isNameChar_toUpper, hname d hd]
  rw [toList_native_ofParts]
  exact leadingName_append (by simpa using hne) hcapitals htail

theorem arguments_native :
    (arguments? (ofParts token arguments unsigned).native.toList).getD [] =
      kept token arguments := by
  have hbefore : '(' ∉ token.toList.map Char.toUpper := by
    intro hmem
    obtain ⟨c, hc, hcase⟩ := List.mem_map.mp hmem
    have hother : isNameChar c.toUpper = true := by rw [isNameChar_toUpper, hname c hc]
    rw [hcase] at hother
    cases hother
  have hmark : '(' ∉ (unsignedMark unsigned).toList ∧ ')' ∉ (unsignedMark unsigned).toList := by
    cases unsigned <;> decide
  rw [toList_native_ofParts, arguments?, argumentText_append_left hbefore,
    argumentText_append_right hmark.1 hmark.2, ← arguments?, arguments_bracketed]

omit hname in
/-- The list has none of the letters of the word, so that it stands at the end or in the name. -/
theorem unsigned_native (hlower : lower token = token)
    (hunsigned : "unsigned".toList <:+: token.toList → unsigned = true) :
    contains (lower (ofParts token arguments unsigned).native) "unsigned" = unsigned := by
  have htoken : (token.toList.map Char.toUpper).map Char.toLower = token.toList := by
    have hboth := congrArg String.toList ((lower_upper token).trans hlower)
    rwa [lower, upper, String.toList_map, String.toList_map] at hboth
  have hlist : ∀ c ∈ (bracketed (kept token arguments)).map Char.toLower,
      c ∉ "unsigned".toList := by
    have hletters : ∀ c ∈ "unsigned".toList, isNameChar c = true := by simp [isNameChar]
    intro c hc hmem
    obtain ⟨d, hd, rfl⟩ := List.mem_map.mp hc
    have hother := not_isNameChar_of_mem_bracketed hd
    rw [← isNameChar_toLower, hletters _ hmem] at hother
    cases hother
  rw [Bool.eq_iff_iff, contains_lower_iff, toList_native_ofParts, List.map_append, htoken,
    List.map_append]
  cases unsigned with
  | true =>
    have hmark : (unsignedMark true).toList.map Char.toLower = ' ' :: "unsigned".toList := by
      decide
    rw [hmark, ← List.append_assoc, List.append_cons]
    exact iff_of_true (List.suffix_append _ _).isInfix rfl
  | false =>
    have hmark : (unsignedMark false).toList.map Char.toLower = [] := rfl
    rw [hmark, List.append_nil, infix_append_right_iff (by decide) hlist]
    exact ⟨hunsigned, fun h => absurd h Bool.false_ne_true⟩

theorem ofText_native_ofParts (hne : token ≠ "") (hlower : lower token = token)
    (hunsigned : "unsigned".toList <:+: token.toList → unsigned = true) :
    ofText (ofParts token arguments unsigned).native = ofParts token arguments unsigned := by
  have htoken : lower (String.ofList
      (leadingName (ofParts token arguments unsigned).native.toList)) = token := by
    rw [leadingName_native hname arguments unsigned hne, ← String.toList_map,
      String.ofList_toList, ← upper, lower_upper, hlower]
  rw [ofText_eq, htoken, arguments_native hname, unsigned_native _ _ hlower hunsigned,
    ofParts_kept]

end Parts

theorem leadingName_within (s : List Char) : leadingName s <:+: s :=
  (List.takeWhile_prefix isNameChar).isInfix.trans (List.dropWhile_suffix isBlank).isInfix

/-- A type with a name is read back from its native spelling. -/
theorem ofText_native {raw : String} (hne : (ofText raw).token ≠ "") :
    ofText (ofText raw).native = ofText raw := by
  refine ofText_native_ofParts isNameChar_of_mem_token _ _ hne (lower_lower _) fun hword => ?_
  rw [toList_token] at hword
  exact contains_lower_iff.mpr (hword.trans ((leadingName_within _).map _))

theorem token_ne_of_family {raw : String} (h : (ofText raw).family ≠ .unknown) :
    (ofText raw).token ≠ "" := by
  rw [ofText_eq] at h ⊢
  generalize lower (String.ofList (leadingName raw.toList)) = token at h ⊢
  rintro (rfl : token = "")
  exact h rfl

/-- The type that a statement writes for a column is read as the type of the column. -/
theorem ofText_typeText (name raw : String) :
    ofText (Document.CreateTable.typeText (Column.ofType name raw)) = ofText raw := by
  unfold Document.CreateTable.typeText
  split
  · exact ofText_trim raw
  · rename_i hnative
    rw [Bool.or_eq_true, not_or, beq_iff_eq] at hnative
    exact ofText_native (token_ne_of_family hnative.1)

example : Document.CreateTable.typeText (Column.ofType "total" " decimal( +10 , 2, 7 ) Unsigned") =
    "DECIMAL(10,2) UNSIGNED" := by
  decide +kernel

end Schemata.ColumnType
