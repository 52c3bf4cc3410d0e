import Schemata.Document.CreateTable
import Schemata.Proofs.Document.Numerals
import Schemata.Proofs.Text.Letters

/-!
Where a default ends. A default is scanned with its brackets and its strings, in which two
quotes stand for one; it is contained when the scan ends where it began and no separator of the
statement was met on the way. Words, numbers and strings always are. A call that is copied is
contained just when its own brackets and strings come to an end, which nothing checks.
-/
namespace Schemata.Document.CreateTable

inductive Place
  | outside (depth : Nat)
  | inString (depth : Nat)
  deriving DecidableEq, Repr

/-- A quote leaves a string, and one that follows at once goes on with it. -/
def step : Place → Char → Option Place
  | .inString depth, c => some (if c = '\'' then .outside depth else .inString depth)
  | .outside depth, c =>
    if c = '\'' then some (.inString depth)
    else if c = '(' then some (.outside (depth + 1))
    else if c = ')' then if depth = 0 then none else some (.outside (depth - 1))
    else if depth = 0 ∧ (c = ',' ∨ c = ';') then none
    else some (.outside depth)

def scan (place : Place) (s : List Char) : Option Place := s.foldlM step place

/-- No string is left open, every bracket has its partner, and no comma or semicolon stands
outside brackets and strings. -/
def Contained (text : String) : Prop := scan (.outside 0) text.toList = some (.outside 0)

instance (text : String) : Decidable (Contained text) :=
  inferInstanceAs (Decidable (scan (.outside 0) text.toList = some (.outside 0)))

theorem scan_cons (place : Place) (c : Char) (s : List Char) :
    scan place (c :: s) = (step place c).bind (scan · s) :=
  List.foldlM_cons

theorem scan_append (place : Place) (s t : List Char) :
    scan place (s ++ t) = (scan place s).bind (scan · t) :=
  List.foldlM_append

/-- The characters that mean something to the scan. -/
def signs : List Char := ['\'', '(', ')', ',', ';']

theorem step_of_not_sign {c : Char} (h : c ∉ signs) (place : Place) :
    step place c = some place := by
  simp only [signs, List.mem_cons, List.not_mem_nil, or_false, not_or] at h
  cases place with
  | outside depth => simp [step, h]
  | inString depth => simp [step, h]

theorem scan_of_no_sign {s : List Char} (h : ∀ c ∈ s, c ∉ signs) (place : Place) :
    scan place s = some place := by
  induction s with
  | nil => rfl
  | cons c s ih =>
    rw [scan_cons, step_of_not_sign (h c List.mem_cons_self)]
    exact ih fun d hd => h d (List.mem_cons_of_mem _ hd)

/-- No sign is a letter. -/
theorem step_toUpper (place : Place) (c : Char) : step place c.toUpper = step place c := by
  by_cases hsmall : 97 ≤ c.toNat ∧ c.toNat ≤ 122
  · have hcapital := Text.toNat_toUpper c
    rw [if_pos hsmall] at hcapital
    have hcodes : ∀ d ∈ signs, d.toNat ≤ 59 := by simp [signs]
    rw [step_of_not_sign fun hsign => ?_, step_of_not_sign fun hsign => ?_]
    · have hcode := hcodes _ hsign
      omega
    · have hcode := hcodes _ hsign
      omega
  · have hsame : c.toUpper = c := by rw [← Char.toNat_inj, Text.toNat_toUpper, if_neg hsmall]
    rw [hsame]

theorem scan_upper (place : Place) (s : String) :
    scan place (Text.upper s).toList = scan place s.toList := by
  have hstep : (fun place (c : Char) => step place c.toUpper) = step :=
    funext fun place => funext (step_toUpper place)
  rw [Text.upper, String.toList_map, scan, List.foldlM_map, hstep, scan]

theorem contained_upper {s : String} : Contained (Text.upper s) ↔ Contained s := by
  rw [Contained, Contained, scan_upper]

theorem scan_of_isNumber {value : String} (h : isNumber value = true) (place : Place) :
    scan place value.toList = some place := by
  refine scan_of_no_sign (fun c hc hsign => ?_) place
  rcases char_of_isNumber h hc with rfl | hdigit | rfl
  · exact absurd hsign (by decide)
  · have hdigits : ∀ d ∈ signs, d.isDigit = false := by simp [signs]
    rw [hdigits c hsign] at hdigit
    cases hdigit
  · exact absurd hsign (by decide)

/-- Inside a string every doubled quote comes back to it. -/
theorem scan_doubled (depth : Nat) (s : List Char) :
    scan (.inString depth) (Text.doubledChars '\'' s) = some (.inString depth) := by
  induction s with
  | nil => rfl
  | cons c s ih =>
    rw [Text.doubledChars, List.flatMap_cons, scan_append, ← Text.doubledChars]
    by_cases hc : c = '\''
    · rw [if_pos hc]
      exact ih
    · rw [if_neg hc, scan_cons, step, if_neg hc]
      exact ih

theorem contained_stringLiteral (value : String) : Contained (stringLiteral value) := by
  have htext : (stringLiteral value).toList =
      '\'' :: (Text.doubledChars '\'' value.toList ++ ['\'']) := by
    simp [stringLiteral, Text.doubled]
  rw [Contained, htext, scan_cons]
  exact (scan_append _ _ _).trans (congrArg (Option.bind · _) (scan_doubled 0 value.toList))

/-- The keyword with something behind its opening bracket. -/
def isTimestampCall (value : String) : Bool :=
  Text.startsWith (Text.upper value) "CURRENT_TIMESTAMP("

theorem contained_of_isKeyword {value : String} (h : isKeyword value = true)
    (hcall : isTimestampCall value = false) : Contained value := by
  rw [isKeyword, ← isTimestampCall, hcall, Bool.or_false, List.contains_iff_mem] at h
  rw [← contained_upper]
  -- the list of words is a literal: each of them is scanned
  generalize Text.upper value = word at h
  simp only [List.mem_cons, List.not_mem_nil, or_false] at h
  rcases h with rfl | rfl | rfl | rfl | rfl | rfl | rfl
  all_goals decide

/-- Between brackets a text is contained when it comes back to the depth inside them. -/
theorem contained_bracketed {word : String} :
    Contained ("(" ++ word ++ ")") ↔ scan (.outside 1) word.toList = some (.outside 1) := by
  have htext : ("(" ++ word ++ ")").toList = '(' :: (word.toList ++ [')']) := by simp
  have hlast (place : Place) : scan place [')'] = some (.outside 0) ↔ place = .outside 1 := by
    cases place with
    | inString depth => simp [scan, step]
    | outside depth =>
      match depth with
      | 0 => simp [scan, step]
      | depth + 1 => simp [scan, step]
  rw [Contained, htext, scan_cons]
  change scan (.outside 1) (word.toList ++ [')']) = some (.outside 0) ↔ _
  rw [scan_append, Option.bind_eq_some_iff]
  simp only [hlast, exists_eq_right]

/-- A default is contained unless it is copied as a call, and then just when its brackets and
strings come to an end by themselves. -/
theorem contained_defaultLiteral_iff (value : String) :
    Contained (defaultLiteral value) ↔
      (isTimestampCall (Text.trim value) = true → Contained (Text.trim value)) ∧
      (isKeyword (Text.trim value) = false → isCall (Text.trim value) = true →
        scan (.outside 1) (Text.trim value).toList = some (.outside 1)) := by
  simp only [defaultLiteral]
  generalize Text.trim value = word
  cases hkeyword : isKeyword word with
  | true =>
    simp only [Bool.true_or, if_true, Bool.true_eq_false, false_implies, and_true]
    refine ⟨fun h _ => h, fun h => ?_⟩
    cases hcall : isTimestampCall word with
    | true => exact h hcall
    | false => exact contained_of_isKeyword hkeyword hcall
  | false =>
    have hcall : isTimestampCall word = false := (Bool.or_eq_false_iff.mp hkeyword).2
    simp only [hcall, Bool.false_or, Bool.false_eq_true, false_implies, true_and, true_implies]
    cases hnumber : isNumber word with
    | true => exact iff_of_true (scan_of_isNumber hnumber _) fun _ => scan_of_isNumber hnumber _
    | false =>
      cases hbrackets : isCall word with
      | true => simpa using contained_bracketed
      | false => simpa using contained_stringLiteral value

theorem copied_calls_break_out :
    ¬ Contained (defaultLiteral "CURRENT_TIMESTAMP(6),x") ∧
      ¬ Contained (defaultLiteral "a)(b)") := by
  decide +kernel

end Schemata.Document.CreateTable
