import Mathlib.Data.List.Basic
import Schemata.Proofs.Text.Search
import Schemata.Text.Quoted

/-!
Readers of texts with a fixed form: a word that has to come next, one that may come next, a
literal up to its closing mark, and as many items as there are. Each reads what was written and
leaves the rest.
-/
namespace Schemata.Text

def after? (word : String) (s : List Char) : Option (List Char) := s.dropPrefix? word.toList

theorem after_append (word : String) (rest : List Char) :
    after? word (word.toList ++ rest) = some rest :=
  List.dropPrefix?_append_of_beq rest (beq_self_eq_true _)

/-- The texts differ at a place that both have. -/
def parts : List Char → List Char → Bool
  | c :: s, d :: t => c != d || parts s t
  | _, _ => false

theorem dropPrefix_of_parts {s t : List Char} (h : parts s t = true) (rest : List Char) :
    (t ++ rest).dropPrefix? s = none := by
  induction s generalizing t with
  | nil => simp [parts] at h
  | cons c s ih =>
    cases t with
    | nil => simp [parts] at h
    | cons d t =>
      rw [List.cons_append, List.dropPrefix?]
      by_cases hc : d = c
      · subst hc
        have hrest : parts s t = true := by simpa [parts] using h
        rw [if_pos (beq_self_eq_true d), ih hrest]
      · rw [if_neg (fun heq => hc (beq_iff_eq.mp heq))]

/-- Literal words are compared by their characters. -/
theorem after_ofList {s t : List Char} (h : parts s t = true) (rest : List Char) :
    after? (String.ofList s) ((String.ofList t).toList ++ rest) = none := by
  rw [after?, String.toList_ofList, String.toList_ofList]
  exact dropPrefix_of_parts h rest

/-- Which of two words the text begins with, the first one when it can be either. -/
def either (word other : String) (s : List Char) : Option (Bool × List Char) :=
  match after? word s with
  | some rest => some (true, rest)
  | none => (after? other s).map (false, ·)

theorem either_append (word other : String) (rest : List Char) :
    either word other (word.toList ++ rest) = some (true, rest) := by
  rw [either, after_append]

theorem either_of_none {word other : String} {rest : List Char}
    (h : after? word (other.toList ++ rest) = none) :
    either word other (other.toList ++ rest) = some (false, rest) := by
  rw [either, h, after_append]
  rfl

theorem either_ite {word other : String} {rest : List Char}
    (h : after? word (other.toList ++ rest) = none) (first : Bool) :
    either word other ((if first then word else other).toList ++ rest) = some (first, rest) := by
  cases first with
  | true => exact either_append word other rest
  | false => exact either_of_none h

/-- Whether the text begins with a word that may be left out. -/
def optionally (word : String) : List Char → Option (Bool × List Char) := either word ""

theorem optionally_ite {word : String} {rest : List Char} (h : after? word rest = none)
    (present : Bool) :
    optionally word ((if present then word else "").toList ++ rest) = some (present, rest) :=
  either_ite h present

/-- A line that may be left out is no such word, and neither is what comes behind it. -/
theorem after_ite {word line : String} {rest : List Char}
    (hline : after? word (line.toList ++ rest) = none) (hrest : after? word rest = none)
    (present : Bool) : after? word ((if present then line else "").toList ++ rest) = none := by
  cases present with
  | true => exact hline
  | false => exact hrest

/-- The items that a reader finds, as long as it reads one and leaves less. -/
def many {α : Type} (reader : List Char → Option (α × List Char)) (s : List Char) :
    List α × List Char :=
  match reader s with
  | none => ([], s)
  | some (item, rest) =>
    if rest.length < s.length then (item :: (many reader rest).1, (many reader rest).2)
    else ([], s)
termination_by s.length

theorem many_flatMap {α : Type} {reader : List Char → Option (α × List Char)}
    {written : α → List Char} (hne : ∀ item, written item ≠ []) {items : List α}
    (hitems : ∀ item ∈ items, ∀ rest, reader (written item ++ rest) = some (item, rest))
    {rest : List Char} (hrest : reader rest = none) :
    many reader (items.flatMap written ++ rest) = (items, rest) := by
  induction items with
  | nil => rw [List.flatMap_nil, List.nil_append, many, hrest]
  | cons item items ih =>
    have htail := ih fun other hother => hitems other (List.mem_cons_of_mem _ hother)
    have hshorter : (items.flatMap written ++ rest).length <
        (written item ++ (items.flatMap written ++ rest)).length := by
      have hpos := List.length_pos_iff.mpr (hne item)
      simp only [List.length_append]
      omega
    rw [List.flatMap_cons, List.append_assoc, many, hitems item List.mem_cons_self]
    simp only [if_pos hshorter, htail]

/-- The text of a literal behind its opening mark, with what comes behind the closing one.
A backslash and the character behind it have a meaning together. -/
def literal? (mark : Char) (meaning : Char → List Char) :
    List Char → Option (List Char × List Char)
  | [] => none
  | '\\' :: c :: s =>
    (literal? mark meaning s).map fun (body, rest) => (meaning c ++ body, rest)
  | c :: s => if c = mark then some ([], s) else (literal? mark meaning s).map (prepend c)

theorem literal_escaped {mark : Char} {meaning : Char → List Char} (hmark : mark ≠ '\\')
    (hmeaning : ∀ c, c = '\\' ∨ c = mark → meaning c = [c]) (s rest : List Char) :
    literal? mark meaning (escapedChars mark s ++ mark :: rest) = some (s, rest) := by
  induction s with
  | nil => simp [escapedChars, literal?, hmark]
  | cons c s ih =>
    rw [escapedChars, List.flatMap_cons, ← escapedChars]
    by_cases hc : c = '\\' ∨ c = mark
    · simp [hc, literal?, ih, hmeaning c hc]
    · have hne := not_or.mp hc
      simp [literal?, ih, hne.1, hne.2, prepend]

end Schemata.Text
