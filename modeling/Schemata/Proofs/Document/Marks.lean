import Mathlib.Data.List.Forall2
import Schemata.Proofs.Text.Letters
import Schemata.Text.Blank
import Schemata.Text.Quoted

/-!
A text read for what stands between marks: identifiers between backticks and strings between
single quotes, with a doubled mark for one of its own inside. Text without marks gives no
token and changes nothing for what follows it. A token that was written with its marks
doubled is read back whole, as long as no further mark follows it directly.
-/
namespace Schemata.Document

inductive Mark
  | backtick
  | quote
  deriving DecidableEq, Repr

namespace Mark

def char : Mark → Char
  | backtick => '\x60'
  | quote => '\''

def ofChar? (c : Char) : Option Mark :=
  if c = backtick.char then some backtick else if c = quote.char then some quote else none

theorem ofChar_char (mark : Mark) : ofChar? mark.char = some mark := by
  cases mark <;> rfl

theorem ne_char_of_ofChar {c : Char} (h : ofChar? c = none) (mark : Mark) : c ≠ mark.char := by
  rintro rfl
  rw [ofChar_char] at h
  cases h

end Mark

structure Token where
  mark : Mark
  text : String
  deriving DecidableEq, Repr

inductive Reading
  | between
  /-- After the opening mark, with the text met so far. -/
  | inside (mark : Mark) (met : List Char)
  /-- After a mark inside, which is the closing one unless it comes twice. -/
  | behind (mark : Mark) (met : List Char)

def Reading.enter (c : Char) : Reading :=
  match Mark.ofChar? c with
  | some mark => .inside mark []
  | none => .between

/-- The tokens of a text, or nothing when one of them is left open. -/
def tokensFrom : Reading → List Char → Option (List Token)
  | .between, [] => some []
  | .inside .., [] => none
  | .behind mark met, [] => some [⟨mark, String.ofList met⟩]
  | .between, c :: s => tokensFrom (.enter c) s
  | .inside mark met, c :: s =>
    if c = mark.char then tokensFrom (.behind mark met) s
    else tokensFrom (.inside mark (met ++ [c])) s
  | .behind mark met, c :: s =>
    if c = mark.char then tokensFrom (.inside mark (met ++ [c])) s
    else (tokensFrom (.enter c) s).map (⟨mark, String.ofList met⟩ :: ·)

def tokens? (text : String) : Option (List Token) := tokensFrom .between text.toList

def textsOf (mark : Mark) (tokens : List Token) : List String :=
  (tokens.filter (·.mark == mark)).map (·.text)

theorem textsOf_cons (mark : Mark) (token : Token) (tokens : List Token) :
    textsOf mark (token :: tokens) =
      if token.mark = mark then token.text :: textsOf mark tokens else textsOf mark tokens := by
  by_cases h : token.mark = mark
  · simp [textsOf, h]
  · simp [textsOf, h]

@[simp] theorem textsOf_append (mark : Mark) (tokens more : List Token) :
    textsOf mark (tokens ++ more) = textsOf mark tokens ++ textsOf mark more := by
  simp [textsOf]

theorem textsOf_flatMap {α : Type} (mark : Mark) (tokensOf : α → List Token) (items : List α) :
    textsOf mark (items.flatMap tokensOf) =
      items.flatMap fun item => textsOf mark (tokensOf item) := by
  induction items with
  | nil => rfl
  | cons item items ih => rw [List.flatMap_cons, List.flatMap_cons, textsOf_append, ih]

theorem textsOf_map_same (mark : Mark) (texts : List String) :
    textsOf mark (texts.map (⟨mark, ·⟩)) = texts := by
  induction texts with
  | nil => rfl
  | cons text texts ih => rw [List.map_cons, textsOf_cons, if_pos rfl, ih]

theorem textsOf_map_other {mark other : Mark} (h : other ≠ mark) (texts : List String) :
    textsOf mark (texts.map (⟨other, ·⟩)) = [] := by
  simp [textsOf, h]

/-- The text holds no mark. -/
def Plain (s : List Char) : Prop := ∀ c ∈ s, Mark.ofChar? c = none

/-- The text does not begin with a mark, so that it cannot go on with a token before it. -/
def Parts (s : List Char) : Prop := ∀ c, s.head? = some c → Mark.ofChar? c = none

instance (s : List Char) : Decidable (Plain s) :=
  decidable_of_iff (s.all (Mark.ofChar? · == none) = true) (by simp [Plain])

theorem Plain.parts {s : List Char} (h : Plain s) : Parts s := by
  intro c hc
  exact h c (List.mem_of_mem_head? hc)

theorem Plain.append {s t : List Char} (hs : Plain s) (ht : Plain t) : Plain (s ++ t) := by
  intro c hc
  rcases List.mem_append.mp hc with hc | hc
  · exact hs c hc
  · exact ht c hc

theorem plain_nil : Plain [] := fun _ h => nomatch h

theorem parts_nil : Parts [] := fun _ h => nomatch h

theorem Parts.append {s t : List Char} (hs : Parts s) (ht : Parts t) : Parts (s ++ t) := by
  cases s with
  | nil => exact ht
  | cons c s => exact fun d hd => hs d hd

/-- A text that comes before another decides how both begin. -/
theorem parts_append_of_ne_nil {s : List Char} (hs : Parts s) (hne : s ≠ []) (t : List Char) :
    Parts (s ++ t) := by
  cases s with
  | nil => exact absurd rfl hne
  | cons c s => exact fun d hd => hs d hd

/-- The code points of the letters of ASCII. -/
def IsLetterCode (code : Nat) : Prop := 65 ≤ code ∧ code ≤ 90 ∨ 97 ≤ code ∧ code ≤ 122

/-- One mark stands before all letters and the other between the capital and the small ones. -/
theorem ofChar_of_isLetterCode {c : Char} (h : IsLetterCode c.toNat) :
    Mark.ofChar? c = none := by
  have hne : ∀ mark : Mark, c ≠ mark.char := by
    rintro mark rfl
    unfold IsLetterCode at h
    cases mark with
    | backtick => exact absurd h (by decide)
    | quote => exact absurd h (by decide)
  simp [Mark.ofChar?, hne]

theorem isLetterCode_of_isAlpha {c : Char} (h : c.isAlpha = true) : IsLetterCode c.toNat :=
  Text.isAlpha_iff.mp h

/-- Only letters change their case, and they stay letters. -/
theorem toUpper_cases (c : Char) :
    c.toUpper = c ∨ IsLetterCode c.toNat ∧ IsLetterCode c.toUpper.toNat := by
  have hcode := Text.toNat_toUpper c
  by_cases hsmall : 97 ≤ c.toNat ∧ c.toNat ≤ 122
  · rw [if_pos hsmall] at hcode
    have hcapital : 65 ≤ c.toUpper.toNat ∧ c.toUpper.toNat ≤ 90 := by omega
    exact Or.inr ⟨Or.inr hsmall, Or.inl hcapital⟩
  · rw [if_neg hsmall] at hcode
    exact Or.inl (Char.toNat_inj.mp hcode)

theorem toLower_cases (c : Char) :
    c.toLower = c ∨ IsLetterCode c.toNat ∧ IsLetterCode c.toLower.toNat := by
  have hcode := Text.toNat_toLower c
  by_cases hcapital : 65 ≤ c.toNat ∧ c.toNat ≤ 90
  · rw [if_pos hcapital] at hcode
    have hsmall : 97 ≤ c.toLower.toNat ∧ c.toLower.toNat ≤ 122 := by omega
    exact Or.inr ⟨Or.inl hcapital, Or.inr hsmall⟩
  · rw [if_neg hcapital] at hcode
    exact Or.inl (Char.toNat_inj.mp hcode)

theorem ofChar_toUpper (c : Char) : Mark.ofChar? c.toUpper = Mark.ofChar? c := by
  rcases toUpper_cases c with hsame | ⟨hletter, hupper⟩
  · rw [hsame]
  · rw [ofChar_of_isLetterCode hupper, ofChar_of_isLetterCode hletter]

theorem ofChar_toLower (c : Char) : Mark.ofChar? c.toLower = Mark.ofChar? c := by
  rcases toLower_cases c with hsame | ⟨hletter, hlower⟩
  · rw [hsame]
  · rw [ofChar_of_isLetterCode hlower, ofChar_of_isLetterCode hletter]

theorem plain_lower {s : String} : Plain (Text.lower s).toList ↔ Plain s.toList := by
  simp [Plain, Text.lower, ofChar_toLower]

theorem plain_upper {s : String} : Plain (Text.upper s).toList ↔ Plain s.toList := by
  simp [Plain, Text.upper, ofChar_toUpper]

theorem mem_of_mem_trim {s : String} {c : Char} (h : c ∈ (Text.trim s).toList) :
    c ∈ s.toList := by
  have hmem : c ∈ Text.dropTrailingBlanks (Text.dropBlanks s.toList) := by
    simpa [Text.trim] using h
  have hfront : c ∈ Text.dropBlanks s.toList :=
    List.mem_reverse.mp ((List.dropWhile_sublist _).subset (List.mem_reverse.mp hmem))
  exact (List.dropWhile_sublist _).subset hfront

theorem plain_trim {s : String} (h : Plain s.toList) : Plain (Text.trim s).toList :=
  fun c hc => h c (mem_of_mem_trim hc)

theorem tokensFrom_plain {s : List Char} (h : Plain s) (rest : List Char) :
    tokensFrom .between (s ++ rest) = tokensFrom .between rest := by
  induction s with
  | nil => rfl
  | cons c s ih =>
    have hc : Reading.enter c = .between := by rw [Reading.enter, h c List.mem_cons_self]
    rw [List.cons_append, tokensFrom, hc]
    exact ih fun d hd => h d (List.mem_cons_of_mem _ hd)

/-- Inside a token every doubled mark stands for one, and a single one leads out of it. -/
theorem tokensFrom_inside (mark : Mark) (met s rest : List Char) :
    tokensFrom (.inside mark met) (Text.doubledChars mark.char s ++ mark.char :: rest) =
      tokensFrom (.behind mark (met ++ s)) rest := by
  induction s generalizing met with
  | nil => simp [Text.doubledChars, tokensFrom]
  | cons c s ih =>
    have htail := ih (met ++ [c])
    rw [List.append_assoc, List.singleton_append] at htail
    rw [← htail, Text.doubledChars, List.flatMap_cons, List.append_assoc]
    by_cases hc : c = mark.char
    · subst hc
      simp [tokensFrom, Text.doubledChars]
    · simp [tokensFrom, Text.doubledChars, hc]

theorem tokensFrom_behind {mark : Mark} {rest : List Char} (h : Parts rest) (met : List Char) :
    tokensFrom (.behind mark met) rest =
      (tokensFrom .between rest).map (⟨mark, String.ofList met⟩ :: ·) := by
  cases rest with
  | nil => rfl
  | cons c rest =>
    have hc : c ≠ mark.char := Mark.ne_char_of_ofChar (h c rfl) mark
    simp only [tokensFrom, if_neg hc]

/-- Outside a token the text gives these tokens, whatever follows that parts from it. -/
def Gives (s : List Char) (tokens : List Token) : Prop :=
  ∀ rest, Parts rest →
    tokensFrom .between (s ++ rest) = (tokensFrom .between rest).map (tokens ++ ·)

theorem Gives.tokensFrom_eq {s : List Char} {tokens : List Token} (h : Gives s tokens) :
    tokensFrom .between s = some tokens := by
  have hnil := h [] parts_nil
  simpa [tokensFrom] using hnil

theorem gives_plain {s : List Char} (h : Plain s) : Gives s [] := by
  intro rest _
  rw [tokensFrom_plain h]
  simp

theorem Gives.plain_append {s t : List Char} {tokens : List Token} (hs : Plain s)
    (ht : Gives t tokens) : Gives (s ++ t) tokens := by
  intro rest hrest
  rw [List.append_assoc, tokensFrom_plain hs, ht rest hrest]

theorem Gives.append {s t : List Char} {tokens more : List Token} (hs : Gives s tokens)
    (ht : Gives t more) (hparts : Parts t) : Gives (s ++ t) (tokens ++ more) := by
  intro rest hrest
  rw [List.append_assoc, hs _ (hparts.append hrest), ht rest hrest, Option.map_map]
  congr 1
  funext others
  exact (List.append_assoc ..).symm

theorem Gives.append_plain {s t : List Char} {tokens : List Token} (hs : Gives s tokens)
    (ht : Plain t) : Gives (s ++ t) tokens := by
  have hboth := hs.append (gives_plain ht) ht.parts
  rwa [List.append_nil] at hboth

def marked (mark : Mark) (s : List Char) : List Char :=
  mark.char :: (Text.doubledChars mark.char s ++ [mark.char])

theorem gives_marked (mark : Mark) (s : String) : Gives (marked mark s.toList) [⟨mark, s⟩] := by
  intro rest hrest
  have henter : Reading.enter mark.char = .inside mark [] := by
    rw [Reading.enter, Mark.ofChar_char]
  have hinside := tokensFrom_inside mark [] s.toList rest
  rw [List.nil_append, tokensFrom_behind hrest, String.ofList_toList] at hinside
  rw [marked, List.cons_append, tokensFrom, henter, List.append_assoc, List.singleton_append,
    hinside]
  rfl

/-- Plain separators keep the tokens of neighbouring texts apart. -/
theorem gives_intercalate {α : Type} {separator : List Char} (hplain : Plain separator)
    (hne : separator ≠ []) {textOf : α → List Char} {tokensOf : α → List Token} {items : List α}
    (h : ∀ item ∈ items, Gives (textOf item) (tokensOf item)) :
    Gives (separator.intercalate (items.map textOf)) (items.flatMap tokensOf) := by
  induction items with
  | nil => exact gives_plain plain_nil
  | cons item items ih =>
    have hfirst := h item List.mem_cons_self
    have hrest := ih fun other hother => h other (List.mem_cons_of_mem _ hother)
    cases items with
    | nil => simpa using hfirst
    | cons next items =>
      have hparts : Parts (separator ++ separator.intercalate ((next :: items).map textOf)) :=
        parts_append_of_ne_nil hplain.parts hne _
      have hall := hfirst.append (Gives.plain_append hplain hrest) hparts
      simpa [List.intercalate_cons_of_ne_nil, List.append_assoc] using hall

end Schemata.Document
