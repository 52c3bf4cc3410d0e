import Schemata.Document.Literal
import Schemata.Text.Blank

/-!
Scripts read for their strings. A script is code with strings in single quotes and with block
comments, which count for nothing. Inside a string a backslash before a backslash or a quote
stands for that character and any other backslash for itself; a comment ends at the first
star that a slash follows. What was written in single quotes is read back as one string, and
a comment around uncommented text holds all of it.
-/
namespace Schemata.Document.Script

inductive Piece
  | code (c : Char)
  | string (text : String)
  deriving DecidableEq, Repr

inductive Place
  | code
  /-- Behind a slash that may open a comment. -/
  | slash
  /-- In a string, with the text met so far. -/
  | string (met : List Char)
  | escape (met : List Char)
  | comment
  /-- Behind a star that may close the comment. -/
  | star
  deriving DecidableEq, Repr

def unescaped (c : Char) : List Char := if c = '\\' ∨ c = '\'' then [c] else ['\\', c]

def readCode (c : Char) : Place × List Piece :=
  if c = '\'' then (.string [], []) else if c = '/' then (.slash, []) else (.code, [.code c])

def Place.read : Place → Char → Place × List Piece
  | .code, c => readCode c
  | .slash, c =>
    if c = '*' then (.comment, []) else ((readCode c).1, .code '/' :: (readCode c).2)
  | .string met, c =>
    if c = '\'' then (.code, [.string (String.ofList met)])
    else if c = '\\' then (.escape met, [])
    else (.string (met ++ [c]), [])
  | .escape met, c => (.string (met ++ unescaped c), [])
  | .comment, c => if c = '*' then (.star, []) else (.comment, [])
  | .star, c =>
    if c = '/' then (.code, []) else if c = '*' then (.star, []) else (.comment, [])

def scan : Place → List Char → Place × List Piece
  | place, [] => (place, [])
  | place, c :: s =>
    ((scan (place.read c).1 s).1, (place.read c).2 ++ (scan (place.read c).1 s).2)

/-- The pieces of a script, or nothing when a string or a comment is left open. -/
def pieces? (text : String) : Option (List Piece) :=
  match scan .code text.toList with
  | (.code, pieces) => some pieces
  | (.slash, pieces) => some (pieces ++ [.code '/'])
  | _ => none

def Piece.text? : Piece → Option String
  | .code _ => none
  | .string text => some text

def stringsOf (pieces : List Piece) : List String := pieces.filterMap Piece.text?

def codes (s : String) : List Piece := s.toList.map .code

@[simp] theorem codes_append (s t : String) : codes (s ++ t) = codes s ++ codes t := by
  simp [codes]

@[simp] theorem stringsOf_nil : stringsOf [] = [] := rfl

@[simp] theorem stringsOf_append (pieces more : List Piece) :
    stringsOf (pieces ++ more) = stringsOf pieces ++ stringsOf more :=
  List.filterMap_append

@[simp] theorem stringsOf_string (text : String) (pieces : List Piece) :
    stringsOf (.string text :: pieces) = text :: stringsOf pieces := rfl

@[simp] theorem stringsOf_code (c : Char) (pieces : List Piece) :
    stringsOf (.code c :: pieces) = stringsOf pieces := rfl

@[simp] theorem stringsOf_codes (s : String) : stringsOf (codes s) = [] := by
  rw [stringsOf, List.filterMap_eq_nil_iff]
  intro piece hpiece
  obtain ⟨c, _, rfl⟩ := List.mem_map.mp hpiece
  rfl

theorem stringsOf_flatMap {α : Type} (piecesOf : α → List Piece) (items : List α) :
    stringsOf (items.flatMap piecesOf) = items.flatMap fun item => stringsOf (piecesOf item) := by
  induction items with
  | nil => rfl
  | cons item items ih => rw [List.flatMap_cons, List.flatMap_cons, stringsOf_append, ih]

theorem scan_append (place : Place) (s t : List Char) :
    scan place (s ++ t) =
      ((scan (scan place s).1 t).1, (scan place s).2 ++ (scan (scan place s).1 t).2) := by
  induction s generalizing place with
  | nil => simp [scan]
  | cons c s ih => simp only [List.cons_append, scan, ih, List.append_assoc]

/-- The text is read from code to code and gives these pieces. -/
def Scans (s : List Char) (pieces : List Piece) : Prop := scan .code s = (.code, pieces)

theorem Scans.pieces_eq {text : String} {pieces : List Piece} (h : Scans text.toList pieces) :
    pieces? text = some pieces := by
  rw [Scans] at h
  rw [pieces?, h]

theorem scans_nil : Scans [] [] := rfl

theorem Scans.append {s t : List Char} {pieces more : List Piece} (hs : Scans s pieces)
    (ht : Scans t more) : Scans (s ++ t) (pieces ++ more) := by
  rw [Scans] at hs ht ⊢
  rw [scan_append, hs, ht]

theorem scans_flatMap {α : Type} {textOf : α → List Char} {piecesOf : α → List Piece}
    {items : List α} (h : ∀ item ∈ items, Scans (textOf item) (piecesOf item)) :
    Scans (items.flatMap textOf) (items.flatMap piecesOf) := by
  induction items with
  | nil => exact scans_nil
  | cons item items ih =>
    have hfirst := h item List.mem_cons_self
    have hrest := ih fun other hother => h other (List.mem_cons_of_mem _ hother)
    exact hfirst.append hrest

/-- Where a statement or a block of statements ends, or a block begins. -/
def isSeparator : Piece → Bool
  | .code c => c == ';' || c == '\x7b' || c == '\x7d'
  | .string _ => false

def statements (pieces : List Piece) : List (List Piece) := pieces.splitOnP isSeparator

def Piece.isBlank : Piece → Bool
  | .code c => Text.isBlank c
  | .string _ => false

theorem statements_append_separator (pieces more : List Piece) {piece : Piece}
    (h : isSeparator piece = true) :
    statements (pieces ++ piece :: more) = statements pieces ++ statements more :=
  List.splitOnP_append_cons pieces more h

theorem statements_unbroken {pieces : List Piece}
    (h : ∀ piece ∈ pieces, isSeparator piece = false) : statements pieces = [pieces] :=
  List.splitOnP_eq_singleton h

/-- The text is read from code to code and stays within one statement. -/
structure Phrase (s : List Char) (pieces : List Piece) : Prop where
  scans : Scans s pieces
  unbroken : ∀ piece ∈ pieces, isSeparator piece = false

theorem Phrase.append {s t : List Char} {pieces more : List Piece} (hs : Phrase s pieces)
    (ht : Phrase t more) : Phrase (s ++ t) (pieces ++ more) :=
  ⟨hs.scans.append ht.scans, List.forall_mem_append.mpr ⟨hs.unbroken, ht.unbroken⟩⟩

/-- The text holds no mark of a string or a comment, and no separator. -/
def IsCode (s : List Char) : Prop :=
  ∀ c ∈ s, c ≠ '\'' ∧ c ≠ '/' ∧ isSeparator (.code c) = false

instance (s : List Char) : Decidable (IsCode s) := List.decidableBAll _ s

theorem isCode_append {s t : List Char} : IsCode (s ++ t) ↔ IsCode s ∧ IsCode t :=
  List.forall_mem_append

/-- A literal text is looked through by its characters, which decides faster than the text. -/
theorem isCode_ofList {s : List Char} (h : IsCode s) : IsCode (String.ofList s).toList := by
  rwa [String.toList_ofList]

theorem isCode_digit {c : Char} (h : c.isDigit = true) : IsCode [c] := by
  have hne : ∀ d : Char, d.isDigit = false → c ≠ d := by
    rintro d hd rfl
    rw [h] at hd
    cases hd
  intro d hd
  rw [List.mem_singleton.mp hd]
  exact ⟨hne _ (by decide), hne _ (by decide), by
    simp [isSeparator, hne _ (show ';'.isDigit = false by decide),
      hne _ (show '\x7b'.isDigit = false by decide),
      hne _ (show '\x7d'.isDigit = false by decide)]⟩

theorem scans_map_code {s : List Char} (h : IsCode s) : Scans s (s.map .code) := by
  induction s with
  | nil => rfl
  | cons c s ih =>
    obtain ⟨hquote, hslash, _⟩ := h c List.mem_cons_self
    have hs : scan .code s = (.code, s.map .code) := ih fun d hd => h d (List.mem_cons_of_mem _ hd)
    rw [Scans, scan, Place.read, readCode, if_neg hquote, if_neg hslash, hs]
    rfl

theorem Phrase.newLine {s : List Char} {pieces : List Piece} (h : Phrase s pieces) :
    Phrase ('\n' :: s) (.code '\n' :: pieces) := by
  have hbreak : Phrase ['\n'] [.code '\n'] := ⟨rfl, by decide⟩
  exact hbreak.append h

theorem phrase_codes {s : String} (h : IsCode s.toList) : Phrase s.toList (codes s) where
  scans := scans_map_code h
  unbroken := by
    intro piece hpiece
    obtain ⟨c, hc, rfl⟩ := List.mem_map.mp hpiece
    exact (h c hc).2.2

/-- Inside a string every escaped character is read back, and a quote leads out of it. -/
theorem scan_escaped (met s : List Char) :
    scan (.string met) (Text.escapedChars '\'' s ++ ['\'']) =
      (.code, [.string (String.ofList (met ++ s))]) := by
  induction s generalizing met with
  | nil => simp [Text.escapedChars, scan, Place.read]
  | cons c s ih =>
    have htail := ih (met ++ [c])
    rw [List.append_assoc, List.singleton_append] at htail
    rw [← htail, Text.escapedChars, List.flatMap_cons, List.append_assoc]
    by_cases hc : c = '\\' ∨ c = '\''
    · simp [hc, scan, Place.read, unescaped, Text.escapedChars]
    · have hne := not_or.mp hc
      simp [hne, scan, Place.read, Text.escapedChars]

theorem phrase_singleQuoted (s : String) : Phrase (singleQuoted s).toList [.string s] := by
  refine ⟨?_, by simp [isSeparator]⟩
  have hinside := scan_escaped [] s.toList
  rw [List.nil_append, String.ofList_toList] at hinside
  have htext : (singleQuoted s).toList = '\'' :: (Text.escapedChars '\'' s.toList ++ ['\'']) := by
    simp [singleQuoted, Text.escaped]
  rw [Scans, htext, scan, Place.read, readCode, if_pos rfl, hinside]
  rfl

/-- A star and a slash that were parted do not close a comment, and neither does the star
before the text when no slash begins it. -/
theorem scan_uncommented (s : List Char) :
    ∀ place, place = .comment ∨ place = .star ∧ s.head? ≠ some '/' →
      ∃ last, (last = .comment ∨ last = .star) ∧
        scan place (Text.uncommentedChars s) = (last, []) := by
  induction s using Text.uncommentedChars.induct with
  | case1 rest ih =>
    intro place hplace
    obtain ⟨last, hlast, hscan⟩ := ih .comment (Or.inl rfl)
    refine ⟨last, hlast, ?_⟩
    rcases hplace with rfl | ⟨rfl, _⟩
    · simp [Text.uncommentedChars, scan, Place.read, hscan]
    · simp [Text.uncommentedChars, scan, Place.read, hscan]
  | case2 c rest hpair ih =>
    intro place hplace
    have hchars : Text.uncommentedChars (c :: rest) = c :: Text.uncommentedChars rest := by
      rw [Text.uncommentedChars]
      exact hpair
    rw [hchars]
    -- A star with a slash behind it was the first case, so no slash follows a star here.
    by_cases hstar : c = '*'
    · have hhead : rest.head? ≠ some '/' := by
        intro hslash
        obtain ⟨tail, rfl⟩ := List.head?_eq_some_iff.mp hslash
        exact hpair tail hstar rfl
      obtain ⟨last, hlast, hscan⟩ := ih .star (Or.inr ⟨rfl, hhead⟩)
      refine ⟨last, hlast, ?_⟩
      rcases hplace with rfl | ⟨rfl, _⟩
      · simp [scan, Place.read, hstar, hscan]
      · simp [scan, Place.read, hstar, hscan]
    · obtain ⟨last, hlast, hscan⟩ := ih .comment (Or.inl rfl)
      refine ⟨last, hlast, ?_⟩
      rcases hplace with rfl | ⟨rfl, hslash⟩
      · simp [scan, Place.read, hstar, hscan]
      · have hne : c ≠ '/' := fun heq => hslash (by rw [heq, List.head?_cons])
        simp [scan, Place.read, hstar, hne, hscan]
  | case3 =>
    intro place hplace
    exact ⟨place, hplace.imp_right And.left, rfl⟩

theorem phrase_comment (s : String) :
    Phrase (" /* " ++ Text.uncommented s ++ " */").toList (codes " ") := by
  refine ⟨?_, by decide⟩
  obtain ⟨last, hlast, hscan⟩ := scan_uncommented s.toList .comment (Or.inl rfl)
  have hopen : scan .code " /* ".toList = (.comment, codes " ") := by decide
  have hclose : scan last " */".toList = (.code, []) := by
    rcases hlast with rfl | rfl
    · decide
    · decide
  have htext : (" /* " ++ Text.uncommented s ++ " */").toList =
      " /* ".toList ++ (Text.uncommentedChars s.toList ++ " */".toList) := by
    simp [Text.uncommented]
  rw [Scans, htext, scan_append, hopen, scan_append, hscan, hclose]
  rfl

end Schemata.Document.Script
