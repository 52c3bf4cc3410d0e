import Mathlib.Data.List.Forall2
import Schemata.Proofs.Json.Layout

/-!
Well-formed JSON texts, whoever reads them. A string is spelled piece by piece, and a piece is
a character or the sixteen bits that a hexadecimal escape names. A tree is what a text spells,
with its numbers as they are written and its strings still in pieces, since not every row of
pieces makes up a text: half of a surrogate pair does not stand for a character.
-/
namespace Schemata.Json

inductive Piece
  | char (c : Char)
  | unit (code : Nat)
  deriving DecidableEq

inductive SpellsPiece : List Char → Piece → Prop
  | plain {c : Char} (hquote : c ≠ '"') (hslash : c ≠ '\\') (hcontrol : 0x20 ≤ c.toNat) :
      SpellsPiece [c] (.char c)
  | short {c d : Char} (h : shortEscape? c = some d) : SpellsPiece ['\\', c] (.char d)
  | hex {a b c d : Char} {v w x y : Nat} (ha : Text.hexValue? a = some v)
      (hb : Text.hexValue? b = some w) (hc : Text.hexValue? c = some x)
      (hd : Text.hexValue? d = some y) :
      SpellsPiece ['\\', 'u', a, b, c, d] (.unit (16 * (16 * (16 * v + w) + x) + y))

/-- The text of a string between its quotes. -/
inductive Spelled : List Char → List Piece → Prop
  | nil : Spelled [] []
  | cons {s t : List Char} {piece : Piece} {pieces : List Piece} (hpiece : SpellsPiece s piece)
      (h : Spelled t pieces) : Spelled (s ++ t) (piece :: pieces)

/-- The characters that the pieces of a string stand for. Two surrogates in a row are one
character, and a surrogate without its partner is none. -/
def decode : List Piece → Option (List Char)
  | [] => some []
  | .char c :: rest => (decode rest).map (c :: ·)
  | .unit code :: rest =>
    if isLead code then
      match rest with
      | .unit trail :: rest =>
        if isTrail trail then (decode rest).map (pairedChar code trail :: ·) else none
      | _ => none
    else if isTrail code then none
    else (decode rest).map (Char.ofNat code :: ·)

def textOf? (pieces : List Piece) : Option String := (decode pieces).map String.ofList

def Digits (s : List Char) : Prop := s ≠ [] ∧ ∀ c ∈ s, c.isDigit = true

/-- Digits that do not begin with a needless zero. -/
def IsWhole (s : List Char) : Prop := Digits s ∧ (s.head? = some '0' → s = ['0'])

def IsFraction (s : List Char) : Prop := s = [] ∨ ∃ digits, Digits digits ∧ s = '.' :: digits

def IsExponent (s : List Char) : Prop :=
  s = [] ∨ ∃ e sign digits, (e = 'e' ∨ e = 'E') ∧ (sign = [] ∨ sign = ['+'] ∨ sign = ['-']) ∧
    Digits digits ∧ s = e :: (sign ++ digits)

def IsUnsigned (s : List Char) : Prop :=
  ∃ whole fraction exponent, IsWhole whole ∧ IsFraction fraction ∧ IsExponent exponent ∧
    s = whole ++ (fraction ++ exponent)

def IsNumber (s : List Char) : Prop :=
  IsUnsigned s ∨ ∃ unsigned, IsUnsigned unsigned ∧ s = '-' :: unsigned

inductive Tree
  | null
  | boolean (value : Bool)
  | number (written : List Char)
  | string (pieces : List Piece)
  | array (items : List Tree)
  | object (members : List (List Piece × Tree))

/-- A key, a colon and a value, where it is said elsewhere which texts spell a value. -/
inductive SpellsMember (spells : List Char → Tree → Prop) :
    List Char → List Piece × Tree → Prop
  | mk {key blanks blanks' value : List Char} {pieces : List Piece} {tree : Tree}
      (hkey : Spelled key pieces) (hblanks : Blanks blanks) (hblanks' : Blanks blanks')
      (hvalue : spells value tree) :
      SpellsMember spells ('"' :: (key ++ '"' :: (blanks ++ ':' :: (blanks' ++ value))))
        (pieces, tree)

/-- The text is the value, without blanks around it. -/
inductive Spells : List Char → Tree → Prop
  | null : Spells ['n', 'u', 'l', 'l'] .null
  | yes : Spells ['t', 'r', 'u', 'e'] (.boolean true)
  | no : Spells ['f', 'a', 'l', 's', 'e'] (.boolean false)
  | number {s : List Char} (h : IsNumber s) : Spells s (.number s)
  | string {s : List Char} {pieces : List Piece} (h : Spelled s pieces) :
      Spells ('"' :: (s ++ ['"'])) (.string pieces)
  | array {s : List Char} {texts : List (List Char)} {items : List Tree}
      (hlaid : Laid ']' true s texts) (h : List.Forall₂ Spells texts items) :
      Spells ('[' :: s) (.array items)
  | object {s : List Char} {texts : List (List Char)} {members : List (List Piece × Tree)}
      (hlaid : Laid '\x7d' true s texts) (h : List.Forall₂ (SpellsMember Spells) texts members) :
      Spells ('\x7b' :: s) (.object members)

section Texts

variable {s t rest piece : List Char} {tree : Tree}

/-- Characters that need no escape spell themselves. -/
theorem spelled_chars (h : s.all (fun c => c ≠ '"' ∧ c ≠ '\\' ∧ 0x20 ≤ c.toNat) = true) :
    Spelled s (s.map .char) := by
  induction s with
  | nil => exact .nil
  | cons c s ih =>
    rw [List.all_cons, Bool.and_eq_true, decide_eq_true_eq] at h
    obtain ⟨⟨hquote, hslash, hcontrol⟩, hrest⟩ := h
    exact .cons (.plain hquote hslash hcontrol) (ih hrest)

theorem IsUnsigned.exists_digit (h : IsUnsigned s) : ∃ c t, s = c :: t ∧ c.isDigit = true := by
  obtain ⟨whole, fraction, exponent, ⟨⟨hne, hall⟩, _⟩, _, _, rfl⟩ := h
  obtain ⟨c, digits, rfl⟩ := List.exists_cons_of_ne_nil hne
  exact ⟨c, _, rfl, hall c List.mem_cons_self⟩

/-- The text of a value begins neither with a blank nor with a closing bracket, and with the
letter of null only when it is that word. -/
theorem Spells.starts (h : Spells s tree) : ∃ c t, s = c :: t ∧ isBlank c = false ∧ c ≠ ']' ∧
    (c = 'n' → tree = .null) := by
  cases h with
  | null => exact ⟨_, _, rfl, by decide, by decide, fun _ => rfl⟩
  | yes => exact ⟨_, _, rfl, by decide, by decide, fun hc => absurd hc (by decide)⟩
  | no => exact ⟨_, _, rfl, by decide, by decide, fun hc => absurd hc (by decide)⟩
  | number h =>
    rcases h with h | ⟨unsigned, _, rfl⟩
    · obtain ⟨c, t, rfl, hdigit⟩ := h.exists_digit
      refine ⟨c, t, rfl, isBlank_of_isDigit hdigit, ?_, ?_⟩
      · rintro rfl
        cases hdigit
      · rintro rfl
        cases hdigit
    · exact ⟨_, _, rfl, by decide, by decide, fun hc => absurd hc (by decide)⟩
  | string => exact ⟨_, _, rfl, by decide, by decide, fun hc => absurd hc (by decide)⟩
  | array => exact ⟨_, _, rfl, by decide, by decide, fun hc => absurd hc (by decide)⟩
  | object => exact ⟨_, _, rfl, by decide, by decide, fun hc => absurd hc (by decide)⟩

theorem Spells.starts_item (h : Spells s tree) : Starts ']' s := by
  obtain ⟨c, t, hs, hblank, hclose, _⟩ := h.starts
  exact ⟨c, t, hs, hblank, hclose⟩

theorem Spells.starts_value (h : Spells s tree) (htree : tree ≠ .null) : Starts 'n' s := by
  obtain ⟨c, t, hs, hblank, _, hnull⟩ := h.starts
  exact ⟨c, t, hs, hblank, fun hc => htree (hnull hc)⟩

theorem Laid.length_pos {closing : Char} {first : Bool} {texts : List (List Char)}
    (hlaid : Laid closing first s texts) (hfirst : first = false) : 0 < s.length := by
  cases hlaid with
  | close => simp
  | first => cases hfirst
  | next =>
    rw [List.length_append, List.length_cons]
    omega

/-- A value with blanks in front of it. -/
def HoldsValue (s rest : List Char) : Prop :=
  ∃ blanks piece tree, Blanks blanks ∧ Spells piece tree ∧ s = blanks ++ (piece ++ rest)

/-- What is left of a list or an object, with its items in order, up to the closing bracket. -/
def HoldsLaid {α : Type} (closing : Char) (spells : List Char → α → Prop) (first : Bool)
    (s : List Char) (items : List α) (rest : List Char) : Prop :=
  ∃ laid texts, Laid closing first laid texts ∧ List.Forall₂ spells texts items ∧
    s = laid ++ rest

variable {α : Type} {closing : Char} {spells : List Char → α → Prop} {item : α} {items : List α}

theorem HoldsLaid.close {first : Bool} (hs : skipBlanks s = closing :: rest) :
    HoldsLaid closing spells first s [] rest := by
  obtain ⟨blanks, hblanks, rfl⟩ := exists_blanks_of_skipBlanks hs
  exact ⟨blanks ++ [closing], [], .close hblanks, .nil, by simp⟩

theorem HoldsLaid.first {blanks text : List Char} (hblanks : Blanks blanks)
    (hitem : spells text item) (hs : skipBlanks s = blanks ++ (text ++ t))
    (h : HoldsLaid closing spells false t items rest) :
    HoldsLaid closing spells true s (item :: items) rest := by
  obtain ⟨laid, texts, hlaid, hitems, rfl⟩ := h
  obtain ⟨before, hbefore, rfl⟩ := exists_blanks_of_skipBlanks hs
  exact ⟨_, _, .first (hbefore.append hblanks) hlaid, .cons hitem hitems, by simp⟩

theorem HoldsLaid.next {after blanks text : List Char} (hcomma : skipBlanks s = ',' :: after)
    (hblanks : Blanks blanks) (hitem : spells text item) (hs : after = blanks ++ (text ++ t))
    (h : HoldsLaid closing spells false t items rest) :
    HoldsLaid closing spells false s (item :: items) rest := by
  obtain ⟨laid, texts, hlaid, hitems, rfl⟩ := h
  obtain ⟨before, hbefore, rfl⟩ := exists_blanks_of_skipBlanks hcomma
  exact ⟨_, _, .next hbefore hblanks hlaid, .cons hitem hitems, by rw [hs]; simp⟩

theorem HoldsValue.of_token (hs : skipBlanks s = t) (htext : t = piece ++ rest)
    (h : Spells piece tree) : HoldsValue s rest := by
  obtain ⟨blanks, hblanks, rfl⟩ := exists_blanks_of_skipBlanks hs
  exact ⟨blanks, piece, tree, hblanks, h, by rw [htext]⟩

end Texts

end Schemata.Json
