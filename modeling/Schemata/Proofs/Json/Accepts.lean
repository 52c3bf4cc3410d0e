import Schemata.Proofs.Json.Meaning
import Schemata.Proofs.Json.Numerals
import Schemata.Proofs.Json.Strings

/-!
Readers against the meaning of trees. A reader accepts a kind of value when it reads every text
of a tree that stands for such a value, and nothing else. Here are the readers of strings,
flags, counts, optional values, variants and lists.
-/
namespace Schemata.Json

variable {α : Type}

structure Accepts (reader : Reader α) (kind : Tree → α → Prop) : Prop where
  reads {piece : List Char} {tree : Tree} {value : α} (hspells : Spells piece tree)
    (hkind : kind tree value) : Reads reader piece value
  holds {s rest : List Char} {value : α} (h : reader s = .ok (value, rest)) :
    ∃ blanks piece tree, Blanks blanks ∧ Spells piece tree ∧ kind tree value ∧
      s = blanks ++ (piece ++ rest)

variable {reader item : Reader α} {kind kind' : Tree → α → Prop} {s t rest : List Char}

theorem Accepts.congr (h : Accepts reader kind)
    (hkinds : ∀ tree value, kind' tree value ↔ kind tree value) : Accepts reader kind' where
  reads hspells hkind := h.reads hspells ((hkinds _ _).mp hkind)
  holds hread := by
    obtain ⟨blanks, piece, tree, hblanks, hspells, hkind, hs⟩ := h.holds hread
    exact ⟨blanks, piece, tree, hblanks, hspells, (hkinds _ _).mpr hkind, hs⟩

theorem textOf_eq_some {pieces : List Piece} {name : String} :
    textOf? pieces = some name ↔ decode pieces = some name.toList := by
  rw [textOf?, Option.map_eq_some_iff]
  constructor
  · rintro ⟨text, hdecode, rfl⟩
    rw [hdecode, String.toList_ofList]
  · intro hdecode
    exact ⟨name.toList, hdecode, String.ofList_toList⟩

namespace Reader

/-- A value of another kind is never taken. -/
theorem refuse_ne_ok (wanted : String) (s : List Char) (value : α) (rest : List Char) :
    refuse wanted s ≠ .ok (value, rest) := by
  intro h
  unfold refuse at h
  split at h
  · cases h
  iterate 5
    · obtain ⟨_, _, h⟩ := exists_of_bind_ok h
      cases h
  · cases h
  · cases h
  · split at h
    · obtain ⟨_, _, h⟩ := exists_of_bind_ok h
      cases h
    · cases h

theorem accepts_stringFor (wanted : String) : Accepts (stringFor wanted) Tree.IsString where
  reads {piece tree value} hspells hkind := by
    intro blanks rest hblanks _
    cases hspells with
    | @string s pieces hspelled =>
      have htext : blanks ++ '"' :: (s ++ ['"']) ++ rest = blanks ++ '"' :: (s ++ '"' :: rest) := by
        simp
      rw [stringFor, htext, skipBlanks_token hblanks (by decide)]
      simp only [readString_of_spelled hspelled (textOf_eq_some.mp hkind), ok_bind,
        String.ofList_toList]
      rfl
    | _ => cases hkind
  holds {s rest value} h := by
    unfold stringFor at h
    split at h
    · rename_i hs
      obtain ⟨⟨text, after⟩, hread, hvalue⟩ := exists_of_bind_ok h
      cases hvalue
      obtain ⟨written, pieces, rfl, hspelled, hdecode⟩ := exists_spelled_of_readString hread
      obtain ⟨blanks, hblanks, rfl⟩ := exists_blanks_of_skipBlanks hs
      have htext : textOf? pieces = some (String.ofList text) := by rw [textOf?, hdecode]; rfl
      exact ⟨blanks, _, _, hblanks, .string hspelled, htext, by simp⟩
    · exact absurd h (refuse_ne_ok _ _ _ _)

theorem accepts_string : Accepts string Tree.IsString := accepts_stringFor "a string"

theorem accepts_flag : Accepts flag Tree.IsFlag where
  reads {piece tree value} hspells hkind := by
    cases hspells with
    | yes =>
      cases hkind
      exact reads_true
    | no =>
      cases hkind
      exact reads_false
    | _ => cases hkind
  holds {s rest value} h := by
    unfold flag at h
    split at h
    · rename_i hs
      obtain ⟨after, hword, hvalue⟩ := exists_of_bind_ok h
      cases hvalue
      obtain ⟨blanks, hblanks, rfl⟩ := exists_blanks_of_skipBlanks hs
      exact ⟨blanks, _, _, hblanks, .yes, rfl, by rw [eq_append_of_readWord hword]; rfl⟩
    · rename_i hs
      obtain ⟨after, hword, hvalue⟩ := exists_of_bind_ok h
      cases hvalue
      obtain ⟨blanks, hblanks, rfl⟩ := exists_blanks_of_skipBlanks hs
      exact ⟨blanks, _, _, hblanks, .no, rfl, by rw [eq_append_of_readWord hword]; rfl⟩
    · exact absurd h (refuse_ne_ok _ _ _ _)

theorem ofNumber_eq_ok {number : JsonNumber} {n : UInt32} (h : ofNumber number s = .ok (n, rest)) :
    number = .natural n.toNat ∧ s = rest := by
  unfold ofNumber at h
  split at h
  · split at h
    · rename_i hsmall
      cases h
      exact ⟨by rw [UInt32.toNat_ofNat_of_lt' hsmall], rfl⟩
    · cases h
  · cases h
  · cases h

/-- Only a whole number without a sign, a fraction or an exponent has digits alone. -/
theorem isWhole_of_isNumber (h : IsNumber s) (hdigits : ∀ c ∈ s, c.isDigit = true) :
    IsWhole s := by
  rcases h with ⟨whole, fraction, exponent, hwhole, hfraction, hexponent, rfl⟩ | ⟨t, _, rfl⟩
  · rcases hfraction with rfl | ⟨digits, _, rfl⟩
    · rcases hexponent with rfl | ⟨e, sign, digits, rfl | rfl, _, _, rfl⟩
      · simpa using hwhole
      · exact absurd (hdigits 'e' (by simp)) (by decide)
      · exact absurd (hdigits 'E' (by simp)) (by decide)
    · exact absurd (hdigits '.' (by simp)) (by decide)
  · exact absurd (hdigits '-' (by simp)) (by decide)

theorem accepts_count : Accepts count Tree.IsCount where
  reads {piece tree value} hspells hkind := by
    cases hspells with
    | number hnumber =>
      obtain ⟨hdigits, hvalue⟩ := hkind
      obtain ⟨⟨hne, _⟩, hzero⟩ := isWhole_of_isNumber hnumber hdigits
      obtain ⟨c, digits, rfl⟩ := List.exists_cons_of_ne_nil hne
      refine reads_digits hdigits (fun hc => ?_) hvalue
      simpa [hc] using hzero
    | _ => cases hkind
  holds {s rest value} h := by
    unfold count at h
    split at h
    · obtain ⟨⟨number, after⟩, hread, hnumber⟩ := exists_of_bind_ok h
      obtain ⟨rfl, rfl⟩ := ofNumber_eq_ok hnumber
      -- even zero is no natural number behind a sign
      exact absurd (exists_whole_of_readNumber hread).1 (by decide)
    · rename_i hs
      split at h
      · obtain ⟨⟨number, after⟩, hread, hnumber⟩ := exists_of_bind_ok h
        obtain ⟨rfl, rfl⟩ := ofNumber_eq_ok hnumber
        obtain ⟨_, digits, hwhole, hvalue, htext⟩ := exists_whole_of_readNumber hread
        rw [htext] at hs
        obtain ⟨blanks, hblanks, rfl⟩ := exists_blanks_of_skipBlanks hs
        have hnumber : IsNumber digits :=
          Or.inl ⟨digits, [], [], hwhole, Or.inl rfl, Or.inl rfl, by simp⟩
        exact ⟨blanks, _, _, hblanks, .number hnumber, ⟨hwhole.1.2, hvalue⟩, rfl⟩
      · exact absurd h (refuse_ne_ok _ _ _ _)
    · exact absurd h (refuse_ne_ok _ _ _ _)

theorem accepts_optional (h : Accepts reader kind) (hnull : ∀ value, ¬ kind .null value) :
    Accepts (optional reader) (Tree.IsOptional kind) where
  reads {piece tree value} hspells hkind := by
    rcases hkind with ⟨rfl, rfl⟩ | ⟨x, rfl, hx⟩
    · cases hspells with
      | null => exact reads_none reader
    · have htree : tree ≠ .null := by
        rintro rfl
        exact hnull x hx
      exact reads_some (hspells.starts_value htree) (h.reads hspells hx)
  holds {s rest value} hread := by
    unfold optional at hread
    split at hread
    · rename_i hs
      obtain ⟨after, hword, hvalue⟩ := exists_of_bind_ok hread
      cases hvalue
      obtain ⟨blanks, hblanks, rfl⟩ := exists_blanks_of_skipBlanks hs
      exact ⟨blanks, _, _, hblanks, .null, Or.inl ⟨rfl, rfl⟩,
        by rw [eq_append_of_readWord hword]; rfl⟩
    · obtain ⟨⟨x, after⟩, hx, hvalue⟩ := exists_of_bind_ok hread
      cases hvalue
      obtain ⟨blanks, piece, tree, hblanks, hspells, hkind, hs⟩ := h.holds hx
      obtain ⟨before, hbefore, rfl⟩ := exists_blanks_of_skipBlanks hs
      exact ⟨before ++ blanks, piece, tree, hbefore.append hblanks, hspells,
        Or.inr ⟨x, rfl, hkind⟩, by simp⟩

section Variants

variable {known : List String} {ofName? : String → Option α}

theorem variantName_eq_ok {value : α} (h : variantName known ofName? s = .ok (value, rest)) :
    ∃ blanks key pieces name, Blanks blanks ∧ Spelled key pieces ∧ textOf? pieces = some name ∧
      ofName? name = some value ∧ s = blanks ++ '"' :: (key ++ '"' :: rest) := by
  unfold variantName at h
  obtain ⟨⟨name, after⟩, hname, hvalue⟩ := exists_of_bind_ok h
  obtain ⟨blanks, piece, tree, hblanks, hspells, hkind, rfl⟩ :=
    (accepts_stringFor "variant identifier").holds hname
  cases hspells with
  | @string key pieces hspelled =>
    dsimp only at hvalue
    split at hvalue
    · rename_i hfound
      cases hvalue
      exact ⟨blanks, key, pieces, name, hblanks, hspelled, hkind, hfound, by simp⟩
    · cases hvalue
  | _ => cases hkind

theorem variantName_append {blanks key : List Char} {pieces : List Piece} {name : String}
    {value : α} (hblanks : Blanks blanks) (hkey : Spelled key pieces)
    (hname : textOf? pieces = some name) (hfound : ofName? name = some value)
    (hrest : EndsNumber rest) :
    variantName known ofName? (blanks ++ '"' :: (key ++ '"' :: rest)) = .ok (value, rest) := by
  have hread := (accepts_stringFor "variant identifier").reads (.string hkey) hname blanks rest
    hblanks hrest
  have htext : blanks ++ '"' :: (key ++ '"' :: rest) = blanks ++ '"' :: (key ++ ['"']) ++ rest := by
    simp
  rw [variantName, htext, hread, ok_bind]
  simp only [hfound]
  rfl

theorem colon_eq_ok (h : colon s = .ok rest) :
    ∃ blanks, Blanks blanks ∧ s = blanks ++ ':' :: rest := by
  unfold colon at h
  split at h
  · cases h
  · rename_i hs
    cases h
    exact exists_blanks_of_skipBlanks hs
  · cases h

theorem null_eq_ok {wanted : String} (h : null wanted s = .ok rest) :
    ∃ blanks, Blanks blanks ∧ s = blanks ++ ("null".toList ++ rest) := by
  unfold null at h
  split at h
  · rename_i hs
    rw [eq_append_of_readWord h] at hs
    exact exists_blanks_of_skipBlanks hs
  · obtain ⟨⟨_, after⟩, hrefuse, _⟩ := exists_of_bind_ok h
    exact absurd hrefuse (refuse_ne_ok _ _ _ _)

theorem reads_variant_string {written : List Char} {pieces : List Piece} {name : String}
    {value : α} (hspelled : Spelled written pieces) (hname : textOf? pieces = some name)
    (hfound : ofName? name = some value) :
    Reads (variant known ofName?) ('"' :: (written ++ ['"'])) value := by
  intro blanks rest hblanks hrest
  have hread : variantName known ofName? _ = _ :=
    variantName_append blanks_nil hspelled hname hfound hrest
  rw [variant, skipBlanks_text hblanks (by decide)]
  simpa using hread

theorem null_append {blanks : List Char} (hblanks : Blanks blanks) (wanted : String)
    (rest : List Char) : null wanted (blanks ++ 'n' :: 'u' :: 'l' :: 'l' :: rest) = .ok rest := by
  rw [null, skipBlanks_token hblanks (by decide)]
  exact readWord_append "ull".toList rest

theorem reads_variant_object {laid : List Char} {texts : List (List Char)} {key : List Piece}
    {name : String} {value : α} (hlaid : Laid '\x7d' true laid texts)
    (hspells : List.Forall₂ (SpellsMember Spells) texts [(key, .null)])
    (hname : textOf? key = some name) (hfound : ofName? name = some value) :
    Reads (variant known ofName?) ('\x7b' :: laid) value := by
  intro blanks rest hblanks _
  obtain _ | ⟨⟨hkey, hbetween, hbehind, hnull⟩, hspells⟩ := hspells
  cases hspells
  cases hnull
  cases hlaid with
  | first hbefore hlaid =>
    cases hlaid with
    | @close _ after hafter =>
      have hread (rest : List Char) (hrest : EndsNumber rest) :
          variantName known ofName? _ = .ok (value, rest) :=
        variantName_append hbefore hkey hname hfound hrest
      have hends : ∀ rest, EndsNumber (_ ++ ':' :: rest) := fun rest =>
        endsNumber_append hbetween (endsNumber_cons (by decide) rest)
      rw [variant, skipBlanks_text hblanks (by decide)]
      simp only [List.append_assoc, List.cons_append, List.nil_append]
      rw [hread _ (hends _)]
      simp only [ok_bind, colon_append hbetween, null_append hbehind]
      rw [skipBlanks_token hafter (by decide)]
      rfl

/-- A variant is known by its name. -/
theorem accepts_variant (known : List String) {name : α → String}
    (hnames : ∀ text value, ofName? text = some value ↔ text = name value) :
    Accepts (variant known ofName?) fun tree value => tree.IsVariant (name value) where
  reads {piece tree value} hspells hname := by
    have hfound : ofName? (name value) = some value := (hnames _ _).mpr rfl
    cases hspells with
    | string hspelled => exact reads_variant_string hspelled hname hfound
    | @object s texts members hlaid hmembers =>
      match members, hname with
      | [(key, .null)], hname => exact reads_variant_object hlaid hmembers hname hfound
    | _ => cases hname
  holds {s rest value} h := by
    unfold variant at h
    split at h
    · cases h
    · rename_i hs
      obtain ⟨blanks, key, pieces, text, hblanks, hkey, hname, hfound, htext⟩ :=
        variantName_eq_ok h
      obtain rfl := (hnames _ _).mp hfound
      rw [htext] at hs
      obtain ⟨before, hbefore, rfl⟩ := exists_blanks_of_skipBlanks hs
      exact ⟨before ++ blanks, _, _, hbefore.append hblanks, .string hkey, hname, by simp⟩
    · rename_i hs
      obtain ⟨⟨found, afterName⟩, hname, hvalue⟩ := exists_of_bind_ok h
      obtain ⟨afterColon, hcolon, hvalue⟩ := exists_of_bind_ok hvalue
      obtain ⟨afterNull, hnull, hend⟩ := exists_of_bind_ok hvalue
      obtain ⟨before, key, pieces, text, hbefore, hkey, htext, hfound, rfl⟩ :=
        variantName_eq_ok hname
      obtain rfl := (hnames _ _).mp hfound
      obtain ⟨between, hbetween, rfl⟩ := colon_eq_ok hcolon
      obtain ⟨behind, hbehind, rfl⟩ := null_eq_ok hnull
      split at hend
      · cases hend
      · rename_i hclose
        cases hend
        obtain ⟨after, hafter, rfl⟩ := exists_blanks_of_skipBlanks hclose
        obtain ⟨blanks, hblanks, rfl⟩ := exists_blanks_of_skipBlanks hs
        have hmember : SpellsMember Spells _ (pieces, .null) := .mk hkey hbetween hbehind .null
        exact ⟨blanks, _, _, hblanks,
          .object (.first hbefore (.close hafter)) (.cons hmember .nil), htext, by simp⟩
      · cases hend
    · cases h

end Variants

section Lists

theorem nextItem_eq_some {first : Bool} (h : nextItem? first s = .ok (some t)) :
    first = true ∧ t = skipBlanks s ∨
      first = false ∧ ∃ after, skipBlanks s = ',' :: after ∧ t = skipBlanks after := by
  unfold nextItem? at h
  split at h
  · cases h
  · cases h
  · rename_i c after hclose hs
    split at h
    · rename_i hfirst
      cases h
      exact Or.inl ⟨hfirst, hs.symm⟩
    · rename_i hfirst
      split at h
      · rename_i hcomma
        subst hcomma
        split at h
        · cases h
        · cases h
        · cases h
          exact Or.inr ⟨Bool.eq_false_iff.mpr hfirst, after, hs, rfl⟩
      · cases h

theorem nextItem_eq_none {first : Bool} (h : nextItem? first s = .ok none) :
    ∃ after, skipBlanks s = ']' :: after := by
  unfold nextItem? at h
  split at h
  · cases h
  · rename_i after hs
    exact ⟨after, hs⟩
  · split at h
    · cases h
    · split at h
      · split at h
        · cases h
        · cases h
        · cases h
      · cases h

theorem endList_eq_ok (h : endList s = .ok rest) : skipBlanks s = ']' :: rest := by
  unfold endList at h
  split at h
  · cases h
  · rename_i hs
    cases h
    exact hs
  · split at h
    · cases h
    · cases h
  · cases h

/-- The text of a value of some kind. -/
def SpellsKind (kind : Tree → α → Prop) (text : List Char) (value : α) : Prop :=
  ∃ tree, Spells text tree ∧ kind tree value

/-- An item of a list has been read with the commas and blanks in front of it. -/
theorem holdsLaid_nextItem {β : Type} {first : Bool} {spells : List Char → β → Prop} {value : β}
    {values : List β} {blanks text after : List Char} (hnext : nextItem? first s = .ok (some t))
    (hblanks : Blanks blanks) (hitem : spells text value) (ht : t = blanks ++ (text ++ after))
    (h : HoldsLaid ']' spells false after values rest) :
    HoldsLaid ']' spells first s (value :: values) rest := by
  rcases nextItem_eq_some hnext with ⟨rfl, hs⟩ | ⟨rfl, behind, hcomma, hs⟩
  · exact .first hblanks hitem (hs.symm.trans ht) h
  · obtain ⟨before, hbefore, hbehind⟩ := exists_blanks_of_skipBlanks (hs.symm.trans ht)
    exact .next hcomma (hbefore.append hblanks) hitem (by rw [hbehind]; simp) h

theorem holdsLaid_of_items (haccepts : Accepts item kind) {steps : Nat} {first : Bool}
    {values : List α} (h : items item steps first s = .ok (values, rest)) :
    HoldsLaid ']' (SpellsKind kind) first s values rest := by
  induction steps generalizing first s values with
  | zero => cases h
  | succ steps ih =>
    rw [items] at h
    obtain ⟨next, hnext, h⟩ := exists_of_bind_ok h
    cases next with
    | none =>
      obtain ⟨after, hend, hvalue⟩ := exists_of_bind_ok h
      cases hvalue
      exact .close (endList_eq_ok hend)
    | some t =>
      obtain ⟨⟨value, after⟩, hitem, h⟩ := exists_of_bind_ok h
      obtain ⟨⟨more, left⟩, hmore, hvalue⟩ := exists_of_bind_ok h
      cases hvalue
      obtain ⟨blanks, piece, tree, hblanks, hspells, hkind, ht⟩ := haccepts.holds hitem
      exact holdsLaid_nextItem hnext hblanks ⟨tree, hspells, hkind⟩ ht (ih hmore)

theorem exists_trees {texts : List (List Char)} {values : List α}
    (h : List.Forall₂ (SpellsKind kind) texts values) :
    ∃ trees, List.Forall₂ Spells texts trees ∧ List.Forall₂ kind trees values := by
  induction h with
  | nil => exact ⟨[], .nil, .nil⟩
  | cons hfirst _ ih =>
    obtain ⟨tree, hspells, hkind⟩ := hfirst
    obtain ⟨trees, htexts, hvalues⟩ := ih
    exact ⟨tree :: trees, .cons hspells htexts, .cons hkind hvalues⟩

theorem readsItems (haccepts : Accepts item kind) {texts : List (List Char)} {trees : List Tree}
    {values : List α} (hspells : List.Forall₂ Spells texts trees)
    (hkinds : List.Forall₂ kind trees values) : List.Forall₂ (ReadsItem item) texts values := by
  induction hspells generalizing values with
  | nil =>
    cases hkinds
    exact .nil
  | cons hfirst _ ih =>
    obtain _ | ⟨hkind, hkinds⟩ := hkinds
    exact .cons ⟨hfirst.starts_item, haccepts.reads hfirst hkind⟩ (ih hkinds)

theorem accepts_list (haccepts : Accepts item kind) :
    Accepts (list item) (Tree.IsList kind) where
  reads {piece tree values} hspells hkind := by
    cases hspells with
    | array hlaid hitems => exact reads_list hlaid (readsItems haccepts hitems hkind)
    | _ => cases hkind
  holds {s rest values} h := by
    unfold list at h
    split at h
    · rename_i hs
      obtain ⟨laid, texts, hlaid, hvalues, rfl⟩ := holdsLaid_of_items haccepts h
      obtain ⟨trees, hspells, hkinds⟩ := exists_trees hvalues
      obtain ⟨blanks, hblanks, rfl⟩ := exists_blanks_of_skipBlanks hs
      exact ⟨blanks, _, _, hblanks, .array hlaid hspells, hkinds, rfl⟩
    · exact absurd h (refuse_ne_ok _ _ _ _)

end Lists

/-- A whole text is a value with blanks around it. -/
theorem whole_eq_ok_iff (haccepts : Accepts reader kind) {value : α} :
    whole reader s = .ok value ↔ ∃ before piece tree after, Blanks before ∧ Blanks after ∧
      Spells piece tree ∧ kind tree value ∧ s = before ++ (piece ++ after) := by
  constructor
  · intro h
    obtain ⟨⟨found, after⟩, hread, hend⟩ := exists_of_bind_ok h
    obtain ⟨before, piece, tree, hbefore, hspells, hkind, rfl⟩ := haccepts.holds hread
    dsimp only at hend
    split at hend
    · rename_i hafter
      cases hend
      obtain ⟨blanks, hblanks, rfl⟩ := exists_blanks_of_skipBlanks hafter
      exact ⟨before, piece, tree, _, hbefore, by simpa using hblanks, hspells, hkind, rfl⟩
    · cases hend
  · rintro ⟨before, piece, tree, after, hbefore, hafter, hspells, hkind, rfl⟩
    have hread := haccepts.reads hspells hkind before after hbefore (endsNumber_of_blanks hafter)
    rw [whole, ← List.append_assoc, hread, ok_bind]
    simp only [skipBlanks_blanks hafter]
    rfl

end Reader

end Schemata.Json
