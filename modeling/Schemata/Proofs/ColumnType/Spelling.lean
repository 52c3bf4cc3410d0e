import Schemata.Proofs.ColumnType.Arguments
import Schemata.Proofs.Text.Parts

/-!
Spellings of one column type. The leading name and the word unsigned are looked for in small
letters and the numbers are written without letters, so that a change of case is not seen.
Blanks around the spelling or around an argument of the first list are taken away before
anything is read, and the word unsigned cannot begin or end beyond such blanks.
-/
namespace Schemata.ColumnType

open Text

theorem leadingName_lower (s : List Char) :
    leadingName (s.map Char.toLower) = (leadingName s).map Char.toLower := by
  have hblank : isBlank ∘ Char.toLower = isBlank := funext isBlank_toLower
  have hname : isNameChar ∘ Char.toLower = isNameChar := funext fun _ => isNameChar_toLower
  rw [leadingName, leadingName, dropBlanks, dropBlanks, List.dropWhile_map, List.takeWhile_map,
    hblank, hname]

theorem argumentText_lower (s : List Char) :
    argumentText? (s.map Char.toLower) = (argumentText? s).map (List.map Char.toLower) := by
  rw [argumentText?, argumentText?, cut_map (toLower_eq_iff (by decide))]
  cases cut ['('] s with
  | none => rfl
  | some parts =>
    simp only [Option.map_some, Option.bind_eq_bind, Option.bind_some,
      cut_map (toLower_eq_iff (c := ')') (by decide))]
    cases cut [')'] parts.2 with
    | none => rfl
    | some _ => rfl

theorem not_isAlpha_of_writes {part : List Char} {n : UInt32} (h : Writes part n) :
    ∀ c ∈ part, c.isAlpha = false := by
  have hblank {s : List Char} (hs : Blanks s) : ∀ c ∈ s, c.isAlpha = false := by
    intro c hc
    have hname := not_isNameChar_of_isBlank (hs c hc)
    rw [isNameChar, Bool.or_eq_false_iff] at hname
    exact hname.1
  obtain ⟨front, sign, digits, back, rfl, hfront, hback, hsign, _, hdigits, _⟩ := h
  intro c hc
  rw [List.mem_append, List.mem_append] at hc
  rcases hc with hc | hc | hc
  · exact hblank hfront c hc
  · rcases char_of_mem_signed hsign hdigits c hc with rfl | hdigit
    · decide
    · rw [isDigit_iff] at hdigit
      rw [← Bool.not_eq_true, isAlpha_iff]
      omega
  · exact hblank hback c hc

/-- A part that is a number in small letters has no letters to change. -/
theorem argument_lower (part : List Char) : argument? (part.map Char.toLower) = argument? part := by
  have hsame (h : ∀ c ∈ part, c.isAlpha = false) : part.map Char.toLower = part :=
    (List.map_congr_left fun c hc => (toLower_eq_iff (h c hc) c).mpr rfl).trans (List.map_id part)
  refine Option.ext fun n => ?_
  rw [argument_eq_some_iff, argument_eq_some_iff]
  constructor
  · intro h
    have hletters : ∀ c ∈ part, c.isAlpha = false := fun c hc =>
      (isAlpha_toLower c).symm.trans (not_isAlpha_of_writes h _ (List.mem_map_of_mem hc))
    rwa [hsame hletters] at h
  · intro h
    rwa [hsame (not_isAlpha_of_writes h)]

theorem arguments_lower (s : List Char) : arguments? (s.map Char.toLower) = arguments? s := by
  have hargument : argument? ∘ List.map Char.toLower = argument? := funext argument_lower
  rw [arguments?, arguments?, argumentText_lower]
  cases argumentText? s with
  | none => rfl
  | some inside =>
    simp only [Option.map_some, Option.bind_eq_bind, Option.bind_some,
      splitOn_map (toLower_eq_iff (c := ',') (by decide)), List.mapM_map, hargument]

theorem ofText_lower (raw : String) : ofText (lower raw) = ofText raw := by
  have hname : lower (String.ofList (leadingName (lower raw).toList)) =
      lower (String.ofList (leadingName raw.toList)) := by
    have hmap (s : List Char) : String.ofList (s.map Char.toLower) = lower (String.ofList s) := by
      rw [← String.toList_inj, lower, String.toList_map, String.toList_ofList, String.toList_ofList]
    have hchars : (lower raw).toList = raw.toList.map Char.toLower := String.toList_map
    rw [hchars, leadingName_lower, hmap, lower_lower]
  have harguments : arguments? (lower raw).toList = arguments? raw.toList := by
    rw [lower, String.toList_map, arguments_lower]
  rw [ofText_eq, ofText_eq, hname, harguments, lower_lower]

theorem ofText_upper (raw : String) : ofText (upper raw) = ofText raw :=
  calc
    ofText (upper raw) = ofText (lower (upper raw)) := (ofText_lower (upper raw)).symm
    _ = ofText (lower raw) := by rw [lower_upper]
    _ = ofText raw := ofText_lower raw

/-- The same part with blanks around it. -/
def Padded (part padded : List Char) : Prop :=
  ∃ front back, Blanks front ∧ Blanks back ∧ padded = front ++ (part ++ back)

theorem Padded.argument_eq {part padded : List Char} (h : Padded part padded) :
    argument? padded = argument? part := by
  obtain ⟨front, back, hfront, hback, rfl⟩ := h
  rw [argument?, argument?, dropBlanks_between hfront hback]

theorem Padded.not_mem {part padded : List Char} (h : Padded part padded) {c : Char}
    (hblank : isBlank c = false) (hc : c ∉ part) : c ∉ padded := by
  obtain ⟨front, back, hfront, hback, rfl⟩ := h
  simp only [List.mem_append, not_or]
  exact ⟨not_mem_of_isBlank hfront hblank, hc, not_mem_of_isBlank hback hblank⟩

/-- Whether the word is in a text, whatever its letter case. -/
def SaysUnsigned (s : List Char) : Prop := "unsigned".toList <:+: s.map Char.toLower

theorem Padded.saysUnsigned_iff {part padded : List Char} (h : Padded part padded) :
    SaysUnsigned padded ↔ SaysUnsigned part := by
  obtain ⟨front, back, hfront, hback, rfl⟩ := h
  have hne : "unsigned".toList ≠ [] := by decide
  rw [SaysUnsigned, List.map_append, List.map_append,
    infix_append_left_iff hne (not_mem_unsigned_of_isBlank hfront),
    infix_append_right_iff hne (not_mem_unsigned_of_isBlank hback)]
  rfl

theorem saysUnsigned_append_cons {c : Char} (h : c.toLower ∉ "unsigned".toList) (s t : List Char) :
    SaysUnsigned (s ++ c :: t) ↔ SaysUnsigned s ∨ SaysUnsigned t := by
  rw [SaysUnsigned, List.map_append, List.map_cons]
  exact infix_append_cons_iff h (by decide)

theorem saysUnsigned_intercalate (parts : List (List Char)) :
    SaysUnsigned ([','].intercalate parts) ↔ ∃ part ∈ parts, SaysUnsigned part := by
  have hcomma : ','.toLower ∉ "unsigned".toList := by decide
  rw [SaysUnsigned, map_intercalate, infix_intercalate_iff hcomma (by decide)]
  simp only [List.mem_map, exists_exists_and_eq_and, SaysUnsigned]

/-- The name ends at the bracket at the latest. -/
theorem leadingName_open (before rest : List Char) :
    leadingName (before ++ '(' :: rest) = leadingName before := by
  have hopen : ('(' :: rest).dropWhile isBlank = '(' :: rest := by
    rw [List.dropWhile_cons_of_neg (by decide)]
  have hname (s : List Char) : (s ++ '(' :: rest).takeWhile isNameChar =
      s.takeWhile isNameChar := by
    rw [List.takeWhile_append, List.takeWhile_cons_of_neg (by decide), List.append_nil,
      ite_eq_right_iff]
    intro hlength
    exact ((List.takeWhile_prefix isNameChar).eq_of_length hlength).symm
  rw [leadingName, leadingName, dropBlanks, dropBlanks, List.dropWhile_append, hopen]
  split
  · rename_i hempty
    rw [List.isEmpty_iff.mp hempty]
    exact hname []
  · exact hname _

section Arguments

variable {inside : List Char} {padded : List (List Char)}
  (hpadded : List.Forall₂ Padded (inside.splitOn ',') padded)
include hpadded

theorem exists_of_mem_padded {part : List Char} (h : part ∈ padded) :
    ∃ whole ∈ inside.splitOn ',', Padded whole part :=
  exists_of_forall₂ hpadded.flip part h

theorem splitOn_padded : ([','].intercalate padded).splitOn ',' = padded := by
  have hparts : ∀ part ∈ padded, ',' ∉ part := by
    intro part hpart
    obtain ⟨whole, hwhole, hpart⟩ := exists_of_mem_padded hpadded hpart
    exact hpart.not_mem (by decide) (not_mem_of_mem_splitOn hwhole)
  have hne : padded ≠ [] := by
    rintro rfl
    exact List.splitOn_ne_nil ',' inside (List.forall₂_nil_right_iff.mp hpadded)
  exact List.splitOn_intercalate ',' hparts hne

theorem saysUnsigned_padded : SaysUnsigned ([','].intercalate padded) ↔ SaysUnsigned inside := by
  have hinside : SaysUnsigned inside ↔ ∃ part ∈ inside.splitOn ',', SaysUnsigned part := by
    rw [← saysUnsigned_intercalate, List.intercalate_splitOn]
  rw [hinside, saysUnsigned_intercalate]
  constructor
  · rintro ⟨part, hpart, hsays⟩
    obtain ⟨whole, hwhole, hpart⟩ := exists_of_mem_padded hpadded hpart
    exact ⟨whole, hwhole, hpart.saysUnsigned_iff.mp hsays⟩
  · rintro ⟨whole, hwhole, hsays⟩
    obtain ⟨part, hpart, hwhole⟩ := exists_of_forall₂ hpadded whole hwhole
    exact ⟨part, hpart, hwhole.saysUnsigned_iff.mpr hsays⟩

theorem not_mem_padded (h : ')' ∉ inside) : ')' ∉ [','].intercalate padded := by
  have hother : ∀ c ∈ [','].intercalate padded, c ≠ ')' := by
    refine forall_mem_intercalate (by simp) fun part hpart c hc => ?_
    obtain ⟨whole, hwhole, hpadding⟩ := exists_of_mem_padded hpadded hpart
    have hwholeClose : ')' ∉ whole := fun hclose => h (mem_of_mem_splitOn hwhole hclose)
    exact ne_of_mem_of_not_mem hc (hpadding.not_mem (by decide) hwholeClose)
  exact fun hclose => hother ')' hclose rfl

/-- Blanks around the arguments of the first list are not read. -/
theorem ofText_of_padded {raw other : String} {before after : List Char}
    (hraw : raw.toList = before ++ '(' :: (inside ++ ')' :: after))
    (hother : other.toList = before ++ '(' :: ([','].intercalate padded ++ ')' :: after))
    (hbefore : '(' ∉ before) (hinside : ')' ∉ inside) : ofText other = ofText raw := by
  have hname : leadingName other.toList = leadingName raw.toList := by
    rw [hraw, hother, leadingName_open, leadingName_open]
  have harguments : arguments? other.toList = arguments? raw.toList := by
    rw [hraw, hother, arguments?, arguments?, argumentText_append_left hbefore,
      argumentText_append_left hbefore, argumentText_bracketed (not_mem_padded hpadded hinside),
      argumentText_bracketed hinside]
    simp only [Option.bind_eq_bind, Option.bind_some, splitOn_padded hpadded]
    exact (mapM_congr (hpadded.imp fun _ _ hpart => hpart.argument_eq.symm)).symm
  have hunsigned : SaysUnsigned other.toList ↔ SaysUnsigned raw.toList := by
    have hopen : '('.toLower ∉ "unsigned".toList := by decide
    have hclose : ')'.toLower ∉ "unsigned".toList := by decide
    simp only [hraw, hother, saysUnsigned_append_cons hopen, saysUnsigned_append_cons hclose,
      saysUnsigned_padded hpadded]
  have hword : contains (lower other) "unsigned" = contains (lower raw) "unsigned" := by
    rw [Bool.eq_iff_iff, contains_lower_iff, contains_lower_iff]
    exact hunsigned
  rw [ofText_eq, ofText_eq, hname, harguments, hword]

end Arguments

/-- A type is the same in capital letters, in small letters and with blanks around it, and also
when there are blanks around the arguments of its first list. -/
theorem ofText_ignores_spelling (raw : String) :
    ofText (upper raw) = ofText raw ∧ ofText (lower raw) = ofText raw ∧
      (∀ other front back, Blanks front → Blanks back →
        other.toList = front ++ (raw.toList ++ back) → ofText other = ofText raw) ∧
      ∀ other before inside after padded,
        raw.toList = before ++ '(' :: (inside ++ ')' :: after) → '(' ∉ before → ')' ∉ inside →
        List.Forall₂ Padded (inside.splitOn ',') padded →
        other.toList = before ++ '(' :: ([','].intercalate padded ++ ')' :: after) →
          ofText other = ofText raw := by
  refine ⟨ofText_upper raw, ofText_lower raw, ?_, ?_⟩
  · intro other front back hfront hback hother
    exact ofText_of_blanks hfront hback hother
  · intro other before inside after padded hraw hbefore hinside hpadded hother
    exact ofText_of_padded hpadded hraw hother hbefore hinside

/-- A list with a sign in it, a second list and a last word. -/
def price : String := "Decimal( +10,2)x(3) Unsigned"

theorem price_in_other_spellings :
    (Blanks "\t\u3000".toList ∧ Blanks "\u0085".toList ∧ '(' ∉ "Decimal".toList ∧
        ')' ∉ " +10,2".toList ∧
        List.Forall₂ Padded (" +10,2".toList.splitOn ',') ["\n +10".toList, "2\u00a0".toList]) ∧
      ofText "DECIMAL( +10,2)X(3) UNSIGNED" = ofText price ∧
      ofText "decimal( +10,2)x(3) unsigned" = ofText price ∧
      ofText "\t\u3000Decimal( +10,2)x(3) Unsigned\u0085" = ofText price ∧
      ofText "Decimal(\n +10,2\u00a0)x(3) Unsigned" = ofText price := by
  have hfront : Blanks "\t\u3000".toList := by simp [Blanks, isBlank]
  have hback : Blanks "\u0085".toList := by simp [Blanks, isBlank]
  have hparts : " +10,2".toList.splitOn ',' = [" +10".toList, "2".toList] := by decide +kernel
  have hfirst : Padded " +10".toList "\n +10".toList :=
    ⟨['\n'], [], by simp [Blanks, isBlank], by simp [Blanks], rfl⟩
  have hsecond : Padded "2".toList "2\u00a0".toList :=
    ⟨[], ['\u00a0'], by simp [Blanks], by simp [Blanks, isBlank], rfl⟩
  have hpadded : List.Forall₂ Padded (" +10,2".toList.splitOn ',')
      ["\n +10".toList, "2\u00a0".toList] := hparts ▸ .cons hfirst (.cons hsecond .nil)
  have hopen : '(' ∉ "Decimal".toList := by decide
  have hclose : ')' ∉ " +10,2".toList := by decide
  obtain ⟨hupper, hlower, hblanks, harguments⟩ := ofText_ignores_spelling price
  refine ⟨⟨hfront, hback, hopen, hclose, hpadded⟩, ?_, ?_, ?_, ?_⟩
  · rw [← hupper]
    exact congrArg ofText (by decide +kernel)
  · rw [← hlower]
    exact congrArg ofText (by decide +kernel)
  · exact hblanks _ _ _ hfront hback (by decide +kernel)
  · exact harguments _ _ _ "x(3) Unsigned".toList _ (by decide +kernel) hopen hclose hpadded
      (by decide +kernel)

end Schemata.ColumnType
