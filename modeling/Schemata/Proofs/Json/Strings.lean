import Schemata.Proofs.Json.Grammar

/-!
Strings as the readers take them. What is read as a string has been spelled, with every
surrogate paired; what is passed over has been spelled too, whatever its surrogates; and
everything that is spelled so is taken.
-/
namespace Schemata.Json

variable {s s' rest text text' written : List Char} {pieces more : List Piece} {piece : Piece}

theorem exists_of_prepend_ok {c : Char} {result : Except Fault (List Char × List Char)}
    (h : (Text.prepend c <$> result) = .ok (text, rest)) :
    ∃ text', text = c :: text' ∧ result = .ok (text', rest) := by
  cases result with
  | error e => cases h
  | ok taken =>
    obtain ⟨text', rest'⟩ := taken
    cases h
    exact ⟨text', rfl, rfl⟩

theorem Spelled.append {t : List Char} (hs : Spelled s pieces) (ht : Spelled t more) :
    Spelled (s ++ t) (pieces ++ more) := by
  induction hs with
  | nil => exact ht
  | cons hpiece _ ih =>
    rw [List.append_assoc]
    exact .cons hpiece ih

theorem Spelled.singleton (h : SpellsPiece s piece) : Spelled s [piece] := by
  simpa using Spelled.cons h .nil

/-- The pieces of a single character. -/
inductive Stands : List Piece → Char → Prop
  | char (c : Char) : Stands [.char c] c
  | unit {code : Nat} (hlead : isLead code = false) (htrail : isTrail code = false) :
      Stands [.unit code] (Char.ofNat code)
  | pair {lead trail : Nat} (hlead : isLead lead = true) (htrail : isTrail trail = true) :
      Stands [.unit lead, .unit trail] (pairedChar lead trail)

theorem Stands.decode_append {c : Char} (h : Stands pieces c) (more : List Piece) :
    decode (pieces ++ more) = (decode more).map (c :: ·) := by
  cases h with
  | char => rfl
  | unit hlead htrail =>
    rw [List.singleton_append, decode.eq_def]
    simp [hlead, htrail]
  | pair hlead htrail => simp [decode, hlead, htrail]

section Scanning

theorem exists_digit_of_readString_hex {lead : Option Nat} {digits value : Nat}
    {result : List Char × List Char} (h : readString (.hex lead digits value) s = .ok result) :
    ∃ c v t, s = c :: t ∧ Text.hexValue? c = some v ∧
      (if digits < 3 then readString (.hex lead (digits + 1) (16 * value + v)) t
        else afterCode lead (16 * value + v) t) = .ok result := by
  cases s with
  | nil => cases h
  | cons c t =>
    rw [readString] at h
    split at h
    · unfold hexFault at h
      dsimp only at h
      split at h
      · cases h
      · cases h
    · rename_i v hv
      exact ⟨c, v, t, rfl, hv, h⟩

/-- An escape that is read has four hexadecimal digits. -/
theorem exists_code_of_readString_hex {lead : Option Nat} {result : List Char × List Char}
    (h : readString (.hex lead 0 0) s = .ok result) :
    ∃ escape code t, s = escape ++ t ∧ SpellsPiece ('\\' :: 'u' :: escape) (.unit code) ∧
      escape.length = 4 ∧ afterCode lead code t = .ok result := by
  obtain ⟨a, v, s₁, rfl, ha, h⟩ := exists_digit_of_readString_hex h
  obtain ⟨b, w, s₂, rfl, hb, h⟩ := exists_digit_of_readString_hex h
  obtain ⟨c, x, s₃, rfl, hc, h⟩ := exists_digit_of_readString_hex h
  obtain ⟨d, y, t, rfl, hd, h⟩ := exists_digit_of_readString_hex h
  rw [if_neg (by decide), Nat.mul_zero, Nat.zero_add] at h
  exact ⟨[a, b, c, d], _, t, rfl, .hex ha hb hc hd, rfl, h⟩

theorem exists_of_readString_lead {code : Nat} {result : List Char × List Char}
    (h : readString (.lead code) s = .ok result) :
    ∃ t, s = '\\' :: 'u' :: t ∧ readString (.hex (some code) 0 0) t = .ok result := by
  cases s with
  | nil => cases h
  | cons c t =>
    rw [readString] at h
    split at h
    · rename_i hslash
      subst hslash
      cases t with
      | nil => cases h
      | cons d t =>
        rw [readString] at h
        split at h
        · rename_i hunicode
          subst hunicode
          exact ⟨t, rfl, h⟩
        · cases h
    · cases h

/-- One character of a string that is read: the text of its pieces comes first, and the string
goes on behind it. -/
def ReadsChar (s text rest : List Char) : Prop :=
  ∃ written pieces c text' s', s = written ++ s' ∧ s'.length < s.length ∧ Spelled written pieces ∧
    Stands pieces c ∧ text = c :: text' ∧ readString .plain s' = .ok (text', rest)

theorem readsChar_of_prepend {c : Char} (hs : s = written ++ s') (hwritten : 0 < written.length)
    (hspelled : Spelled written pieces) (hstands : Stands pieces c)
    (h : (Text.prepend c <$> readString .plain s') = .ok (text, rest)) :
    ReadsChar s text rest := by
  obtain ⟨text', htext, hread⟩ := exists_of_prepend_ok h
  refine ⟨written, pieces, c, text', s', hs, ?_, hspelled, hstands, htext, hread⟩
  rw [hs, List.length_append]
  omega

theorem readsChar_of_escape (h : readString .escape s = .ok (text, rest)) :
    ReadsChar ('\\' :: s) text rest := by
  cases s with
  | nil => cases h
  | cons c t =>
    rw [readString] at h
    split at h
    · rename_i d hshort
      have hspelled : Spelled ['\\', c] [.char d] := .singleton (.short hshort)
      exact readsChar_of_prepend rfl (by simp) hspelled (.char d) h
    · split at h
      · rename_i hunicode
        subst hunicode
        obtain ⟨escape, code, s', rfl, hpiece, hlength, h⟩ := exists_code_of_readString_hex h
        simp only [afterCode] at h
        split at h
        · cases h
        · rename_i htrail
          split at h
          · rename_i hlead
            obtain ⟨s'', rfl, h⟩ := exists_of_readString_lead h
            obtain ⟨escape', code', t, rfl, hpiece', hlength', h⟩ :=
              exists_code_of_readString_hex h
            simp only [afterCode] at h
            split at h
            · rename_i htrail'
              have hspelled := (Spelled.singleton hpiece).append (.singleton hpiece')
              exact readsChar_of_prepend (by simp) (by simp) hspelled (.pair hlead htrail') h
            · cases h
          · rename_i hlead
            have hstands : Stands [.unit code] (Char.ofNat code) :=
              .unit (Bool.eq_false_iff.mpr hlead) (Bool.eq_false_iff.mpr htrail)
            exact readsChar_of_prepend rfl (by simp) (.singleton hpiece) hstands h
      · cases h

theorem readString_plain_cases (h : readString .plain s = .ok (text, rest)) :
    s = '"' :: rest ∧ text = [] ∨ ReadsChar s text rest := by
  cases s with
  | nil => cases h
  | cons c t =>
    rw [readString] at h
    split at h
    · rename_i hquote
      subst hquote
      cases h
      exact Or.inl ⟨rfl, rfl⟩
    · rename_i hquote
      split at h
      · rename_i hslash
        subst hslash
        exact Or.inr (readsChar_of_escape h)
      · rename_i hslash
        split at h
        · cases h
        · rename_i hcontrol
          have hspelled : Spelled [c] [.char c] :=
            .singleton (.plain hquote hslash (Nat.not_lt.mp hcontrol))
          exact Or.inr (readsChar_of_prepend rfl (by simp) hspelled (.char c) h)

/-- What is read as a string has been spelled. -/
theorem exists_spelled_of_readString (h : readString .plain s = .ok (text, rest)) :
    ∃ written pieces, s = written ++ '"' :: rest ∧ Spelled written pieces ∧
      decode pieces = some text := by
  -- by length, since one character may take two escapes off the text
  induction hlength : s.length using Nat.strongRecOn generalizing s text with
  | ind length ih =>
    rcases readString_plain_cases h with ⟨rfl, rfl⟩ |
      ⟨first, pieces, c, text', s', rfl, hshorter, hspelled, hstands, rfl, hread⟩
    · exact ⟨[], [], rfl, .nil, rfl⟩
    · obtain ⟨written, more, rfl, hmore, htext⟩ := ih s'.length (hlength ▸ hshorter) hread rfl
      refine ⟨first ++ written, pieces ++ more, by simp, hspelled.append hmore, ?_⟩
      rw [hstands.decode_append, htext]
      rfl

theorem readString_char_append {c : Char} (h : SpellsPiece s (.char c)) (t : List Char) :
    readString .plain (s ++ t) = Text.prepend c <$> readString .plain t := by
  cases h with
  | plain hquote hslash hcontrol => exact readString_plain t hquote hslash hcontrol
  | short hshort => exact readString_short t hshort

theorem readString_unit_append {code : Nat} (h : SpellsPiece s (.unit code)) (t : List Char) :
    readString .plain (s ++ t) = afterCode none code t := by
  cases h with
  | hex ha hb hc hd => exact readString_hex_append ha hb hc hd none t

theorem readString_trail_append {lead code : Nat} (h : SpellsPiece s (.unit code))
    (t : List Char) : readString (.lead lead) (s ++ t) = afterCode (some lead) code t := by
  cases h with
  | hex ha hb hc hd => exact readString_hex_append ha hb hc hd (some lead) t

/-- What has been spelled with its surrogates in pairs is read. -/
theorem readString_of_spelled (h : Spelled written pieces) (htext : decode pieces = some text)
    (rest : List Char) : readString .plain (written ++ '"' :: rest) = .ok (text, rest) := by
  fun_induction decode pieces generalizing written text with
  | case1 =>
    cases h
    cases htext
    rfl
  | case2 c more ih =>
    obtain _ | ⟨hpiece, hmore⟩ := h
    obtain ⟨text', hdecode, rfl⟩ := Option.map_eq_some_iff.mp htext
    rw [List.append_assoc, readString_char_append hpiece, ih hmore hdecode]
    rfl
  | case3 lead hlead trail more htrail ih =>
    obtain _ | ⟨hpiece, hmore⟩ := h
    obtain _ | ⟨hpiece', hmore⟩ := hmore
    obtain ⟨text', hdecode, rfl⟩ := Option.map_eq_some_iff.mp htext
    -- a lead is no trail, or the first escape would have been refused
    have hnot : isTrail lead = false := by
      simp only [isLead, isTrail, Bool.and_eq_true, decide_eq_true_eq, Bool.and_eq_false_iff,
        decide_eq_false_iff_not] at hlead ⊢
      omega
    rw [List.append_assoc, readString_unit_append hpiece, afterCode, hnot, hlead,
      List.append_assoc]
    simp only [Bool.false_eq_true, if_false, if_true]
    rw [readString_trail_append hpiece', afterCode, htrail]
    simp only [if_true]
    rw [ih hmore hdecode]
    rfl
  | case4 => cases htext
  | case5 => cases htext
  | case6 => cases htext
  | case7 code more hlead htrail ih =>
    obtain _ | ⟨hpiece, hmore⟩ := h
    obtain ⟨text', hdecode, rfl⟩ := Option.map_eq_some_iff.mp htext
    rw [List.append_assoc, readString_unit_append hpiece, afterCode]
    simp only [htrail, hlead]
    rw [ih hmore hdecode]
    rfl

end Scanning

section Skipping

theorem isSome_hexValue (c : Char) :
    Text.isHexDigit c = true ↔ ∃ v, Text.hexValue? c = some v :=
  Option.isSome_iff_exists

theorem exists_digit_of_skipString_hex {digits : Nat} (h : skipString (.hex digits) s = .ok rest) :
    ∃ c v t, s = c :: t ∧ Text.hexValue? c = some v ∧
      skipString (if digits < 3 then .hex (digits + 1) else .plain) t = .ok rest := by
  cases s with
  | nil => cases h
  | cons c t =>
    rw [skipString] at h
    split at h
    · unfold hexFault at h
      dsimp only at h
      split at h
      · cases h
      · cases h
    · rename_i hhex
      obtain ⟨v, hv⟩ := (isSome_hexValue c).mp (by simpa using hhex)
      refine ⟨c, v, t, rfl, hv, ?_⟩
      split at h
      · rename_i hfew
        rw [if_pos hfew]
        exact h
      · rename_i hall
        rw [if_neg hall]
        exact h

theorem skipString_plain_cases (h : skipString .plain s = .ok rest) :
    s = '"' :: rest ∨ ∃ written piece s', s = written ++ s' ∧ s'.length < s.length ∧
      SpellsPiece written piece ∧ skipString .plain s' = .ok rest := by
  cases s with
  | nil => cases h
  | cons c t =>
    rw [skipString] at h
    split at h
    · rename_i hquote
      subst hquote
      cases h
      exact Or.inl rfl
    · rename_i hquote
      right
      split at h
      · rename_i hslash
        subst hslash
        cases t with
        | nil => cases h
        | cons d t =>
          rw [skipString] at h
          split at h
          · rename_i hshort
            obtain ⟨e, he⟩ := Option.isSome_iff_exists.mp hshort
            exact ⟨['\\', d], .char e, t, rfl, by simp only [List.length_cons]; omega, .short he, h⟩
          · split at h
            · rename_i hunicode
              subst hunicode
              obtain ⟨a, v, t, rfl, ha, h⟩ := exists_digit_of_skipString_hex h
              obtain ⟨b, w, t, rfl, hb, h⟩ := exists_digit_of_skipString_hex h
              obtain ⟨c, x, t, rfl, hc, h⟩ := exists_digit_of_skipString_hex h
              obtain ⟨d, y, t, rfl, hd, h⟩ := exists_digit_of_skipString_hex h
              refine ⟨['\\', 'u', a, b, c, d], _, t, rfl, ?_, .hex ha hb hc hd, h⟩
              simp only [List.length_cons]
              omega
            · cases h
      · rename_i hslash
        split at h
        · cases h
        · rename_i hcontrol
          exact ⟨[c], .char c, t, rfl, by simp,
            .plain hquote hslash (Nat.not_lt.mp hcontrol), h⟩

/-- What is passed over as a string has been spelled. -/
theorem exists_spelled_of_skipString (h : skipString .plain s = .ok rest) :
    ∃ written pieces, s = written ++ '"' :: rest ∧ Spelled written pieces := by
  induction hlength : s.length using Nat.strongRecOn generalizing s with
  | ind length ih =>
    rcases skipString_plain_cases h with rfl | ⟨first, piece, s', rfl, hshorter, hpiece, hskip⟩
    · exact ⟨[], [], rfl, .nil⟩
    · obtain ⟨written, more, rfl, hmore⟩ := ih s'.length (hlength ▸ hshorter) hskip rfl
      exact ⟨first ++ written, piece :: more, by simp, .cons hpiece hmore⟩

theorem skipString_piece_append (h : SpellsPiece s piece) (t : List Char) :
    skipString .plain (s ++ t) = skipString .plain t := by
  cases h with
  | @plain c hquote hslash hcontrol =>
    rw [List.singleton_append, skipString, if_neg hquote, if_neg hslash,
      if_neg (Nat.not_lt.mpr hcontrol)]
  | @short c d hshort => simp [skipString, hshort]
  | hex ha hb hc hd =>
    have hdigit : ∀ {c v}, Text.hexValue? c = some v → Text.isHexDigit c = true :=
      fun h => (isSome_hexValue _).mpr ⟨_, h⟩
    simp [skipString, shortEscape?, hdigit ha, hdigit hb, hdigit hc, hdigit hd]

/-- What has been spelled is passed over. -/
theorem skipString_of_spelled (h : Spelled written pieces) (rest : List Char) :
    skipString .plain (written ++ '"' :: rest) = .ok rest := by
  induction h with
  | nil => rfl
  | cons hpiece _ ih => rw [List.append_assoc, skipString_piece_append hpiece, ih]

end Skipping

end Schemata.Json
