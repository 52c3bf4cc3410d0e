import Mathlib.Data.List.Chain
import Schemata.Proofs.Text.Blanks
import Schemata.Proofs.Text.Joined
import Schemata.Proofs.Text.Letters
import Schemata.Proofs.Text.Search

/-!
The words of a text, which stay the same when the blanks between them are others. A text is cut
into words and gaps in one way only; a text of words with single blanks between them has these
words again and no blank too many; and a text whose gaps are collapsed and whose ends are
trimmed has the words that it had. With something else than blanks between them, words become
one word.
-/
namespace Schemata.Text

structure Solid (w : List Char) : Prop where
  ne_nil : w ≠ []
  no_blank : ∀ c ∈ w, isBlank c = false

structure Gap (s : List Char) : Prop where
  ne_nil : s ≠ []
  blanks : Blanks s

theorem Solid.of_all {w : List Char} (hne : w ≠ []) (h : w.all (!isBlank ·) = true) : Solid w :=
  ⟨hne, fun c hc => Bool.not_eq_true' _ ▸ List.all_eq_true.mp h c hc⟩

/-- What may stand behind a word: nothing, or a text that begins with a blank. -/
def Ends (s : List Char) : Prop := ∀ c, s.head? = some c → isBlank c = true

/-- What may stand behind a gap. -/
def Begins (s : List Char) : Prop := ∀ c, s.head? = some c → isBlank c = false

theorem blanks_nil : Blanks [] := fun _ h => nomatch h

theorem Blanks.cons {c : Char} {s : List Char} (h : Blanks s) (hc : isBlank c = true) :
    Blanks (c :: s) :=
  List.forall_mem_cons.mpr ⟨hc, h⟩

theorem Blanks.ends {s : List Char} (h : Blanks s) : Ends s :=
  fun c hc => h c (List.mem_of_mem_head? hc)

theorem Gap.ends_append {gap : List Char} (h : Gap gap) (s : List Char) : Ends (gap ++ s) := by
  obtain ⟨c, gap, rfl⟩ := List.exists_cons_of_ne_nil h.ne_nil
  intro d hd
  rw [← Option.some.inj hd]
  exact h.blanks c List.mem_cons_self

theorem Solid.begins_append {w : List Char} (h : Solid w) (s : List Char) : Begins (w ++ s) := by
  obtain ⟨c, w, rfl⟩ := List.exists_cons_of_ne_nil h.ne_nil
  intro d hd
  rw [← Option.some.inj hd]
  exact h.no_blank c List.mem_cons_self

theorem Solid.of_map_toLower {s w : List Char} (h : Solid w) (hs : s.map Char.toLower = w) :
    Solid s := by
  refine ⟨?_, fun c hc => ?_⟩
  · rintro rfl
    exact h.ne_nil hs.symm
  · rw [← isBlank_toLower]
    exact h.no_blank _ (hs ▸ List.mem_map_of_mem hc)

/-- Two ways to take all characters of a kind from the front of a text are the same. -/
theorem front_inj {p : Char → Bool} {s t s' t' : List Char} (hs : ∀ c ∈ s, p c = true)
    (hs' : ∀ c ∈ s', p c = true) (ht : ∀ c, t.head? = some c → p c = false)
    (ht' : ∀ c, t'.head? = some c → p c = false) (h : s ++ t = s' ++ t') : s = s' ∧ t = t' := by
  -- what one front has more than the other would begin the text behind the other
  have hmore {rest more : List Char} (hfront : ∀ c ∈ more, p c = true)
      (hrest : ∀ c, (more ++ rest).head? = some c → p c = false) : more = [] := by
    cases more with
    | nil => rfl
    | cons c more =>
      have hc := hrest c rfl
      rw [hfront c List.mem_cons_self] at hc
      cases hc
  rcases List.append_eq_append_iff.mp h with ⟨more, rfl, rfl⟩ | ⟨more, rfl, rfl⟩
  · have hnil := hmore (fun c hc => hs' c (List.mem_append_right _ hc)) ht
    simp [hnil]
  · have hnil := hmore (fun c hc => hs c (List.mem_append_right _ hc)) ht'
    simp [hnil]

theorem Solid.append_inj {w w' t t' : List Char} (hw : Solid w) (hw' : Solid w') (ht : Ends t)
    (ht' : Ends t') (h : w ++ t = w' ++ t') : w = w' ∧ t = t' := by
  refine front_inj (p := (!isBlank ·)) (fun c hc => ?_) (fun c hc => ?_) (fun c hc => ?_)
    (fun c hc => ?_) h
  · rw [hw.no_blank c hc, Bool.not_false]
  · rw [hw'.no_blank c hc, Bool.not_false]
  · rw [ht c hc, Bool.not_true]
  · rw [ht' c hc, Bool.not_true]

theorem Blanks.append_inj {gap gap' t t' : List Char} (hgap : Blanks gap) (hgap' : Blanks gap')
    (ht : Begins t) (ht' : Begins t') (h : gap ++ t = gap' ++ t') : gap = gap' ∧ t = t' :=
  front_inj hgap hgap' ht ht' h

/-- A word that a text begins with lies within the first word of the text. -/
theorem Solid.prefix_of_prefix_append {w s rest : List Char} (h : Solid w) (hrest : Ends rest)
    (hw : w <+: s ++ rest) : w <+: s := by
  obtain ⟨more, hmore⟩ := hw
  rcases List.append_eq_append_iff.mp hmore with ⟨part, rfl, _⟩ | ⟨part, rfl, rfl⟩
  · exact List.prefix_append w part
  · cases part with
    | nil => exact ⟨[], List.append_nil _ ▸ List.append_nil _⟩
    | cons c part =>
      have hblank := hrest c rfl
      rw [h.no_blank c (List.mem_append_right _ List.mem_cons_self)] at hblank
      cases hblank

theorem words_append_blank (s t : List Char) {c : Char} (h : isBlank c = true) :
    words (s ++ c :: t) = words s ++ words t := by
  rw [words, List.splitOnP_append_cons s t h, List.filter_append]
  rfl

theorem words_nil : words [] = [] := by
  simp [words]

theorem words_cons_blank {c : Char} (h : isBlank c = true) (s : List Char) :
    words (c :: s) = words s := by
  have hwords := words_append_blank [] s h
  rwa [words_nil, List.nil_append, List.nil_append] at hwords

theorem words_blanks_append {gap : List Char} (h : Blanks gap) (s : List Char) :
    words (gap ++ s) = words s := by
  induction gap with
  | nil => rfl
  | cons c gap ih =>
    rw [List.cons_append, words_cons_blank (h c List.mem_cons_self)]
    exact ih fun d hd => h d (List.mem_cons_of_mem _ hd)

theorem words_append_ends {t : List Char} (h : Ends t) (s : List Char) :
    words (s ++ t) = words s ++ words t := by
  cases t with
  | nil => rw [words_nil, List.append_nil, List.append_nil]
  | cons c t =>
    have hc := h c rfl
    rw [words_append_blank s t hc, words_cons_blank hc]

theorem Solid.words_eq {w : List Char} (h : Solid w) : words w = [w] := by
  rw [words, List.splitOnP_eq_singleton h.no_blank]
  simp [h.ne_nil]

theorem Solid.words_append {w t : List Char} (h : Solid w) (ht : Ends t) :
    words (w ++ t) = w :: words t := by
  rw [words_append_ends ht, h.words_eq, List.singleton_append]

theorem Solid.words_append_gap {w gap : List Char} (h : Solid w) (hgap : Gap gap)
    (s : List Char) : words (w ++ (gap ++ s)) = w :: words s := by
  rw [h.words_append (hgap.ends_append s), words_blanks_append hgap.blanks]

/-- A text that begins with no blank begins with a word. -/
theorem exists_word {c : Char} (h : isBlank c = false) (s : List Char) :
    ∃ w rest, Solid w ∧ Ends rest ∧ c :: s = w ++ rest := by
  obtain ⟨rest, hs, hfront, hrest⟩ := exists_of_before isBlank s
  have hword : ∀ d ∈ c :: before isBlank s, isBlank d = false :=
    List.forall_mem_cons.mpr ⟨h, hfront⟩
  exact ⟨_, rest, ⟨List.cons_ne_nil _ _, hword⟩, hrest, congrArg (List.cons c) hs⟩

theorem exists_of_words_cons {s w : List Char} {ws : List (List Char)} (h : words s = w :: ws) :
    ∃ gap rest, Blanks gap ∧ Solid w ∧ Ends rest ∧ words rest = ws ∧ s = gap ++ (w ++ rest) := by
  induction s with
  | nil =>
    rw [words_nil] at h
    cases h
  | cons c s ih =>
    by_cases hc : isBlank c = true
    · rw [words_cons_blank hc] at h
      obtain ⟨gap, rest, hgap, hw, hrest, hwords, rfl⟩ := ih h
      exact ⟨c :: gap, rest, hgap.cons hc, hw, hrest, hwords, rfl⟩
    · obtain ⟨word, rest, hword, hrest, hs⟩ := exists_word (Bool.not_eq_true _ ▸ hc) s
      rw [hs, hword.words_append hrest] at h
      obtain ⟨rfl, rfl⟩ := List.cons.inj h
      exact ⟨[], rest, blanks_nil, hword, hrest, rfl, hs⟩

/-- The next word behind another one, with the gap between them. -/
theorem Ends.exists_next {t w : List Char} {ws : List (List Char)} (ht : Ends t)
    (h : words t = w :: ws) :
    ∃ gap rest, Gap gap ∧ Solid w ∧ Ends rest ∧ words rest = ws ∧ t = gap ++ (w ++ rest) := by
  obtain ⟨gap, rest, hgap, hw, hrest, hwords, rfl⟩ := exists_of_words_cons h
  refine ⟨gap, rest, ⟨?_, hgap⟩, hw, hrest, hwords, rfl⟩
  rintro rfl
  obtain ⟨c, w, rfl⟩ := List.exists_cons_of_ne_nil hw.ne_nil
  have hblank := ht c rfl
  rw [hw.no_blank c List.mem_cons_self] at hblank
  cases hblank

/-- A text that begins like a word has a first word that begins so. -/
theorem Solid.exists_words_append {w : List Char} (h : Solid w) (s : List Char) :
    ∃ more ws, words (w ++ s) = (w ++ more) :: ws := by
  obtain ⟨c, front, rfl⟩ := List.exists_cons_of_ne_nil h.ne_nil
  obtain ⟨word, rest, hword, hrest, hs⟩ :=
    exists_word (h.no_blank c List.mem_cons_self) (front ++ s)
  obtain ⟨more, rfl⟩ := h.prefix_of_prefix_append hrest ⟨s, hs⟩
  exact ⟨more, words rest, by rw [List.cons_append, hs, hword.words_append hrest]⟩

theorem solid_infix_of_mem_words {s w : List Char} (h : w ∈ words s) : Solid w ∧ w <:+: s := by
  generalize hwords : words s = ws at h
  induction ws generalizing s with
  | nil => cases h
  | cons first ws ih =>
    obtain ⟨gap, rest, _, hfirst, _, hrest, rfl⟩ := exists_of_words_cons hwords
    rcases List.mem_cons.mp h with rfl | h
    · exact ⟨hfirst, gap, rest, List.append_assoc gap w rest⟩
    · obtain ⟨hw, hinfix⟩ := ih hrest h
      have hbehind : rest <:+ gap ++ (first ++ rest) :=
        (List.suffix_append first rest).trans (List.suffix_append gap _)
      exact ⟨hw, hinfix.trans hbehind.isInfix⟩

theorem solid_of_mem_words {s w : List Char} (h : w ∈ words s) : Solid w :=
  (solid_infix_of_mem_words h).1

/-- A text has no words just when all of it is blank. -/
theorem words_eq_nil_iff {s : List Char} : words s = [] ↔ Blanks s := by
  constructor
  · intro h
    induction s with
    | nil => exact blanks_nil
    | cons c s ih =>
      by_cases hc : isBlank c = true
      · rw [words_cons_blank hc] at h
        exact (ih h).cons hc
      · obtain ⟨w, rest, hw, hrest, hs⟩ := exists_word (Bool.not_eq_true _ ▸ hc) s
        rw [hs, hw.words_append hrest] at h
        cases h
  · intro h
    rw [← List.append_nil s, words_blanks_append h, words_nil]

theorem intercalate_ne_nil {separator : List Char} {ws : List (List Char)}
    (h : ∀ w ∈ ws, Solid w) (hne : ws ≠ []) : separator.intercalate ws ≠ [] := by
  obtain ⟨w, ws, rfl⟩ := List.exists_cons_of_ne_nil hne
  rw [intercalate_cons_eq_flatMap]
  exact List.append_ne_nil_of_left_ne_nil (h w List.mem_cons_self).ne_nil _

theorem toList_rejoined (separator : String) (s : List Char) :
    (rejoined separator s).toList = separator.toList.intercalate (words s) := by
  rw [rejoined, String.toList_intercalate, List.map_map]
  simp [Function.comp_def]

theorem rejoined_eq_empty_iff {separator : String} {s : List Char} :
    rejoined separator s = "" ↔ words s = [] := by
  rw [← String.toList_eq_nil_iff, toList_rejoined]
  constructor
  · intro hempty
    by_contra hne
    exact intercalate_ne_nil (fun _ => solid_of_mem_words) hne hempty
  · intro hnone
    rw [hnone]
    rfl

theorem mem_of_mem_rejoined {separator : String} {s : List Char} :
    ∀ c ∈ (rejoined separator s).toList, c ∈ separator.toList ∨ c ∈ s := by
  rw [toList_rejoined]
  refine forall_mem_intercalate (fun _ => Or.inl) fun w hw c hc => Or.inr ?_
  obtain ⟨_, hinfix⟩ := solid_infix_of_mem_words hw
  exact hinfix.subset hc

/-- Words joined by something that has no blank in it make up one word. -/
theorem solid_rejoined {separator : String} (hseparator : ∀ c ∈ separator.toList, isBlank c = false)
    {s : List Char} (h : words s ≠ []) : Solid (rejoined separator s).toList := by
  have hwords : ∀ w ∈ words s, Solid w := fun _ => solid_of_mem_words
  rw [toList_rejoined]
  exact ⟨intercalate_ne_nil hwords h,
    forall_mem_intercalate hseparator fun w hw => (hwords w hw).no_blank⟩

/-- No blank at the ends, and no two of them in a row. -/
structure Tidy (s : List Char) : Prop where
  begins : Begins s
  last : ∀ c, s.getLast? = some c → isBlank c = false
  single : s.IsChain fun c d => isBlank c = false ∨ isBlank d = false

theorem tidy_nil : Tidy [] where
  begins _ hc := nomatch hc
  last _ hc := nomatch hc
  single := .nil

theorem Solid.tidy {w : List Char} (h : Solid w) : Tidy w where
  begins c hc := h.no_blank c (List.mem_of_mem_head? hc)
  last c hc := h.no_blank c (List.mem_of_getLast? hc)
  single := (List.pairwise_of_forall_mem_list fun c hc _ _ => Or.inl (h.no_blank c hc)).isChain

theorem Solid.tidy_append {w t : List Char} (h : Solid w) (ht : Tidy t) (hne : t ≠ []) :
    Tidy (w ++ ' ' :: t) where
  begins := h.begins_append _
  last c hc := by
    rw [← List.singleton_append, ← List.append_assoc, List.getLast?_append_of_ne_nil _ hne] at hc
    exact ht.last c hc
  single := by
    rw [List.isChain_append, List.isChain_cons]
    refine ⟨h.tidy.single, ⟨fun c hc => Or.inr (ht.begins c hc), ht.single⟩, fun c hc _ _ => ?_⟩
    exact Or.inl (h.tidy.last c hc)

section Spaced

variable {ws : List (List Char)} (h : ∀ w ∈ ws, Solid w)
include h

/-- Words with a space between neighbours are read as these words. -/
theorem words_intercalate : words ([' '].intercalate ws) = ws := by
  induction ws with
  | nil => exact words_nil
  | cons w ws ih =>
    obtain ⟨hw, hws⟩ := List.forall_mem_cons.mp h
    cases ws with
    | nil => rw [List.intercalate_singleton, hw.words_eq]
    | cons next ws =>
      rw [List.intercalate_cons_cons, List.append_assoc, List.singleton_append,
        words_append_blank _ _ (by decide), hw.words_eq, ih hws, List.singleton_append]

theorem tidy_intercalate : Tidy ([' '].intercalate ws) := by
  induction ws with
  | nil => exact tidy_nil
  | cons w ws ih =>
    obtain ⟨hw, hws⟩ := List.forall_mem_cons.mp h
    cases ws with
    | nil =>
      rw [List.intercalate_singleton]
      exact hw.tidy
    | cons next ws =>
      rw [List.intercalate_cons_cons, List.append_assoc, List.singleton_append]
      exact hw.tidy_append (ih hws) (intercalate_ne_nil hws (List.cons_ne_nil _ _))

end Spaced

theorem words_rejoined (s : List Char) : words (rejoined " " s).toList = words s := by
  rw [toList_rejoined]
  exact words_intercalate fun _ => solid_of_mem_words

/-- The text with one space for each run of blanks. -/
def collapsed : List Char → List Char
  | [] => []
  | c :: s =>
    if isBlank c then if s.head?.any isBlank then collapsed s else ' ' :: collapsed s
    else c :: collapsed s

/-- What stands before the rest of a text may end with the beginning of a word. -/
theorem words_append_collapsed (front s : List Char) :
    words (front ++ collapsed s) = words (front ++ s) := by
  induction s generalizing front with
  | nil => rfl
  | cons c s ih =>
    rw [collapsed]
    by_cases hc : isBlank c = true
    · rw [if_pos hc, words_append_blank front s hc]
      split
      · rename_i hnext
        have hends : Ends s := by
          intro d hd
          simpa [hd] using hnext
        rw [ih front, words_append_ends hends]
      · rw [words_append_blank front _ (by decide), ← List.nil_append (collapsed s), ih [],
          List.nil_append]
    · rw [if_neg hc, ← List.singleton_append, ← List.append_assoc, ih, List.append_assoc,
        List.singleton_append]

theorem words_trim (s : String) : words (trim s).toList = words s.toList := by
  obtain ⟨front, back, hfront, hback, hs⟩ := exists_blanks_around_trim s
  rw [hs, words_blanks_append hfront, words_append_ends hback.ends, words_eq_nil_iff.mpr hback,
    List.append_nil]

/-- A text with its blanks set right has the words that it had. -/
theorem words_trim_collapsed (s : String) :
    words (trim (String.ofList (collapsed s.toList))).toList = words s.toList := by
  rw [words_trim, String.toList_ofList]
  exact words_append_collapsed [] s.toList

end Schemata.Text
