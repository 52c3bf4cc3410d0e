import Schemata.Catalogue.Extra
import Schemata.Proofs.Text.Words

/-!
How attributes are cut into pieces, told without words. A piece has one of four forms, which
are tried in their order at every place of the text from left to right: the first form that
fits counts, and of the pieces that it fits to the longest. A text is cut in one way only, and
the words of what is found are the pieces that are read word by word.
-/
namespace Schemata.Catalogue

open Text

inductive Form
  | updateRule
  | virtualMark
  | storedMark
  | word
  deriving DecidableEq, Repr

/-- The place of the form among those that are tried. -/
def Form.rank : Form → Nat
  | updateRule => 0
  | virtualMark => 1
  | storedMark => 2
  | word => 3

/-- The words that phrases are made of, besides the rule of an update. -/
inductive Keyword
  | on
  | update
  | virtual
  | stored
  | generated

def Keyword.text : Keyword → String
  | on => "on"
  | update => "update"
  | virtual => "virtual"
  | stored => "stored"
  | generated => "generated"

/-- Small, capital, or the long form that the letter s has besides. -/
def IsLetter (letter c : Char) : Prop :=
  c = letter ∨ c = letter.toUpper ∨ letter = 's' ∧ c = 'ſ'

def Spells (keyword : Keyword) (s : List Char) : Prop :=
  List.Forall₂ IsLetter keyword.text.toList s

def IsMark (keyword : Keyword) (s : List Char) : Prop :=
  ∃ name gap mark, s = name ++ (gap ++ mark) ∧
    Spells keyword name ∧ Gap gap ∧ Spells .generated mark

def IsUpdateRule (s : List Char) : Prop :=
  ∃ on gap update between rule, s = on ++ (gap ++ (update ++ (between ++ rule))) ∧
    Spells .on on ∧ Gap gap ∧ Spells .update update ∧ Gap between ∧ Solid rule

def Form.Fits : Form → List Char → Prop
  | updateRule => IsUpdateRule
  | virtualMark => IsMark .virtual
  | storedMark => IsMark .stored
  | word => Solid

structure Found where
  form : Form
  text : List Char

/-- What is found at the front of a text, with this rest behind it. -/
structure Found.Leads (found : Found) (rest : List Char) : Prop where
  fits : found.form.Fits found.text
  first : ∀ (form : Form) s, form.rank < found.form.rank → s <+: found.text ++ rest → ¬form.Fits s
  longest : ∀ s, s <+: found.text ++ rest → found.form.Fits s → s.length ≤ found.text.length

/-- All that is found in a text, from left to right. -/
inductive Finds : List Char → List Found → Prop
  | nil : Finds [] []
  | skip {c : Char} {s : List Char} {more : List Found}
    (hnone : ∀ (form : Form) t, t <+: c :: s → ¬form.Fits t) (hmore : Finds s more) :
    Finds (c :: s) more
  | take {found : Found} {rest : List Char} {more : List Found} (hleads : found.Leads rest)
    (hmore : Finds rest more) : Finds (found.text ++ rest) (found :: more)

theorem Keyword.text_ne_empty (keyword : Keyword) : keyword.text ≠ "" := by
  cases keyword <;> decide

/-- Keywords are written in small letters. -/
theorem Keyword.letters (keyword : Keyword) {c : Char} (h : c ∈ keyword.text.toList) :
    97 ≤ c.toNat ∧ c.toNat ≤ 122 := by
  have hall : keyword.text.toList.all (fun c => 97 ≤ c.toNat && c.toNat ≤ 122) = true := by
    cases keyword <;> rfl
  have hc := List.all_eq_true.mp hall c h
  rwa [Bool.and_eq_true, decide_eq_true_iff, decide_eq_true_iff] at hc

theorem isLetter_iff {letter c : Char} (h : 97 ≤ letter.toNat ∧ letter.toNat ≤ 122) :
    foldedLetter c = letter ↔ IsLetter letter c := by
  unfold foldedLetter IsLetter
  by_cases hlong : c = 'ſ'
  · subst hlong
    have hcode : ('ſ' : Char).toNat = 383 := rfl
    have hsmall : 'ſ' ≠ letter := by
      rintro rfl
      omega
    have hcapital : 'ſ' ≠ letter.toUpper := by
      intro heq
      have hupper := toNat_toUpper letter
      rw [← heq, if_pos h] at hupper
      omega
    simp [hsmall, hcapital, eq_comm]
  · have hlower := toNat_toLower c
    have hupper := toNat_toUpper letter
    rw [if_pos h] at hupper
    simp only [hlong, if_false, and_false, or_false, ← Char.toNat_inj, hlower, hupper]
    split_ifs <;> omega

theorem spells_iff {keyword : Keyword} {s : List Char} :
    Spells keyword s ↔ s.map foldedLetter = keyword.text.toList := by
  have hletters : ∀ c ∈ keyword.text.toList, 97 ≤ c.toNat ∧ c.toNat ≤ 122 :=
    fun _ => keyword.letters
  rw [Spells]
  generalize keyword.text.toList = letters at hletters ⊢
  induction letters generalizing s with
  | nil => simp
  | cons letter letters ih =>
    obtain ⟨hletter, hrest⟩ := List.forall_mem_cons.mp hletters
    cases s with
    | nil => simp
    | cons c s =>
      rw [List.forall₂_cons, List.map_cons, List.cons.injEq, ← isLetter_iff hletter]
      exact and_congr_right fun _ => ih hrest

theorem isWord_iff (keyword : Keyword) {s : List Char} :
    isWord keyword.text s = true ↔ Spells keyword s := by
  rw [isWord, beq_iff_eq, spells_iff]

theorem Spells.solid {keyword : Keyword} {s : List Char} (h : Spells keyword s) : Solid s := by
  have hfolded := spells_iff.mp h
  refine ⟨?_, fun c hc => ?_⟩
  · rintro rfl
    exact keyword.text_ne_empty (String.toList_eq_nil_iff.mp hfolded.symm)
  · have hmem : foldedLetter c ∈ keyword.text.toList := hfolded ▸ List.mem_map_of_mem hc
    have hcode := keyword.letters hmem
    rw [← Bool.not_eq_true]
    intro hblank
    have hlong : c ≠ 'ſ' := by
      rintro rfl
      cases hblank
    rw [foldedLetter, if_neg hlong] at hcode
    rw [← isBlank_toLower] at hblank
    simp only [isBlank, Bool.or_eq_true, Bool.and_eq_true, decide_eq_true_eq, beq_iff_eq] at hblank
    omega

theorem Spells.length_eq {keyword : Keyword} {s : List Char} (h : Spells keyword s) :
    s.length = keyword.text.length := by
  rw [← String.length_toList, List.Forall₂.length_eq h]

theorem splitGenerated_eq_some_iff {s mark rest : List Char} :
    splitGenerated? s = some (mark, rest) ↔ s = mark ++ rest ∧ Spells .generated mark := by
  have hgenerated : Keyword.generated.text.toList = generated := rfl
  rw [spells_iff, hgenerated, splitGenerated?]
  constructor
  · intro h
    split at h
    · rename_i hfirst
      have hprefix := List.isPrefixOf_iff_prefix.mp hfirst
      obtain ⟨rfl, rfl⟩ := Prod.mk.inj (Option.some.inj h)
      rw [List.map_take]
      exact ⟨(List.take_append_drop _ s).symm, (List.prefix_iff_eq_take.mp hprefix).symm⟩
    · cases h
  · rintro ⟨rfl, hmark⟩
    have hlength : mark.length = generated.length := by
      rw [← hmark, List.length_map]
    have hfirst : generated.isPrefixOf ((mark ++ rest).map foldedLetter) = true := by
      rw [List.map_append, hmark, List.isPrefixOf_iff_prefix]
      exact List.prefix_append _ _
    rw [if_pos hfirst, ← hlength, List.take_left, List.drop_left]

/-- What fits a form begins with a word. -/
theorem Form.Fits.exists_word {form : Form} {s : List Char} (h : form.Fits s) :
    ∃ w rest, Solid w ∧ s = w ++ rest := by
  cases form with
  | updateRule =>
    obtain ⟨on, _, _, _, _, rfl, hon, _⟩ := h
    exact ⟨on, _, hon.solid, rfl⟩
  | virtualMark =>
    obtain ⟨name, _, _, rfl, hname, _⟩ := h
    exact ⟨name, _, hname.solid, rfl⟩
  | storedMark =>
    obtain ⟨name, _, _, rfl, hname, _⟩ := h
    exact ⟨name, _, hname.solid, rfl⟩
  | word => exact ⟨s, [], h, (List.append_nil s).symm⟩

theorem Form.Fits.ne_nil {form : Form} {s : List Char} (h : form.Fits s) : s ≠ [] := by
  obtain ⟨w, rest, hw, rfl⟩ := h.exists_word
  exact fun hnil => hw.ne_nil (List.append_eq_nil_iff.mp hnil).1

theorem not_fits_of_isBlank {c : Char} (h : isBlank c = true) {s t : List Char}
    (ht : t <+: c :: s) (form : Form) : ¬form.Fits t := by
  intro hfits
  obtain ⟨w, rest, hw, rfl⟩ := hfits.exists_word
  obtain ⟨d, w, rfl⟩ := List.exists_cons_of_ne_nil hw.ne_nil
  obtain ⟨rfl, _⟩ := List.cons_prefix_cons.mp ht
  rw [hw.no_blank d List.mem_cons_self] at h
  cases h

theorem Form.rank_inj {form other : Form} : form.rank = other.rank → form = other := by
  cases form <;> cases other <;> decide

/-- Of two pieces at the front of one text neither has an earlier form or is longer. -/
theorem Found.Leads.unique {found other : Found} {rest rest' : List Char} (h : found.Leads rest)
    (h' : other.Leads rest') (htext : found.text ++ rest = other.text ++ rest') :
    found = other ∧ rest = rest' := by
  have hfront : found.text <+: other.text ++ rest' := htext ▸ List.prefix_append _ _
  have hfront' : other.text <+: found.text ++ rest := htext ▸ List.prefix_append _ _
  have hform : found.form = other.form := by
    rcases Nat.lt_trichotomy found.form.rank other.form.rank with hlt | heq | hgt
    · exact absurd h.fits (h'.first _ _ hlt hfront)
    · exact Form.rank_inj heq
    · exact absurd h'.fits (h.first _ _ hgt hfront')
  have hle := h'.longest _ hfront (hform ▸ h.fits)
  have hge := h.longest _ hfront' (hform ▸ h'.fits)
  obtain ⟨hsame, hrest⟩ := List.append_inj htext (Nat.le_antisymm hle hge)
  cases found
  cases other
  cases hform
  cases hsame
  exact ⟨rfl, hrest⟩

theorem Finds.unique {s : List Char} {found other : List Found} (h : Finds s found)
    (h' : Finds s other) : found = other := by
  induction h generalizing other with
  | nil =>
    generalize hs : ([] : List Char) = s at h'
    cases h' with
    | nil => rfl
    | skip => cases hs
    | take hleads _ => exact absurd (List.append_eq_nil_iff.mp hs.symm).1 hleads.fits.ne_nil
  | @skip c s more hnone _ ih =>
    generalize hs : c :: s = t at h'
    cases h' with
    | nil => cases hs
    | skip _ hmore =>
      cases hs
      exact ih hmore
    | take hleads _ => exact absurd hleads.fits (hnone _ _ (hs ▸ List.prefix_append _ _))
  | @take found rest more hleads _ ih =>
    generalize hs : found.text ++ rest = t at h'
    cases h' with
    | nil => exact absurd (List.append_eq_nil_iff.mp hs).1 hleads.fits.ne_nil
    | skip hnone _ => exact absurd hleads.fits (hnone _ _ (hs ▸ List.prefix_append _ _))
    | take hleads' hmore' =>
      obtain ⟨rfl, rfl⟩ := hleads.unique hleads' hs
      rw [ih hmore']

section Front

/-! A text that begins with a whole word, and what fits there. -/

variable {word tail s : List Char} (hword : Solid word) (htail : Ends tail)
  (hs : s <+: word ++ tail)
include hword htail hs

theorem IsUpdateRule.parts (h : IsUpdateRule s) :
    ∃ gap update between rule rest, s = word ++ (gap ++ (update ++ (between ++ rule))) ∧
      tail = gap ++ (update ++ (between ++ (rule ++ rest))) ∧ Spells .on word ∧ Gap gap ∧
      Spells .update update ∧ Gap between ∧ Solid rule := by
  obtain ⟨on, gap, update, between, rule, rfl, hon, hgap, hrest⟩ := h
  obtain ⟨rest, hrest'⟩ := hs
  simp only [List.append_assoc] at hrest'
  obtain ⟨rfl, rfl⟩ := hon.solid.append_inj hword
    (hgap.ends_append _) htail hrest'
  exact ⟨gap, update, between, rule, rest, rfl, rfl, hon, hgap, hrest⟩

theorem IsMark.parts {keyword : Keyword} (h : IsMark keyword s) :
    ∃ gap mark rest, s = word ++ (gap ++ mark) ∧ tail = gap ++ (mark ++ rest) ∧
      Spells keyword word ∧ Gap gap ∧ Spells .generated mark := by
  obtain ⟨first, gap, mark, rfl, hfirst, hgap, hmark⟩ := h
  obtain ⟨rest, hrest⟩ := hs
  simp only [List.append_assoc] at hrest
  obtain ⟨rfl, rfl⟩ := hfirst.solid.append_inj hword
    (hgap.ends_append _) htail hrest
  exact ⟨gap, mark, rest, rfl, rfl, hfirst, hgap, hmark⟩

end Front

/-- A text spells keywords of one length. -/
theorem Spells.length_inj {keyword other : Keyword} {s : List Char} (h : Spells keyword s)
    (h' : Spells other s) : keyword.text.length = other.text.length :=
  h.length_eq.symm.trans h'.length_eq

theorem leads_updateRule {on gap update between rule rest : List Char} (hon : Spells .on on)
    (hgap : Gap gap) (hupdate : Spells .update update) (hbetween : Gap between)
    (hrule : Solid rule) (hrest : Ends rest) :
    (⟨.updateRule, on ++ (gap ++ (update ++ (between ++ rule)))⟩ : Found).Leads rest where
  fits := ⟨on, gap, update, between, rule, rfl, hon, hgap, hupdate, hbetween, hrule⟩
  first _ _ hlt := absurd hlt (Nat.not_lt_zero _)
  longest s hs hfits := by
    simp only [List.append_assoc] at hs
    have hends := hgap.ends_append (update ++ (between ++ (rule ++ rest)))
    obtain ⟨gap', update', between', rule', rest', rfl, htail, -, hgap', hupdate', hbetween',
      hrule'⟩ := IsUpdateRule.parts hon.solid hends hs hfits
    have hword := hupdate.solid
    have hword' := hupdate'.solid
    obtain ⟨rfl, hbehindGap⟩ := hgap.blanks.append_inj hgap'.blanks (hword.begins_append _)
      (hword'.begins_append _) htail
    obtain ⟨rfl, hbehindWord⟩ := hword.append_inj hword' (hbetween.ends_append _)
      (hbetween'.ends_append _) hbehindGap
    obtain ⟨rfl, hbehind⟩ := hbetween.blanks.append_inj hbetween'.blanks (hrule.begins_append _)
      (hrule'.begins_append _) hbehindWord
    have hle := (hrule'.prefix_of_prefix_append hrest ⟨rest', hbehind.symm⟩).length_le
    simp only [List.length_append]
    omega

section Mark

variable {word name gap mark : List Char}

/-- Marks with the same first word are of one length. -/
theorem IsMark.length_eq {keyword : Keyword} (hname : Spells keyword name)
    (hgap : Gap gap) (hmark : Spells .generated mark) {rest s : List Char}
    (hs : s <+: (name ++ (gap ++ mark)) ++ rest) (h : IsMark keyword s) :
    s.length = (name ++ (gap ++ mark)).length := by
  simp only [List.append_assoc] at hs
  obtain ⟨gap', mark', rest', rfl, htail, -, hgap', hmark'⟩ :=
    IsMark.parts hname.solid (hgap.ends_append _) hs h
  obtain ⟨rfl, -⟩ := hgap.blanks.append_inj hgap'.blanks (hmark.solid.begins_append _)
    (hmark'.solid.begins_append _) htail
  simp only [List.length_append, hmark.length_eq, hmark'.length_eq]

theorem exists_leads_mark (hname : Spells .virtual name ∨ Spells .stored name)
    (hgap : Gap gap) (hmark : Spells .generated mark) (rest : List Char) :
    ∃ form, (⟨form, name ++ (gap ++ mark)⟩ : Found).Leads rest := by
  have hends := hgap.ends_append (mark ++ rest)
  have hfront {s : List Char} (hs : s <+: (name ++ (gap ++ mark)) ++ rest) :
      s <+: name ++ (gap ++ (mark ++ rest)) := by
    simpa only [List.append_assoc] using hs
  rcases hname with hname | hname
  · have hsolid := hname.solid
    refine ⟨.virtualMark, ⟨name, gap, mark, rfl, hname, hgap, hmark⟩, fun form s hlt hs hfits => ?_,
      fun s hs hfits => (IsMark.length_eq hname hgap hmark hs hfits).le⟩
    have hlt : form.rank < Form.rank .virtualMark := hlt
    cases form with
    | updateRule =>
      obtain ⟨_, _, _, _, _, -, -, hon, -⟩ := IsUpdateRule.parts hsolid hends (hfront hs) hfits
      exact absurd (hon.length_inj hname) (by decide)
    | virtualMark | storedMark | word => exact absurd hlt (by decide)
  · have hsolid := hname.solid
    refine ⟨.storedMark, ⟨name, gap, mark, rfl, hname, hgap, hmark⟩, fun form s hlt hs hfits => ?_,
      fun s hs hfits => (IsMark.length_eq hname hgap hmark hs hfits).le⟩
    have hlt : form.rank < Form.rank .storedMark := hlt
    cases form with
    | updateRule =>
      obtain ⟨_, _, _, _, _, -, -, hon, -⟩ := IsUpdateRule.parts hsolid hends (hfront hs) hfits
      exact absurd (hon.length_inj hname) (by decide)
    | virtualMark =>
      obtain ⟨_, _, _, -, -, hvirtual, -⟩ :=
        IsMark.parts hsolid hends (hfront hs) hfits
      exact absurd (hvirtual.length_inj hname) (by decide)
    | storedMark | word => exact absurd hlt (by decide)

end Mark

/-- What the pieces read word by word begin with: the words of the first piece, and the words
that are left for the others. -/
inductive Cut (word : Word) : List Word → List Word → List Word → Prop
  | rule {update rule : Word} {more : List Word} (hon : isWord "on" word = true)
    (hupdate : isWord "update" update = true) :
    Cut word (update :: rule :: more) [word, update, rule] more
  | mark {next mark rest : Word} {more : List Word} (hname : startsGenerated word = true)
    (hnext : splitGenerated? next = some (mark, rest)) :
    Cut word (next :: more) [word, mark] (words rest ++ more)
  | word {more : List Word}
    (hrule : ∀ update rule rest, more = update :: rule :: rest →
      ¬(isWord "on" word = true ∧ isWord "update" update = true))
    (hmark : ∀ next rest, more = next :: rest → startsGenerated word = true →
      splitGenerated? next = none) :
    Cut word more [word] more

/-- The pieces of a row of words. -/
def piecesOf : List Word → List (List Word)
  | [] => []
  | word :: rest => piecesFrom word rest

theorem pieces_eq (extra : String) : pieces extra = piecesOf (words extra.toList) := by
  rw [pieces]
  cases words extra.toList with
  | nil => rfl
  | cons word rest => rfl

theorem startsGenerated_iff {s : Word} :
    startsGenerated s = true ↔ Spells .virtual s ∨ Spells .stored s := by
  rw [startsGenerated, Bool.or_eq_true]
  exact or_congr (isWord_iff .virtual) (isWord_iff .stored)

theorem not_startsGenerated {s : Word} (hon : isWord "on" s = true) :
    ¬startsGenerated s = true := by
  have hspelled := (isWord_iff .on).mp hon
  intro hname
  rcases startsGenerated_iff.mp hname with hvirtual | hstored
  · exact absurd (hspelled.length_inj hvirtual) (by decide)
  · exact absurd (hspelled.length_inj hstored) (by decide)

theorem exists_cut (word : Word) (more : List Word) : ∃ piece left, Cut word more piece left := by
  by_cases hrule : ∃ update rule rest, more = update :: rule :: rest ∧
      isWord "on" word = true ∧ isWord "update" update = true
  · obtain ⟨update, rule, rest, rfl, hon, hupdate⟩ := hrule
    exact ⟨_, _, .rule hon hupdate⟩
  · by_cases hmark : ∃ next rest cut, more = next :: rest ∧ startsGenerated word = true ∧
        splitGenerated? next = some cut
    · obtain ⟨next, rest, cut, rfl, hname, hnext⟩ := hmark
      exact ⟨_, _, .mark hname hnext⟩
    · refine ⟨_, _, .word (fun update rule rest heq hphrase => ?_) fun next rest heq hname => ?_⟩
      · exact hrule ⟨update, rule, rest, heq, hphrase⟩
      · rw [Option.eq_none_iff_forall_ne_some]
        exact fun cut hnext => hmark ⟨next, rest, cut, heq, hname, hnext⟩

/-- The pieces that are read word by word are cut off one after the other. -/
theorem Cut.piecesFrom_eq {word : Word} {more piece left : List Word}
    (h : Cut word more piece left) (hmore : ∀ w ∈ more, Solid w) :
    piecesFrom word more = piece :: piecesOf left := by
  cases h with
  | @rule update rule left hon hupdate =>
    rw [piecesFrom.eq_def]
    simp only [hon, hupdate, Bool.and_self, if_true]
    cases left with
    | nil => rfl
    | cons following left => rfl
  | @mark next mark rest more hname hnext =>
    have hnone : (isWord "on" word && isWord "update" next) = false := by
      rw [Bool.and_eq_false_iff, ← Bool.not_eq_true]
      exact .inl fun hon => not_startsGenerated hon hname
    rw [piecesFrom.eq_def]
    simp only [hnone, Bool.false_eq_true, if_false, hname, if_true, hnext]
    cases rest with
    | nil =>
      rw [words_nil, List.nil_append]
      cases more with
      | nil => rfl
      | cons following more => rfl
    | cons c rest =>
      obtain ⟨rfl, _⟩ := splitGenerated_eq_some_iff.mp hnext
      have hsolid := hmore _ List.mem_cons_self
      have hrest : Solid (c :: rest) := ⟨List.cons_ne_nil c rest, fun d hd =>
        hsolid.no_blank d (List.mem_append_right _ hd)⟩
      rw [hrest.words_eq]
      rfl
  | word hrule hmark =>
    cases more with
    | nil => rw [piecesFrom, piecesOf]
    | cons next rest =>
      rw [piecesFrom.eq_def]
      by_cases hphrase : isWord "on" word = true ∧ isWord "update" next = true
      · cases rest with
        | nil =>
          simp only [hphrase.1, hphrase.2, Bool.and_self, if_true]
          rw [piecesOf, piecesFrom]
        | cons rule rest => exact absurd hphrase (hrule next rule rest rfl)
      · have hnone : (isWord "on" word && isWord "update" next) = false := by
          rw [← Bool.not_eq_true, Bool.and_eq_true]
          exact hphrase
        simp only [hnone, Bool.false_eq_true, if_false]
        by_cases hname : startsGenerated word = true
        · rw [if_pos hname, hmark next rest rfl hname, piecesOf]
        · rw [if_neg hname, piecesOf]

section Word

variable {word tail : List Char} (hword : Solid word) (htail : Ends tail)
include hword htail

/-- A word is found by itself when the words behind it make no phrase with it. -/
theorem leads_word
    (hrule : ∀ update rule rest, words tail = update :: rule :: rest →
      ¬(isWord "on" word = true ∧ isWord "update" update = true))
    (hmark : ∀ next rest, words tail = next :: rest → startsGenerated word = true →
      splitGenerated? next = none) :
    (⟨.word, word⟩ : Found).Leads tail := by
  have hnomark {keyword : Keyword} (hstarts : Spells keyword word → startsGenerated word = true)
      {s : List Char} (hs : s <+: word ++ tail) : ¬IsMark keyword s := by
    intro hfits
    obtain ⟨gap, mark, rest, -, rfl, hspelled, hgap, hgenerated⟩ :=
      IsMark.parts hword htail hs hfits
    obtain ⟨more, ws, hwords⟩ := hgenerated.solid.exists_words_append rest
    have hnone := hmark _ ws (by rw [words_blanks_append hgap.blanks, hwords]) (hstarts hspelled)
    rw [splitGenerated_eq_some_iff.mpr ⟨rfl, hgenerated⟩] at hnone
    cases hnone
  refine ⟨hword, fun form s hlt hs hfits => ?_,
    fun s hs hfits => (hfits.prefix_of_prefix_append htail hs).length_le⟩
  have hlt : form.rank < Form.rank .word := hlt
  cases form with
  | updateRule =>
    obtain ⟨gap, update, between, rule, rest, -, rfl, hon, hgap, hupdate, hbetween, hsolid⟩ :=
      IsUpdateRule.parts hword htail hs hfits
    obtain ⟨more, ws, hwords⟩ := hsolid.exists_words_append rest
    refine hrule update (rule ++ more) ws ?_ ⟨(isWord_iff .on).mpr hon,
      (isWord_iff .update).mpr hupdate⟩
    rw [words_blanks_append hgap.blanks, hupdate.solid.words_append_gap hbetween,
      hwords]
  | virtualMark =>
    exact hnomark (fun h => startsGenerated_iff.mpr (.inl h)) hs hfits
  | storedMark =>
    exact hnomark (fun h => startsGenerated_iff.mpr (.inr h)) hs hfits
  | word => exact absurd hlt (by decide)

/-- What the words are cut into first is found at the front of the text. -/
theorem Cut.exists_leads {piece left : List Word} (h : Cut word (words tail) piece left) :
    ∃ found rest, Found.Leads found rest ∧ word ++ tail = found.text ++ rest ∧
      words found.text = piece ∧ words rest = left := by
  generalize hwords : words tail = more at h
  cases h with
  | @rule update rule more hon hupdate =>
    obtain ⟨gap, behind, hgap, hsolid, hbehind, hmore, rfl⟩ := htail.exists_next hwords
    obtain ⟨between, rest, hbetween, hrule, hrest, rfl, rfl⟩ := hbehind.exists_next hmore
    refine ⟨_, rest, leads_updateRule ((isWord_iff .on).mp hon) hgap
      ((isWord_iff .update).mp hupdate) hbetween hrule hrest, ?_, ?_, rfl⟩
    · simp only [List.append_assoc]
    · rw [hword.words_append_gap hgap, hsolid.words_append_gap hbetween, hrule.words_eq]
  | @mark next mark remainder more hname hnext =>
    obtain ⟨gap, rest, hgap, _, hrest, rfl, rfl⟩ := htail.exists_next hwords
    obtain ⟨rfl, hmark⟩ := splitGenerated_eq_some_iff.mp hnext
    obtain ⟨form, hleads⟩ := exists_leads_mark (startsGenerated_iff.mp hname) hgap hmark
      (remainder ++ rest)
    refine ⟨_, _, hleads, ?_, ?_, words_append_ends hrest remainder⟩
    · simp only [List.append_assoc]
    · rw [hword.words_append_gap hgap, hmark.solid.words_eq]
  | word hrule hmark =>
    subst hwords
    exact ⟨_, tail, leads_word hword htail hrule hmark, rfl, hword.words_eq, rfl⟩

end Word

/-- Every text is cut, into pieces with the words of those that are read word by word. -/
theorem exists_finds (s : List Char) :
    ∃ found, Finds s found ∧ found.map (fun item => words item.text) = piecesOf (words s) := by
  induction hlength : s.length using Nat.strong_induction_on generalizing s with
  | _ n ih =>
    cases s with
    | nil => exact ⟨[], .nil, by rw [words_nil, List.map_nil, piecesOf]⟩
    | cons c rest =>
      by_cases hc : isBlank c = true
      · have hshorter : rest.length < n := by
          rw [← hlength, List.length_cons]
          exact Nat.lt_succ_self _
        obtain ⟨found, hfinds, hwords⟩ := ih _ hshorter rest rfl
        refine ⟨found, .skip (fun form t ht => not_fits_of_isBlank hc ht form) hfinds, ?_⟩
        rw [hwords, words_cons_blank hc]
      · obtain ⟨word, tail, hword, htail, hs⟩ := exists_word (Bool.not_eq_true _ ▸ hc) rest
        obtain ⟨piece, left, hcut⟩ := exists_cut word (words tail)
        have hpieces := hcut.piecesFrom_eq fun _ => solid_of_mem_words
        obtain ⟨item, behind, hleads, htext, rfl, rfl⟩ := hcut.exists_leads hword htail
        have hshorter : behind.length < n := by
          have hne := List.length_pos_iff.mpr hleads.fits.ne_nil
          rw [← hlength, hs, htext, List.length_append]
          omega
        obtain ⟨found, hfinds, hwords⟩ := ih _ hshorter behind rfl
        refine ⟨item :: found, ?_, ?_⟩
        · rw [hs, htext]
          exact .take hleads hfinds
        · rw [hs, hword.words_append htail, piecesOf, hpieces, List.map_cons, hwords]

theorem Finds.map_words {s : List Char} {found : List Found} (h : Finds s found) :
    found.map (fun item => words item.text) = piecesOf (words s) := by
  obtain ⟨other, hother, hwords⟩ := exists_finds s
  rw [h.unique hother, hwords]

end Schemata.Catalogue
