import Schemata.Proofs.Catalogue.Matches
import Schemata.Proofs.Flags

/-!
What attributes are read as. Every character that is no blank is in one piece of the text, the
blanks between the words make no difference, and a flag is read again as this flag alone.
-/
namespace Schemata.Catalogue

open Text

/-- The text of the piece with one space between its words. -/
def Found.flag (found : Found) : String := rejoined " " found.text

theorem Finds.exists_leads {s : List Char} {found : List Found} (h : Finds s found) {item : Found}
    (hitem : item ∈ found) : ∃ rest, item.Leads rest := by
  induction h with
  | nil => cases hitem
  | skip _ _ ih => exact ih hitem
  | @take _ rest _ hleads _ ih =>
    rcases List.mem_cons.mp hitem with rfl | hitem
    · exact ⟨rest, hleads⟩
    · exact ih hitem

theorem Finds.fits {s : List Char} {found : List Found} (h : Finds s found) {item : Found}
    (hitem : item ∈ found) : item.form.Fits item.text := by
  obtain ⟨rest, hleads⟩ := h.exists_leads hitem
  exact hleads.fits

/-- All that is left out are blanks. -/
theorem Finds.filter_eq {s : List Char} {found : List Found} (h : Finds s found) :
    (found.flatMap (·.text)).filter (!isBlank ·) = s.filter (!isBlank ·) := by
  induction h with
  | nil => rfl
  | @skip c s _ hnone _ ih =>
    have hblank : isBlank c = true := by
      by_contra hc
      refine hnone .word [c] (List.cons_prefix_cons.mpr ⟨rfl, List.nil_prefix⟩) ⟨by simp, ?_⟩
      intro d hd
      rw [List.mem_singleton.mp hd, ← Bool.not_eq_true]
      exact hc
    rw [ih, List.filter_cons_of_neg (by simp [hblank])]
  | take _ _ ih =>
    rw [List.flatMap_cons, List.filter_append, List.filter_append, ih]

/-- What leads a text is found when it stands alone. -/
theorem Found.Leads.alone {found : Found} {rest : List Char} (h : found.Leads rest) :
    Finds found.text [found] := by
  have hfront {s : List Char} (hs : s <+: found.text ++ []) : s <+: found.text := by
    rwa [List.append_nil] at hs
  have hleads : found.Leads [] := by
    refine ⟨h.fits, fun form s hlt hs => ?_, fun s hs _ => (hfront hs).length_le⟩
    exact h.first form s hlt ((hfront hs).trans (List.prefix_append _ _))
  have hfinds := Finds.take hleads .nil
  rwa [List.append_nil] at hfinds

theorem Form.Fits.words_ne_nil {form : Form} {s : List Char} (h : form.Fits s) : words s ≠ [] := by
  obtain ⟨w, rest, hw, rfl⟩ := h.exists_word
  obtain ⟨more, ws, hwords⟩ := hw.exists_words_append rest
  rw [hwords]
  exact List.cons_ne_nil _ _

/-- A phrase has more words than one. -/
theorem Form.Fits.eq_word {form : Form} {s : List Char} {w : Word} (h : form.Fits s)
    (hs : words s = [w]) : form = .word ∧ s = w := by
  cases form with
  | updateRule =>
    obtain ⟨on, gap, update, between, rule, rfl, hon, hgap, hupdate, hbetween, _⟩ := h
    rw [hon.solid.words_append_gap hgap,
      hupdate.solid.words_append_gap hbetween] at hs
    cases hs
  | virtualMark | storedMark =>
    obtain ⟨name, gap, mark, rfl, hname, hgap, hmark⟩ := h
    rw [hname.solid.words_append_gap hgap, hmark.solid.words_eq] at hs
    cases hs
  | word =>
    have hsolid : Solid s := h
    rw [hsolid.words_eq] at hs
    exact ⟨rfl, (List.cons.inj hs).1⟩

theorem Found.words_flag (found : Found) : words found.flag.toList = words found.text :=
  words_rejoined found.text

theorem Found.flag_of_solid {found : Found} (h : Solid found.text) :
    found.flag = String.ofList found.text := by
  rw [flag, rejoined, h.words_eq, List.map_singleton, String.intercalate_singleton]

theorem solid_of_isAutoIncrement {s : String} (h : isAutoIncrement s = true) : Solid s.toList := by
  have hmark : Solid "auto_increment".toList := .of_all (by decide) rfl
  rw [isAutoIncrement, sameLetters_eq, decide_eq_true_iff] at h
  exact hmark.of_map_toLower h

theorem Form.Fits.of_isAutoIncrement {item : Found} (h : item.form.Fits item.text)
    (hflag : isAutoIncrement item.flag = true) :
    item.form = .word ∧ item.flag = String.ofList item.text := by
  have hwords := (solid_of_isAutoIncrement hflag).words_eq
  rw [item.words_flag] at hwords
  obtain ⟨hform, htext⟩ := h.eq_word hwords
  exact ⟨hform, by rw [htext, String.ofList_toList]⟩

/-- A piece is the mark of a counting column when its text is. -/
theorem Form.Fits.isAutoIncrement_iff {item : Found} (h : item.form.Fits item.text) :
    isAutoIncrement item.flag = true ↔ isAutoIncrement (String.ofList item.text) = true := by
  constructor
  · intro hflag
    rwa [← (h.of_isAutoIncrement hflag).2]
  · intro htext
    have hsolid := solid_of_isAutoIncrement htext
    rw [String.toList_ofList] at hsolid
    rwa [Found.flag_of_solid hsolid]

theorem ofText_eq {extra : String} {found : List Found} (h : Finds extra.toList found) :
    Extra.ofText extra = ⟨(found.map Found.flag).any isAutoIncrement,
      Flags.ofList ((found.map Found.flag).filter (!isAutoIncrement ·))⟩ := by
  have hflags : (pieces extra).map pieceText = found.map Found.flag := by
    rw [pieces_eq, ← h.map_words, List.map_map]
    rfl
  rw [Extra.ofText, hflags]

theorem mem_flags_iff {extra flag : String} {found : List Found} (h : Finds extra.toList found) :
    flag ∈ (Extra.ofText extra).flags ↔
      isAutoIncrement flag = false ∧ ∃ item ∈ found, flag = item.flag := by
  rw [ofText_eq h, Flags.ofList_eq_iff.mp rfl flag, List.mem_filter, List.mem_map, and_comm,
    Bool.not_eq_true']
  simp only [eq_comm (a := flag)]

theorem ofText_congr {extra other : String} (h : words extra.toList = words other.toList) :
    Extra.ofText extra = Extra.ofText other := by
  rw [Extra.ofText, Extra.ofText, pieces_eq, pieces_eq, h]

/-- The flag of a piece is read as this flag alone. -/
theorem Found.Leads.ofText_flag {item : Found} {rest : List Char} (h : item.Leads rest)
    (hflag : isAutoIncrement item.flag = false) :
    Extra.ofText item.flag = ⟨false, Flags.ofList [item.flag]⟩ := by
  have htext : words item.flag.toList = words (String.ofList item.text).toList := by
    rw [item.words_flag, String.toList_ofList]
  have hfinds : Finds (String.ofList item.text).toList [item] := by
    rw [String.toList_ofList]
    exact h.alone
  rw [ofText_congr htext, ofText_eq hfinds]
  simp only [List.map_singleton, List.any_cons, List.any_nil, hflag, Bool.or_false, Bool.not_false,
    List.filter_cons_of_pos, List.filter_nil]

theorem Form.Fits.flag_tidy {item : Found} (h : item.form.Fits item.text) :
    item.flag ≠ "" ∧ Tidy item.flag.toList := by
  refine ⟨rejoined_eq_empty_iff.not.mpr h.words_ne_nil, ?_⟩
  rw [Found.flag, toList_rejoined]
  exact tidy_intercalate fun _ => solid_of_mem_words

/-- A text is cut into pieces in one way, with every character that is no blank in one of them
and in their order. Blanks of another kind or number change nothing. The mark of a counting
column is a piece by itself and no part of another; every other piece is a flag, and reading
the flag gives it back. -/
theorem ofText_reads_pieces (extra : String) :
    ∃ found, Finds extra.toList found ∧
      (∀ other, Finds extra.toList other → other = found) ∧
      (found.flatMap (·.text)).filter (!isBlank ·) = extra.toList.filter (!isBlank ·) ∧
      Extra.ofText (trim (String.ofList (collapsed extra.toList))) = Extra.ofText extra ∧
      ((Extra.ofText extra).autoIncrement = true ↔
        ∃ item ∈ found, sameLetters (String.ofList item.text) "auto_increment" = true) ∧
      (∀ item ∈ found, sameLetters (String.ofList item.text) "auto_increment" = true →
        item.form = .word) ∧
      (∀ flag, flag ∈ (Extra.ofText extra).flags ↔
        sameLetters flag "auto_increment" = false ∧ ∃ item ∈ found, flag = rejoined " " item.text) ∧
      ∀ flag ∈ (Extra.ofText extra).flags,
        flag ≠ "" ∧ Tidy flag.toList ∧ sameLetters flag "auto_increment" = false ∧
          Extra.ofText flag = ⟨false, Flags.ofList [flag]⟩ := by
  obtain ⟨found, hfinds, _⟩ := exists_finds extra.toList
  refine ⟨found, hfinds, fun other hother => hother.unique hfinds, hfinds.filter_eq,
    ofText_congr (words_trim_collapsed extra), ?_, ?_, fun flag => mem_flags_iff hfinds, ?_⟩
  · rw [ofText_eq hfinds, List.any_map, List.any_eq_true]
    constructor
    · rintro ⟨item, hitem, hmark⟩
      exact ⟨item, hitem, (hfinds.fits hitem).isAutoIncrement_iff.mp hmark⟩
    · rintro ⟨item, hitem, hmark⟩
      exact ⟨item, hitem, (hfinds.fits hitem).isAutoIncrement_iff.mpr hmark⟩
  · intro item hitem hmark
    have hfits := hfinds.fits hitem
    exact (hfits.of_isAutoIncrement (hfits.isAutoIncrement_iff.mpr hmark)).1
  · intro flag hflag
    obtain ⟨hother, item, hitem, rfl⟩ := (mem_flags_iff hfinds).mp hflag
    obtain ⟨rest, hleads⟩ := hfinds.exists_leads hitem
    obtain ⟨hne, htidy⟩ := hleads.fits.flag_tidy
    exact ⟨hne, htidy, hother, hleads.ofText_flag hother⟩

/-- A mark that goes on with a phrase, and a mark of a counting column that is a rule. -/
def glued : String := " Virtual\t\tGENERATEDon  update auto_increment AUTO_Increment stored "

theorem glued_read :
    (Extra.ofText glued).autoIncrement = true ∧
    Extra.ofText "Virtual GENERATED" = ⟨false, Flags.ofList ["Virtual GENERATED"]⟩ ∧
    Extra.ofText "on update auto_increment" =
      ⟨false, Flags.ofList ["on update auto_increment"]⟩ := by
  have hpieces : (pieces glued).map pieceText =
      ["Virtual GENERATED", "on update auto_increment", "AUTO_Increment", "stored"] := by
    decide +kernel
  have hmark : isAutoIncrement "AUTO_Increment" = true := by
    rw [isAutoIncrement, sameLetters_eq]
    decide +kernel
  have hflag : ∀ flag ∈ ["Virtual GENERATED", "on update auto_increment"],
      flag ∈ (Extra.ofText glued).flags := by
    intro flag hflag
    have hother : isAutoIncrement flag = false := by
      rw [isAutoIncrement, sameLetters_eq]
      revert flag
      decide +kernel
    rw [Extra.ofText, hpieces, Flags.ofList_eq_iff.mp rfl flag, List.mem_filter, hother]
    exact ⟨List.mem_append_left ["AUTO_Increment", "stored"] hflag, rfl⟩
  obtain ⟨_, _, _, _, _, _, _, _, hstable⟩ := ofText_reads_pieces glued
  refine ⟨?_, (hstable _ (hflag _ ?_)).2.2.2, (hstable _ (hflag _ ?_)).2.2.2⟩
  · rw [Extra.ofText, hpieces, List.any_eq_true]
    exact ⟨"AUTO_Increment", by simp, hmark⟩
  · simp
  · simp

end Schemata.Catalogue
