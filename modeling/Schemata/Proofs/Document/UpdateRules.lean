import Schemata.Catalogue.Record
import Schemata.Document.CreateTable
import Schemata.Proofs.Catalogue.Attributes

/-!
Update rules in the statements that create tables. The attributes are cut into pieces whatever
the case of their letters and the blanks between them, and the flags are tested for their first
letters only; both find the same phrases.
-/
namespace Schemata.Document.CreateTable

open Catalogue

/-- Without the long form of a letter the small letters of a keyword are all that it is spelled
by. -/
theorem map_toLower_of_spells {keyword : Keyword} (hkeyword : keyword ≠ .stored) {s : List Char}
    (h : Spells keyword s) : s.map Char.toLower = keyword.text.toList := by
  have hletter : 's' ∉ keyword.text.toList := by
    cases keyword with
    | stored => exact absurd rfl hkeyword
    | on | update | virtual | generated => decide
  have hfolded := spells_iff.mp h
  rw [← hfolded]
  refine List.map_congr_left fun c hc => ?_
  have hlong : c ≠ 'ſ' := by
    rintro rfl
    exact hletter (hfolded ▸ List.mem_map_of_mem hc)
  rw [foldedLetter, if_neg hlong]

/-- The phrase with its blanks set right, in small letters. -/
theorem lower_flag {item : Found} (h : IsUpdateRule item.text) :
    ∃ rule : String, Text.Solid rule.toList ∧
      Text.lower item.flag = "on update " ++ Text.lower rule := by
  obtain ⟨on, gap, update, between, rule, htext, hon, hgap, hupdate, hbetween, hrule⟩ := h
  have hwords : Text.words item.text = [on, update, rule] := by
    rw [htext, hon.solid.words_append_gap hgap,
      hupdate.solid.words_append_gap hbetween, hrule.words_eq]
  have hflag : item.flag.toList = on ++ (' ' :: (update ++ (' ' :: rule))) := by
    rw [Found.flag, Text.toList_rejoined, hwords]
    simp [List.intercalate]
  have hsmallOn := map_toLower_of_spells (by simp) hon
  have hsmallUpdate := map_toLower_of_spells (by simp) hupdate
  refine ⟨String.ofList rule, by rwa [String.toList_ofList], ?_⟩
  rw [← String.toList_inj, Text.lower, Text.lower, String.toList_map, String.toList_append,
    String.toList_map, String.toList_ofList (l := rule), hflag, List.map_append, List.map_cons,
    List.map_append, List.map_cons, hsmallOn, hsmallUpdate]
  rfl

theorem upper_flag {item : Found} (h : IsUpdateRule item.text) :
    ∃ rule : String, Text.Solid rule.toList ∧
      Text.upper item.flag = "ON UPDATE " ++ Text.upper rule := by
  obtain ⟨rule, hrule, hlower⟩ := lower_flag h
  refine ⟨rule, hrule, ?_⟩
  have hphrase : Text.upper "on update " = "ON UPDATE " := by
    rw [← String.toList_inj, Text.upper, String.toList_map]
    rfl
  rw [← Text.upper_lower, hlower, Text.upper_append, hphrase, Text.upper_lower]

/-- A flag that is written as a rule has two words at least, and the first has two letters. -/
theorem words_of_isUpdateRule {flag : String} (h : isUpdateRule flag = true) :
    ∃ on next ws, Text.words flag.toList = on :: next :: ws ∧ on.length = 2 := by
  rw [isUpdateRule, Text.startsWith, List.isPrefixOf_iff_prefix, Text.lower,
    String.toList_map] at h
  obtain ⟨behind, hbehind⟩ := h
  obtain ⟨front, rest, hflag, hfront, -⟩ := List.map_eq_append_iff.mp hbehind.symm
  have hphrase : front.map Char.toLower = "on".toList ++ (' ' :: "update".toList) := hfront
  obtain ⟨on, update, rfl, hon, hupdate⟩ := List.map_eq_append_iff.mp hphrase
  obtain ⟨c, update, rfl, hc, hupdate⟩ := List.map_eq_cons_iff.mp hupdate
  have hsolid : Text.Solid on := Text.Solid.of_map_toLower (.of_all (by decide) rfl) hon
  have hsolid' : Text.Solid update := Text.Solid.of_map_toLower (.of_all (by decide) rfl) hupdate
  have hblank : Text.isBlank c = true := by
    rw [← Text.isBlank_toLower, hc]
    decide
  obtain ⟨more, ws, hwords⟩ := hsolid'.exists_words_append rest
  refine ⟨on, update ++ more, ws, ?_, ?_⟩
  · rw [hflag, List.append_assoc, List.cons_append, Text.words_append_blank _ _ hblank,
      hsolid.words_eq, hwords, List.singleton_append]
  · rw [← List.length_map (f := Char.toLower), hon]
    rfl

/-- The test of a flag finds the pieces that are rules. -/
theorem isUpdateRule_flag_iff {item : Found} (h : item.form.Fits item.text) :
    isUpdateRule item.flag = true ↔ item.form = .updateRule := by
  constructor
  · intro hrule
    obtain ⟨on, next, ws, hwords, hlength⟩ := words_of_isUpdateRule hrule
    rw [item.words_flag] at hwords
    obtain ⟨form, text⟩ := item
    cases form with
    | updateRule => rfl
    | virtualMark | storedMark =>
      obtain ⟨name, gap, mark, rfl, hname, hgap, hmark⟩ := h
      rw [hname.solid.words_append_gap hgap] at hwords
      have hnameLength := hname.length_eq
      rw [(List.cons.inj hwords).1, hlength] at hnameLength
      exact absurd hnameLength (by decide)
    | word =>
      have hsolid : Text.Solid text := h
      rw [hsolid.words_eq] at hwords
      cases hwords
  · intro hform
    have hrule : IsUpdateRule item.text := by
      rwa [hform] at h
    obtain ⟨rule, -, hlower⟩ := lower_flag hrule
    rw [isUpdateRule, hlower, Text.startsWith, List.isPrefixOf_iff_prefix]
    exact ⟨' ' :: (Text.lower rule).toList, by rw [String.toList_append]; rfl⟩

/-- The part of the line in front of the update rules. -/
def columnStart (column : Column) : String :=
  "  " ++ quoted column.name ++ " " ++ typeText column ++
    (if column.nullable then " NULL" else " NOT NULL") ++ defaultClause column ++
    if column.autoIncrement then " AUTO_INCREMENT" else ""

theorem columnLine_eq (column : Column) :
    columnLine column = columnStart column ++ updateClauses column.flags ++ keyClause column.key :=
  rfl

/-- The flags that are written, as pieces of the attributes. -/
theorem mem_rules_iff {extra : String} {found : List Found} (h : Finds extra.toList found)
    (phrase : String) : phrase ∈ (Extra.ofText extra).flags.toList.filter isUpdateRule ↔
      ∃ item ∈ found, item.form = .updateRule ∧ phrase = item.flag := by
  rw [List.mem_filter]
  constructor
  · rintro ⟨hflag, hrule⟩
    obtain ⟨-, item, hitem, rfl⟩ := (mem_flags_iff h).mp hflag
    exact ⟨item, hitem, (isUpdateRule_flag_iff (h.fits hitem)).mp hrule, rfl⟩
  · rintro ⟨item, hitem, hform, rfl⟩
    have hfits := h.fits hitem
    refine ⟨(mem_flags_iff h).mpr ⟨?_, item, hitem, rfl⟩, (isUpdateRule_flag_iff hfits).mpr hform⟩
    rw [← Bool.not_eq_true]
    intro hmark
    rw [(hfits.of_isAutoIncrement hmark).1] at hform
    cases hform

/-- The line of a column has a clause for each phrase among its attributes that is an update
rule, in the order of the flags and in capital letters, and no other piece adds anything to it. -/
theorem update_rules_written (record : ColumnRecord) :
    ∃ (found : List Found) (phrases : List String) (before : String),
      Finds record.extra.toList found ∧ (∀ other, Finds record.extra.toList other → other = found) ∧
      phrases.Sublist record.column.flags.toList ∧ phrases.Pairwise (· < ·) ∧
      (∀ phrase, phrase ∈ phrases ↔
        ∃ item ∈ found, item.form = .updateRule ∧ phrase = Text.rejoined " " item.text) ∧
      (∀ item ∈ found, item.form ≠ .updateRule → Text.rejoined " " item.text ∉ phrases) ∧
      columnLine { record.column with flags := .empty } =
        before ++ keyClause record.column.key ∧
      columnLine record.column =
        before ++ String.join (phrases.map (" " ++ Text.upper ·)) ++ keyClause record.column.key ∧
      ∀ phrase ∈ phrases, ∃ rule : String,
        Text.Solid rule.toList ∧ Text.upper phrase = "ON UPDATE " ++ Text.upper rule := by
  obtain ⟨found, hfinds, _⟩ := exists_finds record.extra.toList
  have hmem := mem_rules_iff hfinds
  have hsublist := List.filter_sublist (p := isUpdateRule) (l := record.column.flags.toList)
  refine ⟨found, record.column.flags.toList.filter isUpdateRule, columnStart record.column, hfinds,
    fun other hother => hother.unique hfinds, hsublist,
    record.column.flags.increasing.sublist hsublist, hmem, ?_, ?_,
    columnLine_eq record.column, ?_⟩
  · intro item hitem hform hphrase
    exact hform ((isUpdateRule_flag_iff (hfinds.fits hitem)).mp (List.mem_filter.mp hphrase).2)
  · have hstart : columnStart { record.column with flags := .empty } =
        columnStart record.column := rfl
    have hnone : updateClauses .empty = "" := rfl
    rw [columnLine_eq, hstart, hnone, String.append_empty]
  · intro phrase hphrase
    obtain ⟨item, hitem, hform, rfl⟩ := (hmem phrase).mp hphrase
    have hfits := hfinds.fits hitem
    rw [hform] at hfits
    exact upper_flag hfits

/-- A time that is set anew with every change. -/
def seen : ColumnRecord where
  name := "seen"
  type := "timestamp(3)"
  null := "NO"
  key := ""
  default? := none
  extra := "On\tupdate  Now(3)"

theorem seen_written :
    columnLine seen.column =
      columnLine { seen.column with flags := .empty } ++ " ON UPDATE NOW(3)" := by
  obtain ⟨found, phrases, before, _, hunique, _, hincreasing, hmem, _, hplain, hline, _⟩ :=
    update_rules_written seen
  have hpiece : Finds seen.extra.toList [⟨.updateRule, seen.extra.toList⟩] := by
    have hon : Spells .on "On".toList := (isWord_iff .on).mp rfl
    have hupdate : Spells .update "update".toList := (isWord_iff .update).mp rfl
    have hgap : Text.Gap "\t".toList := ⟨by decide, List.all_eq_true.mp rfl⟩
    have hbetween : Text.Gap "  ".toList := ⟨by decide, List.all_eq_true.mp rfl⟩
    have hrule : Text.Solid "Now(3)".toList := .of_all (by decide) rfl
    exact .take (leads_updateRule hon hgap hupdate hbetween hrule Text.blanks_nil.ends) .nil
  obtain rfl := hunique _ hpiece
  have hphrases : phrases = ["On update Now(3)"] := by
    refine hincreasing.eq_of_mem_iff (List.pairwise_singleton _ _) fun phrase => ?_
    have hflag : Text.rejoined " " seen.extra.toList = "On update Now(3)" := by decide +kernel
    rw [hmem]
    simp [hflag]
  have hclause : Text.upper "On update Now(3)" = "ON UPDATE NOW(3)" := by
    rw [← String.toList_inj, Text.upper, String.toList_map]
    rfl
  have hkey : keyClause seen.column.key = "" := by decide +kernel
  rw [hline, hplain, hphrases, hkey]
  simp [hclause]

end Schemata.Document.CreateTable
