import Schemata.Document.Diagram
import Schemata.Proofs.ColumnType.Scans
import Schemata.Proofs.Text.Words

/-!
The types of the attributes in a diagram. A type ends at the first blank behind it, so that it
has to be written as one word. It is the name that was read from the spelling, which has letters
and underscores only; where none was read, it is put together from the words in front of the
first bracket; and where there are no such words either, it is the word unknown. None of the
three has a bracket in it, and the line of every column begins with its type in full.
-/
namespace Schemata.Document.Diagram

open Text

/-- What stands in front of the first bracket of a text, or the whole text when it has none. -/
structure IsFront (front s : List Char) : Prop where
  no_bracket : '(' ∉ front
  ends : ∃ rest, s = front ++ rest ∧ ∀ c, rest.head? = some c → c = '('

theorem isFront_before (s : List Char) : IsFront (before (· == '(') s) s := by
  obtain ⟨rest, hs, hfront, hrest⟩ := exists_of_before (· == '(') s
  refine ⟨fun hmem => ?_, rest, hs, fun c hc => beq_iff_eq.mp (hrest c hc)⟩
  have hother := hfront '(' hmem
  cases hother

/-- What stands for the type of a column: the name of the type; without a name, the words of its
spelling up to the first bracket; and without these a word of its own. -/
inductive Shows (column : Column) : String → Prop
  | name (hnamed : column.type.token ≠ "") : Shows column column.type.token
  | words {front : List Char} (hunnamed : column.type.token = "")
      (hfront : IsFront front column.rawType.toList) (hwords : words front ≠ []) :
      Shows column (rejoined "_" front)
  | unknown {front : List Char} (hunnamed : column.type.token = "")
      (hfront : IsFront front column.rawType.toList) (hblanks : Blanks front) :
      Shows column "unknown"

theorem shows_attributeType (column : Column) :
    Shows column (attributeType column.type column.rawType) := by
  have hfront := isFront_before column.rawType.toList
  unfold attributeType
  split
  · rename_i hnamed
    exact .name (by simpa using hnamed)
  · rename_i hnot
    have hunnamed : column.type.token = "" := by simpa using hnot
    dsimp only
    simp only [String.isEmpty_iff, rejoined_eq_empty_iff]
    split
    · rename_i hnone
      exact .unknown hunnamed hfront (words_eq_nil_iff.mp hnone)
    · rename_i hwords
      exact .words hunnamed hfront hwords

section Word

variable {column : Column} {written : String}
  (hname : ∀ c ∈ column.type.token.toList, ColumnType.isNameChar c = true)
include hname

theorem Shows.solid (h : Shows column written) : Solid written.toList := by
  cases h with
  | name hne =>
    exact ⟨by simpa using hne, fun c hc => ColumnType.not_isBlank_of_isNameChar (hname c hc)⟩
  | words _ _ hwords => exact solid_rejoined (by simp [isBlank]) hwords
  | unknown => exact .of_all (by decide) (by decide)

theorem Shows.no_bracket (h : Shows column written) : '(' ∉ written.toList := by
  cases h with
  | name =>
    intro hmem
    have hother := hname '(' hmem
    cases hother
  | words _ hfront _ =>
    intro hmem
    rcases mem_of_mem_rejoined _ hmem with hline | hinside
    · exact absurd hline (by decide)
    · exact hfront.no_bracket hinside
  | unknown => decide

end Word

/-- An entity has a line of its own where it begins and another one where it ends. -/
theorem exists_entityLines_around {table : Table} {column : Column}
    (h : column ∈ table.columns) :
    ∃ above below, above ≠ [] ∧ below ≠ [] ∧
      entityLines table = above ++ attributeLine table column :: below := by
  obtain ⟨left, right, hcolumns⟩ := List.append_of_mem h
  refine ⟨("    " ++ table.name ++ " \x7b") :: left.map (attributeLine table),
    right.map (attributeLine table) ++ ["    \x7d"], List.cons_ne_nil _ _, by simp, ?_⟩
  simp [entityLines, hcolumns]

theorem exists_text_around {tables : List Table} {table : Table} {column : Column}
    (htable : table ∈ tables) (hcolumn : column ∈ table.columns) :
    ∃ above below, text tables = above ++ "\n" ++ attributeLine table column ++ "\n" ++ below := by
  obtain ⟨earlier, later, htables⟩ := List.append_of_mem htable
  obtain ⟨above, below, habove, hbelow, hentity⟩ := exists_entityLines_around hcolumn
  have hentities : tables.flatMap entityLines = earlier.flatMap entityLines ++ above ++
      attributeLine table column :: (below ++ later.flatMap entityLines) := by
    rw [htables, List.flatMap_append, List.flatMap_cons, hentity]
    simp only [List.append_assoc, List.cons_append]
  have hlines : ["erDiagram"] ++ tables.flatMap entityLines ++ (links tables).map Link.text =
      ("erDiagram" :: (earlier.flatMap entityLines ++ above)) ++ attributeLine table column ::
        (below ++ later.flatMap entityLines ++ (links tables).map Link.text) := by
    rw [hentities]
    simp only [List.append_assoc, List.cons_append, List.nil_append]
  rw [text, hlines, intercalate_around (List.cons_ne_nil _ _) (by simp [hbelow])]
  exact ⟨_, _, rfl⟩

theorem exists_attributeLine (table : Table) (column : Column) :
    ∃ behind, attributeLine table column = "        " ++
      attributeType column.type column.rawType ++ " " ++ (column.name ++ behind) :=
  ⟨_, String.append_assoc⟩

/-- The type in a line ends where the first blank behind it stands. -/
theorem words_attributeLine {written : String} (h : Solid written.toList) (rest : String) :
    words ("        " ++ written ++ " " ++ rest).toList = written.toList :: words rest.toList := by
  have hindent : Blanks "        ".toList := by simp [Blanks, isBlank]
  have hgap : Gap " ".toList := ⟨by decide, by simp [Blanks, isBlank]⟩
  rw [String.toList_append, String.toList_append, String.toList_append, List.append_assoc,
    List.append_assoc, words_blanks_append hindent, h.words_append_gap hgap]

/-- Every column has a line in the diagram, and whatever text its type was read from, the first
word in this line is its type in full: one word without a bracket. It is the name of the type, or
the words in front of the first bracket of its spelling, or the word unknown. -/
theorem attribute_types_are_words {tables : List Table} {table : Table} {column : Column}
    {raw : String} (htable : table ∈ tables) (hcolumn : column ∈ table.columns)
    (hread : column.type = ColumnType.ofText raw) :
    ∃ written above below behind,
      text tables = above ++ "\n" ++ attributeLine table column ++ "\n" ++ below ∧
      attributeLine table column = "        " ++ written ++ " " ++ (column.name ++ behind) ∧
      written = attributeType column.type column.rawType ∧ Shows column written ∧
      written ≠ "" ∧ (∀ c ∈ written.toList, isBlank c = false ∧ c ≠ '(') ∧
      words (attributeLine table column).toList =
        written.toList :: words (column.name ++ behind).toList := by
  have hname : ∀ c ∈ column.type.token.toList, ColumnType.isNameChar c = true := by
    rw [hread]
    exact ColumnType.isNameChar_of_mem_token
  have hshows := shows_attributeType column
  have hsolid := hshows.solid hname
  obtain ⟨above, below, htext⟩ := exists_text_around htable hcolumn
  obtain ⟨behind, hline⟩ := exists_attributeLine table column
  refine ⟨_, above, below, behind, htext, hline, rfl, hshows, ?_, fun c hc => ?_, ?_⟩
  · rw [ne_eq, ← String.toList_eq_nil_iff]
    exact hsolid.ne_nil
  · exact ⟨hsolid.no_blank c hc, ne_of_mem_of_not_mem hc (hshows.no_bracket hname)⟩
  · rw [hline, words_attributeLine hsolid]

/-- The spelling begins with a number, so that no name is read from it. -/
def width : Column := .ofType "width" "64\u00a0bit\n wide(3) unsigned"

def readings : Table where
  name := "readings"
  columns := [.ofType "level" "\u3000Double\tPrecision (10, 2)", width, .ofType "unit" "\t(5) x"]

theorem width_shows_one_word :
    (readings ∈ [readings] ∧ width ∈ readings.columns ∧
        width.type = ColumnType.ofText width.rawType) ∧
      '(' ∉ "64_bit_wide".toList ∧
      (words (attributeLine readings width).toList).head? = some "64_bit_wide".toList := by
  have htable : readings ∈ [readings] := List.mem_singleton_self readings
  have hcolumn : width ∈ readings.columns := List.mem_cons_of_mem _ List.mem_cons_self
  have hread : width.type = ColumnType.ofText width.rawType := rfl
  obtain ⟨written, _, _, behind, _, _, hwritten, _, _, hplain, hwords⟩ :=
    attribute_types_are_words htable hcolumn hread
  have hvalue : attributeType width.type width.rawType = "64_bit_wide" := by decide +kernel
  rw [hvalue] at hwritten
  subst hwritten
  exact ⟨⟨htable, hcolumn, hread⟩, fun hmem => (hplain _ hmem).2 rfl, by rw [hwords]; rfl⟩

example : readings.columns.map (fun column => attributeType column.type column.rawType) =
    ["double", "64_bit_wide", "unknown"] := by
  decide +kernel

end Schemata.Document.Diagram
