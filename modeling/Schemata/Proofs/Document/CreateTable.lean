import Schemata.Document.CreateTable
import Schemata.Proofs.Document.Marks
import Schemata.Proofs.Document.Numerals

/-!
No name can leave its place in the statements that create tables. The text is read for what
stands between marks, line by line and statement by statement: names and string defaults are
read back as they were, and everything between them is plain as soon as the types and update
rules that are written as they stand are.
-/
namespace Schemata.Document.CreateTable

/-- A column whose verbatim parts hold no mark, and whose default calls no function. -/
structure Guarded (column : Column) : Prop where
  type_eq : column.type = ColumnType.ofText column.rawType
  rawType_plain : column.family = .unknown ∨ column.type.isEnumerated = true →
    Plain column.rawType.toList
  rules_plain : ∀ flag ∈ column.flags, isUpdateRule flag = true → Plain flag.toList
  default_no_call : ∀ value, column.default? = some value → '(' ∉ value.toList

def isKeywordOrNumber (value : String) : Bool :=
  isKeyword (Text.trim value) || isNumber (Text.trim value)

/-- The default, unless it is a keyword or a number. -/
def stringDefault? (column : Column) : Option String :=
  column.default?.filter (!isKeywordOrNumber ·)

def columnTokens (column : Column) : List Token :=
  ⟨.backtick, column.name⟩ :: (stringDefault? column).toList.map (⟨.quote, ·⟩)

def relationNames (table : Table) (relation : Relation) : List String :=
  ["fk_" ++ table.name ++ "_" ++ relation.column, relation.column, relation.referencedTable,
    relation.referencedColumn]

/-- The names of a table in the order in which its statement has them. -/
def tableNames (table : Table) : List String :=
  table.name :: (table.columns.map (·.name) ++ table.relations.flatMap (relationNames table))

def tableTokens (table : Table) : List Token :=
  ⟨.backtick, table.name⟩ :: (table.columns.flatMap columnTokens ++
    table.relations.flatMap fun relation => (relationNames table relation).map (⟨.backtick, ·⟩))

theorem toList_quoted (name : String) : (quoted name).toList = marked .backtick name.toList := by
  simp [quoted, marked, Text.doubled, Mark.char]

theorem toList_stringLiteral (value : String) :
    (stringLiteral value).toList = marked .quote value.toList := by
  simp [stringLiteral, marked, Text.doubled, Mark.char]

theorem gives_quoted (name : String) : Gives (quoted name).toList [⟨.backtick, name⟩] := by
  rw [toList_quoted]
  exact gives_marked .backtick name

/-- A name, then a gap without marks, and then what follows. -/
theorem gives_quoted_gap (name : String) {gap s : List Char} {tokens : List Token}
    (hgap : Plain gap) (hne : gap ≠ []) (h : Gives s tokens) :
    Gives ((quoted name).toList ++ (gap ++ s)) (⟨.backtick, name⟩ :: tokens) := by
  exact (gives_quoted name).append (Gives.plain_append hgap h)
    (parts_append_of_ne_nil hgap.parts hne s)

theorem plain_of_isNameChar {s : List Char} (h : ∀ c ∈ s, ColumnType.isNameChar c = true) :
    Plain s := by
  intro c hc
  have hname := h c hc
  rw [ColumnType.isNameChar, Bool.or_eq_true] at hname
  rcases hname with halpha | hline
  · exact ofChar_of_isLetterCode (isLetterCode_of_isAlpha halpha)
  · rw [beq_iff_eq.mp hline]
    rfl

theorem plain_token (raw : String) : Plain (ColumnType.ofText raw).token.toList := by
  have hname : Plain (ColumnType.leadingName raw.toList) :=
    plain_of_isNameChar fun c hc => List.all_eq_true.mp List.all_takeWhile c hc
  have htoken : (ColumnType.ofText raw).token =
      Text.lower (String.ofList (ColumnType.leadingName raw.toList)) := rfl
  rw [htoken, plain_lower, String.toList_ofList]
  exact hname

theorem ofChar_of_isDigit {c : Char} (h : c.isDigit = true) : Mark.ofChar? c = none := by
  have hne : ∀ mark : Mark, c ≠ mark.char := by
    rintro mark rfl
    cases mark with
    | backtick => exact absurd h (by decide)
    | quote => exact absurd h (by decide)
  simp [Mark.ofChar?, hne]

theorem plain_count (n : UInt32) : Plain (toString n).toList :=
  fun _ hc => ofChar_of_isDigit (isDigit_of_mem_count hc)

theorem plain_argumentSuffix (type : ColumnType) : Plain type.argumentSuffix.toList := by
  have hopen : Plain "(".toList := by decide
  have hcomma : Plain ",".toList := by decide
  have hclose : Plain ")".toList := by decide
  unfold ColumnType.argumentSuffix
  split
  · rename_i precision scale _ _
    simp only [String.toList_append]
    exact (((hopen.append (plain_count precision)).append hcomma).append
      (plain_count scale)).append hclose
  · rename_i precision _ _
    simp only [String.toList_append]
    exact (hopen.append (plain_count precision)).append hclose
  · rename_i length _ _
    simp only [String.toList_append]
    exact (hopen.append (plain_count length)).append hclose
  · exact plain_nil

theorem plain_typeText {column : Column} (h : Guarded column) : Plain (typeText column).toList := by
  unfold typeText
  split
  · rename_i hverbatim
    rw [Bool.or_eq_true, beq_iff_eq] at hverbatim
    exact plain_trim (h.rawType_plain hverbatim)
  · have htoken : Plain (Text.upper column.type.token).toList := by
      rw [h.type_eq, plain_upper]
      exact plain_token column.rawType
    have hunsigned : Plain (if column.type.unsigned then " UNSIGNED" else "").toList := by
      split
      · decide
      · exact plain_nil
    simp only [ColumnType.native, String.toList_append]
    exact (htoken.append (plain_argumentSuffix column.type)).append hunsigned

theorem plain_of_isNumber {value : String} (h : isNumber value = true) : Plain value.toList := by
  intro c hc
  rcases char_of_isNumber h hc with rfl | hdigit | rfl
  · rfl
  · exact ofChar_of_isDigit hdigit
  · rfl

/-- The keywords with an argument are left out with the calls. -/
theorem plain_of_isKeyword {value : String} (hcall : '(' ∉ value.toList)
    (h : isKeyword value = true) : Plain value.toList := by
  have hupper : '(' ∉ (Text.upper value).toList := by
    -- a parenthesis has one case only
    intro hmem
    rw [Text.upper, String.toList_map, List.mem_map] at hmem
    obtain ⟨c, hc, hcase⟩ := hmem
    rcases toUpper_cases c with hsame | ⟨_, hletter⟩
    · rw [hsame] at hcase
      exact hcall (hcase ▸ hc)
    · rw [hcase] at hletter
      unfold IsLetterCode at hletter
      exact absurd hletter (by decide)
  rw [← plain_upper]
  rw [isKeyword, Bool.or_eq_true] at h
  rcases h with hword | hstarts
  · rw [List.contains_iff_mem] at hword
    -- the list of words is a literal: each of them is looked through
    generalize Text.upper value = word at hupper hword
    simp only [List.mem_cons, List.not_mem_nil, or_false] at hword
    rcases hword with rfl | rfl | rfl | rfl | rfl | rfl | rfl
    all_goals decide
  · rw [Text.startsWith, List.isPrefixOf_iff_prefix] at hstarts
    exact absurd (hstarts.subset (by decide)) hupper

theorem plain_of_isKeywordOrNumber {value : String} (hcall : '(' ∉ value.toList)
    (h : isKeywordOrNumber value = true) : Plain (Text.trim value).toList := by
  rw [isKeywordOrNumber, Bool.or_eq_true] at h
  rcases h with hkeyword | hnumber
  · exact plain_of_isKeyword (fun hmem => hcall (mem_of_mem_trim hmem)) hkeyword
  · exact plain_of_isNumber hnumber

/-- Without a call a default is a plain word or a string. -/
theorem gives_defaultLiteral {value : String} (hcall : '(' ∉ value.toList) :
    Gives (defaultLiteral value).toList
      (if isKeywordOrNumber value then [] else [⟨.quote, value⟩]) := by
  have hliteral : defaultLiteral value =
      if isKeywordOrNumber value then Text.trim value else stringLiteral value := by
    have hnone : isCall (Text.trim value) = false := by
      have hmem : '(' ∉ (Text.trim value).toList := fun hmem => hcall (mem_of_mem_trim hmem)
      simp [isCall, hmem]
    simp [defaultLiteral, isKeywordOrNumber, hnone]
  rw [hliteral]
  cases hword : isKeywordOrNumber value with
  | true => exact gives_plain (plain_of_isKeywordOrNumber hcall hword)
  | false =>
    simp only [Bool.false_eq_true, if_false, toList_stringLiteral]
    exact gives_marked .quote value

theorem gives_defaultClause {column : Column} (h : Guarded column) :
    Gives (defaultClause column).toList ((stringDefault? column).toList.map (⟨.quote, ·⟩)) := by
  unfold defaultClause stringDefault?
  cases hdefault : column.default? with
  | none => exact gives_plain plain_nil
  | some value =>
    have hliteral := gives_defaultLiteral (h.default_no_call value hdefault)
    have hclause := Gives.plain_append (show Plain " DEFAULT ".toList by decide) hliteral
    rw [Option.filter_some, String.toList_append]
    cases hword : isKeywordOrNumber value with
    | true =>
      rw [hword] at hclause
      exact hclause
    | false =>
      rw [hword] at hclause
      exact hclause

/-- What stands behind the default: no marks, and a blank in front unless it is empty. -/
theorem plain_columnEnd {column : Column} (h : Guarded column) :
    Plain ((if column.autoIncrement then " AUTO_INCREMENT" else "") ++
      updateClauses column.flags ++ keyClause column.key).toList := by
  have hcount : Plain (if column.autoIncrement then " AUTO_INCREMENT" else "").toList := by
    split
    · decide
    · exact plain_nil
  have hkey : Plain (keyClause column.key).toList := by
    cases column.key with
    | plain => decide
    | primary => decide
    | unique => decide
    | multiple => decide
  have hrules : Plain (updateClauses column.flags).toList := by
    intro c hc
    rw [updateClauses, String.toList_join, List.mem_flatMap] at hc
    obtain ⟨clause, hclause, hc⟩ := hc
    obtain ⟨flag, hflag, rfl⟩ := List.mem_map.mp hclause
    have hmem := List.mem_filter.mp hflag
    have hplain : Plain (Text.upper flag).toList :=
      plain_upper.mpr (h.rules_plain flag hmem.1 hmem.2)
    rw [String.toList_append] at hc
    exact (show Plain " ".toList by decide).append hplain c hc
  simp only [String.toList_append]
  exact (hcount.append hrules).append hkey

theorem gives_columnLine {column : Column} (h : Guarded column) :
    Gives (columnLine column).toList (columnTokens column) := by
  have hnull : Plain (if column.nullable then " NULL" else " NOT NULL").toList := by
    split
    · decide
    · decide
  have htype : Plain (" " ++ typeText column ++
      if column.nullable then " NULL" else " NOT NULL").toList := by
    simp only [String.toList_append]
    exact ((show Plain " ".toList by decide).append (plain_typeText h)).append hnull
  have hend := plain_columnEnd h
  have hdefault := (gives_defaultClause h).append_plain hend
  have hline := Gives.plain_append (show Plain "  ".toList by decide)
    (gives_quoted_gap column.name htype (by simp) hdefault)
  unfold columnLine
  simp only [String.toList_append, List.append_assoc] at hline ⊢
  exact hline

theorem gives_foreignKeyLine (table : Table) (relation : Relation) :
    Gives (foreignKeyLine table relation).toList
      ((relationNames table relation).map (⟨.backtick, ·⟩)) := by
  have hend : Plain ") ON DELETE CASCADE".toList := by decide
  have hreferenced := (gives_quoted relation.referencedColumn).append_plain hend
  have htable := gives_quoted_gap relation.referencedTable (show Plain "(".toList by decide)
    (by decide) hreferenced
  have hcolumn := gives_quoted_gap relation.column (show Plain ") REFERENCES ".toList by decide)
    (by decide) htable
  have hname := gives_quoted_gap (constraintName table relation)
    (show Plain " FOREIGN KEY (".toList by decide) (by decide) hcolumn
  have hline := Gives.plain_append (show Plain "  CONSTRAINT ".toList by decide) hname
  unfold foreignKeyLine
  simp only [String.toList_append, List.append_assoc]
  exact hline

/-- The lines of a statement with the tokens of each. -/
def lineTokens (table : Table) : List (String × List Token) :=
  table.columns.map (fun column => (columnLine column, columnTokens column)) ++
    table.relations.map fun relation =>
      (foreignKeyLine table relation, (relationNames table relation).map (⟨.backtick, ·⟩))

theorem gives_lines {table : Table} (h : ∀ column ∈ table.columns, Guarded column) :
    Gives (String.intercalate ",\n" (lines table)).toList
      ((lineTokens table).flatMap Prod.snd) := by
  have hlines : ∀ line ∈ lineTokens table, Gives line.1.toList line.2 := by
    intro line hline
    rcases List.mem_append.mp hline with hcolumn | hrelation
    · obtain ⟨column, hmem, rfl⟩ := List.mem_map.mp hcolumn
      exact gives_columnLine (h column hmem)
    · obtain ⟨relation, _, rfl⟩ := List.mem_map.mp hrelation
      exact gives_foreignKeyLine table relation
  have htexts : (lineTokens table).map (fun line => line.1.toList) =
      (lines table).map String.toList := by
    simp [lineTokens, lines, Function.comp_def]
  have hbody := gives_intercalate (show Plain ",\n".toList by decide) (by simp) hlines
  rw [htexts, ← String.toList_intercalate] at hbody
  exact hbody

theorem gives_statement {table : Table} (h : ∀ column ∈ table.columns, Guarded column) :
    Gives (statement table).toList (tableTokens table) := by
  have hend : Plain "\n);".toList := by decide
  have hclosed := (gives_lines h).append_plain hend
  have hname := gives_quoted_gap table.name (show Plain " (\n".toList by decide) (by decide) hclosed
  have hstatement := Gives.plain_append (show Plain "CREATE TABLE ".toList by decide) hname
  have htokens : (lineTokens table).flatMap Prod.snd =
      table.columns.flatMap columnTokens ++ table.relations.flatMap fun relation =>
        (relationNames table relation).map (⟨.backtick, ·⟩) := by
    simp [lineTokens, List.flatMap_map]
  rw [htokens] at hstatement
  unfold statement
  simp only [String.toList_append, List.append_assoc] at hstatement ⊢
  exact hstatement

theorem gives_text {tables : List Table}
    (h : ∀ table ∈ tables, ∀ column ∈ table.columns, Guarded column) :
    Gives (text tables).toList (tables.flatMap tableTokens) := by
  have hstatements := gives_intercalate (show Plain "\n\n".toList by decide) (by simp)
    fun table hmem => gives_statement (h table hmem)
  have htext : (text tables).toList =
      "\n\n".toList.intercalate (tables.map fun table => (statement table).toList) := by
    unfold text paragraphs
    rw [String.toList_intercalate, List.map_map]
    rfl
  rw [htext]
  exact hstatements

theorem backtick_columnTokens (column : Column) :
    textsOf .backtick (columnTokens column) = [column.name] := by
  have hne : Mark.quote ≠ .backtick := by decide
  have hstrings := textsOf_map_other hne (stringDefault? column).toList
  rw [columnTokens, textsOf_cons, if_pos rfl, hstrings]

theorem quote_columnTokens (column : Column) :
    textsOf .quote (columnTokens column) = (stringDefault? column).toList := by
  have hstrings := textsOf_map_same .quote (stringDefault? column).toList
  rw [columnTokens, textsOf_cons, if_neg (show Mark.backtick ≠ .quote by decide), hstrings]

theorem backtick_tableTokens (table : Table) :
    textsOf .backtick (tableTokens table) = tableNames table := by
  have hcolumns : table.columns.flatMap (fun column => textsOf .backtick (columnTokens column)) =
      table.columns.map (·.name) := by
    simp only [backtick_columnTokens]
    exact (List.map_eq_flatMap ..).symm
  have hrelations : table.relations.flatMap (fun relation =>
      textsOf .backtick ((relationNames table relation).map (⟨.backtick, ·⟩))) =
      table.relations.flatMap (relationNames table) := by
    simp only [textsOf_map_same]
  rw [tableTokens, tableNames, textsOf_cons, if_pos rfl, textsOf_append, textsOf_flatMap,
    textsOf_flatMap, hcolumns, hrelations]

theorem quote_tableTokens (table : Table) :
    textsOf .quote (tableTokens table) = table.columns.filterMap stringDefault? := by
  have hcolumns : table.columns.flatMap (fun column => textsOf .quote (columnTokens column)) =
      table.columns.filterMap stringDefault? := by
    simp only [quote_columnTokens]
    exact (List.filterMap_eq_flatMap_toList ..).symm
  have hrelations : table.relations.flatMap (fun relation =>
      textsOf .quote ((relationNames table relation).map (⟨.backtick, ·⟩))) = [] := by
    rw [List.flatMap_eq_nil_iff]
    exact fun relation _ => textsOf_map_other (by decide) _
  rw [tableTokens, textsOf_cons, if_neg (show Mark.backtick ≠ .quote by decide), textsOf_append,
    textsOf_flatMap, textsOf_flatMap, hcolumns, hrelations, List.append_nil]

/-- Whatever the tables, their columns and their relations are called, no quoted token of the
statements is left open; the identifiers are the names in their order, and the strings are the
defaults that are neither keywords nor numbers. -/
theorem names_stay_quoted (tables : List Table)
    (h : ∀ table ∈ tables, ∀ column ∈ table.columns, Guarded column) :
    ∃ tokens, tokens? (text tables) = some tokens ∧
      textsOf .backtick tokens = tables.flatMap tableNames ∧
      textsOf .quote tokens =
        tables.flatMap fun table => table.columns.filterMap stringDefault? := by
  refine ⟨tables.flatMap tableTokens, (gives_text h).tokensFrom_eq, ?_, ?_⟩
  · rw [textsOf_flatMap]
    simp only [backtick_tableTokens]
  · rw [textsOf_flatMap]
    simp only [quote_tableTokens]

/-- A table whose names and default try to close their quotes. -/
def hostileNotes : Table where
  name := "no\x60tes"
  columns := [
    { Column.ofType "it's" "varchar(20)" with default? := some "'; DROP TABLE \x60notes\x60; --" },
    { Column.ofType "\x60\x60" "timestamp" with
      default? := some " current_timestamp "
      flags := .ofList ["on update current_timestamp"] },
    Column.ofType "" "geometry"]
  relations := [⟨"it's", "a\x60) ON DELETE RESTRICT", "id\n"⟩]

theorem hostileNotes_stay_quoted :
    (∀ table ∈ [hostileNotes], ∀ column ∈ table.columns, Guarded column) ∧
    ∃ tokens, tokens? (text [hostileNotes]) = some tokens ∧
      textsOf .backtick tokens =
        ["no\x60tes", "it's", "\x60\x60", "", "fk_no\x60tes_it's", "it's",
          "a\x60) ON DELETE RESTRICT", "id\n"] ∧
      textsOf .quote tokens = ["'; DROP TABLE \x60notes\x60; --"] := by
  have hguarded : ∀ table ∈ [hostileNotes], ∀ column ∈ table.columns, Guarded column := by
    intro table htable column hcolumn
    rw [List.mem_singleton.mp htable] at hcolumn
    simp only [hostileNotes, List.mem_cons, List.not_mem_nil, or_false] at hcolumn
    rcases hcolumn with rfl | rfl | rfl
    · exact ⟨rfl, by decide +kernel, by decide +kernel, by decide +kernel⟩
    · exact ⟨rfl, by decide +kernel, by decide +kernel, by decide +kernel⟩
    · exact ⟨rfl, by decide +kernel, by decide +kernel, by decide +kernel⟩
  obtain ⟨tokens, htokens, hnames, hstrings⟩ := names_stay_quoted [hostileNotes] hguarded
  refine ⟨hguarded, tokens, htokens, ?_, ?_⟩
  · rw [hnames]
    decide +kernel
  · rw [hstrings]
    decide +kernel

end Schemata.Document.CreateTable
