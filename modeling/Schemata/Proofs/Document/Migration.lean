import Mathlib.Data.List.Basic
import Schemata.Document.Migration
import Schemata.Proofs.Document.Numerals
import Schemata.Proofs.Document.Script
import Schemata.Proofs.Text.Joined

/-!
What a migration holds when it is read as a script. No text of the database leaves its
place: names and defaults are read back as strings, and a type that has no method of its own
stays in its comment. Every line of the body is read from code to code, so that lines and the
texts around them are put together by appending their pieces.
-/
namespace Schemata.Document.Migration

open Script

/-- The default is neither the current time nor a number for a column that takes numbers. -/
def standsQuoted (column : Column) (value : String) : Bool :=
  !Column.isCurrentTimestamp value && !(takesNumber column.family && isNumber (Text.trim value))

def quotedDefault? (column : Column) : Option String :=
  column.default?.filter (standsQuoted column)

/-- An automatic primary column with the name `id` is made without naming it. -/
def nameString? (column : Column) : Option String :=
  if isIdentity column ∧ column.name = "id" then none else some column.name

def columnStrings (column : Column) : List String :=
  (nameString? column).toList ++ (quotedDefault? column).toList

def relationStrings (relation : Relation) : List String :=
  [relation.column, relation.referencedColumn, relation.referencedTable, "cascade"]

/-- The methods that make a column of a type. -/
def typeMethods : List String :=
  ["boolean", "bigInteger", "smallInteger", "tinyInteger", "mediumInteger", "integer",
    "unsignedBigInteger", "unsignedSmallInteger", "unsignedTinyInteger", "unsignedMediumInteger",
    "unsignedInteger", "decimal", "double", "float", "char", "string", "tinyText", "mediumText",
    "longText", "text", "uuid", "timestamp", "date", "time", "year", "json", "binary"]

theorem isCode_typeMethod : ∀ method ∈ typeMethods, IsCode method.toList := by
  simp only [typeMethods, List.forall_mem_cons, List.not_mem_nil, false_imp_iff, implies_true,
    and_true]
  and_intros
  all_goals exact isCode_ofList (by decide)

theorem sizedCall_nil (method name : String) : sizedCall method name [] = call method name := by
  simp [sizedCall, call, String.join]

def HasMethod (column : Column) (text : String) : Prop :=
  (∃ method ∈ typeMethods, ∃ sizes, text = sizedCall method column.name sizes) ∨
    text = fallbackCall column

theorem hasMethod_sizedCall {method : String} (h : method ∈ typeMethods) (column : Column)
    (sizes : List UInt32) : HasMethod column (sizedCall method column.name sizes) :=
  Or.inl ⟨method, h, sizes, rfl⟩

theorem hasMethod_call {method : String} (h : method ∈ typeMethods) (column : Column) :
    HasMethod column (call method column.name) :=
  sizedCall_nil method column.name ▸ hasMethod_sizedCall h column []

def integerMethods : List String :=
  ["bigInteger", "smallInteger", "tinyInteger", "mediumInteger", "integer"]

theorem integerMethod_mem (token : String) : integerMethod token ∈ integerMethods := by
  unfold integerMethod
  split
  all_goals decide

theorem typeMethod_of_integerMethod (unsigned : Bool) {method : String}
    (h : method ∈ integerMethods) :
    (if unsigned then "unsigned" ++ Naming.pascal method else method) ∈ typeMethods := by
  revert method
  cases unsigned with
  | true => decide +kernel
  | false => decide

theorem hasMethod_floatCall (column : Column) : HasMethod column (floatCall column) := by
  unfold floatCall
  split
  · exact hasMethod_sizedCall (by decide) column _
  · split
    · exact hasMethod_call (by decide) column
    · exact hasMethod_call (by decide) column

theorem hasMethod_textCall (column : Column) : HasMethod column (textCall column) := by
  unfold textCall
  split
  case h_1 | h_2 | h_3 | h_4 | h_5 => exact hasMethod_sizedCall (by decide) column _
  case h_12 => exact Or.inr rfl
  all_goals exact hasMethod_call (by decide) column

theorem hasMethod_temporalCall (column : Column) : HasMethod column (temporalCall column) := by
  unfold temporalCall
  split
  case h_8 => exact Or.inr rfl
  all_goals exact hasMethod_call (by decide) column

/-- Whatever its family and its token, a column gets a method for its name and sizes, or the
string method with a comment behind it. -/
theorem hasMethod_typeCall (column : Column) : HasMethod column (typeCall column) := by
  unfold typeCall
  cases column.family with
  | boolean => exact hasMethod_call (by decide) column
  | integer =>
    have hmethod := typeMethod_of_integerMethod column.type.unsigned
      (integerMethod_mem column.type.token)
    exact hasMethod_call hmethod column
  | float => exact hasMethod_floatCall column
  | text => exact hasMethod_textCall column
  | temporal => exact hasMethod_temporalCall column
  | json => exact hasMethod_call (by decide) column
  | binary => exact hasMethod_call (by decide) column
  | unknown => exact Or.inr rfl

def sizesText (sizes : List UInt32) : String :=
  String.join (sizes.map fun n => ", " ++ toString n) ++ ")"

theorem isCode_sizesText (sizes : List UInt32) : IsCode (sizesText sizes).toList := by
  rw [sizesText, String.toList_append, isCode_append]
  refine ⟨?_, by decide⟩
  intro c hc
  rw [String.toList_join, List.flatMap_map, List.mem_flatMap] at hc
  obtain ⟨n, _, hc⟩ := hc
  rw [String.toList_append, List.mem_append] at hc
  rcases hc with hcomma | hdigit
  · exact (show IsCode ", ".toList by decide) c hcomma
  · exact isCode_digit (isDigit_of_mem_count hdigit) c List.mem_cons_self

/-- A call with a name for its first argument. -/
def namedCall (method name rest : String) : List Piece :=
  codes (method ++ "(") ++ .string name :: codes rest

theorem phrase_namedCall {method rest : String} (hmethod : IsCode method.toList)
    (hrest : IsCode rest.toList) (name : String) :
    Phrase (method ++ "(" ++ singleQuoted name ++ rest).toList (namedCall method name rest) := by
  have hopen : IsCode (method ++ "(").toList := by
    rw [String.toList_append]
    exact isCode_append.mpr ⟨hmethod, by decide⟩
  have hcall := (phrase_codes hopen).append
    ((phrase_singleQuoted name).append (phrase_codes hrest))
  rw [String.toList_append, String.toList_append, List.append_assoc]
  exact hcall

theorem phrase_sizedCall {method : String} (hmethod : IsCode method.toList) (name : String)
    (sizes : List UInt32) :
    Phrase (sizedCall method name sizes).toList (namedCall method name (sizesText sizes)) := by
  have hcall := phrase_namedCall hmethod (isCode_sizesText sizes) name
  rwa [sizesText, ← String.append_assoc] at hcall

theorem exists_phrase_typeCall (column : Column) :
    ∃ method ∈ typeMethods, ∃ rest,
      Phrase (typeCall column).toList (namedCall method column.name rest) := by
  rcases hasMethod_typeCall column with ⟨method, hmem, sizes, htext⟩ | htext
  · refine ⟨method, hmem, sizesText sizes, ?_⟩
    rw [htext]
    exact phrase_sizedCall (isCode_typeMethod method hmem) column.name sizes
  · have hstring : IsCode "string".toList := by decide
    have hcall := phrase_namedCall hstring (show IsCode ")".toList by decide) column.name
    have hboth := hcall.append (phrase_comment column.rawType)
    have htext' : (typeCall column).toList =
        ("string" ++ "(" ++ singleQuoted column.name ++ ")").toList ++
          (" /* " ++ Text.uncommented column.rawType ++ " */").toList := by
      rw [htext]
      simp [fallbackCall, call]
    have hpieces : namedCall "string" column.name ") " =
        namedCall "string" column.name ")" ++ codes " " := by
      simp [namedCall, codes]
    refine ⟨"string", by decide, ") ", ?_⟩
    rw [htext', hpieces]
    exact hboth

/-- How the line of a column begins: with the method that makes the column. -/
inductive Creates (column : Column) : List Piece → Prop
  | unnamed (hidentity : isIdentity column = true) (hname : column.name = "id") :
    Creates column (codes "id()")
  | named (hidentity : isIdentity column = true) (hname : column.name ≠ "id") :
    Creates column (namedCall "id" column.name ")")
  | typed {method rest : String} (hidentity : isIdentity column = false)
    (hmethod : method ∈ typeMethods) : Creates column (namedCall method column.name rest)

theorem exists_creates (column : Column) :
    ∃ pieces, Creates column pieces ∧ Phrase (columnCall column).toList pieces := by
  unfold columnCall
  cases hidentity : isIdentity column with
  | false =>
    obtain ⟨method, hmem, rest, hphrase⟩ := exists_phrase_typeCall column
    exact ⟨_, .typed hidentity hmem, hphrase⟩
  | true =>
    by_cases hname : column.name = "id"
    · refine ⟨_, .unnamed hidentity hname, ?_⟩
      rw [if_pos rfl, identityCall, if_pos (beq_iff_eq.mpr hname)]
      exact phrase_codes (by decide)
    · refine ⟨_, .named hidentity hname, ?_⟩
      rw [if_pos rfl, identityCall, if_neg (fun h => hname (beq_iff_eq.mp h))]
      exact phrase_namedCall (by decide) (by decide) column.name

@[simp] theorem stringsOf_namedCall (method name rest : String) :
    stringsOf (namedCall method name rest) = [name] := by
  simp [namedCall]

theorem Creates.strings {column : Column} {pieces : List Piece} (h : Creates column pieces) :
    stringsOf pieces = (nameString? column).toList := by
  cases h with
  | unnamed hidentity hname => simp [nameString?, hidentity, hname]
  | named hidentity hname => simp [nameString?, hname]
  | typed hidentity hmethod => simp [nameString?, hidentity]

theorem exists_phrase_defaultModifier (column : Column) (value : String) :
    ∃ pieces, Phrase (defaultModifier column value).toList pieces ∧
      stringsOf pieces = (if standsQuoted column value then [value] else []) := by
  unfold defaultModifier standsQuoted
  cases hnow : Column.isCurrentTimestamp value with
  | true => exact ⟨_, phrase_codes (s := "->useCurrent()") (by decide), by simp⟩
  | false =>
    have hopen : IsCode "->default(".toList := by decide
    have hclose : IsCode ")".toList := by decide
    cases hnumber : takesNumber column.family && isNumber (Text.trim value) with
    | true =>
      have hdigits : IsCode (Text.trim value).toList := by
        intro c hc
        rcases char_of_isNumber (Bool.and_eq_true_iff.mp hnumber).2 hc with rfl | hdigit | rfl
        · decide
        · exact isCode_digit hdigit c List.mem_cons_self
        · decide
      have hphrase :=
        ((phrase_codes hopen).append (phrase_codes hdigits)).append (phrase_codes hclose)
      refine ⟨codes "->default(" ++ codes (Text.trim value) ++ codes ")", ?_, by simp⟩
      simp only [Bool.false_eq_true, if_false, if_true, String.toList_append]
      exact hphrase
    | false =>
      have hphrase :=
        ((phrase_codes hopen).append (phrase_singleQuoted value)).append (phrase_codes hclose)
      refine ⟨codes "->default(" ++ [.string value] ++ codes ")", ?_, by simp⟩
      simp only [Bool.false_eq_true, if_false, String.toList_append]
      exact hphrase

theorem exists_phrase_modifiers (column : Column) :
    ∃ pieces, Phrase (modifiers column).toList pieces ∧
      stringsOf pieces = (quotedDefault? column).toList := by
  have hcount : IsCode
      (if column.autoIncrement && !column.isPrimary then "->autoIncrement()" else "").toList := by
    split
    · decide
    · decide
  have hnullable : IsCode (if column.nullable then "->nullable()" else "").toList := by
    split
    · decide
    · decide
  have hunique : IsCode (if column.key == .unique then "->unique()" else "").toList := by
    split
    · decide
    · decide
  have hfront := (phrase_codes hcount).append (phrase_codes hnullable)
  have hback := phrase_codes hunique
  unfold modifiers quotedDefault?
  simp only [String.toList_append]
  cases hdefault : column.default? with
  | none =>
    refine ⟨_, (hfront.append (phrase_codes (s := "") (by decide))).append hback, ?_⟩
    simp
  | some value =>
    obtain ⟨pieces, hphrase, hstrings⟩ := exists_phrase_defaultModifier column value
    refine ⟨_, (hfront.append hphrase).append hback, ?_⟩
    cases hquoted : standsQuoted column value with
    | true => simp [hstrings, hquoted, Option.filter_some]
    | false => simp [hstrings, hquoted, Option.filter_some]

def foreignKeyPieces (relation : Relation) : List Piece :=
  namedCall "foreign" relation.column ")->references(" ++
    .string relation.referencedColumn :: (codes ")->on(" ++
      .string relation.referencedTable :: (codes ")->onDelete(" ++
        .string "cascade" :: codes ")"))

theorem phrase_foreignKeyCall (relation : Relation) :
    Phrase (foreignKeyCall relation).toList (foreignKeyPieces relation) := by
  have hforeign : IsCode "foreign".toList := by decide
  have hreference : IsCode ")->references(".toList := by decide
  have hgap : IsCode ")->on(".toList := by decide
  have hrule : IsCode ")->onDelete(".toList := by decide
  have hcascade := (phrase_singleQuoted "cascade").append
    (phrase_codes (show IsCode ")".toList by decide))
  have htable := (phrase_singleQuoted relation.referencedTable).append
    ((phrase_codes hrule).append hcascade)
  have hcolumn := (phrase_singleQuoted relation.referencedColumn).append
    ((phrase_codes hgap).append htable)
  have hcall := (phrase_namedCall hforeign hreference relation.column).append hcolumn
  have hquoted : ")->onDelete('cascade')".toList =
      ")->onDelete(".toList ++ ((singleQuoted "cascade").toList ++ ")".toList) := by decide
  unfold foreignKeyCall
  simp only [String.toList_append, List.append_assoc, hquoted] at hcall ⊢
  exact hcall

/-- What the line calls on the table, read as a script. -/
inductive Line.Reads : Line → List Piece → Prop
  | column {column : Column} {pieces more : List Piece} (hcreates : Creates column pieces)
    (hdefault : stringsOf more = (quotedDefault? column).toList) :
    Line.Reads (.column column) (pieces ++ more)
  | foreignKey (relation : Relation) : Line.Reads (.foreignKey relation) (foreignKeyPieces relation)
  | timestamps : Line.Reads .timestamps (codes "timestamps()")
  | softDeletes : Line.Reads .softDeletes (codes "softDeletes()")

theorem Line.exists_reads (line : Line) :
    ∃ pieces, line.Reads pieces ∧ Phrase line.call.toList pieces := by
  cases line with
  | column column =>
    obtain ⟨pieces, hcreates, hcall⟩ := exists_creates column
    obtain ⟨more, hmodifiers, hstrings⟩ := exists_phrase_modifiers column
    refine ⟨pieces ++ more, .column hcreates hstrings, ?_⟩
    rw [Line.call, String.toList_append]
    exact hcall.append hmodifiers
  | foreignKey relation => exact ⟨_, .foreignKey relation, phrase_foreignKeyCall relation⟩
  | timestamps => exact ⟨_, .timestamps, phrase_codes (by decide)⟩
  | softDeletes => exact ⟨_, .softDeletes, phrase_codes (by decide)⟩

def Line.strings : Line → List String
  | .column source => columnStrings source
  | .foreignKey relation => relationStrings relation
  | .timestamps => []
  | .softDeletes => []

theorem Line.Reads.strings {line : Line} {pieces : List Piece} (h : line.Reads pieces) :
    stringsOf pieces = line.strings := by
  cases h with
  | column hcreates hdefault =>
    rw [stringsOf_append, hcreates.strings, hdefault, Line.strings, columnStrings]
  | foreignKey relation => simp [foreignKeyPieces, Line.strings, relationStrings]
  | timestamps => exact stringsOf_codes _
  | softDeletes => exact stringsOf_codes _

def Line.callPieces (line : Line) : List Piece := (scan .code line.call.toList).2

theorem Line.phrase (line : Line) : Phrase line.call.toList line.callPieces := by
  obtain ⟨pieces, _, hphrase⟩ := line.exists_reads
  rwa [Line.callPieces, hphrase.scans]

theorem Line.reads (line : Line) : line.Reads line.callPieces := by
  obtain ⟨pieces, hreads, hphrase⟩ := line.exists_reads
  rwa [Line.callPieces, hphrase.scans]

/-- The pieces of a line of the body, with the break before it. -/
def Line.pieces (line : Line) : List Piece :=
  .code '\n' :: (codes "            $table->" ++ line.callPieces) ++ [.code ';']

theorem Line.opened (line : Line) :
    Phrase ('\n' :: ("            $table->".toList ++ line.call.toList))
      (.code '\n' :: (codes "            $table->" ++ line.callPieces)) :=
  ((phrase_codes (isCode_ofList (by decide))).append line.phrase).newLine

theorem scans_end : Scans ";".toList [.code ';'] := by
  rw [String.toList_ofList]
  rfl

theorem Line.scans (line : Line) : Scans ('\n' :: line.text.toList) line.pieces := by
  have hline := line.opened.scans.append scans_end
  unfold Line.text Line.pieces
  simp only [String.toList_append]
  exact hline

/-- The lines before the one that makes the table. -/
def head : List String := (opening ⟨"", [], []⟩).dropLast

def foot : List String := (closing ⟨"", [], []⟩).take 8

def tail : List String := (closing ⟨"", [], []⟩).drop 9

def broken (lines : List String) : List Char := lines.flatMap ('\n' :: ·.toList)

/-- A document is its body between two lines that name the table, and three texts that are the
same for all tables. -/
theorem toList_ofTable (table : Table) :
    (ofTable table).toList =
      (String.intercalate "\n" head).toList ++
        '\n' :: ("        Schema::create(".toList ++ ((singleQuoted table.name).toList ++
          ", function (Blueprint $table) \x7b".toList)) ++
        (body table).flatMap (fun line => '\n' :: line.text.toList) ++
        broken foot ++
        '\n' :: ("        Schema::dropIfExists(".toList ++ ((singleQuoted table.name).toList ++
          ");".toList)) ++
        broken tail := by
  have hopening : opening table = head ++ ["        Schema::create(" ++ singleQuoted table.name ++
      ", function (Blueprint $table) \x7b"] := rfl
  have hclosing : closing table = foot ++ ["        Schema::dropIfExists(" ++
      singleQuoted table.name ++ ");"] ++ tail := rfl
  have hne : head.map String.toList ≠ [] := List.cons_ne_nil _ _
  have hbreak : "\n".toList = ['\n'] := String.toList_ofList
  rw [ofTable, hopening, hclosing, String.toList_intercalate, String.toList_intercalate]
  simp only [List.map_append, List.append_assoc]
  rw [intercalate_append_eq_flatMap hne, hbreak]
  simp only [broken, List.map_cons, List.map_nil, List.flatMap_append, List.flatMap_cons,
    List.flatMap_map, String.toList_append, List.append_assoc, List.cons_append,
    List.nil_append]

/-- What a statement calls on the table, when it is a call on the table. -/
def callOf? (statement : List Piece) : Option (List Piece) :=
  (statement.dropWhile Piece.isBlank).dropPrefix? (codes "$table->")

def calls (pieces : List Piece) : List (List Piece) := (statements pieces).filterMap callOf?

theorem calls_append_separator (pieces more : List Piece) {piece : Piece}
    (h : isSeparator piece = true) :
    calls (pieces ++ piece :: more) = calls pieces ++ calls more := by
  rw [calls, statements_append_separator pieces more h, List.filterMap_append]
  rfl

theorem calls_unbroken {pieces : List Piece} (h : ∀ piece ∈ pieces, isSeparator piece = false) :
    calls pieces = (callOf? pieces).toList := by
  rw [calls, statements_unbroken h]
  cases hcall : callOf? pieces with
  | none => simp [hcall]
  | some call => simp [hcall]

theorem callOf_table (pieces : List Piece) :
    callOf? (.code '\n' :: (codes "            $table->" ++ pieces)) = some pieces := by
  have hblanks : (.code '\n' :: (codes "            $table->" ++ pieces)).dropWhile Piece.isBlank =
      codes "$table->" ++ pieces := by
    rw [codes, codes, String.toList_ofList, String.toList_ofList]
    rfl
  rw [callOf?, hblanks]
  exact List.dropPrefix?_append_of_beq pieces (beq_self_eq_true _)

theorem calls_line (line : Line) (rest : List Piece) :
    calls (line.pieces ++ rest) = line.callPieces :: calls rest := by
  rw [Line.pieces, List.append_assoc, List.singleton_append,
    calls_append_separator _ _ (show isSeparator (.code ';') = true by decide),
    calls_unbroken line.opened.unbroken, callOf_table]
  rfl

/-- The lines of the body are the calls on the table, one statement each. -/
theorem calls_lines (lines : List Line) (rest : List Piece) :
    calls (lines.flatMap Line.pieces ++ rest) = lines.map Line.callPieces ++ calls rest := by
  induction lines with
  | nil => rfl
  | cons line lines ih =>
    rw [List.flatMap_cons, List.append_assoc, calls_line, ih, List.map_cons, List.cons_append]

/-- A text around the body: read from code to code it has these strings and calls nothing on
the table, and a statement ends with it. -/
structure Frame (s : List Char) (pieces : List Piece) (strings : List String) : Prop where
  scans : Scans s pieces
  strings_eq : stringsOf pieces = strings
  calls_append : ∀ rest, calls (pieces ++ rest) = calls rest

theorem Frame.append {s t : List Char} {pieces more : List Piece} {strings others : List String}
    (hs : Frame s pieces strings) (ht : Frame t more others) :
    Frame (s ++ t) (pieces ++ more) (strings ++ others) where
  scans := hs.scans.append ht.scans
  strings_eq := by rw [stringsOf_append, hs.strings_eq, ht.strings_eq]
  calls_append rest := by rw [List.append_assoc, hs.calls_append, ht.calls_append]

def isFrame (s : List Char) : Bool :=
  (scan .code s).1 == .code && stringsOf (scan .code s).2 == [] &&
    calls (scan .code s).2.dropLast == [] && (scan .code s).2.getLast?.any isSeparator

theorem frame_of_isFrame {s : List Char} (h : isFrame s = true) : Frame s (scan .code s).2 [] := by
  simp only [isFrame, Bool.and_eq_true, beq_iff_eq, Option.any_eq_true_iff_get] at h
  obtain ⟨⟨⟨hplace, hstrings⟩, hcalls⟩, hlast, hend⟩ := h
  have hpieces : (scan .code s).2 =
      (scan .code s).2.dropLast ++ [(scan .code s).2.getLast?.get hlast] :=
    (List.dropLast_append_getLast? _ (Option.get_mem hlast)).symm
  refine ⟨Prod.ext hplace rfl, hstrings, ?_⟩
  intro rest
  rw [hpieces, List.append_assoc, List.singleton_append, calls_append_separator _ rest hend, hcalls,
    List.nil_append]

theorem frame_head : Frame (String.intercalate "\n" head).toList
    (scan .code (String.intercalate "\n" head).toList).2 [] := by
  apply frame_of_isFrame
  -- The heading is the same for all tables; it is looked through once by its characters.
  rw [String.toList_intercalate]
  unfold head opening
  simp only [List.dropLast, List.map]
  repeat rw [String.toList_ofList]
  decide +kernel

theorem frame_foot : Frame (broken foot) (scan .code (broken foot)).2 [] := by
  apply frame_of_isFrame
  unfold broken foot closing
  simp only [List.take, List.flatMap_cons, List.flatMap_nil]
  repeat rw [String.toList_ofList]
  decide +kernel

theorem frame_tail : Frame (broken tail) (scan .code (broken tail)).2 [] := by
  apply frame_of_isFrame
  unfold broken tail closing
  simp only [List.drop, List.flatMap_cons, List.flatMap_nil]
  repeat rw [String.toList_ofList]
  decide +kernel

/-- A statement with the name of the table, up to the piece that ends it. -/
def nameStatement (before name after : String) : List Piece :=
  .code '\n' :: (codes before ++ .string name :: codes after)

/-- A statement that names the table without calling anything on it. -/
theorem frame_nameStatement {before after : String} (hbefore : IsCode before.toList)
    (hafter : IsCode after.toList) {name : String}
    (hother : callOf? (nameStatement before name after) = none) {ending : String} {c : Char}
    (hending : ending.toList = after.toList ++ [c]) (hscan : Scans [c] [.code c])
    (hend : isSeparator (.code c) = true) :
    Frame ('\n' :: (before.toList ++ ((singleQuoted name).toList ++ ending.toList)))
      (nameStatement before name after ++ [.code c]) [name] := by
  have hphrase : Phrase ('\n' :: (before.toList ++ ((singleQuoted name).toList ++ after.toList)))
      (nameStatement before name after) :=
    ((phrase_codes hbefore).append
      ((phrase_singleQuoted name).append (phrase_codes hafter))).newLine
  refine ⟨?_, by simp [nameStatement], ?_⟩
  · have htext := hphrase.scans.append hscan
    simp only [List.cons_append, List.append_assoc, ← hending] at htext
    exact htext
  · intro rest
    rw [List.append_assoc, List.singleton_append, calls_append_separator _ _ hend,
      calls_unbroken hphrase.unbroken, hother]
    rfl

theorem frame_create (name : String) :
    ∃ pieces, Frame ('\n' :: ("        Schema::create(".toList ++ ((singleQuoted name).toList ++
      ", function (Blueprint $table) \x7b".toList))) pieces [name] := by
  have hother : callOf? (nameStatement "        Schema::create(" name
      ", function (Blueprint $table) ") = none := by
    rw [nameStatement, codes, String.toList_ofList]
    rfl
  have hending : ", function (Blueprint $table) \x7b".toList =
      ", function (Blueprint $table) ".toList ++ ['\x7b'] := by
    rw [String.toList_ofList, String.toList_ofList]
    rfl
  exact ⟨_, frame_nameStatement (isCode_ofList (by decide)) (isCode_ofList (by decide)) hother
    hending rfl rfl⟩

theorem frame_drop (name : String) :
    ∃ pieces, Frame ('\n' :: ("        Schema::dropIfExists(".toList ++
      ((singleQuoted name).toList ++ ");".toList))) pieces [name] := by
  have hother : callOf? (nameStatement "        Schema::dropIfExists(" name ")") = none := by
    rw [nameStatement, codes, String.toList_ofList]
    rfl
  have hending : ");".toList = ")".toList ++ [';'] := by
    rw [String.toList_ofList, String.toList_ofList]
    rfl
  exact ⟨_, frame_nameStatement (isCode_ofList (by decide)) (isCode_ofList (by decide)) hother
    hending rfl rfl⟩

/-- What comes before the body of a migration and what comes behind it. -/
theorem exists_frames (table : Table) :
    ∃ before front after back,
      (ofTable table).toList =
        before ++ ((body table).flatMap (fun line => '\n' :: line.text.toList) ++ after) ∧
      Frame before front [table.name] ∧ Frame after back [table.name] := by
  obtain ⟨create, hcreate⟩ := frame_create table.name
  obtain ⟨drop, hdrop⟩ := frame_drop table.name
  refine ⟨_, _, _, _, ?_, frame_head.append hcreate, frame_foot.append (hdrop.append frame_tail)⟩
  rw [toList_ofTable]
  simp only [List.append_assoc]

theorem stringsOf_lines (lines : List Line) :
    stringsOf (lines.flatMap Line.pieces) = lines.flatMap Line.strings := by
  have hline : ∀ line : Line, stringsOf line.pieces = line.strings := by
    intro line
    simp [Line.pieces, line.reads.strings]
  simp only [stringsOf_flatMap, hline]

/-- A migration is read from code to code; its strings are those of its lines between the name
of the table, and its calls on the table are the lines of its body. -/
theorem exists_pieces (table : Table) :
    ∃ pieces, pieces? (ofTable table) = some pieces ∧
      stringsOf pieces = table.name :: ((body table).flatMap Line.strings ++ [table.name]) ∧
      calls pieces = (body table).map Line.callPieces := by
  obtain ⟨before, front, after, back, htext, hfront, hback⟩ := exists_frames table
  have hbody := scans_flatMap fun line (_ : line ∈ body table) => line.scans
  have hscans := hfront.scans.append (hbody.append hback.scans)
  rw [← htext] at hscans
  refine ⟨_, hscans.pieces_eq, ?_, ?_⟩
  · rw [stringsOf_append, stringsOf_append, hfront.strings_eq, hback.strings_eq, stringsOf_lines]
    rfl
  · have hlast : calls back = [] := by
      have hnil := hback.calls_append []
      rw [List.append_nil] at hnil
      rw [hnil]
      rfl
    rw [hfront.calls_append, calls_lines, hlast, List.append_nil]

/-- Read as a script a migration leaves no string and no comment open, and its strings are the
name of the table, the names and defaults of the columns with a line of their own, the columns
and tables of the relations, and the name of the table again. -/
theorem text_stays_quoted (table : Table) :
    (pieces? (ofTable table)).map stringsOf =
      some (table.name ::
        ((table.columns.filter fun column => !isTimestampName column.name).flatMap columnStrings ++
          table.relations.flatMap relationStrings ++ [table.name])) := by
  obtain ⟨pieces, hpieces, hstrings, _⟩ := exists_pieces table
  have hbody : (body table).flatMap Line.strings =
      (table.columns.filter fun column => !isTimestampName column.name).flatMap columnStrings ++
        table.relations.flatMap relationStrings := by
    have hends : ((if table.hasTimestamps then [Line.timestamps] else []) ++
        if table.hasSoftDeletes then [Line.softDeletes] else []).flatMap Line.strings = [] := by
      rw [List.flatMap_eq_nil_iff]
      intro line hline
      cases line with
      | column source => simp at hline
      | foreignKey relation => simp at hline
      | timestamps => rfl
      | softDeletes => rfl
    rw [body, List.append_assoc, List.flatMap_append, hends, List.append_nil, List.flatMap_append,
      List.flatMap_map, List.flatMap_map]
    rfl
  rw [hpieces, Option.map_some, hstrings, hbody]

end Schemata.Document.Migration
