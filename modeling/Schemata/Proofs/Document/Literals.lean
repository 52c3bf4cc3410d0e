import Mathlib.Data.List.Nodup
import Schemata.Proofs.Document.FieldAttributes
import Schemata.Proofs.Document.ObjectTypes
import Schemata.Proofs.Text.Letters

/-!
Literals that a reader finds the end of. In a literal a backslash makes the next character an
ordinary one, and the first mark that is not behind a backslash closes it. A key is a plain
identifier or a literal of the name, so that different names have different keys, also where the
keys stand in an interface and in a schema. The default of a text field is a literal of the default.
-/
namespace Schemata.Document

/-- A backslash in front of every occurrence of one character. -/
def guarded (c : Char) (s : List Char) : List Char :=
  s.flatMap fun d => if d = c then ['\\', d] else [d]

/-- Marks come after backslashes: the other way round, the backslashes in front of the marks
would get one of their own. -/
theorem escapedChars_eq_guarded {mark : Char} (h : mark ≠ '\\') (s : List Char) :
    Text.escapedChars mark s = guarded mark (guarded '\\' s) := by
  induction s with
  | nil => rfl
  | cons c s ih =>
    simp only [Text.escapedChars, guarded, List.flatMap_cons, List.flatMap_append] at ih ⊢
    rw [ih]
    by_cases hslash : c = '\\'
    · simp [hslash, Ne.symm h]
    · by_cases hmark : c = mark
      · simp [hmark, h]
      · simp [hslash, hmark]

theorem singleQuoted_eq_guarded (s : String) :
    singleQuoted s = "'" ++ String.ofList (guarded '\'' (guarded '\\' s.toList)) ++ "'" := by
  rw [singleQuoted, Text.escaped, escapedChars_eq_guarded (by decide)]

theorem doubleQuoted_eq_guarded (s : String) :
    doubleQuoted s = "\"" ++ String.ofList (guarded '"' (guarded '\\' s.toList)) ++ "\"" := by
  rw [doubleQuoted, Text.escaped, escapedChars_eq_guarded (by decide)]

/-- The text of a literal that takes up all of the given text. -/
def readLiteral? (mark : Char) (text : String) : Option String :=
  match text.toList with
  | [] => none
  | c :: s =>
    if c = mark then
      match Text.literal? mark (fun d => [d]) s with
      | some (body, []) => some (String.ofList body)
      | _ => none
    else none

theorem readLiteral_singleQuoted (name : String) :
    readLiteral? '\'' (singleQuoted name) = some name := by
  have hliteral : Text.literal? '\'' (fun d => [d])
      (Text.escapedChars '\'' name.toList ++ '\'' :: []) = some (name.toList, []) :=
    Text.literal_escaped (by decide) (fun _ _ => rfl) _ _
  have htext : (singleQuoted name).toList =
      '\'' :: (Text.escapedChars '\'' name.toList ++ '\'' :: []) := by
    simp [singleQuoted, Text.escaped]
  rw [readLiteral?, htext]
  simp only [if_true, hliteral, String.ofList_toList]

/-- Letters and digits of ASCII, underscores and dollar signs, with no digit at the front. -/
structure PlainIdentifier (name : List Char) : Prop where
  ne_nil : name ≠ []
  chars : ∀ c ∈ name, c.isAlphanum = true ∨ c = '_' ∨ c = '$'
  front : ∀ c ∈ name.head?, c.isDigit = false

theorem startsIdentifier_iff (c : Char) :
    startsIdentifier c = true ↔
      (c.isAlphanum = true ∨ c = '_' ∨ c = '$') ∧ c.isDigit = false := by
  have hletter : c.isAlpha = true → c.isDigit = false := by
    intro halpha
    have hcodes := Text.isAlpha_iff.mp halpha
    rw [← Bool.not_eq_true, Text.isDigit_iff]
    omega
  have hunderscore : c = '_' → c.isDigit = false := by
    rintro rfl
    rfl
  have hdollar : c = '$' → c.isDigit = false := by
    rintro rfl
    rfl
  simp only [startsIdentifier, Char.isAlphanum, Bool.or_eq_true, beq_iff_eq]
  cases hdigit : c.isDigit with
  | false => simp [or_assoc]
  | true =>
    rw [hdigit] at hletter hunderscore hdollar
    simp only [Bool.true_eq_false, imp_false] at hletter hunderscore hdollar
    simp [hletter, hunderscore, hdollar]

theorem isIdentifier_iff (name : List Char) : isIdentifier name = true ↔ PlainIdentifier name := by
  cases name with
  | nil => exact ⟨fun h => absurd h (by decide), fun h => absurd rfl h.ne_nil⟩
  | cons c rest =>
    have hrest (d : Char) : (startsIdentifier d || d.isDigit) = true ↔
        d.isAlphanum = true ∨ d = '_' ∨ d = '$' := by
      simp only [startsIdentifier, Char.isAlphanum, Bool.or_eq_true, beq_iff_eq]
      tauto
    simp only [isIdentifier, Bool.and_eq_true, List.all_eq_true, hrest, startsIdentifier_iff]
    constructor
    · rintro ⟨⟨hc, hfront⟩, hchars⟩
      exact ⟨List.cons_ne_nil c rest, List.forall_mem_cons.mpr ⟨hc, hchars⟩,
        fun d hd => Option.some.inj hd ▸ hfront⟩
    · intro h
      obtain ⟨hc, hchars⟩ := List.forall_mem_cons.mp h.chars
      exact ⟨⟨hc, h.front c rfl⟩, hchars⟩

theorem propertyKey_injective : Function.Injective propertyKey := by
  intro name other hkeys
  have hname := ObjectTypes.readKey_propertyKey name []
  rw [hkeys, ObjectTypes.readKey_propertyKey] at hname
  exact (Prod.mk.inj (Option.some.inj hname)).1.symm

namespace ObjectTypes

/-- A key as it is written, with its marks when it has any. -/
def keyText? (s : List Char) : Option (String × List Char) :=
  (readKey s).map fun (_, rest) =>
    (String.ofList (s.take (s.length - (": ".toList ++ rest).length)), rest)

theorem keyText_propertyKey (name : String) (rest : List Char) :
    keyText? ((propertyKey name).toList ++ (": ".toList ++ rest)) =
      some (propertyKey name, rest) := by
  rw [keyText?, readKey_propertyKey, Option.map_some]
  simp only [List.length_append, Nat.add_sub_cancel, List.take_left, String.ofList_toList]

/-- The properties with their keys as they are written. -/
def Block.rows (block : Block) : List Property :=
  block.properties.map fun property => ⟨propertyKey property.key, property.type⟩

theorem Block.key_rows (block : Block) : block.rows.map (·.key) = block.keys.map propertyKey := by
  rw [Block.rows, Block.keys, List.map_map, List.map_map]
  rfl

namespace Form

variable (form : Form)

/-- A property with its key as it is written. -/
def readRow (s : List Char) : Option (Property × List Char) := do
  let rest ← Text.after? form.indent s
  let (key, rest) ← keyText? rest
  let (type, rest) ← Text.cut [form.ending, '\n'] rest
  return (⟨key, String.ofList type⟩, rest)

/-- The keys of a type as they are written, when the text is this one type. -/
def writtenKeys? (name : String) (text : String) : Option (List String) := do
  let rest ← Text.after? (form.opening name) text.toList
  let (rows, rest) := Text.many form.readRow rest
  let rest ← Text.after? (form.closing name) rest
  if rest.isEmpty then some (rows.map (·.key)) else none

def row (row : Property) : List Char :=
  form.indent.toList ++ (row.key.toList ++ (": ".toList ++
    (row.type.toList ++ [form.ending, '\n'])))

variable {form}

theorem row_ne_nil (property : Property) : form.row property ≠ [] := by
  simp [row]

theorem readRow_row {name type : String} (h : form.ending ∉ type.toList) (rest : List Char) :
    form.readRow (form.row ⟨propertyKey name, type⟩ ++ rest) =
      some (⟨propertyKey name, type⟩, rest) := by
  have hcut : Text.cut [form.ending, '\n'] (type.toList ++ ([form.ending, '\n'] ++ rest)) =
      some (type.toList, rest) := Text.cut_append h ['\n'] rest
  rw [readRow, row]
  simp only [List.append_assoc, Text.after_append, keyText_propertyKey, hcut,
    Option.bind_eq_bind, Option.bind_some, Option.pure_def, String.ofList_toList]

theorem readRow_closing (name : String) (rest : List Char) :
    form.readRow ((form.closing name).toList ++ rest) = none := by
  rw [readRow, form.closing_parts]
  rfl

theorem writtenKeys_written {block : Block} {text : String}
    (htext : text.toList = form.written block)
    (h : ∀ property ∈ block.properties, form.ending ∉ property.type.toList) :
    form.writtenKeys? block.name text = some (block.keys.map propertyKey) := by
  have hrows : ∀ row ∈ block.rows, ∀ rest,
      form.readRow (form.row row ++ rest) = some (row, rest) := by
    intro row hrow rest
    obtain ⟨property, hproperty, rfl⟩ := List.mem_map.mp hrow
    exact readRow_row (h property hproperty) rest
  have hlines : block.properties.flatMap form.line = block.rows.flatMap form.row := by
    rw [Block.rows, List.flatMap_map]
    rfl
  have hread := Text.many_flatMap row_ne_nil hrows (readRow_closing block.name [])
  rw [List.append_nil] at hread
  have hclosing := Text.after_append (form.closing block.name) []
  rw [List.append_nil] at hclosing
  rw [writtenKeys?, htext, written, hlines]
  simp only [Text.after_append, Option.bind_eq_bind, Option.bind_some, hread, hclosing,
    List.isEmpty_nil, if_true, Block.key_rows]

end Form

theorem writtenKeys_table {form : Form} {typeOf : Column → String} {textOf : Table → String}
    (htext : ∀ table, (textOf table).toList = form.written (blockOf typeOf table))
    (hparts : ∀ column, form.ending ∉ (typeOf column).toList) (table : Table) :
    form.writtenKeys? (typeName table) (textOf table) =
      some (table.columns.map fun column => propertyKey column.name) := by
  have hproperties : ∀ property ∈ (blockOf typeOf table).properties,
      form.ending ∉ property.type.toList := by
    intro property hproperty
    obtain ⟨column, _, rfl⟩ := List.mem_map.mp hproperty
    exact hparts column
  have hkeys := Form.writtenKeys_written (htext table) hproperties
  simpa only [Block.keys, blockOf, List.map_map, Function.comp_def] using hkeys

end ObjectTypes

namespace PrismaModel

/-- The default in an attribute that holds one in double quotes: its literal is closed by the
last quote, with only the bracket behind it. -/
def readDefault? (text : String) : Option String :=
  match (Text.after? "@default(\"" text.toList).bind (Text.literal? '"' fun c => [c]) with
  | some (body, [')']) => some (String.ofList body)
  | _ => none

theorem readDefault_doubleQuoted (value : String) :
    readDefault? ("@default(" ++ doubleQuoted value ++ ")") = some value := by
  have hliteral : Text.literal? '"' (fun c => [c])
      (Text.escapedChars '"' value.toList ++ '"' :: [')']) = some (value.toList, [')']) :=
    Text.literal_escaped (by decide) (fun _ _ => rfl) _ _
  have htext : ("@default(" ++ doubleQuoted value ++ ")").toList =
      "@default(\"".toList ++ (Text.escapedChars '"' value.toList ++ '"' :: [')']) := by
    simp [doubleQuoted, Text.escaped]
  rw [readDefault?, htext, Text.after_append, Option.bind_some, hliteral]
  simp only [String.ofList_toList]

/-- What the attributes of a text column say of its default. -/
theorem defaultArgument_text {column : Column} (h : column.family = .text) :
    defaultArgument? column =
      if column.autoIncrement then some "autoincrement()"
      else if column.defaultsToNow then some "now()"
      else column.default?.map doubleQuoted := by
  rw [defaultArgument?, h]
  cases column.default? with
  | none => rfl
  | some value => rfl

theorem quotedDefault_cases {column : Column} (h : column.family = .text) {text : String}
    (hmem : text ∈ attributes column) :
    Text.after? "@default(\"" text.toList = none ∧ readDefault? text = none ∨
      ∃ value, column.default? = some value ∧ column.autoIncrement = false ∧
        column.defaultsToNow = false ∧ text = "@default(" ++ doubleQuoted value ++ ")" := by
  have hother {other : String} (hnone : Text.after? "@default(\"" other.toList = none) :
      Text.after? "@default(\"" other.toList = none ∧ readDefault? other = none := by
    refine ⟨hnone, ?_⟩
    rw [readDefault?, hnone]
    rfl
  rcases attribute_cases hmem with rfl | rfl | ⟨argument, hargument, rfl⟩ | ⟨n, rfl⟩
  · exact Or.inl (hother (by decide))
  · exact Or.inl (hother (by decide))
  · rw [defaultArgument_text h] at hargument
    split_ifs at hargument with hauto hnow
    · rw [← Option.some.inj hargument]
      exact Or.inl (hother (by decide))
    · rw [← Option.some.inj hargument]
      exact Or.inl (hother (by decide))
    · obtain ⟨value, hvalue, rfl⟩ := Option.map_eq_some_iff.mp hargument
      exact Or.inr ⟨value, hvalue, eq_false_of_ne_true hauto, eq_false_of_ne_true hnow, rfl⟩
  · refine Or.inl (hother ?_)
    rw [String.append_assoc, String.toList_append]
    exact Text.after_ofList (by decide) _

end PrismaModel

/-- Keys are plain identifiers or literals that are read back as the names, and so are different
for different names, as they stand in the interface and in the schema of a table. The default in
double quotes that a text column has among its attributes is read back as well. -/
theorem literals_read_back :
    (∀ name : String, PlainIdentifier name.toList ∧ propertyKey name = name ∨
      ¬PlainIdentifier name.toList ∧ readLiteral? '\'' (propertyKey name) = some name ∧
        propertyKey name =
          "'" ++ String.ofList (guarded '\'' (guarded '\\' name.toList)) ++ "'") ∧
    Function.Injective propertyKey ∧
    (∀ table : Table, ∃ keys,
      ObjectTypes.interfaceForm.writtenKeys? (ObjectTypes.typeName table)
        (Interface.ofTable table) = some keys ∧
      ObjectTypes.schemaForm.writtenKeys? (ObjectTypes.typeName table)
        (Validator.ofTable table) = some keys ∧
      keys = table.columns.map (fun column => propertyKey column.name) ∧
      ((table.columns.map (·.name)).Nodup → keys.Nodup)) ∧
    ∀ column : Column, column.family = .text →
      (∀ rest, "@default(\"" ++ rest ∈ PrismaModel.attributes column →
        ∃ value, column.default? = some value ∧
          rest = String.ofList (guarded '"' (guarded '\\' value.toList)) ++ "\")" ∧
          PrismaModel.readDefault? ("@default(\"" ++ rest) = some value) ∧
      ∀ value, (∃ text ∈ PrismaModel.attributes column,
          PrismaModel.readDefault? text = some value) ↔
        column.default? = some value ∧ column.autoIncrement = false ∧
          column.defaultsToNow = false := by
  refine ⟨fun name => ?_, propertyKey_injective, fun table => ?_, fun column hfamily =>
    ⟨fun rest hmem => ?_, fun value => ?_⟩⟩
  · rw [← isIdentifier_iff]
    by_cases hplain : isIdentifier name.toList = true
    · exact Or.inl ⟨hplain, if_pos hplain⟩
    · rw [propertyKey, if_neg hplain]
      exact Or.inr ⟨hplain, readLiteral_singleQuoted name, singleQuoted_eq_guarded name⟩
  · refine ⟨_, ObjectTypes.writtenKeys_table ObjectTypes.toList_interface
      ObjectTypes.interfaceType_parts table, ObjectTypes.writtenKeys_table
      ObjectTypes.toList_schema ObjectTypes.schemaType_parts table, rfl, fun hnames => ?_⟩
    have hkeys := List.Nodup.map propertyKey_injective hnames
    rwa [List.map_map] at hkeys
  · rcases PrismaModel.quotedDefault_cases hfamily hmem with
      ⟨hnone, _⟩ | ⟨value, hvalue, _, _, hwritten⟩
    · rw [String.toList_append, Text.after_append] at hnone
      cases hnone
    · refine ⟨value, hvalue, ?_, hwritten ▸ PrismaModel.readDefault_doubleQuoted value⟩
      rw [doubleQuoted_eq_guarded] at hwritten
      simpa [← String.toList_inj, String.toList_append] using hwritten
  · constructor
    · rintro ⟨text, hmem, hread⟩
      rcases PrismaModel.quotedDefault_cases hfamily hmem with
        ⟨_, hnone⟩ | ⟨written, hdefault, hauto, hnow, rfl⟩
      · rw [hnone] at hread
        cases hread
      · rw [← hread, PrismaModel.readDefault_doubleQuoted]
        exact ⟨hdefault, hauto, hnow⟩
    · rintro ⟨hvalue, hauto, hnow⟩
      have hargument : PrismaModel.defaultArgument? column = some (doubleQuoted value) := by
        rw [PrismaModel.defaultArgument_text hfamily, hauto, hnow, hvalue]
        rfl
      exact ⟨_, PrismaModel.default_mem_attributes hargument,
        PrismaModel.readDefault_doubleQuoted value⟩

/-- Quotes and backslashes at the ends of names, where a literal would close too early. -/
def quotations : Table where
  name := "quotations"
  columns := [Column.ofType "it's" "text", Column.ofType "it\\'s" "text", Column.ofType "\\" "text",
    { Column.ofType "said" "varchar(9)" with default? := some "\\\"\\" }]

theorem quotations_read_back :
    (quotations.columns.map (·.name)).Nodup ∧
      (quotations.columns.map fun column => propertyKey column.name).Nodup ∧
      ∃ column ∈ quotations.columns, column.family = .text ∧
        ∃ text ∈ PrismaModel.attributes column,
          PrismaModel.readDefault? text = some "\\\"\\" := by
  have hnames : (quotations.columns.map (·.name)).Nodup := by decide
  obtain ⟨_, _, htables, hdefaults⟩ := literals_read_back
  obtain ⟨_, _, _, rfl, hkeys⟩ := htables quotations
  refine ⟨hnames, hkeys hnames, _, List.mem_of_getLast? rfl, by decide +kernel, ?_⟩
  exact ((hdefaults _ (by decide +kernel)).2 _).mpr (by decide +kernel)

end Schemata.Document
