import Schemata.Document.Interface
import Schemata.Document.Validator
import Schemata.Proofs.Text.Joined
import Schemata.Proofs.Text.Reader

/-!
Interfaces and schemas read as object types. Both documents are read with one reader that
knows how a language opens and closes a type and how it ends a property; only the names of
the types are given to it, since a name may hold any text. The schemas are then read for the
types that are inferred from them, which are those of the interfaces.
-/
namespace Schemata.Document.ObjectTypes

structure Property where
  key : String
  type : String
  deriving DecidableEq, Repr

structure Block where
  name : String
  properties : List Property
  deriving DecidableEq, Repr

def Block.keys (block : Block) : List String := block.properties.map (·.key)

/-- How a language writes an object type; no property begins like the closing text. -/
structure Form where
  opening : String → String
  indent : String
  ending : Char
  closing : String → String
  closing_parts : ∀ name rest, Text.after? indent ((closing name).toList ++ rest) = none

/-- A key with the colon behind it; in a quoted one a backslash stands for the character
behind it. -/
def readKey : List Char → Option (String × List Char)
  | '\'' :: s => do
    let (name, rest) ← Text.literal? '\'' (fun c => [c]) s
    let rest ← Text.after? ": " rest
    return (String.ofList name, rest)
  | s => do
    let (name, rest) ← Text.cut [':', ' '] s
    if isIdentifier name then some (String.ofList name, rest) else none

theorem readKey_quoted (name : String) (rest : List Char) :
    readKey ((singleQuoted name).toList ++ (": ".toList ++ rest)) = some (name, rest) := by
  have hliteral : Text.literal? '\'' (fun c => [c]) (Text.escapedChars '\'' name.toList ++
      '\'' :: (": ".toList ++ rest)) = some (name.toList, ": ".toList ++ rest) :=
    Text.literal_escaped (by decide) (fun _ _ => rfl) _ _
  have htext : (singleQuoted name).toList ++ (": ".toList ++ rest) =
      '\'' :: (Text.escapedChars '\'' name.toList ++ '\'' :: (": ".toList ++ rest)) := by
    simp [singleQuoted, Text.escaped]
  rw [htext, readKey, hliteral]
  simp only [Option.bind_eq_bind, Option.bind_some, Text.after_append, Option.pure_def,
    String.ofList_toList]

theorem ne_mark_of_isIdentifier {s : List Char} (h : isIdentifier s = true) {c : Char}
    (hc : c ∈ s) : c ≠ '\'' ∧ c ≠ ':' := by
  have hletter : startsIdentifier c = true ∨ c.isDigit = true := by
    cases s with
    | nil => cases hc
    | cons d s =>
      simp only [isIdentifier, Bool.and_eq_true, List.all_eq_true, Bool.or_eq_true] at h
      rcases List.mem_cons.mp hc with rfl | hc
      · exact Or.inl h.1
      · exact h.2 c hc
  constructor
  · rintro rfl
    exact absurd hletter (by decide)
  · rintro rfl
    exact absurd hletter (by decide)

theorem readKey_identifier {name : String} (h : isIdentifier name.toList = true)
    (rest : List Char) :
    readKey (name.toList ++ (": ".toList ++ rest)) = some (name, rest) := by
  have hcut : Text.cut [':', ' '] (name.toList ++ (": ".toList ++ rest)) =
      some (name.toList, rest) :=
    Text.cut_append (fun hmem => (ne_mark_of_isIdentifier h hmem).2 rfl) [' '] rest
  -- An identifier does not begin with a quote, so that it is cut at the colon.
  have hhead : ∀ s, name.toList ++ (": ".toList ++ rest) ≠ '\'' :: s := by
    intro s hs
    cases hname : name.toList with
    | nil =>
      rw [hname] at h
      cases h
    | cons c cs =>
      rw [hname, List.cons_append] at hs
      have hc : c ∈ name.toList := hname ▸ List.mem_cons_self
      exact (ne_mark_of_isIdentifier h hc).1 (List.cons.inj hs).1
  unfold readKey
  split
  · rename_i s hs
    exact absurd hs (hhead s)
  · simp only [hcut, Option.bind_eq_bind, Option.bind_some, h, if_true, String.ofList_toList]

theorem readKey_propertyKey (name : String) (rest : List Char) :
    readKey ((propertyKey name).toList ++ (": ".toList ++ rest)) = some (name, rest) := by
  unfold propertyKey
  split
  · rename_i hidentifier
    exact readKey_identifier hidentifier rest
  · exact readKey_quoted name rest

namespace Form

variable (form : Form)

def readProperty (s : List Char) : Option (Property × List Char) := do
  let rest ← Text.after? form.indent s
  let (key, rest) ← readKey rest
  let (type, rest) ← Text.cut [form.ending, '\n'] rest
  return (⟨key, String.ofList type⟩, rest)

def readBlock (name : String) (s : List Char) : Option (Block × List Char) := do
  let rest ← Text.after? (form.opening name) s
  let (properties, rest) := Text.many form.readProperty rest
  let rest ← Text.after? (form.closing name) rest
  return (⟨name, properties⟩, rest)

/-- Further types of these names, each behind an empty line, up to the end of the text. -/
def readFurther : List String → List Char → Option (List Block)
  | [], s => if s.isEmpty then some [] else none
  | name :: names, s => do
    let rest ← Text.after? "\n\n" s
    let (block, rest) ← form.readBlock name rest
    let blocks ← readFurther names rest
    return block :: blocks

def readBlocks : List String → List Char → Option (List Block)
  | [], s => if s.isEmpty then some [] else none
  | name :: names, s => do
    let (block, rest) ← form.readBlock name s
    let blocks ← form.readFurther names rest
    return block :: blocks

def line (property : Property) : List Char :=
  form.indent.toList ++ ((propertyKey property.key).toList ++ (": ".toList ++
    (property.type.toList ++ [form.ending, '\n'])))

def written (block : Block) : List Char :=
  (form.opening block.name).toList ++ (block.properties.flatMap form.line ++
    (form.closing block.name).toList)

variable {form}

theorem line_ne_nil (property : Property) : form.line property ≠ [] := by
  simp [line]

theorem readProperty_line {property : Property} (h : form.ending ∉ property.type.toList)
    (rest : List Char) :
    form.readProperty (form.line property ++ rest) = some (property, rest) := by
  have hcut : Text.cut [form.ending, '\n']
      (property.type.toList ++ ([form.ending, '\n'] ++ rest)) =
        some (property.type.toList, rest) := Text.cut_append h ['\n'] rest
  rw [readProperty, line]
  simp only [List.append_assoc, Text.after_append, readKey_propertyKey, hcut,
    Option.bind_eq_bind, Option.bind_some, Option.pure_def, String.ofList_toList]

theorem readProperty_closing (name : String) (rest : List Char) :
    form.readProperty ((form.closing name).toList ++ rest) = none := by
  rw [readProperty, form.closing_parts]
  rfl

/-- The closing text of a type is no property, so that the properties end with it. -/
theorem readBlock_written {block : Block}
    (h : ∀ property ∈ block.properties, form.ending ∉ property.type.toList) (rest : List Char) :
    form.readBlock block.name (form.written block ++ rest) = some (block, rest) := by
  have hproperties := Text.many_flatMap line_ne_nil
    (fun property hproperty => readProperty_line (h property hproperty))
    (readProperty_closing block.name rest)
  rw [readBlock, written]
  simp only [List.append_assoc, Text.after_append, Option.bind_eq_bind, Option.bind_some,
    hproperties, Option.pure_def]

theorem readFurther_written {blocks : List Block}
    (h : ∀ block ∈ blocks, ∀ property ∈ block.properties,
      form.ending ∉ property.type.toList) :
    form.readFurther (blocks.map (·.name))
      (blocks.flatMap fun block => "\n\n".toList ++ form.written block) = some blocks := by
  induction blocks with
  | nil => rfl
  | cons block blocks ih =>
    have hblock := readBlock_written (h block List.mem_cons_self)
      (blocks.flatMap fun block => "\n\n".toList ++ form.written block)
    have hrest := ih fun other hother => h other (List.mem_cons_of_mem _ hother)
    rw [List.map_cons, readFurther, List.flatMap_cons, List.append_assoc, Text.after_append]
    simp only [Option.bind_eq_bind, Option.bind_some, hblock, hrest, Option.pure_def]

theorem readBlocks_written {blocks : List Block}
    (h : ∀ block ∈ blocks, ∀ property ∈ block.properties,
      form.ending ∉ property.type.toList) :
    form.readBlocks (blocks.map (·.name))
      ("\n\n".toList.intercalate (blocks.map form.written)) = some blocks := by
  cases blocks with
  | nil => rfl
  | cons block blocks =>
    have hblock := readBlock_written (h block List.mem_cons_self)
      (blocks.flatMap fun block => "\n\n".toList ++ form.written block)
    have hrest := readFurther_written fun other hother => h other (List.mem_cons_of_mem _ hother)
    rw [List.map_cons, List.map_cons, intercalate_cons_eq_flatMap, List.flatMap_map, readBlocks]
    simp only [Option.bind_eq_bind, Option.bind_some, hblock, hrest, Option.pure_def]

end Form

def interfaceForm : Form where
  opening name := "export interface " ++ name ++ " \x7b\n"
  indent := "    "
  ending := ';'
  closing _ := "\x7d"
  closing_parts _ rest := Text.after_ofList (by decide) rest

def schemaForm : Form where
  opening name := "export const " ++ name ++ "Schema = z.object(\x7b\n"
  indent := "  "
  ending := ','
  closing name := "\x7d);\n\nexport type " ++ name ++ " = z.infer<typeof " ++ name ++ "Schema>;"
  closing_parts name rest := by
    simp only [String.toList_append, List.append_assoc]
    exact Text.after_ofList (by decide) _

def readInterfaces (names : List String) (text : String) : Option (List Block) :=
  interfaceForm.readBlocks names text.toList

/-- Schemas stand behind the import of the library they are made with. -/
def readSchemas (names : List String) (text : String) : Option (List Block) := do
  let rest ← Text.after? "import \x7b z \x7d from 'zod';\n\n" text.toList
  schemaForm.readBlocks names rest

def typeName (table : Table) : String := Naming.pascal table.name

/-- The type of a table, with a property for each column. -/
def blockOf (typeOf : Column → String) (table : Table) : Block where
  name := typeName table
  properties := table.columns.map fun column => ⟨column.name, typeOf column⟩

theorem toList_interface (table : Table) :
    (Interface.ofTable table).toList =
      interfaceForm.written (blockOf Interface.propertyType table) := by
  unfold Interface.ofTable Form.written Form.line interfaceForm blockOf Interface.propertyLine
  simp [String.toList_join, List.flatMap_map, typeName]

theorem toList_schema (table : Table) :
    (Validator.ofTable table).toList = schemaForm.written (blockOf Validator.expression table) := by
  unfold Validator.ofTable Form.written Form.line schemaForm blockOf Validator.propertyLine
  simp [String.toList_join, List.flatMap_map, typeName]

theorem interfaceType_parts (column : Column) :
    interfaceForm.ending ∉ (Interface.propertyType column).toList := by
  unfold Interface.propertyType
  cases column.family <;> cases column.nullable <;> decide

theorem schemaType_parts (column : Column) :
    schemaForm.ending ∉ (Validator.expression column).toList := by
  unfold Validator.expression
  cases column.family <;> cases column.nullable <;> decide

/-- A document that writes its tables as the form says is read as their blocks. -/
theorem readBlocks_paragraphs {form : Form} {typeOf : Column → String} {textOf : Table → String}
    (htext : ∀ table, (textOf table).toList = form.written (blockOf typeOf table))
    (hparts : ∀ column, form.ending ∉ (typeOf column).toList) (tables : List Table) :
    form.readBlocks (tables.map typeName) (paragraphs (tables.map textOf)).toList =
      some (tables.map (blockOf typeOf)) := by
  have hblocks : ∀ block ∈ tables.map (blockOf typeOf), ∀ property ∈ block.properties,
      form.ending ∉ property.type.toList := by
    intro block hblock property hproperty
    obtain ⟨table, _, rfl⟩ := List.mem_map.mp hblock
    obtain ⟨column, _, rfl⟩ := List.mem_map.mp hproperty
    exact hparts column
  have hread := Form.readBlocks_written hblocks
  have hnames : (tables.map (blockOf typeOf)).map (·.name) = tables.map typeName := by
    rw [List.map_map]
    rfl
  have hwritten : (tables.map textOf).map String.toList =
      (tables.map (blockOf typeOf)).map form.written := by
    rw [List.map_map, List.map_map]
    exact List.map_congr_left fun table _ => htext table
  rwa [hnames, ← hwritten, ← String.toList_intercalate] at hread

theorem readInterfaces_text (tables : List Table) :
    readInterfaces (tables.map typeName) (Interface.text tables) =
      some (tables.map (blockOf Interface.propertyType)) :=
  readBlocks_paragraphs toList_interface interfaceType_parts tables

theorem readSchemas_text (tables : List Table) :
    readSchemas (tables.map typeName) (Validator.text tables) =
      some (tables.map (blockOf Validator.expression)) := by
  have hread := readBlocks_paragraphs toList_schema schemaType_parts tables
  rw [readSchemas, Validator.text, String.toList_append]
  change ((Text.after? Validator.heading (Validator.heading.toList ++ _)) >>= _) = _
  rw [Text.after_append]
  exact hread

/-- The types of the library, each with the type that is inferred from it. -/
def inferences : List (String × String) :=
  [("z.number().int()", "number"), ("z.number()", "number"), ("z.boolean()", "boolean"),
    ("z.date()", "Date"), ("z.string()", "string"), ("z.unknown()", "unknown"),
    ("z.instanceof(Uint8Array)", "Uint8Array")]

/-- The type that is inferred from an expression, which may be nullable once. -/
def inferred? (expression : String) : Option String :=
  inferences.findSome? fun (plain, type) =>
    if expression = plain then some type
    else if expression = plain ++ ".nullable()" then some (type ++ " | null")
    else none

def Property.inferred? (property : Property) : Option Property :=
  (ObjectTypes.inferred? property.type).map (⟨property.key, ·⟩)

def Block.inferred? (block : Block) : Option Block :=
  (block.properties.mapM Property.inferred?).map (⟨block.name, ·⟩)

theorem inferred_expression (column : Column) :
    inferred? (Validator.expression column) = some (Interface.propertyType column) := by
  unfold Validator.expression Interface.propertyType
  cases column.family <;> cases column.nullable <;> decide

theorem inferred_blockOf (table : Table) :
    (blockOf Validator.expression table).inferred? =
      some (blockOf Interface.propertyType table) := by
  have hcolumn : ∀ column : Column,
      Property.inferred? ⟨column.name, Validator.expression column⟩ =
        some ⟨column.name, Interface.propertyType column⟩ := by
    intro column
    rw [Property.inferred?, inferred_expression, Option.map_some]
  have hproperties : (table.columns.map fun column =>
      Property.mk column.name (Validator.expression column)).mapM Property.inferred? =
        some (table.columns.map fun column => ⟨column.name, Interface.propertyType column⟩) := by
    induction table.columns with
    | nil => rfl
    | cons column columns ih =>
      rw [List.map_cons, List.mapM_cons, hcolumn, ih]
      rfl
  rw [Block.inferred?, blockOf, hproperties, Option.map_some]
  rfl

/-- Read under the names of the tables, the interfaces and the schemas are one block for each
table in the order of the tables, with the names of its columns for keys, and the types that
are inferred from the schemas are those of the interfaces. -/
theorem schemas_infer_interfaces (tables : List Table) :
    ∃ interfaces schemas,
      readInterfaces (tables.map typeName) (Interface.text tables) = some interfaces ∧
      readSchemas (tables.map typeName) (Validator.text tables) = some schemas ∧
      interfaces.map (·.name) = tables.map typeName ∧
      interfaces.map Block.keys = tables.map (fun table => table.columns.map (·.name)) ∧
      schemas.map Block.inferred? = interfaces.map some := by
  refine ⟨_, _, readInterfaces_text tables, readSchemas_text tables, ?_, ?_, ?_⟩
  · rw [List.map_map]
    rfl
  · rw [List.map_map]
    apply List.map_congr_left
    intro table _
    simp [Block.keys, blockOf]
  · rw [List.map_map, List.map_map]
    apply List.map_congr_left
    intro table _
    exact inferred_blockOf table

end Schemata.Document.ObjectTypes
