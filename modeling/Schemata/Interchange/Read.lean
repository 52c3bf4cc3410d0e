import Schemata.Json.Record
import Schemata.Table

/-!
Tables read from a JSON text. Each record may be an object or an array of its fields, and
everything that has an obvious default may be left out.
-/
namespace Schemata.Interchange

open Json (Reader Problem)

def family : Reader Family := Reader.variant (Family.all.map (·.name)) Family.ofName?

def key : Reader Key := Reader.variant (Key.all.map (·.name)) Key.ofName?

def flags : Reader Flags := fun s => do
  let (flags, rest) ← Reader.list Reader.string s
  return (Flags.ofList flags, rest)

def columnType : Reader ColumnType :=
  Json.record "struct ParsedType"
    (.cons ⟨"base", family, none⟩
      (.cons ⟨"token", Reader.string, none⟩
        (.cons ⟨"length", Reader.optional Reader.count, some none⟩
          (.cons ⟨"precision", Reader.optional Reader.count, some none⟩
            (.cons ⟨"scale", Reader.optional Reader.count, some none⟩
              (.cons ⟨"unsigned", Reader.flag, some false⟩ .nil))))))
    fun (family, token, length, precision, scale, unsigned, ()) =>
      { family, token, length, precision, scale, unsigned }

def column : Reader Column :=
  Json.record "struct ColumnSchema"
    (.cons ⟨"name", Reader.string, none⟩
      (.cons ⟨"rawType", Reader.string, none⟩
        (.cons ⟨"parsedType", columnType, none⟩
          (.cons ⟨"nullable", Reader.flag, some false⟩
            (.cons ⟨"key", key, some .plain⟩
              (.cons ⟨"defaultValue", Reader.optional Reader.string, some none⟩
                (.cons ⟨"autoIncrement", Reader.flag, some false⟩
                  (.cons ⟨"extraFlags", flags, some .empty⟩ .nil))))))))
    fun (name, rawType, type, nullable, key, default?, autoIncrement, flags, ()) =>
      { name, rawType, type, nullable, key, default?, autoIncrement, flags }

def relation : Reader Relation :=
  Json.record "struct RelationSchema"
    (.cons ⟨"sourceColumn", Reader.string, none⟩
      (.cons ⟨"referencedTable", Reader.string, none⟩
        (.cons ⟨"referencedColumn", Reader.string, none⟩ .nil)))
    fun (column, referencedTable, referencedColumn, ()) =>
      { column, referencedTable, referencedColumn }

def table : Reader Table :=
  Json.record "struct TableSchema"
    (.cons ⟨"name", Reader.string, none⟩
      (.cons ⟨"columns", Reader.list column, none⟩
        (.cons ⟨"relations", Reader.list relation, some []⟩ .nil)))
    fun (name, columns, relations, ()) => { name, columns, relations }

def readTables (text : String) : Except Problem (List Table) := Reader.read (Reader.list table) text

def readColumnType (text : String) : Except Problem ColumnType := Reader.read columnType text

/-- What a JSON value is, for a message about a value of another kind. -/
def foundIn : Json → Found
  | .null => .null
  | .boolean value => .boolean value
  | .number n => Reader.foundNumber n
  | .string s => .string s
  | .array _ => .sequence
  | .object _ => .map

def familyNamed (name : String) : Except Mismatch Family :=
  match Family.ofName? name with
  | some family => .ok family
  | none => .error (.unknownVariant name (Family.all.map (·.name)))

def familyOfValue : Json → Except Mismatch Family
  | .string name => familyNamed name
  | .object [(name, value)] => do
    let family ← familyNamed name
    match value with
    | .null => return family
    | value => throw (.type (foundIn value) "unit")
  | .object _ => throw (.value .map "map with a single key")
  | value => throw (.type (foundIn value) "string or map")

end Schemata.Interchange
