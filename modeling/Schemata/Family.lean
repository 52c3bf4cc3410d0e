/-!
The families of column types. A type name belongs to at most one family; names that no
family lists belong to the unknown one. `all` is in the order in which families compare.
-/
namespace Schemata

inductive Family
  | integer
  | float
  | boolean
  | temporal
  | text
  | json
  | binary
  | unknown
  deriving DecidableEq, Repr

namespace Family

def all : List Family := [integer, float, boolean, temporal, text, json, binary, unknown]

def name : Family → String
  | integer => "integer"
  | float => "float"
  | boolean => "boolean"
  | temporal => "temporal"
  | text => "text"
  | json => "json"
  | binary => "binary"
  | unknown => "unknown"

def ofName? (name : String) : Option Family := all.find? (·.name == name)

def isNumeric : Family → Bool
  | integer | float => true
  | _ => false

def rank : Family → Nat
  | integer => 0
  | float => 1
  | boolean => 2
  | temporal => 3
  | text => 4
  | json => 5
  | binary => 6
  | unknown => 7

def below (family : Family) : List Family := all.filter (·.rank < family.rank)

def typeNames : Family → List String
  | integer =>
    ["tinyint", "smallint", "mediumint", "int", "integer", "bigint", "serial", "bigserial",
      "smallserial"]
  | float => ["float", "double", "real", "decimal", "numeric", "dec", "fixed", "money"]
  | boolean => ["bool", "boolean"]
  | temporal => ["date", "datetime", "timestamp", "timestamptz", "time", "timetz", "year"]
  | text =>
    ["char", "varchar", "character", "nchar", "nvarchar", "text", "tinytext", "mediumtext",
      "longtext", "citext", "uuid", "enum", "set"]
  | json => ["json", "jsonb"]
  | binary =>
    ["binary", "varbinary", "blob", "tinyblob", "mediumblob", "longblob", "bytea", "bit"]
  | unknown => []

def ofTypeName (typeName : String) : Family :=
  (all.find? (·.typeNames.contains typeName)).getD unknown

end Family

end Schemata
