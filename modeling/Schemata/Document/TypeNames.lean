import Schemata.Family

/-!
Names that an output language gives to the families of column types. The first entry for
a family counts, and a family without one gets the fallback.
-/
namespace Schemata.Document

structure TypeNames where
  entries : List (Family × String)
  fallback : String

def TypeNames.name (names : TypeNames) (family : Family) : String :=
  (names.entries.lookup family).getD names.fallback

end Schemata.Document
