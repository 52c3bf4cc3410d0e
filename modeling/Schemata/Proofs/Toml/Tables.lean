import Mathlib.Data.List.Nodup
import Schemata.Toml.Document

/-!
Tables as finite maps from names to nodes. A path of names leads through tables, and through any
element of an array of tables. What is added to a table, or put in the place of a table that is
still open, leaves the values where they are.
-/
namespace Schemata.Toml

variable {name : String} {key : Key} {node : Node} {entries inner : Entries}

def names (entries : Entries) : List String := entries.map (·.1.name)

theorem names_cons (key : Key) (node : Node) (entries : Entries) :
    names ((key, node) :: entries) = key.name :: names entries := rfl

theorem find_cons (key : Key) (node : Node) (entries : Entries) (name : String) :
    find? name ((key, node) :: entries) =
      if key.name = name then some node else find? name entries := by
  by_cases h : key.name = name
  · simp [find?, h]
  · have hne : (key.name == name) = false := beq_eq_false_iff_ne.mpr h
    simp [find?, h, hne]

theorem find_eq_none_iff : find? name entries = none ↔ name ∉ names entries := by
  simp [find?, Option.map_eq_none_iff, List.find?_eq_none, names]

theorem exists_key_of_find (h : find? name entries = some node) :
    ∃ key, (key, node) ∈ entries ∧ key.name = name := by
  obtain ⟨⟨key, _⟩, hentry, rfl⟩ := Option.map_eq_some_iff.mp h
  exact ⟨key, List.mem_of_find?_eq_some hentry, by simpa using List.find?_some hentry⟩

theorem find_append (name : String) (entries : Entries) (key : Key) (node : Node) :
    find? name (entries ++ [(key, node)]) =
      (find? name entries).or (if key.name = name then some node else none) := by
  induction entries with
  | nil => exact find_cons key node [] name
  | cons entry entries ih =>
    rw [List.cons_append, find_cons, find_cons, ih]
    split <;> rfl

theorem find_replace (other name : String) (node : Node) (entries : Entries) :
    find? other (replace name node entries) =
      if other = name then (find? name entries).map fun _ => node else find? other entries := by
  induction entries with
  | nil => simp [replace, find?]
  | cons entry entries ih =>
    obtain ⟨key, old⟩ := entry
    have hreplace : replace name node ((key, old) :: entries) =
        (key, if key.name = name then node else old) :: replace name node entries := rfl
    rw [hreplace, find_cons, find_cons, find_cons, ih]
    by_cases hother : other = name
    · subst hother
      by_cases hkey : key.name = other <;> simp [hkey]
    · by_cases hkey : key.name = other
      · simp [hkey, hother]
      · simp [hkey, hother]

theorem find_without (other name : String) (entries : Entries) :
    find? other (entries.filter (·.1.name != name)) =
      if other = name then none else find? other entries := by
  induction entries with
  | nil => simp [find?]
  | cons entry entries ih =>
    obtain ⟨key, node⟩ := entry
    by_cases hkey : key.name = name
    · rw [List.filter_cons_of_neg (by simp [hkey]), ih, find_cons]
      by_cases hother : other = name
      · simp [hother]
      · simp [hother, hkey, Ne.symm hother]
    · rw [List.filter_cons_of_pos (by simp [hkey]), find_cons, ih, find_cons]
      by_cases hother : other = name
      · simp [hother, hkey]
      · simp [hother]

theorem names_replace (name : String) (node : Node) (entries : Entries) :
    names (replace name node entries) = names entries := by
  rw [names, names, replace, List.map_map]
  rfl

/-- The tables that a node is made of. An array of tables has one for each element. -/
def Node.inners : Node → List Entries
  | .table _ entries => [entries]
  | .tables elements => elements.flatMap fun
    | .table _ entries => [entries]
    | _ => []
  | _ => []

/-- What a header can name, or a dotted key go through. -/
def Node.HoldsTables : Node → Prop
  | .table .. | .tables _ => True
  | _ => False

theorem Node.holdsTables_of_mem (h : inner ∈ node.inners) : node.HoldsTables := by
  cases node with
  | table => trivial
  | tables => trivial
  | scalar => cases h
  | array => cases h

/-- An array of tables holds nothing else. -/
def Node.IsWhole : Node → Prop
  | .tables elements => ∀ element ∈ elements, element.HoldsTables
  | _ => True

/-- No name is given twice in a table, and neither in one inside it. -/
inductive Apart : Entries → Prop
  | intro {entries : Entries} (nodup : (names entries).Nodup)
      (whole : ∀ entry ∈ entries, entry.2.IsWhole)
      (inners : ∀ entry ∈ entries, ∀ inner ∈ entry.2.inners, Apart inner) : Apart entries

/-- The node is what a path of names leads to. -/
inductive Lies : List String → Node → Entries → Prop
  | here {name : String} {node : Node} {entries : Entries} (h : find? name entries = some node) :
      Lies [name] node entries
  | within {name : String} {outer node : Node} {entries inner : Entries} {path : List String}
      (h : find? name entries = some outer) (hinner : inner ∈ outer.inners)
      (hpath : Lies path node inner) : Lies (name :: path) node entries

/-- What stands behind an equals sign. Nothing can be added to it later. -/
def Node.IsValue : Node → Prop
  | .scalar .. | .array .. => True
  | .table shape _ => shape.inBraces = true ∧ shape.implicit = false
  | .tables _ => False

theorem Node.IsValue.isWhole (h : node.IsValue) : node.IsWhole := by
  cases node with
  | tables => exact False.elim h
  | _ => trivial

/-- What may happen to a node while the lines behind it are taken. -/
structure Node.Stays (node node' : Node) : Prop where
  value : node.IsValue → node' = node
  tables : node.HoldsTables → node'.HoldsTables

theorem Node.Stays.refl (node : Node) : node.Stays node := ⟨fun _ => rfl, id⟩

theorem Node.Stays.trans {middle last : Node} (h : node.Stays middle) (hlast : middle.Stays last) :
    node.Stays last := by
  refine ⟨fun hvalue => ?_, hlast.tables ∘ h.tables⟩
  obtain rfl := h.value hvalue
  exact hlast.value hvalue

/-- Every path still leads somewhere, and to the same value where it leads to a value. -/
def Extends (entries entries' : Entries) : Prop :=
  ∀ path node, Lies path node entries → ∃ node', Lies path node' entries' ∧ node.Stays node'

theorem Extends.refl (entries : Entries) : Extends entries entries :=
  fun _ node h => ⟨node, h, .refl node⟩

theorem Extends.trans {middle last : Entries} (h : Extends entries middle)
    (hlast : Extends middle last) : Extends entries last := by
  intro path node hlies
  obtain ⟨node', hlies', hstays⟩ := h path node hlies
  obtain ⟨node'', hlies'', hstays'⟩ := hlast path node' hlies'
  exact ⟨node'', hlies'', hstays.trans hstays'⟩

theorem Lies.ne_nil {path : List String} (h : Lies path node entries) : path ≠ [] := by
  cases h <;> exact List.cons_ne_nil _ _

theorem Lies.exists_find {path : List String} (h : Lies (name :: path) node entries) :
    ∃ node, find? name entries = some node := by
  cases h with
  | here h => exact ⟨_, h⟩
  | within h => exact ⟨_, h⟩

/-- A path goes on from any entry that stays, or that is put in its place with more inside. -/
theorem extends_of_find {entries' : Entries}
    (h : ∀ name node, find? name entries = some node → ∃ node', find? name entries' = some node' ∧
      node.inners ⊆ node'.inners ∧ node.Stays node') : Extends entries entries' := by
  intro path node hlies
  cases hlies with
  | here hfind =>
    obtain ⟨node', hfind', -, hstays⟩ := h _ _ hfind
    exact ⟨node', .here hfind', hstays⟩
  | within hfind hinner hpath =>
    obtain ⟨outer', hfind', hinners, -⟩ := h _ _ hfind
    exact ⟨node, .within hfind' (hinners hinner) hpath, .refl node⟩

theorem extends_append (entries : Entries) (key : Key) (node : Node) :
    Extends entries (entries ++ [(key, node)]) := by
  apply extends_of_find
  intro name old hold
  refine ⟨old, ?_, List.Subset.refl _, .refl old⟩
  rw [find_append, hold]
  rfl

theorem find_append_new (h : find? key.name entries = none) (node : Node) :
    find? key.name (entries ++ [(key, node)]) = some node := by
  rw [find_append, h, if_pos rfl]
  rfl

theorem apart_nil : Apart [] :=
  .intro List.nodup_nil (fun _ h => nomatch h) fun _ h => nomatch h

theorem Apart.append (h : Apart entries) (hkey : find? key.name entries = none)
    (hwhole : node.IsWhole) (hnode : ∀ inner ∈ node.inners, Apart inner) :
    Apart (entries ++ [(key, node)]) := by
  obtain ⟨hnodup, hwholes, hinners⟩ := h
  have heach {P : Node → Prop} (hentries : ∀ entry ∈ entries, P entry.2) (hnode : P node) :
      ∀ entry ∈ entries ++ [(key, node)], P entry.2 := by
    rintro entry hentry
    rcases List.mem_append.mp hentry with hold | hnew
    · exact hentries entry hold
    · rwa [List.mem_singleton.mp hnew]
  refine .intro ?_ (heach hwholes hwhole)
    (heach (P := fun node => ∀ inner ∈ node.inners, Apart inner) hinners hnode)
  rw [names, List.map_append]
  refine hnodup.append (List.nodup_singleton _) ?_
  rw [List.map_singleton, List.disjoint_singleton]
  exact find_eq_none_iff.mp hkey

theorem Apart.replace (h : Apart entries) (name : String)
    (hwhole : node.IsWhole) (hnode : ∀ inner ∈ node.inners, Apart inner) :
    Apart (replace name node entries) := by
  obtain ⟨hnodup, hwholes, hinners⟩ := h
  have heach {P : Node → Prop} (hentries : ∀ entry ∈ entries, P entry.2) (hnode : P node) :
      ∀ entry ∈ Toml.replace name node entries, P entry.2 := by
    rintro entry hentry
    obtain ⟨⟨key, old⟩, hold, rfl⟩ := List.mem_map.mp hentry
    dsimp only
    split
    · exact hnode
    · exact hentries _ hold
  exact .intro (names_replace name node entries ▸ hnodup) (heach hwholes hwhole)
    (heach (P := fun node => ∀ inner ∈ node.inners, Apart inner) hinners hnode)

theorem Apart.isWhole (h : Apart entries) (hfind : find? name entries = some node) :
    node.IsWhole := by
  obtain ⟨-, hwholes, -⟩ := h
  obtain ⟨key, hmem, -⟩ := exists_key_of_find hfind
  exact hwholes _ hmem

theorem Apart.of_find (h : Apart entries) (hfind : find? name entries = some node)
    (hinner : inner ∈ node.inners) : Apart inner := by
  obtain ⟨-, -, hinners⟩ := h
  obtain ⟨key, hmem, -⟩ := exists_key_of_find hfind
  exact hinners _ hmem inner hinner

end Schemata.Toml
