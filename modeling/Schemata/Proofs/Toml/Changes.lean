import Schemata.Proofs.Toml.Tables

/-!
What a change at the end of a path does to a table. The steps of the path enter the tables that
are there, an array of tables at its last element, or make new ones; only the table at the end
is changed, and everything outside it stays.
-/
namespace Schemata.Toml

variable {key : Key} {path : List Key} {shape shape' : Shape} {node node' : Node}
  {entries entries' inner inner' old new : Entries}

def spelled (path : List Key) : List String := path.map (·.name)

/-- The node holds an open table, or an array with one at its end, and gets another in its
place. -/
inductive Swaps (old new : Entries) : Node → Node → Prop
  | table {shape shape' : Shape} (hopen : ¬(Node.table shape old).IsValue) :
      Swaps old new (.table shape old) (.table shape' new)
  | last (earlier : List Node) {shape shape' : Shape} :
      Swaps old new (.tables (earlier ++ [.table shape old]))
        (.tables (earlier ++ [.table shape' new]))

/-- The table at the end of the path is changed, and those on the way to it with it. -/
inductive Puts (inner inner' : Entries) : List Key → Entries → Entries → Prop
  | here : Puts inner inner' [] inner inner'
  | fresh {key : Key} {path : List Key} {entries filled : Entries} (shape : Shape)
      (hnew : find? key.name entries = none) (hrest : Puts inner inner' path [] filled) :
      Puts inner inner' (key :: path) entries (entries ++ [(key, .table shape filled)])
  | within {key : Key} {path : List Key} {entries old new : Entries} {node node' : Node}
      (hfind : find? key.name entries = some node) (hswap : Swaps old new node node')
      (hrest : Puts inner inner' path old new) :
      Puts inner inner' (key :: path) entries (replace key.name node' entries)

theorem not_isValue_of_isOpen {dotted : Bool} (h : shape.isOpen dotted = true) :
    ¬(Node.table shape entries).IsValue := by
  rintro ⟨hbraces, himplicit⟩
  rw [Shape.isOpen, hbraces, himplicit] at h
  simp at h

theorem exists_swaps_of_changeIn {change : Change} {dotted : Bool}
    (h : changeIn change dotted node = some node') :
    ∃ shape old shape' new, change shape old = some (shape', new) ∧ Swaps old new node node' := by
  unfold changeIn at h
  split at h
  · rename_i shape old
    split at h
    · rename_i hopen
      obtain ⟨⟨shape', new⟩, hchange, hnode⟩ := Option.bind_eq_some_iff.mp h
      obtain rfl := Option.some.inj hnode
      exact ⟨shape, old, shape', new, hchange, .table (not_isValue_of_isOpen hopen)⟩
    · cases h
  · cases h

theorem exists_swaps_of_changeLast {change : Change} {elements elements' : List Node}
    (h : changeLast change elements = some elements') :
    ∃ shape old shape' new, change shape old = some (shape', new) ∧
      Swaps old new (.tables elements) (.tables elements') := by
  suffices hlast : ∃ earlier shape old shape' new, change shape old = some (shape', new) ∧
      elements = earlier ++ [.table shape old] ∧ elements' = earlier ++ [.table shape' new] by
    obtain ⟨earlier, shape, old, shape', new, hchange, rfl, rfl⟩ := hlast
    exact ⟨shape, old, shape', new, hchange, .last earlier⟩
  fun_induction changeLast change elements generalizing elements' with
  | case1 => cases h
  | case2 shape old =>
    obtain ⟨⟨shape', new⟩, hchange, helements⟩ := Option.bind_eq_some_iff.mp h
    obtain rfl := Option.some.inj helements
    exact ⟨[], shape, old, shape', new, hchange, rfl, rfl⟩
  | case3 first rest _ ih =>
    obtain ⟨rest', hrest, helements⟩ := Option.bind_eq_some_iff.mp h
    obtain rfl := Option.some.inj helements
    obtain ⟨earlier, shape, old, shape', new, hchange, rfl, rfl⟩ := ih hrest
    exact ⟨first :: earlier, shape, old, shape', new, hchange, rfl, rfl⟩

/-- A change at the end of a path changes one table, and that one as it says. -/
theorem exists_puts_of_changeAt {change : Change} {dotted inBraces : Bool}
    (h : changeAt dotted inBraces change path shape entries = some (shape', entries')) :
    ∃ atShape inner atShape' inner', change atShape inner = some (atShape', inner') ∧
      Puts inner inner' path entries entries' := by
  induction path generalizing shape entries shape' entries' with
  | nil => exact ⟨shape, entries, shape', entries', h, .here⟩
  | cons key path ih =>
    simp only [changeAt] at h
    split at h
    · rename_i hnew
      obtain ⟨⟨fresh, filled⟩, hfilled, hresult⟩ := Option.bind_eq_some_iff.mp h
      obtain ⟨rfl, rfl⟩ := Prod.mk.inj (Option.some.inj hresult)
      obtain ⟨atShape, inner, atShape', inner', hchange, hputs⟩ := ih hfilled
      exact ⟨atShape, inner, atShape', inner', hchange, .fresh fresh hnew hputs⟩
    · rename_i elements hfind
      obtain ⟨elements', hlast, hresult⟩ := Option.bind_eq_some_iff.mp h
      obtain ⟨rfl, rfl⟩ := Prod.mk.inj (Option.some.inj hresult)
      obtain ⟨_, old, _, new, hold, hswap⟩ := exists_swaps_of_changeLast hlast
      obtain ⟨atShape, inner, atShape', inner', hchange, hputs⟩ := ih hold
      exact ⟨atShape, inner, atShape', inner', hchange, .within hfind hswap hputs⟩
    · rename_i node _ hfind
      obtain ⟨node', hnode, hresult⟩ := Option.bind_eq_some_iff.mp h
      obtain ⟨rfl, rfl⟩ := Prod.mk.inj (Option.some.inj hresult)
      obtain ⟨_, old, _, new, hold, hswap⟩ := exists_swaps_of_changeIn hnode
      obtain ⟨atShape, inner, atShape', inner', hchange, hputs⟩ := ih hold
      exact ⟨atShape, inner, atShape', inner', hchange, .within hfind hswap hputs⟩

namespace Swaps

theorem mem_inners_last {earlier : List Node} {shape : Shape} {last : Entries} :
    inner ∈ (Node.tables (earlier ++ [.table shape last])).inners ↔
      inner ∈ (Node.tables earlier).inners ∨ inner = last := by
  simp [Node.inners]

theorem not_isValue (h : Swaps old new node node') : ¬node.IsValue := by
  cases h with
  | table hopen => exact hopen
  | last earlier => exact id

theorem isWhole (h : Swaps old new node node') (hnode : node.IsWhole) : node'.IsWhole := by
  cases h with
  | table => trivial
  | last earlier =>
    rintro element helement
    rcases List.mem_append.mp helement with hearlier | hlast
    · exact hnode element (List.mem_append_left _ hearlier)
    · rw [List.mem_singleton.mp hlast]
      trivial

theorem stays (h : Swaps old new node node') : node.Stays node' := by
  refine ⟨fun hvalue => absurd hvalue h.not_isValue, fun _ => ?_⟩
  cases h <;> trivial

theorem old_mem (h : Swaps old new node node') : old ∈ node.inners := by
  cases h with
  | table => exact List.mem_singleton_self old
  | last earlier => exact mem_inners_last.mpr (Or.inr rfl)

theorem new_mem (h : Swaps old new node node') : new ∈ node'.inners := by
  cases h with
  | table => exact List.mem_singleton_self new
  | last earlier => exact mem_inners_last.mpr (Or.inr rfl)

theorem mem_inners_of_mem (h : Swaps old new node node') (hinner : inner ∈ node.inners) :
    inner = old ∨ inner ∈ node'.inners := by
  cases h with
  | table => exact Or.inl (List.mem_singleton.mp hinner)
  | last earlier =>
    rcases mem_inners_last.mp hinner with hearlier | rfl
    · exact Or.inr (mem_inners_last.mpr (Or.inl hearlier))
    · exact Or.inl rfl

theorem mem_inners_of_mem_new (h : Swaps old new node node') (hinner : inner ∈ node'.inners) :
    inner = new ∨ inner ∈ node.inners := by
  cases h with
  | table => exact Or.inl (List.mem_singleton.mp hinner)
  | last earlier =>
    rcases mem_inners_last.mp hinner with hearlier | rfl
    · exact Or.inr (mem_inners_last.mpr (Or.inl hearlier))
    · exact Or.inl rfl

end Swaps

namespace Puts

theorem eq_nil (h : Puts inner inner' path entries entries') (hentries : entries = []) :
    inner = [] := by
  induction h with
  | here => exact hentries
  | fresh shape hnew hrest ih => exact ih rfl
  | within hfind hswap hrest ih =>
    rw [hentries] at hfind
    cases hfind

/-- What a path is looked up as before the change. -/
theorem lookUp_eq (h : Puts inner inner' path entries entries') :
    entriesAt?.lookUp path entries = some inner := by
  induction h with
  | here => rfl
  | fresh shape hnew hrest ih => rw [entriesAt?.lookUp, hnew, eq_nil hrest rfl]
  | within hfind hswap hrest ih =>
    rw [entriesAt?.lookUp, hfind]
    cases hswap with
    | table hopen => exact ih
    | last earlier =>
      simp only [List.getLast?_append, List.getLast?_singleton, Option.some_or]
      exact ih

theorem find_replace_self {node' : Node} (hfind : find? key.name entries = some node) :
    find? key.name (replace key.name node' entries) = some node' := by
  rw [find_replace, if_pos rfl, hfind]
  rfl

theorem lookUp_eq_after (h : Puts inner inner' path entries entries') :
    entriesAt?.lookUp path entries' = some inner' := by
  induction h with
  | here => rfl
  | fresh shape hnew hrest ih =>
    rw [entriesAt?.lookUp, find_append_new hnew]
    exact ih
  | within hfind hswap hrest ih =>
    rw [entriesAt?.lookUp, find_replace_self hfind]
    cases hswap with
    | table hopen => exact ih
    | last earlier =>
      simp only [List.getLast?_append, List.getLast?_singleton, Option.some_or]
      exact ih

theorem apart (h : Puts inner inner' path entries entries') (hinner : Apart inner → Apart inner')
    (hentries : Apart entries) : Apart entries' := by
  induction h with
  | here => exact hinner hentries
  | fresh shape hnew hrest ih =>
    refine hentries.append hnew trivial fun table htable => ?_
    rw [List.mem_singleton.mp htable]
    exact ih apart_nil
  | within hfind hswap hrest ih =>
    refine hentries.replace _ (hswap.isWhole (hentries.isWhole hfind)) fun table htable => ?_
    rcases hswap.mem_inners_of_mem_new htable with rfl | hsame
    · exact ih (hentries.of_find hfind hswap.old_mem)
    · exact hentries.of_find hfind hsame

/-- What lies in the changed table afterwards lies behind the path. -/
theorem lies_new (h : Puts inner inner' path entries entries') {rest : List String}
    (hlies : Lies rest node inner') : Lies (spelled path ++ rest) node entries' := by
  induction h with
  | here => exact hlies
  | fresh shape hnew hrest ih =>
    exact .within (find_append_new hnew _) (List.mem_singleton_self _) ih
  | within hfind hswap hrest ih => exact .within (find_replace_self hfind) hswap.new_mem ih

/-- A path that does not lead into the changed table leads on to where it did. -/
theorem lies (h : Puts inner inner' path entries entries') {names : List String}
    (hlies : Lies names node entries) :
    (∃ node', Lies names node' entries' ∧ node.Stays node') ∨
      ∃ rest, names = spelled path ++ rest ∧ Lies rest node inner := by
  induction h generalizing names node with
  | here => exact Or.inr ⟨names, rfl, hlies⟩
  | fresh shape hnew hrest ih => exact Or.inl (extends_append _ _ _ _ _ hlies)
  | @within key path entries old new outer outer' hfind hswap hrest ih =>
    have hother {name : String} (hname : name ≠ key.name) :
        find? name (replace key.name outer' entries) = find? name entries := by
      rw [find_replace, if_neg hname]
    cases hlies with
    | @here name _ _ hnode =>
      by_cases hname : name = key.name
      · subst hname
        obtain rfl := Option.some.inj (hfind.symm.trans hnode)
        exact Or.inl ⟨outer', .here (find_replace_self hfind), hswap.stays⟩
      · exact Or.inl ⟨node, .here ((hother hname).trans hnode), .refl node⟩
    | @within name _ _ _ table rest hnode htable hlater =>
      by_cases hname : name = key.name
      · subst hname
        obtain rfl := Option.some.inj (hfind.symm.trans hnode)
        rcases hswap.mem_inners_of_mem htable with rfl | hsame
        · rcases ih hlater with ⟨node', hnode', hstays⟩ | ⟨rest, rfl, hrest⟩
          · exact Or.inl ⟨node', .within (find_replace_self hfind) hswap.new_mem hnode', hstays⟩
          · exact Or.inr ⟨rest, rfl, hrest⟩
        · exact Or.inl ⟨node, .within (find_replace_self hfind) hsame hlater, .refl node⟩
      · exact Or.inl ⟨node, .within ((hother hname).trans hnode) htable hlater, .refl node⟩

theorem extends_of_inner (h : Puts inner inner' path entries entries')
    (hinner : Extends inner inner') : Extends entries entries' := by
  intro names node hlies
  rcases h.lies hlies with hkept | ⟨rest, rfl, hrest⟩
  · exact hkept
  · obtain ⟨node', hnode', hstays⟩ := hinner rest node hrest
    exact ⟨node', h.lies_new hnode', hstays⟩

end Puts

end Schemata.Toml
