import Schemata.Proofs.Toml.Statements

/-!
Whole documents. The table that is being filled stands apart from the others, so a path leads
into the table of the document, to the header of the filled table, or on from it. Taking a line
loses none of these, and at the end all of them lead into the document that is read.
-/
namespace Schemata.Toml

variable {key : Key} {path parent : List Key} {shape before after : Shape} {node : Node}
  {given : Option Node} {line : Line} {span : Span}
  {entries inner inner' filled root root' : Entries} {b b' : Building}

/-- The path that a line names from the top of the document, and the value it gives for it. -/
def Line.statement (current : List String) : Line → List String × Option Node
  | .assignment path value => (current ++ spelled path, some value)
  | .header path _ | .elementHeader path _ => (spelled path, none)

/-- The table that the lines behind this one belong to. -/
def Line.table (current : List String) : Line → List String
  | .assignment .. => current
  | .header path _ | .elementHeader path _ => spelled path

def statementsIn (current : List String) : List Line → List (List String × Option Node)
  | [] => []
  | line :: lines => line.statement current :: statementsIn (line.table current) lines

/-- What the lines of a text say, in order. -/
def statements? (text : String) : Option (List (List String × Option Node)) :=
  let s := Text.withoutMark text.toList
  (lines? (s.length + 1) s).map (statementsIn [])

/-! Lines. -/

def Line.IsSound : Line → Prop
  | .assignment _ value => value.IsSound
  | .header .. | .elementHeader .. => True

theorem isSound_of_assignment {s left : List Char} (h : assignment? s = some (line, left)) :
    line.IsSound := by
  obtain ⟨⟨path, behind⟩, -, h⟩ := Option.bind_eq_some_iff.mp h
  obtain ⟨behind, -, h⟩ := Option.bind_eq_some_iff.mp h
  obtain ⟨⟨value, behind⟩, hvalue, h⟩ := Option.bind_eq_some_iff.mp h
  obtain ⟨behind, -, h⟩ := Option.bind_eq_some_iff.mp h
  obtain ⟨rfl, -⟩ := Prod.mk.inj (Option.some.inj h)
  exact isSound_of_value hvalue

theorem isSound_of_header {s left : List Char} (h : header? s = some (line, left)) :
    line.IsSound := by
  unfold header? at h
  split at h
  · obtain ⟨⟨path, behind⟩, -, h⟩ := Option.bind_eq_some_iff.mp h
    obtain ⟨behind, -, h⟩ := Option.bind_eq_some_iff.mp h
    obtain ⟨behind, -, h⟩ := Option.bind_eq_some_iff.mp h
    obtain ⟨behind, -, h⟩ := Option.bind_eq_some_iff.mp h
    obtain ⟨rfl, -⟩ := Prod.mk.inj (Option.some.inj h)
    exact trivial
  · obtain ⟨⟨path, behind⟩, -, h⟩ := Option.bind_eq_some_iff.mp h
    obtain ⟨behind, -, h⟩ := Option.bind_eq_some_iff.mp h
    obtain ⟨behind, -, h⟩ := Option.bind_eq_some_iff.mp h
    obtain ⟨rfl, -⟩ := Prod.mk.inj (Option.some.inj h)
    exact trivial
  · cases h

theorem isSound_of_lines {steps : Nat} {s : List Char} {lines : List Line}
    (h : lines? steps s = some lines) : ∀ line ∈ lines, line.IsSound := by
  induction steps generalizing s lines with
  | zero =>
    rw [lines?] at h
    cases h
  | succ steps ih =>
    rw [lines?] at h
    split at h
    · obtain rfl := Option.some.inj h
      exact fun _ hline => nomatch hline
    · obtain ⟨⟨line, behind⟩, hline, h⟩ := Option.bind_eq_some_iff.mp h
      obtain ⟨lines, hlines, h⟩ := Option.bind_eq_some_iff.mp h
      obtain rfl := Option.some.inj h
      exact List.forall_mem_cons.mpr ⟨isSound_of_header hline, ih hlines⟩
    · obtain ⟨⟨line, behind⟩, hline, h⟩ := Option.bind_eq_some_iff.mp h
      obtain ⟨lines, hlines, h⟩ := Option.bind_eq_some_iff.mp h
      obtain rfl := Option.some.inj h
      exact List.forall_mem_cons.mpr ⟨isSound_of_assignment hline, ih hlines⟩

/-! The places of tables. -/

theorem Lies.append {front back : List String} {outer : Node} (h : Lies front outer entries)
    (hinner : inner ∈ outer.inners) (hback : Lies back node inner) :
    Lies (front ++ back) node entries := by
  induction h with
  | here hfind => exact .within hfind hinner hback
  | within hfind htable _ ih => exact .within hfind htable (ih hinner)

theorem Apart.without (h : Apart entries) (name : String) :
    Apart (entries.filter (·.1.name != name)) := by
  obtain ⟨hnodup, hwholes, hinners⟩ := h
  exact .intro (hnodup.sublist (List.filter_sublist.map _))
    (fun entry hentry => hwholes entry (List.mem_of_mem_filter hentry))
    fun entry hentry => hinners entry (List.mem_of_mem_filter hentry)

theorem Puts.apart_inner (h : Puts inner inner' path root root') (hroot : Apart root) :
    Apart inner := by
  induction h with
  | here => exact hroot
  | fresh shape hnew hrest ih => exact ih apart_nil
  | within hfind hswap hrest ih => exact ih (hroot.of_find hfind hswap.old_mem)

/-- A table is taken into another one under a name. -/
structure Takes (filled : Entries) (name : String) (inner inner' : Entries) : Prop where
  apart : Apart filled → Apart inner → Apart inner'
  kept : Extends inner inner'
  found : ∃ node, find? name inner' = some node ∧ filled ∈ node.inners

theorem takes_append (hnew : find? key.name inner = none) (hnode : node.inners = [filled])
    (hwhole : node.IsWhole) : Takes filled key.name inner (inner ++ [(key, node)]) where
  apart hfilled hinner := by
    refine hinner.append hnew hwhole fun entries hentries => ?_
    rw [hnode] at hentries
    rwa [List.mem_singleton.mp hentries]
  kept := extends_append inner key node
  found := ⟨node, find_append_new hnew node, hnode ▸ List.mem_singleton_self filled⟩

theorem takes_of_appendElement
    (h : appendElement (.table shape filled) key before inner = some (after, inner')) :
    Takes filled key.name inner inner' := by
  unfold appendElement at h
  split at h
  · rename_i hnew
    obtain ⟨-, rfl⟩ := Prod.mk.inj (Option.some.inj h)
    exact takes_append hnew rfl (List.forall_mem_singleton.mpr trivial)
  · rename_i elements hfind
    obtain ⟨-, rfl⟩ := Prod.mk.inj (Option.some.inj h)
    have hinners {inner : Entries} :
        inner ∈ (Node.tables (elements ++ [.table shape filled])).inners ↔
          inner ∈ (Node.tables elements).inners ∨ inner = filled := Swaps.mem_inners_last
    have hwhole (hinner : Apart inner) :
        (Node.tables (elements ++ [.table shape filled])).IsWhole :=
      List.forall_mem_append.mpr ⟨hinner.isWhole hfind, List.forall_mem_singleton.mpr trivial⟩
    refine ⟨fun hfilled hinner => hinner.replace _ (hwhole hinner) fun entries hentries => ?_,
      extends_of_find fun name node hnode => ?_,
      _, Puts.find_replace_self hfind, hinners.mpr (Or.inr rfl)⟩
    · rcases hinners.mp hentries with hold | rfl
      · exact hinner.of_find hfind hold
      · exact hfilled
    · rw [find_replace, hfind]
      by_cases hname : name = key.name
      · subst hname
        obtain rfl := Option.some.inj (hfind.symm.trans hnode)
        exact ⟨_, if_pos rfl, fun _ hold => hinners.mpr (Or.inl hold), False.elim, id⟩
      · exact ⟨node, (if_neg hname).trans hnode, List.Subset.refl _, .refl node⟩
  · cases h

theorem takes_of_insertTable (hnew : find? key.name inner = none)
    (h : insertTable (.table shape filled) key before inner = some (after, inner')) :
    Takes filled key.name inner inner' := by
  rw [insertTable, hnew] at h
  obtain ⟨-, rfl⟩ := Prod.mk.inj (Option.some.inj h)
  exact takes_append hnew rfl trivial

/-! Tables being filled. -/

namespace Building

/-- A table with a header of its own has a place that is kept free for it. -/
structure IsSound (b : Building) : Prop where
  apart_root : Apart b.root
  apart_entries : Apart b.entries
  root_nil : b.path = [] → b.root = []
  free : b.isElement = false → ∀ parent key inner, b.path = parent ++ [key] →
    entriesAt?.lookUp parent b.root = some inner → find? key.name inner = none

/-- The path leads into the rest of the document, to the header, or on from there. -/
inductive Says (b : Building) : List String → Option Node → Prop
  | outside {names : List String} {given : Option Node} (h : Toml.Says b.root names given) :
      Says b names given
  | header (h : b.path ≠ []) : Says b (spelled b.path) none
  | inside {names : List String} {given : Option Node} (h : Toml.Says b.entries names given) :
      Says b (spelled b.path ++ names) given

theorem isSound_empty : IsSound {} where
  apart_root := apart_nil
  apart_entries := apart_nil
  root_nil _ := rfl
  free _ _ _ _ hpath := absurd hpath.symm (List.append_ne_nil_of_right_ne_nil _ nofun)

/-- A path of the rest of the document is not lost when the filled table is put in its place. -/
theorem says_of_takes (hputs : Puts inner inner' parent b.root root)
    (htakes : Takes b.entries key.name inner inner') (hpath : b.path = parent ++ [key])
    {names : List String} (h : b.Says names given) : Toml.Says root names given := by
  obtain ⟨node, hnode, hfilled⟩ := htakes.found
  have hheader : Lies (spelled b.path) node root := by
    rw [hpath, spelled_concat]
    exact hputs.lies_new (.here hnode)
  cases h with
  | outside h => exact h.of_extends (hputs.extends_of_inner htakes.kept)
  | header => exact ⟨node, Node.holdsTables_of_mem hfilled, hheader⟩
  | inside h =>
    cases given with
    | none =>
      obtain ⟨node, htables, hlies⟩ := h
      exact ⟨node, htables, hheader.append hfilled hlies⟩
    | some value => exact ⟨h.1, hheader.append hfilled h.2⟩

theorem says_of_close (hb : b.IsSound) (h : b.close = some root) :
    Apart root ∧ ∀ names given, b.Says names given → Toml.Says root names given := by
  unfold close at h
  split at h
  · rename_i hpath
    have hpath : b.path = [] := List.isEmpty_iff.mp hpath
    obtain rfl := Option.some.inj h
    refine ⟨hb.apart_entries, fun names given hstated => ?_⟩
    cases hstated with
    | outside h =>
      obtain ⟨node, hlies⟩ := h.exists_lies
      rw [hb.root_nil hpath] at hlies
      cases hlies with
      | here hfind => cases hfind
      | within hfind => cases hfind
    | header hne => exact absurd hpath hne
    | inside h => rwa [hpath]
  · split at h
    · obtain ⟨parent, key, shape, inner, shape', inner', hpath, hchange, hputs⟩ :=
        exists_puts_of_atParent h
      have htakes := takes_of_appendElement hchange
      exact ⟨hputs.apart (htakes.apart hb.apart_entries) hb.apart_root,
        fun _ _ => says_of_takes hputs htakes hpath⟩
    · rename_i helement
      obtain ⟨parent, key, shape, inner, shape', inner', hpath, hchange, hputs⟩ :=
        exists_puts_of_atParent h
      -- so the table is new there, and does not take the place of an implicit one
      have hfree : find? key.name inner = none :=
        hb.free (Bool.not_eq_true _ ▸ helement) parent key inner hpath hputs.lookUp_eq
      have htakes := takes_of_insertTable hfree hchange
      exact ⟨hputs.apart (htakes.apart hb.apart_entries) hb.apart_root,
        fun _ _ => says_of_takes hputs htakes hpath⟩

/-- What a line does to the document: every path is kept, and the line's own one is there. -/
structure Takes (b b' : Building) (line : Line) : Prop where
  sound : b'.IsSound
  kept : ∀ names given, b.Says names given → b'.Says names given
  said : b'.Says (line.statement (spelled b.path)).1 (line.statement (spelled b.path)).2
  table : spelled b'.path = line.table (spelled b.path)

theorem takes_assignment {value : Node} (hb : b.IsSound) (hvalue : value.IsSound)
    (h : b.take (.assignment path value) = some b') : b.Takes b' (.assignment path value) := by
  obtain ⟨⟨shape, entries⟩, hassign, h⟩ := Option.bind_eq_some_iff.mp h
  obtain rfl := Option.some.inj h
  have hgains := gains_of_assign hvalue hassign
  refine ⟨⟨hb.apart_root, hgains.apart hb.apart_entries, hb.root_nil, hb.free⟩,
    fun names given hstated => ?_, .inside ⟨hvalue.isValue, hgains.lies⟩, rfl⟩
  cases hstated with
  | outside h => exact .outside h
  | header hne => exact .header hne
  | inside h => exact .inside (h.of_extends hgains.kept)

/-- A header takes over the table that so far only stood for a step of a path. -/
theorem cases_of_takeImplicit (h : takeImplicit key inner = some (entries, inner')) :
    (find? key.name inner = none ∧ entries = [] ∧ inner' = inner) ∨
      ∃ shape, find? key.name inner = some (.table shape entries) ∧ shape.implicit = true ∧
        inner' = inner.filter (·.1.name != key.name) := by
  unfold takeImplicit at h
  split at h
  · rename_i hnew
    obtain ⟨rfl, rfl⟩ := Prod.mk.inj (Option.some.inj h)
    exact Or.inl ⟨hnew, rfl, rfl⟩
  · rename_i shape table hfind
    split at h
    · rename_i himplicit
      obtain ⟨rfl, rfl⟩ := Prod.mk.inj (Option.some.inj h)
      rw [Bool.and_eq_true] at himplicit
      exact Or.inr ⟨shape, hfind, himplicit.1, rfl⟩
    · cases h
  · cases h

theorem exists_puts_of_openTable (h : b.openTable path span = some b') :
    ∃ root parent key inner inner', b.close = some root ∧ path = parent ++ [key] ∧
      takeImplicit key inner = some (b'.entries, inner') ∧
      Puts inner inner' parent root b'.root ∧ b'.path = path := by
  obtain ⟨root, hclose, h⟩ := Option.bind_eq_some_iff.mp h
  obtain ⟨key, hlast, h⟩ := Option.bind_eq_some_iff.mp h
  obtain ⟨found, hfound, h⟩ := Option.bind_eq_some_iff.mp h
  obtain ⟨⟨entries, _⟩, himplicit, h⟩ := Option.bind_eq_some_iff.mp h
  obtain ⟨root', hparent, h⟩ := Option.bind_eq_some_iff.mp h
  obtain rfl := Option.some.inj h
  obtain ⟨_, -, hlookUp⟩ := Option.bind_eq_some_iff.mp hfound
  obtain ⟨parent, key', shape, inner, shape', inner', rfl, hchange, hputs⟩ :=
    exists_puts_of_atParent hparent
  rw [List.getLast?_append, List.getLast?_singleton, Option.some_or] at hlast
  obtain rfl := Option.some.inj hlast
  rw [List.dropLast_concat, hputs.lookUp_eq] at hlookUp
  obtain rfl := Option.some.inj hlookUp
  obtain ⟨⟨_, _⟩, htaken, hresult⟩ := Option.map_eq_some_iff.mp hchange
  obtain ⟨-, rfl⟩ := Prod.mk.inj hresult
  obtain ⟨rfl, rfl⟩ := Prod.mk.inj (Option.some.inj (himplicit.symm.trans htaken))
  exact ⟨root, parent, key', inner, _, hclose, rfl, himplicit, hputs, rfl⟩

theorem isSound_of_openTable (hb : b.IsSound) (h : b.openTable path span = some b') :
    b'.IsSound := by
  obtain ⟨root, parent, key, inner, inner', hclose, rfl, himplicit, hputs, hpath⟩ :=
    exists_puts_of_openTable h
  have hroot : Apart root := (says_of_close hb hclose).1
  have hinner : Apart inner := hputs.apart_inner hroot
  -- a path can be cut into its parent and its last key in one way only
  have hfree {parent' : List Key} {key' : Key} {inner'' : Entries}
      (heq : b'.path = parent' ++ [key'])
      (hlookUp : entriesAt?.lookUp parent' b'.root = some inner'') :
      key' = key ∧ inner'' = inner' := by
    obtain ⟨rfl, hkey⟩ := List.append_inj' (hpath.symm.trans heq) rfl
    obtain rfl := List.singleton_inj.mp hkey
    exact ⟨rfl, Option.some.inj (hlookUp.symm.trans hputs.lookUp_eq_after)⟩
  have hnonempty : b'.path ≠ [] := hpath ▸ List.append_ne_nil_of_right_ne_nil _ nofun
  rcases cases_of_takeImplicit himplicit with ⟨hnew, hnil, rfl⟩ | ⟨shape, hfind, -, rfl⟩
  · refine ⟨hputs.apart id hroot, hnil ▸ apart_nil, fun hnone => absurd hnone hnonempty,
      fun _ _ _ _ heq hlookUp => ?_⟩
    obtain ⟨rfl, rfl⟩ := hfree heq hlookUp
    exact hnew
  · refine ⟨hputs.apart (·.without _) hroot, hinner.of_find hfind (List.mem_singleton_self _),
      fun hnone => absurd hnone hnonempty, fun _ _ _ _ heq hlookUp => ?_⟩
    obtain ⟨rfl, rfl⟩ := hfree heq hlookUp
    rw [find_without, if_pos rfl]

/-- A path leads on as before, or to the header, or into the table that the header took over. -/
theorem cases_of_takeImplicit_of_lies (hputs : Puts inner inner' parent root root')
    (himplicit : takeImplicit key inner = some (entries, inner')) {names : List String}
    (hlies : Lies names node root) :
    (∃ node', Lies names node' root' ∧ node.Stays node') ∨
      (names = spelled (parent ++ [key]) ∧ ¬node.IsValue) ∨
      ∃ rest, names = spelled (parent ++ [key]) ++ rest ∧ Lies rest node entries := by
  rw [spelled_concat]
  rcases hputs.lies hlies with hkept | ⟨rest, rfl, hrest⟩
  · exact Or.inl hkept
  rcases cases_of_takeImplicit himplicit with ⟨-, -, rfl⟩ | ⟨shape, hfind, hopen, rfl⟩
  · exact Or.inl ⟨node, hputs.lies_new hrest, .refl node⟩
  have hother {name : String} (hname : name ≠ key.name) :
      find? name (inner.filter (·.1.name != key.name)) = find? name inner := by
    rw [find_without, if_neg hname]
  cases hrest with
  | @here name _ _ hnode =>
    by_cases hname : name = key.name
    · subst hname
      obtain rfl := Option.some.inj (hfind.symm.trans hnode)
      refine Or.inr (Or.inl ⟨rfl, fun hvalue => ?_⟩)
      rw [hvalue.2] at hopen
      cases hopen
    · exact Or.inl ⟨node, hputs.lies_new (.here ((hother hname).trans hnode)), .refl node⟩
  | @within name _ _ _ _ rest hnode hinner hlater =>
    by_cases hname : name = key.name
    · subst hname
      obtain rfl := Option.some.inj (hfind.symm.trans hnode)
      obtain rfl := List.mem_singleton.mp hinner
      exact Or.inr (Or.inr ⟨rest, (List.append_cons ..), hlater⟩)
    · exact Or.inl ⟨node, hputs.lies_new (.within ((hother hname).trans hnode) hinner hlater),
        .refl node⟩

theorem takes_header (hb : b.IsSound) (h : b.take (.header path span) = some b') :
    b.Takes b' (.header path span) := by
  have hsound := isSound_of_openTable hb h
  obtain ⟨root, parent, key, inner, inner', hclose, rfl, himplicit, hputs, hpath⟩ :=
    exists_puts_of_openTable h
  have hnonempty : b'.path ≠ [] := hpath ▸ List.append_ne_nil_of_right_ne_nil _ nofun
  refine ⟨hsound, fun names given hstated => ?_, hpath ▸ .header hnonempty, hpath ▸ rfl⟩
  have hroot := (says_of_close hb hclose).2 names given hstated
  cases given with
  | none =>
    obtain ⟨node, htables, hlies⟩ := hroot
    rcases cases_of_takeImplicit_of_lies hputs himplicit hlies with
      ⟨node', hlies', hstays⟩ | ⟨rfl, -⟩ | ⟨rest, rfl, hrest⟩
    · exact .outside ⟨node', hstays.tables htables, hlies'⟩
    · exact hpath ▸ .header hnonempty
    · exact hpath ▸ .inside ⟨node, htables, hrest⟩
  | some value =>
    obtain ⟨hvalue, hlies⟩ := hroot
    rcases cases_of_takeImplicit_of_lies hputs himplicit hlies with
      ⟨node', hlies', hstays⟩ | ⟨-, hopen⟩ | ⟨rest, rfl, hrest⟩
    · exact .outside ⟨hvalue, hstays.value hvalue ▸ hlies'⟩
    · exact absurd hvalue hopen
    · exact hpath ▸ .inside ⟨hvalue, hrest⟩

theorem takes_elementHeader (hb : b.IsSound)
    (h : b.take (.elementHeader path span) = some b') :
    b.Takes b' (.elementHeader path span) := by
  obtain ⟨root, hclose, h⟩ := Option.bind_eq_some_iff.mp h
  obtain ⟨root', hparent, h⟩ := Option.bind_eq_some_iff.mp h
  obtain rfl := Option.some.inj h
  obtain ⟨parent, key, shape, inner, shape', inner', rfl, hcheck, hputs⟩ :=
    exists_puts_of_atParent hparent
  have hinner : inner' = inner := by
    split at hcheck
    · exact (Prod.mk.inj (Option.some.inj hcheck)).2.symm
    · exact (Prod.mk.inj (Option.some.inj hcheck)).2.symm
    · cases hcheck
  subst hinner
  have hnonempty : parent ++ [key] ≠ [] := List.append_ne_nil_of_right_ne_nil _ nofun
  obtain ⟨hroot, hstated⟩ := says_of_close hb hclose
  exact ⟨⟨hputs.apart id hroot, apart_nil, fun hnone => absurd hnone hnonempty, nofun⟩,
    fun names given h => .outside ((hstated names given h).of_extends
      (hputs.extends_of_inner (.refl _))), .header hnonempty, rfl⟩

theorem takes_of_take (hb : b.IsSound) (hline : line.IsSound) (h : b.take line = some b') :
    b.Takes b' line := by
  cases line with
  | assignment path value => exact takes_assignment hb hline h
  | header path span => exact takes_header hb h
  | elementHeader path span => exact takes_elementHeader hb h

/-- By induction on the lines: taking them loses nothing and adds what each of them says. -/
theorem says_of_foldlM {lines : List Line} (hb : b.IsSound)
    (hlines : ∀ line ∈ lines, line.IsSound) (h : lines.foldlM take b = some b') :
    b'.IsSound ∧ (∀ names given, b.Says names given → b'.Says names given) ∧
      ∀ statement ∈ statementsIn (spelled b.path) lines, b'.Says statement.1 statement.2 := by
  induction lines generalizing b with
  | nil =>
    obtain rfl := Option.some.inj h
    exact ⟨hb, fun _ _ hstated => hstated, fun _ hstatement => nomatch hstatement⟩
  | cons line lines ih =>
    rw [List.foldlM_cons] at h
    obtain ⟨middle, hmiddle, h⟩ := Option.bind_eq_some_iff.mp h
    obtain ⟨hline, hrest⟩ := List.forall_mem_cons.mp hlines
    have htakes := takes_of_take hb hline hmiddle
    obtain ⟨hsound, hkept, hsaid⟩ := ih htakes.sound hrest h
    refine ⟨hsound, fun names given hstated => hkept _ _ (htakes.kept _ _ hstated), ?_⟩
    rw [htakes.table] at hsaid
    exact List.forall_mem_cons.mpr ⟨hkept _ _ htakes.said, hsaid⟩

end Building

/-- A well-formed document has no name twice in a table, and says all that its lines say. -/
theorem says_of_parse {text : String} (h : parse text = some entries) :
    Apart entries ∧ ∃ statements, statements? text = some statements ∧
      ∀ statement ∈ statements, Says entries statement.1 statement.2 := by
  obtain ⟨lines, hlines, h⟩ := Option.bind_eq_some_iff.mp h
  obtain ⟨built, hbuilt, hclose⟩ := Option.bind_eq_some_iff.mp h
  obtain ⟨hsound, -, hsaid⟩ :=
    Building.says_of_foldlM Building.isSound_empty (isSound_of_lines hlines) hbuilt
  obtain ⟨hapart, hstated⟩ := Building.says_of_close hsound hclose
  exact ⟨hapart, statementsIn [] lines, Option.map_eq_some_iff.mpr ⟨lines, hlines, rfl⟩,
    fun statement hstatement => hstated _ _ (hsaid statement hstatement)⟩

end Schemata.Toml
