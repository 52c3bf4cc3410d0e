import Mathlib.Tactic.MkIffOfInductiveProp
import Schemata.Proofs.Toml.Documents
import Schemata.Proofs.Traversals
import Schemata.Settings

/-!
Which documents are accepted as settings, and what becomes of the keys in them. A name at the top
has to be a known one. In the table of options, however it is written, the two known names have
to be given texts, and every other name is passed over.
-/
namespace Schemata.Settings

open Toml

variable {α : Type} {name : String} {names : List String} {key : Toml.Key} {node : Node}
  {given : Option Node} {entries : Entries} {settings settings' : Settings}
  {options options' : Options}

inductive IsText : Node → String → Prop
  | string (span : Span) (text : String) : IsText (.scalar span (.string text)) text

/-- A value that is given under a name, or the one that holds when nothing is. -/
def Gives (means : Node → α → Prop) (entries : Entries) (name : String) (otherwise value : α) :
    Prop :=
  match find? name entries with
  | some node => means node value
  | none => value = otherwise

@[mk_iff]
structure GivesOptions (entries : Entries) (otherwise options : Options) : Prop where
  modelNamespace : Gives IsText entries "model_namespace"
    otherwise.modelNamespace options.modelNamespace
  goPackage : Gives IsText entries "go_package" otherwise.goPackage options.goPackage

/-- The options by their places. What stands behind the second one does not count. -/
inductive InOrder : List Node → Options → Prop
  | none : InOrder [] {}
  | one {first : Node} {modelNamespace : String} (h : IsText first modelNamespace) :
      InOrder [first] { modelNamespace }
  | both {first second : Node} {modelNamespace goPackage : String} (rest : List Node)
      (h : IsText first modelNamespace) (hsecond : IsText second goPackage) :
      InOrder (first :: second :: rest) { modelNamespace, goPackage }

inductive AreOptions : Node → Options → Prop
  | table {shape : Shape} {entries : Entries} {options : Options}
      (h : GivesOptions entries {} options) : AreOptions (.table shape entries) options
  | array {span : Span} {items : List Node} {options : Options} (h : InOrder items options) :
      AreOptions (.array span items) options
  | tables {elements : List Node} {options : Options} (h : InOrder elements options) :
      AreOptions (.tables elements) options
  | moment (span : Span) : AreOptions (.scalar span .moment) {}

@[mk_iff]
structure Describes (entries : Entries) (otherwise settings : Settings) : Prop where
  known : ∀ name ∈ Toml.names entries, name ∈ known
  databaseUrl : Gives (fun node url? => ∃ url, IsText node url ∧ url? = some url) entries
    "database_url" otherwise.databaseUrl? settings.databaseUrl?
  database : Gives (fun node database? => ∃ database, IsText node database ∧
    database? = some database) entries "database" otherwise.database? settings.database?
  options : Gives AreOptions entries "render" otherwise.options settings.options

/-- What a line of an accepted document can say, and what becomes of it. -/
inductive Heeds (settings : Settings) : List String → Option Node → Prop
  | databaseUrl {node : Node} {url : String} (h : IsText node url)
      (hreturned : settings.databaseUrl? = some url) : Heeds settings ["database_url"] (some node)
  | database {node : Node} {database : String} (h : IsText node database)
      (hreturned : settings.database? = some database) : Heeds settings ["database"] (some node)
  | header : Heeds settings ["render"] none
  | options {node : Node} (h : AreOptions node settings.options) :
      Heeds settings ["render"] (some node)
  | modelNamespace {node : Node} (h : IsText node settings.options.modelNamespace) :
      Heeds settings ["render", "model_namespace"] (some node)
  | goPackage {node : Node} (h : IsText node settings.options.goPackage) :
      Heeds settings ["render", "go_package"] (some node)
  | passedOver {name : String} (rest : List String) (given : Option Node)
      (h : name ≠ "model_namespace") (hother : name ≠ "go_package") :
      Heeds settings ("render" :: name :: rest) given

/-! Reading. -/

theorem textOf_eq_ok_iff {text : String} : textOf key node = .ok text ↔ IsText node text := by
  constructor
  · intro h
    unfold textOf at h
    split at h
    · obtain rfl := Except.ok.inj h
      exact .string _ _
    · cases h
  · rintro ⟨span, text⟩
    rfl

section Gives

variable {means : Node → α → Prop} {otherwise value : α}

theorem gives_nil : Gives means [] name otherwise value ↔ value = otherwise := Iff.rfl

theorem gives_cons_of_ne (h : key.name ≠ name) :
    Gives means ((key, node) :: entries) name otherwise value ↔
      Gives means entries name otherwise value := by
  rw [Gives, Gives, find_cons, if_neg h]

theorem gives_cons_of_eq (h : key.name = name) :
    Gives means ((key, node) :: entries) name otherwise value ↔ means node value := by
  rw [Gives, find_cons, if_pos h]

theorem gives_of_find (h : find? name entries = some node) :
    Gives means entries name otherwise value ↔ means node value := by
  rw [Gives, h]

theorem gives_of_not_mem (h : name ∉ Toml.names entries) :
    Gives means entries name otherwise value ↔ value = otherwise := by
  rw [Gives, find_eq_none_iff.mpr h]

end Gives

theorem optionsOfEntries_eq_ok_iff (hnames : (Toml.names entries).Nodup) :
    optionsOfEntries options entries = .ok options' ↔ GivesOptions entries options options' := by
  induction entries generalizing options with
  | nil =>
    simp only [givesOptions_iff, gives_nil, optionsOfEntries, Except.ok.injEq]
    cases options
    cases options'
    simp only [Options.mk.injEq, eq_comm]
  | cons entry entries ih =>
    obtain ⟨key, node⟩ := entry
    obtain ⟨hnew, hrest⟩ := List.nodup_cons.mp hnames
    change key.name ∉ Toml.names entries at hnew
    rw [optionsOfEntries]
    split
    · rename_i hname
      rw [hname] at hnew
      have hother : key.name ≠ "go_package" := by
        rw [hname]
        decide
      simp only [bind_eq_ok_iff, textOf_eq_ok_iff, ih hrest, givesOptions_iff,
        gives_of_not_mem hnew, gives_cons_of_eq hname, gives_cons_of_ne hother]
      constructor
      · rintro ⟨_, htext, rfl, hpackage⟩
        exact ⟨htext, hpackage⟩
      · rintro ⟨htext, hpackage⟩
        exact ⟨_, htext, rfl, hpackage⟩
    · split
      · rename_i hother hname
        rw [hname] at hnew
        simp only [bind_eq_ok_iff, textOf_eq_ok_iff, ih hrest, givesOptions_iff,
          gives_of_not_mem hnew, gives_cons_of_eq hname, gives_cons_of_ne hother]
        constructor
        · rintro ⟨_, htext, hnamespace, rfl⟩
          exact ⟨hnamespace, htext⟩
        · rintro ⟨hnamespace, htext⟩
          exact ⟨_, htext, hnamespace, rfl⟩
      · rename_i hname hname'
        rw [ih hrest, givesOptions_iff, givesOptions_iff, gives_cons_of_ne hname,
          gives_cons_of_ne hname']

theorem optionsOfItems_eq_ok_iff {items : List Node} :
    optionsOfItems key items = .ok options ↔ InOrder items options := by
  match items with
  | [] =>
    constructor
    · intro h
      obtain rfl := Except.ok.inj h
      exact .none
    · rintro ⟨⟩
      rfl
  | [first] =>
    simp only [optionsOfItems, bind_eq_ok_iff, textOf_eq_ok_iff]
    constructor
    · rintro ⟨_, htext, h⟩
      obtain rfl := Except.ok.inj h
      exact .one htext
    · intro h
      cases h with
      | one htext => exact ⟨_, htext, rfl⟩
  | first :: second :: rest =>
    simp only [optionsOfItems, bind_eq_ok_iff, textOf_eq_ok_iff]
    constructor
    · rintro ⟨_, htext, _, hsecond, h⟩
      obtain rfl := Except.ok.inj h
      exact .both rest htext hsecond
    · intro h
      cases h with
      | both _ htext hsecond => exact ⟨_, htext, _, hsecond, rfl⟩

theorem optionsOf_eq_ok_iff (hnode : ∀ inner ∈ node.inners, Apart inner) :
    optionsOf key node = .ok options ↔ AreOptions node options := by
  constructor
  · intro h
    unfold optionsOf at h
    split at h
    · obtain ⟨hnames, -⟩ := hnode _ (List.mem_singleton_self _)
      exact .table ((optionsOfEntries_eq_ok_iff hnames).mp h)
    · exact .array (optionsOfItems_eq_ok_iff.mp h)
    · exact .tables (optionsOfItems_eq_ok_iff.mp h)
    · obtain rfl := Except.ok.inj h
      exact .moment _
    · cases h
  · intro h
    cases h with
    | table h =>
      obtain ⟨hnames, -⟩ := hnode _ (List.mem_singleton_self _)
      exact (optionsOfEntries_eq_ok_iff hnames).mpr h
    | array h => exact optionsOfItems_eq_ok_iff.mpr h
    | tables h => exact optionsOfItems_eq_ok_iff.mpr h
    | moment => rfl

theorem ofEntries_eq_ok_iff (hentries : Apart entries) :
    ofEntries settings entries = .ok settings' ↔ Describes entries settings settings' := by
  induction entries generalizing settings with
  | nil =>
    simp only [describes_iff, gives_nil, ofEntries, Except.ok.injEq]
    cases settings
    cases settings'
    simp [names, eq_comm]
  | cons entry entries ih =>
    obtain ⟨key, node⟩ := entry
    obtain ⟨hnames, hwhole, hinners⟩ := hentries
    obtain ⟨hnew, hnames⟩ := List.nodup_cons.mp hnames
    change key.name ∉ Toml.names entries at hnew
    have hrest : Apart entries := .intro hnames (fun entry hentry => hwhole entry (.tail _ hentry))
      fun entry hentry => hinners entry (.tail _ hentry)
    rw [ofEntries]
    split
    · rename_i hname
      rw [hname] at hnew
      have hdatabase : key.name ≠ "database" := hname ▸ (by decide)
      have hrender : key.name ≠ "render" := hname ▸ (by decide)
      simp only [bind_eq_ok_iff, textOf_eq_ok_iff, ih hrest, describes_iff, names_cons,
        List.forall_mem_cons, gives_of_not_mem hnew, gives_cons_of_eq hname,
        gives_cons_of_ne hdatabase, gives_cons_of_ne hrender]
      constructor
      · rintro ⟨url, htext, hknown, hurl, hothers⟩
        exact ⟨⟨hname ▸ (by decide), hknown⟩, ⟨url, htext, hurl⟩, hothers⟩
      · rintro ⟨⟨-, hknown⟩, ⟨url, htext, hurl⟩, hothers⟩
        exact ⟨url, htext, hknown, hurl, hothers⟩
    split
    · rename_i hurl hname
      rw [hname] at hnew
      have hrender : key.name ≠ "render" := hname ▸ (by decide)
      simp only [bind_eq_ok_iff, textOf_eq_ok_iff, ih hrest, describes_iff, names_cons,
        List.forall_mem_cons, gives_of_not_mem hnew, gives_cons_of_eq hname,
        gives_cons_of_ne hurl, gives_cons_of_ne hrender]
      constructor
      · rintro ⟨database, htext, hknown, hurl, hdatabase, hoptions⟩
        exact ⟨⟨hname ▸ (by decide), hknown⟩, hurl, ⟨database, htext, hdatabase⟩, hoptions⟩
      · rintro ⟨⟨-, hknown⟩, hurl, ⟨database, htext, hdatabase⟩, hoptions⟩
        exact ⟨database, htext, hknown, hurl, hdatabase, hoptions⟩
    split
    · rename_i hurl hdatabase hname
      rw [hname] at hnew
      have hnode : ∀ inner ∈ node.inners, Apart inner := hinners (key, node) (.head _)
      simp only [bind_eq_ok_iff, optionsOf_eq_ok_iff hnode, ih hrest, describes_iff, names_cons,
        List.forall_mem_cons, gives_of_not_mem hnew, gives_cons_of_eq hname,
        gives_cons_of_ne hurl, gives_cons_of_ne hdatabase]
      constructor
      · rintro ⟨_, hoptions, hknown, hurl, hdatabase, rfl⟩
        exact ⟨⟨hname ▸ (by decide), hknown⟩, hurl, hdatabase, hoptions⟩
      · rintro ⟨⟨-, hknown⟩, hurl, hdatabase, hoptions⟩
        exact ⟨_, hoptions, hknown, hurl, hdatabase, rfl⟩
    · rename_i hurl hdatabase hrender
      constructor
      · intro h
        cases h
      · rintro ⟨hknown, -⟩
        have hkey : key.name ∈ known := hknown key.name (.head _)
        simp [known, hurl, hdatabase, hrender] at hkey

/-- A text is accepted with exactly the settings that its table describes. -/
theorem ofText_eq_ok_iff {text : String} :
    ofText text = .ok settings ↔
      ∃ entries, Toml.parse text = some entries ∧ Describes entries {} settings := by
  unfold ofText
  cases hparse : Toml.parse text with
  | none => simp
  | some entries =>
    obtain ⟨hentries, -⟩ := says_of_parse hparse
    have hread : ofEntries {} entries = .ok settings ↔ Describes entries {} settings :=
      ofEntries_eq_ok_iff hentries
    simp only [Option.some.injEq, exists_eq_left', ← hread]
    cases ofEntries {} entries <;> simp

/-! Lines. -/

/-- Nothing leads on from a text. -/
theorem eq_of_says_isText {text : String} (hfind : find? name entries = some node)
    (htext : IsText node text) (h : Says entries (name :: names) given) :
    names = [] ∧ given = some node := by
  obtain ⟨span, text⟩ := htext
  have hlies {other : Node} (hlies : Lies (name :: names) other entries) :
      names = [] ∧ other = .scalar span (.string text) := by
    cases hlies with
    | here hother => exact ⟨rfl, Option.some.inj (hother.symm.trans hfind)⟩
    | within hother hinner =>
      obtain rfl := Option.some.inj (hother.symm.trans hfind)
      cases hinner
  cases given with
  | none =>
    obtain ⟨other, htables, hother⟩ := h
    obtain ⟨-, rfl⟩ := hlies hother
    exact False.elim htables
  | some value =>
    obtain ⟨rfl, rfl⟩ := hlies h.2
    exact ⟨rfl, rfl⟩

theorem exists_says_inner {next : String} (hfind : find? name entries = some node)
    (h : Says entries (name :: next :: names) given) :
    ∃ inner ∈ node.inners, Says inner (next :: names) given := by
  have hlies {other : Node} (hlies : Lies (name :: next :: names) other entries) :
      ∃ inner ∈ node.inners, Lies (next :: names) other inner := by
    cases hlies with
    | within hother hinner hrest =>
      obtain rfl := Option.some.inj (hother.symm.trans hfind)
      exact ⟨_, hinner, hrest⟩
  cases given with
  | none =>
    obtain ⟨other, htables, hother⟩ := h
    obtain ⟨inner, hinner, hrest⟩ := hlies hother
    exact ⟨inner, hinner, other, htables, hrest⟩
  | some value =>
    obtain ⟨inner, hinner, hrest⟩ := hlies h.2
    exact ⟨inner, hinner, h.1, hrest⟩

/-- Only a table can be entered: the other ways to write the options have none inside. -/
theorem givesOptions_of_mem {inner : Entries} (hnode : AreOptions node options)
    (hwhole : node.IsWhole) (hinner : inner ∈ node.inners) : GivesOptions inner {} options := by
  cases hnode with
  | table h => rwa [List.mem_singleton.mp hinner]
  | array => cases hinner
  | moment => cases hinner
  | tables h =>
    cases h with
    | none => cases hinner
    | one htext =>
      obtain ⟨span, text⟩ := htext
      exact False.elim (hwhole _ (.head _))
    | both _ htext =>
      obtain ⟨span, text⟩ := htext
      exact False.elim (hwhole _ (.head _))

/-- What is said below the options counts under the two known names only. -/
theorem heeds_of_inner_statement {inner : Entries} (h : GivesOptions inner {} settings.options)
    (hstated : Says inner (name :: names) given) :
    Heeds settings ("render" :: name :: names) given := by
  obtain ⟨_, hlies⟩ := hstated.exists_lies
  obtain ⟨node, hfind⟩ := hlies.exists_find
  by_cases hnamespace : name = "model_namespace"
  · subst hnamespace
    have htext := (gives_of_find hfind).mp h.modelNamespace
    obtain ⟨rfl, rfl⟩ := eq_of_says_isText hfind htext hstated
    exact .modelNamespace htext
  by_cases hpackage : name = "go_package"
  · subst hpackage
    have htext := (gives_of_find hfind).mp h.goPackage
    obtain ⟨rfl, rfl⟩ := eq_of_says_isText hfind htext hstated
    exact .goPackage htext
  · exact .passedOver names given hnamespace hpackage

theorem heeds_of_statement (hentries : Apart entries) (h : Describes entries {} settings)
    (hstated : Says entries names given) : Heeds settings names given := by
  obtain ⟨_, hlies⟩ := hstated.exists_lies
  obtain ⟨name, rest, rfl⟩ := List.exists_cons_of_ne_nil hlies.ne_nil
  obtain ⟨node, hfind⟩ := hlies.exists_find
  have hknown : name ∈ known := by
    refine h.known name (by_contra fun hnew => ?_)
    rw [find_eq_none_iff.mpr hnew] at hfind
    cases hfind
  rw [known, List.mem_cons, List.mem_cons, List.mem_singleton] at hknown
  rcases hknown with rfl | rfl | rfl
  · obtain ⟨url, htext, hreturned⟩ := (gives_of_find hfind).mp h.databaseUrl
    obtain ⟨rfl, rfl⟩ := eq_of_says_isText hfind htext hstated
    exact .databaseUrl htext hreturned
  · obtain ⟨database, htext, hreturned⟩ := (gives_of_find hfind).mp h.database
    obtain ⟨rfl, rfl⟩ := eq_of_says_isText hfind htext hstated
    exact .database htext hreturned
  · have hoptions := (gives_of_find hfind).mp h.options
    cases rest with
    | cons next rest =>
      obtain ⟨inner, hinner, hstated⟩ := exists_says_inner hfind hstated
      exact heeds_of_inner_statement
        (givesOptions_of_mem hoptions (hentries.isWhole hfind) hinner) hstated
    | nil =>
      cases given with
      | none => exact .header
      | some value =>
        obtain ⟨-, hlies⟩ := hstated
        cases hlies with
        | here hvalue =>
          obtain rfl := Option.some.inj (hvalue.symm.trans hfind)
          exact .options hoptions
        | within _ _ hrest => exact absurd rfl hrest.ne_nil

/-- The pairs of a table in braces count like lines below the name that it is given for. -/
theorem Heeds.inner {shape : Shape} {inner : Entries} {rest : List String}
    (h : Heeds settings names (some (.table shape inner))) (hstated : Says inner rest given) :
    Heeds settings (names ++ rest) given := by
  cases h with
  | databaseUrl htext => cases htext
  | database htext => cases htext
  | modelNamespace htext => cases htext
  | goPackage htext => cases htext
  | passedOver behind _ hnamespace hpackage =>
    exact .passedOver (behind ++ rest) given hnamespace hpackage
  | options hoptions =>
    cases hoptions with
    | table hgives =>
      obtain ⟨_, hlies⟩ := hstated.exists_lies
      obtain ⟨name, rest, rfl⟩ := List.exists_cons_of_ne_nil hlies.ne_nil
      exact heeds_of_inner_statement hgives hstated

theorem Heeds.pairs {depth : Nat} {s rest : List Char} (h : Heeds settings names (some node))
    (hbraces : value? (depth + 1) ('\x7b' :: s) = some (node, rest)) :
    ∃ pairs, InBraces depth s pairs rest ∧
      ∀ pair ∈ pairs, Heeds settings (names ++ spelled pair.1) (some pair.2) := by
  obtain ⟨shape, inner, pairs, rfl, hpairs, hsaid⟩ := says_of_braces hbraces
  exact ⟨pairs, hpairs, fun pair hpair => h.inner (hsaid pair hpair)⟩

/-- A document is accepted with the settings that its table describes. Then each of its lines, and
each pair that it has in braces, gives a known setting with the value that is returned, or something
in the options that is passed over. The pairs of a value are those that its braces are read as. -/
theorem accepted_document (text : String) (settings : Settings) :
    (ofText text = .ok settings ↔
      ∃ entries, Toml.parse text = some entries ∧ Describes entries {} settings) ∧
    (ofText text = .ok settings → ∃ statements, statements? text = some statements ∧
      ∀ statement ∈ statements, Heeds settings statement.1 statement.2 ∧
        (∀ shape inner, statement.2 = some (.table shape inner) → ∀ names given,
          Says inner names given → Heeds settings (statement.1 ++ names) given) ∧
        ∀ node, statement.2 = some node → ∀ depth s rest,
          value? (depth + 1) ('\x7b' :: s) = some (node, rest) →
          ∃ pairs, InBraces depth s pairs rest ∧
            ∀ pair ∈ pairs, Heeds settings (statement.1 ++ spelled pair.1) (some pair.2)) := by
  refine ⟨ofText_eq_ok_iff, fun h => ?_⟩
  obtain ⟨entries, hparse, hdescribes⟩ := ofText_eq_ok_iff.mp h
  obtain ⟨hentries, statements, hstatements, hstated⟩ := says_of_parse hparse
  refine ⟨statements, hstatements, fun statement hstatement => ?_⟩
  have hheeds : Heeds settings statement.1 statement.2 :=
    heeds_of_statement hentries hdescribes (hstated statement hstatement)
  refine ⟨hheeds, fun shape inner htable names given hinner => ?_,
    fun node hnode depth s rest hbraces => ?_⟩
  · rw [htable] at hheeds
    exact hheeds.inner hinner
  · rw [hnode] at hheeds
    exact hheeds.pairs hbraces

/-- A file with one wrong letter in it, in the table of options. -/
def misspelledText : String :=
  "database_url = 'mysql://db/shop'\n[render]\ngo_package = 'shop'\nmodel_namespce = 'Shop'\n"

def misspelledSettings : Settings where
  databaseUrl? := some "mysql://db/shop"
  options := { goPackage := "shop" }

theorem misspelled_option_passed_over :
    ofText misspelledText = .ok misspelledSettings ∧
      ∃ statements, statements? misspelledText = some statements ∧
        ∀ statement ∈ statements, Heeds misspelledSettings statement.1 statement.2 := by
  have h : ofText misspelledText = .ok misspelledSettings := by decide +kernel
  obtain ⟨statements, hstatements, hheeds⟩ :=
    (accepted_document misspelledText misspelledSettings).2 h
  exact ⟨h, statements, hstatements, fun statement hstatement => (hheeds statement hstatement).1⟩

/-- The names in the table of options, however it is written. -/
def optionNames? (text : String) : Option (List String) := do
  let entries ← Toml.parse text
  let node ← find? "render" entries
  return node.inners.flatMap Toml.names

/-- A name that is not known is accepted below the options, in each of the three ways to write
them, while the same slip at the top is refused. -/
theorem misspelled_option_is_accepted :
    (∀ text ∈ ["[render]\nmodel_namespce = 'Shop'\n", "render.model_namespce = 'Shop'\n",
        "render = \x7b model_namespce = 'Shop' \x7d\n"],
      optionNames? text = some ["model_namespce"] ∧ ofText text = .ok {}) ∧
    ∀ settings, ofText "databse_url = 'mysql://db/shop'\n" ≠ .ok settings := by
  refine ⟨by decide +kernel, fun settings h => ?_⟩
  obtain ⟨entries, hparse, hdescribes⟩ := ofText_eq_ok_iff.mp h
  have hentries : (Toml.parse "databse_url = 'mysql://db/shop'\n").map Toml.names =
      some ["databse_url"] := by decide +kernel
  rw [hparse] at hentries
  have hknown : "databse_url" ∈ known := by
    apply hdescribes.known
    rw [Option.some.inj hentries]
    exact .head _
  revert hknown
  decide

end Schemata.Settings
