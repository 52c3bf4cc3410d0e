import Schemata.Document.EloquentModel
import Schemata.Proofs.Document.Script
import Schemata.Proofs.Text.Reader

/-!
What a model class says at its head: the traits it uses, the conventions it leaves, and the
columns that may be filled. The reader is given the names that the class stands under, since
these may hold any text. A line that a class may leave out is taken for its absence only when
the text goes on otherwise.
-/
namespace Schemata.Document.EloquentModel

open Text

structure Conventions where
  table : String
  /-- The key when it is not the usual one. -/
  primaryKey : Option String
  incrementing : Bool
  timestamps : Bool
  deriving DecidableEq, Repr

structure Settings extends Conventions where
  softDeletes : Bool
  fillable : List String
  deriving DecidableEq, Repr

/-- A string in single quotes between two words. -/
def quoted? (before after : String) (s : List Char) : Option (String × List Char) := do
  let rest ← after? before s
  let rest ← after? "'" rest
  let (text, rest) ← literal? '\'' Script.unescaped rest
  let rest ← after? after rest
  return (String.ofList text, rest)

theorem quoted_append (before after text : String) (rest : List Char) :
    quoted? before after
      (before.toList ++ ((singleQuoted text).toList ++ (after.toList ++ rest))) =
        some (text, rest) := by
  have hliteral : literal? '\'' Script.unescaped (escapedChars '\'' text.toList ++
      '\'' :: (after.toList ++ rest)) = some (text.toList, after.toList ++ rest) :=
    literal_escaped (by decide) (fun _ hc => if_pos hc) _ _
  have htext : (singleQuoted text).toList ++ (after.toList ++ rest) =
      "'".toList ++ (escapedChars '\'' text.toList ++ '\'' :: (after.toList ++ rest)) := by
    simp [singleQuoted, Text.escaped]
  rw [htext, quoted?]
  simp only [after_append, hliteral, Option.bind_eq_bind, Option.bind_some, Option.pure_def,
    String.ofList_toList]

theorem quoted_of_none {before : String} {s : List Char} (h : after? before s = none)
    (after : String) : quoted? before after s = none := by
  rw [quoted?, h]
  rfl

/-- Whether the trait for soft deletes is imported. -/
def readImports (s : List Char) : Option (Bool × List Char) := do
  let rest ← after? "use Illuminate\\Database\\Eloquent\\Factories\\HasFactory;\n" s
  let rest ← after? "use Illuminate\\Database\\Eloquent\\Model;\n" rest
  let (_, rest) ← optionally "use Illuminate\\Database\\Eloquent\\Relations\\BelongsTo;\n" rest
  optionally "use Illuminate\\Database\\Eloquent\\SoftDeletes;\n" rest

/-- Whether the trait for soft deletes is used. -/
def readTraits (className : String) (s : List Char) : Option (Bool × List Char) := do
  let rest ← after? ("    /** @use HasFactory<\\Database\\Factories\\" ++ className ++
    "Factory> */\n") s
  either "    use HasFactory, SoftDeletes;\n" "    use HasFactory;\n" rest

/-- The line of a key, when there is one. -/
def keyLine : Option String → String
  | some name => "\n    protected $primaryKey = " ++ singleQuoted name ++ ";\n"
  | none => ""

def readKeyLine (s : List Char) : Option (Option String × List Char) :=
  match quoted? "\n    protected $primaryKey = " ";\n" s with
  | some (name, rest) => some (some name, rest)
  | none => some (none, s)

def readConventions (s : List Char) : Option (Conventions × List Char) := do
  let (table, rest) ← quoted? "\n    protected $table = " ";\n" s
  let (primaryKey, rest) ← readKeyLine rest
  let (assigned, rest) ← optionally "\n    public $incrementing = false;\n" rest
  let (unstamped, rest) ← optionally "\n    public $timestamps = false;\n" rest
  return (⟨table, primaryKey, !assigned, !unstamped⟩, rest)

def readFillable (s : List Char) : Option (List String × List Char) := do
  let rest ← after? "\n    protected $fillable = [" s
  let (_, rest) ← optionally "\n" rest
  let (names, rest) := many (quoted? "        " ",\n") rest
  let (_, rest) ← either "    ];\n" "];\n" rest
  return (names, rest)

/-- The head of a class; a trait that is used has to be imported. -/
def readSettings (nameSpace className text : String) : Option (Settings × List Char) := do
  let rest ← after? ("<?php\n\nnamespace " ++ nameSpace ++ ";\n\n") text.toList
  let (imported, rest) ← readImports rest
  let rest ← after? ("\nclass " ++ className ++ " extends Model\n\x7b\n") rest
  let (used, rest) ← readTraits className rest
  let (conventions, rest) ← readConventions rest
  let (fillable, rest) ← readFillable rest
  if imported = used then some (⟨conventions, used, fillable⟩, rest) else none

def conventionsOf (model : EloquentModel) : Conventions :=
  ⟨model.tableName, model.primaryKey, model.incrementing, model.timestamps⟩

def settingsOf (model : EloquentModel) : Settings :=
  ⟨conventionsOf model, model.softDeletes, model.fillable⟩

theorem readImports_append (model : EloquentModel) {rest : List Char}
    (hrest : "\nclass ".toList <+: rest) :
    readImports ((imports model).toList ++ rest) = some (model.softDeletes, rest) := by
  obtain ⟨rest, rfl⟩ := hrest
  have hsoft : after? "use Illuminate\\Database\\Eloquent\\SoftDeletes;\n"
      ("\nclass ".toList ++ rest) = none := after_ofList (by decide) rest
  have hbelongs : after? "use Illuminate\\Database\\Eloquent\\Relations\\BelongsTo;\n"
      ((if model.softDeletes then "use Illuminate\\Database\\Eloquent\\SoftDeletes;\n" else
        "").toList ++ ("\nclass ".toList ++ rest)) = none :=
    after_ite (after_ofList (by decide) _) (after_ofList (by decide) _) model.softDeletes
  unfold readImports imports
  simp only [String.toList_append, List.append_assoc, after_append, Option.bind_eq_bind,
    Option.bind_some, optionally_ite hbelongs, optionally_ite hsoft]

theorem readTraits_append (model : EloquentModel) (rest : List Char) :
    readTraits model.className ((traits model).toList ++ rest) =
      some (model.softDeletes, rest) := by
  have hsoft : after? "    use HasFactory, SoftDeletes;\n"
      ("    use HasFactory;\n".toList ++ rest) = none := after_ofList (by decide) rest
  unfold readTraits traits
  rw [String.toList_append, List.append_assoc, after_append]
  exact either_ite hsoft model.softDeletes

theorem readKeyLine_append {rest : List Char}
    (h : after? "\n    protected $primaryKey = " rest = none) (key : Option String) :
    readKeyLine ((keyLine key).toList ++ rest) = some (key, rest) := by
  unfold readKeyLine keyLine
  cases key with
  | none => simp only [String.toList_empty, List.nil_append, quoted_of_none h]
  | some name => simp only [String.toList_append, List.append_assoc, quoted_append]

/-- The lines that depart from the conventions differ from each other and from what follows. -/
theorem readConventions_append (model : EloquentModel) {rest : List Char}
    (hrest : "\n    protected $fillable = [".toList <+: rest) :
    readConventions ((conventions model).toList ++ rest) = some (conventionsOf model, rest) := by
  obtain ⟨rest, rfl⟩ := hrest
  have hconventions : conventions model =
      "\n    protected $table = " ++ singleQuoted model.tableName ++ ";\n" ++
        keyLine model.primaryKey ++
        (if !model.incrementing then "\n    public $incrementing = false;\n" else "") ++
        (if !model.timestamps then "\n    public $timestamps = false;\n" else "") := by
    unfold conventions
    cases model.incrementing <;> cases model.timestamps <;> rfl
  have hunstamped : after? "\n    public $timestamps = false;\n"
      ("\n    protected $fillable = [".toList ++ rest) = none := after_ofList (by decide) rest
  have hassigned : after? "\n    public $incrementing = false;\n"
      ((if !model.timestamps then "\n    public $timestamps = false;\n" else "").toList ++
        ("\n    protected $fillable = [".toList ++ rest)) = none :=
    after_ite (after_ofList (by decide) _) (after_ofList (by decide) _) _
  have hkey : after? "\n    protected $primaryKey = "
      ((if !model.incrementing then "\n    public $incrementing = false;\n" else "").toList ++
        ((if !model.timestamps then "\n    public $timestamps = false;\n" else "").toList ++
          ("\n    protected $fillable = [".toList ++ rest))) = none :=
    after_ite (after_ofList (by decide) _)
      (after_ite (after_ofList (by decide) _) (after_ofList (by decide) _) _) _
  unfold readConventions
  simp only [hconventions, String.toList_append, List.append_assoc, quoted_append,
    Option.bind_eq_bind, Option.bind_some, readKeyLine_append hkey, optionally_ite hassigned,
    optionally_ite hunstamped, Option.pure_def, Bool.not_not, conventionsOf]

def entry (name : String) : List Char := ("        " ++ singleQuoted name ++ ",\n").toList

theorem fillableText_eq (model : EloquentModel) :
    (fillableText model).toList =
      "\n    protected $fillable = [".toList ++
        ((if !model.fillable.isEmpty then "\n" else "").toList ++
          (model.fillable.flatMap entry ++
            (if !model.fillable.isEmpty then "    ];\n" else "];\n").toList)) := by
  have hentries : (String.join (model.fillable.map fun name =>
      "        " ++ singleQuoted name ++ ",\n")).toList = model.fillable.flatMap entry := by
    rw [String.toList_join, List.flatMap_map]
    rfl
  unfold fillableText
  simp only [String.toList_append, List.append_assoc]
  cases hnames : model.fillable with
  | nil => rfl
  | cons name names =>
    rw [hnames] at hentries
    simp only [List.isEmpty_cons, Bool.false_eq_true, if_false, Bool.not_false, if_true,
      String.toList_append, hentries, List.append_assoc, List.append_cancel_left_eq]
    rfl

theorem readFillable_append (model : EloquentModel) (rest : List Char) :
    readFillable ((fillableText model).toList ++ rest) = some (model.fillable, rest) := by
  have hentry (name : String) (rest : List Char) :
      quoted? "        " ",\n" (entry name ++ rest) = some (name, rest) := by
    unfold entry
    simp only [String.toList_append, List.append_assoc, quoted_append]
  have hend : quoted? "        " ",\n"
      ((if !model.fillable.isEmpty then "    ];\n" else "];\n").toList ++ rest) = none := by
    apply quoted_of_none
    cases model.fillable.isEmpty with
    | true => exact after_ofList (by decide) rest
    | false => exact after_ofList (by decide) rest
  have hnames := many_flatMap (fun name => by simp [entry])
    (fun name (_ : name ∈ model.fillable) => hentry name) hend
  -- Without columns the list is closed on the line that opens it.
  have hbroken : after? "\n" (model.fillable.flatMap entry ++
      ((if !model.fillable.isEmpty then "    ];\n" else "];\n").toList ++ rest)) = none := by
    cases model.fillable with
    | nil => exact after_ofList (by decide) rest
    | cons name names =>
      unfold entry
      simp only [List.flatMap_cons, String.toList_append, List.append_assoc]
      exact after_ofList (by decide) _
  have hclosing : after? "    ];\n" ("];\n".toList ++ rest) = none := after_ofList (by decide) rest
  unfold readFillable
  simp only [fillableText_eq, List.append_assoc, after_append, optionally_ite hbroken,
    Option.bind_eq_bind, Option.bind_some, hnames, either_ite hclosing, Option.pure_def]

/-- Behind its head a class has its casts and its accessors. -/
def methodsText (model : EloquentModel) : String :=
  castsText model ++ (String.join (model.accessors.map Accessor.text) ++ "\x7d")

theorem toList_classText (nameSpace : String) (model : EloquentModel) :
    (classText nameSpace model).toList =
      ("<?php\n\nnamespace " ++ nameSpace ++ ";\n\n").toList ++ ((imports model).toList ++
        (("\nclass " ++ model.className ++ " extends Model\n\x7b\n").toList ++
          ((traits model).toList ++ ((conventions model).toList ++
            ((fillableText model).toList ++ (methodsText model).toList))))) := by
  unfold classText methodsText
  simp only [String.toList_append, List.append_assoc]

/-- The head of a class is read as what its model says. -/
theorem readSettings_classText (nameSpace : String) (model : EloquentModel) :
    readSettings nameSpace model.className (classText nameSpace model) =
      some (settingsOf model, (methodsText model).toList) := by
  have hclass : "\nclass ".toList <+:
      ("\nclass " ++ model.className ++ " extends Model\n\x7b\n").toList ++
        ((traits model).toList ++ ((conventions model).toList ++
          ((fillableText model).toList ++ (methodsText model).toList))) := by
    simp only [String.toList_append, List.append_assoc, List.prefix_append]
  have hfillable : "\n    protected $fillable = [".toList <+:
      (fillableText model).toList ++ (methodsText model).toList := by
    simp only [fillableText_eq, List.append_assoc, List.prefix_append]
  rw [readSettings, toList_classText]
  simp only [after_append, readImports_append model hclass, readTraits_append,
    readConventions_append model hfillable, readFillable_append, Option.bind_eq_bind,
    Option.bind_some, if_true, settingsOf]

end Schemata.Document.EloquentModel
