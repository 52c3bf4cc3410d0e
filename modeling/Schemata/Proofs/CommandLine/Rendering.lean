import Schemata.CommandLine.Run
import Schemata.Proofs.CommandLine.Arguments
import Schemata.Proofs.CommandLine.Folders
import Schemata.Proofs.Interchange.RoundTrip

/-!
A run that renders a document, in any world of files. It reads the settings and the tables before
it leaves anything anywhere, so a run that fails on the way has no effect, and one that does not
leaves the whole document in one place.
-/
namespace Schemata.CommandLine

open Interchange (readTables)

/-- What a plan meets outside. A write may change the world even when it fails. -/
structure World (σ : Type) where
  read : σ → String → Except FileError String
  write : σ → String → String → Except FileError Unit × σ
  connect : σ → String → Except String Catalogue.Source

def Plan.runIn {σ : Type} (world : World σ) (state : σ) : Plan → Outcome × σ
  | .read path next => (next (world.read state path)).runIn world state
  | .write path text next =>
    (next (world.write state path text).1).runIn world (world.write state path text).2
  | .connect url next => (next (world.connect state url)).runIn world state
  | .finish outcome => (outcome, state)

namespace Folder

def world : World Folder where
  read := read
  write folder path text :=
    match folder.write path text with
    | .ok folder => (.ok (), folder)
    | .error error => (.error error, folder)
  connect _ _ := .error "no server can be reached"

theorem runIn_world (folder : Folder) (plan : Plan) :
    plan.runIn world folder = plan.run folder := by
  induction plan generalizing folder with
  | read path next ih => exact ih _ folder
  | connect url next ih => exact ih _ folder
  | finish outcome => rfl
  | write path text next ih =>
    rw [Plan.runIn, Plan.run]
    cases hwrite : folder.write path text with
    | ok written =>
      have hworld : world.write folder path text = (.ok (), written) := by
        simp only [world, hwrite]
      rw [hworld]
      exact ih _ written
    | error error =>
      have hworld : world.write folder path text = (.error error, folder) := by
        simp only [world, hwrite]
      rw [hworld]
      exact ih _ folder

theorem exists_of_world_write {folder : Folder} {path text : String}
    (h : (world.write folder path text).1 = .ok ()) :
    ∃ written, folder.write path text = .ok written ∧
      (world.write folder path text).2 = written := by
  cases hwrite : folder.write path text with
  | ok written => exact ⟨written, rfl, by simp only [world, hwrite]⟩
  | error error =>
    simp only [world, hwrite] at h
    cases h

end Folder

variable {σ : Type} {world : World σ} {state : σ} {environment : Environment}
  {args : List String} {config? out? : Option String} {input text : String} {target : Target}
  {options : Options} {tables : List Table} {settings : Settings}

/-- The settings of a file that was named, or of the usual file, which may be missing. -/
inductive Loads (read : String → Except FileError String) : Option String → Settings → Prop
  | named {path text : String} {settings : Settings} (hread : read path = .ok text)
      (htext : Settings.ofText text = .ok settings) : Loads read (some path) settings
  | usual {text : String} {settings : Settings} (hread : read defaultFile = .ok text)
      (htext : Settings.ofText text = .ok settings) : Loads read none settings
  | missing (hread : read defaultFile = .error .notFound) : Loads read none {}

/-- Everything that a document is made of can be had. -/
inductive Prepares (read : String → Except FileError String) (config? : Option String)
    (input : String) : Options → List Table → Prop
  | intro {settings : Settings} {text : String} {tables : List Table}
      (hsettings : Loads read config? settings) (hinput : read input = .ok text)
      (htables : readTables text = .ok tables) :
      Prepares read config? input settings.options tables

/-- Where a text ends up that is left on the output or in a file. -/
inductive Delivers (world : World σ) (state : σ) (text : String) :
    Option String → Outcome × σ → Prop
  | printed {outcome : Outcome} (hcode : outcome.code = 0)
      (houtput : outcome.output = text ++ "\n") :
      Delivers world state text none (outcome, state)
  | written {path : String} {outcome : Outcome} (hwrite : (world.write state path text).1 = .ok ())
      (hcode : outcome.code = 0) (houtput : outcome.output = "") :
      Delivers world state text (some path) (outcome, (world.write state path text).2)
  | unwritable {path : String} {outcome : Outcome} {error : FileError}
      (hwrite : (world.write state path text).1 = .error error)
      (hcode : outcome.code = 1) (houtput : outcome.output = "") :
      Delivers world state text (some path) (outcome, (world.write state path text).2)

/-- The run leaves nothing but a complaint. -/
structure Fails (state : σ) (result : Outcome × σ) : Prop where
  code : result.1.code = 1
  output : result.1.output = ""
  unchanged : result.2 = state

theorem Delivers.code_eq_zero_iff {result : Outcome × σ}
    (h : Delivers world state text out? result) :
    result.1.code = 0 ↔ ∀ path ∈ out?, (world.write state path text).1 = .ok () := by
  cases h with
  | printed hcode =>
    refine ⟨fun _ path hpath => ?_, fun _ => hcode⟩
    cases hpath
  | written hwrite hcode =>
    refine ⟨fun _ path hpath => ?_, fun _ => hcode⟩
    obtain rfl := Option.mem_some_iff.mp hpath
    exact hwrite
  | unwritable hwrite hcode =>
    refine ⟨fun hzero => ?_, fun hall => ?_⟩
    · rw [hcode] at hzero
      cases hzero
    · rw [hall _ rfl] at hwrite
      cases hwrite

theorem Delivers.state_eq {path : String} {result : Outcome × σ}
    (h : Delivers world state text (some path) result) :
    result.2 = (world.write state path text).2 := by
  cases h <;> rfl

/-! Stages. -/

theorem load_eq_ok_iff {read : String → Except FileError String} :
    Settings.load (read (config?.getD defaultFile)) config?.isSome = .ok settings ↔
      Loads read config? settings := by
  constructor
  · intro h
    unfold Settings.load at h
    split at h
    · rename_i text hread
      cases config? with
      | none => exact .usual hread h
      | some path => exact .named hread h
    · rename_i hread
      cases config? with
      | none =>
        obtain rfl := Except.ok.inj h
        exact .missing hread
      | some path => cases h
    · cases h
  · intro h
    cases h with
    | named hread htext => simpa [Settings.load, hread] using htext
    | usual hread htext => simpa [Settings.load, hread] using htext
    | missing hread => simp [Settings.load, hread]

/-- The environment knows no options. -/
theorem options_withEnvironment (url? : Option String) (settings : Settings) :
    (settings.withEnvironment url?).options = settings.options := by
  unfold Settings.withEnvironment
  split
  · split <;> rfl
  · rfl

theorem fails_failed (trouble : Trouble) : Fails state ((failed trouble).runIn world state) :=
  ⟨rfl, rfl, rfl⟩

theorem delivers_emit (out? : Option String) (text : String) :
    Delivers world state text out? ((emit out? text).runIn world state) := by
  cases out? with
  | none => exact .printed rfl rfl
  | some path =>
    rw [emit, Plan.runIn]
    cases hwrite : (world.write state path text).1 with
    | ok => exact .written hwrite rfl rfl
    | error error => exact .unwritable hwrite rfl rfl

theorem runIn_withSettings {next : Settings → Plan}
    (h : Loads (world.read state) config? settings) :
    (withSettings environment config? next).runIn world state =
      (next (settings.withEnvironment (environment.get? "DATABASE_URL"))).runIn world state := by
  rw [withSettings, Plan.runIn, load_eq_ok_iff.mpr h]

theorem fails_withSettings {next : Settings → Plan}
    (h : ¬∃ settings, Loads (world.read state) config? settings) :
    Fails state ((withSettings environment config? next).runIn world state) := by
  rw [withSettings, Plan.runIn]
  split
  · rename_i settings hload
    exact absurd ⟨settings, load_eq_ok_iff.mp hload⟩ h
  · exact fails_failed _

theorem runIn_renderPlan (hinput : world.read state input = .ok text)
    (htables : readTables text = .ok tables) :
    (renderPlan input target out? settings).runIn world state =
      (emit out? (target.render settings.options tables)).runIn world state := by
  rw [renderPlan, Plan.runIn, hinput]
  simp only [htables]

theorem fails_renderPlan
    (h : ¬∃ text tables, world.read state input = .ok text ∧ readTables text = .ok tables) :
    Fails state ((renderPlan input target out? settings).runIn world state) := by
  rw [renderPlan, Plan.runIn]
  cases hinput : world.read state input with
  | error error => exact fails_failed _
  | ok text =>
    dsimp only
    split
    · exact fails_failed _
    · rename_i tables htables
      exact absurd ⟨text, tables, hinput, htables⟩ h

/-! Runs. -/

/-- Whatever the environment is in the end, the run is that of the command. -/
theorem runIn_plan (world : World σ) (state : σ) (environment : Environment)
    (hargs : AsksForRendering args config? input target out?) :
    ∃ known, (plan environment args).runIn world state =
      (withSettings known config? (renderPlan input target out?)).runIn world state := by
  rw [plan, Plan.runIn, parse_eq_ok_iff.mpr hargs]
  exact ⟨_, rfl⟩

theorem delivers_of_prepares (environment : Environment)
    (hargs : AsksForRendering args config? input target out?)
    (h : Prepares (world.read state) config? input options tables) :
    Delivers world state (target.render options tables) out?
      ((plan environment args).runIn world state) := by
  obtain ⟨known, hrun⟩ := runIn_plan world state environment hargs
  obtain ⟨hsettings, hinput, htables⟩ := h
  rw [hrun, runIn_withSettings hsettings, runIn_renderPlan hinput htables,
    options_withEnvironment]
  exact delivers_emit out? _

theorem fails_of_not_prepares (environment : Environment)
    (hargs : AsksForRendering args config? input target out?)
    (h : ¬∃ options tables, Prepares (world.read state) config? input options tables) :
    Fails state ((plan environment args).runIn world state) := by
  obtain ⟨known, hrun⟩ := runIn_plan world state environment hargs
  rw [hrun]
  by_cases hsettings : ∃ settings, Loads (world.read state) config? settings
  · obtain ⟨settings, hsettings⟩ := hsettings
    rw [runIn_withSettings hsettings]
    apply fails_renderPlan
    rintro ⟨text, tables, hinput, htables⟩
    exact h ⟨_, tables, .intro hsettings hinput htables⟩
  · exact fails_withSettings hsettings

/-- A file that was made by writing tables as JSON gives them back, with a newline or without. -/
theorem prepares_of_json {read : String → Except FileError String} {written : Options}
    {ending : String} (hsettings : Loads read config? settings) (hending : ending ∈ ["", "\n"])
    (hinput : read input = .ok (Target.json.render written tables ++ ending)) :
    Prepares read config? input settings.options tables := by
  have hblanks : Json.Blanks ending.toList := by
    rcases List.mem_cons.mp hending with rfl | hnewline
    · decide
    · obtain rfl := List.mem_singleton.mp hnewline
      decide
  have hnone : Json.Blanks "".toList := by decide
  have htables := Json.read_document (Interchange.written_ofTables tables) hnone hblanks
  rw [String.empty_append] at htables
  exact .intro hsettings hinput htables

theorem code_eq_zero_iff (hargs : AsksForRendering args config? input target out?) :
    ((plan environment args).runIn world state).1.code = 0 ↔
      ∃ options tables, Prepares (world.read state) config? input options tables ∧
        ∀ path ∈ out?, (world.write state path (target.render options tables)).1 = .ok () := by
  constructor
  · intro hcode
    by_cases h : ∃ options tables, Prepares (world.read state) config? input options tables
    · obtain ⟨options, tables, hprepares⟩ := h
      exact ⟨options, tables, hprepares,
        (delivers_of_prepares environment hargs hprepares).code_eq_zero_iff.mp hcode⟩
    · have hone := (fails_of_not_prepares environment hargs h).code
      rw [hcode] at hone
      cases hone
  · rintro ⟨options, tables, hprepares, hwrite⟩
    exact (delivers_of_prepares environment hargs hprepares).code_eq_zero_iff.mpr hwrite

/-- In a folder, a run that ends well has made one file of the document and left the others. -/
theorem rendered_into_folder {folder : Folder} {path : String}
    (hargs : AsksForRendering args config? input target (some path))
    (hcode : ((plan environment args).run folder).1.code = 0) :
    ∃ options tables, Prepares folder.read config? input options tables ∧
      ((plan environment args).run folder).2.read path = .ok (target.render options tables) ∧
      ∀ other content, Folder.steps other ≠ Folder.steps path →
        (((plan environment args).run folder).2.read other = .ok content ↔
          folder.read other = .ok content) := by
  rw [← Folder.runIn_world] at hcode ⊢
  obtain ⟨options, tables, hprepares, hwritable⟩ := (code_eq_zero_iff hargs).mp hcode
  have hstate := (delivers_of_prepares environment hargs hprepares).state_eq
  obtain ⟨written, hwrite, hwritten⟩ := Folder.exists_of_world_write (hwritable path rfl)
  rw [hstate, hwritten]
  exact ⟨options, tables, hprepares, Folder.read_of_write hwrite⟩

/-- A run that renders ends well exactly when settings and tables can be had and the document can
be left where it is wanted. It then leaves the whole document there, and a run without settings or
tables leaves nothing. -/
theorem rendering_all_or_nothing (world : World σ) (state : σ) (environment : Environment)
    (hargs : AsksForRendering args config? input target out?) :
    let result := (plan environment args).runIn world state
    (result.1.code = 0 ↔
      ∃ options tables, Prepares (world.read state) config? input options tables ∧
        ∀ path ∈ out?, (world.write state path (target.render options tables)).1 = .ok ()) ∧
    (∀ options tables, Prepares (world.read state) config? input options tables →
      Delivers world state (target.render options tables) out? result) ∧
    ((¬∃ options tables, Prepares (world.read state) config? input options tables) →
      Fails state result) ∧
    ∀ settings written tables ending, Loads (world.read state) config? settings →
      ending ∈ ["", "\n"] →
      world.read state input = .ok (Target.json.render written tables ++ ending) →
      Delivers world state (target.render settings.options tables) out? result := by
  refine ⟨code_eq_zero_iff hargs, fun _ _ => delivers_of_prepares environment hargs,
    fails_of_not_prepares environment hargs,
    fun settings written tables ending hsettings hending hinput => ?_⟩
  exact delivers_of_prepares environment hargs (prepares_of_json hsettings hending hinput)

def users : Table where
  name := "users"
  columns := [{ name := "id", rawType := "int", type := ColumnType.ofText "int", key := .primary }]
  relations := []

/-- A folder with a dump and no settings in it. -/
def dumpedFolder (dump : String) : Folder := [("users.json", dump)]

theorem read_dumpedFolder (dump : String) : (dumpedFolder dump).read "users.json" = .ok dump := rfl

theorem read_dumpedFolder_settings (dump : String) :
    (dumpedFolder dump).read "schemagen.toml" = .error .notFound := rfl

theorem users_rendered :
    let folder := dumpedFolder (Target.json.render {} [users] ++ "\n")
    let args := ["render", "--input", "users.json", "-tgo", "--out=users.go"]
    AsksForRendering args none "users.json" .go (some "users.go") ∧
      Delivers Folder.world folder (Target.go.render {} [users]) (some "users.go")
        ((plan [] args).runIn Folder.world folder) := by
  intro folder args
  have hargs : AsksForRendering args none "users.json" .go (some "users.go") :=
    parse_eq_ok_iff.mp (by decide +kernel)
  have hsettings : Loads folder.read none {} := .missing (read_dumpedFolder_settings _)
  obtain ⟨-, -, -, hjson⟩ := rendering_all_or_nothing Folder.world folder [] hargs
  exact ⟨hargs, hjson {} {} [users] "\n" hsettings (by decide) (read_dumpedFolder _)⟩

end Schemata.CommandLine
