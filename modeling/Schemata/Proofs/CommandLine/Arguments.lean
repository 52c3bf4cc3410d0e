import Schemata.CommandLine.Arguments
import Schemata.Proofs.Text.Search
import Schemata.Proofs.Traversals

/-!
The arguments of the program as a grammar. An option is spelled in one of five ways, each option is
given once, and a command comes behind the options of the whole program and before its own. The
arguments that ask for a document to be rendered are exactly those that the grammar has.
-/
namespace Schemata.CommandLine

variable {options : List OptionSpec} {option : OptionSpec} {value argument : String}
  {front more rest args : List String} {values : List (String × String)} {given given' : Given}
  {form : CommandForm} {config? out? : Option String} {input : String} {target : Target}
  {invocation : Invocation}

/-- The ways to write an option with its value. A value that stands by itself must not look like
an option. -/
inductive Spells (option : OptionSpec) (value : String) : List String → Prop
  | joined : Spells option value ["--" ++ option.name ++ "=" ++ value]
  | apart (hvalue : isWord value = true) : Spells option value ["--" ++ option.name, value]
  | letterJoined {letter c : Char} {s : List Char} (hletter : option.short? = some letter)
      (hvalue : value = String.ofList (c :: s)) (hc : c ≠ '=') :
      Spells option value [String.ofList ('-' :: letter :: c :: s)]
  | letterEquals {letter : Char} (hletter : option.short? = some letter) :
      Spells option value [String.ofList ('-' :: letter :: '=' :: value.toList)]
  | letterApart {letter : Char} (hletter : option.short? = some letter)
      (hvalue : isWord value = true) :
      Spells option value [String.ofList ['-', letter], value]

/-- The values that a list of options gives, the last one first. -/
inductive Lists (options : List OptionSpec) : List (String × String) → List String → Prop
  | nil : Lists options [] []
  | snoc {values : List (String × String)} {args front : List String} {option : OptionSpec}
      {value : String} (h : Lists options values args) (hoption : option ∈ options)
      (hfront : Spells option value front) (hnew : values.lookup option.name = none)
      (haccepts : option.accepts value = true) :
      Lists options ((option.name, value) :: values) (args ++ front)

/-- The arguments that ask for a document to be rendered. What is said behind the command counts
more than what is said before it. -/
inductive AsksForRendering (args : List String) (config? : Option String) (input : String)
    (target : Target) (out? : Option String) : Prop
  | intro {before behind last : List String} {early late : List (String × String)}
      (hargs : args = before ++ "render" :: (behind ++ last)) (hlast : last = [] ∨ last = ["--"])
      (hbefore : Lists [configOption] early before) (hbehind : Lists renderForm.options late behind)
      (hconfig : (late.lookup "config").or (early.lookup "config") = config?)
      (hinput : late.lookup "input" = some input)
      (htarget : (late.lookup "target").bind Target.ofName? = some target)
      (hout : late.lookup "out" = out?)

/-! Single options. -/

/-- An argument that begins the spelling of an option, with the arguments that still belong to
it. -/
inductive Opens (option : OptionSpec) (value argument : String) (more : List String) : Prop
  | long {value? : Option String} (htoken : token argument = .long option.name value?)
      (hvalue : ∀ rest, valueFrom value? (more ++ rest) = .ok (value, rest))
  | short {letter : Char} {letters : List Char} (hletter : option.short? = some letter)
      (htoken : token argument = .short letter letters)
      (hvalue : ∀ rest, valueFrom (attached? letters) (more ++ rest) = .ok (value, rest))

/-- The option is found by its name and by its letter, and neither is taken for something else. -/
structure IsFoundIn (options : List OptionSpec) (option : OptionSpec) : Prop where
  byName : options.find? (·.name == option.name) = some option
  byLetter : ∀ letter, option.short? = some letter →
    options.find? (·.short? == some letter) = some option
  name : option.name ∉ ["", "help", "version"]
  noEquals : '=' ∉ option.name.toList
  letter : ∀ letter, option.short? = some letter → letter ∉ ['-', 'h', 'V']

theorem token_dashes {s : List Char} (hargument : argument.toList = '-' :: '-' :: s) (hs : s ≠ []) :
    token argument = longToken s := by
  obtain ⟨c, s, rfl⟩ := List.exists_cons_of_ne_nil hs
  rw [token, hargument]
  rfl

theorem token_dash {letter : Char} {s : List Char}
    (hargument : argument.toList = '-' :: letter :: s) (hletter : letter ≠ '-') :
    token argument = .short letter s := by
  rw [token, hargument]
  split
  · rename_i heq
    exact absurd (List.cons.inj (List.cons.inj heq).2).1 hletter
  · rename_i heq
    exact absurd (List.cons.inj (List.cons.inj heq).2).1 hletter
  · rename_i heq
    obtain ⟨rfl, rfl⟩ := List.cons.inj (List.cons.inj heq).2
    rfl
  · rename_i hnone
    exact absurd rfl (hnone _ _)

theorem token_long (hname : option.name ∉ ["", "help", "version"])
    (hequals : '=' ∉ option.name.toList) :
    token ("--" ++ option.name) = .long option.name none := by
  have hne : option.name.toList ≠ [] := by
    intro hnil
    rw [String.toList_eq_nil_iff.mp hnil] at hname
    exact hname (by decide)
  have hcut : Text.cut ['='] option.name.toList = none := by
    rw [Text.cut_eq_none_iff (List.cons_ne_nil _ _), List.singleton_infix_iff]
    exact hequals
  rw [token_dashes (by simp) hne, longToken, hcut, String.ofList_toList]

theorem token_long_equals (hequals : '=' ∉ option.name.toList) (value : String) :
    token ("--" ++ option.name ++ "=" ++ value) = .long option.name (some value) := by
  have hcut : Text.cut ['='] (option.name.toList ++ '=' :: value.toList) =
      some (option.name.toList, value.toList) := Text.cut_append hequals [] value.toList
  rw [token_dashes (s := option.name.toList ++ '=' :: value.toList) (by simp) (by simp), longToken,
    hcut]
  simp

theorem valueFrom_isWord (hvalue : isWord value = true) (rest : List String) :
    valueFrom none (value :: rest) = .ok (value, rest) := by
  rw [valueFrom, if_pos hvalue]

theorem exists_opens_of_spells (hfound : IsFoundIn options option)
    (h : Spells option value front) :
    ∃ argument more, front = argument :: more ∧ Opens option value argument more := by
  have hdash {letter : Char} (hletter : option.short? = some letter) (s : List Char) :
      token (String.ofList ('-' :: letter :: s)) = .short letter s := by
    refine token_dash (by simp) fun heq => ?_
    exact hfound.letter letter hletter (heq ▸ List.mem_cons_self)
  cases h with
  | joined =>
    exact ⟨_, [], rfl, .long (token_long_equals hfound.noEquals value) fun _ => rfl⟩
  | apart hvalue =>
    exact ⟨_, [value], rfl, .long (token_long hfound.name hfound.noEquals)
      (valueFrom_isWord hvalue)⟩
  | @letterJoined letter c s hletter hvalue hc =>
    refine ⟨_, [], rfl, .short hletter (hdash hletter _) fun rest => ?_⟩
    have hattached : attached? (c :: s) = some (String.ofList (c :: s)) := by
      unfold attached?
      split
      · cases ‹c :: s = []›
      · exact absurd (List.cons.inj ‹c :: s = _›).1 hc
      · rfl
    rw [hattached, hvalue]
    rfl
  | letterEquals hletter =>
    refine ⟨_, [], rfl, .short hletter (hdash hletter _) fun rest => ?_⟩
    simp [attached?, valueFrom]
  | letterApart hletter hvalue =>
    exact ⟨_, [value], rfl, .short hletter (hdash hletter []) (valueFrom_isWord hvalue)⟩

theorem option_eq_ok_iff {isOption : OptionSpec → Bool} {value? : Option String}
    {rest' : List String} :
    CommandLine.option options given isOption value? rest = .ok (given', rest') ↔
      ∃ option value, options.find? isOption = some option ∧
        valueFrom value? rest = .ok (value, rest') ∧ given.add option value = .ok given' := by
  unfold CommandLine.option
  cases options.find? isOption with
  | none =>
    constructor
    · intro h
      cases h
    · rintro ⟨_, _, h, -⟩
      cases h
  | some option =>
    simp only [bind_eq_ok_iff]
    constructor
    · rintro ⟨⟨value, _⟩, hvalue, added, hadd, h⟩
      obtain ⟨rfl, rfl⟩ := Prod.mk.inj (Except.ok.inj h)
      exact ⟨option, value, rfl, hvalue, hadd⟩
    · rintro ⟨_, value, h, hvalue, hadd⟩
      obtain rfl := Option.some.inj h
      exact ⟨_, hvalue, _, hadd, rfl⟩

theorem add_eq_ok_iff : given.add option value = .ok given' ↔
    (given.values.lookup option.name = none ∧ option.accepts value = true) ∧
      given' = { given with values := (option.name, value) :: given.values } := by
  unfold Given.add Given.value?
  split
  · rename_i hrefused
    constructor
    · intro h
      cases h
    · rintro ⟨⟨hnew, haccepts⟩, -⟩
      simp [hnew, haccepts] at hrefused
  · rename_i hrefused
    rw [Except.ok.injEq, eq_comm]
    rw [Bool.not_eq_true, Bool.or_eq_false_iff, Option.isSome_eq_false_iff,
      Option.isNone_iff_eq_none, Bool.not_eq_false'] at hrefused
    exact (and_iff_right hrefused).symm

theorem takeOption_of_opens (hfound : IsFoundIn options option)
    (h : Opens option value argument more) (hnew : given.values.lookup option.name = none)
    (haccepts : option.accepts value = true) (rest : List String) :
    takeOption options given (more ++ rest) (token argument) =
      .ok ({ given with values := (option.name, value) :: given.values }, rest) := by
  have hadd := add_eq_ok_iff.mpr ⟨⟨hnew, haccepts⟩, rfl⟩
  cases h with
  | long htoken hvalue =>
    have hhelp : option.name ≠ "help" := by
      intro heq
      exact hfound.name (by simp [heq])
    rw [htoken, takeOption, if_neg hhelp]
    exact option_eq_ok_iff.mpr ⟨option, value, hfound.byName, hvalue rest, hadd⟩
  | @short letter _ hletter htoken hvalue =>
    have hhelp : letter ≠ 'h' := by
      intro heq
      exact hfound.letter letter hletter (by simp [heq])
    rw [htoken, takeOption, if_neg hhelp]
    exact option_eq_ok_iff.mpr ⟨option, value, hfound.byLetter _ hletter, hvalue rest, hadd⟩

theorem cases_of_valueFrom {value? : Option String} {rest' : List String}
    (h : valueFrom value? rest = .ok (value, rest')) :
    (value? = some value ∧ rest = rest') ∨
      (value? = none ∧ rest = value :: rest' ∧ isWord value = true) := by
  unfold valueFrom at h
  split at h
  · obtain ⟨rfl, rfl⟩ := Prod.mk.inj (Except.ok.inj h)
    exact Or.inl ⟨rfl, rfl⟩
  · split at h
    · obtain ⟨rfl, rfl⟩ := Prod.mk.inj (Except.ok.inj h)
      exact Or.inr ⟨rfl, rfl, ‹_›⟩
    · cases h
  · cases h

theorem cases_of_token_long {name : String} {value? : Option String}
    (h : token argument = .long name value?) :
    (value? = none ∧ argument = "--" ++ name) ∨
      ∃ value, value? = some value ∧ argument = "--" ++ name ++ "=" ++ value := by
  unfold token at h
  split at h
  · cases h
  · rename_i s hs
    unfold longToken at h
    split at h
    · rename_i front back hcut
      obtain ⟨rfl, rfl⟩ := Token.long.inj h
      have hparts := (Text.eq_append_of_cut (List.cons_ne_nil _ _) hcut).1
      refine Or.inr ⟨_, rfl, ?_⟩
      rw [← String.toList_inj, hs, hparts]
      simp
    · obtain ⟨rfl, rfl⟩ := Token.long.inj h
      refine Or.inl ⟨rfl, ?_⟩
      rw [← String.toList_inj, hs]
      simp
  · cases h
  · cases h

theorem eq_of_token_short {letter : Char} {s : List Char} (h : token argument = .short letter s) :
    argument = String.ofList ('-' :: letter :: s) := by
  unfold token at h
  split at h
  · cases h
  · unfold longToken at h
    split at h <;> cases h
  · rename_i hs
    obtain ⟨rfl, rfl⟩ := Token.short.inj h
    rw [← hs, String.ofList_toList]
  · cases h

theorem spells_of_attached {letter : Char} {s : List Char} (hletter : option.short? = some letter)
    (h : attached? s = some value) : Spells option value [String.ofList ('-' :: letter :: s)] := by
  unfold attached? at h
  split at h
  · cases h
  · obtain rfl := Option.some.inj h
    simpa using Spells.letterEquals hletter
  · rename_i hnil hequals
    obtain ⟨c, s, rfl⟩ := List.exists_cons_of_ne_nil hnil
    refine .letterJoined hletter (Option.some.inj h).symm ?_
    rintro rfl
    exact hequals s rfl

theorem attached_eq_none {s : List Char} (h : attached? s = none) : s = [] := by
  unfold attached? at h
  split at h
  · rfl
  · cases h
  · cases h

/-- An option that is taken was spelled in the arguments that were taken for it. -/
theorem exists_of_takeOption {rest' : List String}
    (h : takeOption options given rest (token argument) = .ok (given', rest')) :
    ∃ option ∈ options, ∃ value more, rest = more ++ rest' ∧
      Spells option value (argument :: more) ∧ given.values.lookup option.name = none ∧
      option.accepts value = true ∧
      given' = { given with values := (option.name, value) :: given.values } := by
  cases htoken : token argument with
  | long name value? =>
    rw [htoken, takeOption] at h
    split at h
    · cases h
    obtain ⟨option, value, hoption, hvalue, hadd⟩ := option_eq_ok_iff.mp h
    obtain ⟨⟨hnew, haccepts⟩, rfl⟩ := add_eq_ok_iff.mp hadd
    have hname : option.name = name := by simpa using List.find?_some hoption
    subst hname
    refine ⟨option, List.mem_of_find?_eq_some hoption, value, ?_⟩
    rcases cases_of_token_long htoken with ⟨rfl, rfl⟩ | ⟨given, rfl, rfl⟩
    · rcases cases_of_valueFrom hvalue with ⟨hnone, -⟩ | ⟨-, rfl, hword⟩
      · cases hnone
      · exact ⟨[value], rfl, .apart hword, hnew, haccepts, rfl⟩
    · rcases cases_of_valueFrom hvalue with ⟨hsame, rfl⟩ | ⟨hnone, -⟩
      · obtain rfl := Option.some.inj hsame
        exact ⟨[], rfl, .joined, hnew, haccepts, rfl⟩
      · cases hnone
  | short letter letters =>
    rw [htoken, takeOption] at h
    split at h
    · cases h
    obtain ⟨option, value, hoption, hvalue, hadd⟩ := option_eq_ok_iff.mp h
    obtain ⟨⟨hnew, haccepts⟩, rfl⟩ := add_eq_ok_iff.mp hadd
    have hletter : option.short? = some letter := by simpa using List.find?_some hoption
    have hargument := eq_of_token_short htoken
    refine ⟨option, List.mem_of_find?_eq_some hoption, value, ?_⟩
    rcases cases_of_valueFrom hvalue with ⟨hattached, rfl⟩ | ⟨hattached, rfl, hword⟩
    · exact ⟨[], rfl, hargument ▸ spells_of_attached hletter hattached, hnew, haccepts, rfl⟩
    · obtain rfl := attached_eq_none hattached
      exact ⟨[value], rfl, hargument ▸ .letterApart hletter hword, hnew, haccepts, rfl⟩
  | endOfOptions =>
    rw [htoken] at h
    cases h
  | word text =>
    rw [htoken] at h
    cases h

/-! Lists of options. -/

theorem Opens.isOption (h : Opens option value argument more) :
    (∃ name value?, token argument = .long name value?) ∨
      ∃ letter letters, token argument = .short letter letters := by
  cases h with
  | long htoken => exact Or.inl ⟨_, _, htoken⟩
  | short _ htoken => exact Or.inr ⟨_, _, htoken⟩

theorem eq_of_token_endOfOptions (h : token argument = .endOfOptions) : argument = "--" := by
  unfold token at h
  split at h
  · rename_i hs
    rw [← String.toList_inj, hs]
    rfl
  · unfold longToken at h
    split at h <;> cases h
  · cases h
  · cases h

theorem eq_of_token_word {text : String} (h : token argument = .word text) : text = argument := by
  unfold token at h
  split at h
  · cases h
  · unfold longToken at h
    split at h <;> cases h
  · cases h
  · exact (Token.word.inj h).symm

theorem commandArguments_of_opens (h : Opens option value argument more) (steps : Nat) :
    commandArguments form given (steps + 1) (argument :: rest) =
      takeOption form.options given rest (token argument) >>= fun (given, rest) =>
        commandArguments form given steps rest := by
  rw [commandArguments]
  rcases h.isOption with ⟨name, value?, htoken⟩ | ⟨letter, letters, htoken⟩
  · rw [htoken]
  · rw [htoken]

/-- By induction on the list: a reader that takes options one by one comes to what is behind them
with the values that they give. -/
theorem exists_steps_of_lists {α : Type} (read : Given → Nat → List String → Except Refusal α)
    (hfound : ∀ option ∈ options, IsFoundIn options option)
    (hread : ∀ {given option value argument more rest} (steps : Nat), option ∈ options →
      Opens option value argument more → read given (steps + 1) (argument :: rest) =
        takeOption options given rest (token argument) >>= fun (given, rest) =>
          read given steps rest)
    (h : Lists options values args) {extra steps : Nat}
    (hsteps : (args ++ rest).length + extra ≤ steps) :
    ∃ steps', rest.length + extra ≤ steps' ∧
      read {} steps (args ++ rest) = read { values } steps' rest := by
  induction h generalizing rest with
  | nil => exact ⟨steps, hsteps, rfl⟩
  | @snoc values args front option value _ hoption hfront hnew haccepts ih =>
    obtain ⟨argument, more, rfl, hopens⟩ := exists_opens_of_spells (hfound option hoption) hfront
    rw [List.append_assoc] at hsteps ⊢
    obtain ⟨steps', hsteps', hbefore⟩ := ih hsteps
    simp only [List.cons_append, List.length_cons, List.length_append] at hsteps'
    obtain ⟨steps', rfl⟩ : ∃ k, steps' = k + 1 := Nat.exists_eq_succ_of_ne_zero (by omega)
    refine ⟨steps', by omega, ?_⟩
    rw [hbefore, List.cons_append, hread steps' hoption hopens,
      takeOption_of_opens (hfound option hoption) hopens hnew haccepts]
    rfl

theorem addWords_eq_ok (hwords : form.takesWords = false) {words : List String}
    (h : form.addWords given words = .ok given') : words = [] ∧ given' = given := by
  unfold CommandForm.addWords at h
  split at h
  · rename_i hallowed
    rw [hwords, Bool.or_false, List.isEmpty_iff] at hallowed
    subst hallowed
    obtain rfl := Except.ok.inj h
    exact ⟨rfl, by rw [List.append_nil]⟩
  · cases h

/-- The arguments that an option takes are added to those that were read before it. -/
theorem Lists.of_takeOption {before : List String} (hbefore : Lists options given.values before)
    (h : takeOption options given rest (token argument) = .ok (given', args)) :
    ∃ more, rest = more ++ args ∧ Lists options given'.values (before ++ argument :: more) := by
  obtain ⟨option, hoption, value, more, rfl, hspells, hnew, haccepts, rfl⟩ :=
    exists_of_takeOption h
  exact ⟨more, rfl, .snoc hbefore hoption hspells hnew haccepts⟩

/-- By induction on the steps: the arguments that were read give the values that were added. -/
theorem lists_of_commandArguments (hwords : form.takesWords = false) {steps : Nat}
    {before : List String} (hbefore : Lists form.options given.values before)
    (hsteps : args.length ≤ steps) (h : commandArguments form given steps args = .ok given') :
    ∃ front last, args = front ++ last ∧ (last = [] ∨ last = ["--"]) ∧
      Lists form.options given'.values (before ++ front) := by
  induction steps generalizing given args before with
  | zero =>
    obtain rfl := List.length_eq_zero_iff.mp (Nat.le_zero.mp hsteps)
    obtain rfl := Except.ok.inj h
    exact ⟨[], [], rfl, Or.inl rfl, by rwa [List.append_nil]⟩
  | succ steps ih =>
    have hoption {argument : String} {rest : List String}
        (hsteps : (argument :: rest).length ≤ steps + 1)
        (h : takeOption form.options given rest (token argument) >>= (fun (given, rest) =>
          commandArguments form given steps rest) = .ok given') :
        ∃ front last, argument :: rest = front ++ last ∧ (last = [] ∨ last = ["--"]) ∧
          Lists form.options given'.values (before ++ front) := by
      obtain ⟨⟨taken, rest'⟩, htaken, hrest⟩ := bind_eq_ok_iff.mp h
      obtain ⟨more, rfl, hlists⟩ := hbefore.of_takeOption htaken
      have hlength : rest'.length ≤ steps := by
        simp only [List.length_cons, List.length_append] at hsteps
        omega
      obtain ⟨front, last, rfl, hlast, hfront⟩ := ih hlists hlength hrest
      exact ⟨argument :: more ++ front, last, by simp, hlast, by simpa using hfront⟩
    cases args with
    | nil =>
      obtain rfl := Except.ok.inj h
      exact ⟨[], [], rfl, Or.inl rfl, by rwa [List.append_nil]⟩
    | cons argument rest =>
      cases htoken : token argument with
      | endOfOptions =>
        rw [commandArguments, htoken] at h
        obtain ⟨rfl, rfl⟩ := addWords_eq_ok hwords h
        obtain rfl := eq_of_token_endOfOptions htoken
        exact ⟨[], ["--"], rfl, Or.inr rfl, by rwa [List.append_nil]⟩
      | word text =>
        rw [commandArguments, htoken] at h
        obtain ⟨_, hadded, -⟩ := bind_eq_ok_iff.mp h
        cases (addWords_eq_ok hwords hadded).1
      | long name value? =>
        rw [commandArguments, htoken] at h
        exact hoption hsteps (htoken ▸ h)
      | short letter letters =>
        rw [commandArguments, htoken] at h
        exact hoption hsteps (htoken ▸ h)

/-! The program and the command. -/

theorem isFoundIn_configOption : ∀ option ∈ [configOption], IsFoundIn [configOption] option := by
  intro option hoption
  obtain rfl := List.mem_singleton.mp hoption
  exact ⟨rfl, nofun, by decide, by decide, nofun⟩

theorem isFoundIn_renderForm :
    ∀ option ∈ renderForm.options, IsFoundIn renderForm.options option := by
  simp only [renderForm, List.forall_mem_cons]
  refine ⟨⟨rfl, nofun, by decide, by decide, nofun⟩, ⟨rfl, ?_, by decide, by decide, ?_⟩,
    ⟨rfl, nofun, by decide, by decide, nofun⟩, ⟨rfl, nofun, by decide, by decide, nofun⟩, nofun⟩
  · rintro _ ⟨⟩
    rfl
  · rintro _ ⟨⟩
    decide

theorem arguments_of_opens (hfound : IsFoundIn [configOption] option)
    (h : Opens option value argument more) (steps : Nat) :
    arguments given (steps + 1) (argument :: rest) =
      takeOption [configOption] given rest (token argument) >>= fun (given, rest) =>
        arguments given steps rest := by
  rw [arguments]
  cases h with
  | long htoken =>
    rw [htoken]
    split
    · cases ‹Token.long _ _ = .word _›
    · rename_i heq
      exact absurd (Token.long.inj heq).1 fun heq => hfound.name (by simp [heq])
    · cases ‹Token.long _ _ = .short _ _›
    · rfl
  | @short letter _ hletter htoken =>
    rw [htoken]
    split
    · cases ‹Token.short _ _ = .word _›
    · cases ‹Token.short _ _ = .long _ _›
    · rename_i heq
      exact absurd (Token.short.inj heq).1 fun heq => hfound.letter letter hletter (by simp [heq])
    · rfl

theorem lists_of_arguments {steps : Nat} {before : List String}
    (hbefore : Lists [configOption] given.values before)
    (h : arguments given steps args = .ok invocation) :
    ∃ front name rest early, args = front ++ name :: rest ∧
      Lists [configOption] early (before ++ front) ∧
      command (early.lookup "config") name rest = .ok invocation := by
  induction steps generalizing given args before with
  | zero => cases h
  | succ steps ih =>
    cases args with
    | nil => cases h
    | cons argument rest =>
      have hoption (h : takeOption [configOption] given rest (token argument) >>=
          (fun (given, rest) => arguments given steps rest) = .ok invocation) :
          ∃ front name rest' early, argument :: rest = front ++ name :: rest' ∧
            Lists [configOption] early (before ++ front) ∧
            command (early.lookup "config") name rest' = .ok invocation := by
        obtain ⟨⟨taken, rest'⟩, htaken, hrest⟩ := bind_eq_ok_iff.mp h
        obtain ⟨more, rfl, hlists⟩ := hbefore.of_takeOption htaken
        obtain ⟨front, name, rest, early, rfl, hearly, hcommand⟩ := ih hlists hrest
        exact ⟨argument :: more ++ front, name, rest, early, by simp, by simpa using hearly,
          hcommand⟩
      rw [arguments] at h
      split at h
      · rename_i htoken
        obtain rfl := eq_of_token_word htoken
        exact ⟨[], _, rest, given.values, rfl, by rwa [List.append_nil], h⟩
      · cases h
      · cases h
      · exact hoption h

theorem required_eq_ok_iff {value? : Option String} :
    required value? = .ok value ↔ value? = some value := by
  cases value? with
  | none => simp [required]
  | some value => simp [required]

theorem targetOf_eq_ok_iff : targetOf given = .ok target ↔
    (given.values.lookup "target").bind Target.ofName? = some target := by
  rw [targetOf, bind_eq_ok_iff, Option.bind_eq_some_iff]
  simp only [required_eq_ok_iff]
  refine exists_congr fun name => and_congr_right fun _ => ?_
  cases Target.ofName? name with
  | none =>
    constructor
    · intro h
      cases h
    · intro h
      cases h
  | some found =>
    constructor
    · intro h
      exact congrArg some (Except.ok.inj h)
    · intro h
      exact congrArg Except.ok (Option.some.inj h)

theorem build_renderForm_eq_ok_iff :
    renderForm.build given = .ok (.render input target out?) ↔
      given.values.lookup "input" = some input ∧
        (given.values.lookup "target").bind Target.ofName? = some target ∧
        given.values.lookup "out" = out? := by
  simp only [renderForm, bind_eq_ok_iff, required_eq_ok_iff, targetOf_eq_ok_iff]
  constructor
  · rintro ⟨_, hinput, _, htarget, h⟩
    obtain ⟨rfl, rfl, rfl⟩ := Command.render.inj (Except.ok.inj h)
    exact ⟨hinput, htarget, rfl⟩
  · rintro ⟨hinput, htarget, rfl⟩
    exact ⟨_, hinput, _, htarget, rfl⟩

/-- No other command builds a rendering. -/
theorem eq_render_of_form {name : String} (hform : form? name = some form)
    (h : form.build given = .ok (.render input target out?)) : name = "render" := by
  unfold form? at hform
  split at hform
  · obtain rfl := Option.some.inj hform
    obtain ⟨target, -, hexport⟩ := bind_eq_ok_iff.mp h
    split at hexport
    · cases hexport
    · cases hexport
  · rfl
  · obtain rfl := Option.some.inj hform
    cases h
  · cases hform

/-- Behind the options a command may end, or be ended by two dashes. -/
theorem commandArguments_last {last : List String} {steps : Nat} (hlast : last = [] ∨ last = ["--"])
    (hsteps : last.length ≤ steps) :
    commandArguments form { values } steps last = .ok { values } := by
  rcases hlast with rfl | rfl
  · cases steps <;> rfl
  · cases steps with
    | zero => cases hsteps
    | succ steps => rfl

theorem asksForRendering_of_parse (h : parse args = .ok ⟨config?, .render input target out?⟩) :
    AsksForRendering args config? input target out? := by
  obtain ⟨before, name, rest, early, rfl, hearly, hcommand⟩ := lists_of_arguments .nil h
  unfold command at hcommand
  split at hcommand
  · rename_i form hform
    obtain ⟨given, hgiven, hcommand⟩ := bind_eq_ok_iff.mp hcommand
    obtain ⟨built, hbuilt, hcommand⟩ := bind_eq_ok_iff.mp hcommand
    obtain ⟨hconfig, rfl⟩ := Invocation.mk.inj (Except.ok.inj hcommand)
    obtain rfl := eq_render_of_form hform hbuilt
    obtain rfl := Option.some.inj hform
    obtain ⟨behind, last, rfl, hlast, hlate⟩ := lists_of_commandArguments rfl .nil le_rfl hgiven
    obtain ⟨hinput, htarget, hout⟩ := build_renderForm_eq_ok_iff.mp hbuilt
    exact .intro rfl hlast hearly hlate hconfig hinput htarget hout
  · cases hcommand

theorem parse_of_asksForRendering (h : AsksForRendering args config? input target out?) :
    parse args = .ok ⟨config?, .render input target out?⟩ := by
  obtain @⟨before, behind, last, early, late, rfl, hlast, hearly, hlate, rfl, hinput, htarget,
    rfl⟩ := h
  -- one step is kept for the command behind the options of the program
  have hspare : (before ++ "render" :: (behind ++ last)).length + 1 ≤
      (before ++ "render" :: (behind ++ last)).length + 1 := le_rfl
  obtain ⟨steps, hsteps, hread⟩ := exists_steps_of_lists arguments isFoundIn_configOption
    (fun steps hoption hopens => arguments_of_opens (isFoundIn_configOption _ hoption) hopens steps)
    hearly hspare
  obtain ⟨steps, rfl⟩ : ∃ k, steps = k + 1 := Nat.exists_eq_succ_of_ne_zero (by omega)
  have henough : (behind ++ last).length + 0 ≤ (behind ++ last).length := le_rfl
  obtain ⟨steps', hsteps', hlists⟩ := exists_steps_of_lists (commandArguments renderForm)
    isFoundIn_renderForm (fun steps _ hopens => commandArguments_of_opens hopens steps)
    hlate henough
  have hgiven : commandArguments renderForm {} (behind ++ last).length (behind ++ last) =
      .ok { values := late } := hlists.trans (commandArguments_last hlast hsteps')
  have hbuild : renderForm.build { values := late } =
      .ok (.render input target (late.lookup "out")) :=
    build_renderForm_eq_ok_iff.mpr ⟨hinput, htarget, rfl⟩
  have hcommand : arguments { values := early } (steps + 1) ("render" :: (behind ++ last)) =
      command (early.lookup "config") "render" (behind ++ last) := rfl
  rw [parse, hread, hcommand]
  exact bind_eq_ok_iff.mpr ⟨_, hgiven, bind_eq_ok_iff.mpr ⟨_, hbuild, rfl⟩⟩

/-- A rendering is asked for by exactly the arguments of the grammar. -/
theorem parse_eq_ok_iff :
    parse args = .ok ⟨config?, .render input target out?⟩ ↔
      AsksForRendering args config? input target out? :=
  ⟨asksForRendering_of_parse, parse_of_asksForRendering⟩

end Schemata.CommandLine
