import Schemata.Proofs.Text.Search
import Schemata.Url

/-!
What a redacted address still tells. The password stands between the first colon of the
credentials and the last at sign, so that whatever it contains is replaced, and of the text
behind it only the part that has no at sign is shown.
-/
namespace Schemata.Url

variable {scheme user host rest : List Char}

theorem cut_schemeMark (hscheme : ¬schemeMark <:+: scheme) (rest : List Char) :
    Text.cut schemeMark (scheme ++ (schemeMark ++ rest)) = some (scheme, rest) :=
  Text.cut_of_not_infix (by decide) hscheme rest

theorem redactedChars_of_no_mark (h : ¬schemeMark <:+: rest) : redactedChars rest = rest := by
  unfold redactedChars
  rw [(Text.cut_eq_none_iff (by decide)).mpr h]

theorem redactedChars_of_no_credentials (hscheme : ¬schemeMark <:+: scheme) (hrest : '@' ∉ rest) :
    redactedChars (scheme ++ (schemeMark ++ rest)) = scheme ++ (schemeMark ++ rest) := by
  unfold redactedChars
  rw [cut_schemeMark hscheme]
  dsimp only
  rw [Text.cutLast_eq_none_iff.mpr hrest]

/-- Credentials that end at the last at sign are searched for a colon. -/
theorem redactedChars_of_credentials (hscheme : ¬schemeMark <:+: scheme) (hhost : '@' ∉ host)
    (credentials : List Char) :
    redactedChars (scheme ++ (schemeMark ++ (credentials ++ '@' :: host))) =
      match Text.cut [':'] credentials with
      | none => scheme ++ (schemeMark ++ (credentials ++ '@' :: host))
      | some (user, _) => scheme ++ (schemeMark ++ (user ++ ':' :: "***".toList ++ '@' :: host)) := by
  unfold redactedChars
  rw [cut_schemeMark hscheme]
  dsimp only
  rw [Text.cutLast_append hhost]
  dsimp only
  cases Text.cut [':'] credentials with
  | none => rfl
  | some parts => simp

theorem redactedChars_of_no_password (hscheme : ¬schemeMark <:+: scheme) (huser : ':' ∉ user)
    (hhost : '@' ∉ host) :
    redactedChars (scheme ++ (schemeMark ++ (user ++ '@' :: host))) =
      scheme ++ (schemeMark ++ (user ++ '@' :: host)) := by
  have hnone : Text.cut [':'] user = none := by
    rwa [Text.cut_eq_none_iff (List.cons_ne_nil _ _), List.singleton_infix_iff]
  rw [redactedChars_of_credentials hscheme hhost, hnone]

theorem redactedChars_of_password (hscheme : ¬schemeMark <:+: scheme) (huser : ':' ∉ user)
    (password : List Char) (hhost : '@' ∉ host) :
    redactedChars (scheme ++ (schemeMark ++ (user ++ ':' :: password ++ '@' :: host))) =
      scheme ++ (schemeMark ++ (user ++ ':' :: "***".toList ++ '@' :: host)) := by
  have hcut : Text.cut [':'] (user ++ ':' :: password) = some (user, password) :=
    Text.cut_append huser [] password
  rw [redactedChars_of_credentials hscheme hhost, hcut]

/-- An address is shown as it is, or its parts are found at the marks. -/
theorem redactedChars_cases (url : List Char) :
    redactedChars url = url ∨ ∃ scheme user password host, ¬schemeMark <:+: scheme ∧ ':' ∉ user ∧
      '@' ∉ host ∧
      url = scheme ++ (schemeMark ++ (user ++ ':' :: password ++ '@' :: host)) := by
  unfold redactedChars
  split
  · exact Or.inl rfl
  · rename_i scheme rest hcut
    obtain ⟨hurl, hscheme⟩ := Text.eq_append_of_cut (by decide) hcut
    split
    · exact Or.inl rfl
    · rename_i credentials host hlast
      obtain ⟨hrest, hhost⟩ := Text.eq_append_of_cutLast hlast
      split
      · exact Or.inl rfl
      · rename_i user password hcolon
        obtain ⟨hcredentials, huser⟩ := Text.eq_append_of_cut (by decide) hcolon
        refine Or.inr ⟨scheme, user, password, host, hscheme, ?_, hhost, ?_⟩
        · rwa [List.singleton_infix_iff] at huser
        · rw [hurl, hrest, hcredentials]
          rfl

theorem redactedChars_idem (url : List Char) :
    redactedChars (redactedChars url) = redactedChars url := by
  rcases redactedChars_cases url with hsame | ⟨scheme, user, password, host, hscheme, huser, hhost,
    rfl⟩
  · rw [hsame, hsame]
  · rw [redactedChars_of_password hscheme huser password hhost,
      redactedChars_of_password hscheme huser _ hhost]

/-- What is shown of the text behind the password. -/
def shownHost (host : List Char) : List Char :=
  match Text.cutLast '@' host with
  | none => host
  | some (_, last) => last

theorem shownHost_suffix (host : List Char) : shownHost host <:+ host := by
  unfold shownHost
  split
  · exact List.suffix_rfl
  · rename_i inner last hlast
    obtain ⟨rfl, _⟩ := Text.eq_append_of_cutLast hlast
    exact ⟨inner ++ ['@'], by simp⟩

/-- At signs in the host only make the password longer. -/
theorem exists_password (password host : List Char) :
    '@' ∉ shownHost host ∧ ∃ longer,
      password ++ '@' :: host = longer ++ '@' :: shownHost host := by
  unfold shownHost
  split
  · rename_i hnone
    exact ⟨Text.cutLast_eq_none_iff.mp hnone, password, rfl⟩
  · rename_i inner last hlast
    obtain ⟨rfl, hlacks⟩ := Text.eq_append_of_cutLast hlast
    exact ⟨hlacks, password ++ '@' :: inner, by simp⟩

/-- An address with a password in it. -/
def withPassword (scheme user password host : String) : String :=
  scheme ++ "://" ++ user ++ ":" ++ password ++ "@" ++ host

theorem redacted_withPassword {scheme user : String}
    (hscheme : ¬"://".toList <:+: scheme.toList) (huser : ':' ∉ user.toList)
    (password host : String) :
    redacted (withPassword scheme user password host) =
      withPassword scheme user "***" (String.ofList (shownHost host.toList)) := by
  obtain ⟨hhost, longer, hlonger⟩ := exists_password password.toList host.toList
  have hparts : (withPassword scheme user password host).toList =
      scheme.toList ++ (schemeMark ++ (user.toList ++ ':' :: longer ++
        '@' :: shownHost host.toList)) := by
    simp [withPassword, schemeMark, ← hlonger]
  rw [redacted, hparts, redactedChars_of_password hscheme huser longer hhost]
  apply String.toList_inj.mp
  simp [withPassword, schemeMark]

/-- There is no password in the address: it has no scheme, or no credentials, or credentials
of a user alone. -/
inductive LacksPassword (url : String) : Prop
  | noScheme (h : ¬"://".toList <:+: url.toList)
  | noCredentials (scheme rest : String) (hurl : url = scheme ++ "://" ++ rest)
      (hscheme : ¬"://".toList <:+: scheme.toList) (hrest : '@' ∉ rest.toList)
  | userAlone (scheme user host : String) (hurl : url = scheme ++ "://" ++ user ++ "@" ++ host)
      (hscheme : ¬"://".toList <:+: scheme.toList) (huser : ':' ∉ user.toList)
      (hhost : '@' ∉ host.toList)

theorem redacted_of_redactedChars {url : String} (h : redactedChars url.toList = url.toList) :
    redacted url = url := by
  rw [redacted, h, String.ofList_toList]

theorem LacksPassword.redacted_eq {url : String} (h : LacksPassword url) : redacted url = url := by
  apply redacted_of_redactedChars
  cases h with
  | noScheme h => exact redactedChars_of_no_mark h
  | noCredentials scheme rest hurl hscheme hrest =>
    have hparts : url.toList = scheme.toList ++ (schemeMark ++ rest.toList) := by
      simp [hurl, schemeMark]
    rw [hparts]
    exact redactedChars_of_no_credentials hscheme hrest
  | userAlone scheme user host hurl hscheme huser hhost =>
    have hparts : url.toList =
        scheme.toList ++ (schemeMark ++ (user.toList ++ '@' :: host.toList)) := by
      simp [hurl, schemeMark]
    rw [hparts]
    exact redactedChars_of_no_password hscheme huser hhost

theorem redacted_idem (url : String) : redacted (redacted url) = redacted url := by
  rw [redacted, redacted, String.toList_ofList, redactedChars_idem]

/-- A redacted address is the same for any two passwords, whatever marks the passwords and the
text behind them contain: it is made of the scheme, the user and an end of that text. To redact
it again changes nothing, and neither does it where there is no password. -/
theorem redacted_hides_password :
    (∀ scheme user password other host : String, ¬"://".toList <:+: scheme.toList →
      ':' ∉ user.toList →
      redacted (withPassword scheme user password host) =
        redacted (withPassword scheme user other host) ∧
      ∃ shown : String, shown.toList <:+ host.toList ∧
        redacted (withPassword scheme user password host) =
          withPassword scheme user "***" shown) ∧
    (∀ url, redacted (redacted url) = redacted url) ∧
    ∀ url, LacksPassword url → redacted url = url := by
  refine ⟨?_, redacted_idem, fun _ h => h.redacted_eq⟩
  intro scheme user password other host hscheme huser
  have hshown := redacted_withPassword hscheme huser password host
  have hother := redacted_withPassword hscheme huser other host
  refine ⟨hshown.trans hother.symm, _, ?_, hshown⟩
  rw [String.toList_ofList]
  exact shownHost_suffix host.toList

/-- Marks of every kind in two passwords, and an at sign behind them. -/
theorem marks_in_passwords_stay_hidden :
    ¬"://".toList <:+: "mysql".toList ∧ ':' ∉ "app@shop".toList ∧
      redacted "mysql://app@shop:a://b:c@d?e@eu@db/x" =
        redacted "mysql://app@shop:@eu@db/x" ∧
      LacksPassword "mysql://app@db:3306/x" ∧
      redacted "mysql://app@db:3306/x" = "mysql://app@db:3306/x" := by
  have hscheme : ¬"://".toList <:+: "mysql".toList := by decide
  have huser : ':' ∉ "app@shop".toList := by decide
  have hlacks : LacksPassword "mysql://app@db:3306/x" :=
    .userAlone "mysql" "app" "db:3306/x" (by decide) hscheme (by decide) (by decide)
  obtain ⟨hhidden, _, hkept⟩ := redacted_hides_password
  exact ⟨hscheme, huser, (hhidden "mysql" "app@shop" "a://b:c@d?e" "" "eu@db/x" hscheme huser).1,
    hlacks, hkept _ hlacks⟩

end Schemata.Url
