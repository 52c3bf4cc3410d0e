import Mathlib.Data.List.TakeWhile
import Schemata.Proofs.Url.Redaction

/-!
The database that an address names. It stands behind the first slash after the scheme, up to a
query or a fragment, so that these change nothing where the address has a path. Without a path
the first slash may be one in the query, and then the name is taken from there.
-/
namespace Schemata.Url

variable {scheme rest query path : List Char} {mark : Char}

/-- A query or a fragment begins here. -/
def endsPath (c : Char) : Bool := c == '?' || c == '#'

def nameOfPath? (path : List Char) : Option (List Char) :=
  let name := Text.before endsPath path
  if name.isEmpty then none else some name

/-- The name in what stands behind the scheme. -/
def nameBehind? (rest : List Char) : Option (List Char) :=
  (Text.cut ['/'] rest).bind fun parts => nameOfPath? parts.2

theorem databaseChars_of_scheme (hscheme : ¬schemeMark <:+: scheme) (rest : List Char) :
    databaseChars? (scheme ++ (schemeMark ++ rest)) = nameBehind? rest := by
  unfold databaseChars?
  rw [cut_schemeMark hscheme]
  rfl

/-- A path has no end inside. -/
theorem before_append (hpath : ∀ c ∈ path, endsPath c = false) {behind : List Char}
    (hbehind : ∀ c ∈ behind.head?, endsPath c = true) :
    Text.before endsPath (path ++ behind) = path := by
  have hkept : ∀ c ∈ path, (!endsPath c) = true := fun c hc => by rw [hpath c hc]; rfl
  have hstop : behind.takeWhile (!endsPath ·) = [] := by
    cases behind with
    | nil => rfl
    | cons c behind =>
      rw [List.takeWhile_cons_of_neg]
      simpa using hbehind c rfl
  rw [Text.before, List.takeWhile_append_of_pos hkept, hstop, List.append_nil]

theorem nameOfPath_append (hpath : ∀ c ∈ path, endsPath c = false) {behind : List Char}
    (hbehind : ∀ c ∈ behind.head?, endsPath c = true) :
    nameOfPath? (path ++ behind) = if path.isEmpty then none else some path := by
  rw [nameOfPath?, before_append hpath hbehind]

theorem cut_slash_eq_none (h : '/' ∉ rest) : Text.cut ['/'] rest = none := by
  rwa [Text.cut_eq_none_iff (List.cons_ne_nil _ _), List.singleton_infix_iff]

/-- A slash behind the scheme is met before anything that is put behind the address. -/
theorem nameBehind_append_of_slash (hslash : '/' ∈ rest)
    (hrest : ∀ c ∈ rest, endsPath c = false) (hmark : endsPath mark = true)
    (query : List Char) : nameBehind? (rest ++ mark :: query) = nameBehind? rest := by
  obtain ⟨authority, path, rfl, hauthority⟩ := List.eq_append_cons_of_mem hslash
  have hpath : ∀ c ∈ path, endsPath c = false :=
    fun c hc => hrest c (List.mem_append_right _ (List.mem_cons_of_mem _ hc))
  have hcut (behind : List Char) :
      Text.cut ['/'] (authority ++ '/' :: behind) = some (authority, behind) :=
    Text.cut_append hauthority [] behind
  rw [List.append_assoc, List.cons_append, nameBehind?, nameBehind?, hcut, hcut]
  change nameOfPath? (path ++ mark :: query) = nameOfPath? path
  have hend : ∀ c ∈ (mark :: query).head?, endsPath c = true := by simpa using hmark
  have hwhole : nameOfPath? (path ++ []) = _ := nameOfPath_append hpath (by simp)
  rw [nameOfPath_append hpath hend, ← hwhole, List.append_nil]

/-- Without a slash behind the scheme the name is looked for in the query. -/
theorem nameBehind_append_of_no_slash (hslash : '/' ∉ rest) (hmark : endsPath mark = true)
    (query : List Char) : nameBehind? (rest ++ mark :: query) = nameBehind? query := by
  have hne : '/' ≠ mark := by
    rintro rfl
    exact absurd hmark (by decide)
  have hskipped : '/' ∉ rest ++ [mark] := by simp [hslash, hne]
  rw [List.append_cons, nameBehind?, nameBehind?, Text.cut_append_left hskipped, Option.bind_map]
  rfl

/-- The text behind the first slash begins with this name, and the name ends there or before a
query or a fragment. -/
structure NamesDatabase (query name : String) : Prop where
  name_ne : name ≠ ""
  exists_slash : ∃ before after, query.toList = before ++ '/' :: (name.toList ++ after) ∧
    '/' ∉ before ∧ (∀ c ∈ name.toList, endsPath c = false) ∧
    ∀ c ∈ after.head?, endsPath c = true

/-- The address has a slash behind its scheme. -/
def HasPath (url : String) : Prop :=
  ∃ scheme rest, url = scheme ++ "://" ++ rest ∧ '/' ∈ rest.toList

theorem nameOfPath_eq_some_iff {name : List Char} :
    nameOfPath? path = some name ↔ name ≠ [] ∧ ∃ after, path = name ++ after ∧
      (∀ c ∈ name, endsPath c = false) ∧ ∀ c ∈ after.head?, endsPath c = true := by
  constructor
  · intro h
    obtain ⟨after, hparts, hname, hafter⟩ := Text.exists_of_before endsPath path
    rw [hparts, nameOfPath_append hname hafter] at h
    split at h
    · cases h
    · rename_i hne
      obtain rfl := Option.some.inj h
      exact ⟨List.isEmpty_iff.not.mp hne, _, hparts, hname, hafter⟩
  · rintro ⟨hne, after, rfl, hname, hafter⟩
    rw [nameOfPath_append hname hafter]
    exact if_neg (List.isEmpty_iff.not.mpr hne)

theorem namesDatabase_iff (query name : String) :
    NamesDatabase query name ↔ nameBehind? query.toList = some name.toList := by
  rw [nameBehind?, Option.bind_eq_some_iff]
  constructor
  · rintro ⟨hne, before, after, hquery, hbefore, hname, hafter⟩
    have hcut : Text.cut ['/'] query.toList = some (before, name.toList ++ after) := by
      rw [hquery]
      exact Text.cut_append hbefore [] _
    exact ⟨_, hcut, nameOfPath_eq_some_iff.mpr
      ⟨String.toList_eq_nil_iff.not.mpr hne, after, rfl, hname, hafter⟩⟩
  · rintro ⟨⟨before, path⟩, hcut, hpath⟩
    obtain ⟨hquery, hbefore⟩ := Text.eq_append_of_cut (List.cons_ne_nil _ _) hcut
    obtain ⟨hne, after, rfl, hname, hafter⟩ := nameOfPath_eq_some_iff.mp hpath
    rw [List.singleton_infix_iff] at hbefore
    exact ⟨String.toList_eq_nil_iff.not.mp hne, before, after, hquery, hbefore, hname, hafter⟩

theorem hasPath_iff {url : String} (hscheme : ¬schemeMark <:+: scheme)
    (hurl : url.toList = scheme ++ (schemeMark ++ rest)) : HasPath url ↔ '/' ∈ rest := by
  constructor
  · rintro ⟨earlier, behind, rfl, hslash⟩
    have hcut : Text.cut schemeMark (earlier.toList ++ (schemeMark ++ behind.toList)) =
        some (scheme, rest) := by
      rw [← cut_schemeMark hscheme, ← hurl]
      simp [schemeMark]
    exact (Text.suffix_of_cut (by decide) hcut).subset hslash
  · intro hslash
    refine ⟨String.ofList scheme, String.ofList rest, ?_, by rwa [String.toList_ofList]⟩
    apply String.toList_inj.mp
    rw [hurl]
    simp [schemeMark]

/-- What is put behind an address as a query or a fragment is asked for the database just when
the address has no path. It changes the answer when it then names a database itself. -/
theorem database_append_iff :
    ∀ url query : String, "://".toList <:+: url.toList → '?' ∉ url.toList → '#' ∉ url.toList →
      ∀ mark ∈ ["?", "#"],
        (database? (url ++ mark ++ query) = database? url ↔
          HasPath url ∨ ∀ name, ¬NamesDatabase query name) ∧
        (¬HasPath url → database? url = none ∧
          ∀ name, database? (url ++ mark ++ query) = some name ↔ NamesDatabase query name) := by
  intro url query hmark hquery hfragment mark hmem
  obtain ⟨c, hc, rfl⟩ : ∃ c, endsPath c = true ∧ mark = String.singleton c := by
    rcases List.mem_pair.mp hmem with rfl | rfl
    · exact ⟨'?', rfl, rfl⟩
    · exact ⟨'#', rfl, rfl⟩
  obtain ⟨⟨scheme, rest⟩, hcut⟩ : ∃ parts, Text.cut schemeMark url.toList = some parts :=
    Option.ne_none_iff_exists'.mp ((Text.cut_eq_none_iff (by decide)).not.mpr (not_not.mpr hmark))
  obtain ⟨hurl, hscheme⟩ := Text.eq_append_of_cut (by decide) hcut
  have hrest : ∀ c ∈ rest, endsPath c = false := by
    intro d hd
    have hd : d ∈ url.toList := by simp [hurl, hd]
    rw [endsPath, Bool.or_eq_false_iff, beq_eq_false_iff_ne, beq_eq_false_iff_ne]
    exact ⟨fun h => hquery (h ▸ hd), fun h => hfragment (h ▸ hd)⟩
  have hshort : database? url = (nameBehind? rest).map String.ofList := by
    rw [database?, hurl, databaseChars_of_scheme hscheme]
  have hlong : database? (url ++ String.singleton c ++ query) =
      (nameBehind? (rest ++ c :: query.toList)).map String.ofList := by
    have hparts : (url ++ String.singleton c ++ query).toList =
        scheme ++ (schemeMark ++ (rest ++ c :: query.toList)) := by
      simp [hurl]
    rw [database?, hparts, databaseChars_of_scheme hscheme]
  by_cases hslash : '/' ∈ rest
  · have hpath : HasPath url := (hasPath_iff hscheme hurl).mpr hslash
    rw [hshort, hlong, nameBehind_append_of_slash hslash hrest hc]
    exact ⟨iff_of_true rfl (Or.inl hpath), fun hnot => absurd hpath hnot⟩
  · have hpath : ¬HasPath url := (hasPath_iff hscheme hurl).not.mpr hslash
    have hnone : database? url = none := by
      rw [hshort, nameBehind?, cut_slash_eq_none hslash]
      rfl
    have hname (name : String) :
        database? (url ++ String.singleton c ++ query) = some name ↔ NamesDatabase query name := by
      rw [namesDatabase_iff, hlong, nameBehind_append_of_no_slash hslash hc,
        Option.map_eq_some_iff]
      constructor
      · rintro ⟨chars, hchars, rfl⟩
        rwa [String.toList_ofList]
      · intro hchars
        exact ⟨_, hchars, String.ofList_toList⟩
    refine ⟨?_, fun _ => ⟨hnone, hname⟩⟩
    rw [hnone, Option.eq_none_iff_forall_ne_some, or_iff_right hpath]
    exact forall_congr' fun name => (hname name).not

theorem certificate_behind_a_path_is_ignored :
    "://".toList <:+: "mysql://app@db/shop".toList ∧ '?' ∉ "mysql://app@db/shop".toList ∧
      '#' ∉ "mysql://app@db/shop".toList ∧ HasPath "mysql://app@db/shop" ∧
      database? ("mysql://app@db/shop" ++ "?" ++ "ssl-ca=/etc/ca.pem") =
        database? "mysql://app@db/shop" := by
  have hmark : "://".toList <:+: "mysql://app@db/shop".toList := by decide
  have hquery : '?' ∉ "mysql://app@db/shop".toList := by decide
  have hfragment : '#' ∉ "mysql://app@db/shop".toList := by decide
  have hpath : HasPath "mysql://app@db/shop" := ⟨"mysql", "app@db/shop", by decide, by decide⟩
  obtain ⟨hsame, _⟩ := database_append_iff "mysql://app@db/shop" "ssl-ca=/etc/ca.pem" hmark hquery
    hfragment "?" (by decide)
  exact ⟨hmark, hquery, hfragment, hpath, hsame.mpr (Or.inl hpath)⟩

/-- Without a path the file of a certificate is taken for the database. -/
theorem certificate_taken_for_database :
    "://".toList <:+: "mysql://root@localhost".toList ∧
      '?' ∉ "mysql://root@localhost".toList ∧ '#' ∉ "mysql://root@localhost".toList ∧
      database? "mysql://root@localhost" = none ∧
      database? ("mysql://root@localhost" ++ "?" ++ "ssl-ca=/etc/ca.pem") = some "etc/ca.pem" := by
  decide

end Schemata.Url
