import Mathlib.Data.Sym.Sym2
import Schemata.Document.Diagram
import Schemata.Proofs.Traversals

/-!
The lines between the tables of a diagram. Two tables are a pair without an order, and of all
relations that join a pair only the first one gets a line. So the pairs of a diagram are those
that some relation between its tables joins, however tables and relations are ordered.
-/
namespace Schemata.Document

/-- The two tables that a link joins. -/
def Link.ends (link : Link) : Sym2 String := s(link.owner, link.referenced)

theorem Link.joins_iff (link other : Link) :
    link.joins other.owner other.referenced = true ↔ link.ends = other.ends := by
  simp [joins, ends]

namespace Diagram

variable {tables : List Table} {pair : Sym2 String} {link : Link} {earlier : List Link}

theorem firstLinks_cons (earlier : List Link) (link : Link) (rest : List Link) :
    firstLinks earlier (link :: rest) =
      if ∃ other ∈ earlier, other.ends = link.ends then firstLinks earlier rest
      else link :: firstLinks (link :: earlier) rest := by
  rw [firstLinks]
  simp only [List.any_eq_true, Link.joins_iff]

/-- Of the links of a pair the first one is kept, unless an earlier one joins the pair. -/
theorem filter_firstLinks (earlier links : List Link) (pair : Sym2 String) :
    (firstLinks earlier links).filter (·.ends = pair) =
      if ∃ other ∈ earlier, other.ends = pair then []
      else (links.find? (·.ends = pair)).toList := by
  induction links generalizing earlier with
  | nil => simp [firstLinks]
  | cons link rest ih =>
    rw [firstLinks_cons]
    by_cases hpair : link.ends = pair
    · subst pair
      by_cases hearlier : ∃ other ∈ earlier, other.ends = link.ends
      · rw [if_pos hearlier, ih, if_pos hearlier, if_pos hearlier]
      · have hnow : ∃ other ∈ link :: earlier, other.ends = link.ends :=
          ⟨link, List.mem_cons_self, rfl⟩
        rw [if_neg hearlier, if_neg hearlier, List.filter_cons_of_pos (by simp), ih, if_pos hnow,
          List.find?_cons_of_pos (by simp)]
        rfl
    · have hskip : ∀ links : List Link, (link :: links).filter (·.ends = pair) =
          links.filter (·.ends = pair) := fun links => List.filter_cons_of_neg (by simp [hpair])
      rw [List.find?_cons_of_neg (by simp [hpair])]
      split
      · exact ih earlier
      · rw [hskip, ih]
        simp [hpair]

theorem ends_ne_of_mem_firstLinks {links : List Link} (h : link ∈ firstLinks earlier links) :
    ∀ other ∈ earlier, other.ends ≠ link.ends := by
  intro other hother heq
  have hkept : link ∈ (firstLinks earlier links).filter (·.ends = link.ends) := by
    simpa using h
  rw [filter_firstLinks, if_pos ⟨other, hother, heq⟩] at hkept
  cases hkept

/-- Kept links stand in the order in which they first came. -/
theorem pairwise_firstLinks (earlier links : List Link) :
    (firstLinks earlier links).Pairwise
      fun link later => links.idxOf link < links.idxOf later := by
  induction links generalizing earlier with
  | nil => exact .nil
  | cons first rest ih =>
    -- no kept link is the first one again, so that their places only move by one
    have hshift : ∀ {earlier : List Link}, (∀ link ∈ firstLinks earlier rest, first ≠ link) →
        (firstLinks earlier rest).Pairwise
          fun link later => (first :: rest).idxOf link < (first :: rest).idxOf later := by
      intro earlier hne
      refine (ih earlier).imp_of_mem fun hlink hlater hlt => ?_
      rw [List.idxOf_cons_ne _ (hne _ hlink), List.idxOf_cons_ne _ (hne _ hlater)]
      omega
    rw [firstLinks_cons]
    split
    · rename_i hearlier
      obtain ⟨other, hother, hends⟩ := hearlier
      refine hshift fun link hlink heq => ?_
      exact ends_ne_of_mem_firstLinks hlink other hother (heq ▸ hends)
    · have hne : ∀ link ∈ firstLinks (first :: earlier) rest, first ≠ link :=
        fun link hlink heq =>
          ends_ne_of_mem_firstLinks hlink first List.mem_cons_self (heq ▸ rfl)
      refine List.pairwise_cons.mpr ⟨fun link hlink => ?_, hshift hne⟩
      rw [List.idxOf_cons_self, List.idxOf_cons_ne _ (hne link hlink)]
      omega

/-- Some table of the list has a relation to another one of the list, or to itself, and these
two are the pair. -/
def RelatedPair (tables : List Table) (pair : Sym2 String) : Prop :=
  ∃ table ∈ tables, ∃ relation ∈ table.relations,
    (∃ other ∈ tables, other.name = relation.referencedTable) ∧
      pair = s(table.name, relation.referencedTable)

instance (tables : List Table) (pair : Sym2 String) : Decidable (RelatedPair tables pair) :=
  inferInstanceAs (Decidable (∃ table ∈ tables, ∃ relation ∈ table.relations,
    (∃ other ∈ tables, other.name = relation.referencedTable) ∧
      pair = s(table.name, relation.referencedTable)))

/-- The relations to tables of the list, in the order of the tables and of their relations. -/
def related (tables : List Table) : List Link :=
  tables.flatMap fun table => table.relations.filterMap fun relation =>
    if ∃ other ∈ tables, other.name = relation.referencedTable then
      some ⟨table.name, relation.referencedTable, relation.column⟩
    else none

theorem flatMap_linksOf (tables : List Table) : tables.flatMap (linksOf tables) = related tables := by
  refine congrArg (tables.flatMap ·) (funext fun table => ?_)
  rw [linksOf, Table.relationsWithin, ← List.filterMap_eq_map, List.filterMap_filter]
  refine List.filterMap_congr fun relation _ => ?_
  simp [Table.names]

theorem relatedPair_iff : RelatedPair tables pair ↔ ∃ link ∈ related tables, link.ends = pair := by
  simp only [RelatedPair, related, List.mem_flatMap, List.mem_filterMap]
  constructor
  · rintro ⟨table, htable, relation, hrelation, hknown, rfl⟩
    exact ⟨_, ⟨table, htable, relation, hrelation, if_pos hknown⟩, rfl⟩
  · rintro ⟨link, ⟨table, htable, relation, hrelation, hlink⟩, rfl⟩
    split at hlink
    · rename_i hknown
      cases hlink
      exact ⟨table, htable, relation, hrelation, hknown, rfl⟩
    · cases hlink

theorem links_eq (tables : List Table) : links tables = firstLinks [] (related tables) := by
  rw [links, flatMap_linksOf]

theorem filter_links (tables : List Table) (pair : Sym2 String) :
    (links tables).filter (·.ends = pair) =
      ((related tables).find? (·.ends = pair)).toList := by
  rw [links_eq, filter_firstLinks]
  simp

theorem exists_first_of_relatedPair (h : RelatedPair tables pair) :
    ∃ link, (links tables).filter (·.ends = pair) = [link] ∧
      (related tables).find? (·.ends = pair) = some link := by
  obtain ⟨link, hlink, hends⟩ := relatedPair_iff.mp h
  have hsome : ((related tables).find? (·.ends = pair)).isSome := by
    rw [List.find?_isSome]
    exact ⟨link, hlink, by simpa using hends⟩
  obtain ⟨first, hfirst⟩ := Option.isSome_iff_exists.mp hsome
  exact ⟨first, by rw [filter_links, hfirst]; rfl, hfirst⟩

theorem filter_eq_nil_of_not_relatedPair (h : ¬RelatedPair tables pair) :
    (links tables).filter (·.ends = pair) = [] := by
  rw [filter_links, List.find?_eq_none.mpr]
  · rfl
  · intro link hlink hends
    exact h (relatedPair_iff.mpr ⟨link, hlink, by simpa using hends⟩)

theorem exists_link_iff : (∃ link ∈ links tables, link.ends = pair) ↔ RelatedPair tables pair := by
  constructor
  · rintro ⟨link, hlink, hends⟩
    by_contra hnot
    have hmem : link ∈ (links tables).filter (·.ends = pair) := by simp [hlink, hends]
    rw [filter_eq_nil_of_not_relatedPair hnot] at hmem
    cases hmem
  · intro h
    obtain ⟨link, hfilter, _⟩ := exists_first_of_relatedPair h
    have hmem : link ∈ (links tables).filter (·.ends = pair) := by simp [hfilter]
    exact ⟨link, by simpa using hmem⟩

/-- One table has the name of the other, and its relations in some order. -/
def Alike (table other : Table) : Prop :=
  table.name = other.name ∧ table.relations.Perm other.relations

/-- The same tables in another order, each with its relations in another order. -/
def Rearranged (tables others : List Table) : Prop :=
  ∃ moved, tables.Perm moved ∧ List.Forall₂ Alike moved others

theorem RelatedPair.of_alike {others : List Table}
    (halike : ∀ table ∈ tables, ∃ other ∈ others, Alike table other)
    (h : RelatedPair tables pair) : RelatedPair others pair := by
  obtain ⟨table, htable, relation, hrelation, ⟨known, hknown, hname⟩, rfl⟩ := h
  obtain ⟨other, hother, hsame, hrelations⟩ := halike table htable
  obtain ⟨further, hfurther, hfurtherName, _⟩ := halike known hknown
  exact ⟨other, hother, relation, hrelations.mem_iff.mp hrelation,
    ⟨further, hfurther, hfurtherName.symm.trans hname⟩, by rw [hsame]⟩

theorem Rearranged.relatedPair_iff {others : List Table} (h : Rearranged tables others) :
    RelatedPair others pair ↔ RelatedPair tables pair := by
  obtain ⟨moved, hmoved, halike⟩ := h
  constructor
  · refine RelatedPair.of_alike fun other hother => ?_
    obtain ⟨table, htable, hname, hrelations⟩ := exists_of_forall₂ halike.flip other hother
    exact ⟨table, hmoved.mem_iff.mpr htable, hname.symm, hrelations.symm⟩
  · exact RelatedPair.of_alike fun table htable =>
      exists_of_forall₂ halike table (hmoved.mem_iff.mp htable)

/-- A diagram draws each related pair once. Behind the entities comes one line for each pair of
tables that a relation joins, and none for another pair. It is that of the first such relation
in the order of the tables and of their relations, which is also the order of the lines. Which
pairs there are does not depend on these orders. -/
theorem pairs_drawn_once (tables : List Table) :
    text tables = String.intercalate "\n" (["erDiagram"] ++ tables.flatMap entityLines ++
      (links tables).map fun link => "    " ++ link.referenced ++ " ||--o\x7b " ++ link.owner ++
        " : \"" ++ link.column ++ "\"") ∧
    (∀ pair, RelatedPair tables pair → ∃ link,
      (links tables).filter (·.ends = pair) = [link] ∧
      (related tables).find? (·.ends = pair) = some link) ∧
    (∀ pair, ¬RelatedPair tables pair → (links tables).filter (·.ends = pair) = []) ∧
    (links tables).Pairwise (fun link later =>
      (related tables).idxOf link < (related tables).idxOf later) ∧
    ∀ others, Rearranged tables others → ∀ pair,
      (∃ link ∈ links others, link.ends = pair) ↔ ∃ link ∈ links tables, link.ends = pair := by
  refine ⟨rfl, fun _ => exists_first_of_relatedPair, fun _ => filter_eq_nil_of_not_relatedPair,
    ?_, fun others hothers pair => ?_⟩
  · rw [links_eq]
    exact pairwise_firstLinks [] (related tables)
  · rw [exists_link_iff, exists_link_iff]
    exact hothers.relatedPair_iff

/-- Posts and users point at each other and posts at themselves, once also to a table that is
not there. -/
def postsAndUsers : List Table :=
  [{ name := "post", columns := [],
     relations := [⟨"author", "user", "id"⟩, ⟨"tag", "tag", "id"⟩, ⟨"editor", "user", "id"⟩,
       ⟨"parent", "post", "id"⟩] },
    { name := "user", columns := [], relations := [⟨"pinned", "post", "id"⟩] }]

theorem postsAndUsers_drawn_once :
    RelatedPair postsAndUsers s("user", "post") ∧ ¬RelatedPair postsAndUsers s("post", "tag") ∧
      (links postsAndUsers).filter (·.ends = s("user", "post")) = [⟨"post", "user", "author"⟩] ∧
      (links postsAndUsers).filter (·.ends = s("post", "tag")) = [] ∧
      Rearranged postsAndUsers postsAndUsers.reverse ∧
      ∃ link ∈ links postsAndUsers.reverse, link.ends = s("user", "post") := by
  have hrelated : RelatedPair postsAndUsers s("user", "post") := by decide
  have hnot : ¬RelatedPair postsAndUsers s("post", "tag") := by decide
  have hrearranged : Rearranged postsAndUsers postsAndUsers.reverse :=
    ⟨_, (List.reverse_perm postsAndUsers).symm, List.forall₂_same.mpr fun _ _ => ⟨rfl, .refl _⟩⟩
  obtain ⟨_, honce, hnone, _, horders⟩ := pairs_drawn_once postsAndUsers
  obtain ⟨link, hlink, hfirst⟩ := honce _ hrelated
  have hauthor : link = ⟨"post", "user", "author"⟩ := by
    have hfound : (related postsAndUsers).find? (·.ends = s("user", "post")) =
        some ⟨"post", "user", "author"⟩ := by decide
    exact Option.some.inj (hfirst.symm.trans hfound)
  refine ⟨hrelated, hnot, by rw [hlink, hauthor], hnone _ hnot, hrearranged, ?_⟩
  have hmem : link ∈ (links postsAndUsers).filter (·.ends = s("user", "post")) := by simp [hlink]
  exact (horders _ hrearranged _).mpr ⟨link, by simpa using hmem⟩

end Diagram

end Schemata.Document
