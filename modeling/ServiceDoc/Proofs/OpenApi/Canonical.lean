import ServiceDoc.Proofs.OpenApi.Run

/-! Sorted documents. Sorting puts paths, schemas and tags in code point order and keeps all that
they hold. Two documents have the same sorted form exactly when they differ in that order alone, so
the sorted form is canonical. -/
namespace ServiceDoc.OpenApi

def codePoints (s : String) : List Nat := s.toList.map Char.toNat

/-- The first code point that differs decides; a text comes after its beginnings. -/
def Precedes (a b : String) : Prop := List.Lex (· < ·) (codePoints a) (codePoints b)

theorem lex_map_toNat_iff {as bs : List Char} :
    List.Lex (· < ·) (as.map Char.toNat) (bs.map Char.toNat) ↔ List.Lex (· < ·) as bs := by
  induction as generalizing bs with
  | nil => cases bs <;> simp
  | cons a as ih =>
      cases bs with
      | nil => simp
      | cons b bs =>
          have lt : a.toNat < b.toNat ↔ a < b := Iff.rfl
          have eq : a.toNat = b.toNat ↔ a = b := Char.toNat_inj
          simp only [List.map_cons, List.cons_lex_cons_iff, ih, lt, eq]

theorem precedes_iff {a b : String} : Precedes a b ↔ a < b :=
  lex_map_toNat_iff.trans String.lt_iff.symm

namespace Table

variable {α : Type}

theorem sorted_eq_of_perm {t u : Table α} (nodup : t.names.Nodup) (perm : t.Perm u) :
    t.sorted = u.sorted := by
  have nodup' : u.names.Nodup := (perm.map Prod.fst).nodup_iff.mp nodup
  have sorted : t.sorted.Perm u.sorted := (t.sorted_perm.trans perm).trans u.sorted_perm.symm
  exact eq_of_perm (names_sorted_lt nodup) (names_sorted_lt nodup') sorted

end Table

namespace Document

/-- No two paths and no two schemas have one name. -/
structure UniqueNames (d : Document) : Prop where
  paths : d.paths.names.Nodup
  schemas : d.schemas.names.Nodup

theorem uniqueNames_empty : UniqueNames {} := ⟨List.nodup_nil, List.nodup_nil⟩

theorem UniqueNames.edit {d : Document} (h : d.UniqueNames) (e : Edit) :
    (d.edit e).UniqueNames := by
  refine ⟨nodup_names_edit h.paths e, ?_⟩
  cases e with
  | insert method path o => exact h.schemas
  | merge path source =>
      simp only [Document.edit]
      split <;> exact h.schemas
  | tag t => exact h.schemas
  | schema name s => exact Table.nodup_names_insert h.schemas name s
  | sort => exact Table.nodup_names_sorted h.schemas

theorem UniqueNames.run {d : Document} (h : d.UniqueNames) (edits : List Edit) :
    (d.run edits).UniqueNames := by
  induction edits generalizing d with
  | nil => exact h
  | cons e rest ih => exact ih (h.edit e)

/-- The documents differ at most in the order of paths, of schemas and of tags with different
names. -/
structure Reordered (d e : Document) : Prop where
  openapi : e.openapi = d.openapi
  info : e.info = d.info
  paths : e.paths.Perm d.paths
  schemas : e.schemas.Perm d.schemas
  tags : ∀ name, e.tags.filter (·.name = name) = d.tags.filter (·.name = name)

theorem Reordered.symm {d e : Document} (h : d.Reordered e) : e.Reordered d where
  openapi := h.openapi.symm
  info := h.info.symm
  paths := h.paths.symm
  schemas := h.schemas.symm
  tags := fun name => (h.tags name).symm

theorem Reordered.trans {d e f : Document} (h : d.Reordered e) (k : e.Reordered f) :
    d.Reordered f where
  openapi := k.openapi.trans h.openapi
  info := k.info.trans h.info
  paths := k.paths.trans h.paths
  schemas := k.schemas.trans h.schemas
  tags := fun name => (k.tags name).trans (h.tags name)

theorem stablySorted_tags (d : Document) : StablySorted Tag.name d.tags d.sort.tags :=
  stablySorted_mergeSort Tag.name d.tags

theorem reordered_sort (d : Document) : d.Reordered d.sort where
  openapi := rfl
  info := rfl
  paths := d.paths.sorted_perm
  schemas := d.schemas.sorted_perm
  tags := d.stablySorted_tags.stable

theorem Reordered.sort_eq {d e : Document} (h : d.Reordered e) (unique : d.UniqueNames) :
    d.sort = e.sort := by
  have paths : d.sort.paths = e.sort.paths := Table.sorted_eq_of_perm unique.paths h.paths.symm
  have schemas : d.sort.schemas = e.sort.schemas :=
    Table.sorted_eq_of_perm unique.schemas h.schemas.symm
  have tags : d.sort.tags = e.sort.tags :=
    d.stablySorted_tags.eq e.stablySorted_tags fun name => (h.tags name).symm
  have parts (d : Document) :
      d.sort = ⟨d.openapi, d.info, d.sort.paths, d.sort.schemas, d.sort.tags⟩ := rfl
  rw [parts d, parts e, h.openapi, h.info, paths, schemas, tags]

theorem sort_sort {d : Document} (unique : d.UniqueNames) : d.sort.sort = d.sort :=
  (d.reordered_sort.sort_eq unique).symm

theorem reordered_of_sort_eq {d e : Document} (h : d.sort = e.sort) : d.Reordered e := by
  have sorted := d.reordered_sort
  rw [h] at sorted
  exact sorted.trans e.reordered_sort.symm

/-- Sorting is canonical. Paths and schemas come in strictly increasing and tags in increasing order
of their names; nothing changes but that order, with tags of one name as they were and every lookup
the same; a second time nothing changes at all; and the documents with the same sorted form are
those that are reordered. -/
theorem sort_canonical {d : Document} (unique : d.UniqueNames) :
    d.sort.paths.names.Pairwise Precedes ∧
    d.sort.schemas.names.Pairwise Precedes ∧
    (d.sort.tags.Pairwise fun a b => ¬ Precedes b.name a.name) ∧
    d.sort.tags.Perm d.tags ∧
    d.Reordered d.sort ∧
    (∀ path, d.sort.paths.get? path = d.paths.get? path) ∧
    (∀ name, d.sort.schemas.get? name = d.schemas.get? name) ∧
    d.sort.sort = d.sort ∧
    ∀ e : Document, d.sort = e.sort ↔ d.Reordered e := by
  have tags : d.sort.tags.Pairwise fun a b => ¬ Precedes b.name a.name :=
    d.stablySorted_tags.ordered.imp fun le before => String.not_lt.mpr le (precedes_iff.mp before)
  exact ⟨(Table.names_sorted_lt unique.paths).imp precedes_iff.mpr,
    (Table.names_sorted_lt unique.schemas).imp precedes_iff.mpr, tags, d.stablySorted_tags.perm,
    d.reordered_sort, Table.get?_sorted unique.paths, Table.get?_sorted unique.schemas,
    sort_sort unique, fun e => ⟨reordered_of_sort_eq, fun h => h.sort_eq unique⟩⟩

/-- Two tags of one name, and paths that UTF-16 units would put the other way round. -/
def jumbled : Document :=
  run {}
    [.insert (.one .get) "/😀" { id := "face" }, .insert (.one .put) "/ｚ" { id := "wide" },
      .schema "Reply" { properties := [("b", {}), ("a", {})] }, .schema "Query" {},
      .tag ⟨"b", some "first"⟩, .tag ⟨"a", none⟩, .tag ⟨"b", some "second"⟩]

def rejumbled : Document :=
  run {}
    [.insert (.one .put) "/ｚ" { id := "wide" }, .insert (.one .get) "/😀" { id := "face" },
      .schema "Query" {}, .schema "Reply" { properties := [("b", {}), ("a", {})] },
      .tag ⟨"b", some "first"⟩, .tag ⟨"b", some "second"⟩, .tag ⟨"a", none⟩]

theorem jumbled_rejumbled : jumbled.Reordered rejumbled where
  openapi := rfl
  info := rfl
  paths := List.Perm.swap _ _ _
  schemas := List.Perm.swap _ _ _
  tags := by
    intro name
    by_cases a : "a" = name
    · subst a
      decide
    · by_cases b : "b" = name
      · subst b
        decide
      · simp [jumbled, rejumbled, run, edit, a, b]

theorem jumbled_sort :
    jumbled.UniqueNames ∧ jumbled.sort = rejumbled.sort ∧ jumbled.sort.sort = jumbled.sort ∧
      jumbled.sort.schemas.get? "Reply" = some { properties := [("b", {}), ("a", {})] } := by
  have unique : jumbled.UniqueNames := uniqueNames_empty.run _
  obtain ⟨-, -, -, -, -, -, schemas, twice, same⟩ := sort_canonical unique
  exact ⟨unique, (same rejumbled).mpr jumbled_rejumbled, twice, schemas "Reply"⟩

end Document
end ServiceDoc.OpenApi
