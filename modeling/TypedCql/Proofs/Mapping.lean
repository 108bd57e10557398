import Mathlib.Data.List.Nodup
import TypedCql.Proofs.Steps

/-!
# Built mappings

What the building of a mapping guarantees, whatever the entity type and the definition: it is the
mapping of that type, and no two of its columns share a name.
-/

namespace TypedCql

namespace Mapping

theorem column?_mem {m : Mapping} {member : String} {col : Column}
    (h : m.column? member = some col) : col ∈ m.columns :=
  List.mem_of_find?_eq_some h

theorem column?_member {m : Mapping} {member : String} {col : Column}
    (h : m.column? member = some col) : col.member.name = member :=
  beq_iff_eq.mp (List.find?_some (p := fun c : Column => c.member.name == member) h)

/-- The mapping that some columns make up under a definition. -/
def ofColumns (e : EntityType) (d : Definition) (columns : List Column) : Mapping where
  entity := e
  table := d.table.getD e.name
  keyspace := d.keyspace
  columns := columns
  caseSensitive := d.caseSensitive
  compactStorage := d.compactStorage
  allowFiltering := d.allowFiltering
  partitionKey := d.partitionKey.filterMap (named? columns)
  clusteringKey := d.clusteringKey.filterMap fun (name, order) =>
    (named? columns name).map fun c => (c, order)
  missingKeyColumns :=
    missing columns d.partitionKey ++ missing columns (d.clusteringKey.map Prod.fst)

/-- Only the columns can go wrong. -/
theorem build_outcome (e : EntityType) (d : Definition) :
    (build e d).outcome = (columnsFrom e.name d [] e.members).map (ofColumns e d) := by
  refine Traced.outcome_bind_of_ok _ fun columns => ?_
  dsimp only
  split
  · rfl
  · rfl

theorem build_eq_ok {e : EntityType} {d : Definition} {m : Mapping}
    (h : (build e d).outcome = .ok m) :
    ∃ columns, columnsFrom e.name d [] e.members = .ok columns ∧ m = ofColumns e d columns := by
  rw [build_outcome] at h
  obtain ⟨columns, hcolumns, hm⟩ := Outcome.map_eq_ok.mp h
  exact ⟨columns, hcolumns, hm.symm⟩

theorem build_entity {e : EntityType} {d : Definition} {m : Mapping}
    (h : (build e d).outcome = .ok m) : m.entity = e := by
  obtain ⟨columns, -, rfl⟩ := build_eq_ok h
  rfl

/-- A column is added only if its name is new. -/
theorem columnsFrom_pairwise {entity : String} {d : Definition} :
    ∀ {members : List Member} {done columns : List Column},
      columnsFrom entity d done members = .ok columns →
      done.Pairwise (fun a b => a.name ≠ b.name) → columns.Pairwise fun a b => a.name ≠ b.name
  | [], done, columns, h, hdone => Except.ok.inj h ▸ hdone
  | m :: rest, done, columns, h, hdone => by
      unfold columnsFrom at h
      split at h
      · exact columnsFrom_pairwise h hdone
      · dsimp only at h
        split at h
        · exact nomatch h
        · next options _ hnew =>
            refine columnsFrom_pairwise h ?_
            rw [List.pairwise_append]
            refine ⟨hdone, List.pairwise_singleton .., fun a ha b hb => ?_⟩
            rw [List.mem_singleton] at hb
            subst hb
            intro hname
            exact hnew (List.any_eq_true.mpr ⟨a, ha, beq_iff_eq.mpr hname⟩)

/-- Columns of a built mapping are told apart by their names. -/
theorem build_names_nodup {e : EntityType} {d : Definition} {m : Mapping}
    (h : (build e d).outcome = .ok m) : (m.columns.map Column.name).Nodup := by
  obtain ⟨columns, hcolumns, rfl⟩ := build_eq_ok h
  exact List.pairwise_map.mpr (columnsFrom_pairwise hcolumns List.Pairwise.nil)

/-- So are the members that they belong to. -/
theorem build_member_eq {e : EntityType} {d : Definition} {m : Mapping}
    (h : (build e d).outcome = .ok m) {a b : String} {left right : Column}
    (hleft : m.column? a = some left) (hright : m.column? b = some right)
    (hname : left.name = right.name) : a = b := by
  have hsame : left = right := List.inj_on_of_nodup_map (build_names_nodup h)
    (column?_mem hleft) (column?_mem hright) hname
  rw [← column?_member hleft, ← column?_member hright, hsame]

end Mapping

/-! ## A table of people

The cases worked out below the theorems are about this type of entities, under a definition that
says nothing. -/

def personType : EntityType where
  id := 0
  name := "Person"
  members :=
    [⟨"id", .scalar .int⟩, ⟨"name", .scalar .text⟩, ⟨"active", .scalar .boolean⟩,
      ⟨"verified", .scalar .boolean⟩]

def people : Mapping :=
  .ofColumns personType .conventional (personType.members.map (Column.ofMember · {}))

theorem people_built : (Mapping.build personType .conventional).outcome = .ok people := rfl

end TypedCql
