import Mathlib.Data.List.Find
import TypedCql.Proofs.Registry

/-!
# The order of entries in a mapping file

Three things in a mapping file are searched or taken in order: the tables, which are registered one
after the other and forget what was built before; the columns of a table, of which the first one of
a member counts; and both again when the file is checked. None of these orders matters, because the
check accepts exactly the files in which they could not (`validate_eq_ok_iff`). Two registries that
differ in nothing but the order of their definitions answer alike forever (`Registry.Alike`).
-/

namespace TypedCql

/-! ## Files that are accepted -/

/-- Names are new and distinct if the first one is new and the rest are so after it. -/
theorem nodup_cons_new_iff {seen rest : List String} {name : String} :
    ((name :: rest).Nodup ∧ ∀ n ∈ name :: rest, n ∉ seen) ↔
      name ∉ seen ∧ rest.Nodup ∧ ∀ n ∈ rest, n ∉ name :: seen := by
  rw [List.nodup_cons, List.forall_mem_cons]
  simp only [List.mem_cons, not_or]
  constructor
  · rintro ⟨⟨hname, hrest⟩, hnew, hall⟩
    exact ⟨hnew, hrest, fun n hn => ⟨fun h => hname (h ▸ hn), hall n hn⟩⟩
  · rintro ⟨hnew, hrest, hall⟩
    exact ⟨⟨fun h => (hall name h).1 rfl, hrest⟩, hnew, fun n hn => (hall n hn).2⟩

theorem firstRepeated?_eq_none_iff {seen names : List String} :
    firstRepeated? seen names = none ↔ names.Nodup ∧ ∀ name ∈ names, name ∉ seen := by
  induction names generalizing seen with
  | nil => simp [firstRepeated?]
  | cons name rest ih =>
      rw [nodup_cons_new_iff, ← ih, firstRepeated?]
      split
      · next hseen => simp [List.contains_iff_mem.mp hseen]
      · next hseen => simp [mt List.contains_iff_mem.mpr hseen]

namespace MappingFile

theorem validateFrom_eq_ok_iff {seen : List String} {tables : List TableEntry} :
    validateFrom seen tables = .ok () ↔
      ((tables.map TableEntry.entity).Nodup ∧
        ∀ entity ∈ tables.map TableEntry.entity, entity ∉ seen) ∧
      ∀ t ∈ tables, t.members.Nodup := by
  induction tables generalizing seen with
  | nil => simp [validateFrom]
  | cons t rest ih =>
      -- What the check has met is what the rest may not contain.
      rw [List.map_cons, nodup_cons_new_iff, List.forall_mem_cons, validateFrom]
      split
      · next hseen => simp [List.contains_iff_mem.mp hseen]
      · next hseen =>
          have hnew : t.entity ∉ seen := mt List.contains_iff_mem.mpr hseen
          have hmembers : firstRepeated? [] t.members = none ↔ t.members.Nodup := by
            rw [firstRepeated?_eq_none_iff]
            simp
          split
          · next member hrepeated =>
              have hnot : ¬t.members.Nodup := fun h => nomatch hrepeated.symm.trans (hmembers.mpr h)
              exact iff_of_false nofun fun h => hnot h.2.1
          · next hnone =>
              rw [ih]
              simp only [hnew, hmembers.mp hnone, not_false_eq_true, true_and]

/-- A file is accepted if no entity type has two tables and no member two columns in one. -/
theorem validate_eq_ok_iff (f : MappingFile) :
    f.validate = .ok () ↔
      (f.tables.map TableEntry.entity).Nodup ∧ ∀ t ∈ f.tables, t.members.Nodup := by
  unfold validate
  rw [validateFrom_eq_ok_iff]
  simp

end MappingFile

/-! ## Entries in another order -/

/-- The second entry has the columns of the first in some order, and all else as it is. -/
def TableEntry.Reorders (t t' : TableEntry) : Prop :=
  ∃ columns, t.columns.Perm columns ∧ t' = { t with columns := columns }

/-- The second file has the tables of the first in some order, and the columns of each in some
order. -/
def MappingFile.Reorders (f f' : MappingFile) : Prop :=
  ∃ tables, f.tables.Perm tables ∧ List.Forall₂ TableEntry.Reorders tables f'.tables

/-- What is found by a name that only one element has is found in any order. -/
theorem find?_of_perm {α : Type} {name : α → String} {l l' : List α} (hperm : l.Perm l')
    (hnodup : (l.map name).Nodup) (n : String) :
    l.find? (name · == n) = l'.find? (name · == n) := by
  refine List.find?_eq_find?_of_perm hperm fun x hx y hy => ?_
  have hsame : name x = name y := (beq_iff_eq.mp hx.2).trans (beq_iff_eq.mp hy.2).symm
  exact List.inj_on_of_nodup_map hnodup hx.1 hy.1 hsame

namespace TableEntry.Reorders

variable {t t' : TableEntry} (h : t.Reorders t')
include h

theorem entity : t'.entity = t.entity := by
  obtain ⟨columns, -, rfl⟩ := h
  rfl

theorem members : t.members.Perm t'.members := by
  obtain ⟨columns, hperm, rfl⟩ := h
  exact hperm.map _

/-- With one column for a member, the definition does not depend on the order. -/
theorem toDefinition (hmembers : t.members.Nodup) : t'.toDefinition = t.toDefinition := by
  obtain ⟨columns, hperm, rfl⟩ := h
  have hcolumn : TableEntry.column? { t with columns := columns } = t.column? :=
    funext fun member => (find?_of_perm hperm hmembers member).symm
  have hname : TableEntry.columnName { t with columns := columns } = t.columnName := by
    funext member
    unfold columnName
    rw [hcolumn]
  unfold TableEntry.toDefinition
  rw [hcolumn, hname]

end TableEntry.Reorders

/-- What the loading of a file takes from one of its tables. -/
def TableEntry.registration (t : TableEntry) : String × Definition := (t.entity, t.toDefinition)

/-- Tables with their columns in another order are registered alike, and as well-formed. -/
theorem registrations_of_reordered {tables tables' : List TableEntry}
    (h : List.Forall₂ TableEntry.Reorders tables tables')
    (hmembers : ∀ t ∈ tables, t.members.Nodup) :
    tables'.map TableEntry.registration = tables.map TableEntry.registration ∧
      ∀ t ∈ tables', t.members.Nodup := by
  induction h with
  | nil => exact ⟨rfl, hmembers⟩
  | @cons t t' rest rest' ht _ ih =>
      rw [List.forall_mem_cons] at hmembers
      obtain ⟨hrest, hmembers'⟩ := ih hmembers.2
      constructor
      · rw [List.map_cons, List.map_cons, hrest]
        exact congrArg (· :: _) (Prod.ext ht.entity (ht.toDefinition hmembers.1))
      · rw [List.forall_mem_cons]
        exact ⟨ht.members.nodup_iff.mp hmembers.1, hmembers'⟩

namespace MappingFile

variable {f f' : MappingFile}

/-- The tables as they are registered, in order. -/
def registrations (f : MappingFile) : List (String × Definition) :=
  f.tables.map TableEntry.registration

theorem map_fst_registrations (f : MappingFile) :
    f.registrations.map Prod.fst = f.tables.map TableEntry.entity := by
  unfold registrations
  rw [List.map_map]
  rfl

/-- Files in another order are accepted as well, and register the same. -/
theorem Reorders.registrations (h : f.Reorders f') (hvalid : f.validate = .ok ()) :
    f.registrations.Perm f'.registrations ∧ f'.validate = .ok () := by
  obtain ⟨hentities, hmembers⟩ := (validate_eq_ok_iff f).mp hvalid
  obtain ⟨tables, hperm, hcolumns⟩ := h
  obtain ⟨hsame, hmembers'⟩ :=
    registrations_of_reordered hcolumns fun t ht => hmembers t (hperm.mem_iff.mpr ht)
  have hregistrations : f.registrations.Perm f'.registrations := by
    rw [MappingFile.registrations, MappingFile.registrations, hsame]
    exact hperm.map _
  refine ⟨hregistrations, (validate_eq_ok_iff f').mpr ⟨?_, hmembers'⟩⟩
  rw [← map_fst_registrations] at hentities ⊢
  exact (hregistrations.map _).nodup_iff.mp hentities

end MappingFile

/-! ## Registries -/

namespace Registry

/-- If no two tables of a file are for one entity type, the order in which they are registered is of
no account. -/
theorem definition?_load_of_nodup (r : Registry) {f : MappingFile}
    (hentities : (f.tables.map TableEntry.entity).Nodup) (name : String) :
    (r.load f).definition? name =
      ((f.registrations.find? (·.1 == name)).map Prod.snd).or (r.definition? name) := by
  have hreverse : f.tables.reverse.find? (·.entity == name) = f.tables.find? (·.entity == name) :=
    (find?_of_perm (List.reverse_perm f.tables).symm hentities name).symm
  rw [definition?_load, hreverse, MappingFile.registrations, List.find?_map, Option.map_map]
  rfl

theorem load_cache (r : Registry) (f : MappingFile) :
    (r.load f).cache =
      r.cache.filter (·.2.mapping.entity.name ∉ f.tables.map TableEntry.entity) := by
  obtain ⟨tables⟩ := f
  show (tables.foldl loadTable r).cache = _
  induction tables generalizing r with
  | nil => simp
  | cons t rest ih =>
      rw [List.foldl_cons, ih]
      show (r.cache.filter _).filter _ = _
      rw [List.filter_filter]
      refine List.filter_congr fun entry _ => ?_
      rw [Bool.eq_iff_iff]
      simp [and_comm]

theorem load_builds (r : Registry) (f : MappingFile) : (r.load f).builds = r.builds := by
  obtain ⟨tables⟩ := f
  show (tables.foldl loadTable r).builds = _
  induction tables generalizing r with
  | nil => rfl
  | cons t rest ih => exact ih (r.loadTable t)

/-- Two registries differ at most in the order of their definitions. -/
structure Alike (r r' : Registry) : Prop where
  definitions : ∀ name, r.definition? name = r'.definition? name
  cache : r.cache = r'.cache
  builds : r.builds = r'.builds

namespace Alike

variable {r r' : Registry} (h : r.Alike r')
include h

/-- They answer alike, with the same reports, and stay alike. -/
theorem mapping (e : EntityType) :
    (r.mapping e).1 = (r'.mapping e).1 ∧ (r.mapping e).2.Alike (r'.mapping e).2 := by
  unfold Registry.mapping
  rw [h.cache, h.definitions, h.builds]
  split
  · exact ⟨rfl, h⟩
  · dsimp only
    split
    · exact ⟨rfl, h⟩
    · exact ⟨rfl, h.definitions, rfl, rfl⟩

theorem define (e : EntityType) (map : TableMap) : (r.define e map).Alike (r'.define e map) where
  definitions name := by
    show (r.insertDefinition _ _).definition? name = (r'.insertDefinition _ _).definition? name
    rw [definition?_insertDefinition, definition?_insertDefinition, h.definitions]
  cache := congrArg (List.filter _) h.cache
  builds := h.builds

theorem load (f : MappingFile) : (r.load f).Alike (r'.load f) where
  definitions name := by rw [definition?_load, definition?_load, h.definitions]
  cache := by rw [load_cache, load_cache, h.cache]
  builds := by rw [load_builds, load_builds, h.builds]

theorem step (P : Program) (call : RegistryCall) : (P.step r call).Alike (P.step r' call) := by
  cases call with
  | define i map => exact h.define _ map
  | load f => exact h.load f
  | lookup i => exact (h.mapping _).2

theorem steps (P : Program) (calls : List RegistryCall) :
    (calls.foldl P.step r).Alike (calls.foldl P.step r') := by
  induction calls generalizing r r' with
  | nil => exact h
  | cons call rest ih => exact ih (h.step P call)

end Alike

/-- Loading a file or the same in another order leads to registries that are alike. -/
theorem load_alike (r : Registry) {f f' : MappingFile} (h : f.Reorders f')
    (hvalid : f.validate = .ok ()) : (r.load f).Alike (r.load f') := by
  obtain ⟨hregistrations, hvalid'⟩ := h.registrations hvalid
  have hentities := ((MappingFile.validate_eq_ok_iff f).mp hvalid).1
  have hentities' := ((MappingFile.validate_eq_ok_iff f').mp hvalid').1
  have hsame := hregistrations.map Prod.fst
  rw [MappingFile.map_fst_registrations, MappingFile.map_fst_registrations] at hsame
  constructor
  case definitions =>
    intro name
    have hdistinct : (f.registrations.map Prod.fst).Nodup :=
      f.map_fst_registrations ▸ hentities
    rw [definition?_load_of_nodup r hentities, definition?_load_of_nodup r hentities',
      find?_of_perm hregistrations hdistinct name]
  case cache =>
    rw [load_cache, load_cache]
    exact List.filter_congr fun entry _ => by simp only [hsame.mem_iff]
  case builds => rw [load_builds, load_builds]

end Registry

/-- **The order of a mapping file does not matter.** -/
theorem MappingFile.order_irrelevant (f : MappingFile) :
    (f.validate = .ok () ↔
      (f.tables.map TableEntry.entity).Nodup ∧ ∀ t ∈ f.tables, t.members.Nodup) ∧
    ∀ f', f.validate = .ok () → f.Reorders f' →
      f'.validate = .ok () ∧
      ∀ (P : Program) (r : Registry) (later : List RegistryCall) (e : EntityType),
        ((later.foldl P.step (r.load f)).mapping e).1 =
          ((later.foldl P.step (r.load f')).mapping e).1 := by
  refine ⟨f.validate_eq_ok_iff, fun f' hvalid h => ⟨(h.registrations hvalid).2, ?_⟩⟩
  intro P r later e
  exact (((r.load_alike h hvalid).steps P later).mapping e).1

/-- A file about people and their houses. -/
def townFile : MappingFile where
  tables :=
    [{ entity := "House" },
      { entity := "Person"
        name := some "people"
        partitionKey := ["id"]
        columns :=
          [{ member := "id", name := some "number" }, { member := "name", static := true }] }]

/-- The same with the people in front and their names before their numbers. -/
def townFileReversed : MappingFile where
  tables :=
    [{ entity := "Person"
       name := some "people"
       partitionKey := ["id"]
       columns :=
         [{ member := "name", static := true }, { member := "id", name := some "number" }] },
      { entity := "House" }]

/-- People are looked up before either file is loaded, and again afterwards. -/
theorem order_irrelevant_town :
    townFile.validate = .ok () ∧ townFile.Reorders townFileReversed ∧
      townFileReversed.validate = .ok () ∧
      ∃ r : Registry, (r.cached? personType.id).isSome = true ∧
        ((r.load townFile).mapping personType).1 =
          ((r.load townFileReversed).mapping personType).1 ∧
        (((r.load townFile).mapping personType).1.outcome.map fun b => b.mapping.table) =
          .ok "people" := by
  have hvalid : townFile.validate = .ok () := rfl
  have hreorders : townFile.Reorders townFileReversed :=
    ⟨_, List.Perm.swap _ _ _,
      .cons ⟨_, List.Perm.swap _ _ _, rfl⟩ (.cons ⟨_, List.Perm.refl _, rfl⟩ .nil)⟩
  obtain ⟨hvalid', hanswers⟩ := (townFile.order_irrelevant).2 townFileReversed hvalid hreorders
  have hsame := hanswers ⟨fun _ => "Person", fun _ => personType.members⟩
    (Registry.empty.mapping personType).2 [] personType
  exact ⟨hvalid, hreorders, hvalid', (Registry.empty.mapping personType).2, rfl, hsame, rfl⟩

end TypedCql
