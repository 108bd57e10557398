import TypedCql.Mapping.File
import TypedCql.Mapping.TableMap
import TypedCql.Proofs.Mapping

/-!
# Keys and the members they name

Keys are given as members. The definition translates them to names of columns, and the building of
the mapping looks the columns up again by these names. The way back is right for every member that
is mapped, whatever names the columns have (`named?_columnName`). A listed member that is not mapped
keeps its name all the same, and where another member has a column of that name, it is taken for the
key; `keys_name_members_iff` says that this is the only way in which a key can go wrong.
-/

namespace TypedCql

/-- What a mapping can be defined by: a map of settings, or the entry of a mapping file. -/
inductive MappingSource
  | settings (map : TableMap)
  | entry (table : TableEntry)

namespace MappingSource

def definition : MappingSource → Definition
  | .settings map => map.toDefinition
  | .entry table => table.toDefinition

/-- The members that the partition key lists, in order. -/
def partitionMembers : MappingSource → List String
  | .settings map => map.partitionKey
  | .entry table => table.partitionKey

/-- The members that the clustering key lists, in order. -/
def clusteringMembers : MappingSource → List (String × SortOrder)
  | .settings map => map.clusteringKey
  | .entry table => table.clusteringKey.map fun key => (key.member, key.order)

/-- All members that a key lists, those of the partition key first. -/
def keyMembers (source : MappingSource) : List String :=
  source.partitionMembers ++ source.clusteringMembers.map Prod.fst

end MappingSource

namespace Definition

/-- The column that a member is to have, mapped or not. -/
def columnName (d : Definition) (member : String) : String :=
  ((d.options member).bind ColumnOptions.name).getD member

/-- The member is one of the entity, and neither ignored nor left out for want of options. -/
def Maps (d : Definition) (e : EntityType) (member : String) : Prop :=
  (∃ x ∈ e.members, x.name = member) ∧ (d.mappedOptions member).isSome = true

instance (d : Definition) (e : EntityType) (member : String) : Decidable (d.Maps e member) :=
  inferInstanceAs (Decidable ((∃ x ∈ e.members, x.name = member) ∧ _))

/-- The column of a member, if it is mapped. -/
def columnOf? (d : Definition) (member : Member) : Option Column :=
  (d.mappedOptions member.name).map (Column.ofMember member)

/-- Options that say nothing about the name leave a member its own. -/
theorem name_of_mappedOptions {d : Definition} {member : String} {o : ColumnOptions}
    (h : d.mappedOptions member = some o) : o.name.getD member = d.columnName member := by
  unfold mappedOptions at h
  unfold columnName
  cases hoptions : d.options member with
  | some given =>
      rw [hoptions] at h
      simp only [Option.ite_none_left_eq_some, Option.some.injEq] at h
      obtain ⟨-, rfl⟩ := h
      rfl
  | none =>
      rw [hoptions] at h
      simp only [Option.ite_none_left_eq_some, Option.some.injEq] at h
      obtain ⟨-, rfl⟩ := h
      rfl

theorem columnOf?_eq_some {d : Definition} {member : Member} {col : Column}
    (h : d.columnOf? member = some col) :
    col.member = member ∧ col.name = d.columnName member.name := by
  obtain ⟨o, ho, rfl⟩ := Option.map_eq_some_iff.mp h
  exact ⟨rfl, name_of_mappedOptions ho⟩

end Definition

namespace MappingSource

theorem columnName_entry (table : TableEntry) (member : String) :
    table.columnName member = (entry table).definition.columnName member := by
  show ((table.column? member).bind ColumnEntry.name).getD member =
    (((table.column? member).map ColumnEntry.options).bind ColumnOptions.name).getD member
  cases table.column? member <;> rfl

theorem definition_partitionKey (source : MappingSource) :
    source.definition.partitionKey =
      source.partitionMembers.map source.definition.columnName := by
  cases source with
  | settings map => rfl
  | entry table => exact List.map_congr_left fun member _ => columnName_entry table member

theorem definition_clusteringKey (source : MappingSource) :
    source.definition.clusteringKey =
      source.clusteringMembers.map fun (member, order) =>
        (source.definition.columnName member, order) := by
  cases source with
  | settings map => rfl
  | entry table =>
      show table.clusteringKey.map _ = (table.clusteringKey.map _).map _
      rw [List.map_map]
      refine List.map_congr_left fun key _ => ?_
      show (table.columnName key.member, key.order) = _
      rw [columnName_entry]
      rfl

end MappingSource

namespace Mapping

/-! ## Columns of the members -/

/-- The columns found are those of the mapped members, in order. -/
theorem columnsFrom_eq_ok {entity : String} {d : Definition} :
    ∀ {members : List Member} {done columns : List Column},
      columnsFrom entity d done members = .ok columns →
        columns = done ++ members.filterMap d.columnOf?
  | [], done, columns, h => by
      rw [← Except.ok.inj h]
      simp
  | x :: rest, done, columns, h => by
      unfold columnsFrom at h
      split at h
      · next hnone =>
          have hx : d.columnOf? x = none := by simp [Definition.columnOf?, hnone]
          rw [columnsFrom_eq_ok h, List.filterMap_cons_none hx]
      · next o ho =>
          have hx : d.columnOf? x = some (Column.ofMember x o) := by
            simp [Definition.columnOf?, ho]
          dsimp only at h
          split at h
          · exact nomatch h
          · rw [columnsFrom_eq_ok h, List.filterMap_cons_some hx, List.append_assoc]
            rfl

section Built

variable {e : EntityType} {d : Definition} {m : Mapping} (h : (build e d).outcome = .ok m)
include h

theorem build_columns : m.columns = e.members.filterMap d.columnOf? := by
  obtain ⟨columns, hcolumns, rfl⟩ := build_eq_ok h
  have hfound := columnsFrom_eq_ok hcolumns
  rw [List.nil_append] at hfound
  exact hfound

theorem mem_build_columns {col : Column} (hcol : col ∈ m.columns) :
    ∃ x ∈ e.members, d.columnOf? x = some col := by
  rw [build_columns h, List.mem_filterMap] at hcol
  exact hcol

/-- A member has a column exactly if it is mapped. -/
theorem column?_isSome_iff (member : String) :
    (m.column? member).isSome = true ↔ d.Maps e member := by
  unfold column?
  rw [List.find?_isSome]
  constructor
  · rintro ⟨col, hcol, hname⟩
    obtain ⟨x, hx, hof⟩ := mem_build_columns h hcol
    obtain ⟨hmember, -⟩ := Definition.columnOf?_eq_some hof
    have hxname : x.name = member := by
      rw [← hmember]
      exact beq_iff_eq.mp hname
    refine ⟨⟨x, hx, hxname⟩, ?_⟩
    obtain ⟨o, ho, -⟩ := Option.map_eq_some_iff.mp hof
    rw [← hxname, ho]
    rfl
  · rintro ⟨⟨x, hx, rfl⟩, hoptions⟩
    obtain ⟨o, ho⟩ := Option.isSome_iff_exists.mp hoptions
    have hof : d.columnOf? x = some (Column.ofMember x o) := by
      simp [Definition.columnOf?, ho]
    refine ⟨Column.ofMember x o, ?_, beq_iff_eq.mpr rfl⟩
    rw [build_columns h]
    exact List.mem_filterMap.mpr ⟨x, hx, hof⟩

/-- The column of a member has the name that the definition gives to the member. -/
theorem column?_name {member : String} {col : Column} (hcol : m.column? member = some col) :
    col.name = d.columnName member := by
  obtain ⟨x, -, hof⟩ := mem_build_columns h (column?_mem hcol)
  obtain ⟨hmember, hname⟩ := Definition.columnOf?_eq_some hof
  rw [hname, ← hmember, column?_member hcol]

/-- **There and back.** The name of a mapped member's column leads to that column, whatever the
other columns are called. -/
theorem named?_columnName {member : String} {col : Column}
    (hcol : m.column? member = some col) :
    named? m.columns (d.columnName member) = some col := by
  have hname := column?_name h hcol
  cases hfound : named? m.columns (d.columnName member) with
  | none =>
      have habsent := List.find?_eq_none.mp hfound col (column?_mem hcol)
      exact absurd (beq_iff_eq.mpr hname) habsent
  | some other =>
      have hother : other.name = d.columnName member :=
        beq_iff_eq.mp
          (List.find?_some (p := fun c : Column => c.name == d.columnName member) hfound)
      have hsame : other = col := List.inj_on_of_nodup_map (build_names_nodup h)
        (List.mem_of_find?_eq_some hfound) (column?_mem hcol) (hother.trans hname.symm)
      rw [hsame]

end Built

/-! ## Keys -/

/-- The column that a listed member is taken to name: its own, or else any of that name. -/
def keyColumn? (m : Mapping) (d : Definition) (member : String) : Option Column :=
  (m.column? member).or (named? m.columns (d.columnName member))

section Keys

variable {e : EntityType} {source : MappingSource} {m : Mapping}
  (h : (build e source.definition).outcome = .ok m)
include h

theorem named?_eq_keyColumn? (member : String) :
    named? m.columns (source.definition.columnName member) =
      m.keyColumn? source.definition member := by
  unfold keyColumn?
  cases hcol : m.column? member with
  | none => rfl
  | some col => exact named?_columnName h hcol

theorem missing_columnNames (members : List String) :
    missing m.columns (members.map source.definition.columnName) =
      (members.filter fun k => (m.keyColumn? source.definition k).isNone).map
        source.definition.columnName := by
  unfold missing
  rw [List.filter_map]
  refine congrArg _ (List.filter_congr fun member _ => ?_)
  show (named? m.columns _).isNone = _
  rw [named?_eq_keyColumn? h]

theorem build_partitionKey :
    m.partitionKey = source.partitionMembers.filterMap (m.keyColumn? source.definition) := by
  obtain ⟨columns, -, hm⟩ := build_eq_ok h
  have hkey : m.partitionKey =
      source.definition.partitionKey.filterMap (named? m.columns) := by rw [hm]; rfl
  rw [hkey, source.definition_partitionKey, List.filterMap_map]
  exact List.filterMap_congr fun member _ => named?_eq_keyColumn? h member

theorem build_clusteringKey :
    m.clusteringKey = source.clusteringMembers.filterMap fun (member, order) =>
      (m.keyColumn? source.definition member).map (·, order) := by
  obtain ⟨columns, -, hm⟩ := build_eq_ok h
  have hkey : m.clusteringKey = source.definition.clusteringKey.filterMap fun (name, order) =>
      (named? m.columns name).map fun c => (c, order) := by rw [hm]; rfl
  rw [hkey, source.definition_clusteringKey, List.filterMap_map]
  refine List.filterMap_congr fun key _ => ?_
  show (named? m.columns _).map _ = _
  rw [named?_eq_keyColumn? h]

theorem build_missingKeyColumns :
    m.missingKeyColumns =
      (source.keyMembers.filter fun k => (m.keyColumn? source.definition k).isNone).map
        source.definition.columnName := by
  obtain ⟨columns, -, hm⟩ := build_eq_ok h
  have hkey : m.missingKeyColumns = missing m.columns source.definition.partitionKey ++
      missing m.columns (source.definition.clusteringKey.map Prod.fst) := by rw [hm]; rfl
  have hclustering : source.definition.clusteringKey.map Prod.fst =
      (source.clusteringMembers.map Prod.fst).map source.definition.columnName := by
    rw [source.definition_clusteringKey, List.map_map, List.map_map]
    rfl
  rw [hkey, hclustering, source.definition_partitionKey, missing_columnNames h,
    missing_columnNames h, ← List.map_append, ← List.filter_append]
  rfl

omit h in
/-- Where as many members have no column as have none to be taken for them, these are the same. -/
theorem keyColumn?_eq_none_of_length (members : List String)
    (hlength : (members.filter fun k => (m.keyColumn? source.definition k).isNone).length =
      (members.filter fun k => (m.column? k).isNone).length) :
    ∀ k ∈ members, m.column? k = none → m.keyColumn? source.definition k = none := by
  intro k hk hcol
  have hsub : (members.filter fun k => (m.keyColumn? source.definition k).isNone) =
      (members.filter fun k => (m.column? k).isNone).filter
        fun k => (m.keyColumn? source.definition k).isNone := by
    rw [List.filter_filter]
    refine List.filter_congr fun k _ => ?_
    unfold keyColumn?
    cases m.column? k <;> simp
  rw [hsub] at hlength
  have hall := List.filter_eq_self.mp (List.filter_sublist.eq_of_length hlength)
  have hmem : k ∈ members.filter fun k => (m.column? k).isNone := by
    simp [List.mem_filter, hk, hcol]
  simpa using hall k hmem

omit h in
/-- A member that is not mapped is taken for no key exactly if no column has its name. -/
theorem keyColumn?_eq_none_iff {member : String} (hcol : m.column? member = none) :
    m.keyColumn? source.definition member = none ↔
      ∀ col ∈ m.columns, col.name ≠ source.definition.columnName member := by
  unfold keyColumn? named?
  rw [hcol, Option.none_or, List.find?_eq_none]
  simp

end Keys

/-- The keys are the columns of the listed members that are mapped, in the order listed, and every
other listed member is recorded as missing. -/
structure KeysNameMembers (m : Mapping) (source : MappingSource) : Prop where
  partitionKey : m.partitionKey = source.partitionMembers.filterMap m.column?
  clusteringKey : m.clusteringKey = source.clusteringMembers.filterMap fun (member, order) =>
    (m.column? member).map (·, order)
  missing : m.missingKeyColumns =
    (source.keyMembers.filter fun k => (m.column? k).isNone).map source.definition.columnName

/-- If every listed member is taken for its own column or for none, the keys name members. -/
theorem keysNameMembers_of_same {e : EntityType} {source : MappingSource} {m : Mapping}
    (h : (build e source.definition).outcome = .ok m)
    (hsame : ∀ member ∈ source.keyMembers,
      m.keyColumn? source.definition member = m.column? member) : m.KeysNameMembers source where
  partitionKey := by
    rw [build_partitionKey h]
    exact List.filterMap_congr fun member hmember =>
      hsame member (List.mem_append_left _ hmember)
  clusteringKey := by
    rw [build_clusteringKey h]
    refine List.filterMap_congr fun key hkey => ?_
    have hmember : key.1 ∈ source.keyMembers :=
      List.mem_append_right _ (List.mem_map_of_mem hkey)
    simp only [hsame key.1 hmember]
  missing := by
    rw [build_missingKeyColumns h]
    refine congrArg _ (List.filter_congr fun member hmember => ?_)
    rw [hsame member hmember]

/-- **When keys name members.** A listed member that is mapped stands for its own column. One that
is not mapped stands for any column of its name, and is missing if there is none; so the keys are
those of the listed members exactly when no column has the name of a listed member that is not
mapped. -/
theorem keys_name_members_iff {e : EntityType} {source : MappingSource} {m : Mapping}
    (h : (build e source.definition).outcome = .ok m) :
    (∀ member, (m.column? member).isSome = true ↔ source.definition.Maps e member) ∧
      m.partitionKey = source.partitionMembers.filterMap (m.keyColumn? source.definition) ∧
      (m.clusteringKey = source.clusteringMembers.filterMap fun (member, order) =>
        (m.keyColumn? source.definition member).map (·, order)) ∧
      m.missingKeyColumns =
        (source.keyMembers.filter fun k => (m.keyColumn? source.definition k).isNone).map
          source.definition.columnName ∧
      (m.KeysNameMembers source ↔
        ∀ member ∈ source.keyMembers, ¬source.definition.Maps e member →
          ∀ col ∈ m.columns, col.name ≠ source.definition.columnName member) := by
  refine ⟨column?_isSome_iff h, build_partitionKey h, build_clusteringKey h,
    build_missingKeyColumns h, ?_⟩
  have hunmapped : ∀ member, m.column? member = none ↔ ¬source.definition.Maps e member := by
    intro member
    rw [← column?_isSome_iff h]
    simp
  constructor
  · intro hkeys member hmember hmaps
    have hcol := (hunmapped member).mpr hmaps
    rw [← keyColumn?_eq_none_iff hcol]
    refine keyColumn?_eq_none_of_length source.keyMembers ?_ member hmember hcol
    have hmissing := (build_missingKeyColumns h).symm.trans hkeys.missing
    simpa using congrArg List.length hmissing
  · intro hfree
    have hsame : ∀ member ∈ source.keyMembers,
        m.keyColumn? source.definition member = m.column? member := by
      intro member hmember
      cases hcol : m.column? member with
      | some col => simp [keyColumn?, hcol]
      | none =>
          rw [keyColumn?_eq_none_iff hcol]
          exact hfree member hmember ((hunmapped member).mp hcol)
    exact keysNameMembers_of_same h hsame

/-- People by number and then by name, in a table where these two columns have changed names. Two
of the members listed have no column. -/
def swappedNames : MappingSource :=
  .settings (.ofSettings
    [.partitionKey ["id", "verified"], .clusteringKey [("name", .descending), ("age", .ascending)],
      .column "id" [.name "name"], .column "name" [.name "id"], .column "verified" [.ignored]])

def swappedPeople : Mapping :=
  .ofColumns personType swappedNames.definition
    (personType.members.filterMap swappedNames.definition.columnOf?)

/-- Each of the two leads to its own column. -/
theorem keys_name_members_iff_swappedNames :
    (build personType swappedNames.definition).outcome = .ok swappedPeople ∧
      swappedPeople.KeysNameMembers swappedNames ∧
      swappedPeople.partitionKey.map Column.name = ["name"] ∧
      swappedPeople.clusteringKey.map (fun key => (key.1.name, key.2)) = [("id", .descending)] ∧
      swappedPeople.missingKeyColumns = ["verified", "age"] := by
  have hbuilt : (build personType swappedNames.definition).outcome = .ok swappedPeople := rfl
  have hfree : ∀ member ∈ swappedNames.keyMembers,
      ¬swappedNames.definition.Maps personType member →
        ∀ col ∈ swappedPeople.columns, col.name ≠ swappedNames.definition.columnName member := by
    decide
  obtain ⟨-, -, -, -, hkeys⟩ := keys_name_members_iff hbuilt
  exact ⟨hbuilt, hkeys.mpr hfree, rfl, rfl, rfl⟩

/-- The number of people is ignored, and their name stored in a column of that name. -/
def ignoredNumber : MappingSource :=
  .settings (.ofSettings
    [.partitionKey ["id"], .column "id" [.ignored], .column "name" [.name "id"]])

/-- **A key of another member.** The number is the key, and the names become it without a word. -/
theorem key_of_another_member :
    ∃ m, (build personType ignoredNumber.definition).outcome = .ok m ∧
      ignoredNumber.partitionMembers = ["id"] ∧ m.column? "id" = none ∧
      m.partitionKey.map (fun col => col.member.name) = ["name"] ∧ m.missingKeyColumns = [] ∧
      ¬m.KeysNameMembers ignoredNumber := by
  refine ⟨_, rfl, rfl, rfl, rfl, rfl, ?_⟩
  intro hkeys
  have hpartition := congrArg List.length hkeys.partitionKey
  exact absurd hpartition (by decide)

end Mapping

end TypedCql
