import TypedCql.Proofs.Keys

/-!
# Names that a mapping resolves

A mapping is looked into by the names of members and by the names of columns. Both kinds of lookup
rest on the names of columns being distinct, which is the one thing that building a mapping checks:
it fails exactly if two members would be columns of one name (`columnsFrom_eq_error`,
`not_clashes_of_ok`). A definition gives every member of a name the same column, so distinct names
of columns make the members distinct as well.
-/

namespace TypedCql

namespace Definition

/-- Two members of the entity type, one listed after the other, are columns of this name. -/
def Clashes (d : Definition) (e : EntityType) (name : String) : Prop :=
  ∃ x y a b, [x, y].Sublist e.members ∧ d.columnOf? x = some a ∧ d.columnOf? y = some b ∧
    a.name = name ∧ b.name = name

/-- All names of columns that the keys list, those of the partition key first. -/
def keyNames (d : Definition) : List String := d.partitionKey ++ d.clusteringKey.map Prod.fst

end Definition

namespace Mapping

/-- All columns of the keys, those of the partition key first. -/
def keyColumns (m : Mapping) : List Column := m.partitionKey ++ m.clusteringKey.map Prod.fst

/-- The names of the columns, in the order of the members. -/
def names (m : Mapping) : List String := m.columns.map Column.name

/-! ## Failure -/

/-- Collecting columns stops at a member whose column has the name of one collected before. -/
theorem columnsFrom_eq_error {entity : String} {d : Definition} :
    ∀ {members : List Member} {done : List Column} {err : Error},
      columnsFrom entity d done members = .error err →
        ∃ before x after col, members = before ++ x :: after ∧ d.columnOf? x = some col ∧
          (∃ other ∈ done ++ before.filterMap d.columnOf?, other.name = col.name) ∧
          err = .mapping (.duplicateColumn col.name entity)
  | [], done, err, h => nomatch h
  | m :: rest, done, err, h => by
      unfold columnsFrom at h
      split at h
      · next hnone =>
          have hm : d.columnOf? m = none := by simp [Definition.columnOf?, hnone]
          obtain ⟨before, x, after, col, rfl, hcol, ⟨other, hother, hname⟩, rfl⟩ :=
            columnsFrom_eq_error h
          refine ⟨m :: before, x, after, col, rfl, hcol, ⟨other, ?_, hname⟩, rfl⟩
          rw [List.filterMap_cons_none hm]
          exact hother
      · next o ho =>
          have hm : d.columnOf? m = some (Column.ofMember m o) := by
            simp [Definition.columnOf?, ho]
          dsimp only at h
          split at h
          · next htaken =>
              obtain ⟨other, hother, hname⟩ := List.any_eq_true.mp htaken
              refine ⟨[], m, rest, _, rfl, hm, ⟨other, ?_, beq_iff_eq.mp hname⟩,
                (Except.error.inj h).symm⟩
              rw [List.filterMap_nil, List.append_nil]
              exact hother
          · obtain ⟨before, x, after, col, rfl, hcol, ⟨other, hother, hname⟩, rfl⟩ :=
              columnsFrom_eq_error h
            refine ⟨m :: before, x, after, col, rfl, hcol, ⟨other, ?_, hname⟩, rfl⟩
            rw [List.filterMap_cons_some hm]
            rw [List.append_assoc] at hother
            exact hother

theorem build_eq_error {e : EntityType} {d : Definition} {err : Error}
    (h : (build e d).outcome = .error err) :
    ∃ name, d.Clashes e name ∧ err = .mapping (.duplicateColumn name e.name) := by
  rw [build_outcome] at h
  cases hcolumns : columnsFrom e.name d [] e.members with
  | ok columns =>
      rw [hcolumns] at h
      exact nomatch h
  | error err' =>
      rw [hcolumns] at h
      obtain rfl : err' = err := Except.error.inj h
      obtain ⟨before, x, after, col, hmembers, hcol, ⟨other, hother, hname⟩, rfl⟩ :=
        columnsFrom_eq_error hcolumns
      rw [List.nil_append, List.mem_filterMap] at hother
      obtain ⟨y, hy, hof⟩ := hother
      refine ⟨col.name, ⟨y, x, other, col, ?_, hof, hcol, hname, rfl⟩, rfl⟩
      rw [hmembers]
      have hfirst : [y].Sublist before := List.singleton_sublist.mpr hy
      have hsecond : [x].Sublist (x :: after) := List.singleton_sublist.mpr (List.mem_cons_self ..)
      exact hfirst.append hsecond

section Built

variable {e : EntityType} {d : Definition} {m : Mapping} (h : (build e d).outcome = .ok m)
include h

theorem not_clashes_of_ok (name : String) : ¬d.Clashes e name := by
  rintro ⟨x, y, a, b, hsub, ha, hb, rfl, hname⟩
  have hdistinct := build_names_nodup h
  rw [build_columns h, List.Nodup, List.pairwise_map, List.pairwise_filterMap,
    List.pairwise_iff_forall_sublist] at hdistinct
  exact hdistinct hsub a ha b hb hname.symm

/-! ## Lookup -/

/-- A column is found by its own member. Another column of a member of that name would have the same
name, and be the same column. -/
theorem column?_eq_some_iff (member : String) (col : Column) :
    m.column? member = some col ↔ col ∈ m.columns ∧ col.member.name = member := by
  constructor
  · intro hcol
    exact ⟨column?_mem hcol, column?_member hcol⟩
  · rintro ⟨hcol, rfl⟩
    cases hfound : m.column? col.member.name with
    | none =>
        have habsent := List.find?_eq_none.mp hfound col hcol
        exact absurd (beq_self_eq_true _) habsent
    | some other =>
        obtain ⟨x, -, hx⟩ := mem_build_columns h hcol
        obtain ⟨hmember, hname⟩ := Definition.columnOf?_eq_some hx
        have hsame : other.name = col.name := by
          rw [column?_name h hfound, hname, hmember]
        have heq : other = col :=
          List.inj_on_of_nodup_map (build_names_nodup h) (column?_mem hfound) hcol hsame
        rw [heq]

omit h in
theorem column?_eq_none_iff (member : String) :
    m.column? member = none ↔ ∀ col ∈ m.columns, col.member.name ≠ member := by
  unfold column?
  rw [List.find?_eq_none]
  simp

end Built

/-! ## Keys -/

section Named

variable {columns : List Column}

theorem named?_eq_some {name : String} {col : Column} (h : named? columns name = some col) :
    col ∈ columns ∧ col.name = name :=
  ⟨List.mem_of_find?_eq_some h,
    beq_iff_eq.mp (List.find?_some (p := fun c : Column => c.name == name) h)⟩

theorem named?_eq_none {name : String} :
    named? columns name = none ↔ name ∉ columns.map Column.name := by
  unfold named?
  rw [List.find?_eq_none, List.mem_map]
  simp

/-- What is looked up by name keeps its order, and loses what has no column. -/
theorem map_filterMap_named {α β : Type} (key : α → String) (make : α → Column → β) (back : β → α)
    (hback : ∀ k col, col.name = key k → back (make k col) = k) (keys : List α) :
    (keys.filterMap fun k => (named? columns (key k)).map (make k)).map back =
      keys.filter fun k => key k ∈ columns.map Column.name := by
  induction keys with
  | nil => rfl
  | cons k rest ih =>
      cases hfound : named? columns (key k) with
      | none =>
          have habsent := named?_eq_none.mp hfound
          rw [List.filterMap_cons_none (by rw [hfound]; rfl), ih,
            List.filter_cons_of_neg (by simpa using habsent)]
      | some col =>
          obtain ⟨hcol, hname⟩ := named?_eq_some hfound
          have hlisted : key k ∈ columns.map Column.name := List.mem_map.mpr ⟨col, hcol, hname⟩
          rw [List.filterMap_cons_some (by rw [hfound]; rfl), List.map_cons, hback k col hname, ih,
            List.filter_cons_of_pos (by simpa using hlisted)]

theorem missing_eq_filter (keys : List String) :
    missing columns keys = keys.filter fun name => name ∉ columns.map Column.name := by
  unfold missing
  refine List.filter_congr fun name _ => ?_
  rw [Bool.eq_iff_iff, Option.isNone_iff_eq_none, named?_eq_none, decide_eq_true_eq]

end Named

section Built

variable {e : EntityType} {d : Definition} {m : Mapping} (h : (build e d).outcome = .ok m)
include h

theorem partitionKey_names :
    m.partitionKey.map Column.name = d.partitionKey.filter (· ∈ m.names) := by
  obtain ⟨columns, -, rfl⟩ := build_eq_ok h
  have hkeys := @map_filterMap_named columns String Column (fun name => name) (fun _ col => col)
    Column.name (fun _ _ hname => hname) d.partitionKey
  simp only [Option.map_id'] at hkeys
  exact hkeys

theorem clusteringKey_names :
    m.clusteringKey.map (fun key => (key.1.name, key.2)) =
      d.clusteringKey.filter (·.1 ∈ m.names) := by
  obtain ⟨columns, -, rfl⟩ := build_eq_ok h
  exact map_filterMap_named (fun key : String × SortOrder => key.1) (fun key col => (col, key.2))
    (fun key => (key.1.name, key.2)) (fun key _ hname => Prod.ext hname rfl) d.clusteringKey

theorem missingKeyColumns_names : m.missingKeyColumns = d.keyNames.filter (· ∉ m.names) := by
  obtain ⟨columns, -, rfl⟩ := build_eq_ok h
  rw [Definition.keyNames, List.filter_append]
  exact congrArg₂ _ (missing_eq_filter _) (missing_eq_filter _)

theorem keyColumns_names : m.keyColumns.map Column.name = d.keyNames.filter (· ∈ m.names) := by
  have hclustering := congrArg (List.map Prod.fst) (clusteringKey_names h)
  rw [List.map_map] at hclustering
  rw [keyColumns, List.map_append, partitionKey_names h, List.map_map, Definition.keyNames,
    List.filter_append, List.filter_map]
  exact congrArg _ hclustering

theorem mem_columns_of_mem_keyColumns {col : Column} (hcol : col ∈ m.keyColumns) :
    col ∈ m.columns := by
  obtain ⟨columns, -, rfl⟩ := build_eq_ok h
  rcases List.mem_append.mp hcol with hpartition | hclustering
  · obtain ⟨name, -, hname⟩ := List.mem_filterMap.mp hpartition
    exact (named?_eq_some hname).1
  · obtain ⟨key, hkey, rfl⟩ := List.mem_map.mp hclustering
    obtain ⟨⟨name, order⟩, -, hname⟩ := List.mem_filterMap.mp hkey
    obtain ⟨found, hfound, rfl⟩ := Option.map_eq_some_iff.mp hname
    exact (named?_eq_some hfound).1

end Built

/-- Names lead to where they should: those of members to their columns, and those that the keys list
to the columns of these names, or to the names that are missing. -/
structure Resolves (m : Mapping) (e : EntityType) (d : Definition) : Prop where
  /-- Every mapped member has one column, in the order of the members. -/
  columns : m.columns = e.members.filterMap d.columnOf?
  names_nodup : m.names.Nodup
  column?_eq_some : ∀ member col,
    m.column? member = some col ↔ col ∈ m.columns ∧ col.member.name = member
  column?_eq_none : ∀ member,
    m.column? member = none ↔ ∀ col ∈ m.columns, col.member.name ≠ member
  /-- A key has no column but those of the mapping. -/
  key_position : ∀ col ∈ m.keyColumns, ∃ i : Fin m.columns.length, m.columns.get i = col
  partitionKey : m.partitionKey.map Column.name = d.partitionKey.filter (· ∈ m.names)
  clusteringKey : m.clusteringKey.map (fun key => (key.1.name, key.2)) =
    d.clusteringKey.filter (·.1 ∈ m.names)
  missing : m.missingKeyColumns = d.keyNames.filter (· ∉ m.names)
  /-- Every name that a key lists is resolved or missing, as often as it is listed. -/
  key_names : (m.keyColumns.map Column.name ++ m.missingKeyColumns).Perm d.keyNames

theorem resolves_of_ok {e : EntityType} {d : Definition} {m : Mapping}
    (h : (build e d).outcome = .ok m) : m.Resolves e d where
  columns := build_columns h
  names_nodup := build_names_nodup h
  column?_eq_some := column?_eq_some_iff h
  column?_eq_none := column?_eq_none_iff
  key_position col hcol := List.mem_iff_get.mp (mem_columns_of_mem_keyColumns h hcol)
  partitionKey := partitionKey_names h
  clusteringKey := clusteringKey_names h
  missing := missingKeyColumns_names h
  key_names := by
    rw [keyColumns_names h, missingKeyColumns_names h]
    have hsplit := List.filter_append_perm (fun name => decide (name ∈ m.names)) d.keyNames
    simpa using hsplit

/-- **Building a mapping.** It fails if two members are columns of one name, for which the error
gives that name, and for no other reason. A mapping that is built resolves all names. -/
theorem build_fails_iff_clashes (e : EntityType) (d : Definition) :
    ((∃ err, (build e d).outcome = .error err) ↔ ∃ name, d.Clashes e name) ∧
      (∀ err, (build e d).outcome = .error err →
        ∃ name, d.Clashes e name ∧ err = .mapping (.duplicateColumn name e.name)) ∧
      ∀ m, (build e d).outcome = .ok m → m.Resolves e d := by
  refine ⟨⟨?_, ?_⟩, fun err => build_eq_error, fun m => resolves_of_ok⟩
  · rintro ⟨err, herr⟩
    obtain ⟨name, hclash, -⟩ := build_eq_error herr
    exact ⟨name, hclash⟩
  · rintro ⟨name, hclash⟩
    cases houtcome : (build e d).outcome with
    | error err => exact ⟨err, rfl⟩
    | ok m => exact absurd hclash (not_clashes_of_ok houtcome name)

/-- People under a number of another name. One column is in both keys, and of the names listed two
belong to no column, the old name of the number among them. -/
def renumbered : Definition where
  partitionKey := ["number", "id"]
  clusteringKey := [("name", .descending), ("number", .ascending), ("age", .ascending)]
  options member := if member = "id" then some { name := some "number" } else none

/-- The two flags of a person in one column. -/
def sharedFlag : Definition where
  options member := if member = "verified" then some { name := some "active" } else none

/-- The first of these builds and resolves its names, and the second does not build. -/
theorem build_fails_iff_clashes_people :
    (∃ m, (build personType renumbered).outcome = .ok m ∧ m.Resolves personType renumbered ∧
      m.keyColumns.map (fun col => (col.name, col.member.name)) =
        [("number", "id"), ("name", "name"), ("number", "id")] ∧
      m.missingKeyColumns = ["id", "age"]) ∧
      ∃ err, (build personType sharedFlag).outcome = .error err := by
  obtain ⟨m, hm⟩ : ∃ m, (build personType renumbered).outcome = .ok m := ⟨_, rfl⟩
  obtain ⟨-, -, hresolves⟩ := build_fails_iff_clashes personType renumbered
  refine ⟨⟨m, hm, hresolves m hm, ?_, ?_⟩, ?_⟩
  · cases hm
    rfl
  · cases hm
    rfl
  · have hsub : [(⟨"active", .scalar .boolean⟩ : Member), ⟨"verified", .scalar .boolean⟩].Sublist
        personType.members := .cons _ (.cons _ (List.Sublist.refl _))
    exact (build_fails_iff_clashes personType sharedFlag).1.mpr
      ⟨"active", _, _, _, _, hsub, rfl, rfl, rfl, rfl⟩

end Mapping

end TypedCql
