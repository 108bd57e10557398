import TypedCql.Mapping.Index
import TypedCql.Proofs.Resolution

/-!
# Positions of columns

The index of a mapping keeps the positions of columns where the mapping has the columns themselves.
Adding the columns of members keeps it coherent: the entry of a member is the position of a column
of that member, and every column has an entry (`Coherent.addColumn`, `addMembers_coherent`).
Building an index then fails as building the mapping does (`build_columns`), and what is built
refers to the columns of the mapping by positions that are in range (`build_indexes`).
-/

namespace TypedCql

namespace MappingIndex

/-! ## Members -/

/-- Every entry for a member is the position of a column of that member, and every column has an
entry. -/
structure Coherent (x : MappingIndex) : Prop where
  entry : ∀ y ∈ x.members, ∃ col, x.columns[y.2]? = some col ∧ col.member.name = y.1
  listed : ∀ col ∈ x.columns, ∃ i, (col.member.name, i) ∈ x.members

theorem coherent_empty : Coherent {} where
  entry _ hy := absurd hy List.not_mem_nil
  listed _ hcol := absurd hcol List.not_mem_nil

theorem Coherent.addColumn {x : MappingIndex} (h : x.Coherent) (c : Column) :
    (x.addColumn c).Coherent where
  entry := by
    intro y hy
    rcases List.mem_cons.mp hy with rfl | hy
    · exact ⟨c, List.getElem?_concat_length, rfl⟩
    · obtain ⟨col, hcol, hname⟩ := h.entry y hy
      have hlt : y.2 < x.columns.length := (List.getElem?_eq_some_iff.mp hcol).1
      refine ⟨col, ?_, hname⟩
      show (x.columns ++ [c])[y.2]? = some col
      rw [List.getElem?_append_left hlt, hcol]
  listed := by
    intro col hcol
    rcases List.mem_append.mp hcol with hcol | hcol
    · obtain ⟨i, hi⟩ := h.listed col hcol
      exact ⟨i, List.mem_cons_of_mem _ hi⟩
    · rw [List.mem_singleton] at hcol
      subst hcol
      exact ⟨x.columns.length, List.mem_cons_self ..⟩

section Members

variable {entity : String} {d : Definition}

/-- The columns are those that the mapping collects, and the same two members clash. -/
theorem addMembers_columns (entity : String) (d : Definition) (x : MappingIndex)
    (members : List Member) :
    (addMembers entity d x members).map columns =
      Mapping.columnsFrom entity d x.columns members := by
  induction members generalizing x with
  | nil => rfl
  | cons member rest ih =>
      unfold addMembers Mapping.columnsFrom
      cases d.mappedOptions member.name with
      | none => exact ih x
      | some options =>
          dsimp only
          split
          · rfl
          · exact ih _

/-- Whatever each member keeps, all of them together do. -/
theorem addMembers_preserves {P : MappingIndex → Prop}
    (hstep : ∀ (x : MappingIndex) (c : Column), P x → P (x.addColumn c)) :
    ∀ {members : List Member} {x y : MappingIndex}, addMembers entity d x members = .ok y →
      P x → P y
  | [], x, y, h, hx => Except.ok.inj h ▸ hx
  | member :: rest, x, y, h, hx => by
      unfold addMembers at h
      split at h
      · exact addMembers_preserves hstep h hx
      · dsimp only at h
        split at h
        · exact nomatch h
        · exact addMembers_preserves hstep h (hstep x _ hx)

theorem addMembers_coherent {members : List Member} {x : MappingIndex}
    (h : addMembers entity d {} members = .ok x) : x.Coherent :=
  addMembers_preserves (fun _ c hx => hx.addColumn c) h coherent_empty

/-- The members fill in no key. -/
theorem addMembers_keys {members : List Member} {x : MappingIndex}
    (h : addMembers entity d {} members = .ok x) :
    x.partitionKey = [] ∧ x.clusteringKey = [] ∧ x.missing = [] :=
  addMembers_preserves (P := fun x => x.partitionKey = [] ∧ x.clusteringKey = [] ∧ x.missing = [])
    (fun _ _ hx => hx) h ⟨rfl, rfl, rfl⟩

end Members

/-! ## Keys -/

/-- The column at the position of a name is the column of that name. -/
theorem position?_column (x : MappingIndex) (name : String) :
    (x.position? name).map (x.columns[·]?) = (Mapping.named? x.columns name).map some := by
  unfold position? Mapping.named?
  rw [List.findIdx?_eq_map_findFinIdx?_val, List.find?_eq_map_findFinIdx?_getElem, Option.map_map,
    Option.map_map]
  refine congrArg (Option.map · _) (funext fun i => ?_)
  exact List.getElem?_eq_getElem i.isLt

theorem position?_isNone (x : MappingIndex) (name : String) :
    (x.position? name).isNone = (Mapping.named? x.columns name).isNone := by
  have h := congrArg Option.isNone (position?_column x name)
  rwa [Option.isNone_map, Option.isNone_map] at h

theorem missing_cons_of_none {x : MappingIndex} {name : String} (h : x.position? name = none)
    (names : List String) :
    Mapping.missing x.columns (name :: names) = name :: Mapping.missing x.columns names := by
  refine List.filter_cons_of_pos ?_
  rw [← position?_isNone, h]
  rfl

theorem missing_cons_of_some {x : MappingIndex} {name : String} {i : Nat}
    (h : x.position? name = some i) (names : List String) :
    Mapping.missing x.columns (name :: names) = Mapping.missing x.columns names := by
  refine List.filter_cons_of_neg ?_
  rw [← position?_isNone, h]
  exact Bool.false_ne_true

/-- Each name of the partition key is looked up among the same columns. -/
theorem foldl_addPartitionName (x : MappingIndex) (names : List String) :
    names.foldl addPartitionName x =
      { x with
        partitionKey := x.partitionKey ++ names.filterMap x.position?
        missing := x.missing ++ Mapping.missing x.columns names } := by
  induction names generalizing x with
  | nil => simp [Mapping.missing]
  | cons name rest ih =>
      -- A step changes no column, so the names after it are looked up where they were.
      rw [List.foldl_cons, ih]
      cases hfound : x.position? name with
      | none =>
          have hstep : x.addPartitionName name = { x with missing := x.missing ++ [name] } := by
            rw [addPartitionName, hfound]
          rw [hstep, List.filterMap_cons_none hfound, missing_cons_of_none hfound]
          dsimp only
          rw [List.append_assoc]
          rfl
      | some i =>
          have hstep : x.addPartitionName name =
              { x with partitionKey := x.partitionKey ++ [i] } := by
            rw [addPartitionName, hfound]
          rw [hstep, List.filterMap_cons_some hfound, missing_cons_of_some hfound]
          dsimp only
          rw [List.append_assoc]
          rfl

/-- The clustering key is looked up in the same way, with the order of each name. -/
theorem foldl_addClusteringName (x : MappingIndex) (keys : List (String × SortOrder)) :
    keys.foldl addClusteringName x =
      { x with
        clusteringKey := x.clusteringKey ++
          keys.filterMap fun key => (x.position? key.1).map fun i => (i, key.2)
        missing := x.missing ++ Mapping.missing x.columns (keys.map Prod.fst) } := by
  induction keys generalizing x with
  | nil => simp [Mapping.missing]
  | cons key rest ih =>
      rw [List.foldl_cons, ih]
      cases hfound : x.position? key.1 with
      | none =>
          have hstep : x.addClusteringName key = { x with missing := x.missing ++ [key.1] } := by
            rw [addClusteringName, hfound]
          rw [hstep, List.filterMap_cons_none (by rw [hfound]; rfl), List.map_cons,
            missing_cons_of_none hfound]
          dsimp only
          rw [List.append_assoc]
          rfl
      | some i =>
          have hstep : x.addClusteringName key =
              { x with clusteringKey := x.clusteringKey ++ [(i, key.2)] } := by
            rw [addClusteringName, hfound]
          rw [hstep, List.filterMap_cons_some (by rw [hfound]; rfl), List.map_cons,
            missing_cons_of_some hfound]
          dsimp only
          rw [List.append_assoc]
          rfl

/-- Keys are filled in for an index that has none, and its members stay. -/
theorem addKeys_eq {x : MappingIndex} (d : Definition)
    (h : x.partitionKey = [] ∧ x.clusteringKey = [] ∧ x.missing = []) :
    x.addKeys d =
      { x with
        partitionKey := d.partitionKey.filterMap x.position?
        clusteringKey := d.clusteringKey.filterMap fun key =>
          (x.position? key.1).map fun i => (i, key.2)
        missing := Mapping.missing x.columns d.partitionKey ++
          Mapping.missing x.columns (d.clusteringKey.map Prod.fst) } := by
  obtain ⟨hpartition, hclustering, hmissing⟩ := h
  unfold addKeys
  rw [foldl_addClusteringName, foldl_addPartitionName, hpartition, hclustering, hmissing]
  rfl

/-- The columns at the positions of the names of a clustering key. -/
theorem clusteringKey_columns (x : MappingIndex) (keys : List (String × SortOrder)) :
    (keys.filterMap fun key => (x.position? key.1).map fun i => (i, key.2)).map
        (fun key => (x.columns[key.1]?, key.2)) =
      (keys.filterMap fun key => (Mapping.named? x.columns key.1).map fun c => (c, key.2)).map
        fun key => (some key.1, key.2) := by
  rw [List.map_filterMap, List.map_filterMap]
  refine List.filterMap_congr fun key _ => ?_
  have hcolumn := congrArg (Option.map fun found => (found, key.2)) (position?_column x key.1)
  rwa [Option.map_map, Option.map_map] at hcolumn ⊢

/-! ## Resolution -/

/-- What the index says stands in the columns where the mapping has it. -/
structure Indexes (x : MappingIndex) (m : Mapping) : Prop where
  columns : x.columns = m.columns
  member : ∀ name, (x.members.lookup name).map (x.columns[·]?) = (m.column? name).map some
  partitionKey : x.partitionKey.map (x.columns[·]?) = m.partitionKey.map some
  clusteringKey : x.clusteringKey.map (fun key => (x.columns[key.1]?, key.2)) =
    m.clusteringKey.map fun key => (some key.1, key.2)
  missing : x.missing = m.missingKeyColumns

/-- All positions are those of columns, that of an entry behind another one included. -/
structure InRange (x : MappingIndex) : Prop where
  member : ∀ y ∈ x.members, y.2 < x.columns.length
  partitionKey : ∀ i ∈ x.partitionKey, i < x.columns.length
  clusteringKey : ∀ key ∈ x.clusteringKey, key.1 < x.columns.length

/-- A member has the same column by its position. -/
theorem Indexes.column? {x : MappingIndex} {m : Mapping} (h : x.Indexes m) (member : String) :
    x.column? member = m.column? member := by
  have hmember := h.member member
  unfold MappingIndex.column?
  cases hfound : x.members.lookup member with
  | none =>
      rw [hfound] at hmember
      exact (Option.map_eq_none_iff.mp hmember.symm).symm
  | some i =>
      rw [hfound] at hmember
      obtain ⟨col, hcol, hi⟩ := Option.map_eq_some_iff.mp hmember.symm
      rw [hcol]
      exact hi.symm

theorem Indexes.inRange {x : MappingIndex} {m : Mapping} (h : x.Indexes m) (hx : x.Coherent) :
    x.InRange where
  member := by
    intro y hy
    obtain ⟨col, hcol, -⟩ := hx.entry y hy
    exact (List.getElem?_eq_some_iff.mp hcol).1
  partitionKey := by
    intro i hi
    have hmem : x.columns[i]? ∈ m.partitionKey.map some :=
      h.partitionKey ▸ List.mem_map_of_mem hi
    obtain ⟨col, -, hcol⟩ := List.mem_map.mp hmem
    exact (List.getElem?_eq_some_iff.mp hcol.symm).1
  clusteringKey := by
    intro key hkey
    have hmem : (x.columns[key.1]?, key.2) ∈ m.clusteringKey.map fun key => (some key.1, key.2) :=
      h.clusteringKey ▸ List.mem_map_of_mem hkey
    obtain ⟨found, -, hfound⟩ := List.mem_map.mp hmem
    exact (List.getElem?_eq_some_iff.mp (congrArg Prod.fst hfound).symm).1

section Built

variable {e : EntityType} {d : Definition} {m : Mapping} {x : MappingIndex}

/-- The entries of a coherent index name the columns that the mapping finds. -/
theorem Coherent.member (hx : x.Coherent) (h : (Mapping.build e d).outcome = .ok m)
    (hcolumns : x.columns = m.columns) (member : String) :
    (x.members.lookup member).map (x.columns[·]?) = (m.column? member).map some := by
  cases hfound : x.members.lookup member with
  | none =>
      have habsent : m.column? member = none := by
        rw [Mapping.column?_eq_none_iff]
        intro col hcol hname
        obtain ⟨i, hi⟩ := hx.listed col (hcolumns ▸ hcol)
        have hne := List.lookup_eq_none_iff.mp hfound _ hi
        exact absurd hname.symm (bne_iff_ne.mp hne)
      rw [habsent]
      rfl
  | some i =>
      -- Which of the entries for the member it is does not matter: the member has one column.
      obtain ⟨front, back, hmembers, -⟩ := List.lookup_eq_some_iff.mp hfound
      have hentry : (member, i) ∈ x.members := by
        rw [hmembers]
        exact List.mem_append_right _ (List.mem_cons_self ..)
      obtain ⟨col, hcol, hname⟩ := hx.entry _ hentry
      have hmem : col ∈ m.columns := hcolumns ▸ List.mem_of_getElem? hcol
      rw [(Mapping.column?_eq_some_iff h member col).mpr ⟨hmem, hname⟩]
      exact congrArg some hcol

theorem addKeys_indexes {y : MappingIndex} (hy : addMembers e.name d {} e.members = .ok y)
    (h : (Mapping.build e d).outcome = .ok (.ofColumns e d y.columns)) :
    (y.addKeys d).Indexes (.ofColumns e d y.columns) := by
  rw [addKeys_eq d (addMembers_keys hy)]
  exact
    { columns := rfl
      member := (addMembers_coherent hy).member h rfl
      partitionKey := by
        show (d.partitionKey.filterMap y.position?).map (y.columns[·]?) =
          (d.partitionKey.filterMap (Mapping.named? y.columns)).map some
        rw [List.map_filterMap, List.map_filterMap]
        exact List.filterMap_congr fun name _ => position?_column y name
      clusteringKey := clusteringKey_columns y d.clusteringKey
      missing := rfl }

/-- Building an index fails as building the mapping does, and otherwise has its columns. -/
theorem build_columns (e : EntityType) (d : Definition) :
    (build e d).map columns = (Mapping.build e d).outcome.map Mapping.columns := by
  unfold build
  rw [Mapping.build_outcome, ← addMembers_columns e.name d {} e.members]
  cases haddMembers : addMembers e.name d {} e.members with
  | error err => rfl
  | ok y =>
      refine congrArg Except.ok ?_
      rw [addKeys_eq d (addMembers_keys haddMembers)]
      rfl

/-- What is built refers to the columns of the mapping, at positions that are in range. -/
theorem build_indexes (h : build e d = .ok x) :
    ∃ m, (Mapping.build e d).outcome = .ok m ∧ x.Indexes m ∧ x.InRange := by
  obtain ⟨y, hy, rfl⟩ := Outcome.map_eq_ok.mp h
  have hm : (Mapping.build e d).outcome = .ok (.ofColumns e d y.columns) := by
    rw [Mapping.build_outcome, ← addMembers_columns e.name d {} e.members, hy]
    rfl
  have hindexes := addKeys_indexes hy hm
  have hcoherent : (y.addKeys d).Coherent := by
    rw [addKeys_eq d (addMembers_keys hy)]
    exact ⟨(addMembers_coherent hy).entry, (addMembers_coherent hy).listed⟩
  exact ⟨_, hm, hindexes, hindexes.inRange hcoherent⟩

end Built

end MappingIndex

end TypedCql
