import TypedCql.Proofs.Resolution
import TypedCql.Statement.Create

/-!
# Tables that are created

A table is created only if its mapping passes a few checks, which `Creatable` collects; whoever has
the statements of a table has the mapping checked (`create_eq_ok_iff`).

The checks ask whether a column is marked as a counter, while its definition shows a type. A column
of the type of counters that is not marked as one passes them as part of a key. Everything else that
is said of a primary key holds of every table created, and `created_primary_key` says which columns
these are.
-/

namespace TypedCql

theorem Outcome.forM_eq_ok {ε α : Type} {xs : List α} {f : α → Except ε Unit} :
    xs.forM f = .ok () ↔ ∀ x ∈ xs, f x = .ok () := by
  induction xs with
  | nil => exact ⟨fun _ _ hx => (nomatch hx), fun _ => rfl⟩
  | cons x xs ih =>
      show (f x >>= fun _ => xs.forM f) = .ok () ↔ _
      rw [Outcome.bind_eq_ok, List.forall_mem_cons, ← ih]
      constructor
      · rintro ⟨_, hx, hrest⟩
        exact ⟨hx, hrest⟩
      · rintro ⟨hx, hrest⟩
        exact ⟨(), hx, hrest⟩

namespace Mapping

/-- What a mapping must be like for its table to be created. -/
structure Creatable (m : Mapping) : Prop where
  missing : m.missingKeyColumns = []
  partitionKey : m.partitionKey ≠ []
  counter_type : ∀ col ∈ m.columns, col.counter = true → col.type.isCounterCompatible = true
  counter_key : ∀ col ∈ m.columns, col.counter = true → m.isKey col = false
  static_key : ∀ col ∈ m.columns, col.static = true → m.isKey col = false

theorem isKey_of_mem {m : Mapping} {col : Column} (h : col ∈ m.keyColumns) :
    m.isKey col = true := by
  rcases List.mem_append.mp h with hpartition | hclustering
  · exact Bool.or_eq_true_iff.mpr
      (Or.inl (List.any_eq_true.mpr ⟨col, hpartition, beq_self_eq_true _⟩))
  · obtain ⟨key, hkey, rfl⟩ := List.mem_map.mp hclustering
    exact Bool.or_eq_true_iff.mpr
      (Or.inr (List.any_eq_true.mpr ⟨key, hkey, beq_self_eq_true _⟩))

theorem checkColumn_eq_ok_iff {m : Mapping} {col : Column} :
    m.checkColumn col = .ok () ↔
      (col.counter = true → col.type.isCounterCompatible = true) ∧
        (col.counter = true → m.isKey col = false) ∧ (col.static = true → m.isKey col = false) := by
  -- The outcome depends on four answers only.
  unfold checkColumn
  cases col.counter <;> cases col.type.isCounterCompatible <;> cases m.isKey col <;>
    cases col.static <;> simp [throw, throwThe, MonadExceptOf.throw, bind, Except.bind, pure,
      Except.pure]

/-- With a key that is all there, only the columns are left to check. -/
theorem checkTable_eq_forM {m : Mapping} (hmissing : m.missingKeyColumns = [])
    (hpartition : m.partitionKey ≠ []) : m.checkTable = m.columns.forM m.checkColumn := by
  unfold checkTable
  rw [hmissing, List.isEmpty_eq_false_iff.mpr hpartition]
  rfl

theorem checkTable_eq_ok_iff {m : Mapping} : m.checkTable = .ok () ↔ m.Creatable := by
  by_cases hmissing : m.missingKeyColumns = []
  · by_cases hpartition : m.partitionKey = []
    · unfold checkTable
      rw [hmissing, hpartition]
      exact ⟨fun h => (nomatch h), fun h => absurd hpartition h.partitionKey⟩
    · rw [checkTable_eq_forM hmissing hpartition, Outcome.forM_eq_ok]
      simp only [checkColumn_eq_ok_iff]
      constructor
      · intro h
        exact ⟨hmissing, hpartition, fun col hcol => (h col hcol).1,
          fun col hcol => (h col hcol).2.1, fun col hcol => (h col hcol).2.2⟩
      · intro h col hcol
        exact ⟨h.counter_type col hcol, h.counter_key col hcol, h.static_key col hcol⟩
  · unfold checkTable
    rw [List.isEmpty_eq_false_iff.mpr hmissing]
    exact ⟨fun h => (nomatch h), fun h => absurd h.missing hmissing⟩

/-- The statements of a table: the one that creates it, and one for each of its indexes. -/
theorem create_eq_ok_iff {m : Mapping} {table : String} {keyspace : Option String} {guard : Bool}
    {statements : List String} :
    (m.create table keyspace guard).outcome = .ok statements ↔
      m.Creatable ∧
        statements =
          m.tableStatement (Identifier.qualified keyspace table m.caseSensitive) guard ::
            (m.columns.filter Column.indexed).map
              (m.indexStatement (Identifier.qualified keyspace table m.caseSensitive) guard) := by
  have houtcome : (m.create table keyspace guard).outcome = m.checkTable.map fun _ => _ :=
    Traced.outcome_bind_of_ok (.ofOutcome m.checkTable) fun _ => rfl
  rw [houtcome, Outcome.map_eq_ok, ← checkTable_eq_ok_iff]
  constructor
  · rintro ⟨_, hcheck, rfl⟩
    exact ⟨hcheck, rfl⟩
  · rintro ⟨hcheck, rfl⟩
    exact ⟨(), hcheck, rfl⟩

end Mapping

/-! ## Columns defined as counters -/

namespace ColumnType

theorem append_bracket_ne_counter (s : String) : s ++ ">" ≠ "counter" := by
  intro h
  have hlast := congrArg (fun text : String => text.toList.getLast?) h
  rw [String.toList_append] at hlast
  simp at hlast

theorem text_eq_counter_iff {t : ColumnType} :
    t.text = "counter" ↔ t = .scalar .counter ∨ t = .udt "counter" := by
  cases t with
  | scalar s => cases s <;> simp [text, Scalar.name]
  | udt name => simp [text]
  | _ => simp [text, append_bracket_ne_counter]

theorem freeze_text_ne_counter (t : ColumnType) : t.freeze.text ≠ "counter" := by
  rw [Ne, text_eq_counter_iff]
  cases t <;> simp [freeze]

theorem freezeKey_text_eq_counter_iff {t : ColumnType} :
    t.freezeKey.text = "counter" ↔ t.text = "counter" := by
  rw [text_eq_counter_iff, text_eq_counter_iff]
  cases t <;> simp [freezeKey]

theorem freezeValue_text_eq_counter_iff {t : ColumnType} :
    t.freezeValue.text = "counter" ↔ t.text = "counter" := by
  rw [text_eq_counter_iff, text_eq_counter_iff]
  cases t <;> simp [freezeValue]

end ColumnType

/-- A column that is not marked as a counter is defined as one if its own type shows as that of
counters, and it is not frozen. -/
theorem Column.definedType_text_eq_counter_iff {col : Column} (h : col.counter = false) :
    col.definedType.text = "counter" ↔
      col.frozen = false ∧ (col.type = .scalar .counter ∨ col.type = .udt "counter") := by
  unfold definedType
  rw [h, if_neg Bool.false_ne_true, ← ColumnType.text_eq_counter_iff]
  cases col.frozen with
  | true => simp [ColumnType.freeze_text_ne_counter]
  | false =>
      have hkey : (if col.frozenKey then col.type.freezeKey else col.type).text = "counter" ↔
          col.type.text = "counter" := by
        split
        · exact ColumnType.freezeKey_text_eq_counter_iff
        · exact Iff.rfl
      dsimp only
      rw [if_neg Bool.false_ne_true]
      split
      · rw [ColumnType.freezeValue_text_eq_counter_iff, hkey]
        simp
      · rw [hkey]
        simp

namespace Mapping

/-! ## Primary keys -/

section Created

variable {e : EntityType} {d : Definition} {m : Mapping} (hm : (build e d).outcome = .ok m)
  (h : m.Creatable)
include hm h

/-- With nothing missing, every name that a key lists has a column. -/
theorem mem_names_of_creatable {name : String} (hname : name ∈ d.keyNames) : name ∈ m.names := by
  by_contra habsent
  have hmissing : name ∈ m.missingKeyColumns := by
    rw [missingKeyColumns_names hm, List.mem_filter]
    exact ⟨hname, decide_eq_true habsent⟩
  rw [h.missing] at hmissing
  exact absurd hmissing List.not_mem_nil

theorem created_partitionKey : m.partitionKey.map Column.name = d.partitionKey := by
  rw [partitionKey_names hm, List.filter_eq_self]
  intro name hname
  exact decide_eq_true (mem_names_of_creatable hm h (List.mem_append_left _ hname))

theorem created_clusteringKey :
    m.clusteringKey.map (fun key => (key.1.name, key.2)) = d.clusteringKey := by
  rw [clusteringKey_names hm, List.filter_eq_self]
  intro key hkey
  exact decide_eq_true
    (mem_names_of_creatable hm h (List.mem_append_right _ (List.mem_map_of_mem hkey)))

theorem key_unmarked {col : Column} (hcol : col ∈ m.keyColumns) :
    col ∈ m.columns ∧ col.static = false ∧ col.counter = false := by
  have hmem := mem_columns_of_mem_keyColumns hm hcol
  have hkey := isKey_of_mem hcol
  refine ⟨hmem, ?_, ?_⟩
  · by_contra hstatic
    rw [Bool.not_eq_false] at hstatic
    rw [h.static_key col hmem hstatic] at hkey
    exact nomatch hkey
  · by_contra hcounter
    rw [Bool.not_eq_false] at hcounter
    rw [h.counter_key col hmem hcounter] at hkey
    exact nomatch hkey

end Created

/-- **Primary keys.** A table is created with a primary key, which lists the columns that the
definition names, in its order, each of them defined in the same statement and none with a mark
after its type. The type is that of counters exactly for the columns that have this type of their
own, and are neither frozen nor marked as counters. -/
theorem created_primary_key {e : EntityType} {d : Definition} {m : Mapping}
    (hm : (build e d).outcome = .ok m) {table : String} {keyspace : Option String} {guard : Bool}
    {statements : List String}
    (h : (m.create table keyspace guard).outcome = .ok statements) :
    (∃ indexes, statements =
      m.tableStatement (Identifier.qualified keyspace table m.caseSensitive) guard :: indexes) ∧
      m.partitionKey ≠ [] ∧ m.partitionKey.map Column.name = d.partitionKey ∧
      m.clusteringKey.map (fun key => (key.1.name, key.2)) = d.clusteringKey ∧
      ∀ col ∈ m.keyColumns,
        m.columnDefinition col ∈ m.columns.map m.columnDefinition ∧
          m.columnDefinition col = m.columnText col ++ " " ++ col.definedType.text ∧
          (col.definedType.text = "counter" ↔
            col.frozen = false ∧ (col.type = .scalar .counter ∨ col.type = .udt "counter")) := by
  obtain ⟨hcreatable, hstatements⟩ := create_eq_ok_iff.mp h
  refine ⟨⟨_, hstatements⟩, hcreatable.partitionKey, created_partitionKey hm hcreatable,
    created_clusteringKey hm hcreatable, fun col hcol => ?_⟩
  obtain ⟨hmem, hstatic, hcounter⟩ := key_unmarked hm hcreatable hcol
  refine ⟨List.mem_map_of_mem hmem, ?_, Column.definedType_text_eq_counter_iff hcounter⟩
  unfold columnDefinition
  rw [hstatic]
  exact String.append_empty

/-- Visits by page and by time, with a number that counts them. -/
def visitType : EntityType where
  id := 0
  name := "Visit"
  members := [⟨"page", .scalar .text⟩, ⟨"time", .scalar .timestamp⟩, ⟨"number", .scalar .bigint⟩]

def visitsByPage : Definition where
  partitionKey := ["page"]
  clusteringKey := [("time", .descending)]
  options member := if member = "number" then some { counter := true } else none

def visits : Mapping :=
  .ofColumns visitType visitsByPage (visitType.members.filterMap visitsByPage.columnOf?)

/-- Visits are counted, but not by a column of their key. -/
theorem created_primary_key_visits :
    (build visitType visitsByPage).outcome = .ok visits ∧
      (visits.create "visits" none false).outcome = .ok
        ["CREATE TABLE visits (page text, time timestamp, number counter, " ++
          "PRIMARY KEY (page, time)) WITH CLUSTERING ORDER BY (time DESC)"] ∧
      visits.keyColumns.map Column.name = ["page", "time"] ∧
      ∀ col ∈ visits.keyColumns,
        visits.columnDefinition col ∈
          ["page text", "time timestamp", "number counter"] ∧
        col.definedType.text ≠ "counter" := by
  have hbuilt : (build visitType visitsByPage).outcome = .ok visits := rfl
  have hcreated : (visits.create "visits" none false).outcome = .ok
      ["CREATE TABLE visits (page text, time timestamp, number counter, " ++
        "PRIMARY KEY (page, time)) WITH CLUSTERING ORDER BY (time DESC)"] := rfl
  obtain ⟨-, -, -, -, hkeys⟩ := created_primary_key hbuilt hcreated
  refine ⟨hbuilt, hcreated, rfl, fun col hcol => ?_⟩
  obtain ⟨hdefined, -, hcounter⟩ := hkeys col hcol
  refine ⟨hdefined, fun htext => ?_⟩
  have htypes : visits.keyColumns.map Column.type = [.scalar .text, .scalar .timestamp] := rfl
  have htype : col.type ∈ visits.keyColumns.map Column.type := List.mem_map_of_mem hcol
  rw [htypes, List.mem_cons, List.mem_singleton] at htype
  obtain ⟨-, hself⟩ := hcounter.mp htext
  rcases htype with htype | htype <;> simp [htype] at hself

/-- Visits under a number that is a counter by its type. -/
def tallyType : EntityType where
  id := 0
  name := "Visit"
  members := [⟨"number", .scalar .counter⟩]

def tallies : Mapping :=
  .ofColumns tallyType { partitionKey := ["number"] }
    (tallyType.members.map (Column.ofMember · {}))

/-- **A counter in the key.** A table goes through whose only key is a counter. -/
theorem counter_in_created_key :
    (build tallyType { partitionKey := ["number"] }).outcome = .ok tallies ∧
      (tallies.create "visits" none false).outcome =
        .ok ["CREATE TABLE visits (number counter, PRIMARY KEY (number))"] ∧
      ∃ col ∈ tallies.keyColumns, col.definedType.text = "counter" :=
  ⟨rfl, rfl, _, List.mem_cons_self .., rfl⟩

end Mapping

end TypedCql
