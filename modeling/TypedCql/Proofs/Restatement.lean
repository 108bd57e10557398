import Mathlib.Data.List.Nodup
import TypedCql.Mapping.File
import TypedCql.Mapping.TableMap
import TypedCql.Proofs.Mapping

/-!
# Entries restated by settings

The entry of a mapping file says everything about a table at once, with one list of columns that is
searched from the front. A map of settings is told one thing after the other, and what it is told
about a column accumulates. `Restates` relates the two without regard to how either is stored:
everything that the entry says is said by some setting, and nothing else is. Its consequence is
`build_restated`, that both define the same mapping.
-/

namespace TypedCql

/-! ## What is said -/

/-- The entry makes this choice about the column of its member. -/
def ColumnEntry.Makes (c : ColumnEntry) : ColumnSetting → Prop
  | .name column => c.name = some column
  | .type type => c.type = some type
  | .ignored => c.ignored = true
  | .counter => c.counter = true
  | .static => c.static = true
  | .frozen => c.frozen = true
  | .frozenKey => c.frozenKey = true
  | .frozenValue => c.frozenValue = true
  | .indexed => c.indexed = true

/-- The clustering key as a setting has it. -/
def TableEntry.clusteringMembers (t : TableEntry) : List (String × SortOrder) :=
  t.clusteringKey.map fun key => (key.member, key.order)

/-- The settings say what the entry says. Neither their order matters, nor how often a thing is
said, nor how the choices about a column are divided among the settings about it. -/
structure Restates (settings : List TableSetting) (t : TableEntry) : Prop where
  table : ∀ name, .table name ∈ settings ↔ t.name = some name
  keyspace : ∀ name, .keyspace name ∈ settings ↔ t.keyspace = some name
  caseSensitive : .caseSensitive ∈ settings ↔ t.caseSensitive = true
  compactStorage : .compactStorage ∈ settings ↔ t.compactStorage = true
  allowFiltering : .allowFiltering ∈ settings ↔ t.allowFiltering = true
  explicitColumns : .explicitColumns ∈ settings ↔ t.explicitColumns = true
  partitionKey : ∀ members, .partitionKey members ∈ settings → members = t.partitionKey
  /-- That a key is empty need not be said. -/
  partitionKey_said : t.partitionKey = [] ∨ .partitionKey t.partitionKey ∈ settings
  clusteringKey : ∀ members, .clusteringKey members ∈ settings → members = t.clusteringMembers
  clusteringKey_said : t.clusteringMembers = [] ∨ .clusteringKey t.clusteringMembers ∈ settings
  /-- Even to say nothing about a column is to mention its member. -/
  columns : ∀ member, (∃ choices, .column member choices ∈ settings) ↔ member ∈ t.members
  choices : ∀ c ∈ t.columns, ∀ choice,
    (∃ choices, .column c.member choices ∈ settings ∧ choice ∈ choices) ↔ c.Makes choice

/-! ## Settings one after the other -/

section Folds

variable {σ τ α β : Type} {set : σ → τ → σ} {l : List τ} {s : σ}

/-- A flag that is never taken down is up exactly if some setting puts it up. -/
theorem foldl_flag {flag : σ → Bool} {up : τ} {said : Bool}
    (hset : ∀ s y, flag (set s y) = true ↔ flag s = true ∨ y = up) (hdown : flag s = false)
    (hsaid : up ∈ l ↔ said = true) : flag (l.foldl set s) = said := by
  have hfold : flag (l.foldl set s) = true ↔ flag s = true ∨ up ∈ l := by
    -- The flag may be up after the first setting, so the induction is for every start.
    clear hsaid hdown
    induction l generalizing s with
    | nil => simp
    | cons y rest ih => rw [List.foldl_cons, ih, hset, List.mem_cons, or_assoc, @eq_comm _ up y]
  rw [hdown, hsaid] at hfold
  simpa using hfold

/-- The last setting decides about a field that is written, so any decides if all agree. -/
theorem foldl_field {field : σ → α} {write : β → τ} {value : β → α}
    (hwrite : ∀ s v, field (set s (write v)) = value v)
    (hkeep : ∀ s y, (∀ v, y ≠ write v) → field (set s y) = field s) {w : α}
    (hagree : ∀ v, write v ∈ l → value v = w) (hsaid : field s = w ∨ ∃ v, write v ∈ l) :
    field (l.foldl set s) = w := by
  induction l generalizing s with
  | nil => exact hsaid.resolve_right fun ⟨_, hv⟩ => absurd hv List.not_mem_nil
  | cons y rest ih =>
      -- Either the first setting writes, and rightly, or the writing is still to come.
      refine ih (fun v hv => hagree v (List.mem_cons_of_mem _ hv)) ?_
      by_cases hy : ∃ v, y = write v
      · obtain ⟨v, rfl⟩ := hy
        exact .inl ((hwrite s v).trans (hagree v (List.mem_cons_self ..)))
      · have hother : ∀ v, y ≠ write v := fun v hv => hy ⟨v, hv⟩
        rw [hkeep s y hother]
        refine hsaid.imp_right fun ⟨v, hv⟩ => ⟨v, ?_⟩
        exact (List.mem_cons.mp hv).resolve_left (Ne.symm (hother v))

/-- Nothing is written to a field about which nothing is said. -/
theorem foldl_optional {field : σ → Option α} {write : α → τ} {said : Option α}
    (hwrite : ∀ s v, field (set s (write v)) = some v)
    (hkeep : ∀ s y, (∀ v, y ≠ write v) → field (set s y) = field s) (hnone : field s = none)
    (hsaid : ∀ v, write v ∈ l ↔ said = some v) : field (l.foldl set s) = said := by
  refine foldl_field hwrite hkeep (fun v hv => ((hsaid v).mp hv).symm) ?_
  cases said with
  | none => exact .inl hnone
  | some v => exact .inr ⟨v, (hsaid v).mpr rfl⟩

end Folds

attribute [ext] ColumnOptions Definition

/-! ## Columns -/

namespace ColumnEntry

/-- Choices in any order make up the options of an entry if it makes exactly them. -/
theorem foldl_set_eq_options {c : ColumnEntry} {choices : List ColumnSetting}
    (h : ∀ choice, choice ∈ choices ↔ c.Makes choice) :
    choices.foldl ColumnOptions.set {} = c.options := by
  apply ColumnOptions.ext
  case name =>
    refine foldl_optional (fun _ _ => rfl) (fun o choice hother => ?_) rfl fun v => h (.name v)
    cases choice with
    | name column => exact absurd rfl (hother column)
    | _ => rfl
  case type =>
    refine foldl_optional (fun _ _ => rfl) (fun o choice hother => ?_) rfl fun v => h (.type v)
    cases choice with
    | type type => exact absurd rfl (hother type)
    | _ => rfl
  case ignored =>
    refine foldl_flag (fun o choice => ?_) rfl (h .ignored)
    cases choice <;> simp [ColumnOptions.set]
  case counter =>
    refine foldl_flag (fun o choice => ?_) rfl (h .counter)
    cases choice <;> simp [ColumnOptions.set]
  case static =>
    refine foldl_flag (fun o choice => ?_) rfl (h .static)
    cases choice <;> simp [ColumnOptions.set]
  case frozen =>
    refine foldl_flag (fun o choice => ?_) rfl (h .frozen)
    cases choice <;> simp [ColumnOptions.set]
  case frozenKey =>
    refine foldl_flag (fun o choice => ?_) rfl (h .frozenKey)
    cases choice <;> simp [ColumnOptions.set]
  case frozenValue =>
    refine foldl_flag (fun o choice => ?_) rfl (h .frozenValue)
    cases choice <;> simp [ColumnOptions.set]
  case indexed =>
    refine foldl_flag (fun o choice => ?_) rfl (h .indexed)
    cases choice <;> simp [ColumnOptions.set]

end ColumnEntry

namespace TableSetting

/-- The choices that a setting makes about the column of a member. -/
def choicesAbout (member : String) : TableSetting → List ColumnSetting
  | .column name choices => if name = member then choices else []
  | _ => []

theorem mem_choicesAbout {member : String} {choice : ColumnSetting} {setting : TableSetting} :
    choice ∈ setting.choicesAbout member ↔
      ∃ choices, setting = .column member choices ∧ choice ∈ choices := by
  cases setting with
  | column name choices =>
      by_cases hname : name = member
      · simp [choicesAbout, hname]
      · simp [choicesAbout, hname]
  | _ => simp [choicesAbout]

end TableSetting

namespace TableMap

/-- A member has options from the first setting about its column on. -/
theorem columns_foldl_isSome (settings : List TableSetting) (m : TableMap) (member : String) :
    ((settings.foldl set m).columns member).isSome = true ↔
      (m.columns member).isSome = true ∨ ∃ choices, .column member choices ∈ settings := by
  induction settings generalizing m with
  | nil => simp
  | cons setting rest ih =>
      rw [List.foldl_cons, ih]
      cases setting with
      | column name choices =>
          by_cases hname : member = name
          · simp [set, hname]
          · simp [set, hname]
      | _ => simp [set]

/-- The options are made up of all choices about the column, in the order of the settings. -/
theorem columns_foldl_getD (settings : List TableSetting) (m : TableMap) (member : String) :
    ((settings.foldl set m).columns member).getD {} =
      (settings.flatMap (·.choicesAbout member)).foldl ColumnOptions.set
        ((m.columns member).getD {}) := by
  induction settings generalizing m with
  | nil => rfl
  | cons setting rest ih =>
      rw [List.foldl_cons, ih, List.flatMap_cons, List.foldl_append]
      congr 1
      cases setting with
      | column name choices =>
          by_cases hname : member = name
          · simp [set, TableSetting.choicesAbout, hname]
          · simp [set, TableSetting.choicesAbout, hname, Ne.symm hname]
      | _ => rfl

end TableMap

namespace Restates

variable {settings : List TableSetting} {t : TableEntry} (h : Restates settings t)
include h

/-- The search for the entry of a member finds the options that the settings add up to. -/
theorem columns_ofSettings (member : String) :
    (TableMap.ofSettings settings).columns member =
      (t.column? member).map ColumnEntry.options := by
  have hmentioned : ((TableMap.ofSettings settings).columns member).isSome = true ↔
      member ∈ t.members :=
    (TableMap.columns_foldl_isSome settings {} member).trans (by simpa using h.columns member)
  cases hfound : t.column? member with
  | none =>
      have habsent : member ∉ t.members := by
        intro hmember
        obtain ⟨c, hc, hname⟩ := List.mem_map.mp hmember
        exact List.find?_eq_none.mp hfound c hc (beq_iff_eq.mpr hname)
      exact Option.not_isSome_iff_eq_none.mp (mt hmentioned.mp habsent)
  | some c =>
      have hc : c ∈ t.columns := List.mem_of_find?_eq_some hfound
      have hname : c.member = member :=
        beq_iff_eq.mp (List.find?_some (p := fun c : ColumnEntry => c.member == member) hfound)
      subst hname
      have hchoices : ∀ choice,
          choice ∈ settings.flatMap (·.choicesAbout c.member) ↔ c.Makes choice := by
        intro choice
        rw [← h.choices c hc, List.mem_flatMap]
        simp only [TableSetting.mem_choicesAbout]
        constructor
        · rintro ⟨_, hmem, choices, rfl, hchoice⟩
          exact ⟨choices, hmem, hchoice⟩
        · rintro ⟨choices, hmem, hchoice⟩
          exact ⟨_, hmem, choices, rfl, hchoice⟩
      -- That there are options at all has to be known apart: the entry may choose nothing.
      obtain ⟨o, ho⟩ := Option.isSome_iff_exists.mp
        (hmentioned.mpr (List.mem_map.mpr ⟨c, hc, rfl⟩))
      calc (TableMap.ofSettings settings).columns c.member
          = some (((TableMap.ofSettings settings).columns c.member).getD {}) := by rw [ho]; rfl
        _ = some ((settings.flatMap (·.choicesAbout c.member)).foldl ColumnOptions.set {}) :=
            congrArg some (TableMap.columns_foldl_getD settings {} c.member)
        _ = some c.options := congrArg some (ColumnEntry.foldl_set_eq_options hchoices)

theorem columnName_ofSettings (member : String) :
    (TableMap.ofSettings settings).columnName member = t.columnName member := by
  unfold TableMap.columnName TableEntry.columnName
  rw [h.columns_ofSettings]
  cases t.column? member <;> rfl

theorem partitionKey_ofSettings :
    (TableMap.ofSettings settings).partitionKey = t.partitionKey := by
  refine foldl_field (fun _ _ => rfl) (fun m setting hother => ?_) h.partitionKey
    (h.partitionKey_said.imp Eq.symm fun hmem => ⟨_, hmem⟩)
  cases setting with
  | partitionKey members => exact absurd rfl (hother members)
  | _ => rfl

theorem clusteringKey_ofSettings :
    (TableMap.ofSettings settings).clusteringKey = t.clusteringMembers := by
  refine foldl_field (fun _ _ => rfl) (fun m setting hother => ?_) h.clusteringKey
    (h.clusteringKey_said.imp Eq.symm fun hmem => ⟨_, hmem⟩)
  cases setting with
  | clusteringKey members => exact absurd rfl (hother members)
  | _ => rfl

/-- **Both are the same definition.** -/
theorem toDefinition_ofSettings :
    (TableMap.ofSettings settings).toDefinition = t.toDefinition := by
  apply Definition.ext
  case table =>
    show (TableMap.ofSettings settings).table = t.name
    refine foldl_optional (fun _ _ => rfl) (fun m setting hother => ?_) rfl h.table
    cases setting with
    | table name => exact absurd rfl (hother name)
    | _ => rfl
  case keyspace =>
    show (TableMap.ofSettings settings).keyspace = t.keyspace
    refine foldl_optional (fun _ _ => rfl) (fun m setting hother => ?_) rfl h.keyspace
    cases setting with
    | keyspace name => exact absurd rfl (hother name)
    | _ => rfl
  case caseSensitive =>
    show (TableMap.ofSettings settings).caseSensitive = t.caseSensitive
    refine foldl_flag (fun m setting => ?_) rfl h.caseSensitive
    cases setting <;> simp [TableMap.set]
  case compactStorage =>
    show (TableMap.ofSettings settings).compactStorage = t.compactStorage
    refine foldl_flag (fun m setting => ?_) rfl h.compactStorage
    cases setting <;> simp [TableMap.set]
  case allowFiltering =>
    show (TableMap.ofSettings settings).allowFiltering = t.allowFiltering
    refine foldl_flag (fun m setting => ?_) rfl h.allowFiltering
    cases setting <;> simp [TableMap.set]
  case explicitColumns =>
    show (TableMap.ofSettings settings).explicitColumns = t.explicitColumns
    refine foldl_flag (fun m setting => ?_) rfl h.explicitColumns
    cases setting <;> simp [TableMap.set]
  case partitionKey =>
    show (TableMap.ofSettings settings).partitionKey.map _ = t.partitionKey.map _
    rw [h.partitionKey_ofSettings]
    exact List.map_congr_left fun member _ => h.columnName_ofSettings member
  case clusteringKey =>
    show (TableMap.ofSettings settings).clusteringKey.map _ = t.clusteringKey.map _
    rw [h.clusteringKey_ofSettings, TableEntry.clusteringMembers, List.map_map]
    exact List.map_congr_left fun key _ =>
      congrArg (·, key.order) (h.columnName_ofSettings key.member)
  case options => exact funext h.columns_ofSettings

end Restates

/-! ## The settings of an entry -/

/-- The setting, if it is to be made. -/
def settingIf {α : Type} (made : Bool) (setting : α) : List α := if made then [setting] else []

@[simp] theorem mem_settingIf {α : Type} {made : Bool} {setting s : α} :
    s ∈ settingIf made setting ↔ made = true ∧ s = setting := by
  cases made <;> simp [settingIf]

/-- The choices of an entry. -/
def ColumnEntry.settings (c : ColumnEntry) : List ColumnSetting :=
  c.name.toList.map .name ++ c.type.toList.map .type ++ settingIf c.ignored .ignored ++
    settingIf c.counter .counter ++ settingIf c.static .static ++ settingIf c.frozen .frozen ++
    settingIf c.frozenKey .frozenKey ++ settingIf c.frozenValue .frozenValue ++
    settingIf c.indexed .indexed

theorem ColumnEntry.mem_settings {c : ColumnEntry} {choice : ColumnSetting} :
    choice ∈ c.settings ↔ c.Makes choice := by
  cases choice <;> simp [settings, Makes]

/-- What an entry says as settings, one for each of its columns. -/
def TableEntry.settings (t : TableEntry) : List TableSetting :=
  t.name.toList.map .table ++ t.keyspace.toList.map .keyspace ++
    settingIf t.caseSensitive .caseSensitive ++ settingIf t.compactStorage .compactStorage ++
    settingIf t.allowFiltering .allowFiltering ++
    settingIf t.explicitColumns .explicitColumns ++
    [.partitionKey t.partitionKey, .clusteringKey t.clusteringMembers] ++
    t.columns.map fun c => .column c.member c.settings

namespace Restates

variable {settings settings' : List TableSetting} {t : TableEntry}

/-- With one entry for a member, its choices are those of the settings about the column. -/
theorem of_settings (hmembers : t.members.Nodup) : Restates t.settings t := by
  constructor
  case columns => simp [TableEntry.settings, TableEntry.members]
  case choices =>
    intro c hc choice
    have hsame (c' : ColumnEntry) (hc' : c' ∈ t.columns) (hname : c'.member = c.member) :
        c' = c := List.inj_on_of_nodup_map hmembers hc' hc hname
    have hsaid (choices : List ColumnSetting) :
        .column c.member choices ∈ t.settings ↔ choices = c.settings := by
      simp only [TableEntry.settings, List.mem_append, List.mem_map, mem_settingIf,
        List.mem_cons, reduceCtorEq, and_false, exists_false, false_or, List.not_mem_nil,
        TableSetting.column.injEq]
      constructor
      · rintro ⟨c', hc', hname, rfl⟩
        rw [hsame c' hc' hname]
      · rintro rfl
        exact ⟨c, hc, rfl, rfl⟩
    simp only [hsaid, exists_eq_left, ColumnEntry.mem_settings]
  all_goals simp [TableEntry.settings]

/-- Of settings about columns it matters only which members and which choices they mention. -/
theorem of_same (h : Restates settings t)
    (hplain : ∀ setting, (∀ member choices, setting ≠ .column member choices) →
      (setting ∈ settings' ↔ setting ∈ settings))
    (hcolumns : ∀ member, (∃ choices, .column member choices ∈ settings') ↔
      ∃ choices, .column member choices ∈ settings)
    (hchoices : ∀ member choice,
      (∃ choices, .column member choices ∈ settings' ∧ choice ∈ choices) ↔
        ∃ choices, .column member choices ∈ settings ∧ choice ∈ choices) :
    Restates settings' t where
  table name := (hplain (.table name) nofun).trans (h.table name)
  keyspace name := (hplain (.keyspace name) nofun).trans (h.keyspace name)
  caseSensitive := (hplain .caseSensitive nofun).trans h.caseSensitive
  compactStorage := (hplain .compactStorage nofun).trans h.compactStorage
  allowFiltering := (hplain .allowFiltering nofun).trans h.allowFiltering
  explicitColumns := (hplain .explicitColumns nofun).trans h.explicitColumns
  partitionKey members hmem :=
    h.partitionKey members ((hplain (.partitionKey members) nofun).mp hmem)
  partitionKey_said := h.partitionKey_said.imp_right (hplain (.partitionKey _) nofun).mpr
  clusteringKey members hmem :=
    h.clusteringKey members ((hplain (.clusteringKey members) nofun).mp hmem)
  clusteringKey_said := h.clusteringKey_said.imp_right (hplain (.clusteringKey _) nofun).mpr
  columns member := (hcolumns member).trans (h.columns member)
  choices c hc choice := (hchoices c.member choice).trans (h.choices c hc choice)

/-- The settings can be made in another order. -/
theorem perm (h : Restates settings t) (hperm : settings.Perm settings') :
    Restates settings' t := by
  refine h.of_same (fun _ _ => hperm.mem_iff.symm) ?_ ?_
  · simp only [hperm.mem_iff, implies_true]
  · simp only [hperm.mem_iff, implies_true]

/-- The choices about a column can be divided between two settings. -/
theorem divide {before after : List TableSetting} {member : String}
    {choices choices' : List ColumnSetting}
    (h : Restates (before ++ .column member (choices ++ choices') :: after) t) :
    Restates (before ++ .column member choices :: .column member choices' :: after) t := by
  refine h.of_same (fun setting hplain => ?_) (fun name => ?_) fun name choice => ?_
  · simp only [List.mem_append, List.mem_cons, hplain, false_or]
  · simp only [List.mem_append, List.mem_cons, TableSetting.column.injEq, exists_or,
      exists_and_left, exists_eq]
    tauto
  · simp only [List.mem_append, List.mem_cons, TableSetting.column.injEq, or_and_right, exists_or,
      and_assoc, exists_and_left, exists_eq_left, and_or_left, or_assoc]

end Restates

/-- **An entry and its settings define the same mapping.** -/
theorem TableEntry.build_restated (t : TableEntry) (hmembers : t.members.Nodup) :
    Restates t.settings t ∧
      ∀ settings, Restates settings t → ∀ e : EntityType,
        Mapping.build e (TableMap.ofSettings settings).toDefinition =
          Mapping.build e t.toDefinition :=
  ⟨.of_settings hmembers, fun _ h e => congrArg (Mapping.build e) h.toDefinition_ofSettings⟩

/-- People in a table of another name, with nothing but their numbers and names. -/
def numberedPeople : TableEntry where
  entity := "Person"
  name := some "people"
  explicitColumns := true
  partitionKey := ["id"]
  columns :=
    [{ member := "name", static := true, indexed := true },
      { member := "id", name := some "number", type := some (.scalar .bigint) }]

/-- The same in settings, from the end to the beginning and the number in two parts. -/
def numberedBackwards : List TableSetting :=
  [.column "id" [.type (.scalar .bigint)], .column "id" [.name "number"],
    .column "name" [.static, .indexed], .clusteringKey [], .partitionKey ["id"], .explicitColumns,
    .table "people"]

theorem build_restated_people :
    numberedPeople.members.Nodup ∧ Restates numberedBackwards numberedPeople ∧
      Mapping.build personType (TableMap.ofSettings numberedBackwards).toDefinition =
        Mapping.build personType numberedPeople.toDefinition ∧
      ∃ m, (Mapping.build personType numberedPeople.toDefinition).outcome = .ok m ∧
        m.columns.map (fun col => (col.name, col.member.name, col.static)) =
          [("number", "id", false), ("name", "name", true)] ∧
        m.partitionKey.map Column.name = ["number"] := by
  have hmembers : numberedPeople.members.Nodup := by decide
  obtain ⟨hsettings, hbuild⟩ := TableEntry.build_restated numberedPeople hmembers
  have hdivided : Restates
      ([.table "people", .explicitColumns, .partitionKey ["id"], .clusteringKey [],
          .column "name" [.static, .indexed]] ++
        .column "id" [.name "number"] :: .column "id" [.type (.scalar .bigint)] :: [])
      numberedPeople := Restates.divide hsettings
  have hbackwards : Restates numberedBackwards numberedPeople :=
    hdivided.perm (List.reverse_perm _).symm
  exact ⟨hmembers, hbackwards, hbuild _ hbackwards personType, _, rfl, rfl, rfl⟩

end TypedCql
