import TypedCql.Proofs.CanonicalTypes
import TypedCql.Proofs.Literals
import TypedCql.Proofs.QuotedNames
import TypedCql.Proofs.TableCreation

/-!
# Reading a table back from its statements

What the statements of a table say about it is its `Schema`. Between quotes a name may hold
anything, so a comma, a bracket or the word after a type need not be what it looks like. Even so the
statements of one schema are not those of another, and here the text is read from left to right to
show it.

Every part of the text is read back by itself, in front of anything that can follow it there. A name
ends at a quote that no other quote follows, a type where a character comes that no name has, and
lists go on after a comma and end at a bracket. What comes next is decided by its first character
each time: a definition by a quote and the key by its word, one column of the partition key by a
quote and several by a bracket, a static column by a blank and any other by the comma after it.
-/

namespace TypedCql

/-- What is said of a column where it is defined. -/
structure ColumnSchema where
  name : String
  type : ColumnType
  static : Bool

/-- What the statements of a table say about it. -/
@[ext]
structure Schema where
  columns : List ColumnSchema
  partitionKey : List String
  clusteringKey : List (String × SortOrder)
  compactStorage : Bool
  /-- The columns that have an index. -/
  indexed : List String

def Column.schema (col : Column) : ColumnSchema := ⟨col.name, col.definedType, col.static⟩

def Mapping.schema (m : Mapping) : Schema where
  columns := m.columns.map Column.schema
  partitionKey := m.partitionKey.map Column.name
  clusteringKey := m.clusteringKey.map fun key => (key.1.name, key.2)
  compactStorage := m.compactStorage
  indexed := (m.columns.filter Column.indexed).map Column.name

/-! ## Names -/

/-- A name between quotes. -/
def quotedChars (name : String) : List Char := '"' :: (Text.doubled '"' name.toList ++ ['"'])

theorem toList_enclosed (name : String) : (Text.enclosed '"' name).toList = quotedChars name :=
  String.toList_ofList

theorem quoted_unique {a b : String} {u v : List Char} (hu : ∀ c r, u = c :: r → c ≠ '"')
    (hv : ∀ c r, v = c :: r → c ≠ '"') (h : quotedChars a ++ u = quotedChars b ++ v) :
    a = b ∧ u = v := by
  simp only [quotedChars, List.cons_append, List.append_assoc, List.nil_append] at h
  obtain ⟨hname, huv⟩ := doubled_unique hu hv (List.cons.inj h).2
  exact ⟨String.toList_inj.mp hname, huv⟩

/-- A name in front of a character that is no quote. -/
theorem quoted_cons_unique {a b : String} {c d : Char} {u v : List Char} (hc : c ≠ '"')
    (hd : d ≠ '"') (h : quotedChars a ++ c :: u = quotedChars b ++ d :: v) :
    a = b ∧ c = d ∧ u = v := by
  have hhead : ∀ {c : Char} {s : List Char}, c ≠ '"' → ∀ e r, c :: s = e :: r → e ≠ '"' := by
    intro c s hc e r hs
    exact (List.cons.inj hs).1 ▸ hc
  obtain ⟨hname, hrest⟩ := quoted_unique (hhead hc) (hhead hd) h
  exact ⟨hname, List.cons.inj hrest⟩

theorem quoted_separable (a b : String) : Literal.Separable quotedChars a b := by
  intro u v hu hv h
  have hquote : ∀ {s : List Char}, Literal.Boundary s → ∀ c r, s = c :: r → c ≠ '"' := by
    rintro s hs c r rfl rfl
    have hmem : '"' ∈ Literal.delimiters := hs
    exact absurd hmem (by decide)
  exact quoted_unique (hquote hu) (hquote hv) h

theorem qualifiedChars_none (table : String) :
    (Identifier.qualified none table true).toList = quotedChars table :=
  toList_enclosed table

theorem qualifiedChars_some (keyspace table : String) :
    (Identifier.qualified (some keyspace) table true).toList =
      quotedChars keyspace ++ '.' :: quotedChars table := by
  rw [toList_qualified_some, toList_enclosed, toList_enclosed]

/-- A name of a table ends at a blank, and its keyspace at a point. -/
theorem qualified_unique {keyspace keyspace' : Option String} {table table' : String}
    {u v : List Char}
    (h : (Identifier.qualified keyspace table true).toList ++ ' ' :: u =
      (Identifier.qualified keyspace' table' true).toList ++ ' ' :: v) :
    keyspace = keyspace' ∧ table = table' ∧ u = v := by
  cases keyspace with
  | none =>
      cases keyspace' with
      | none =>
          rw [qualifiedChars_none, qualifiedChars_none] at h
          obtain ⟨rfl, -, huv⟩ := quoted_cons_unique (by decide) (by decide) h
          exact ⟨rfl, rfl, huv⟩
      | some k' =>
          rw [qualifiedChars_none, qualifiedChars_some, List.append_assoc] at h
          obtain ⟨-, hmark, -⟩ := quoted_cons_unique (by decide) (by decide) h
          exact absurd hmark (by decide)
  | some k =>
      cases keyspace' with
      | none =>
          rw [qualifiedChars_none, qualifiedChars_some, List.append_assoc] at h
          obtain ⟨-, hmark, -⟩ := quoted_cons_unique (by decide) (by decide) h
          exact absurd hmark (by decide)
      | some k' =>
          rw [qualifiedChars_some, qualifiedChars_some, List.append_assoc,
            List.append_assoc] at h
          obtain ⟨rfl, -, htables⟩ := quoted_cons_unique (by decide) (by decide) h
          obtain ⟨rfl, -, huv⟩ := quoted_cons_unique (by decide) (by decide) htables
          exact ⟨rfl, rfl, huv⟩

/-! ## Definitions of columns -/

namespace ColumnSchema

def chars (c : ColumnSchema) : List Char :=
  quotedChars c.name ++
    ' ' :: (c.type.text.toList ++ if c.static then " static".toList else [])

theorem chars_unique {a b : ColumnSchema} (ha : a.type.Canonical) (hb : b.type.Canonical)
    {u v : List Char} (h : a.chars ++ ',' :: u = b.chars ++ ',' :: v) : a = b ∧ u = v := by
  obtain ⟨name, type, static⟩ := a
  obtain ⟨name', type', static'⟩ := b
  have hends : ∀ (static : Bool) (s : List Char),
      ColumnType.Ends ((if static then " static".toList else []) ++ ',' :: s) := by
    intro static s
    cases static <;> exact ColumnType.ends_mark (by decide) _
  simp only [chars, List.append_assoc, List.cons_append] at h
  obtain ⟨rfl, -, htypes⟩ := quoted_cons_unique (by decide) (by decide) h
  obtain ⟨rfl, hmarks⟩ := ha.text_unique hb (hends static u) (hends static' v) htypes
  -- After the type, a blank belongs to the mark of a static column.
  cases static <;> cases static'
  · exact ⟨rfl, (List.cons.inj hmarks).2⟩
  · exact absurd (List.cons.inj hmarks).1 (by decide)
  · exact absurd (List.cons.inj hmarks).1 (by decide)
  · exact ⟨rfl, (List.cons.inj (List.append_cancel_left hmarks)).2⟩

/-- The definitions up to that of the key. -/
def allChars (columns : List ColumnSchema) : List Char :=
  columns.flatMap fun c => c.chars ++ [',', ' ']

/-- They end where a definition does not begin with a name. -/
theorem allChars_unique {as bs : List ColumnSchema} (has : ∀ c ∈ as, c.type.Canonical)
    (hbs : ∀ c ∈ bs, c.type.Canonical) {u v : List Char}
    (h : allChars as ++ 'P' :: u = allChars bs ++ 'P' :: v) : as = bs ∧ u = v := by
  have hname : ∀ (c : ColumnSchema) (s : List Char), ∃ r, c.chars ++ s = '"' :: r := by
    intro c s
    exact ⟨_, rfl⟩
  have hcons : ∀ (c : ColumnSchema) (rest : List ColumnSchema) (s : List Char),
      allChars (c :: rest) ++ s = c.chars ++ ',' :: ' ' :: (allChars rest ++ s) := by
    intro c rest s
    simp [allChars]
  induction as generalizing bs with
  | nil =>
      cases bs with
      | nil => exact ⟨rfl, (List.cons.inj h).2⟩
      | cons b bs =>
          obtain ⟨r, hr⟩ := hname b (',' :: ' ' :: (allChars bs ++ 'P' :: v))
          rw [hcons, hr] at h
          exact absurd (List.cons.inj h).1 (by decide)
  | cons a as ih =>
      cases bs with
      | nil =>
          obtain ⟨r, hr⟩ := hname a (',' :: ' ' :: (allChars as ++ 'P' :: u))
          rw [hcons, hr] at h
          exact absurd (List.cons.inj h).1 (by decide)
      | cons b bs =>
          rw [hcons, hcons] at h
          obtain ⟨rfl, hrest⟩ := chars_unique (has a (List.mem_cons_self ..))
            (hbs b (List.mem_cons_self ..)) h
          obtain ⟨rfl, huv⟩ := ih (fun c hc => has c (List.mem_cons_of_mem _ hc))
            (fun c hc => hbs c (List.mem_cons_of_mem _ hc)) (List.cons.inj hrest).2
          exact ⟨rfl, huv⟩

end ColumnSchema

namespace Schema

/-! ## Keys and properties -/

/-- The partition key; several columns of it stand between brackets. -/
def partitionChars : List String → List Char
  | [name] => quotedChars name
  | names => '(' :: Literal.inside quotedChars ')' names

/-- The columns of the key up to its closing bracket. -/
def keyChars (s : Schema) : List Char :=
  partitionChars s.partitionKey ++ Literal.later quotedChars ')' (s.clusteringKey.map Prod.fst)

def orderChars (key : String × SortOrder) : List Char :=
  quotedChars key.1 ++ ' ' :: key.2.cql.toList

/-- The clustering order, if there is one, and the mark of compact storage. -/
def propertiesChars (clusteringKey : List (String × SortOrder)) (compactStorage : Bool) :
    List Char :=
  match clusteringKey with
  | [] => if compactStorage then " WITH COMPACT STORAGE".toList else []
  | keys =>
    " WITH CLUSTERING ORDER BY (".toList ++
      (Literal.inside orderChars ')' keys ++
        if compactStorage then " AND COMPACT STORAGE".toList else [])

theorem propertiesChars_of_ne_nil {keys : List (String × SortOrder)} (h : keys ≠ [])
    (compactStorage : Bool) :
    propertiesChars keys compactStorage =
      " WITH CLUSTERING ORDER BY (".toList ++
        (Literal.inside orderChars ')' keys ++
          if compactStorage then " AND COMPACT STORAGE".toList else []) := by
  cases keys with
  | nil => exact absurd rfl h
  | cons key rest => rfl

theorem partitionChars_cons_cons (a b : String) (rest : List String) :
    partitionChars (a :: b :: rest) = '(' :: Literal.inside quotedChars ')' (a :: b :: rest) :=
  rfl

theorem partitionChars_unique {as bs : List String} (has : as ≠ []) (hbs : bs ≠ [])
    {u v : List Char} (hu : Literal.Boundary u) (hv : Literal.Boundary v)
    (h : partitionChars as ++ u = partitionChars bs ++ v) : as = bs ∧ u = v := by
  have hone : ∀ (a : String) (s : List Char), ∃ r, partitionChars [a] ++ s = '"' :: r := by
    intro a s
    exact ⟨_, rfl⟩
  match as, bs with
  | [], _ => exact absurd rfl has
  | _ :: _, [] => exact absurd rfl hbs
  | [a], [b] =>
      obtain ⟨rfl, huv⟩ := quoted_separable a b hu hv h
      exact ⟨rfl, huv⟩
  | [a], b :: b' :: bs =>
      obtain ⟨r, hr⟩ := hone a u
      rw [hr, partitionChars_cons_cons] at h
      exact absurd (List.cons.inj h).1 (by decide)
  | a :: a' :: as, [b] =>
      obtain ⟨r, hr⟩ := hone b v
      rw [hr, partitionChars_cons_cons] at h
      exact absurd (List.cons.inj h).1 (by decide)
  | a :: a' :: as, b :: b' :: bs =>
      rw [partitionChars_cons_cons, partitionChars_cons_cons] at h
      exact Literal.inside_unique (by decide) (by decide)
        (fun p _ => quoted_separable p.1 p.2) (by simp) (List.cons.inj h).2

theorem keyChars_unique {s s' : Schema} (hs : s.partitionKey ≠ []) (hs' : s'.partitionKey ≠ [])
    {u v : List Char} (h : s.keyChars ++ u = s'.keyChars ++ v) :
    s.partitionKey = s'.partitionKey ∧
      s.clusteringKey.map Prod.fst = s'.clusteringKey.map Prod.fst ∧ u = v := by
  rw [keyChars, keyChars, List.append_assoc, List.append_assoc] at h
  obtain ⟨hpartition, hrest⟩ := partitionChars_unique hs hs'
    (Literal.boundary_later (by decide) _ u) (Literal.boundary_later (by decide) _ v) h
  obtain ⟨hclustering, huv⟩ := Literal.later_unique (by decide) (by decide)
    (fun p _ => quoted_separable p.1 p.2) hrest
  exact ⟨hpartition, hclustering, huv⟩

theorem order_separable (a b : String × SortOrder) : Literal.Separable orderChars a b := by
  obtain ⟨name, order⟩ := a
  obtain ⟨name', order'⟩ := b
  intro u v hu hv h
  simp only [orderChars, List.append_assoc, List.cons_append] at h
  obtain ⟨rfl, -, horders⟩ := quoted_cons_unique (by decide) (by decide) h
  cases order <;> cases order'
  · exact ⟨rfl, List.append_cancel_left horders⟩
  · exact absurd (List.cons.inj horders).1 (by decide)
  · exact absurd (List.cons.inj horders).1 (by decide)
  · exact ⟨rfl, List.append_cancel_left horders⟩

/-- The key tells whether there is a clustering order to read. -/
theorem propertiesChars_unique {as bs : List (String × SortOrder)} {compact compact' : Bool}
    (hnames : as.map Prod.fst = bs.map Prod.fst)
    (h : propertiesChars as compact = propertiesChars bs compact') :
    as = bs ∧ compact = compact' := by
  match as, bs with
  | [], [] =>
      refine ⟨rfl, ?_⟩
      have hmark : " WITH COMPACT STORAGE".toList ≠ [] := by decide
      cases compact <;> cases compact'
      · rfl
      · exact absurd h.symm hmark
      · exact absurd h hmark
      · rfl
  | [], _ :: _ => exact nomatch hnames
  | _ :: _, [] => exact nomatch hnames
  | a :: as, b :: bs =>
      have hinside := List.append_cancel_left h
      obtain ⟨hkeys, hmarks⟩ := Literal.inside_unique (by decide) (by decide)
        (fun p _ => order_separable p.1 p.2) (by simp) hinside
      refine ⟨hkeys, ?_⟩
      have hmark : " AND COMPACT STORAGE".toList ≠ [] := by decide
      cases compact <;> cases compact'
      · rfl
      · exact absurd hmarks.symm hmark
      · exact absurd hmarks hmark
      · rfl

/-! ## Statements -/

/-- What comes after the name of the table and the opening bracket. -/
def bodyChars (s : Schema) : List Char :=
  ColumnSchema.allChars s.columns ++
    ("PRIMARY KEY (".toList ++
      (s.keyChars ++ ')' :: propertiesChars s.clusteringKey s.compactStorage))

theorem bodyChars_unique {s s' : Schema} (hs : s.partitionKey ≠ []) (hs' : s'.partitionKey ≠ [])
    (htypes : ∀ c ∈ s.columns, c.type.Canonical) (htypes' : ∀ c ∈ s'.columns, c.type.Canonical)
    (h : s.bodyChars = s'.bodyChars) :
    s.columns = s'.columns ∧ s.partitionKey = s'.partitionKey ∧
      s.clusteringKey = s'.clusteringKey ∧ s.compactStorage = s'.compactStorage := by
  have hword : "PRIMARY KEY (".toList = 'P' :: "RIMARY KEY (".toList := by decide
  rw [bodyChars, bodyChars, hword, List.cons_append, List.cons_append] at h
  obtain ⟨hcolumns, hkey⟩ := ColumnSchema.allChars_unique htypes htypes' h
  obtain ⟨hpartition, hnames, hproperties⟩ :=
    keyChars_unique hs hs' (List.append_cancel_left hkey)
  obtain ⟨hclustering, hcompact⟩ :=
    propertiesChars_unique hnames (List.cons.inj hproperties).2
  exact ⟨hcolumns, hpartition, hclustering, hcompact⟩

end Schema

/-! ## The statements of a mapping -/

/-- Definitions with the one of the key after them. -/
theorem toList_definitions (definitions : List String) (key : String) :
    (", ".intercalate (definitions ++ [key])).toList =
      (definitions.flatMap fun text => text.toList ++ [',', ' ']) ++ key.toList := by
  induction definitions with
  | nil => exact congrArg String.toList String.intercalate_singleton
  | cons text rest ih =>
      obtain ⟨next, later, hnext⟩ : ∃ next later, rest ++ [key] = next :: later := by
        cases rest <;> exact ⟨_, _, rfl⟩
      rw [List.cons_append, hnext, String.intercalate_cons_cons, ← hnext, String.toList_append,
        String.toList_append, ih, List.flatMap_cons, List.append_assoc, List.append_assoc,
        List.append_assoc]
      rfl

namespace Mapping

section Quoted

variable {m : Mapping} (hquoted : m.caseSensitive = true)
include hquoted

theorem columnText_of_quoted (col : Column) : m.columnText col = Text.enclosed '"' col.name := by
  unfold columnText identifier Identifier.text
  rw [hquoted]
  rfl

theorem toList_columnText (col : Column) : (m.columnText col).toList = quotedChars col.name := by
  rw [columnText_of_quoted hquoted, toList_enclosed]

theorem toList_columnDefinition (col : Column) :
    (m.columnDefinition col).toList = col.schema.chars := by
  unfold columnDefinition ColumnSchema.chars
  rw [String.toList_append, String.toList_append, String.toList_append,
    toList_columnText hquoted, List.append_assoc, List.append_assoc]
  show _ ++ (_ ++ (_ ++ (if col.static then " static" else "").toList)) = _
  cases hstatic : col.static <;> simp [Column.schema, hstatic]

/-- The columns of the partition key, with brackets around several of them. -/
theorem toList_partition (columns : List Column) (hne : columns ≠ []) :
    (if columns.length > 1 then "(" ++ ", ".intercalate (columns.map m.columnText) ++ ")"
      else ", ".intercalate (columns.map m.columnText)).toList =
      Schema.partitionChars (columns.map Column.name) := by
  match columns with
  | [] => exact absurd rfl hne
  | [col] =>
      show (", ".intercalate [m.columnText col]).toList = _
      rw [String.intercalate_singleton]
      exact toList_columnText hquoted col
  | col :: next :: rest =>
      have hmany : (col :: next :: rest).length > 1 := by simp
      have hopen : "(".toList = ['('] := by decide
      have hclose : ")".toList = [')'] := by decide
      have hinside := Literal.toList_intercalate m.columnText ')' (col :: next :: rest)
      simp only [toList_columnText hquoted] at hinside
      rw [if_pos hmany, String.toList_append, String.toList_append, List.append_assoc, hopen,
        hclose, hinside, ← Literal.inside_map]
      rfl

theorem toList_keyDefinition (hne : m.partitionKey ≠ []) :
    m.keyDefinition.toList = "PRIMARY KEY (".toList ++ m.schema.keyChars := by
  have hlater : ∀ (first : String) (rest : List String),
      (", ".intercalate (first :: rest)).toList ++ [')'] =
        first.toList ++ Literal.later String.toList ')' rest := by
    intro first rest
    have hinside := Literal.toList_intercalate (fun text => text) ')' (first :: rest)
    rw [List.map_id'] at hinside
    exact hinside
  unfold keyDefinition
  rw [String.toList_append, String.toList_append, List.append_assoc]
  show _ ++ ((", ".intercalate (_ :: _)).toList ++ [')']) = _
  rw [hlater, toList_partition hquoted _ hne, Literal.later_map]
  simp only [toList_columnText hquoted]
  unfold Schema.keyChars schema
  rw [List.map_map, Literal.later_map]
  rfl

/-- The clustering order between its brackets. -/
theorem toList_order (keys : List (Column × SortOrder)) :
    (", ".intercalate (keys.map fun (c, order) => m.columnText c ++ " " ++ order.cql) ++
      ")").toList =
      Literal.inside Schema.orderChars ')' (keys.map fun key => (key.1.name, key.2)) := by
  have hkey : ∀ key : Column × SortOrder,
      (m.columnText key.1 ++ " " ++ key.2.cql).toList =
        Schema.orderChars (key.1.name, key.2) := by
    intro key
    rw [String.toList_append, String.toList_append, toList_columnText hquoted, List.append_assoc]
    rfl
  have hinside := Literal.toList_intercalate
    (fun key : Column × SortOrder => m.columnText key.1 ++ " " ++ key.2.cql) ')' keys
  simp only [hkey] at hinside
  rw [String.toList_append, Literal.inside_map, ← hinside]
  rfl

theorem toList_properties :
    (if m.tableProperties.isEmpty then ""
      else " WITH " ++ " AND ".intercalate m.tableProperties).toList =
      Schema.propertiesChars m.schema.clusteringKey m.schema.compactStorage := by
  have horder := toList_order hquoted m.clusteringKey
  unfold tableProperties schema
  by_cases hkeys : m.clusteringKey = []
  · rw [hkeys]
    cases m.compactStorage
    · rfl
    · show (" WITH " ++ " AND ".intercalate ["COMPACT STORAGE"]).toList =
        " WITH COMPACT STORAGE".toList
      decide
  · have hmap : m.clusteringKey.map (fun key => (key.1.name, key.2)) ≠ [] := by
      simpa using hkeys
    have hwith : " WITH CLUSTERING ORDER BY (".toList =
        " WITH ".toList ++ "CLUSTERING ORDER BY (".toList := by decide
    have hand : " AND COMPACT STORAGE".toList = " AND ".toList ++ "COMPACT STORAGE".toList := by
      decide
    rw [List.isEmpty_eq_false_iff.mpr hkeys, if_neg Bool.false_ne_true, String.append_assoc,
      Schema.propertiesChars_of_ne_nil hmap, ← horder, hwith, hand]
    generalize ", ".intercalate _ ++ ")" = order
    cases m.compactStorage
    · show (" WITH " ++ " AND ".intercalate ["CLUSTERING ORDER BY (" ++ order]).toList = _
      rw [String.intercalate_singleton, String.toList_append, String.toList_append,
        List.append_assoc]
      exact congrArg _ (congrArg _ (List.append_nil _).symm)
    · show (" WITH " ++ " AND ".intercalate
        ["CLUSTERING ORDER BY (" ++ order, "COMPACT STORAGE"]).toList = _
      rw [String.intercalate_cons_cons, String.intercalate_singleton]
      simp only [String.toList_append, List.append_assoc, if_true]

theorem toList_tableStatement (hne : m.partitionKey ≠ []) (qualified : String) (guard : Bool) :
    (m.tableStatement qualified guard).toList =
      "CREATE TABLE ".toList ++ ((existenceGuard guard).toList ++
        (qualified.toList ++ ' ' :: '(' :: m.schema.bodyChars)) := by
  have hcolumns : ((m.columns.map m.columnDefinition).flatMap fun text =>
      text.toList ++ [',', ' ']) = ColumnSchema.allChars m.schema.columns := by
    unfold ColumnSchema.allChars schema
    rw [List.flatMap_map, List.flatMap_map]
    simp only [toList_columnDefinition hquoted]
  unfold tableStatement
  simp only [String.toList_append, List.append_assoc]
  rw [toList_properties hquoted, toList_definitions, hcolumns, toList_keyDefinition hquoted hne]
  simp only [Schema.bodyChars, List.append_assoc]
  rfl

/-- The statements of the indexes show one name each. -/
theorem indexStatements_of_quoted (qualified : String) (guard : Bool) :
    (m.columns.filter Column.indexed).map (m.indexStatement qualified guard) =
      m.schema.indexed.map fun name =>
        "CREATE INDEX " ++ existenceGuard guard ++ "ON " ++ qualified ++ " (" ++
          Text.enclosed '"' name ++ ")" := by
  unfold schema indexStatement
  rw [List.map_map]
  simp only [columnText_of_quoted hquoted]
  rfl

end Quoted

/-- What comes after the guard begins with a quote, and the guard does not. -/
theorem existenceGuard_unique {guard guard' : Bool} {u v : List Char} (hu : ∃ r, u = '"' :: r)
    (hv : ∃ r, v = '"' :: r)
    (h : (existenceGuard guard).toList ++ u = (existenceGuard guard').toList ++ v) :
    guard = guard' ∧ u = v := by
  have hguard : (existenceGuard true).toList = 'I' :: "F NOT EXISTS ".toList := by decide
  have hnone : (existenceGuard false).toList = [] := by decide
  obtain ⟨r, rfl⟩ := hu
  obtain ⟨r', rfl⟩ := hv
  cases guard <;> cases guard'
  · exact ⟨rfl, h⟩
  · rw [hguard, hnone] at h
    exact absurd (List.cons.inj h).1 (by decide)
  · rw [hguard, hnone] at h
    exact absurd (List.cons.inj h).1 (by decide)
  · exact ⟨rfl, List.append_cancel_left h⟩

theorem indexed_unique {head : String} {names names' : List String}
    (h : names.map (fun name => head ++ Text.enclosed '"' name ++ ")") =
      names'.map fun name => head ++ Text.enclosed '"' name ++ ")") : names = names' := by
  refine List.map_injective_iff.mpr (fun name name' htext => ?_) h
  have hlists := congrArg String.toList htext
  simp only [String.toList_append, toList_enclosed, List.append_assoc] at hlists
  exact (quoted_cons_unique (by decide) (by decide) (List.append_cancel_left hlists)).1

/-- A qualified name between quotes begins with one. -/
theorem qualified_begins (keyspace : Option String) (table : String) (s : List Char) :
    ∃ r, (Identifier.qualified keyspace table true).toList ++ s = '"' :: r := by
  cases keyspace with
  | none => exact ⟨_, congrArg (· ++ s) (qualifiedChars_none table)⟩
  | some keyspace => exact ⟨_, congrArg (· ++ s) (qualifiedChars_some keyspace table)⟩

theorem schema_partitionKey_ne_nil {m : Mapping} (h : m.partitionKey ≠ []) :
    m.schema.partitionKey ≠ [] :=
  fun hnil => h (List.map_eq_nil_iff.mp hnil)

theorem schema_canonical {m : Mapping} (h : ∀ col ∈ m.columns, col.type.Canonical) :
    ∀ c ∈ m.schema.columns, c.type.Canonical := by
  intro c hc
  obtain ⟨col, hcol, rfl⟩ := List.mem_map.mp hc
  exact Column.definedType_canonical (h col hcol)

theorem tableStatement_unique {m m' : Mapping} (hquoted : m.caseSensitive = true)
    (hquoted' : m'.caseSensitive = true) (hne : m.partitionKey ≠ []) (hne' : m'.partitionKey ≠ [])
    (htypes : ∀ col ∈ m.columns, col.type.Canonical)
    (htypes' : ∀ col ∈ m'.columns, col.type.Canonical) {table table' : String}
    {keyspace keyspace' : Option String} {guard guard' : Bool}
    (h : m.tableStatement (Identifier.qualified keyspace table true) guard =
      m'.tableStatement (Identifier.qualified keyspace' table' true) guard') :
    (keyspace = keyspace' ∧ table = table' ∧ guard = guard') ∧
      m.schema.columns = m'.schema.columns ∧ m.schema.partitionKey = m'.schema.partitionKey ∧
        m.schema.clusteringKey = m'.schema.clusteringKey ∧
          m.schema.compactStorage = m'.schema.compactStorage := by
  have hlists := congrArg String.toList h
  rw [toList_tableStatement hquoted hne, toList_tableStatement hquoted' hne'] at hlists
  obtain ⟨hguard, hqualified⟩ := existenceGuard_unique (qualified_begins ..) (qualified_begins ..)
    (List.append_cancel_left hlists)
  obtain ⟨hkeyspace, htable, hbody⟩ := qualified_unique hqualified
  exact ⟨⟨hkeyspace, htable, hguard⟩,
    Schema.bodyChars_unique (schema_partitionKey_ne_nil hne) (schema_partitionKey_ne_nil hne')
      (schema_canonical htypes) (schema_canonical htypes') (List.cons.inj hbody).2⟩

/-- **Tables read back.** Between quotes, the statements of a table determine its keyspace and its
name, whether it must not exist yet, and all that the mapping says about it. -/
theorem create_determines_schema {m m' : Mapping} (hquoted : m.caseSensitive = true)
    (hquoted' : m'.caseSensitive = true)
    (htypes : ∀ col ∈ m.columns, ColumnType.ofText col.type.text = .ok col.type)
    (htypes' : ∀ col ∈ m'.columns, ColumnType.ofText col.type.text = .ok col.type)
    {table table' : String} {keyspace keyspace' : Option String} {guard guard' : Bool}
    {statements : List String} (h : (m.create table keyspace guard).outcome = .ok statements)
    (h' : (m'.create table' keyspace' guard').outcome = .ok statements) :
    keyspace = keyspace' ∧ table = table' ∧ guard = guard' ∧ m.schema = m'.schema := by
  obtain ⟨hcreatable, hstatements⟩ := create_eq_ok_iff.mp h
  obtain ⟨hcreatable', hstatements'⟩ := create_eq_ok_iff.mp h'
  rw [hquoted] at hstatements
  rw [hstatements, hquoted'] at hstatements'
  obtain ⟨htable, hindexes⟩ := List.cons.inj hstatements'
  obtain ⟨⟨rfl, rfl, rfl⟩, hcolumns, hpartition, hclustering, hcompact⟩ :=
    tableStatement_unique hquoted hquoted' hcreatable.partitionKey hcreatable'.partitionKey
      (fun col hcol => ColumnType.ofText_canonical (htypes col hcol))
      (fun col hcol => ColumnType.ofText_canonical (htypes' col hcol)) htable
  rw [indexStatements_of_quoted hquoted, indexStatements_of_quoted hquoted'] at hindexes
  exact ⟨rfl, rfl, rfl,
    Schema.ext hcolumns hpartition hclustering hcompact (indexed_unique hindexes)⟩

/-- Reviews of shops. A name of theirs looks like two, and another like the end of a list. -/
def reviewType : EntityType where
  id := 0
  name := "Review"
  members :=
    [⟨"shop", .scalar .text⟩, ⟨"day\", \"hour", .scalar .timestamp⟩, ⟨"votes)", .scalar .bigint⟩,
      ⟨"tags", .list (.scalar .text)⟩]

def reviewsUnder (options : String → Option ColumnOptions) : Definition where
  caseSensitive := true
  compactStorage := true
  partitionKey := ["shop"]
  clusteringKey := [("day\", \"hour", .descending)]
  options := options

def reviews (options : String → Option ColumnOptions) : Mapping :=
  .ofColumns reviewType (reviewsUnder options)
    (reviewType.members.filterMap (reviewsUnder options).columnOf?)

/-- Votes marked as a counter, and tags as frozen. -/
def markedReviews : Mapping := reviews fun member =>
  if member = "votes)" then some { counter := true }
  else if member = "tags" then some { frozen := true, indexed := true }
  else none

/-- The same by types. -/
def typedReviews : Mapping := reviews fun member =>
  if member = "votes)" then some { type := some (.scalar .counter) }
  else if member = "tags" then
    some { type := some (.frozen (.list (.scalar .text))), indexed := true }
  else none

def reviewStatements : List String :=
  ["CREATE TABLE IF NOT EXISTS \"my.site\".\"Reviews (\" (\"shop\" text, " ++
      "\"day\"\", \"\"hour\" timestamp, \"votes)\" counter, \"tags\" frozen<list<text>>, " ++
      "PRIMARY KEY (\"shop\", \"day\"\", \"\"hour\")) WITH CLUSTERING ORDER BY " ++
      "(\"day\"\", \"\"hour\" DESC) AND COMPACT STORAGE",
    "CREATE INDEX IF NOT EXISTS ON \"my.site\".\"Reviews (\" (\"tags\")"]

/-- One table is created by either of two mappings, which say the same about it. -/
theorem create_determines_schema_reviews :
    (markedReviews.create "Reviews (" (some "my.site") true).outcome = .ok reviewStatements ∧
      (typedReviews.create "Reviews (" (some "my.site") true).outcome = .ok reviewStatements ∧
      markedReviews.columns.map Column.counter ≠ typedReviews.columns.map Column.counter ∧
      markedReviews.schema = typedReviews.schema := by
  have hcanonical : ∀ t ∈ markedReviews.columns.map Column.type ++
      typedReviews.columns.map Column.type, t.Canonical :=
    ColumnType.allCanonical_iff.mp
      ⟨trivial, trivial, trivial, trivial, trivial, trivial, trivial, ⟨id, trivial⟩, trivial⟩
  have hmarked : (markedReviews.create "Reviews (" (some "my.site") true).outcome =
      .ok reviewStatements :=
    create_eq_ok_iff.mpr ⟨checkTable_eq_ok_iff.mp rfl, by decide +kernel⟩
  have htyped : (typedReviews.create "Reviews (" (some "my.site") true).outcome =
      .ok reviewStatements :=
    create_eq_ok_iff.mpr ⟨checkTable_eq_ok_iff.mp rfl, by decide +kernel⟩
  have hschema := create_determines_schema rfl rfl
    (fun col hcol => ColumnType.ofText_text
      (hcanonical _ (List.mem_append_left _ (List.mem_map_of_mem hcol))))
    (fun col hcol => ColumnType.ofText_text
      (hcanonical _ (List.mem_append_right _ (List.mem_map_of_mem hcol))))
    hmarked htyped
  exact ⟨hmarked, htyped, by decide +kernel, hschema.2.2.2⟩

end Mapping

end TypedCql
