import TypedCql.Codec.Statement
import TypedCql.Proofs.ValueReading

/-!
# Statements and rows read back from their documents

A record is written with its fields in their order, so the reader finds each of them once
(`namedFields_of_names`). The values in it come back under the same condition as values alone do: the
document must not be nested deeper than the reader follows.
-/

namespace TypedCql

/-! ## Records -/

namespace Codec

/-- A name that no field has is passed over. -/
theorem namedFields_cons {specs : List FieldSpec} {name : String}
    (h : name ∉ specs.map (·.name)) (value : α) (entries : List (String × α)) :
    namedFields specs ((name, value) :: entries) = namedFields specs entries := by
  induction specs with
  | nil => rfl
  | cons spec specs ih =>
      rw [List.map_cons, List.mem_cons, not_or] at h
      have hfilter : ((name, value) :: entries).filter (·.1 == spec.name) =
          entries.filter (·.1 == spec.name) := by
        rw [List.filter_cons_of_neg]
        simpa using h.1
      have hrest := ih h.2
      simp only [namedFields] at hrest ⊢
      rw [List.mapM_cons, List.mapM_cons, hfilter, hrest]

/-- The fields of a record that has each of them once, in their order. -/
theorem namedFields_of_names {specs : List FieldSpec} (hnames : (specs.map (·.name)).Nodup)
    {entries : List (String × α)} (h : entries.map Prod.fst = specs.map (·.name)) :
    namedFields specs entries = some (entries.map fun entry => some entry.2) := by
  induction specs generalizing entries with
  | nil =>
      rw [List.map_eq_nil_iff.mp h]
      rfl
  | cons spec specs ih =>
      obtain ⟨⟨name, value⟩, rest, rfl, hname, hrest⟩ := List.map_eq_cons_iff.mp h
      obtain rfl : name = spec.name := hname
      rw [List.map_cons, List.nodup_cons] at hnames
      have hfilter : ((spec.name, value) :: rest).filter (·.1 == spec.name) =
          [(spec.name, value)] := by
        rw [List.filter_cons_of_pos (by simp), List.filter_eq_nil_iff.mpr]
        intro entry hentry hname
        apply hnames.1
        rw [← hrest, ← eq_of_beq hname]
        exact List.mem_map_of_mem hentry
      have hlater := ih hnames.2 hrest
      rw [← namedFields_cons hnames.1 value, namedFields] at hlater
      rw [namedFields, List.mapM_cons, hfilter, hlater]
      rfl

end Codec

namespace Json

/-- The parts of a written record are its fields. -/
theorem record?_ofFields {specs : List Codec.FieldSpec} (hnames : (specs.map (·.name)).Nodup)
    {fields : List (String × Json)} (h : fields.map Prod.fst = specs.map (·.name)) {depth : Nat}
    (hdepth : 1 < depth) :
    (ofFields fields).record? specs depth =
      some (fields.map fun field => some field.2, depth - 1) := by
  have hentries : (fields.map fun field => (spell field.1, field.2)).mapM (fun field =>
      (unspell? field.1).map fun key => (key, field.2)) = some fields :=
    mapM_written fun field _ => by simp
  have hfields := Codec.namedFields_of_names hnames h
  simp only [ofFields, record?, Value.inside?_of_lt hdepth, Option.bind_eq_bind, Option.bind_some,
    hentries, hfields]
  rfl

@[simp] theorem string?_ofText (s : String) : (ofText s).string? = some s := by
  simp [ofText, string?]

theorem items?_array {depth : Nat} (h : 1 < depth) (items : List Json) :
    (array items).items? depth = some (items, depth - 1) := by
  rw [items?, Value.inside?_of_lt h, Option.map_some]

end Json

/-! ## Statements and rows -/

namespace Statement

theorem toJson_spelt {s : Statement} (h : Value.ItemsExact s.params) : s.toJson.Spelt := by
  apply Json.ofFields_spelt
  simpa using ⟨Json.ofText_spelt s.cql, Value.itemsToJson_spelt s.params h⟩

/-- A statement comes back with its parameters in their order. -/
theorem ofJson?_toJson {s : Statement} (h : Value.ItemsExact s.params) :
    ofJson? s.toJson = if s.toJson.nesting < Value.depthLimit then some s else none := by
  have hrecord : s.toJson.record? [⟨"cql", .required⟩, ⟨"params", .required⟩] Value.depthLimit =
      some ([some (.ofText s.cql), some (.array (Value.itemsToJson s.params))], 127) :=
    Json.record?_ofFields (by decide) rfl (by decide)
  -- the record and the array of its parameters take one level each
  have hnesting : s.toJson.nesting < Value.depthLimit ↔
      Json.itemsNesting (Value.itemsToJson s.params) < 126 := by
    simp only [toJson, Json.ofFields, List.map_cons, List.map_nil, Json.nesting,
      Json.entriesNesting, Json.ofText, Value.depthLimit]
    omega
  simp only [ofJson?, hrecord, hnesting, Option.bind_eq_bind, Option.bind_some,
    Json.string?_ofText, Json.items?_array (show 1 < 127 by decide),
    Value.itemsOf?_itemsToJson s.params h 126 (by decide)]
  exact Value.bind_some_ite rfl (Statement.mk s.cql)

end Statement

namespace RowSet

/-- The values of all rows are exact. -/
def Exact (r : RowSet) : Prop := ∀ row ∈ r.rows, Value.ItemsExact row

/-- The array of rows in a document. -/
def rowsToJson (rows : List (List Value)) : List Json :=
  rows.map fun row => .array (Value.itemsToJson row)

theorem rowsToJson_cons (row : List Value) (rest : List (List Value)) :
    rowsToJson (row :: rest) = .array (Value.itemsToJson row) :: rowsToJson rest :=
  rfl

theorem toJson_spelt {r : RowSet} (h : r.Exact) : r.toJson.Spelt := by
  have hcolumns : Json.ItemsSpelt (r.columns.map .ofText) :=
    Json.itemsSpelt_map fun column _ => Json.ofText_spelt column
  have hrows : Json.ItemsSpelt (rowsToJson r.rows) :=
    Json.itemsSpelt_map fun row hrow => Value.itemsToJson_spelt row (h row hrow)
  apply Json.ofFields_spelt
  simpa using ⟨hcolumns, hrows⟩

/-- Every row is read one level less deep than the array of rows. -/
theorem mapM_rows {rows : List (List Value)} (h : ∀ row ∈ rows, Value.ItemsExact row) {depth : Nat}
    (hdepth : 1 < depth) :
    ((rowsToJson rows).mapM fun row => do
        let (items, depth) ← row.items? depth
        Value.itemsOf? items depth) =
      if Json.itemsNesting (rowsToJson rows) < depth then some rows else none := by
  induction rows with
  | nil => simp [rowsToJson, Json.itemsNesting, Nat.zero_lt_of_lt hdepth]
  | cons row rest ih =>
      rw [List.forall_mem_cons] at h
      have hrow := Value.itemsOf?_itemsToJson row h.1 (depth - 1) (by omega)
      have hrest := Value.bind_some_ite (ih h.2) (row :: ·)
      rw [rowsToJson_cons, List.mapM_cons, Json.items?_array hdepth]
      refine (Value.bind_ite hrow hrest).trans (if_congr ?_ rfl rfl)
      simp only [Json.itemsNesting, Json.nesting]
      omega

/-- Rows come back with the names of their columns, short rows and empty ones included. -/
theorem ofJson?_toJson {r : RowSet} (h : r.Exact) :
    ofJson? r.toJson = if r.toJson.nesting < Value.depthLimit then some r else none := by
  have hrecord : r.toJson.record? [⟨"columns", .required⟩, ⟨"rows", .required⟩] Value.depthLimit =
      some ([some (.array (r.columns.map .ofText)), some (.array (rowsToJson r.rows))], 127) :=
    Json.record?_ofFields (by decide) rfl (by decide)
  have hnesting : r.toJson.nesting < Value.depthLimit ↔
      Json.itemsNesting (rowsToJson r.rows) < 126 := by
    have htoJson : r.toJson = Json.ofFields [("columns", .array (r.columns.map .ofText)),
        ("rows", .array (rowsToJson r.rows))] := rfl
    have hflat : Json.itemsNesting (r.columns.map .ofText) = 0 := Json.itemsNesting_map fun _ _ => rfl
    simp only [htoJson, Json.ofFields, List.map_cons, List.map_nil, Json.nesting,
      Json.entriesNesting, hflat, Value.depthLimit]
    omega
  have hnames : (r.columns.map .ofText).mapM Json.string? = some r.columns :=
    Json.mapM_written fun column _ => Json.string?_ofText column
  have hrows := mapM_rows h (show 1 < 126 by decide)
  simp only [ofJson?, hrecord, hnesting, Option.bind_eq_bind, Option.bind_some,
    hnames, Json.items?_array (show 1 < 127 by decide)] at hrows ⊢
  exact Value.bind_some_ite hrows (RowSet.mk r.columns)

end RowSet

end TypedCql
