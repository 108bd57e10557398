import TypedCql.Proofs.CanonicalTypes
import TypedCql.Proofs.FileReading

/-!
# What the JSON form keeps

Values, statements, rows and mapping files come back from their JSON text as they were. The one limit
is that of the reader: it follows a document through 127 arrays and objects (`Value.depthLimit`), and a
value that is written deeper is lost as a whole (`deepLists_unread`).
-/

namespace TypedCql

/-- A value inside that many lists. -/
def inLists (v : Value) : Nat → Value
  | 0 => v
  | n + 1 => .list [inLists v n]

theorem inLists_exact {v : Value} (h : v.Exact) : ∀ n, (inLists v n).Exact
  | 0 => h
  | n + 1 => ⟨inLists_exact h n, trivial⟩

theorem nesting_inLists (v : Value) (n : Nat) :
    (inLists v n).toJson.nesting = v.toJson.nesting + 2 * n := by
  induction n with
  | zero => rfl
  | succ n ih =>
      rw [inLists, Value.toJson, Value.nesting_tagged, Json.nesting, Value.itemsToJson,
        Value.itemsToJson, Json.itemsNesting, Json.itemsNesting, ih]
      omega

/-- **The JSON form keeps everything.** What is written without floating-point numbers is read as what
it was: a value, statement or set of rows if its document is not nested too deep, and a mapping file
if the types of its columns are canonical. -/
theorem json_reads_written :
    (∀ v : Value, v.Exact → (Json.parse? v.toJson.render).bind (Value.ofJson? · Value.depthLimit) =
      if v.toJson.nesting < Value.depthLimit then some v else none) ∧
    (∀ s : Statement, Value.ItemsExact s.params →
      (Json.parse? s.toJson.render).bind Statement.ofJson? =
        if s.toJson.nesting < Value.depthLimit then some s else none) ∧
    (∀ r : RowSet, r.Exact → (Json.parse? r.toJson.render).bind RowSet.ofJson? =
      if r.toJson.nesting < Value.depthLimit then some r else none) ∧
    ∀ f : MappingFile, f.CanonicalTypes →
      (Json.parse? f.toJson.render).bind MappingFile.ofJson? = some f := by
  refine ⟨?_, ?_, ?_, ?_⟩
  · intro v hv
    rw [Json.parse?_render (Value.toJson_spelt v hv), Option.bind_some]
    exact Value.ofJson?_toJson v hv Value.depthLimit (by decide)
  · intro s hs
    rw [Json.parse?_render (Statement.toJson_spelt hs), Option.bind_some]
    exact Statement.ofJson?_toJson hs
  · intro r hr
    rw [Json.parse?_render (RowSet.toJson_spelt hr), Option.bind_some]
    exact RowSet.ofJson?_toJson hr
  · intro f hf
    rw [Json.parse?_render (MappingFile.toJson_spelt f), Option.bind_some]
    exact MappingFile.ofJson?_toJson hf

/-- An order placed before 1970, due in a leap second, with a name that needs escapes. -/
def quotedOrder : Value :=
  .udt [("name", .text "\"a\\b\"\n\x01é"), ("placed", .timestamp ⟨-1, 500000000⟩),
    ("due", .timestamp ⟨1483228799, 1250000000⟩), ("id", .uuid ⟨0x0123456789abcdef⟩),
    ("lines", .map [(.int (-7), .blob [0, 255]), (.int (-7), .tuple [.null, .bigint 1])])]

/-- A file with a column of a frozen type. -/
def orderFile : MappingFile :=
  ⟨[⟨"Order", none, some "shop", false, false, true, false, ["id"], [⟨"due", .descending⟩],
    [⟨"lines", some "Lines", some (.frozen (.list (.scalar .int))), false, false, true, false, false,
      false, false⟩]⟩]⟩

theorem quotedOrder_exact : quotedOrder.Exact := by
  have hplaced : Timestamp.IsInstant ⟨-1, 500000000⟩ := by decide
  have hdue : Timestamp.IsInstant ⟨1483228799, 1250000000⟩ := by decide
  simp [quotedOrder, Value.Exact, Value.FieldsExact, Value.EntriesExact, Value.ItemsExact, hplaced,
    hdue]

theorem orderFile_canonicalTypes : orderFile.CanonicalTypes := by
  have htype : (ColumnType.frozen (.list (.scalar .int))).Canonical := by
    simp [ColumnType.Canonical, ColumnType.IsFrozen]
  simp [MappingFile.CanonicalTypes, orderFile, ColumnType.ofText_text htype]

theorem json_reads_written_order :
    (quotedOrder.Exact ∧
      (Json.parse? quotedOrder.toJson.render).bind (Value.ofJson? · Value.depthLimit) =
        some quotedOrder) ∧
    (Json.parse? (Statement.toJson ⟨"INSERT", [quotedOrder]⟩).render).bind Statement.ofJson? =
      some ⟨"INSERT", [quotedOrder]⟩ ∧
    (Json.parse? (RowSet.toJson ⟨["o"], [[quotedOrder], []]⟩).render).bind RowSet.ofJson? =
      some ⟨["o"], [[quotedOrder], []]⟩ ∧
    orderFile.CanonicalTypes ∧
      (Json.parse? orderFile.toJson.render).bind MappingFile.ofJson? = some orderFile := by
  have hitems : Value.ItemsExact [quotedOrder] := ⟨quotedOrder_exact, trivial⟩
  have hrows : RowSet.Exact ⟨["o"], [[quotedOrder], []]⟩ := by
    intro row hrow
    obtain rfl | rfl : row = [quotedOrder] ∨ row = [] := by simpa using hrow
    · exact hitems
    · trivial
  refine ⟨⟨quotedOrder_exact, ?_⟩, ?_, ?_, orderFile_canonicalTypes,
    json_reads_written.2.2.2 orderFile orderFile_canonicalTypes⟩
  · rw [json_reads_written.1 quotedOrder quotedOrder_exact, if_pos (by decide)]
  · rw [json_reads_written.2.1 ⟨"INSERT", [quotedOrder]⟩ hitems, if_pos (by decide)]
  · rw [json_reads_written.2.2.1 ⟨["o"], [[quotedOrder], []]⟩ hrows, if_pos (by decide)]

/-- Sixty-four lists are an array and an object too many. -/
theorem deepLists_unread : (inLists .null 64).Exact ∧
    (Json.parse? (inLists .null 64).toJson.render).bind (Value.ofJson? · Value.depthLimit) ≠
      some (inLists .null 64) := by
  have hexact : (inLists .null 64).Exact := inLists_exact (v := .null) trivial 64
  have hnesting : (inLists .null 64).toJson.nesting = 128 := nesting_inLists .null 64
  refine ⟨hexact, ?_⟩
  rw [Json.parse?_render (Value.toJson_spelt _ hexact), Option.bind_some,
    Value.ofJson?_toJson _ hexact _ (by decide), if_neg (by rw [hnesting]; decide)]
  exact nofun

end TypedCql
