import TypedCql.Proofs.AssignmentKinds
import TypedCql.Query.Command

/-!
# What an insertion writes

An insertion names some columns, shows a placeholder for each of them, and binds a value to each
placeholder. The three lists are made from one list of columns with their values, `Mapping.kept`,
so whichever columns are left out, the placeholder at a position belongs to the column named there
and binds the value that was given for this column. The options come after all of them, in the text
and among the parameters.
-/

namespace TypedCql

/-! ## Columns that are kept -/

/-- Whether the column is written with the value. A counter never is. -/
def Column.takes (col : Column) (insertNulls : Bool) (v : Value) : Bool :=
  !col.counter && (!v.isNull || insertNulls)

/-- The columns that an insertion writes, in their order, with their values. -/
def Mapping.kept (m : Mapping) (values : List Value) (o : InsertOptions) : List (Column × Value) :=
  (m.columns.zip values).filter fun x => x.1.takes o.insertNulls x.2

/-- The columns are kept that take their values, unless a counter has a value. -/
theorem keptColumns_eq_ok_iff {insertNulls : Bool} {given kept : List (Column × Value)} :
    keptColumns insertNulls given = .ok kept ↔
      (∀ x ∈ given, x.1.counter = true → x.2.isNull = true) ∧
        kept = given.filter fun x => x.1.takes insertNulls x.2 := by
  induction given generalizing kept with
  | nil =>
      constructor
      · intro h
        exact ⟨fun x hx => absurd hx List.not_mem_nil, (Except.ok.inj h).symm⟩
      · rintro ⟨-, rfl⟩
        rfl
  | cons x rest ih =>
      obtain ⟨col, v⟩ := x
      rw [List.forall_mem_cons]
      cases hcounter : col.counter with
      | true =>
          have htakes : col.takes insertNulls v = false := by
            rw [Column.takes, hcounter]
            rfl
          cases hnull : v.isNull with
          | true => simp [keptColumns, hcounter, hnull, htakes, ih]
          | false => simp [keptColumns, hcounter, hnull]
      | false =>
          have hskipped : (v.isNull && !insertNulls) = !col.takes insertNulls v := by
            rw [Column.takes, hcounter]
            cases v.isNull <;> cases insertNulls <;> rfl
          cases htakes : col.takes insertNulls v with
          | false => simp [keptColumns, hcounter, hskipped, htakes, ih]
          | true =>
              have hcons : keptColumns insertNulls ((col, v) :: rest) =
                  keptColumns insertNulls rest >>= fun kept => pure ((col, v) :: kept) := by
                simp only [keptColumns, hcounter, hskipped, htakes]
                rfl
              have hfilter : ((col, v) :: rest).filter (fun x => x.1.takes insertNulls x.2) =
                  (col, v) :: rest.filter fun x => x.1.takes insertNulls x.2 :=
                List.filter_cons_of_pos htakes
              rw [hcons, Outcome.bind_eq_ok, hfilter]
              constructor
              · rintro ⟨later, hlater, hkept⟩
                obtain ⟨hrest, rfl⟩ := ih.mp hlater
                exact ⟨⟨nofun, hrest⟩, (Except.ok.inj hkept).symm⟩
              · rintro ⟨⟨-, hrest⟩, rfl⟩
                exact ⟨_, ih.mpr ⟨hrest, rfl⟩, rfl⟩

/-! ## The statement -/

namespace Mapping

/-- The insertion of some values into their columns. -/
def insertion (m : Mapping) (table : String) (kept : List (Column × Value)) (o : InsertOptions) :
    Fragment :=
  [.verbatim "INSERT INTO ", .verbatim table, .verbatim " ("]
    ++ Fragment.nameList (kept.map fun x => m.identifier x.1.name)
    ++ .verbatim ") VALUES (" :: Fragment.valueList (kept.map Prod.snd) ++ [.verbatim ")"]
    ++ (if o.ifNotExists then [.verbatim " IF NOT EXISTS"] else [])
    ++ Fragment.usingOptions o.ttl o.timestamp

variable {m : Mapping} {table : String} {values : List Value} {o : InsertOptions}

theorem insert_eq_ok_iff {f : Fragment} :
    m.insert table values o = .ok f ↔
      values.length = m.columns.length ∧
        (∀ x ∈ m.columns.zip values, x.1.counter = true → x.2.isNull = true) ∧
          m.kept values o ≠ [] ∧ f = m.insertion table (m.kept values o) o := by
  unfold insert
  dsimp only
  split
  · next hcount => exact ⟨nofun, fun h => absurd h.1 hcount⟩
  · next hcount =>
      rw [Outcome.bind_eq_ok]
      constructor
      · rintro ⟨kept, hkept, h⟩
        obtain ⟨hcounters, rfl⟩ := keptColumns_eq_ok_iff.mp hkept
        split at h
        · exact nomatch h
        · next hempty =>
            refine ⟨not_not.mp hcount, hcounters, ?_, (Except.ok.inj h).symm⟩
            intro hnil
            exact hempty (List.isEmpty_iff.mpr hnil)
      · rintro ⟨-, hcounters, hnonempty, rfl⟩
        refine ⟨_, keptColumns_eq_ok_iff.mpr ⟨hcounters, rfl⟩, ?_⟩
        rw [if_neg]
        · rfl
        · exact fun hempty => hnonempty (List.isEmpty_iff.mp hempty)

end Mapping

/-! ## The two lists -/

namespace InsertOptions

/-- What the options are in the text, each of their values behind a placeholder. -/
def clauses (o : InsertOptions) : String :=
  (if o.ifNotExists then " IF NOT EXISTS" else "") ++
    match o.ttl, o.timestamp with
    | none, none => ""
    | some _, none => " USING TTL ?"
    | none, some _ => " USING TIMESTAMP ?"
    | some _, some _ => " USING TTL ? AND TIMESTAMP ?"

/-- The time to live comes first, and then the time of writing, in microseconds. -/
def params (o : InsertOptions) : List Value :=
  o.ttl.toList.map .int ++ o.timestamp.toList.map fun t => .bigint (Int64.ofInt t.micros)

end InsertOptions

namespace Fragment

theorem text_nameList (names : List Identifier) (mode : BindMode) :
    text mode (nameList names) = ", ".intercalate (names.map Identifier.text) := by
  rw [nameList, text_joined, List.map_map]
  rfl

theorem values_nameList (names : List Identifier) : values (nameList names) = [] := by
  rw [nameList, values_joined, List.flatMap_map]
  exact List.flatMap_eq_nil_iff.mpr fun i _ => rfl

theorem text_valueList (items : List Value) :
    text .placeholder (valueList items) =
      ", ".intercalate (List.replicate items.length "?") := by
  rw [valueList, text_joined, List.map_map]
  congr 1
  exact List.map_eq_replicate_iff.mpr fun v _ => rfl

theorem values_valueList (items : List Value) : values (valueList items) = items := by
  rw [valueList, values_joined, List.flatMap_map]
  exact List.flatMap_singleton' items

theorem text_insertOptions (o : InsertOptions) :
    text .placeholder ((if o.ifNotExists then [.verbatim " IF NOT EXISTS"] else []) ++
      usingOptions o.ttl o.timestamp) = o.clauses := by
  obtain ⟨ifNotExists, ttl, timestamp, _⟩ := o
  cases ifNotExists <;> cases ttl <;> cases timestamp <;> rfl

theorem values_insertOptions (o : InsertOptions) :
    values ((if o.ifNotExists then [.verbatim " IF NOT EXISTS"] else []) ++
      usingOptions o.ttl o.timestamp) = o.params := by
  obtain ⟨ifNotExists, ttl, timestamp, _⟩ := o
  cases ifNotExists <;> cases ttl <;> cases timestamp <;> rfl

end Fragment

namespace Mapping

variable {m : Mapping} {table : String} {values : List Value} {o : InsertOptions}

/-- The statement that names the columns, with a placeholder for each of their values. -/
def insertStatement (m : Mapping) (table : String) (kept : List (Column × Value))
    (o : InsertOptions) : Statement where
  cql :=
    "INSERT INTO " ++ table ++
      " (" ++ ", ".intercalate (kept.map fun x => (m.identifier x.1.name).text) ++
      ") VALUES (" ++ ", ".intercalate (List.replicate kept.length "?") ++ ")" ++ o.clauses
  params := kept.map Prod.snd ++ o.params

theorem text_insertion (m : Mapping) (table : String) (kept : List (Column × Value))
    (o : InsertOptions) :
    (m.insertion table kept o).text .placeholder = (m.insertStatement table kept o).cql := by
  unfold insertStatement
  dsimp only
  rw [insertion, List.append_assoc, Fragment.text_append, Fragment.text_insertOptions]
  simp only [Fragment.text_append, Fragment.text_cons, Fragment.text_nil, Fragment.text_nameList,
    Fragment.text_valueList, Piece.text, List.map_map, List.length_map, String.append_assoc,
    String.append_empty, List.cons_append]
  rfl

theorem values_insertionLists (m : Mapping) (table : String) (kept : List (Column × Value)) :
    Fragment.values ([.verbatim "INSERT INTO ", .verbatim table, .verbatim " ("] ++
      Fragment.nameList (kept.map fun x => m.identifier x.1.name) ++
        .verbatim ") VALUES (" :: Fragment.valueList (kept.map Prod.snd) ++ [.verbatim ")"]) =
      kept.map Prod.snd := by
  rw [Fragment.values_append, Fragment.values_append, Fragment.values_append,
    Fragment.values_cons (.verbatim ") VALUES ("), Fragment.values_nameList,
    Fragment.values_valueList]
  exact List.append_nil _

theorem values_insertion (m : Mapping) (table : String) (kept : List (Column × Value))
    (o : InsertOptions) :
    (m.insertion table kept o).values = (m.insertStatement table kept o).params := by
  rw [insertion, List.append_assoc, Fragment.values_append, Fragment.values_insertOptions,
    values_insertionLists]
  rfl

theorem render_insertion (m : Mapping) (table : String) (kept : List (Column × Value))
    (o : InsertOptions) :
    (m.insertion table kept o).render .placeholder = m.insertStatement table kept o := by
  show Statement.mk ((m.insertion table kept o).text .placeholder) (m.insertion table kept o).values
    = _
  rw [text_insertion, values_insertion]

/-- What an insertion is refused for, besides a wrong number of values. -/
theorem counter_given_iff {columns : List Column} {values : List Value} :
    (¬∀ x ∈ columns.zip values, x.1.counter = true → x.2.isNull = true) ↔
      ∃ (i : Nat) (col : Column) (v : Value), columns[i]? = some col ∧ values[i]? = some v ∧
        col.counter = true ∧ v.isNull = false := by
  constructor
  · intro h
    simp only [not_forall, exists_prop, Bool.not_eq_true] at h
    obtain ⟨⟨col, v⟩, hmem, hcounter, hnull⟩ := h
    obtain ⟨i, hi⟩ := List.mem_iff_getElem?.mp hmem
    obtain ⟨hcol, hv⟩ := List.getElem?_zip_eq_some.mp hi
    exact ⟨i, col, v, hcol, hv, hcounter, hnull⟩
  · rintro ⟨i, col, v, hcol, hv, hcounter, hnull⟩ h
    have hmem : (col, v) ∈ columns.zip values :=
      List.mem_of_getElem? (List.getElem?_zip_eq_some.mpr ⟨hcol, hv⟩)
    rw [h _ hmem hcounter] at hnull
    exact Bool.noConfusion hnull

/-- An insertion is refused if there is not one value for each column, if a counter is given a
value, or if nothing is left to write. -/
theorem insert_eq_error_iff :
    (∃ err, m.insert table values o = .error err) ↔
      values.length ≠ m.columns.length ∨
        (∃ (i : Nat) (col : Column) (v : Value), m.columns[i]? = some col ∧
          values[i]? = some v ∧ col.counter = true ∧ v.isNull = false) ∨
        m.kept values o = [] := by
  rw [← counter_given_iff]
  constructor
  · rintro ⟨err, herr⟩
    by_contra hnone
    rw [not_or, not_or, not_not, not_not] at hnone
    obtain ⟨hcount, hcounters, hnonempty⟩ := hnone
    have hok : m.insert table values o = .ok _ :=
      insert_eq_ok_iff.mpr ⟨hcount, hcounters, hnonempty, rfl⟩
    exact nomatch herr.symm.trans hok
  · intro hrefused
    cases hinsert : m.insert table values o with
    | error err => exact ⟨err, rfl⟩
    | ok f =>
        obtain ⟨hcount, hcounters, hnonempty, -⟩ := insert_eq_ok_iff.mp hinsert
        rcases hrefused with h | h | h
        · exact absurd hcount h
        · exact absurd hcounters h
        · exact absurd h hnonempty

/-- What is kept at a position was given at one position of the two lists. -/
theorem kept_getElem? {j : Nat} {x : Column × Value} (h : (m.kept values o)[j]? = some x) :
    ∃ i : Nat, m.columns[i]? = some x.1 ∧ values[i]? = some x.2 := by
  have hmem : x ∈ m.columns.zip values := (List.mem_filter.mp (List.mem_of_getElem? h)).1
  obtain ⟨i, hi⟩ := List.mem_iff_getElem?.mp hmem
  exact ⟨i, List.getElem?_zip_eq_some.mp hi⟩

/-- Of an entity each column is given the value of its own member. -/
theorem kept_entity (m : Mapping) (valueOf : Column → Value) (o : InsertOptions) :
    m.kept (m.columns.map valueOf) o =
      (m.columns.filter fun col => col.takes o.insertNulls (valueOf col)).map
        fun col => (col, valueOf col) := by
  rw [kept, ← List.map_prod_left_eq_zip, List.filter_map]
  rfl

end Mapping

/-- The value of the column's member in an entity. -/
def Column.valueIn (col : Column) (valueOf : String → Option Value) : Value :=
  (valueOf col.member.name).getD .null

namespace Change

theorem statement_insert (t : Table) (values : List Value) (o : InsertOptions) :
    (insert t values o).statement.outcome =
      (t.mapping.insert t.qualifiedName values o).map (Fragment.render .placeholder) :=
  Traced.outcome_bind_of_ok _ fun _ => rfl

/-- **Insertions bind each value to its own column.** Take any mapping, table, values and options.
The insertion is refused exactly if there is not one value for each column, if a counter is given a
value, or if no column is kept. Otherwise its statement names the columns that are kept in their
order, shows one placeholder for each of them, and binds their values in the same order and then
those of the options; so the value bound at a position is the one given for the column named there.
In the insertion of an entity this is the value of the member that the column maps. -/
theorem insert_binds (m : Mapping) (table : String) (values : List Value) (o : InsertOptions) :
    ((∃ err, m.insert table values o = .error err) ↔
      values.length ≠ m.columns.length ∨
        (∃ (i : Nat) (col : Column) (v : Value), m.columns[i]? = some col ∧
          values[i]? = some v ∧ col.counter = true ∧ v.isNull = false) ∨
        m.kept values o = []) ∧
    (∀ f, m.insert table values o = .ok f →
      f.render .placeholder = m.insertStatement table (m.kept values o) o ∧
        ∀ (j : Nat) (col : Column) (v : Value), (m.kept values o)[j]? = some (col, v) →
          (f.params .placeholder)[j]? = some v ∧
            ∃ i : Nat, m.columns[i]? = some col ∧ values[i]? = some v) ∧
    ∀ (t : Table) (valueOf : String → Option Value) (s : Statement),
      (ofEntity t valueOf o).statement.outcome = .ok s →
        s = t.mapping.insertStatement t.qualifiedName
          ((t.mapping.columns.filter fun col =>
              col.takes o.insertNulls (col.valueIn valueOf)).map fun col =>
            (col, col.valueIn valueOf)) o := by
  refine ⟨Mapping.insert_eq_error_iff, ?_, ?_⟩
  · intro f hf
    obtain ⟨-, -, -, rfl⟩ := Mapping.insert_eq_ok_iff.mp hf
    refine ⟨Mapping.render_insertion m table _ o, fun j col v hj => ⟨?_, Mapping.kept_getElem? hj⟩⟩
    show (Fragment.values _)[j]? = some v
    rw [Mapping.values_insertion]
    have hvalue : ((m.kept values o).map Prod.snd)[j]? = some v := by
      rw [List.getElem?_map, hj]
      rfl
    obtain ⟨hlt, -⟩ := List.getElem?_eq_some_iff.mp hvalue
    exact (List.getElem?_append_left hlt).trans hvalue
  · intro t valueOf s hs
    rw [ofEntity, statement_insert] at hs
    obtain ⟨f, hf, rfl⟩ := Outcome.map_eq_ok.mp hs
    obtain ⟨-, -, -, rfl⟩ := Mapping.insert_eq_ok_iff.mp hf
    rw [Mapping.render_insertion, ← Mapping.kept_entity]
    rfl

/-- A page that has been marked, and that nobody has read yet. -/
def markedPage : String → Option Value
  | "marks" => some (.set [.int 1])
  | "title" => some (.text "Engines")
  | _ => none

def forAMinute : InsertOptions := { ttl := some 60, timestamp := some ⟨5, 7000⟩ }

theorem insert_binds_markedPage :
    ∃ s, (ofEntity { mapping := Context.pages } markedPage forAMinute).statement.outcome = .ok s ∧
      s.cql = "INSERT INTO Page (marks, title) VALUES (?, ?) USING TTL ? AND TIMESTAMP ?" ∧
      s.params = [.set [.int 1], .text "Engines", .int 60, .bigint 5000007] := by
  obtain ⟨s, hs⟩ : ∃ s, (ofEntity { mapping := Context.pages } markedPage
      forAMinute).statement.outcome = .ok s := ⟨_, rfl⟩
  obtain ⟨-, -, hentity⟩ := insert_binds Context.pages "Page" [] forAMinute
  refine ⟨s, hs, ?_⟩
  rw [hentity { mapping := Context.pages } markedPage s hs]
  exact ⟨rfl, rfl⟩

end Change

end TypedCql
