import TypedCql.Proofs.Placeholders
import TypedCql.Proofs.Renaming

/-!
# Names in statements

Whatever names a table has, if it quotes them, a reader of its statements finds them again, each in
its place and as it is, and nothing of them outside. The clauses of a statement begin with a text
and so keep the names apart that they are made of; from this and from what is known of the parts
(`compile_templated`), each statement is of one template for all variants of its table, and the
names of any variant are read back from that (`names_read_back`).
-/

namespace TypedCql

variable {t₀ : Table} {N : String → Prop} {P : List Template → Prop}

/-! ## Clauses -/

/-- The name of the table after a keyword. -/
theorem templated_table {t : String} (ht : Plain t) :
    Templated N Template.Leading fun v : t₀.Variant =>
      [.verbatim t, .verbatim v.table.qualifiedName] :=
  (Templated.one (x := .table) (P := Anywhere) .table trivial).text_cons ht

theorem templated_after {t : String} (ht : Plain t) {F : t₀.Variant → Fragment}
    (h : Templated N P F) :
    Templated N Template.Leading fun v => Fragment.after t (F v) := by
  unfold Fragment.after
  rcases h.isBlank_cases with hblank | hshown
  · simp only [(hblank _).1, if_true]
    exact .nil_leading
  · simp only [hshown, Bool.false_eq_true, if_false]
    exact h.text_cons ht

/-- A clause that is left out where there is nothing to list. -/
theorem templated_listing {α : Type} {render : α → Fragment} {xs : t₀.Variant → List α}
    (h : Listed N render xs) {t : String} (ht : Plain t) :
    Templated N Template.Leading fun v =>
      if (xs v).isEmpty then []
      else .verbatim t :: Fragment.joined ", " ((xs v).map render) := by
  obtain ⟨b, hb⟩ := h.isEmpty
  simp only [hb]
  cases b with
  | true => exact .nil_leading
  | false => exact (h.joined (by decide)).text_cons ht

theorem templated_limit {n : t₀.Variant → Option Int32} (h : Same n) :
    Templated N Template.Leading fun v => Fragment.limit (n v) := by
  obtain ⟨n, hn⟩ := h
  simp only [hn]
  cases n with
  | none => exact .nil_leading
  | some n => exact (Templated.value (.int n) (P := Anywhere) trivial).text_cons (by decide)

theorem templated_usingOptions (ttl : Option Int32) (timestamp : Option Timestamp) :
    Templated N Template.Leading fun _ : t₀.Variant => Fragment.usingOptions ttl timestamp := by
  have option {t : String} (ht : Plain t) (value : Value) :
      Templated N Anywhere fun _ : t₀.Variant => [.verbatim t, .value value] :=
    ((Templated.value value (P := Anywhere) trivial).text_cons ht).anywhere
  unfold Fragment.usingOptions
  refine templated_after (P := Anywhere) (by decide) ?_
  cases ttl <;> cases timestamp
  · exact .nil trivial
  · exact option (by decide) _
  · exact option (by decide) _
  · exact (option (by decide) _).separated (by decide) (option (by decide) _)

theorem templated_filtering {p : t₀.Variant → Parts} (h : PartsTemplated N p) :
    Templated N Template.Leading fun v => v.table.mapping.filteringClause (p v) := by
  obtain ⟨b, hb⟩ := h.allowFiltering
  have hallow : ∀ v : t₀.Variant, v.table.mapping.allowFiltering = t₀.mapping.allowFiltering :=
    fun v => v.renames.allowFiltering
  unfold Mapping.filteringClause
  simp only [hb, hallow]
  by_cases hfiltering : (b || t₀.mapping.allowFiltering) = true
  · simp only [if_pos hfiltering]
    exact .text_leading (by decide)
  · simp only [if_neg hfiltering]
    exact .nil_leading

/-! ## Statements -/

section Statements

variable {p : t₀.Variant → Parts}

theorem listed_columns {cols : List (t₀.Variant → Column)} (h : ∀ col ∈ cols, ColumnFamily col) :
    Listed N (fun i => [.name i]) fun v =>
      cols.map fun col => v.table.mapping.identifier (col v).name := by
  refine ⟨cols.map fun col v => v.table.mapping.identifier (col v).name, fun x hx => ?_,
    fun v => ?_⟩
  · obtain ⟨col, hcol, rfl⟩ := List.mem_map.mp hx
    exact Context.templated_column (h col hcol)
  · rw [List.map_map]
    rfl

theorem templated_fieldList (h : PartsTemplated N p) :
    Templated N Anywhere fun v => (p v).fieldList v.table.mapping := by
  obtain ⟨cols, hcols, hcolumns⟩ := columns_family t₀
  obtain ⟨b, hb⟩ := h.fields.isEmpty
  unfold Parts.fieldList Mapping.columnNames
  simp only [hb, hcolumns, List.map_map]
  cases b with
  | true => exact (listed_columns hcols).joined (by decide)
  | false => exact h.fields.joined (by decide)

theorem select_templated (h : PartsTemplated N p) :
    Templated N Anywhere fun v => (p v).select v.table.mapping v.table.qualifiedName := by
  have hfields := (templated_fieldList h).text_cons (t := "SELECT ") (by decide)
  have htable : Templated N Template.Leading fun v : t₀.Variant =>
      [.verbatim " FROM ", .verbatim v.table.qualifiedName] := templated_table (by decide)
  have hwhere := templated_after (t := " WHERE ") (by decide) (h.conditions .rows)
  have hgroup := templated_listing h.groupBy (t := " GROUP BY ") (by decide)
  have horder := templated_listing h.orderBy (t := " ORDER BY ") (by decide)
  have hlimit := templated_limit (N := N) h.limit
  exact hfields.append_leading htable |>.append_leading hwhere |>.append_leading hgroup
    |>.append_leading horder |>.append_leading hlimit |>.append_leading (templated_filtering h)

theorem count_templated (h : PartsTemplated N p) :
    Templated N Anywhere fun v => (p v).count v.table.mapping v.table.qualifiedName := by
  have htable : Templated N Template.Leading fun v : t₀.Variant =>
      [.verbatim "SELECT count(*) FROM ", .verbatim v.table.qualifiedName] := templated_table (by decide)
  have hwhere := templated_after (t := " WHERE ") (by decide) (h.conditions .rows)
  have hlimit := templated_limit (N := N) h.limit
  exact htable.append_leading hwhere |>.append_leading hlimit
    |>.append_leading (templated_filtering h)

theorem update_templated (h : PartsTemplated N p) (o : UpdateOptions) :
    Uniformly (Templated N Anywhere) fun v => (p v).update v.table.qualifiedName o := by
  obtain ⟨b, hb⟩ := h.assignments.isEmpty
  unfold Parts.update
  simp only [hb]
  cases b with
  | true => exact .error _
  | false =>
      have htable : Templated N Template.Leading fun v : t₀.Variant =>
          [.verbatim "UPDATE ", .verbatim v.table.qualifiedName] := templated_table (by decide)
      have hset := (h.assignments.joined (t := ", ") (by decide)).text_cons
        (t := " SET ") (by decide)
      have hwhere := templated_after (t := " WHERE ") (by decide) (h.conditions .rows)
      have hif := templated_after (t := " IF ") (by decide) (h.conditions .change)
      refine .ok ?_
      exact htable.append_leading (templated_usingOptions o.ttl o.timestamp)
        |>.append_leading hset |>.append_leading hwhere |>.append_leading hif

theorem delete_templated (h : PartsTemplated N p) (o : DeleteOptions) :
    Uniformly (Templated N Anywhere) fun v => (p v).delete v.table.qualifiedName o := by
  obtain ⟨noFields, hfields⟩ := h.fields.isEmpty
  obtain ⟨noAssignments, hassignments⟩ := h.assignments.isEmpty
  obtain ⟨noConditions, hconditions⟩ := (h.conditions .change).isBlank_same
  have hchange : ∀ v, (p v).changeConditions.isBlank = noConditions := hconditions
  have hguard : Templated N Template.Leading fun v =>
      if o.ifExists then [.verbatim " IF EXISTS"]
      else Fragment.after " IF " (p v).changeConditions := by
    cases o.ifExists with
    | true => exact .text_leading (by decide)
    | false => exact templated_after (by decide) (h.conditions .change)
  unfold Parts.delete
  simp only [hfields, hassignments, hchange]
  by_cases hprojected : (!noFields || !noAssignments) = true
  · simp only [if_pos hprojected]
    exact .error _
  · by_cases hboth : (o.ifExists && !noConditions) = true
    · simp only [if_neg hprojected, if_pos hboth]
      exact .error _
    · simp only [if_neg hprojected, if_neg hboth]
      have htable : Templated N Template.Leading fun v : t₀.Variant =>
          [.verbatim "DELETE FROM ", .verbatim v.table.qualifiedName] := templated_table (by decide)
      have hwhere := templated_after (t := " WHERE ") (by decide) (h.conditions .rows)
      refine .ok ?_
      exact htable.append_leading (templated_usingOptions none o.timestamp)
        |>.append_leading hwhere |>.append_leading hguard

/-- Values given to columns in one place each. -/
def GivenFamily (given : t₀.Variant → List (Column × Value)) : Prop :=
  ∃ l : List ((t₀.Variant → Column) × Value), (∀ x ∈ l, ColumnFamily x.1) ∧
    ∀ v, given v = l.map fun x => (x.1 v, x.2)

namespace GivenFamily

variable {given : t₀.Variant → List (Column × Value)}

theorem isEmpty (h : GivenFamily given) : Same fun v => (given v).isEmpty := by
  obtain ⟨l, -, hgiven⟩ := h
  simp only [hgiven, List.isEmpty_map]
  exact ⟨l.isEmpty, fun _ => rfl⟩

theorem names (h : GivenFamily given) :
    Listed N (fun i => [.name i]) fun v =>
      (given v).map fun x => v.table.mapping.identifier x.1.name := by
  obtain ⟨l, hl, hgiven⟩ := h
  have hcolumns : Listed N (fun i => [.name i]) fun v : t₀.Variant =>
      (l.map Prod.fst).map fun col => v.table.mapping.identifier (col v).name :=
    listed_columns fun col hcol => by
      obtain ⟨x, hx, rfl⟩ := List.mem_map.mp hcol
      exact hl x hx
  simp only [List.map_map] at hcolumns
  simp only [hgiven, List.map_map]
  exact hcolumns

theorem values (h : GivenFamily given) : Same fun v => (given v).map Prod.snd := by
  obtain ⟨l, -, hgiven⟩ := h
  simp only [hgiven, List.map_map]
  exact ⟨l.map Prod.snd, fun _ => rfl⟩

end GivenFamily

/-- The same columns are left out in all variants. -/
theorem keptColumns_uniform (insertNulls : Bool) {l : List ((t₀.Variant → Column) × Value)}
    (h : ∀ x ∈ l, ColumnFamily x.1) :
    Uniformly GivenFamily fun v => keptColumns insertNulls (l.map fun x => (x.1 v, x.2)) := by
  induction l with
  | nil => exact .ok ⟨[], h, fun _ => rfl⟩
  | cons x l ih =>
      obtain ⟨col, value⟩ := x
      have hcol : ColumnFamily col := h _ (List.mem_cons_self ..)
      have hrest := ih fun x hx => h x (List.mem_cons_of_mem _ hx)
      obtain ⟨counter, hcounter⟩ := hcol.same Column.counter fun _ => rfl
      simp only [List.map_cons, keptColumns, hcounter]
      cases counter with
      | true =>
          cases value.isNull with
          | true => exact hrest
          | false => exact .error _
      | false =>
          by_cases hskipped : (value.isNull && !insertNulls) = true
          · simp only [Bool.false_eq_true, if_false, if_pos hskipped]
            exact hrest
          · simp only [Bool.false_eq_true, if_false, if_neg hskipped]
            refine hrest.bind fun kept hkept => .ok ?_
            obtain ⟨l', hl', hkept⟩ := hkept
            refine ⟨(col, value) :: l', List.forall_mem_cons.mpr ⟨hcol, hl'⟩, fun v => ?_⟩
            show (col v, value) :: kept v = _
            rw [hkept v, List.map_cons]

theorem insert_templated (values : List Value) (o : InsertOptions) :
    Uniformly (Templated N Anywhere) fun v : t₀.Variant =>
      v.table.mapping.insert v.table.qualifiedName values o := by
  obtain ⟨cols, hcols, hcolumns⟩ := columns_family t₀
  have hgiven : ∀ v : t₀.Variant, v.table.mapping.columns.zip values =
      (cols.zip values).map fun x => (x.1 v, x.2) := by
    intro v
    rw [hcolumns v, List.zip_map_left]
    rfl
  have hlength : ∀ v : t₀.Variant, v.table.mapping.columns.length = cols.length := by
    intro v
    rw [hcolumns v, List.length_map]
  unfold Mapping.insert
  simp only [hlength, hgiven]
  by_cases hcount : values.length ≠ cols.length
  · simp only [if_pos hcount]
    exact .error _
  · simp only [if_neg hcount]
    have hzip : ∀ x ∈ cols.zip values, ColumnFamily x.1 := fun x hx =>
      hcols x.1 (List.of_mem_zip hx).1
    refine (keptColumns_uniform o.insertNulls hzip).bind fun kept hkept => ?_
    obtain ⟨nothing, hnothing⟩ := hkept.isEmpty
    obtain ⟨kept', hkept'⟩ := hkept.values
    simp only [hnothing, hkept']
    cases nothing with
    | true => exact .error _
    | false =>
        have htable : Templated N Template.Leading fun v : t₀.Variant =>
            [.verbatim "INSERT INTO ", .verbatim v.table.qualifiedName] := templated_table (by decide)
        have hnames := (hkept.names (N := N)).joined (t := ", ") (by decide)
          |>.text_cons (t := " (") (by decide)
        have hvalues : Templated N Template.Leading fun _ : t₀.Variant =>
            .verbatim ") VALUES (" :: Fragment.valueList kept' :=
          (Context.templated_valueList kept').text_cons (by decide)
        have hclose : Templated N Template.Leading fun _ : t₀.Variant => [.verbatim ")"] :=
          .text_leading (by decide)
        have hguard : Templated N Template.Leading fun _ : t₀.Variant =>
            if o.ifNotExists then [.verbatim " IF NOT EXISTS"] else [] := by
          cases o.ifNotExists with
          | true => exact .text_leading (by decide)
          | false => exact .nil_leading
        refine .ok ?_
        exact htable.append_leading hnames |>.append_leading hvalues |>.append_leading hclose
          |>.append_leading hguard |>.append_leading (templated_usingOptions o.ttl o.timestamp)

end Statements

/-! ## Commands -/

/-- The query on another table. -/
def Query.onTable (q : Query) (t : Table) : Query := { q with table := t }

namespace Command

/-- The command on another table. -/
def onTable : Command → Table → Command
  | .select q, t => .select (q.onTable t)
  | .count k, t => .count ⟨k.query.onTable t⟩
  | .change (.update q o), t => .change (.update (q.onTable t) o)
  | .change (.delete q o), t => .change (.delete (q.onTable t) o)
  | .change (.insert _ values o), t => .change (.insert t values o)

theorem onTable_table (k : Command) : k.onTable k.table = k := by
  cases k with
  | select | count => rfl
  | change c => cases c <;> rfl

/-- The text is the name of a key of the order, if the command has an order. -/
def OrderConstant : Command → String → Prop
  | .select q => q.expr.OrderConstant
  | .count k => k.query.expr.OrderConstant
  | .change (.update q _) => q.expr.OrderConstant
  | .change (.delete q _) => q.expr.OrderConstant
  | .change (.insert ..) => fun _ => False

/-- What is made of the parts of a query is of one template, if it is for all templated parts. -/
theorem query_templated {q : Query} {kind : StatementKind}
    {f : t₀.Variant → Parts → Outcome Fragment}
    (h : ∀ p, PartsTemplated q.expr.OrderConstant p →
      Uniformly (Templated q.expr.OrderConstant Anywhere) fun v => f v (p v)) :
    Uniformly (Templated q.expr.OrderConstant Anywhere) fun v : t₀.Variant =>
      ((q.onTable v.table).compile kind >>= fun p => .ofOutcome (f v p)).outcome := by
  simp only [Traced.outcome_bind]
  exact (Context.compile_templated kind fun _ hname => hname).bind
    (f := fun v p => f v p) h

/-- A command is built on all variants of its table or on none, from one template. -/
theorem fragment_templated (k : Command) :
    Uniformly (Templated k.OrderConstant Anywhere) fun v : k.table.Variant =>
      (k.onTable v.table).fragment.outcome := by
  cases k with
  | select q => exact query_templated fun p hp => .ok (select_templated hp)
  | count k => exact query_templated (q := k.query) fun p hp => .ok (count_templated hp)
  | change c =>
      cases c with
      | update q o => exact query_templated fun p hp => update_templated hp o
      | delete q o => exact query_templated fun p hp => delete_templated hp o
      | insert t values o => exact insert_templated values o

/-- The statements have the values of the template in common, and each is read as the template under
the names of its table. -/
theorem statement_templated (k : Command) :
    (∀ v : k.table.Variant, ∃ e, (k.onTable v.table).statement.outcome = .error e) ∨
      ∃ l, Template.WellFormed k.table k.OrderConstant l ∧ ∀ v : k.table.Variant, ∃ cql,
        (k.onTable v.table).statement.outcome = .ok ⟨cql, l.filterMap Template.value?⟩ ∧
          tokens? cql =
            some ((l.flatMap (Template.tokens k.table)).map (Token.map v.table.nameOf)) := by
  simp only [statement_outcome]
  rcases k.fragment_templated with hfail | ⟨F, ⟨l, hl, -, hF⟩, hok⟩
  · refine Or.inl fun v => ?_
    obtain ⟨e, he⟩ := hfail v
    exact ⟨e, congrArg (Except.map (Fragment.render .placeholder)) he⟩
  · refine Or.inr ⟨l, hl, fun v => ⟨(F v).text .placeholder, ?_, ?_⟩⟩
    · have hv : (k.onTable v.table).fragment.outcome = .ok (F v) := hok v
      rw [hv, ← Template.values_map_piece v.table, ← hF v]
      rfl
    · rw [tokens?, hF v, ← Template.charsAll_eq v, Template.scan_template v hl]

/-- **Names are read back.** A reader of the statement finds the names of its table in it, or those
that the query gives to the order, each as it is, and outside of them one question mark for each
parameter. With other names the command is built as well, or as little; the parameters and what is
outside of names stay, and in the place of each name there is the other one. -/
theorem names_read_back (k : Command) (hquoted : k.table.mapping.caseSensitive = true) :
    (∀ s, k.statement.outcome = .ok s → ∃ slots : List (Token NameSource),
      (∀ source, .name source ∈ slots → k.table.Sources k.OrderConstant source) ∧
        slots.count (.outside '?') = s.params.length ∧
        tokens? s.cql = some (slots.map (Token.map k.table.nameOf)) ∧
        ∀ t', k.table.Renames t' → ∃ cql,
          (k.onTable t').statement.outcome = .ok ⟨cql, s.params⟩ ∧
            tokens? cql = some (slots.map (Token.map t'.nameOf))) ∧
      ∀ t', k.table.Renames t' →
        ((∃ s, k.statement.outcome = .ok s) ↔ ∃ s, (k.onTable t').statement.outcome = .ok s) := by
  -- The table is a variant of itself, and so is every one that it is renamed to.
  let self : k.table.Variant := ⟨k.table, .refl _, hquoted⟩
  let renamed (t' : Table) (h : k.table.Renames t') : k.table.Variant :=
    ⟨t', h, h.caseSensitive.trans hquoted⟩
  rcases k.statement_templated with hfail | ⟨l, hl, hread⟩
  · have hself := hfail self
    rw [k.onTable_table] at hself
    obtain ⟨e, he⟩ := hself
    refine ⟨fun s hs => ?_, fun t' h => ⟨?_, ?_⟩⟩
    · exact nomatch he.symm.trans hs
    · rintro ⟨s, hs⟩
      exact nomatch he.symm.trans hs
    · rintro ⟨s, hs⟩
      obtain ⟨e', he'⟩ := hfail (renamed t' h)
      exact nomatch he'.symm.trans hs
  · have hself := hread self
    rw [k.onTable_table] at hself
    obtain ⟨cql, hcql, htokens⟩ := hself
    refine ⟨fun s hs => ?_, fun t' h => ?_⟩
    · obtain rfl : ⟨cql, l.filterMap Template.value?⟩ = s := Except.ok.inj (hcql.symm.trans hs)
      exact ⟨l.flatMap (Template.tokens k.table),
        fun source hmem => Template.sources_of_mem_tokens hl hmem, Template.count_tokens hl,
        htokens, fun t' h => hread (renamed t' h)⟩
    · obtain ⟨cql', hcql', -⟩ := hread (renamed t' h)
      exact ⟨fun _ => ⟨_, hcql'⟩, fun _ => ⟨_, hcql⟩⟩

/-- The table of people under other names. -/
def peopleUnder (rename : String → String) : Table where
  mapping :=
    { people with
      table := rename people.table
      columns := people.columns.map fun c => { c with name := rename c.name }
      caseSensitive := true }
  ownKeyspace := some (rename "app")

theorem peopleUnder_renames (rename rename' : String → String) :
    (peopleUnder rename).Renames (peopleUnder rename') where
  columns := rfl
  keyspace := rfl
  caseSensitive := rfl
  allowFiltering := rfl

/-- The people of some name, in an order that the query names itself. -/
def peopleNamed (t : Table) : Command :=
  .select (.ofOperators t
    [.filter (.binary .eq (.column "name") (.constant (.text "x"))),
      .orderBy (.constant (.text "\"?"))])

/-- The people under names that end in a quote, a question mark and a semicolon. -/
def strangePeople : Table := peopleUnder fun name => name ++ "\"?; "

example : ((peopleNamed strangePeople).statement.outcome.toOption.map Statement.cql) =
    some ("SELECT \"id\"\"?; \", \"name\"\"?; \", \"active\"\"?; \", \"verified\"\"?; \"" ++
      " FROM \"app\"\"?; \".\"Person\"\"?; \" WHERE \"name\"\"?; \" = ? ORDER BY \"\"\"?\"") := by
  decide +kernel

/-- All the same, they are read back, and there is one question mark outside of them, as there is
under usual names. -/
theorem names_read_back_people :
    strangePeople.mapping.caseSensitive = true ∧
      ∃ s cql, ∃ slots : List (Token NameSource),
        (peopleNamed strangePeople).statement.outcome = .ok s ∧
          (peopleNamed (peopleUnder id)).statement.outcome = .ok ⟨cql, s.params⟩ ∧
          slots.count (.outside '?') = 1 ∧
          tokens? s.cql = some (slots.map (Token.map strangePeople.nameOf)) ∧
          tokens? cql = some (slots.map (Token.map (peopleUnder id).nameOf)) := by
  have hquoted : strangePeople.mapping.caseSensitive = true := rfl
  have hrenames : strangePeople.Renames (peopleUnder id) := peopleUnder_renames _ _
  obtain ⟨s, hs, hone⟩ : ∃ s, (peopleNamed strangePeople).statement.outcome = .ok s ∧
      s.params.length = 1 := ⟨_, rfl, rfl⟩
  obtain ⟨slots, -, hcount, htokens, hrenamed⟩ :=
    (names_read_back (peopleNamed strangePeople) hquoted).1 s hs
  obtain ⟨cql, hcql, hother⟩ := hrenamed (peopleUnder id) hrenames
  exact ⟨hquoted, s, cql, slots, hs, hcql, hcount.trans hone, htokens, hother⟩

end Command

end TypedCql
