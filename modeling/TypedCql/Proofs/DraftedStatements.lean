import TypedCql.Drafting.Command
import TypedCql.Proofs.DraftedWalk
import TypedCql.Proofs.Insertions

/-!
# Statements from drafts

The assemblers on drafts write the renderings of the statements on fragments. Each operation on a
draft is one equation about renderings: applied to the rendering of a fragment it gives the
rendering of a longer one. A statement is a chain of such operations, so its rendering is that of
the chain of fragments, in both modes.
-/

namespace TypedCql

namespace Field

theorem values_fragment : ∀ f : Field, f.fragment.values = []
  | .column _ => rfl
  | .countAll => rfl
  | .aggregate _ f => by
      show Fragment.values (f.fragment ++ [.verbatim ")"]) = []
      rw [Fragment.values_append, values_fragment f]
      rfl

end Field

/-! ## Operations on renderings -/

namespace Draft

variable {mode : BindMode} {f : Fragment}

theorem ofFragment_nil (mode : BindMode) : ofFragment mode [] = empty mode := by
  cases mode <;> rfl

/-- Text without values. -/
theorem append_text (g : Fragment) (h : g.values = []) :
    (ofFragment mode f).append (g.text mode) = ofFragment mode (f ++ g) := by
  unfold ofFragment append
  rw [Fragment.text_append, Fragment.params_append, Fragment.params_of_values_eq_nil h,
    List.append_nil]

theorem append_ofFragment (text : String) :
    (ofFragment mode f).append text = ofFragment mode (f ++ [.verbatim text]) :=
  extend_ofFragment mode f [.verbatim text]

/-- A clause brings its values with it. -/
theorem appendClause_ofFragment (keyword : String) (g : Fragment) :
    (ofFragment mode f).appendClause keyword (ofFragment mode g) =
      ofFragment mode (f ++ Fragment.after keyword g) := by
  unfold appendClause Fragment.after
  rw [isEmpty_ofFragment]
  split
  · rw [List.append_nil]
  · have htext : Fragment.text mode (f ++ .verbatim keyword :: g) =
        f.text mode ++ keyword ++ g.text mode := by
      rw [Fragment.text_append, Fragment.text_cons, String.append_assoc]
      rfl
    have hparams : Fragment.params mode (f ++ .verbatim keyword :: g) =
        f.params mode ++ g.params mode := by
      rw [Fragment.params_append]
      exact congrArg _ (Fragment.params_congr rfl mode)
    unfold ofFragment
    rw [htext, hparams]
    rfl

theorem appendList_ofFragment (keyword : String) {gs : List Fragment}
    (h : ∀ g ∈ gs, g.values = []) :
    (ofFragment mode f).appendList keyword (gs.map (Fragment.text mode)) =
      ofFragment mode
        (f ++ if gs.isEmpty then [] else .verbatim keyword :: Fragment.joined ", " gs) := by
  unfold appendList
  rw [List.isEmpty_map]
  split
  · rw [List.append_nil]
  · have htext : keyword ++ ", ".intercalate (gs.map (Fragment.text mode)) =
        Fragment.text mode (.verbatim keyword :: Fragment.joined ", " gs) := by
      rw [Fragment.text_cons, Fragment.text_joined]
      rfl
    have hvalues : Fragment.values (.verbatim keyword :: Fragment.joined ", " gs) = [] :=
      Fragment.values_joined_eq_nil h
    rw [htext, append_text _ hvalues]

theorem appendNames_ofFragment (keyword : String) (names : List Identifier) :
    (ofFragment mode f).appendList keyword (names.map Identifier.text) =
      ofFragment mode
        (f ++ if names.isEmpty then [] else .verbatim keyword :: Fragment.nameList names) := by
  have htexts : names.map Identifier.text =
      (names.map fun i => [.name i]).map (Fragment.text mode) := by
    rw [List.map_map]
    exact List.map_congr_left fun i _ => by simp [Piece.text]
  rw [htexts, appendList_ofFragment keyword, List.isEmpty_map]
  · rfl
  · intro g hg
    obtain ⟨i, -, rfl⟩ := List.mem_map.mp hg
    rfl

theorem appendKeys_ofFragment (keyword : String) (keys : List OrderKey) :
    (ofFragment mode f).appendList keyword
        ((keys.map fun k => (k.column.text, k.ascending)).map
          fun k => if k.2 then k.1 else k.1 ++ " DESC") =
      ofFragment mode
        (f ++ if keys.isEmpty then []
          else .verbatim keyword :: Fragment.joined ", " (keys.map OrderKey.fragment)) := by
  have htexts : ((keys.map fun k => (k.column.text, k.ascending)).map
      fun k => if k.2 then k.1 else k.1 ++ " DESC") =
        (keys.map OrderKey.fragment).map (Fragment.text mode) := by
    rw [List.map_map, List.map_map]
    refine List.map_congr_left fun k _ => ?_
    obtain ⟨column, ascending⟩ := k
    cases ascending <;> simp [OrderKey.fragment, Piece.text]
  rw [htexts, appendList_ofFragment keyword, List.isEmpty_map]
  intro g hg
  obtain ⟨k, -, rfl⟩ := List.mem_map.mp hg
  unfold OrderKey.fragment
  split <;> rfl

theorem appendIf_ofFragment (condition : Bool) (text : String) :
    (ofFragment mode f).appendIf condition text =
      ofFragment mode (f ++ if condition then [.verbatim text] else []) := by
  cases condition with
  | true => exact append_ofFragment text
  | false => exact congrArg (ofFragment mode) (List.append_nil f).symm

theorem appendLimit_ofFragment (limit : Option Int32) :
    (ofFragment mode f).appendLimit limit = ofFragment mode (f ++ Fragment.limit limit) := by
  cases limit with
  | some n => exact extend_ofFragment mode f [.verbatim " LIMIT ", .value (.int n)]
  | none => exact congrArg (ofFragment mode) (List.append_nil f).symm

/-! ## Texts around values -/

theorem reserveEach_eq (d : Draft) (items : List (Value × (String → String))) :
    d.reserveEach items =
      (items.map fun x => x.2 ((Piece.value x.1).text d.mode),
        { d with
          params := d.params ++ Fragment.params d.mode (items.map fun x => .value x.1) }) := by
  induction items generalizing d with
  | nil =>
      rw [reserveEach, List.map_nil, List.map_nil, Fragment.params_nil, List.append_nil]
  | cons x rest ih =>
      have hparams := Fragment.params_append d.mode [.value x.1] (rest.map fun x => .value x.1)
      rw [reserveEach, ih]
      dsimp only [reserve]
      rw [List.append_assoc, ← hparams]
      rfl

theorem isEmpty_reserveEach (d : Draft) (items : List (Value × (String → String))) :
    (d.reserveEach items).1.isEmpty = items.isEmpty := by
  cases items <;> rfl

/-- Values are bound in the order in which the texts around them are placed. -/
theorem append_reserveEach {α : Type} (xs : List α) (value : α → Value)
    (around : α → String → String) (render : α → Fragment)
    (htext : ∀ x ∈ xs, around x ((Piece.value (value x)).text mode) = (render x).text mode)
    (hvalues : ∀ x ∈ xs, (render x).values = [value x]) (keyword separator : String)
    (f : Fragment) :
    ((ofFragment mode f).reserveEach (xs.map fun x => (value x, around x))).2.append
        (keyword ++ separator.intercalate
          ((ofFragment mode f).reserveEach (xs.map fun x => (value x, around x))).1) =
      ofFragment mode (f ++ .verbatim keyword :: Fragment.joined separator (xs.map render)) := by
  have htexts : (xs.map fun x => around x ((Piece.value (value x)).text mode)) =
      (xs.map render).map (Fragment.text mode) := by
    rw [List.map_map]
    exact List.map_congr_left htext
  have hbound : Fragment.values (xs.map fun x => .value (value x)) =
      Fragment.values (.verbatim keyword :: Fragment.joined separator (xs.map render)) := by
    have hjoined : Fragment.values (Fragment.joined separator (xs.map render)) = xs.map value := by
      rw [Fragment.values_joined, List.flatMap_map, List.map_eq_flatMap]
      exact List.flatMap_congr hvalues
    rw [Fragment.values_cons, hjoined]
    show (xs.map fun x => Piece.value (value x)).filterMap Piece.value? = xs.map value
    rw [List.filterMap_map]
    exact congrFun List.filterMap_eq_map xs
  rw [reserveEach_eq]
  unfold ofFragment append
  simp only [List.map_map, Function.comp_def]
  rw [htexts, Fragment.params_congr hbound, ← Fragment.params_append, Fragment.text_append,
    Fragment.text_cons, Fragment.text_joined]
  rfl

/-- The options of a change as fragments. -/
theorem usingOptions_eq (ttl : Option Int32) (timestamp : Option Timestamp) :
    Fragment.usingOptions ttl timestamp =
      Fragment.after " USING " (Fragment.joined " AND "
        ((changeOptions ttl timestamp).map fun x => [.verbatim x.1, .value x.2])) := by
  unfold Fragment.usingOptions changeOptions
  rw [List.map_append, List.map_map, List.map_map]
  rfl

/-- A list of options shows if there are any, since each of them shows a value. -/
theorem isBlank_options (separator : String) (options : List (String × Value)) :
    (Fragment.joined separator (options.map fun x => [.verbatim x.1, .value x.2])).isBlank =
      options.isEmpty := by
  cases options with
  | nil => rfl
  | cons x rest => cases rest <;> simp [Fragment.joined, Fragment.isBlank, Piece.isBlank]

theorem appendUsing_ofFragment (ttl : Option Int32) (timestamp : Option Timestamp) :
    (ofFragment mode f).appendUsing ttl timestamp =
      ofFragment mode (f ++ Fragment.usingOptions ttl timestamp) := by
  have htext : ∀ x ∈ changeOptions ttl timestamp, x.1 ++ (Piece.value x.2).text mode =
      Fragment.text mode [.verbatim x.1, .value x.2] := by
    intro x _
    simp [Piece.text]
  have hreserved := append_reserveEach (changeOptions ttl timestamp) Prod.snd
    (fun x => (x.1 ++ ·)) (fun x => [.verbatim x.1, .value x.2]) htext (fun _ _ => rfl)
    " USING " " AND " f
  rw [usingOptions_eq]
  unfold appendUsing Fragment.after
  dsimp only
  rw [isBlank_options, isEmpty_reserveEach, List.isEmpty_map]
  split
  · rw [List.append_nil]
  · exact hreserved

end Draft

/-! ## Statements -/

namespace Parts

variable {mode : BindMode}

theorem drafted_fieldList (p : Parts) (m : Mapping) :
    (p.drafted mode).fieldList m = (p.fieldList m).text mode := by
  unfold DraftParts.fieldList fieldList
  show ", ".intercalate (if (p.fields.map Field.text).isEmpty then _ else _) = _
  rw [List.isEmpty_map]
  split
  · exact (Fragment.text_nameList _ mode).symm
  · rw [Fragment.text_joined, List.map_map]
    refine congrArg _ (List.map_congr_left fun field _ => ?_)
    exact Fragment.text_eq_of_values_eq_nil field.values_fragment .inline mode

theorem values_fieldList (p : Parts) (m : Mapping) : (p.fieldList m).values = [] := by
  unfold fieldList
  split
  · exact Fragment.values_nameList _
  · refine Fragment.values_joined_eq_nil fun f hf => ?_
    obtain ⟨field, -, rfl⟩ := List.mem_map.mp hf
    exact field.values_fragment

theorem drafted_select (p : Parts) (m : Mapping) (table : String) :
    (p.drafted mode).select m table = .ofFragment mode (p.select m table) := by
  have hhead : (Draft.empty mode).append
      ("SELECT " ++ (p.drafted mode).fieldList m ++ " FROM " ++ table) =
        .ofFragment mode (.verbatim "SELECT " :: p.fieldList m ++
          [.verbatim " FROM ", .verbatim table]) := by
    have htext : "SELECT " ++ (p.drafted mode).fieldList m ++ " FROM " ++ table =
        Fragment.text mode (.verbatim "SELECT " :: p.fieldList m ++
          [.verbatim " FROM ", .verbatim table]) := by
      rw [drafted_fieldList]
      simp [Piece.text, String.append_assoc]
    rw [htext, ← Draft.ofFragment_nil, Draft.append_text]
    · rfl
    · rw [Fragment.values_append, Fragment.values_cons, values_fieldList]
      rfl
  show ((Draft.empty mode).append
      ("SELECT " ++ (p.drafted mode).fieldList m ++ " FROM " ++ table)
    |>.appendClause " WHERE " (.ofFragment mode p.rowConditions)
    |>.appendList " GROUP BY " (p.groupBy.map Identifier.text)
    |>.appendList " ORDER BY " ((p.orderBy.map fun k => (k.column.text, k.ascending)).map
      fun k => if k.2 then k.1 else k.1 ++ " DESC")
    |>.appendLimit p.limit
    |>.appendIf (p.allowFiltering || m.allowFiltering) " ALLOW FILTERING") = _
  rw [hhead, Draft.appendClause_ofFragment, Draft.appendNames_ofFragment,
    Draft.appendKeys_ofFragment, Draft.appendLimit_ofFragment, Draft.appendIf_ofFragment]
  rfl

/-- The words in front of a table, and the table. -/
theorem drafted_onTable (words table : String) :
    (Draft.empty mode).append (words ++ table) =
      .ofFragment mode [.verbatim words, .verbatim table] := by
  have htext : words ++ table = Fragment.text mode [.verbatim words, .verbatim table] := by
    simp [Piece.text]
  rw [htext, ← Draft.ofFragment_nil, Draft.append_text _ rfl]
  rfl

theorem drafted_count (p : Parts) (m : Mapping) (table : String) :
    (p.drafted mode).count m table = .ofFragment mode (p.count m table) := by
  show ((Draft.empty mode).append ("SELECT count(*) FROM " ++ table)
    |>.appendClause " WHERE " (.ofFragment mode p.rowConditions)
    |>.appendLimit p.limit
    |>.appendIf (p.allowFiltering || m.allowFiltering) " ALLOW FILTERING") = _
  rw [drafted_onTable, Draft.appendClause_ofFragment, Draft.appendLimit_ofFragment,
    Draft.appendIf_ofFragment]
  rfl

theorem drafted_text (a : Assignment) :
    a.drafted.text ((Piece.value a.value).text mode) = a.fragment.text mode := by
  obtain ⟨column, v, kind⟩ := a
  cases kind <;>
    simp [Assignment.drafted, DraftAssignment.text, Assignment.fragment, AssignmentKind.fragment,
      Piece.text, String.append_assoc]

theorem values_assignment (a : Assignment) : a.fragment.values = [a.value] := by
  obtain ⟨column, v, kind⟩ := a
  cases kind <;> rfl

theorem drafted_update (p : Parts) (table : String) (o : UpdateOptions) :
    (p.drafted mode).update table o = (p.update table o).map (.ofFragment mode) := by
  have hitems : ((p.assignments.map Assignment.drafted).map fun a => (a.value, a.text)) =
      p.assignments.map fun a => (a.value, a.drafted.text) :=
    List.map_map
  have htext : ∀ a ∈ p.assignments, a.drafted.text ((Piece.value a.value).text mode) =
      a.fragment.text mode :=
    fun a _ => drafted_text a
  have hset := Draft.append_reserveEach p.assignments Assignment.value (fun a => a.drafted.text)
    Assignment.fragment htext (fun a _ => values_assignment a) " SET " ", "
  have hempty : (p.drafted mode).assignments.isEmpty = p.assignments.isEmpty := List.isEmpty_map
  unfold DraftParts.update update
  rw [hempty]
  split
  · rfl
  · dsimp only [drafted]
    rw [hitems, drafted_onTable, Draft.appendUsing_ofFragment, hset,
      Draft.appendClause_ofFragment, Draft.appendClause_ofFragment]
    rfl

theorem drafted_delete (p : Parts) (table : String) (o : DeleteOptions) :
    (p.drafted mode).delete table o = (p.delete table o).map (.ofFragment mode) := by
  have hfields : (p.drafted mode).fields.isEmpty = p.fields.isEmpty := List.isEmpty_map
  have hassignments : (p.drafted mode).assignments.isEmpty = p.assignments.isEmpty :=
    List.isEmpty_map
  have hchange : (p.drafted mode).changeConditions.isEmpty = p.changeConditions.isBlank :=
    Draft.isEmpty_ofFragment mode p.changeConditions
  unfold DraftParts.delete delete
  rw [hfields, hassignments, hchange]
  split
  · rfl
  · split
    · rfl
    · dsimp only [drafted]
      rw [drafted_onTable, Draft.appendUsing_ofFragment, Draft.appendClause_ofFragment,
        Draft.append_ofFragment, Draft.appendClause_ofFragment]
      split <;> rfl

end Parts

/-! ## Insertions -/

namespace DraftInsertion

/-- The insertion with columns after those that it has, and what stands for their values. -/
def keeping (m : Mapping) (i : DraftInsertion) (kept : List (Column × Value)) :
    DraftInsertion where
  columns := i.columns ++ kept.map fun x => (m.identifier x.1.name).text
  values := i.values ++ kept.map fun x => (Piece.value x.2).text i.draft.mode
  draft :=
    { i.draft with
      params := i.draft.params ++ Fragment.params i.draft.mode (kept.map fun x => .value x.2) }

/-- The pass over the columns keeps those that are written, and binds their values in order. -/
theorem keepAll_eq (m : Mapping) (insertNulls : Bool) (i : DraftInsertion)
    (given : List (Column × Value)) :
    keepAll m insertNulls i given = (keptColumns insertNulls given).map (keeping m i) := by
  induction given generalizing i with
  | nil =>
      refine congrArg Except.ok ?_
      simp only [keeping, List.map_nil, Fragment.params_nil, List.append_nil]
  | cons x rest ih =>
      obtain ⟨col, v⟩ := x
      unfold keepAll keptColumns
      split
      · split
        · exact ih i
        · rfl
      · split
        · exact ih i
        · rw [ih]
          cases keptColumns insertNulls rest with
          | error e => rfl
          | ok kept =>
              have hparams := Fragment.params_append i.draft.mode [.value v]
                (kept.map fun x => .value x.2)
              refine congrArg Except.ok ?_
              simp only [keeping, keep, Draft.reserve, List.append_assoc, ← hparams]
              rfl

/-- What is kept from the start is the list of columns and the list of their values. -/
theorem keeping_intoTable (m : Mapping) (mode : BindMode) (kept : List (Column × Value))
    (table : String) :
    (keeping m { draft := .empty mode } kept).intoTable table =
      .ofFragment mode ([.verbatim "INSERT INTO ", .verbatim table, .verbatim " ("]
        ++ Fragment.nameList (kept.map fun x => m.identifier x.1.name)
        ++ .verbatim ") VALUES (" :: Fragment.valueList (kept.map Prod.snd)
        ++ [.verbatim ")"]) := by
  refine congr (congrArg (Draft.mk mode) ?text) ?params
  case text =>
    show "" ++ ("INSERT INTO " ++ table ++ " (" ++
      ", ".intercalate (kept.map fun x => (m.identifier x.1.name).text) ++ ") VALUES (" ++
      ", ".intercalate (kept.map fun x => (Piece.value x.2).text mode) ++ ")") = _
    simp [Piece.text, Fragment.text_nameList, Fragment.valueList, Fragment.text_joined,
      Function.comp_def, String.append_assoc]
  case params =>
    refine Fragment.params_congr ?_ mode
    rw [Mapping.values_insertionLists]
    show (kept.map fun x => Piece.value x.2).filterMap Piece.value? = kept.map Prod.snd
    rw [List.filterMap_map]
    exact congrFun List.filterMap_eq_map kept

end DraftInsertion

theorem Mapping.draftInsert_eq (m : Mapping) (mode : BindMode) (table : String)
    (values : List Value) (o : InsertOptions) :
    m.draftInsert mode table values o = (m.insert table values o).map (.ofFragment mode) := by
  unfold draftInsert insert
  dsimp only
  split
  · rfl
  · rw [DraftInsertion.keepAll_eq]
    cases keptColumns o.insertNulls (m.columns.zip values) with
    | error e => rfl
    | ok kept =>
        have hempty : (DraftInsertion.keeping m { draft := .empty mode } kept).columns.isEmpty =
            kept.isEmpty :=
          List.isEmpty_map
        show (if (DraftInsertion.keeping m { draft := .empty mode } kept).columns.isEmpty = true
          then _ else _) = Except.map _ (if kept.isEmpty = true then _ else _)
        rw [hempty]
        split
        · rfl
        · refine congrArg Except.ok ?_
          rw [DraftInsertion.keeping_intoTable, Draft.appendIf_ofFragment,
            Draft.appendUsing_ofFragment]

end TypedCql
