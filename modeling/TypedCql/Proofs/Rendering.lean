import TypedCql.Cql.Fragment

/-!
# The two renderings of a fragment

A fragment shows its values as question marks or as literals. `fillMarks` puts literals in the
place of question marks, from left to right, as a reader of the placeholder rendering would. Where
the fixed texts and the names of a fragment hold no question mark of their own, the two renderings
are two views of one text: there are as many marks as values, and filling them in gives the inline
rendering (`displayed_render`).
-/

namespace TypedCql

/-- The text with its question marks replaced, from left to right, by literals. -/
def fillMarks : List Char → List Value → List Char
  | [], _ => []
  | c :: rest, values =>
    if c = '?' then
      match values with
      | v :: later => v.literal.toList ++ fillMarks rest later
      | [] => c :: fillMarks rest []
    else c :: fillMarks rest values

/-- The statement with the literal of each parameter in the place of its question mark. -/
def Statement.displayed (s : Statement) : String :=
  String.ofList (fillMarks s.cql.toList s.params)

/-- Apart from its values, the piece shows no question mark. -/
def Piece.MarkFree : Piece → Prop
  | .verbatim t => '?' ∉ t.toList
  | .name i => '?' ∉ i.text.toList
  | .value _ => True

instance (piece : Piece) : Decidable piece.MarkFree :=
  match piece with
  | .verbatim t => inferInstanceAs (Decidable ('?' ∉ t.toList))
  | .name i => inferInstanceAs (Decidable ('?' ∉ i.text.toList))
  | .value _ => inferInstanceAs (Decidable True)

namespace Fragment

def MarkFree (f : Fragment) : Prop := ∀ piece ∈ f, piece.MarkFree

/-! ## Fragments piece by piece -/

@[simp] theorem text_nil (mode : BindMode) : text mode [] = "" := String.join_nil

@[simp] theorem text_cons (mode : BindMode) (piece : Piece) (f : Fragment) :
    text mode (piece :: f) = piece.text mode ++ text mode f := String.join_cons

@[simp] theorem text_append (mode : BindMode) (f g : Fragment) :
    text mode (f ++ g) = text mode f ++ text mode g := by
  rw [text, List.map_append, String.join_append]
  rfl

@[simp] theorem values_append (f g : Fragment) : values (f ++ g) = values f ++ values g :=
  List.filterMap_append

theorem values_cons (piece : Piece) (f : Fragment) :
    values (piece :: f) = values [piece] ++ values f :=
  values_append [piece] f

/-! ## Parameters -/

theorem params_nil (mode : BindMode) : params mode [] = [] := by
  cases mode <;> rfl

theorem params_append (mode : BindMode) (f g : Fragment) :
    params mode (f ++ g) = params mode f ++ params mode g := by
  cases mode with
  | placeholder => exact values_append f g
  | inline => rfl

theorem params_congr {f g : Fragment} (h : f.values = g.values) (mode : BindMode) :
    params mode f = params mode g := by
  cases mode with
  | placeholder => exact h
  | inline => rfl

theorem params_of_values_eq_nil {f : Fragment} (h : f.values = []) (mode : BindMode) :
    params mode f = [] :=
  (params_congr h mode).trans (params_nil mode)

/-- Where there are no values the mode does not matter. -/
theorem text_eq_of_values_eq_nil {f : Fragment} (h : f.values = []) (mode mode' : BindMode) :
    f.text mode = f.text mode' := by
  induction f with
  | nil => rfl
  | cons piece f ih =>
      rw [values_cons, List.append_eq_nil_iff] at h
      rw [text_cons, text_cons, ih h.2]
      cases piece with
      | value v => exact absurd h.1 (List.cons_ne_nil _ _)
      | _ => rfl

/-! ## Joined fragments -/

theorem joined_cons_cons (separator : String) (f g : Fragment) (rest : List Fragment) :
    joined separator (f :: g :: rest) = f ++ .verbatim separator :: joined separator (g :: rest) :=
  rfl

theorem joined_append (separator : String) {fs gs : List Fragment} (hfs : fs ≠ []) (hgs : gs ≠ []) :
    joined separator (fs ++ gs) =
      joined separator fs ++ .verbatim separator :: joined separator gs := by
  induction fs with
  | nil => exact absurd rfl hfs
  | cons f fs ih =>
      cases fs with
      | nil =>
          obtain ⟨g, gs, rfl⟩ := List.exists_cons_of_ne_nil hgs
          exact joined_cons_cons separator f g gs
      | cons f' fs =>
          rw [List.cons_append, List.cons_append, joined_cons_cons, joined_cons_cons,
            ← List.cons_append, ih (by simp), List.append_assoc, List.cons_append]

theorem text_joined (mode : BindMode) (separator : String) (fs : List Fragment) :
    text mode (joined separator fs) = separator.intercalate (fs.map (text mode)) := by
  induction fs with
  | nil => exact String.intercalate_nil.symm
  | cons f fs ih =>
      cases fs with
      | nil => exact String.intercalate_singleton.symm
      | cons g rest =>
          rw [joined_cons_cons, text_append, text_cons, ih]
          simp only [List.map_cons, String.intercalate_cons_cons, String.append_assoc]
          rfl

theorem values_joined (separator : String) (fs : List Fragment) :
    values (joined separator fs) = fs.flatMap values := by
  induction fs with
  | nil => rfl
  | cons f fs ih =>
      cases fs with
      | nil => exact (List.append_nil _).symm
      | cons g rest =>
          rw [joined_cons_cons, values_append, values_cons, ih, List.flatMap_cons]
          rfl

theorem values_joined_eq_nil {separator : String} {fs : List Fragment}
    (h : ∀ f ∈ fs, f.values = []) : (joined separator fs).values = [] := by
  rw [values_joined, List.flatMap_eq_nil_iff]
  exact h

theorem mem_joined {separator : String} {piece : Piece} :
    ∀ {fs : List Fragment}, piece ∈ joined separator fs →
      piece = .verbatim separator ∨ ∃ f ∈ fs, piece ∈ f
  | [f], h => Or.inr ⟨f, List.mem_singleton_self f, h⟩
  | f :: g :: rest, h => by
      rw [joined_cons_cons, List.mem_append, List.mem_cons] at h
      rcases h with h | rfl | h
      · exact Or.inr ⟨f, List.mem_cons_self .., h⟩
      · exact Or.inl rfl
      · rcases mem_joined h with rfl | ⟨f', hf', hp⟩
        · exact Or.inl rfl
        · exact Or.inr ⟨f', List.mem_cons_of_mem _ hf', hp⟩

/-! ## Fragments without question marks -/

@[simp] theorem markFree_nil : MarkFree [] := fun _ h => absurd h List.not_mem_nil

@[simp] theorem markFree_cons {piece : Piece} {f : Fragment} :
    MarkFree (piece :: f) ↔ piece.MarkFree ∧ MarkFree f :=
  List.forall_mem_cons

@[simp] theorem markFree_append {f g : Fragment} :
    MarkFree (f ++ g) ↔ MarkFree f ∧ MarkFree g :=
  List.forall_mem_append

theorem markFree_joined {separator : String} (hsep : '?' ∉ separator.toList)
    {fs : List Fragment} (h : ∀ f ∈ fs, MarkFree f) : MarkFree (joined separator fs) := by
  intro piece hpiece
  rcases mem_joined hpiece with rfl | ⟨f, hf, hp⟩
  · exact hsep
  · exact h f hf piece hp

theorem markFree_valueList (items : List Value) : MarkFree (valueList items) := by
  refine markFree_joined (by decide) fun f hf => ?_
  obtain ⟨v, -, rfl⟩ := List.mem_map.mp hf
  exact markFree_cons.mpr ⟨trivial, markFree_nil⟩

/-! ## Marks and values -/

theorem fillMarks_append {text : List Char} (h : '?' ∉ text) (rest : List Char)
    (values : List Value) : fillMarks (text ++ rest) values = text ++ fillMarks rest values := by
  induction text with
  | nil => rfl
  | cons c text ih =>
      rw [List.mem_cons, not_or] at h
      have hc : c ≠ '?' := fun e => h.1 e.symm
      rw [List.cons_append, fillMarks.eq_def, List.cons_append]
      simp only [if_neg hc, ih h.2]

theorem mark_toList : "?".toList = ['?'] := by decide

/-- One piece takes as many of the values as it shows marks. -/
theorem fillMarks_piece {piece : Piece} (h : piece.MarkFree) (rest : List Char)
    (later : List Value) :
    fillMarks ((piece.text .placeholder).toList ++ rest) (values [piece] ++ later) =
      (piece.text .inline).toList ++ fillMarks rest later := by
  cases piece with
  | verbatim t => exact fillMarks_append h rest later
  | name i => exact fillMarks_append h rest later
  | value v =>
      show fillMarks ("?".toList ++ rest) (v :: later) = v.literal.toList ++ _
      rw [mark_toList, List.singleton_append, fillMarks, if_pos rfl]

theorem count_piece {piece : Piece} (h : piece.MarkFree) :
    (piece.text .placeholder).toList.count '?' = (values [piece]).length := by
  cases piece with
  | verbatim t => exact List.count_eq_zero.mpr h
  | name i => exact List.count_eq_zero.mpr h
  | value v =>
      show "?".toList.count '?' = 1
      rw [mark_toList]
      rfl

theorem fillMarks_text {f : Fragment} (h : MarkFree f) :
    fillMarks (text .placeholder f).toList (values f) = (text .inline f).toList := by
  induction f with
  | nil => rfl
  | cons piece f ih =>
      rw [markFree_cons] at h
      rw [text_cons, String.toList_append, values_cons, fillMarks_piece h.1, ih h.2, text_cons,
        String.toList_append]

theorem count_text {f : Fragment} (h : MarkFree f) :
    (text .placeholder f).toList.count '?' = (values f).length := by
  induction f with
  | nil => rfl
  | cons piece f ih =>
      rw [markFree_cons] at h
      rw [text_cons, String.toList_append, List.count_append, count_piece h.1, ih h.2,
        values_cons piece f, List.length_append]

/-- **Two views.** Filling the marks of the placeholder rendering with its parameters gives the
inline rendering. -/
theorem displayed_render {f : Fragment} (h : MarkFree f) :
    (render .placeholder f).displayed = text .inline f := by
  show String.ofList (fillMarks (text .placeholder f).toList (values f)) = _
  rw [fillMarks_text h, String.ofList_toList]

end Fragment

/-! ## What shows

A clause is left out when it has nothing to say. The test on the pieces agrees with the emptiness
of either rendering, since every value has a literal that shows. -/

theorem FloatLayout.positionalText_ne_empty (l : FloatLayout) (digits : List Char)
    (leading : Int) : l.positionalText digits leading ≠ "" := by
  unfold positionalText
  split
  · simp
  · dsimp only
    split
    · simp only [ne_eq, String.append_eq_empty_iff, String.ofList_eq_empty_iff,
        List.append_eq_nil_iff, List.replicate_eq_nil_iff, not_and]
      rintro ⟨hdigits, hwhole⟩
      rw [hdigits, List.length_nil] at hwhole
      omega
    · simp

theorem literalFloats_text_ne_empty (f : BinaryFormat) (bits : Nat) :
    Value.literalFloats.text f bits ≠ "" := by
  unfold FloatLayout.text
  dsimp only
  split
  · split <;> simp [Value.literalFloats]
  · split
    · simp
    · simp [FloatLayout.decimalText, Value.literalFloats, FloatLayout.positionalText_ne_empty]

theorem int_repr_ne_empty (n : Int) : n.repr ≠ "" := by
  cases n with
  | ofNat n => exact Nat.repr_ne_empty
  | negSucc n => simp [Int.repr]

theorem literal_ne_empty (v : Value) : v.literal ≠ "" := by
  cases v with
  | boolean b => cases b <;> simp [Value.literal]
  | int n => exact int_repr_ne_empty n.toInt
  | bigint n => exact int_repr_ne_empty n.toInt
  | timestamp t => exact int_repr_ne_empty t.millis
  | float x => exact literalFloats_text_ne_empty _ _
  | double x => exact literalFloats_text_ne_empty _ _
  | _ => simp [Value.literal, Text.enclosed, Uuid.text]

theorem Piece.isBlank_eq_isEmpty (mode : BindMode) (piece : Piece) :
    piece.isBlank = (piece.text mode).isEmpty := by
  cases piece with
  | verbatim t => rfl
  | name i => rfl
  | value v =>
      cases mode with
      | placeholder => rfl
      | inline => exact (String.isEmpty_eq_false_iff.mpr (literal_ne_empty v)).symm

theorem Fragment.isBlank_eq_isEmpty (mode : BindMode) (f : Fragment) :
    isBlank f = (text mode f).isEmpty := by
  induction f with
  | nil => rfl
  | cons piece f ih =>
      have happend : (piece.text mode ++ text mode f).isEmpty =
          ((piece.text mode).isEmpty && (text mode f).isEmpty) := by
        rw [Bool.eq_iff_iff, Bool.and_eq_true, String.isEmpty_iff, String.isEmpty_iff,
          String.isEmpty_iff, String.append_eq_empty_iff]
      rw [isBlank, List.all_cons, Piece.isBlank_eq_isEmpty mode, text_cons, happend]
      exact congrArg _ ih

end TypedCql
