import TypedCql.Proofs.Placeholders
import TypedCql.Query.Batch

/-!
# Batches of attempts

A batch is filled by attempts to append changes, and some of the changes do not compile. What one
attempt does is said once (`attempt_cases`), and from it, by induction, what a sequence of attempts
leaves (`entries_after`): the changes that compile, in order, and nothing of the others. The
statement of the batch is then put together of the statements of these changes, its parameters of
theirs, and its two forms agree because theirs do.
-/

namespace TypedCql

namespace Fragment

theorem text_flatMap (mode : BindMode) (fs : List Fragment) (g : Fragment → Fragment) :
    text mode (fs.flatMap g) = String.join (fs.map fun f => text mode (g f)) := by
  induction fs with
  | nil => rfl
  | cons f fs ih => rw [List.flatMap_cons, text_append, ih, List.map_cons, String.join_cons]

theorem values_flatMap (fs : List Fragment) (g : Fragment → Fragment) :
    values (fs.flatMap g) = fs.flatMap fun f => values (g f) := by
  induction fs with
  | nil => rfl
  | cons f fs ih => rw [List.flatMap_cons, values_append, ih, List.flatMap_cons]

@[simp] theorem values_verbatim (t : String) : values [.verbatim t] = [] := rfl

theorem markFree_verbatim {t : String} (h : '?' ∉ t.toList) : MarkFree [.verbatim t] :=
  markFree_cons.mpr ⟨h, markFree_nil⟩

theorem markFree_flatMap {fs : List Fragment} {g : Fragment → Fragment}
    (h : ∀ f ∈ fs, MarkFree (g f)) : MarkFree (fs.flatMap g) := by
  intro piece hpiece
  obtain ⟨f, hf, hp⟩ := List.mem_flatMap.mp hpiece
  exact h f hf piece hp

end Fragment

namespace Batch

/-! ## Attempts -/

theorem append_outcome (b : Batch) (c : Change) :
    (b.append c).outcome =
      c.fragment.outcome.map fun f => { b with entries := b.entries ++ [f] } := by
  unfold append
  rw [Traced.outcome_bind]
  cases hf : c.fragment.outcome with
  | error e => rfl
  | ok f =>
      -- The second compilation goes through because the first one did.
      have hinline : c.inline.outcome = .ok (f.text .inline) :=
        (Command.change c).inline_outcome.trans (congrArg (Except.map _) hf)
      show (Traced.bind c.inline _).outcome = _
      unfold Traced.bind
      rw [hinline]
      rfl

/-- A change that does not compile fails to be appended, with its own error, and the batch stays as
it was; one that compiles is appended at the end. -/
theorem attempt_cases (b : Batch) (c : Change) :
    (∃ e, c.fragment.outcome = .error e ∧ b.attempt c = (.error e, b)) ∨
      ∃ f, c.fragment.outcome = .ok f ∧
        b.attempt c = (.ok (), { b with entries := b.entries ++ [f] }) := by
  unfold attempt
  rw [append_outcome]
  cases hf : c.fragment.outcome with
  | error e => exact Or.inl ⟨e, rfl, rfl⟩
  | ok f => exact Or.inr ⟨f, rfl, rfl⟩

/-- The changes that compile, as they do. -/
def compiled (changes : List Change) : List Fragment :=
  changes.filterMap fun c => c.fragment.outcome.toOption

/-- Attempts leave the batch with the changes that compile at its end. -/
theorem entries_after (b : Batch) (changes : List Change) :
    b.after changes = { b with entries := b.entries ++ compiled changes } := by
  induction changes generalizing b with
  | nil => simp [after, compiled]
  | cons c rest ih =>
      show (b.attempt c).2.after rest = _
      rw [ih]
      rcases attempt_cases b c with ⟨e, he, hattempt⟩ | ⟨f, hf, hattempt⟩
      · simp [hattempt, compiled, he, Except.toOption]
      · simp [hattempt, compiled, hf, Except.toOption]

/-! ## Statements -/

/-- The statements of the changes that compile, in the order of the changes. -/
def appended (changes : List Change) : List Statement :=
  changes.filterMap fun c => c.statement.outcome.toOption

theorem statement_outcome (c : Change) :
    c.statement.outcome = c.fragment.outcome.map (Fragment.render .placeholder) :=
  (Command.change c).statement_outcome

theorem appended_eq (changes : List Change) :
    appended changes = (compiled changes).map (Fragment.render .placeholder) := by
  unfold appended compiled
  rw [List.map_filterMap]
  refine List.filterMap_congr fun c _ => ?_
  rw [statement_outcome]
  cases c.fragment.outcome <;> rfl

theorem compiled_eq_nil_iff (changes : List Change) :
    compiled changes = [] ↔ ∀ c ∈ changes, ∃ e, c.statement.outcome = .error e := by
  unfold compiled
  rw [List.filterMap_eq_nil_iff]
  refine forall₂_congr fun c _ => ?_
  rw [statement_outcome]
  cases c.fragment.outcome with
  | ok f => simp [Except.toOption, Except.map]
  | error e => simp [Except.toOption, Except.map]

theorem mem_compiled {changes : List Change} {f : Fragment} (h : f ∈ compiled changes) :
    ∃ c ∈ changes, c.fragment.outcome = .ok f := by
  obtain ⟨c, hc, hf⟩ := List.mem_filterMap.mp h
  refine ⟨c, hc, ?_⟩
  cases ho : c.fragment.outcome with
  | ok g =>
      rw [ho] at hf
      rw [Option.some.inj hf]
  | error e =>
      rw [ho] at hf
      exact nomatch hf

/-- The text up to the first entry. The time of writing is a parameter. -/
def heading (kind : BatchKind) (timestamp : Option Timestamp) : String :=
  kind.opening ++ (if timestamp.isSome then " USING TIMESTAMP ?" else "") ++ " "

/-- The time of writing as a parameter, if there is one. -/
def timeParams (timestamp : Option Timestamp) : List Value :=
  timestamp.toList.map fun t => .bigint (Int64.ofInt t.micros)

theorem opening_text (b : Batch) :
    Fragment.text .placeholder b.opening ++ " " = heading b.kind b.timestamp := by
  unfold opening heading
  cases b.timestamp with
  | none => simp [Piece.text]
  | some t => simp [Piece.text, String.append_assoc]

theorem opening_values (b : Batch) : Fragment.values b.opening = timeParams b.timestamp := by
  unfold opening timeParams
  cases b.timestamp <;> rfl

theorem opening_markFree (b : Batch) : Fragment.MarkFree b.opening := by
  have hkind : '?' ∉ b.kind.opening.toList := by cases b.kind <;> decide
  unfold opening
  cases b.timestamp with
  | none => exact Fragment.markFree_verbatim hkind
  | some t =>
      simp only [Fragment.markFree_cons]
      exact ⟨hkind, by decide, trivial, Fragment.markFree_nil⟩

/-- The whole of a batch that is not empty. -/
def whole (b : Batch) : Fragment :=
  b.opening ++ [.verbatim " "] ++ b.entries.flatMap (fun f => f ++ [.verbatim "; "])
    ++ [.verbatim "APPLY BATCH"]

theorem fragment_eq (b : Batch) :
    b.fragment = if b.entries = [] then .error (.argument .emptyBatch) else .ok b.whole := by
  unfold fragment isEmpty
  simp only [List.isEmpty_iff]
  rfl

theorem outcomes (b : Batch) :
    b.statement.outcome = b.fragment.map (Fragment.render .placeholder) ∧
      b.inline.outcome = b.fragment.map (Fragment.text .inline) := by
  constructor
  · exact Traced.outcome_bind_of_ok _ fun _ => rfl
  · exact Traced.outcome_bind_of_ok _ fun _ => rfl

theorem text_whole (b : Batch) (mode : BindMode) :
    b.whole.text mode = b.opening.text mode ++ " " ++
      String.join (b.entries.map fun f => f.text mode ++ "; ") ++ "APPLY BATCH" := by
  unfold whole
  simp [Fragment.text_flatMap, Piece.text, String.append_assoc]

theorem values_whole (b : Batch) :
    b.whole.values = b.opening.values ++ b.entries.flatMap Fragment.values := by
  unfold whole
  simp only [Fragment.values_append, Fragment.values_flatMap, Fragment.values_verbatim,
    List.append_nil]

theorem render_whole (b : Batch) :
    b.whole.render .placeholder =
      ⟨heading b.kind b.timestamp ++
          String.join (b.entries.map fun f => f.text .placeholder ++ "; ") ++ "APPLY BATCH",
        timeParams b.timestamp ++ b.entries.flatMap Fragment.values⟩ := by
  show (⟨b.whole.text .placeholder, b.whole.values⟩ : Statement) = _
  rw [text_whole, values_whole, opening_text, opening_values]

theorem whole_markFree {b : Batch} (h : ∀ f ∈ b.entries, Fragment.MarkFree f) :
    Fragment.MarkFree b.whole := by
  unfold whole
  simp only [Fragment.markFree_append, and_assoc]
  refine ⟨opening_markFree b, Fragment.markFree_verbatim (by decide),
    Fragment.markFree_flatMap fun f hf => ?_, Fragment.markFree_verbatim (by decide)⟩
  exact Fragment.markFree_append.mpr ⟨h f hf, Fragment.markFree_verbatim (by decide)⟩

/-- No change that can be compiled writes a question mark of its own, if none is in its names. -/
theorem compiled_markFree {changes : List Change}
    (h : ∀ c ∈ changes, (∃ entry, c.statement.outcome = .ok entry) →
      '?' ∉ (Command.change c).table.qualifiedName.toList ∧
        (Command.change c).table.mapping.NamesMarkFree) :
    ∀ f ∈ compiled changes, Fragment.MarkFree f := by
  intro f hf
  obtain ⟨c, hc, hcf⟩ := mem_compiled hf
  have hentry : ∃ entry, c.statement.outcome = .ok entry := by
    rw [statement_outcome, hcf]
    exact ⟨_, rfl⟩
  obtain ⟨ht, hm⟩ := h c hc hentry
  exact Command.change_markFree ht hm hcf

/-- **What attempts come to.** An attempt fails exactly if the statement of the change does, with
the same error, and then leaves the batch as it was. The statement of a batch that was filled by
attempts fails exactly if all of them did. Otherwise it is made of the statements of the changes
that were appended, in order, text by text and parameters by parameters after those of its heading;
and if no name that these write shows a question mark, filling in the parameters gives the batch
with its values as literals. -/
theorem statement_of_attempts (kind : BatchKind) (timestamp : Option Timestamp)
    (changes : List Change) :
    (∀ (b : Batch) (c : Change) (e : Error),
      ((b.attempt c).1 = .error e ↔ c.statement.outcome = .error e) ∧
        ((b.attempt c).1 = .error e → (b.attempt c).2 = b)) ∧
      ((∃ e, (after ⟨kind, timestamp, []⟩ changes).statement.outcome = .error e) ↔
        ∀ c ∈ changes, ∃ e, c.statement.outcome = .error e) ∧
      ∀ s, (after ⟨kind, timestamp, []⟩ changes).statement.outcome = .ok s →
        s.cql = heading kind timestamp ++
          String.join ((appended changes).map fun entry => entry.cql ++ "; ") ++ "APPLY BATCH" ∧
        s.params = timeParams timestamp ++ (appended changes).flatMap Statement.params ∧
        ((∀ c ∈ changes, (∃ entry, c.statement.outcome = .ok entry) →
            '?' ∉ (Command.change c).table.qualifiedName.toList ∧
              ∀ col ∈ (Command.change c).table.mapping.columns,
                '?' ∉ ((Command.change c).table.mapping.identifier col.name).text.toList) →
          s.cql.toList.count '?' = s.params.length ∧
            (after ⟨kind, timestamp, []⟩ changes).inline.outcome = .ok s.displayed) := by
  have hafter : after ⟨kind, timestamp, []⟩ changes = ⟨kind, timestamp, compiled changes⟩ :=
    entries_after ⟨kind, timestamp, []⟩ changes
  rw [hafter]
  obtain ⟨hstatement, hinline⟩ := outcomes ⟨kind, timestamp, compiled changes⟩
  rw [hstatement, hinline, fragment_eq]
  refine ⟨?_, ?_, ?_⟩
  · intro b c e
    rw [statement_outcome]
    rcases attempt_cases b c with ⟨e', he', hattempt⟩ | ⟨f, hf, hattempt⟩
    · simp [hattempt, he', Except.map]
    · simp [hattempt, hf, Except.map]
  · rw [← compiled_eq_nil_iff]
    by_cases hnil : compiled changes = []
    · simp [hnil, Except.map]
    · simp [hnil, Except.map]
  · intro s hs
    split at hs
    · exact nomatch hs
    · next hnil =>
        have hrender := render_whole ⟨kind, timestamp, compiled changes⟩
        have hwhole := Except.ok.inj hs
        refine ⟨?_, ?_, ?_⟩
        · rw [← hwhole, hrender, appended_eq, List.map_map]
          rfl
        · rw [← hwhole, hrender, appended_eq, List.flatMap_map]
          rfl
        · intro hnames
          have hfree : Fragment.MarkFree (whole ⟨kind, timestamp, compiled changes⟩) :=
            whole_markFree (compiled_markFree hnames)
          rw [if_neg hnil, ← hwhole]
          refine ⟨Fragment.count_text hfree, ?_⟩
          rw [Fragment.displayed_render hfree]
          rfl

/-- Three changes of people in one batch: the second one assigns nothing. -/
def peopleChanges : List Change :=
  [.update (.ofOperators { mapping := people }
      [.filter (.binary .eq (.column "id") (.constant (.int 1))),
        .select (.record [("name", .constant (.text "ann?"))])]) {},
    .update (.ofOperators { mapping := people } [.filter (.column "active")]) {},
    .delete (.ofOperators { mapping := people }
      [.filter (.binary .eq (.column "id") (.constant (.int 2)))]) {}]

/-- The other two are sent, with the time in front of their parameters. -/
theorem statement_of_attempts_people :
    ∃ s, (after ⟨.unlogged, some ⟨1, 500⟩, []⟩ peopleChanges).statement.outcome = .ok s ∧
      s.cql = "BEGIN UNLOGGED BATCH USING TIMESTAMP ? UPDATE Person SET name = ? WHERE id = ?; " ++
        "DELETE FROM Person WHERE id = ?; APPLY BATCH" ∧
      (appended peopleChanges).length = 2 ∧
      s.cql.toList.count '?' = s.params.length ∧
      (after ⟨.unlogged, some ⟨1, 500⟩, []⟩ peopleChanges).inline.outcome = .ok s.displayed := by
  obtain ⟨-, -, hall⟩ := statement_of_attempts .unlogged (some ⟨1, 500⟩) peopleChanges
  obtain ⟨-, -, hnames⟩ := hall _ rfl
  have hfree : ∀ c ∈ peopleChanges, (∃ entry, c.statement.outcome = .ok entry) →
      '?' ∉ (Command.change c).table.qualifiedName.toList ∧
        ∀ col ∈ (Command.change c).table.mapping.columns,
          '?' ∉ ((Command.change c).table.mapping.identifier col.name).text.toList := by
    intro c hc _
    have htable : (Command.change c).table = { mapping := people } := by
      simp only [peopleChanges, List.mem_cons, List.not_mem_nil, or_false] at hc
      rcases hc with rfl | rfl | rfl <;> rfl
    rw [htable]
    decide
  exact ⟨_, rfl, by decide +kernel, rfl, hnames hfree⟩

end Batch

end TypedCql
