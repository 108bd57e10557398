import TypedCql.Proofs.Batches
import TypedCql.Proofs.DraftedStatements

/-!
# Commands and batches from drafts

A command that is compiled on drafts, once for each way of showing its values, comes to the
rendering of the one fragment that it compiles to: with the same events and the same error where it
fails (`draft_eq`), so its statement and its text are those that the fragment renders
(`draftStatement_eq`, `draftInline_eq`). A batch that keeps what both runs left for each change is
the rendering of the batch that keeps fragments, after any attempts to append changes
(`drafted_after`).
-/

namespace TypedCql

/-- A computation that is made a second time has the result of the first. -/
theorem Traced.bind_twice {α β γ : Type} (t : Traced α) (first : α → Traced β)
    (second : α → α → Traced γ) :
    (t >>= fun a => first a >>= fun _ => t >>= fun a' => second a a') =
      t >>= fun a => first a >>= fun _ => t >>= fun _ => second a a := by
  obtain ⟨events, outcome⟩ := t
  cases outcome <;> rfl

theorem Query.draft_eq (q : Query) (mode : BindMode) (kind : StatementKind) :
    q.draft mode kind = Parts.drafted mode <$> q.compile kind :=
  Context.draft_eq ⟨q.table.mapping, kind⟩ mode q.expr

namespace Command

variable {mode : BindMode}

/-- What is done with the parts of a query renders what is done with them as fragments. -/
theorem bind_drafted (q : Query) (kind : StatementKind) {k : DraftParts → Traced Draft}
    {k' : Parts → Traced Fragment}
    (h : ∀ p : Parts, k (p.drafted mode) = Draft.ofFragment mode <$> k' p) :
    q.draft mode kind >>= k = Draft.ofFragment mode <$> (q.compile kind >>= k') := by
  rw [Query.draft_eq, bind_map_left, map_bind]
  exact congrArg (q.compile kind >>= ·) (funext h)

/-- **One fragment for both renderings.** A command on drafts comes to the rendering of its
fragment, in either mode. -/
theorem draft_eq (k : Command) : k.draft mode = Draft.ofFragment mode <$> k.fragment := by
  cases k with
  | select q =>
      exact bind_drafted q .select fun p => congrArg pure (p.drafted_select _ _)
  | count k =>
      exact bind_drafted k.query .count fun p => congrArg pure (p.drafted_count _ _)
  | change c =>
      cases c with
      | update q o =>
          refine bind_drafted q .update fun p => ?_
          rw [p.drafted_update, Traced.map_ofOutcome]
      | delete q o =>
          refine bind_drafted q .delete fun p => ?_
          rw [p.drafted_delete, Traced.map_ofOutcome]
      | insert t values o =>
          show Traced.ofOutcome _ = Draft.ofFragment mode <$> Traced.ofOutcome _
          rw [Mapping.draftInsert_eq, Traced.map_ofOutcome]

theorem draftStatement_eq (k : Command) : k.draftStatement = k.statement := by
  unfold draftStatement
  rw [draft_eq, bind_map_left]
  cases k <;> rfl

theorem draftInline_eq (k : Command) : k.draftInline = k.inline := by
  unfold draftInline
  rw [draft_eq, bind_map_left]
  cases k <;> rfl

end Command

/-! ## Batches -/

/-- The batch with both renderings of each of its changes. -/
def Batch.drafted (b : Batch) : DraftBatch where
  kind := b.kind
  timestamp := b.timestamp
  entries := b.entries.map fun f => (f.render .placeholder, f.text .inline)

namespace Batch

/-- Both runs over a change find the same fragment, so a batch keeps the two renderings of it. -/
theorem drafted_append (b : Batch) (c : Change) :
    b.drafted.append c = Batch.drafted <$> b.append c := by
  unfold DraftBatch.append append
  rw [Command.draftStatement_eq, Command.draftInline_eq]
  show c.statement >>= (fun s => c.inline >>= fun text => _) = _
  unfold Change.statement Change.inline
  simp only [bind_assoc, pure_bind, map_bind, map_pure]
  -- The run for the literals repeats that for the placeholders, so its fragment is the same.
  refine (Traced.bind_twice c.fragment _ _).trans ?_
  simp [drafted]

/-- An attempt succeeds or fails alike, and leaves the renderings of what it leaves. -/
theorem drafted_attempt (b : Batch) (c : Change) :
    b.drafted.attempt c = ((b.attempt c).1, (b.attempt c).2.drafted) := by
  unfold DraftBatch.attempt attempt
  rw [drafted_append, Traced.outcome_map]
  cases (b.append c).outcome <;> rfl

/-- **A run.** So do any attempts, from the first to the last. -/
theorem drafted_after (b : Batch) (changes : List Change) :
    b.drafted.after changes = (b.after changes).drafted := by
  induction changes generalizing b with
  | nil => rfl
  | cons c rest ih =>
      show (b.drafted.attempt c).2.after rest = ((b.attempt c).2.after rest).drafted
      rw [drafted_attempt]
      exact ih _

variable {mode : BindMode}

theorem foldl_bodies (d : Draft) (bodies : List String) :
    bodies.foldl (fun d body => (d.append body).append "; ") d =
      d.append (String.join (bodies.map (· ++ "; "))) := by
  induction bodies generalizing d with
  | nil =>
      show d = ⟨d.mode, d.text ++ "", d.params⟩
      rw [String.append_empty]
  | cons body rest ih =>
      rw [List.foldl_cons, ih, Draft.append_append, Draft.append_append, List.map_cons,
        String.join_cons, String.append_assoc]

theorem drafted_opening (b : Batch) : b.drafted.opening mode = .ofFragment mode b.opening := by
  obtain ⟨kind, timestamp, entries⟩ := b
  have hkind : (((Draft.empty mode).append "BEGIN ").append kind.word).append "BATCH" =
      .ofFragment mode [.verbatim kind.opening] := by
    have hwords : "BEGIN " ++ (kind.word ++ "BATCH") = kind.opening := by cases kind <;> rfl
    rw [Draft.append_append, Draft.append_append, ← Draft.ofFragment_nil, Draft.append_ofFragment,
      hwords]
    rfl
  cases timestamp with
  | none => exact hkind
  | some t =>
      show Draft.bind (Draft.append (Draft.append (Draft.append _ kind.word) "BATCH") _) _ = _
      rw [hkind]
      exact Draft.extend_ofFragment mode [.verbatim kind.opening]
        [.verbatim " USING TIMESTAMP ", .value (.bigint (Int64.ofInt t.micros))]

/-- The texts of the changes are placed between the opening and the end, and of the values only that
of the opening is bound. -/
theorem drafted_render (b : Batch) :
    b.drafted.render mode (b.entries.map (Fragment.text mode)) =
      b.fragment.map fun f => ⟨mode, f.text mode, b.opening.params mode⟩ := by
  have hempty : b.drafted.entries.isEmpty = b.isEmpty := List.isEmpty_map
  unfold DraftBatch.render fragment
  rw [hempty]
  split
  · rfl
  · refine congrArg Except.ok ?_
    dsimp only
    rw [foldl_bodies, drafted_opening, List.map_map]
    show (⟨mode, b.opening.text mode ++ " " ++ _ ++ "APPLY BATCH", _⟩ : Draft) =
      ⟨mode, b.whole.text mode, _⟩
    rw [text_whole]
    rfl

theorem drafted_statement (b : Batch) : b.drafted.statement = b.statement := by
  have htexts : (b.drafted.entries.map fun entry => entry.1.cql) =
      b.entries.map (Fragment.text .placeholder) :=
    List.map_map
  have hparams : (b.drafted.entries.flatMap fun entry => entry.1.params) =
      b.entries.flatMap Fragment.values :=
    List.flatMap_map ..
  have hlength : b.drafted.entries.length = b.entries.length := List.length_map ..
  have hwhole : (⟨b.whole.text .placeholder,
      b.opening.values ++ b.entries.flatMap Fragment.values⟩ : Statement) =
        b.whole.render .placeholder := by
    rw [← values_whole]
    rfl
  unfold DraftBatch.statement statement
  rw [htexts, hparams, hlength, drafted_render, Traced.map_ofOutcome, bind_map_left, fragment_eq]
  split
  · rfl
  · show (pure b.whole >>= fun f : Fragment => _) = (pure b.whole >>= fun f : Fragment => _)
    rw [pure_bind, pure_bind, ← hwhole]
    rfl

theorem drafted_inline (b : Batch) : b.drafted.inline = b.inline := by
  have htexts : b.drafted.entries.map Prod.snd = b.entries.map (Fragment.text .inline) :=
    List.map_map
  unfold DraftBatch.inline inline
  rw [htexts, drafted_render, Traced.map_ofOutcome, bind_map_left]

/-- A batch that is begun and grown on drafts is stated as the one of fragments is. -/
theorem statement_drafts (kind : BatchKind) (timestamp : Option Timestamp)
    (changes : List Change) :
    (DraftBatch.after { kind, timestamp } changes).statement =
      (Batch.after { kind, timestamp } changes).statement := by
  rw [← drafted_statement, ← drafted_after]
  rfl

theorem inline_drafts (kind : BatchKind) (timestamp : Option Timestamp) (changes : List Change) :
    (DraftBatch.after { kind, timestamp } changes).inline =
      (Batch.after { kind, timestamp } changes).inline := by
  rw [← drafted_inline, ← drafted_after]
  rfl

end Batch

end TypedCql
