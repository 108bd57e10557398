import TypedCql.Proofs.Registry

/-!
# What a lookup does not depend on

Definitions are registered under the names of types, and what is built from them is kept under the
types themselves. A call that has nothing to do with a name is `Foreign` to it, and the lookups
among the calls always are: what they leave behind is what the next lookup would have built.
`answer_framed` says that foreign calls never show in an answer, and that failed lookups show in
nothing at all.
-/

namespace TypedCql

namespace Program

variable {P : Program} {calls later : List RegistryCall} {call : RegistryCall} {i : Nat}

/-- The call registers nothing under the name. -/
def Foreign (P : Program) (name : String) : RegistryCall → Prop
  | .define j _ => P.name j ≠ name
  | .load file => ∀ t ∈ file.tables, t.entity ≠ name
  | .lookup _ => True

/-! ## One call -/

theorem not_forgets_of_foreign (h : P.Foreign (P.name i) call) : ¬P.Forgets i call := by
  cases call with
  | define j map =>
      rintro rfl
      exact h rfl
  | load file => exact fun ⟨t, ht, hname⟩ => h t ht hname
  | lookup j => exact id

theorem registers_of_foreign {name : String} (h : P.Foreign name call) :
    P.registers name call = none := by
  cases call with
  | define j map => exact if_neg h
  | load file => exact registers_load h
  | lookup j => rfl

/-- A foreign call leaves a mapping that was kept, and one that it leaves where none was kept is the
answer to its lookup. -/
theorem answer_snoc_of_foreign (h : P.Foreign (P.name i) call) :
    P.answer (calls ++ [call]) i = P.answer calls i := by
  have hforget := not_forgets_of_foreign h
  have htyped := typed_run P calls
  cases hbefore : (P.run calls).cached? i with
  | some b =>
      have hafter : (P.run (calls ++ [call])).cached? i = some b := by
        rw [run_snoc]
        exact cached?_step_of_keeps htyped hforget hbefore
      rw [answer_of_cached hbefore, answer_of_cached hafter]
  | none =>
      cases hafter : (P.run (calls ++ [call])).cached? i with
      | none =>
          rw [answer_of_uncached hbefore, answer_of_uncached hafter,
            current_snoc (registers_of_foreign h)]
      | some b =>
          -- Only the lookup of the type itself builds for it, and what it built it answered.
          have hcall : call = .lookup i :=
            eq_lookup_of_cached htyped hbefore (run_snoc P calls call ▸ hafter)
          subst hcall
          rw [answer_of_cached hafter, answer_eq_ok_iff.mpr ⟨b, hafter, rfl⟩]

/-- Where a lookup fails, it leaves the registry as it was. -/
theorem run_snoc_of_error {err : Error} (h : P.answer calls i = .error err) :
    P.run (calls ++ [.lookup i]) = P.run calls := by
  rw [run_snoc]
  show ((P.run calls).mapping (P.type i)).2 = P.run calls
  unfold answer at h
  rcases Registry.mapping_cases (P.run calls) (P.type i) with
    ⟨_, -, -, hstate⟩ | ⟨-, ⟨_, -, -, hstate⟩ | ⟨_, -, hanswer, -⟩⟩
  · exact hstate
  · exact hstate
  · rw [hanswer] at h
    exact nomatch h

/-- The lookup after a definition is answered by what this comes to. -/
theorem answer_snoc_define (map : TableMap) :
    P.answer (calls ++ [.define i map]) i =
      (Mapping.build (P.type i) map.toDefinition).outcome := by
  have hforgotten : (P.run (calls ++ [.define i map])).cached? i = none := by
    rw [run_snoc]
    exact cached?_step_of_forgets (typed_run P calls) rfl
  rw [answer_of_uncached hforgotten, current, registered_snoc, registers, if_pos rfl]
  rfl

/-! ## Many calls -/

theorem answer_append_of_foreign (h : ∀ call ∈ later, P.Foreign (P.name i) call) :
    P.answer (calls ++ later) i = P.answer calls i := by
  -- From the end, since the step is about the last of the calls made so far.
  induction later using List.reverseRecOn with
  | nil => rw [List.append_nil]
  | append_singleton later call ih =>
      have hcall := h call (List.mem_append_right _ (List.mem_singleton_self call))
      rw [← List.append_assoc, answer_snoc_of_foreign hcall]
      exact ih fun call hmem => h call (List.mem_append_left _ hmem)

/-- **Lookups are framed by names, and failed ones leave no trace.** -/
theorem answer_framed (P : Program) (calls : List RegistryCall) (i : Nat) :
    (∀ later, (∀ call ∈ later, P.Foreign (P.name i) call) →
      P.answer (calls ++ later) i = P.answer calls i) ∧
    (∀ j err, P.answer calls j = .error err → P.run (calls ++ [.lookup j]) = P.run calls) ∧
    ∀ map later, (∀ call ∈ later, P.Foreign (P.name i) call) →
      P.answer (calls ++ .define i map :: later) i =
        (Mapping.build (P.type i) map.toDefinition).outcome := by
  refine ⟨fun later => answer_append_of_foreign, fun j err => run_snoc_of_error, ?_⟩
  intro map later hlater
  rw [← List.singleton_append, ← List.append_assoc, answer_append_of_foreign hlater]
  exact answer_snoc_define map

/-- People, and houses with the same members. -/
def residents : Program :=
  ⟨fun i => if i = 0 then "Person" else "House", fun _ => personType.members⟩

/-- What happens to houses while people cannot be mapped, since two of their members share a column:
the houses get a mapping, and people are none the better for it until they are defined anew. -/
theorem answer_framed_residents :
    let calls : List RegistryCall :=
      [.define 0 (.ofSettings [.column "verified" [.name "active"]])]
    let later : List RegistryCall :=
      [.lookup 1, .define 1 (.ofSettings [.table "houses"]), .lookup 0,
        .load ⟨[{ entity := "House" }]⟩, .lookup 1]
    let clash : Error := .mapping (.duplicateColumn "active" "Person")
    (∀ call ∈ later, residents.Foreign (residents.name 0) call) ∧
      residents.answer calls 0 = .error clash ∧
      residents.answer (calls ++ later) 0 = .error clash ∧
      residents.run (calls ++ [.lookup 0]) = residents.run calls ∧
      (residents.answer (calls ++ .define 0 (.ofSettings [.table "people"]) :: later) 0).map
        Mapping.table = .ok "people" := by
  intro calls later clash
  have hforeign : ∀ call ∈ later, residents.Foreign (residents.name 0) call := by
    simp [later, Foreign, residents]
  have hclash : residents.answer calls 0 = .error clash := rfl
  obtain ⟨hframe, hfailed, hdefined⟩ := answer_framed residents calls 0
  refine ⟨hforeign, hclash, ?_, hfailed 0 clash hclash, ?_⟩
  · rw [hframe later hforeign]
    exact hclash
  · rw [hdefined _ later hforeign]
    rfl

end Program

end TypedCql
