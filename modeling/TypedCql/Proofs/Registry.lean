import Mathlib.Data.List.Induction
import TypedCql.Mapping.Registry
import TypedCql.Proofs.Mapping

/-!
# Runs of a registry

A program defines mappings, loads mapping files and looks mappings up, in any order. What a
lookup is answered should be what the definition registered last comes to. The registry keeps
answers, so this is a matter of what it forgets and when: definitions are registered under names,
answers are kept under types, and two types may have one name.

Loading a file forgets the answers for every type of a name; defining a mapping forgets only that
of the type itself. So an answer goes out of date in exactly one way, which `Outdated` spells out:
it was kept while the mapping of another type of the same name was defined.
-/

namespace TypedCql

/-! ## Association lists

A filter is seen by a lookup only through the entries of the key looked for. -/

theorem lookup_filter_of_keeps {α β : Type} [BEq α] [LawfulBEq α] {kept : α × β → Bool} {k : α}
    {l : List (α × β)} (h : ∀ b, (k, b) ∈ l → kept (k, b) = true) :
    (l.filter kept).lookup k = l.lookup k := by
  induction l with
  | nil => rfl
  | cons entry rest ih =>
      obtain ⟨k', b⟩ := entry
      have hrest := ih fun b' hb' => h b' (List.mem_cons_of_mem _ hb')
      by_cases hk : k = k'
      · subst hk
        rw [List.filter_cons_of_pos (h b (List.mem_cons_self ..)), List.lookup_cons_self,
          List.lookup_cons_self]
      · have hne : (k == k') = false := beq_false_of_ne hk
        rw [List.lookup_cons, hne, ← hrest, List.filter_cons]
        split
        · rw [List.lookup_cons, hne]
        · rfl

theorem lookup_filter_of_drops {α β : Type} [BEq α] [LawfulBEq α] {kept : α × β → Bool} {k : α}
    {l : List (α × β)} (h : ∀ b, (k, b) ∈ l → kept (k, b) = false) :
    (l.filter kept).lookup k = none := by
  rw [List.lookup_eq_none_iff]
  rintro ⟨k', b⟩ hmem
  rw [List.mem_filter] at hmem
  rw [bne_iff_ne]
  rintro rfl
  rw [h b hmem.1] at hmem
  exact Bool.false_ne_true hmem.2

namespace Registry

/-! ## What single calls do -/

/-- The mapping kept for a type. -/
def cached? (r : Registry) (i : Nat) : Option BuiltMapping := r.cache.lookup i

/-- Registering a definition shows under its name only. -/
theorem definition?_insertDefinition (r : Registry) (entity name : String) (d : Definition) :
    (r.insertDefinition entity d).definition? name =
      if entity = name then some d else r.definition? name := by
  show List.lookup name ((entity, d) :: r.definitions.filter (·.1 != entity)) = _
  split
  · next h => rw [h, List.lookup_cons_self]
  · next h =>
      have hne : (name == entity) = false := beq_false_of_ne (Ne.symm h)
      rw [List.lookup_cons, hne]
      exact lookup_filter_of_keeps fun _ _ => bne_iff_ne.mpr (Ne.symm h)

/-- The entries of a file are registered one after the other, so the last one of a name counts. -/
theorem definition?_load (r : Registry) (file : MappingFile) (name : String) :
    (r.load file).definition? name =
      ((file.tables.reverse.find? (·.entity == name)).map TableEntry.toDefinition).or
        (r.definition? name) := by
  obtain ⟨tables⟩ := file
  show (tables.foldl loadTable r).definition? name = _
  induction tables using List.reverseRecOn with
  | nil => rfl
  | append_singleton tables t ih =>
      rw [List.foldl_append, List.reverse_append]
      show ((tables.foldl loadTable r).insertDefinition t.entity t.toDefinition).definition? name
        = _
      rw [definition?_insertDefinition]
      by_cases ht : t.entity = name
      · simp [ht]
      · simp only [ht, if_false, ih, List.reverse_singleton, List.singleton_append,
          List.find?_cons_of_neg, beq_iff_eq, not_false_eq_true]

theorem cached?_define (r : Registry) (e : EntityType) (map : TableMap) (i : Nat) :
    (r.define e map).cached? i = if e.id = i then none else r.cached? i := by
  show List.lookup i (r.cache.filter (·.1 != e.id)) = _
  split
  · next h => exact lookup_filter_of_drops fun _ _ => by simp [h]
  · next h => exact lookup_filter_of_keeps fun _ _ => bne_iff_ne.mpr (Ne.symm h)

/-- Asking for a mapping has three outcomes: the one kept, a failure that leaves no trace, or a
new one that is kept from now on. -/
theorem mapping_cases (r : Registry) (e : EntityType) :
    (∃ b, r.cached? e.id = some b ∧ (r.mapping e).1.outcome = .ok b ∧ (r.mapping e).2 = r) ∨
    r.cached? e.id = none ∧
      ((∃ error,
          (Mapping.build e ((r.definition? e.name).getD .conventional)).outcome = .error error ∧
          (r.mapping e).1.outcome = .error error ∧ (r.mapping e).2 = r) ∨
       ∃ m, (Mapping.build e ((r.definition? e.name).getD .conventional)).outcome = .ok m ∧
          (r.mapping e).1.outcome = .ok ⟨r.builds, m⟩ ∧
          (r.mapping e).2 =
            { r with cache := (e.id, ⟨r.builds, m⟩) :: r.cache, builds := r.builds + 1 }) := by
  unfold cached? mapping
  cases hcache : r.cache.lookup e.id with
  | some b => exact Or.inl ⟨b, rfl, rfl, rfl⟩
  | none =>
      refine Or.inr ⟨rfl, ?_⟩
      dsimp only
      cases hbuild : (Mapping.build e ((r.definition? e.name).getD .conventional)).outcome with
      | error error => exact Or.inl ⟨error, rfl, rfl, rfl⟩
      | ok m => exact Or.inr ⟨m, rfl, rfl, rfl⟩

theorem definition?_mapping (r : Registry) (e : EntityType) (name : String) :
    (r.mapping e).2.definition? name = r.definition? name := by
  rcases mapping_cases r e with ⟨_, -, -, hstate⟩ | ⟨-, ⟨_, -, -, hstate⟩ | ⟨_, -, -, hstate⟩⟩
  · rw [hstate]
  · rw [hstate]
  · rw [hstate]
    rfl

/-- Asking for the mapping of a type leaves those of the others alone. -/
theorem cached?_mapping_ne (r : Registry) {e : EntityType} {i : Nat} (h : e.id ≠ i) :
    (r.mapping e).2.cached? i = r.cached? i := by
  rcases mapping_cases r e with ⟨_, -, -, hstate⟩ | ⟨-, ⟨_, -, -, hstate⟩ | ⟨m, -, -, hstate⟩⟩
  · rw [hstate]
  · rw [hstate]
  · have hne : (i == e.id) = false := beq_false_of_ne (Ne.symm h)
    rw [hstate]
    show List.lookup i ((e.id, ⟨r.builds, m⟩) :: r.cache) = _
    rw [List.lookup_cons, hne]
    rfl

/-- What a lookup is answered is kept, if it was not already. -/
theorem cached?_mapping_self {r : Registry} {e : EntityType} {b : BuiltMapping} :
    (r.mapping e).2.cached? e.id = some b ↔ (r.mapping e).1.outcome = .ok b := by
  rcases mapping_cases r e with
    ⟨b', hb, ho, hstate⟩ | ⟨hnone, ⟨_, -, ho, hstate⟩ | ⟨m, -, ho, hstate⟩⟩
  · rw [hstate, ho, hb, Option.some.injEq, Except.ok.injEq]
  · rw [hstate, ho, hnone]
    exact ⟨fun h => (nomatch h), fun h => (nomatch h)⟩
  · rw [hstate, ho, Except.ok.injEq]
    show List.lookup e.id ((e.id, ⟨r.builds, m⟩) :: r.cache) = _ ↔ _
    rw [List.lookup_cons_self, Option.some.injEq]

end Registry

/-! ## Programs and their runs -/

/-- The entity types of a program, by their identities. Several may have one name. -/
structure Program where
  name : Nat → String
  members : Nat → List Member

/-- What a program does with its registry. Types appear by their identities. -/
inductive RegistryCall
  | define (i : Nat) (map : TableMap)
  | load (file : MappingFile)
  | lookup (i : Nat)

namespace Program

def type (P : Program) (i : Nat) : EntityType := ⟨i, P.name i, P.members i⟩

def step (P : Program) (r : Registry) : RegistryCall → Registry
  | .define i map => r.define (P.type i) map
  | .load file => r.load file
  | .lookup i => (r.mapping (P.type i)).2

/-- The registry after some calls, the first of them made when it was new. -/
def run (P : Program) (calls : List RegistryCall) : Registry := calls.foldl P.step .empty

/-- What a lookup is answered after the calls. -/
def answer (P : Program) (calls : List RegistryCall) (i : Nat) : Outcome Mapping :=
  ((P.run calls).mapping (P.type i)).1.outcome.map BuiltMapping.mapping

/-- The definition that a call registers under a name. -/
def registers (P : Program) (name : String) : RegistryCall → Option Definition
  | .define i map => if P.name i = name then some map.toDefinition else none
  | .load file => (file.tables.reverse.find? (·.entity == name)).map TableEntry.toDefinition
  | .lookup _ => none

/-- The definition registered last under a name. -/
def registered (P : Program) (calls : List RegistryCall) (name : String) : Option Definition :=
  calls.reverse.findSome? (P.registers name)

/-- What the definition registered last comes to for a type; a type is mapped by convention if
there is none. -/
def current (P : Program) (calls : List RegistryCall) (i : Nat) : Outcome Mapping :=
  (Mapping.build (P.type i) ((P.registered calls (P.name i)).getD .conventional)).outcome

/-- Calls after which the mapping of a type has to be built again. -/
def Forgets (P : Program) (i : Nat) : RegistryCall → Prop
  | .define j _ => j = i
  | .load file => ∃ t ∈ file.tables, t.entity = P.name i
  | .lookup _ => False

/-- A lookup was answered `m`, and none of the calls `later` made after it forgot the answer. -/
def Kept (P : Program) (calls later : List RegistryCall) (i : Nat) (m : Mapping) : Prop :=
  ∃ earlier, calls = earlier ++ .lookup i :: later ∧ P.answer earlier i = .ok m ∧
    ∀ call ∈ later, ¬P.Forgets i call

/-- A lookup was answered `m`, and while the answer was kept the mapping of another type of the
same name was defined. -/
def Outdated (P : Program) (calls : List RegistryCall) (i : Nat) (m : Mapping) : Prop :=
  ∃ later, P.Kept calls later i m ∧
    ∃ j map, .define j map ∈ later ∧ j ≠ i ∧ P.name j = P.name i

variable {P : Program} {calls later : List RegistryCall} {call : RegistryCall} {i : Nat}
  {m : Mapping}

theorem run_snoc (P : Program) (calls : List RegistryCall) (call : RegistryCall) :
    P.run (calls ++ [call]) = P.step (P.run calls) call := by
  unfold run
  rw [List.foldl_append]
  rfl

theorem registered_snoc (P : Program) (calls : List RegistryCall) (call : RegistryCall)
    (name : String) :
    P.registered (calls ++ [call]) name = (P.registers name call).or (P.registered calls name) := by
  unfold registered
  rw [List.reverse_append, List.reverse_singleton, List.singleton_append, List.findSome?_cons]
  cases P.registers name call <;> rfl

/-- **Definitions are never out of date.** The registry knows the one registered last. -/
theorem definition?_run (P : Program) (calls : List RegistryCall) (name : String) :
    (P.run calls).definition? name = P.registered calls name := by
  induction calls using List.reverseRecOn with
  | nil => rfl
  | append_singleton calls call ih =>
      rw [run_snoc, registered_snoc, ← ih]
      cases call with
      | define j map =>
          show ((P.run calls).insertDefinition (P.name j) map.toDefinition).definition? name = _
          rw [Registry.definition?_insertDefinition]
          show _ = (if P.name j = name then some map.toDefinition else none).or _
          split
          · rfl
          · rfl
      | load file => exact Registry.definition?_load _ file name
      | lookup j => exact Registry.definition?_mapping _ (P.type j) name

/-- What is kept under a type is a mapping of that type. -/
def Typed (P : Program) (r : Registry) : Prop :=
  ∀ entry ∈ r.cache, entry.2.mapping.entity = P.type entry.1

theorem typed_loadTable {r : Registry} (h : P.Typed r) (t : TableEntry) : P.Typed (r.loadTable t) :=
  fun entry hentry => h entry (List.mem_filter.mp hentry).1

theorem typed_load {r : Registry} (h : P.Typed r) (file : MappingFile) : P.Typed (r.load file) := by
  obtain ⟨tables⟩ := file
  show P.Typed (tables.foldl Registry.loadTable r)
  induction tables generalizing r with
  | nil => exact h
  | cons t rest ih => exact ih (typed_loadTable h t)

theorem typed_step {r : Registry} (h : P.Typed r) (call : RegistryCall) :
    P.Typed (P.step r call) := by
  cases call with
  | define j map => exact fun entry hentry => h entry (List.mem_filter.mp hentry).1
  | load file => exact typed_load h file
  | lookup j =>
      rcases Registry.mapping_cases r (P.type j) with
        ⟨_, -, -, hstate⟩ | ⟨-, ⟨_, -, -, hstate⟩ | ⟨m, hbuild, -, hstate⟩⟩
      · exact (congrArg P.Typed hstate).mpr h
      · exact (congrArg P.Typed hstate).mpr h
      · refine (congrArg P.Typed hstate).mpr fun entry hentry => ?_
        rcases List.mem_cons.mp hentry with rfl | hentry
        · exact Mapping.build_entity hbuild
        · exact h entry hentry

theorem typed_run (P : Program) (calls : List RegistryCall) : P.Typed (P.run calls) := by
  induction calls using List.reverseRecOn with
  | nil => exact fun _ h => absurd h List.not_mem_nil
  | append_singleton calls call ih =>
      rw [run_snoc]
      exact typed_step ih call

/-! ## What is kept -/

theorem cached?_loadTable {r : Registry} (h : P.Typed r) (t : TableEntry) (i : Nat) :
    (r.loadTable t).cached? i = if t.entity = P.name i then none else r.cached? i := by
  have hname : ∀ b, (i, b) ∈ r.cache → b.mapping.entity.name = P.name i := fun b hb =>
    congrArg EntityType.name (h (i, b) hb)
  show List.lookup i (r.cache.filter (·.2.mapping.entity.name != t.entity)) = _
  split
  · next ht => exact lookup_filter_of_drops fun b hb => by simp [hname b hb, ht]
  · next ht =>
      exact lookup_filter_of_keeps fun b hb => bne_iff_ne.mpr (hname b hb ▸ Ne.symm ht)

theorem cached?_load {r : Registry} (h : P.Typed r) (file : MappingFile) (i : Nat) :
    ((∃ t ∈ file.tables, t.entity = P.name i) → (r.load file).cached? i = none) ∧
      ((∀ t ∈ file.tables, t.entity ≠ P.name i) → (r.load file).cached? i = r.cached? i) := by
  obtain ⟨tables⟩ := file
  show ((∃ t ∈ tables, _) → (tables.foldl Registry.loadTable r).cached? i = none) ∧
    ((∀ t ∈ tables, _) → (tables.foldl Registry.loadTable r).cached? i = r.cached? i)
  induction tables using List.reverseRecOn with
  | nil => exact ⟨fun ⟨_, ht, _⟩ => absurd ht List.not_mem_nil, fun _ => rfl⟩
  | append_singleton tables t ih =>
      -- If the last entry has another name, the entries before it decide.
      have htyped : P.Typed (tables.foldl Registry.loadTable r) := typed_load h ⟨tables⟩
      rw [List.foldl_append]
      show (_ → ((tables.foldl Registry.loadTable r).loadTable t).cached? i = none) ∧
        (_ → ((tables.foldl Registry.loadTable r).loadTable t).cached? i = r.cached? i)
      rw [cached?_loadTable htyped]
      constructor
      · rintro ⟨t', ht', hname⟩
        split
        · rfl
        · next hne =>
            rcases List.mem_append.mp ht' with ht' | ht'
            · exact ih.1 ⟨t', ht', hname⟩
            · rw [List.mem_singleton] at ht'
              exact absurd (ht' ▸ hname) hne
      · intro hnone
        rw [if_neg (hnone t (List.mem_append_right _ (List.mem_singleton_self t)))]
        exact ih.2 fun t' ht' => hnone t' (List.mem_append_left _ ht')

/-- A call that forgets the mapping of a type leaves none. -/
theorem cached?_step_of_forgets {r : Registry} (h : P.Typed r) (hcall : P.Forgets i call) :
    (P.step r call).cached? i = none := by
  cases call with
  | define j map =>
      show (r.define (P.type j) map).cached? i = none
      rw [Registry.cached?_define]
      exact if_pos hcall
  | load file => exact (cached?_load h file i).1 hcall
  | lookup j => exact hcall.elim

/-- Every other call keeps it. -/
theorem cached?_step_of_keeps {r : Registry} (h : P.Typed r) (hcall : ¬P.Forgets i call)
    {b : BuiltMapping} (hb : r.cached? i = some b) : (P.step r call).cached? i = some b := by
  cases call with
  | define j map =>
      show (r.define (P.type j) map).cached? i = some b
      rw [Registry.cached?_define]
      exact (if_neg hcall).trans hb
  | load file =>
      exact ((cached?_load h file i).2 fun t ht hname => hcall ⟨t, ht, hname⟩).trans hb
  | lookup j =>
      by_cases hj : j = i
      · subst hj
        rcases Registry.mapping_cases r (P.type j) with ⟨_, -, -, hstate⟩ | ⟨hnone, -⟩
        · exact (congrArg (Registry.cached? · j) hstate).trans hb
        · exact nomatch hnone.symm.trans hb
      · exact (Registry.cached?_mapping_ne r hj).trans hb

/-- Without a mapping kept, a lookup builds one by the definition registered last. -/
theorem answer_of_uncached (h : (P.run calls).cached? i = none) :
    P.answer calls i = P.current calls i := by
  unfold answer current
  rcases Registry.mapping_cases (P.run calls) (P.type i) with
    ⟨_, hb, -, -⟩ | ⟨-, ⟨_, hbuild, ho, -⟩ | ⟨_, hbuild, ho, -⟩⟩
  · exact nomatch hb.symm.trans h
  · rw [definition?_run] at hbuild
    rw [ho]
    exact hbuild.symm
  · rw [definition?_run] at hbuild
    rw [ho]
    exact hbuild.symm

theorem answer_of_cached {b : BuiltMapping} (h : (P.run calls).cached? i = some b) :
    P.answer calls i = .ok b.mapping := by
  unfold answer
  rcases Registry.mapping_cases (P.run calls) (P.type i) with ⟨b', hb, ho, -⟩ | ⟨hnone, -⟩
  · rw [ho, Option.some.inj (h.symm.trans hb)]
    rfl
  · exact nomatch h.symm.trans hnone

/-- A mapping is kept exactly since a lookup was answered with it. -/
theorem answer_eq_ok_iff :
    P.answer calls i = .ok m ↔
      ∃ b, (P.run (calls ++ [.lookup i])).cached? i = some b ∧ b.mapping = m := by
  rw [run_snoc]
  show ((P.run calls).mapping (P.type i)).1.outcome.map BuiltMapping.mapping = .ok m ↔
    ∃ b, ((P.run calls).mapping (P.type i)).2.cached? (P.type i).id = some b ∧ b.mapping = m
  simp only [Registry.cached?_mapping_self]
  cases ((P.run calls).mapping (P.type i)).1.outcome with
  | ok b =>
      constructor
      · intro h
        exact ⟨b, rfl, Except.ok.inj h⟩
      · rintro ⟨b', hb, rfl⟩
        rw [Except.ok.inj hb]
        rfl
  | error e => exact ⟨fun h => (nomatch h), fun ⟨_, h, _⟩ => (nomatch h)⟩

theorem kept_snoc (h : P.Kept calls later i m) (hcall : ¬P.Forgets i call) :
    P.Kept (calls ++ [call]) (later ++ [call]) i m := by
  obtain ⟨earlier, rfl, hanswer, hlater⟩ := h
  refine ⟨earlier, by simp, hanswer, fun c hc => ?_⟩
  rcases List.mem_append.mp hc with hc | hc
  · exact hlater c hc
  · rw [List.mem_singleton] at hc
    exact hc ▸ hcall

theorem outdated_snoc (h : P.Outdated calls i m) (hcall : ¬P.Forgets i call) :
    P.Outdated (calls ++ [call]) i m := by
  obtain ⟨later, hkept, j, map, hmem, hj⟩ := h
  exact ⟨later ++ [call], kept_snoc hkept hcall, j, map, List.mem_append_left _ hmem, hj⟩

/-- What was kept is still there. -/
theorem cached?_of_kept (h : P.Kept calls later i m) :
    ∃ b, (P.run calls).cached? i = some b ∧ b.mapping = m := by
  obtain ⟨earlier, rfl, hanswer, hlater⟩ := h
  induction later using List.reverseRecOn with
  | nil => exact answer_eq_ok_iff.mp hanswer
  | append_singleton later call ih =>
      obtain ⟨b, hb, hm⟩ := ih fun c hc => hlater c (List.mem_append_left _ hc)
      have hcall : ¬P.Forgets i call :=
        hlater call (List.mem_append_right _ (List.mem_singleton_self call))
      refine ⟨b, ?_, hm⟩
      rw [← List.cons_append, ← List.append_assoc, run_snoc]
      exact cached?_step_of_keeps (typed_run P _) hcall hb

/-- Only a lookup of the type brings a mapping in. -/
theorem eq_lookup_of_cached {r : Registry} (h : P.Typed r) (hnone : r.cached? i = none)
    {b : BuiltMapping} (hb : (P.step r call).cached? i = some b) : call = .lookup i := by
  by_cases hforget : P.Forgets i call
  · rw [cached?_step_of_forgets h hforget] at hb
    exact nomatch hb
  · cases call with
    | define j map =>
        have hkept := (Registry.cached?_define r (P.type j) map i).trans (if_neg hforget)
        exact nomatch hb.symm.trans (hkept.trans hnone)
    | load file =>
        have hkept := (cached?_load h file i).2 fun t ht hname => hforget ⟨t, ht, hname⟩
        exact nomatch hb.symm.trans (hkept.trans hnone)
    | lookup j =>
        by_cases hj : j = i
        · rw [hj]
        · have hkept := Registry.cached?_mapping_ne r (e := P.type j) hj
          exact nomatch hb.symm.trans (hkept.trans hnone)

/-- A file without an entry for a name registers nothing under it. -/
theorem registers_load {file : MappingFile} {name : String}
    (h : ∀ t ∈ file.tables, t.entity ≠ name) : P.registers name (.load file) = none := by
  have hfind : file.tables.reverse.find? (·.entity == name) = none := by
    rw [List.find?_eq_none]
    intro t ht hname
    exact h t (List.mem_reverse.mp ht) (beq_iff_eq.mp hname)
  exact congrArg (Option.map TableEntry.toDefinition) hfind

/-- The one call that changes the definition of a type and forgets nothing is the definition of
another type of its name. -/
theorem registers_of_keeps (h : ¬P.Forgets i call) :
    P.registers (P.name i) call = none ∨
      ∃ j map, call = .define j map ∧ j ≠ i ∧ P.name j = P.name i := by
  cases call with
  | define j map =>
      by_cases hname : P.name j = P.name i
      · exact Or.inr ⟨j, map, rfl, h, hname⟩
      · exact Or.inl (if_neg hname)
  | load file => exact Or.inl (registers_load fun t ht hname => h ⟨t, ht, hname⟩)
  | lookup j => exact Or.inl rfl

theorem current_snoc (h : P.registers (P.name i) call = none) :
    P.current (calls ++ [call]) i = P.current calls i := by
  unfold current
  rw [registered_snoc, h]
  rfl

/-- What is there was kept, and is either what the definition registered last comes to or
outdated. -/
theorem kept_of_cached {b : BuiltMapping} (h : (P.run calls).cached? i = some b) :
    (∃ later, P.Kept calls later i b.mapping) ∧
      (P.current calls i = .ok b.mapping ∨ P.Outdated calls i b.mapping) := by
  induction calls using List.reverseRecOn with
  | nil => exact nomatch h
  | append_singleton calls call ih =>
      cases hbefore : (P.run calls).cached? i with
      | none =>
          -- The mapping is new, so this call asked for it.
          have hcall : call = .lookup i :=
            eq_lookup_of_cached (typed_run P calls) hbefore (run_snoc P calls call ▸ h)
          subst hcall
          have hanswer : P.answer calls i = .ok b.mapping := answer_eq_ok_iff.mpr ⟨b, h, rfl⟩
          refine ⟨⟨[], calls, rfl, hanswer, fun _ hc => absurd hc List.not_mem_nil⟩, Or.inl ?_⟩
          rw [current_snoc rfl, ← answer_of_uncached hbefore]
          exact hanswer
      | some b' =>
          -- The mapping is old; what may have changed is the definition.
          have hforget : ¬P.Forgets i call := by
            intro hforget
            rw [run_snoc, cached?_step_of_forgets (typed_run P calls) hforget] at h
            exact nomatch h
          have hb : b = b' := by
            rw [run_snoc, cached?_step_of_keeps (typed_run P calls) hforget hbefore] at h
            exact (Option.some.inj h).symm
          subst hb
          obtain ⟨⟨later, hkept⟩, hcurrent⟩ := ih hbefore
          refine ⟨⟨_, kept_snoc hkept hforget⟩, ?_⟩
          rcases registers_of_keeps hforget with hsilent | ⟨j, map, rfl, hj, hname⟩
          · rw [current_snoc hsilent]
            exact hcurrent.imp_right fun houtdated => outdated_snoc houtdated hforget
          · have hmem : RegistryCall.define j map ∈ later ++ [.define j map] :=
              List.mem_append_right _ (List.mem_singleton_self _)
            exact Or.inr ⟨_, kept_snoc hkept hforget, j, map, hmem, hj, hname⟩

/-- **When an answer is out of date.** A lookup is answered with an outdated mapping if there is
one, and otherwise with what the definition registered last comes to; so the latter is the answer
exactly when every outdated mapping happens to be the same. -/
theorem answer_eq_current_iff (P : Program) (calls : List RegistryCall) (i : Nat) :
    (∀ m, P.Outdated calls i m → P.answer calls i = .ok m) ∧
      (P.answer calls i = P.current calls i ↔
        ∀ m, P.Outdated calls i m → P.current calls i = .ok m) := by
  have houtdated : ∀ m, P.Outdated calls i m → P.answer calls i = .ok m := by
    rintro m ⟨later, hkept, -⟩
    obtain ⟨b, hb, rfl⟩ := cached?_of_kept hkept
    exact answer_of_cached hb
  refine ⟨houtdated, ?_⟩
  constructor
  · intro hanswer m hm
    rw [← hanswer]
    exact houtdated m hm
  · intro hall
    cases hcached : (P.run calls).cached? i with
    | none => exact answer_of_uncached hcached
    | some b =>
        rw [answer_of_cached hcached]
        rcases (kept_of_cached hcached).2 with hcurrent | hm
        · exact hcurrent.symm
        · exact (hall b.mapping hm).symm

/-- Two types of one name. -/
def namesakes : Program := ⟨fun _ => "Person", fun _ => personType.members⟩

/-- **A stale answer.** The mapping of one type is looked up, a table is named for the other type,
and the first one goes on being mapped to the table it had. -/
theorem stale_namesakes :
    let calls : List RegistryCall := [.lookup 1, .define 0 (.ofSettings [.table "people"])]
    namesakes.answer calls 1 ≠ namesakes.current calls 1 ∧
      (namesakes.current calls 1).map Mapping.table = .ok "people" ∧
      (namesakes.answer calls 1).map Mapping.table = .ok "Person" := by
  refine ⟨fun h => ?_, rfl, rfl⟩
  have htable := congrArg (Except.map Mapping.table) h
  exact absurd (Except.ok.inj htable) (by decide : "Person" ≠ "people")

end Program

end TypedCql
