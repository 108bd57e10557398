import TypedCql.Query.Compile

/-!
# Steps that go through

A step of the compiler takes parts to parts, or fails. `Yields st p q` says that the step `st`
goes through from `p` and leaves `q`; there is one equation for every way in which the compiler
puts steps together, so that no later proof opens the monad of traced outcomes. `Writes st t o` is
the sharper statement for the steps that do nothing but write a condition.
-/

namespace TypedCql

/-! ## Outcomes -/

theorem Outcome.bind_eq_ok {ε α β : Type} {x : Except ε α} {f : α → Except ε β} {b : β} :
    (x >>= f) = .ok b ↔ ∃ a, x = .ok a ∧ f a = .ok b := by
  cases x with
  | ok a => exact ⟨fun h => ⟨a, rfl, h⟩, fun ⟨_, ha, h⟩ => Except.ok.inj ha ▸ h⟩
  | error e => exact ⟨fun h => (nomatch h), fun ⟨_, ha, _⟩ => (nomatch ha)⟩

theorem Outcome.map_eq_ok {ε α β : Type} {x : Except ε α} {f : α → β} {b : β} :
    x.map f = .ok b ↔ ∃ a, x = .ok a ∧ f a = b := by
  cases x with
  | ok a =>
      constructor
      · intro h
        exact ⟨a, rfl, Except.ok.inj h⟩
      · rintro ⟨a', ha, rfl⟩
        rw [Except.ok.inj ha]
        rfl
  | error e => exact ⟨fun h => (nomatch h), fun ⟨_, ha, _⟩ => (nomatch ha)⟩

namespace Traced

theorem outcome_bind {α β : Type} (t : Traced α) (f : α → Traced β) :
    (t >>= f).outcome = t.outcome >>= fun a => (f a).outcome := by
  show (Traced.bind t f).outcome = _
  unfold Traced.bind
  cases t.outcome <;> rfl

theorem bind_eq_ok {α β : Type} {t : Traced α} {f : α → Traced β} {b : β} :
    (t >>= f).outcome = .ok b ↔ ∃ a, t.outcome = .ok a ∧ (f a).outcome = .ok b := by
  rw [outcome_bind]
  exact Outcome.bind_eq_ok

theorem outcome_map {α β : Type} (f : α → β) (t : Traced α) :
    (f <$> t).outcome = t.outcome.map f := by
  obtain ⟨events, outcome⟩ := t
  cases outcome <;> rfl

theorem map_ofOutcome {α β : Type} (f : α → β) (o : Except Error α) :
    ofOutcome (o.map f) = f <$> ofOutcome o := by
  cases o <;> rfl

/-- What follows cannot fail: the outcome is that of the first computation, taken further. -/
theorem outcome_bind_of_ok {α β : Type} (t : Traced α) {f : α → Traced β} {g : α → β}
    (h : ∀ a, (f a).outcome = .ok (g a)) : (t >>= f).outcome = t.outcome.map g := by
  rw [outcome_bind]
  cases t.outcome with
  | ok a => exact h a
  | error e => rfl

/-- Events are reported in the order of the computations, however these are put together. -/
theorem bind_assoc {α β γ : Type} (t : Traced α) (f : α → Traced β) (g : β → Traced γ) :
    t >>= f >>= g = t >>= fun a => f a >>= g := by
  show Traced.bind (Traced.bind t f) g = Traced.bind t fun a => Traced.bind (f a) g
  obtain ⟨events, outcome⟩ := t
  cases outcome with
  | error e => rfl
  | ok a =>
      unfold Traced.bind
      dsimp only
      cases (f a).outcome with
      | error e => rfl
      | ok b => simp only [List.append_assoc]

instance : LawfulMonad Traced :=
  LawfulMonad.mk' Traced
    (by
      intro α t
      show Traced.bind t Traced.pure = t
      obtain ⟨events, outcome⟩ := t
      cases outcome with
      | error e => rfl
      | ok a => simp [Traced.bind, Traced.pure])
    (by
      intro α β a f
      rfl)
    bind_assoc

@[simp] theorem outcome_fail {α : Type} (e : Error) : (fail e : Traced α).outcome = .error e := rfl

@[simp] theorem outcome_ofOutcome {α : Type} (o : Except Error α) : (ofOutcome o).outcome = o := rfl

end Traced

namespace Step

def Yields (st : Step) (p q : Parts) : Prop := (st p).outcome = .ok q

variable {p q r : Parts} {st first next : Step}

@[simp] theorem yields_pure : Yields Traced.pure p q ↔ p = q := by
  simp [Yields, Traced.pure]

@[simp] theorem yields_fail {e : Error} : Yields (fail e) p q ↔ False := by
  simp [Yields, fail]

@[simp] theorem yields_modify {f : Parts → Parts} : Yields (modify f) p q ↔ f p = q := by
  simp [Yields, modify, Traced.pure]

theorem yields_seq :
    Yields (first >=> next) p r ↔ ∃ q, first.Yields p q ∧ next.Yields q r :=
  Traced.bind_eq_ok

theorem yields_given {α : Type} {o : Outcome α} {k : α → Step} :
    Yields (given o k) p q ↔ ∃ a, o = .ok a ∧ (k a).Yields p q :=
  Traced.bind_eq_ok

theorem yields_sequence_append {steps steps' : List Step} {p q : Parts} :
    (sequence (steps ++ steps')).Yields p q ↔
      ∃ r, (sequence steps).Yields p r ∧ (sequence steps').Yields r q := by
  induction steps generalizing p with
  | nil =>
      constructor
      · intro h
        exact ⟨p, yields_pure.mpr rfl, h⟩
      · rintro ⟨r, hr, h⟩
        rw [yields_pure.mp hr]
        exact h
  | cons st rest ih =>
      constructor
      · intro h
        obtain ⟨r, hfirst, hrest⟩ := yields_seq.mp h
        obtain ⟨r', hr', h'⟩ := ih.mp hrest
        exact ⟨r', yields_seq.mpr ⟨r, hfirst, hr'⟩, h'⟩
      · rintro ⟨r', hsteps, h'⟩
        obtain ⟨r, hfirst, hr'⟩ := yields_seq.mp hsteps
        exact yields_seq.mpr ⟨r, hfirst, ih.mpr ⟨r', hr', h'⟩⟩

/-- What each of some steps keeps related, all of them together do. -/
theorem sequence_relates {R : Parts → Parts → Prop} (hrefl : ∀ p, R p p)
    (htrans : ∀ {p q r}, R p q → R q r → R p r) :
    ∀ {steps : List Step}, (∀ st ∈ steps, ∀ p q, st.Yields p q → R p q) →
      ∀ p q, (sequence steps).Yields p q → R p q
  | [], _, p, q, h => yields_pure.mp h ▸ hrefl p
  | st :: rest, hsteps, p, q, h => by
      obtain ⟨r, hpr, hrq⟩ := yields_seq.mp h
      have hfirst : R p r := hsteps st (List.mem_cons_self ..) p r hpr
      have hrest : R r q :=
        sequence_relates hrefl htrans (fun st' h' => hsteps st' (List.mem_cons_of_mem _ h')) r q hrq
      exact htrans hfirst hrest

/-! ## Writing conditions -/

@[simp] theorem conditions_addCondition_self (p : Parts) (t : ConditionTarget) (f : Fragment) :
    (p.addCondition t f).conditions t = p.conditions t ++ f := by
  cases t <;> rfl

theorem conditions_addCondition_ne (p : Parts) {t t' : ConditionTarget} (h : t' ≠ t)
    (f : Fragment) : (p.addCondition t f).conditions t' = p.conditions t' := by
  cases t <;> cases t' <;> first | rfl | exact absurd rfl h

theorem addCondition_addCondition (p : Parts) (t : ConditionTarget) (f g : Fragment) :
    (p.addCondition t f).addCondition t g = p.addCondition t (f ++ g) := by
  cases t with
  | rows => exact congrArg (fun c => { p with rowConditions := c }) (List.append_assoc ..)
  | change => exact congrArg (fun c => { p with changeConditions := c }) (List.append_assoc ..)

/-- The step adds a fragment to some conditions and does nothing else, or fails, the same way
whatever the parts before it are. -/
def Writes (st : Step) (t : ConditionTarget) (o : Outcome Fragment) : Prop :=
  ∀ p, (st p).outcome = o.map (p.addCondition t)

variable {s : Scope} {t : ConditionTarget} {o o' : Outcome Fragment} {f g : Fragment}

theorem writes_writeFragment (s : Scope) (f : Fragment) :
    Writes (writeFragment s f) s.target (.ok f) :=
  fun _ => rfl

theorem writes_write (s : Scope) (text : String) :
    Writes (write s text) s.target (.ok [.verbatim text]) :=
  fun _ => rfl

theorem writes_given {α : Type} {a : Outcome α} {k : α → Step} {k' : α → Outcome Fragment}
    (h : ∀ x, a = .ok x → Writes (k x) t (k' x)) : Writes (given a k) t (a >>= k') := by
  intro p
  show (Traced.ofOutcome a >>= fun x => k x p).outcome = _
  rw [Traced.outcome_bind, Traced.outcome_ofOutcome]
  cases a with
  | ok x => exact h x rfl p
  | error e => rfl

theorem writes_given_ok {α : Type} {a : Outcome α} {k : α → Step} {x : α} (ha : a = .ok x)
    (h : Writes (k x) t o) : Writes (given a k) t o := by
  intro p
  show (Traced.ofOutcome a >>= fun x => k x p).outcome = _
  rw [Traced.outcome_bind, Traced.outcome_ofOutcome, ha]
  exact h p

theorem writes_seq (h : Writes first t o) (h' : Writes next t o') :
    Writes (first >=> next) t (o >>= fun f => o'.map (f ++ ·)) := by
  intro p
  show (first p >>= next).outcome = _
  rw [Traced.outcome_bind, h p]
  cases o with
  | error e => rfl
  | ok f =>
      show (next (p.addCondition t f)).outcome = _
      rw [h' (p.addCondition t f)]
      cases o' with
      | error e => rfl
      | ok g => exact congrArg Except.ok (addCondition_addCondition p t f g)

end Step

end TypedCql
