import TypedCql.Proofs.Clauses

/-!
# Comparing two visits

What does a visit depend on? The question is answered by comparing two visits: of an expression and
of the same expression with conversions around some of its parts, for statements of the same kind or
of two kinds, and from parts that agree on some clauses. `Comparison` says what is compared, and
`Comparison.Tracks` that two steps stay side by side: they fail together and with the same error, or
both go through, agree again on those clauses, and leave all others as they were.
-/

namespace TypedCql

/-- The outcomes are related results or the same error. Where `left` holds the first of them may
fail whatever the second is, and where `right` holds the second. -/
inductive Outcome.Agrees {α β : Type} (left right : Prop) (R : α → β → Prop) :
    Outcome α → Outcome β → Prop
  | ok {a : α} {b : β} (h : R a b) : Agrees left right R (.ok a) (.ok b)
  | error (e : Error) : Agrees left right R (.error e) (.error e)
  | left (h : left) (e : Error) (o : Outcome β) : Agrees left right R (.error e) o
  | right (h : right) (o : Outcome α) (e : Error) : Agrees left right R o (.error e)

namespace Outcome.Agrees

variable {α β : Type} {left right : Prop} {R : α → β → Prop}

theorem of_eq (o : Outcome α) : Agrees left right Eq o o := by
  cases o with
  | ok a => exact .ok rfl
  | error e => exact .error e

/-- Where either may fail on its own, only results have to be compared. -/
theorem of_either {o : Outcome α} {o' : Outcome β} (hleft : left) (hright : right)
    (h : ∀ a b, o = .ok a → o' = .ok b → R a b) : Agrees left right R o o' := by
  cases o with
  | error e => exact .left hleft e o'
  | ok a =>
      cases o' with
      | error e => exact .right hright _ e
      | ok b => exact .ok (h a b rfl rfl)

/-- Results that come out on both sides are related. -/
theorem related {a : α} {b : β} (h : Agrees left right R (.ok a) (.ok b)) : R a b := by
  cases h with
  | ok h => exact h

theorem imp {R' : α → β → Prop} {o : Outcome α} {o' : Outcome β} (h : Agrees left right R o o')
    (himp : ∀ a b, R a b → R' a b) : Agrees left right R' o o' := by
  cases h with
  | ok h => exact .ok (himp _ _ h)
  | error e => exact .error e
  | left h e => exact .left h e _
  | right h _ e => exact .right h _ e

/-- Where only the second may fail on its own, it does, or else the outcomes are equal. -/
theorem eq_or_fails {o o' : Outcome α} (h : Agrees left right Eq o o') (hleft : ¬left) :
    o' = o ∨ right ∧ ∃ e, o' = .error e := by
  cases h with
  | ok h => exact .inl (congrArg Except.ok h.symm)
  | error e => exact .inl rfl
  | left h => exact absurd h hleft
  | right h _ e => exact .inr ⟨h, e, rfl⟩

/-- What follows agrees if it does after related results. -/
theorem bind {α' β' : Type} {R' : α' → β' → Prop} {o : Outcome α} {o' : Outcome β}
    {f : α → Outcome α'} {f' : β → Outcome β'} (h : Agrees left right R o o')
    (hf : ∀ a b, R a b → Agrees left right R' (f a) (f' b)) :
    Agrees left right R' (o >>= f) (o' >>= f') := by
  cases h with
  | @ok a b h => exact hf a b h
  | error e => exact .error e
  | left h e => exact .left h e _
  | right h _ e => exact .right h _ e

end Outcome.Agrees

/-- Two visits: the statements they are for, whether conversions may hide columns from the second,
and the clauses that the parts before them agree on. -/
structure Comparison where
  mapping : Mapping
  kind : StatementKind
  kind' : StatementKind
  rows : Bool
  clauses : Clause → Prop

namespace Comparison

variable (k : Comparison)

def context : Context := ⟨k.mapping, k.kind⟩

def context' : Context := ⟨k.mapping, k.kind'⟩

variable {k} in
theorem context'_eq (h : k.kind = k.kind') : k.context' = k.context := by
  rw [context, context', h]

/-- When the first visit may fail where the second does not. -/
def FirstMayFail : Prop := k.kind ≠ k.kind'

/-- When the second visit may fail where the first does not. -/
def SecondMayFail : Prop := k.kind ≠ k.kind' ∨ k.rows = true

/-- Outcomes of the two visits agree. -/
def Agrees {α β : Type} (R : α → β → Prop) (o : Outcome α) (o' : Outcome β) : Prop :=
  Outcome.Agrees k.FirstMayFail k.SecondMayFail R o o'

/-- From parts `p` one visit leaves `q`, and the other `q'`. -/
structure Follows (p q q' : Parts) : Prop where
  agree : q.AgreeOn k.clauses q'
  elsewhere : p.AgreeOn (fun i => ¬k.clauses i) q

/-- Side by side, the steps agree from parts that agree. -/
def Tracks (st st' : Step) : Prop :=
  ∀ p p' : Parts, p.AgreeOn k.clauses p' →
    k.Agrees (k.Follows p) (st p).outcome (st' p').outcome

variable {k} {st st' next next' : Step}

theorem Follows.trans {p q q' r r' : Parts} (h : k.Follows p q q') (h' : k.Follows q r r') :
    k.Follows p r r' where
  agree := h'.agree
  elsewhere := h.elsewhere.trans h'.elsewhere

/-- The same change of a clause that is agreed on. -/
theorem Follows.modify {p q q' : Parts} (h : k.Follows p q q') {i : Clause} {f : Parts → Parts}
    (hf : i.Alone f) (hi : k.clauses i) : k.Follows p (f q) (f q') where
  agree j hj := by
    by_cases hji : j = i
    · subst hji
      exact hf.here (h.agree j hj)
    · rw [hf.elsewhere q j hji, hf.elsewhere q' j hji]
      exact h.agree j hj
  elsewhere j hj := by
    have hji : j ≠ i := fun hji => hj (hji ▸ hi)
    rw [hf.elsewhere q j hji]
    exact h.elsewhere j hj

/-! ## Putting steps together -/

theorem tracks_pure : k.Tracks Traced.pure Traced.pure :=
  fun p _ h => .ok ⟨h, .refl p⟩

theorem tracks_fail (e : Error) : k.Tracks (Step.fail e) (Step.fail e) :=
  fun _ _ _ => .error e

/-- A second visit that fails is accounted for where it may. -/
theorem tracks_of_fails (h : k.SecondMayFail) (hst' : ∀ p, ∃ e, (st' p).outcome = .error e) :
    k.Tracks st st' := by
  intro p p' _
  obtain ⟨e, he⟩ := hst' p'
  rw [he]
  exact .right h _ e

theorem tracks_modify {i : Clause} {f : Parts → Parts} (hf : i.Alone f) (hi : k.clauses i) :
    k.Tracks (Step.modify f) (Step.modify f) :=
  fun p _ h => .ok (Follows.modify ⟨h, .refl p⟩ hf hi)

theorem tracks_seq (h : k.Tracks st st') (hnext : k.Tracks next next') :
    k.Tracks (st >=> next) (st' >=> next') := by
  intro p p' hp
  show k.Agrees _ (st p >>= next).outcome (st' p' >>= next').outcome
  rw [Traced.outcome_bind, Traced.outcome_bind]
  refine (h p p' hp).bind fun q q' hq => ?_
  exact (hnext q q' hq.agree).imp fun r r' hr => hq.trans hr

theorem tracks_given {α β : Type} {R : α → β → Prop} {o : Outcome α} {o' : Outcome β}
    {f : α → Step} {f' : β → Step} (h : k.Agrees R o o')
    (hf : ∀ a b, R a b → k.Tracks (f a) (f' b)) :
    k.Tracks (Step.given o f) (Step.given o' f') := by
  intro p p' hp
  show k.Agrees _ (Traced.ofOutcome o >>= fun a => f a p).outcome
    (Traced.ofOutcome o' >>= fun b => f' b p').outcome
  rw [Traced.outcome_bind, Traced.outcome_bind]
  exact h.bind fun a b hab => hf a b hab p p' hp

/-- The same result is given to both. -/
theorem tracks_given_same {α : Type} {o : Outcome α} {f f' : α → Step}
    (h : ∀ a, k.Tracks (f a) (f' a)) : k.Tracks (Step.given o f) (Step.given o f') := by
  refine tracks_given (.of_eq o) fun a b hab => ?_
  subst hab
  exact h a

theorem tracks_sequence {steps steps' : List Step} (h : List.Forall₂ k.Tracks steps steps') :
    k.Tracks (Step.sequence steps) (Step.sequence steps') := by
  induction h with
  | nil => exact tracks_pure
  | cons h _ ih => exact tracks_seq h ih

theorem tracks_separated {s : Scope} {separator : String}
    (hwrite : k.Tracks (Step.write s separator) (Step.write s separator)) {steps steps' : List Step}
    (h : List.Forall₂ k.Tracks steps steps') :
    k.Tracks (Step.separated s separator steps) (Step.separated s separator steps') := by
  induction h with
  | nil => exact tracks_pure
  | cons h hrest ih =>
      cases hrest with
      | nil => exact h
      | cons => exact tracks_seq h (tracks_seq hwrite ih)

end Comparison

end TypedCql
