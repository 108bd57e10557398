import TypedCql.Proofs.Contribution
import TypedCql.Proofs.Templates

/-!
# What the variants of a table share

Families over the variants of a table, one thing for each of them, and what it means that they
differ in names only: columns in one place, computations that fail all together or not at all,
fragments of one template, and parts with the same templates in them. A family of steps is `Steady`
when it takes such parts to such parts. There is one lemma for each way in which the compiler puts
steps together; a name may only be written where the conditions do not end in one, which is what the
assertions before and after a step keep track of.
-/

namespace TypedCql

variable {t₀ : Table} {N : String → Prop}

/-! ## Columns -/

/-- The columns of the variants in one place. -/
def ColumnFamily (col : t₀.Variant → Column) : Prop :=
  ∃ i, i < t₀.mapping.columns.length ∧ ∀ v, v.table.mapping.columns[i]? = some (col v)

/-- What does not depend on its name is the same for a column of all variants. -/
theorem ColumnFamily.same {β : Type} {col : t₀.Variant → Column} (h : ColumnFamily col)
    (f : Column → β) (hf : ∀ c, f c.unnamed = f c) : ∃ b, ∀ v, f (col v) = b := by
  obtain ⟨i, hi, hcol⟩ := h
  refine ⟨f (t₀.mapping.columns.get ⟨i, hi⟩), fun v => ?_⟩
  have hplace := congrArg (fun cs : List Column => cs[i]?) v.renames.columns
  rw [List.getElem?_map, List.getElem?_map, hcol v, List.getElem?_eq_getElem hi] at hplace
  have hunnamed := Option.some.inj hplace
  rw [← hf, hunnamed, hf]
  rfl

theorem columns_family (t₀ : Table) :
    ∃ cols : List (t₀.Variant → Column), (∀ col ∈ cols, ColumnFamily col) ∧
      ∀ v, v.table.mapping.columns = cols.map (· v) := by
  have hlength : ∀ v : t₀.Variant,
      v.table.mapping.columns.length = t₀.mapping.columns.length := by
    intro v
    have h := congrArg List.length v.renames.columns
    rwa [List.length_map, List.length_map] at h
  refine ⟨List.ofFn fun (i : Fin t₀.mapping.columns.length) v =>
    v.table.mapping.columns.get (i.cast (hlength v).symm), ?_, ?_⟩
  · intro col hcol
    obtain ⟨i, rfl⟩ := List.mem_ofFn.mp hcol
    refine ⟨i, i.isLt, fun v => ?_⟩
    exact List.getElem?_eq_getElem _
  · intro v
    rw [List.map_ofFn]
    refine List.ext_getElem ?_ fun i _ _ => ?_
    · rw [List.length_ofFn, hlength v]
    · simp

/-- The first column that has a property is in the same place everywhere, if the property does not
depend on names. -/
theorem find?_family {p : Column → Bool} (hp : ∀ c, p c.unnamed = p c) :
    ∀ {cols : List (t₀.Variant → Column)}, (∀ col ∈ cols, ColumnFamily col) →
      (∀ v, (cols.map (· v)).find? p = none) ∨
        ∃ col ∈ cols, ∀ v, (cols.map (· v)).find? p = some (col v)
  | [], _ => Or.inl fun _ => rfl
  | col :: cols, h => by
      obtain ⟨b, hb⟩ := (h col (List.mem_cons_self ..)).same p hp
      cases b with
      | true =>
          refine Or.inr ⟨col, List.mem_cons_self .., fun v => ?_⟩
          rw [List.map_cons, List.find?_cons_of_pos (hb v)]
      | false =>
          have hskip : ∀ v, ((col :: cols).map (· v)).find? p = (cols.map (· v)).find? p := by
            intro v
            rw [List.map_cons, List.find?_cons_of_neg (by simp [hb v])]
          simp only [hskip]
          refine (find?_family hp fun col hcol => h col (List.mem_cons_of_mem _ hcol)).imp id ?_
          rintro ⟨col, hcol, hfind⟩
          exact ⟨col, List.mem_cons_of_mem _ hcol, hfind⟩

/-- A member is mapped in all variants, to columns in one place, or in none. -/
theorem column?_family (t₀ : Table) (member : String) :
    (∀ v : t₀.Variant, v.table.mapping.column? member = none) ∨
      ∃ col : t₀.Variant → Column, ColumnFamily col ∧
        ∀ v, v.table.mapping.column? member = some (col v) := by
  obtain ⟨cols, hcols, hcolumns⟩ := columns_family t₀
  simp only [Mapping.column?, hcolumns]
  have hmember : ∀ c : Column, (c.unnamed.member.name == member) = (c.member.name == member) :=
    fun _ => rfl
  refine (find?_family (p := fun c => c.member.name == member) hmember hcols).imp id ?_
  rintro ⟨col, hcol, hfind⟩
  exact ⟨col, hcols col hcol, hfind⟩

/-! ## Outcomes -/

/-- Computations fail in all variants, or go through in all of them with results in a relation. -/
def Uniformly {α : Type} (R : (t₀.Variant → α) → Prop) (o : t₀.Variant → Outcome α) : Prop :=
  (∀ v, ∃ e, o v = .error e) ∨ ∃ a, R a ∧ ∀ v, o v = .ok (a v)

/-- One thing in all variants. -/
def Same {α : Type} (a : t₀.Variant → α) : Prop := ∃ x, ∀ v, a v = x

namespace Uniformly

variable {α β : Type} {R : (t₀.Variant → α) → Prop} {R' : (t₀.Variant → β) → Prop}
  {o : t₀.Variant → Outcome α}

theorem error (e : t₀.Variant → Error) : Uniformly R fun v => .error (e v) :=
  Or.inl fun v => ⟨e v, rfl⟩

theorem ok {a : t₀.Variant → α} (h : R a) : Uniformly R fun v => .ok (a v) :=
  Or.inr ⟨a, h, fun _ => rfl⟩

/-- Results that do not depend on names are reached in all variants or in none. -/
theorem of_toOption {x : Option α} (h : ∀ v, (o v).toOption = x) : Uniformly Same o := by
  cases x with
  | none =>
      refine Or.inl fun v => ?_
      have hv := h v
      cases ho : o v with
      | error e => exact ⟨e, rfl⟩
      | ok a =>
          rw [ho] at hv
          exact nomatch hv
  | some a =>
      refine Or.inr ⟨fun _ => a, ⟨a, fun _ => rfl⟩, fun v => ?_⟩
      have hv := h v
      cases ho : o v with
      | error e =>
          rw [ho] at hv
          exact nomatch hv
      | ok b =>
          rw [ho] at hv
          exact congrArg Except.ok (Option.some.inj hv)

theorem bind {f : t₀.Variant → α → Outcome β} (h : Uniformly R o)
    (hf : ∀ a, R a → Uniformly R' fun v => f v (a v)) : Uniformly R' fun v => o v >>= f v := by
  rcases h with hfail | ⟨a, ha, ho⟩
  · refine Or.inl fun v => ?_
    obtain ⟨e, he⟩ := hfail v
    refine ⟨e, ?_⟩
    show (o v >>= f v) = _
    rw [he]
    rfl
  · have hbind : ∀ v, (o v >>= f v) = f v (a v) := by
      intro v
      rw [ho v]
      rfl
    simp only [hbind]
    exact hf a ha

end Uniformly

/-! ## Fragments -/

/-- Any template. -/
def Anywhere (_ : List Template) : Prop := True

/-- The fragments are one template, of which `P` holds, each with the names of its own table. -/
def Templated (N : String → Prop) (P : List Template → Prop) (F : t₀.Variant → Fragment) : Prop :=
  ∃ l, Template.WellFormed t₀ N l ∧ P l ∧ ∀ v, F v = l.map (Template.piece v.table)

namespace Templated

variable {P P' Q : List Template → Prop} {F G : t₀.Variant → Fragment}

theorem imp (h : Templated N P F) (himp : ∀ l, P l → Q l) : Templated N Q F := by
  obtain ⟨l, hl, hP, hF⟩ := h
  exact ⟨l, hl, himp l hP, hF⟩

theorem anywhere (h : Templated N P F) : Templated N Anywhere F := h.imp fun _ _ => trivial

theorem nil (h : P []) : Templated N P fun _ : t₀.Variant => [] :=
  ⟨[], ⟨fun _ hx => absurd hx List.not_mem_nil, .nil⟩, h, fun _ => rfl⟩

theorem one {x : Template} (hx : x.Valid t₀ N) (h : P [x]) :
    Templated N P fun v : t₀.Variant => [x.piece v.table] :=
  ⟨[x], .one hx, h, fun _ => rfl⟩

/-- One after the other, if one of them keeps names apart. -/
theorem append (h : Templated N P F) (h' : Templated N P' G)
    (hgap : (∀ l, P l → Template.Ready l) ∨ ∀ l, P' l → Template.Leading l)
    (hQ : ∀ l l', P l → P' l' → Q (l ++ l')) : Templated N Q fun v => F v ++ G v := by
  obtain ⟨l, hl, hP, hF⟩ := h
  obtain ⟨l', hl', hP', hG⟩ := h'
  refine ⟨l ++ l', hl.append hl' ?_, hQ l l' hP hP', fun v => ?_⟩
  · exact hgap.imp (fun hready => hready l hP) fun hleading => hleading l' hP'
  · show F v ++ G v = _
    rw [hF v, hG v, List.map_append]

theorem append_leading (h : Templated N P F) (h' : Templated N Template.Leading G) :
    Templated N Anywhere fun v => F v ++ G v :=
  h.append h' (Or.inr fun _ hl => hl) fun _ _ _ _ => trivial

theorem text {t : String} (ht : Plain t) (h : P [.text t]) :
    Templated N P fun _ : t₀.Variant => [.verbatim t] :=
  one (.text ht) h

theorem value (value : Value) (h : P [.value value]) :
    Templated N P fun _ : t₀.Variant => [.value value] :=
  one (.value value) h

/-- A text in front keeps the names before it and after it apart. -/
theorem text_cons {t : String} (ht : Plain t) (h : Templated N P F) :
    Templated N Template.Leading fun v => .verbatim t :: F v := by
  obtain ⟨l, hl, -, hF⟩ := h
  have hready : Template.Ready [Template.text t] := by
    rintro x hx
    rw [List.getLast?_singleton, Option.mem_some_iff] at hx
    exact hx ▸ rfl
  refine ⟨.text t :: l, (Template.WellFormed.one (.text ht)).append hl (Or.inl hready), ?_, ?_⟩
  · rintro x hx
    rw [List.head?_cons, Option.mem_some_iff] at hx
    exact hx ▸ rfl
  · intro v
    show .verbatim t :: F v = _
    rw [hF v]
    rfl

/-- So does a text alone, and where nothing is there is no name either. -/
theorem text_leading {t : String} (ht : Plain t) :
    Templated N Template.Leading fun _ : t₀.Variant => [.verbatim t] :=
  (nil (P := Anywhere) trivial).text_cons ht

theorem nil_leading : Templated N Template.Leading fun _ : t₀.Variant => [] :=
  nil fun _ hx => nomatch hx

/-- A text keeps what is before it and after it apart. -/
theorem separated (h : Templated N P F) {t : String} (ht : Plain t) (h' : Templated N P' G) :
    Templated N Anywhere fun v => F v ++ .verbatim t :: G v :=
  h.append_leading (h'.text_cons ht)

/-- Whether anything shows is the same everywhere, and where nothing does, there is nothing. -/
theorem isBlank_cases (h : Templated N P F) :
    (∀ v, (F v).isBlank = true ∧ F v = []) ∨ ∀ v, (F v).isBlank = false := by
  obtain ⟨l, hl, -, hF⟩ := h
  cases l with
  | nil =>
      refine Or.inl fun v => ?_
      rw [hF v]
      exact ⟨rfl, rfl⟩
  | cons x l =>
      refine Or.inr fun v => ?_
      rw [hF v, Template.isBlank_map_piece hl]
      rfl

theorem isBlank_same (h : Templated N P F) : Same fun v => (F v).isBlank := by
  rcases h.isBlank_cases with hblank | hshown
  · exact ⟨true, fun v => (hblank v).1⟩
  · exact ⟨false, hshown⟩

end Templated

/-- Lists of equally many elements, those in one place being of one template. -/
def Listed {α : Type} (N : String → Prop) (render : α → Fragment) (xs : t₀.Variant → List α) :
    Prop :=
  ∃ l : List (t₀.Variant → α), (∀ x ∈ l, Templated N Anywhere fun v => render (x v)) ∧
    ∀ v, xs v = l.map (· v)

namespace Listed

variable {α : Type} {render : α → Fragment} {xs ys : t₀.Variant → List α}

theorem nil : Listed N render fun _ : t₀.Variant => [] :=
  ⟨[], fun _ hx => absurd hx List.not_mem_nil, fun _ => rfl⟩

theorem one {x : t₀.Variant → α} (h : Templated N Anywhere fun v => render (x v)) :
    Listed N render fun v => [x v] := by
  refine ⟨[x], fun y hy => ?_, fun _ => rfl⟩
  rw [List.mem_singleton] at hy
  exact hy ▸ h

theorem append (h : Listed N render xs) (h' : Listed N render ys) :
    Listed N render fun v => xs v ++ ys v := by
  obtain ⟨l, hl, hxs⟩ := h
  obtain ⟨l', hl', hys⟩ := h'
  refine ⟨l ++ l', List.forall_mem_append.mpr ⟨hl, hl'⟩, fun v => ?_⟩
  show xs v ++ ys v = _
  rw [hxs v, hys v, List.map_append]

theorem length (h : Listed N render xs) : Same fun v => (xs v).length := by
  obtain ⟨l, -, hxs⟩ := h
  refine ⟨l.length, fun v => ?_⟩
  show (xs v).length = _
  rw [hxs v, List.length_map]

theorem isEmpty (h : Listed N render xs) : Same fun v => (xs v).isEmpty := by
  obtain ⟨n, hn⟩ := h.length
  refine ⟨n == 0, fun v => ?_⟩
  have hlength : (xs v).length = n := hn v
  show (xs v).isEmpty = _
  rw [← hlength]
  cases xs v <;> rfl

/-- Joined by a text, the elements are of one template. -/
theorem joined {t : String} (ht : Plain t) (h : Listed N render xs) :
    Templated N Anywhere fun v => Fragment.joined t ((xs v).map render) := by
  obtain ⟨l, hl, hxs⟩ := h
  simp only [hxs, List.map_map]
  clear hxs
  induction l with
  | nil => exact .nil trivial
  | cons x l ih =>
      have hx := hl x (List.mem_cons_self ..)
      cases l with
      | nil => exact hx
      | cons y l =>
          have hrest := ih fun z hz => hl z (List.mem_cons_of_mem _ hz)
          exact hx.separated ht hrest

end Listed

/-! ## Parts -/

/-- What is collected in the variants is of the same templates. -/
structure PartsTemplated (N : String → Prop) (p : t₀.Variant → Parts) : Prop where
  conditions : ∀ t, Templated N Anywhere fun v => (p v).conditions t
  fields : Listed N Field.fragment fun v => (p v).fields
  orderBy : Listed N OrderKey.fragment fun v => (p v).orderBy
  groupBy : Listed N (fun i => [.name i]) fun v => (p v).groupBy
  assignments : Listed N Assignment.fragment fun v => (p v).assignments
  limit : Same fun v => (p v).limit
  allowFiltering : Same fun v => (p v).allowFiltering

theorem partsTemplated_empty : PartsTemplated N fun _ : t₀.Variant => {} where
  conditions t := by cases t <;> exact .nil trivial
  fields := .nil
  orderBy := .nil
  groupBy := .nil
  assignments := .nil
  limit := ⟨none, fun _ => rfl⟩
  allowFiltering := ⟨false, fun _ => rfl⟩

/-- More text at the end of some conditions. -/
theorem PartsTemplated.addCondition {p : t₀.Variant → Parts} (h : PartsTemplated N p)
    {t : ConditionTarget} {F : t₀.Variant → Fragment}
    (hF : Templated N Anywhere fun v => (p v).conditions t ++ F v) :
    PartsTemplated N fun v => (p v).addCondition t (F v) where
  conditions t' := by
    by_cases ht : t' = t
    · subst ht
      simp only [Step.conditions_addCondition_self]
      exact hF
    · simp only [Step.conditions_addCondition_ne _ ht]
      exact h.conditions t'
  fields := by cases t <;> exact h.fields
  orderBy := by cases t <;> exact h.orderBy
  groupBy := by cases t <;> exact h.groupBy
  assignments := by cases t <;> exact h.assignments
  limit := by cases t <;> exact h.limit
  allowFiltering := by cases t <;> exact h.allowFiltering

/-! ## Steps -/

/-- What is asked of parts, beside that they are templated. -/
abbrev Assertion (t₀ : Table) := (t₀.Variant → Parts) → Prop

def Always : Assertion t₀ := fun _ => True

/-- A name can be written where these conditions end. -/
def ReadyAt (N : String → Prop) (t : ConditionTarget) : Assertion t₀ := fun p =>
  Templated N Template.Ready fun v => (p v).conditions t

/-- A name can be written in the scope, if it is one of a condition. -/
def ReadyFor (N : String → Prop) (s : Scope) : Assertion t₀ := fun p =>
  s.phase = .condition → ReadyAt N s.target p

/-- The body of a lambda is in the same conditions as the lambda, if it is in any. -/
theorem ReadyFor.body {s : Scope} {p : t₀.Variant → Parts} (h : ReadyFor N s p) :
    ReadyFor N (Context.bodyScope s) p := by
  intro hphase
  by_cases hselect : s.phase = .select
  · rw [Context.bodyScope, if_pos hselect] at hphase
    exact nomatch hphase
  · rw [Context.bodyScope_eq hselect] at hphase ⊢
    exact h hphase

/-- From templated parts of which `P` holds the steps lead to templated parts of which `Q` holds, or
they fail in all variants. -/
def Steady (N : String → Prop) (P Q : Assertion t₀) (st : t₀.Variant → Step) : Prop :=
  ∀ p, PartsTemplated N p → P p →
    Uniformly (fun q => PartsTemplated N q ∧ Q q) fun v => (st v (p v)).outcome

section Steps

variable {P P' Q Q' R : Assertion t₀} {st next : t₀.Variant → Step}

theorem Steady.imp (h : Steady N P Q st) (hP : ∀ p, P' p → P p) (hQ : ∀ q, Q q → Q' q) :
    Steady N P' Q' st := by
  intro p hp hP'
  rcases h p hp (hP p hP') with hfail | ⟨q, ⟨hq, hQq⟩, hst⟩
  · exact Or.inl hfail
  · exact Or.inr ⟨q, ⟨hq, hQ q hQq⟩, hst⟩

theorem Steady.anyway (h : Steady N P Q st) : Steady N P Always st :=
  h.imp (fun _ hp => hp) fun _ _ => trivial

theorem steady_pure : Steady N P P fun _ => Traced.pure :=
  fun _ hp hP => .ok ⟨hp, hP⟩

theorem steady_fail (e : t₀.Variant → Error) : Steady N P Q fun v => Step.fail (e v) :=
  fun _ _ _ => .error e

theorem steady_seq (h : Steady N P Q st) (hnext : Steady N Q R next) :
    Steady N P R fun v => st v >=> next v := by
  intro p hp hP
  show Uniformly _ fun v => (st v (p v) >>= next v).outcome
  simp only [Traced.outcome_bind]
  exact (h p hp hP).bind (f := fun v q => (next v q).outcome) fun q hq => hnext q hq.1 hq.2

theorem steady_given {α : Type} {S : (t₀.Variant → α) → Prop} {o : t₀.Variant → Outcome α}
    {f : t₀.Variant → α → Step} (h : Uniformly S o)
    (hf : ∀ a, S a → Steady N P Q fun v => f v (a v)) :
    Steady N P Q fun v => Step.given (o v) (f v) := by
  intro p hp hP
  show Uniformly _ fun v => (Traced.ofOutcome (o v) >>= fun a => f v a (p v)).outcome
  simp only [Traced.outcome_bind]
  exact h.bind (f := fun v a => (f v a (p v)).outcome) fun a ha => hf a ha p hp hP

/-- The same result is given in all variants. -/
theorem steady_given_same {α : Type} {o : Outcome α} {f : t₀.Variant → α → Step}
    (h : ∀ a, o = .ok a → Steady N P Q fun v => f v a) :
    Steady N P Q fun v => Step.given o (f v) := by
  cases o with
  | error e => exact fun _ _ _ => .error fun _ => e
  | ok a =>
      refine steady_given (.ok (R := fun b => ∀ v, b v = a) fun _ => rfl) fun b hb => ?_
      simp only [hb]
      exact h a rfl

theorem steady_modify {f : t₀.Variant → Parts → Parts}
    (h : ∀ p, PartsTemplated N p → P p →
      PartsTemplated N (fun v => f v (p v)) ∧ Q fun v => f v (p v)) :
    Steady N P Q fun v => Step.modify (f v) :=
  fun p hp hP => .ok (h p hp hP)

/-- A fragment that no name ends or begins where it is written. -/
theorem steady_writeFragment (s : Scope) {F : t₀.Variant → Fragment}
    (h : ∀ p, PartsTemplated N p → P p →
      Templated N Anywhere fun v => (p v).conditions s.target ++ F v) :
    Steady N P Always fun v => Step.writeFragment s (F v) :=
  steady_modify fun p hp hP => ⟨hp.addCondition (h p hp hP), trivial⟩

theorem steady_writeFragment_leading (s : Scope) {F : t₀.Variant → Fragment}
    (h : Templated N Template.Leading F) :
    Steady N P Always fun v => Step.writeFragment s (F v) :=
  steady_writeFragment s fun _ hp _ => (hp.conditions s.target).append_leading h

theorem steady_writeFragment_ready (s : Scope) {F : t₀.Variant → Fragment}
    (h : Templated N Anywhere F) :
    Steady N (ReadyAt N s.target) Always fun v => Step.writeFragment s (F v) :=
  steady_writeFragment s fun _ _ hready =>
    hready.append h (Or.inl fun _ hl => hl) fun _ _ _ _ => trivial

theorem ready_text_append {p : t₀.Variant → Parts} (hp : PartsTemplated N p) {text : String}
    (ht : Plain text) (t : ConditionTarget) :
    ReadyAt N t fun v => (p v).addCondition t [.verbatim text] := by
  have htext : Templated N (fun l => l = [.text text]) fun _ : t₀.Variant => [.verbatim text] :=
    .text ht rfl
  have happend := (hp.conditions t).append (Q := Template.Ready) htext
    (Or.inr ?_) ?_
  · simpa only [ReadyAt, Step.conditions_addCondition_self] using happend
  · rintro l rfl x hx
    rw [List.head?_cons, Option.mem_some_iff] at hx
    exact hx ▸ rfl
  · rintro l l' - rfl x hx
    rw [List.getLast?_append, List.getLast?_singleton, Option.some_or, Option.mem_some_iff] at hx
    exact hx ▸ rfl

/-- After a text a name can be written. -/
theorem steady_write (s : Scope) {t : String} (ht : Plain t) :
    Steady N P (ReadyAt N s.target) fun _ => Step.write s t := by
  refine steady_modify fun p hp _ => ?_
  have hready := ready_text_append hp ht s.target
  refine ⟨hp.addCondition ?_, hready⟩
  simpa only [ReadyAt, Step.conditions_addCondition_self] using hready.anywhere

/-- A step after a text finds the conditions ready for it. -/
theorem steady_write_seq {s : Scope} {text : String} (ht : Plain text)
    (h : Steady N (ReadyFor N s) Q next) :
    Steady N P Q fun v => Step.write s text >=> next v :=
  steady_seq (steady_write s ht) (h.imp (fun _ hready _ => hready) fun _ hq => hq)

theorem steady_openCondition (t : ConditionTarget) :
    Steady N P (ReadyAt N t) fun _ => Step.openCondition t := by
  refine steady_modify fun p hp _ => ?_
  rcases (hp.conditions t).isBlank_cases with hblank | hshown
  · simp only [(hblank _).1, if_true]
    refine ⟨hp, ?_⟩
    simp only [ReadyAt, (hblank _).2]
    exact .nil fun _ hx => nomatch hx
  · have hplain : Plain " AND " := by decide
    have hready := ready_text_append hp hplain t
    simp only [hshown, Bool.false_eq_true, if_false]
    refine ⟨hp.addCondition ?_, hready⟩
    simpa only [ReadyAt, Step.conditions_addCondition_self] using hready.anywhere

theorem steady_sequence {steps : List (t₀.Variant → Step)}
    (h : ∀ st ∈ steps, Steady N Always Always st) :
    Steady N Always Always fun v => Step.sequence (steps.map (· v)) := by
  induction steps with
  | nil => exact steady_pure
  | cons st steps ih =>
      exact steady_seq (h st (List.mem_cons_self ..))
        (ih fun st hst => h st (List.mem_cons_of_mem _ hst))

/-- Between each two of the steps a text is written, after which a name can be. -/
theorem steady_separated (s : Scope) {t : String} (ht : Plain t)
    {steps : List (t₀.Variant → Step)}
    (h : ∀ st ∈ steps, Steady N (ReadyAt N s.target) Always st) :
    Steady N (ReadyAt N s.target) Always fun v =>
      Step.separated s t (steps.map (· v)) := by
  induction steps with
  | nil => exact steady_pure.anyway
  | cons st steps ih =>
      have hst := h st (List.mem_cons_self ..)
      cases steps with
      | nil => exact hst
      | cons st' steps =>
          exact steady_seq hst (steady_seq (steady_write s ht)
            (ih fun st hst => h st (List.mem_cons_of_mem _ hst)))

end Steps

end TypedCql
