import TypedCql.Proofs.Steps
import TypedCql.Proofs.TypeGrammar

/-!
# Reading column types

The reader of types is held against their grammar from both sides. What it takes off the front of a
text is a spelling with gaps around it (`read_finds`); and it takes every spelling, whatever
follows, as long as that does not go on with a name (`read_takes`). So a text is accepted exactly
when its visible part is a spelling, and no text spells two types.
-/

namespace TypedCql

namespace ColumnType

/-! ## Tokens -/

theorem skipGap_append {gap : List Char} (h : Gap gap) (cs : List Char) :
    skipGap (gap ++ cs) = skipGap cs :=
  List.dropWhile_append_of_pos h

theorem skipGap_cons {c : Char} (h : isGap c = false) (cs : List Char) :
    skipGap (c :: cs) = c :: cs :=
  List.dropWhile_cons_of_neg (Bool.eq_false_iff.mp h)

theorem exists_gap (cs : List Char) : ∃ gap, Gap gap ∧ cs = gap ++ skipGap cs := by
  refine ⟨cs.takeWhile isGap, fun c hc => ?_, List.takeWhile_append_dropWhile.symm⟩
  exact List.all_eq_true.mp List.all_takeWhile c hc

theorem skipGap_skipGap (cs : List Char) : skipGap (skipGap cs) = skipGap cs := by
  obtain ⟨gap, hgap, hcs⟩ := exists_gap cs
  calc skipGap (skipGap cs) = skipGap (gap ++ skipGap cs) := (skipGap_append hgap _).symm
    _ = skipGap cs := by rw [← hcs]

theorem length_skipGap_le (cs : List Char) : (skipGap cs).length ≤ cs.length :=
  (List.dropWhile_suffix _).length_le

/-- A name is no gap. -/
theorem skipGap_name {name : List Char} (hne : name ≠ []) (h : ∀ c ∈ name, isNameChar c = true)
    (rest : List Char) : skipGap (name ++ rest) = name ++ rest := by
  obtain ⟨c, name, rfl⟩ := List.exists_cons_of_ne_nil hne
  refine skipGap_cons ?_ _
  cases hgap : isGap c with
  | false => rfl
  | true =>
      have hname := h c (List.mem_cons_self ..)
      rw [isNameChar_of_isGap hgap] at hname
      exact nomatch hname

theorem readName_eq_ok {cs name rest : List Char} :
    readName cs = .ok (name, rest) ↔
      cs = name ++ rest ∧ name ≠ [] ∧ (∀ c ∈ name, isNameChar c = true) ∧ Ends rest := by
  constructor
  · intro h
    simp only [readName] at h
    split at h
    · exact nomatch h
    · next hne =>
        obtain ⟨rfl, rfl⟩ := Prod.mk.inj (Except.ok.inj h)
        refine ⟨List.takeWhile_append_dropWhile.symm, fun hnil => hne (by rw [hnil]; rfl), ?_, ?_⟩
        · exact List.all_eq_true.mp List.all_takeWhile
        · intro c hc
          have hhead := List.head?_dropWhile_not isNameChar cs
          rw [Option.mem_def.mp hc] at hhead
          exact hhead
  · rintro ⟨rfl, hne, hname, hrest⟩
    have htake : (name ++ rest).takeWhile isNameChar = name := by
      rw [List.takeWhile_append_of_pos hname]
      cases rest with
      | nil => exact List.append_nil name
      | cons c rest =>
          have hc := Bool.eq_false_iff.mp (hrest c rfl)
          rw [List.takeWhile_cons_of_neg hc, List.append_nil]
    have hdrop : (name ++ rest).dropWhile isNameChar = rest := by
      rw [List.dropWhile_append_of_pos hname]
      cases rest with
      | nil => rfl
      | cons c rest => exact List.dropWhile_cons_of_neg (Bool.eq_false_iff.mp (hrest c rfl))
    have hfull : name.isEmpty = false := by
      cases name with
      | nil => exact absurd rfl hne
      | cons c name => rfl
    simp only [readName, htake, hdrop, hfull, Bool.false_eq_true, if_false]

theorem readMark_eq_ok {mark : Char} {cs rest : List Char} :
    readMark mark cs = .ok rest ↔ cs = mark :: rest := by
  unfold readMark
  cases cs with
  | nil => exact ⟨fun h => (nomatch h), fun h => (nomatch h)⟩
  | cons c cs =>
      by_cases hc : c = mark
      · simp [hc]
      · simp [hc]

theorem readComma_eq_ok {cs rest : List Char} :
    readComma cs = .ok rest ↔ ∃ later, skipGap cs = ',' :: later ∧ skipGap later = rest := by
  show (readMark ',' (skipGap cs) >>= fun later => .ok (skipGap later)) = .ok rest ↔ _
  rw [Outcome.bind_eq_ok]
  constructor
  · rintro ⟨later, hmark, hrest⟩
    exact ⟨later, readMark_eq_ok.mp hmark, Except.ok.inj hrest⟩
  · rintro ⟨later, hmark, rfl⟩
    exact ⟨later, readMark_eq_ok.mpr hmark, rfl⟩

section Readers

variable {α : Type} {item : Reader α} {cs rest : List Char}

theorem bracketed_eq_ok {a : α} :
    bracketed item cs = .ok (a, rest) ↔
      ∃ inner left, cs = '<' :: inner ∧ item inner = .ok (a, left) ∧
        skipGap left = '>' :: rest := by
  show (readMark '<' cs >>= fun inner => item inner >>= fun read =>
    readMark '>' (skipGap read.2) >>= fun rest => .ok (read.1, rest)) = .ok (a, rest) ↔ _
  rw [Outcome.bind_eq_ok]
  constructor
  · rintro ⟨inner, hopen, h⟩
    obtain ⟨⟨a', left⟩, hitem, h⟩ := Outcome.bind_eq_ok.mp h
    obtain ⟨rest', hclose, h⟩ := Outcome.bind_eq_ok.mp h
    obtain ⟨rfl, rfl⟩ := Prod.mk.inj (Except.ok.inj h)
    exact ⟨inner, left, readMark_eq_ok.mp hopen, hitem, readMark_eq_ok.mp hclose⟩
  · rintro ⟨inner, left, hopen, hitem, hclose⟩
    refine ⟨inner, readMark_eq_ok.mpr hopen, Outcome.bind_eq_ok.mpr ⟨(a, left), hitem, ?_⟩⟩
    exact Outcome.bind_eq_ok.mpr ⟨rest, readMark_eq_ok.mpr hclose, rfl⟩

theorem pairOf_eq_ok {a b : α} :
    pairOf item cs = .ok ((a, b), rest) ↔
      ∃ left next, item cs = .ok (a, left) ∧ readComma left = .ok next ∧
        item next = .ok (b, rest) := by
  show (item cs >>= fun first => readComma first.2 >>= fun next => item next >>= fun second =>
    .ok ((first.1, second.1), second.2)) = .ok ((a, b), rest) ↔ _
  rw [Outcome.bind_eq_ok]
  constructor
  · rintro ⟨⟨a', left⟩, hfirst, h⟩
    obtain ⟨next, hcomma, h⟩ := Outcome.bind_eq_ok.mp h
    obtain ⟨⟨b', rest'⟩, hsecond, h⟩ := Outcome.bind_eq_ok.mp h
    obtain ⟨hboth, rfl⟩ := Prod.mk.inj (Except.ok.inj h)
    obtain ⟨rfl, rfl⟩ := Prod.mk.inj hboth
    exact ⟨left, next, hfirst, hcomma, hsecond⟩
  · rintro ⟨left, next, hfirst, hcomma, hsecond⟩
    refine ⟨(a, left), hfirst, Outcome.bind_eq_ok.mpr ⟨next, hcomma, ?_⟩⟩
    exact Outcome.bind_eq_ok.mpr ⟨(b, rest), hsecond, rfl⟩

theorem listOf_eq_ok {as : List α} :
    listOf item cs = .ok (as, rest) ↔
      ∃ a others left, item cs = .ok (a, left) ∧
        moreOf item left.length left = (others, rest) ∧ as = a :: others := by
  show (item cs >>= fun first =>
    .ok (first.1 :: (moreOf item first.2.length first.2).1,
      (moreOf item first.2.length first.2).2)) = .ok (as, rest) ↔ _
  rw [Outcome.bind_eq_ok]
  constructor
  · rintro ⟨⟨a, left⟩, hfirst, h⟩
    obtain ⟨rfl, rfl⟩ := Prod.mk.inj (Except.ok.inj h)
    exact ⟨a, _, left, hfirst, rfl, rfl⟩
  · rintro ⟨a, others, left, hfirst, hmore, rfl⟩
    refine ⟨(a, left), hfirst, ?_⟩
    dsimp only
    rw [hmore]

end Readers

/-- What is read after a name, which tells what parameters there are. -/
def readAfter (depth : Nat) (name cs : List Char) : Except Failure (ColumnType × List Char) :=
  match lowerName name with
  | "list" => do
    let (element, cs) ← bracketed (read depth) cs
    return (.list element, cs)
  | "set" => do
    let (element, cs) ← bracketed (read depth) cs
    return (.set element, cs)
  | "frozen" => do
    let (inner, cs) ← bracketed (read depth) cs
    return (inner.freeze, cs)
  | "map" => do
    let ((key, value), cs) ← bracketed (pairOf (read depth)) cs
    return (.map key value, cs)
  | "tuple" => do
    let (elements, cs) ← bracketed (listOf (read depth)) cs
    return (.tuple elements, cs)
  | lower => return ((Scalar.ofName? lower).elim (.udt (String.ofList name)) .scalar, cs)

theorem read_succ (depth : Nat) (cs : List Char) :
    read (depth + 1) cs =
      readName (skipGap cs) >>= fun first => readAfter depth first.1 (skipGap first.2) :=
  rfl

/-! ## What is read is a spelling -/

/-- Whatever the reader takes off the front of a text is a spelling with gaps around it. -/
def Finds {α : Type} (item : Reader α) (spells : List Char → α → Prop) : Prop :=
  ∀ cs a rest, item cs = .ok (a, rest) →
    ∃ before body after, Gap before ∧ spells body a ∧ Gap after ∧
      cs = before ++ (body ++ (after ++ rest))

section Soundness

variable {α : Type} {item : Reader α} {spells : List Char → α → Prop} {cs rest : List Char}

theorem Finds.bracketed (h : Finds item spells) {f : α → ColumnType} {t : ColumnType}
    (hr : (bracketed item (skipGap cs) >>= fun read => .ok (f read.1, read.2)) =
      Except.ok (t, rest)) :
    ∃ a body brackets, spells body a ∧ Bracketed body brackets ∧ f a = t ∧
      cs = brackets ++ rest := by
  obtain ⟨⟨a, rest'⟩, hbracketed, hf⟩ := Outcome.bind_eq_ok.mp hr
  obtain ⟨rfl, rfl⟩ := Prod.mk.inj (Except.ok.inj hf)
  obtain ⟨inner, left, hopen, hitem, hclose⟩ := bracketed_eq_ok.mp hbracketed
  obtain ⟨outside, houtside, hcs⟩ := exists_gap cs
  obtain ⟨before, body, after, hbefore, hbody, hafter, rfl⟩ := h inner a left hitem
  obtain ⟨last, hlast, hleft⟩ := exists_gap left
  refine ⟨a, body, _, hbody, .intro houtside hbefore (gap_append hafter hlast), rfl, ?_⟩
  rw [hcs, hopen, hleft, hclose]
  simp only [List.append_assoc, List.cons_append, List.nil_append]

theorem readComma_finds (hr : readComma cs = .ok rest) :
    ∃ left right, Gap left ∧ Gap right ∧ cs = left ++ ',' :: (right ++ rest) := by
  obtain ⟨later, hcomma, rfl⟩ := readComma_eq_ok.mp hr
  obtain ⟨left, hleft, hcs⟩ := exists_gap cs
  obtain ⟨right, hright, hlater⟩ := exists_gap later
  exact ⟨left, right, hleft, hright, by rw [← hlater, ← hcomma, ← hcs]⟩

theorem Finds.pairOf (h : Finds item spells) :
    Finds (pairOf item) fun cs both => Separated spells cs [both.1, both.2] := by
  rintro cs ⟨a, b⟩ rest hr
  obtain ⟨afterFirst, next, hfirst, hcomma, hsecond⟩ := pairOf_eq_ok.mp hr
  obtain ⟨before, first, gap, hbefore, ha, hgap, rfl⟩ := h cs a afterFirst hfirst
  obtain ⟨left, right, hleft, hright, rfl⟩ := readComma_finds hcomma
  obtain ⟨gap', second, after, hgap', hb, hafter, rfl⟩ := h next b rest hsecond
  refine ⟨before, _, after, hbefore,
    .more ha (gap_append hgap hleft) (gap_append hright hgap') (.one hb), hafter, ?_⟩
  simp only [List.append_assoc, List.cons_append]

/-- The items after the first one, with the first one in front of them. -/
theorem Finds.moreOf (h : Finds item spells) :
    ∀ {most : Nat} {cs rest first gap : List Char} {a : α} {others : List α},
      moreOf item most cs = (others, rest) → spells first a → Gap gap →
        ∃ body after, Separated spells body (a :: others) ∧ Gap after ∧
          first ++ (gap ++ cs) = body ++ (after ++ rest) := by
  intro most
  induction most with
  | zero =>
      intro cs rest first gap a others hr ha hgap
      obtain ⟨rfl, rfl⟩ := Prod.mk.inj hr
      exact ⟨first, gap, .one ha, hgap, rfl⟩
  | succ most ih =>
      intro cs rest first gap a others hr ha hgap
      rw [ColumnType.moreOf] at hr
      split at hr
      · obtain ⟨rfl, rfl⟩ := Prod.mk.inj hr
        exact ⟨first, gap, .one ha, hgap, rfl⟩
      · next b left hnext =>
          obtain ⟨next, hcomma, hitem⟩ := Outcome.bind_eq_ok.mp hnext
          obtain ⟨rfl, rfl⟩ := Prod.mk.inj hr
          obtain ⟨gap₁, gap₂, hgap₁, hgap₂, rfl⟩ := readComma_finds hcomma
          obtain ⟨gap₃, second, gap₄, hgap₃, hb, hgap₄, rfl⟩ := h next b left hitem
          obtain ⟨body, after, hbody, hafter, hsplit⟩ := ih rfl hb hgap₄
          refine ⟨_, after, .more ha (gap_append hgap hgap₁) (gap_append hgap₂ hgap₃) hbody,
            hafter, ?_⟩
          simp only [List.append_assoc, List.cons_append, hsplit]

theorem Finds.listOf (h : Finds item spells) : Finds (listOf item) (Separated spells) := by
  intro cs as rest hr
  obtain ⟨a, others, left, hfirst, hmore, rfl⟩ := listOf_eq_ok.mp hr
  obtain ⟨before, first, gap, hbefore, ha, hgap, rfl⟩ := h cs a left hfirst
  obtain ⟨body, after, hbody, hafter, hsplit⟩ := h.moreOf hmore ha hgap
  exact ⟨before, body, after, hbefore, hbody, hafter, by rw [hsplit]⟩

end Soundness

/-- After a name come its parameters, if it asks for some, and otherwise a gap at most. -/
theorem readAfter_finds {depth : Nat} (h : Finds (read depth) Spells) {name cs rest : List Char}
    {t : ColumnType} (hne : name ≠ []) (hname : ∀ c ∈ name, isNameChar c = true)
    (hr : readAfter depth name (skipGap cs) = .ok (t, rest)) :
    ∃ brackets after, Spells (name ++ brackets) t ∧ Gap after ∧
      cs = brackets ++ (after ++ rest) := by
  unfold readAfter at hr
  split at hr
  · next hk =>
      obtain ⟨e, body, brackets, he, hb, rfl, rfl⟩ := h.bracketed hr
      exact ⟨brackets, [], .list hk he hb, gap_nil, rfl⟩
  · next hk =>
      obtain ⟨e, body, brackets, he, hb, rfl, rfl⟩ := h.bracketed hr
      exact ⟨brackets, [], .set hk he hb, gap_nil, rfl⟩
  · next hk =>
      obtain ⟨inner, body, brackets, hinner, hb, rfl, rfl⟩ := h.bracketed hr
      exact ⟨brackets, [], .frozen hk hinner hb, gap_nil, rfl⟩
  · next hk =>
      obtain ⟨⟨k, v⟩, body, brackets, hboth, hb, rfl, rfl⟩ :=
        h.pairOf.bracketed (f := fun both => .map both.1 both.2) hr
      exact ⟨brackets, [], .map hk hboth hb, gap_nil, rfl⟩
  · next hk =>
      obtain ⟨es, body, brackets, hes, hb, rfl, rfl⟩ := h.listOf.bracketed hr
      exact ⟨brackets, [], .tuple hk hes hb, gap_nil, rfl⟩
  · next hlist hset hfrozen hmap htuple =>
      obtain ⟨rfl, rfl⟩ := Prod.mk.inj (Except.ok.inj hr)
      obtain ⟨after, hafter, hcs⟩ := exists_gap cs
      have hkeyword : lowerName name ∉ keywords := by
        simp only [keywords, List.mem_cons, List.not_mem_nil, or_false, not_or]
        exact ⟨hlist, hset, hmap, htuple, hfrozen⟩
      have hspells : Spells name (named name) := .name ⟨hne, hname, hkeyword⟩
      exact ⟨[], after, by rwa [List.append_nil], hafter, hcs⟩

theorem read_finds (depth : Nat) : Finds (read depth) Spells := by
  induction depth with
  | zero => exact fun _ _ _ h => nomatch h
  | succ depth ih =>
      intro cs t rest hr
      rw [read_succ] at hr
      obtain ⟨⟨name, later⟩, hname, hr⟩ := Outcome.bind_eq_ok.mp hr
      obtain ⟨hcs, hne, hchars, -⟩ := readName_eq_ok.mp hname
      obtain ⟨brackets, after, hspells, hafter, rfl⟩ := readAfter_finds ih hne hchars hr
      obtain ⟨before, hbefore, hskip⟩ := exists_gap cs
      refine ⟨before, name ++ brackets, after, hbefore, hspells, hafter, ?_⟩
      rw [hskip, hcs, List.append_assoc]

/-! ## Every spelling is read -/

theorem Separated.skipGap_append {cs : List Char} {ts : List ColumnType}
    (h : Separated Spells cs ts) (rest : List Char) : skipGap (cs ++ rest) = cs ++ rest := by
  obtain ⟨c, later, rfl, hc⟩ := h.head
  have hgap : isGap c = false := by
    rw [Bool.eq_false_iff]
    intro hgap
    rw [isNameChar_of_isGap hgap] at hc
    exact nomatch hc
  exact skipGap_cons hgap _

/-- A text that goes on with a bracket that closes. -/
def Closes (rest : List Char) : Prop := ∃ gap after, Gap gap ∧ rest = gap ++ '>' :: after

theorem Closes.ends {rest : List Char} (h : Closes rest) : Ends rest := by
  obtain ⟨gap, after, hgap, rfl⟩ := h
  exact ends_gap_append hgap (ends_mark (by decide) after)

theorem Closes.skipGap {rest : List Char} (h : Closes rest) :
    ∃ after, skipGap rest = '>' :: after := by
  obtain ⟨gap, after, hgap, rfl⟩ := h
  exact ⟨after, by rw [skipGap_append hgap, skipGap_cons (by decide)]⟩

/-- The reader takes these characters with the gap before them for `a`, whatever follows, as long
as it follows properly. It may take some of the gap after them, too. -/
def Takes {α : Type} (item : Reader α) (follows : List Char → Prop) (cs : List Char) (a : α) :
    Prop :=
  ∀ before rest, Gap before → follows rest →
    ∃ left, item (before ++ (cs ++ rest)) = .ok (a, left) ∧ skipGap left = skipGap rest

theorem Takes.bracketed {α : Type} {item : Reader α} {body brackets : List Char} {a : α}
    (h : Takes item Closes body a) (hb : Bracketed body brackets) (rest : List Char) :
    bracketed item (skipGap (brackets ++ rest)) = .ok (a, rest) := by
  obtain ⟨hbefore, hleft, hright⟩ := hb
  have hcloses : Closes (_ ++ '>' :: rest) := ⟨_, rest, hright, rfl⟩
  obtain ⟨left, hitem, hskip⟩ := h _ _ hleft hcloses
  refine bracketed_eq_ok.mpr ⟨_, left, ?_, hitem, ?_⟩
  · rw [List.append_assoc, skipGap_append hbefore, List.cons_append, skipGap_cons (by decide)]
    simp only [List.append_assoc, List.cons_append, List.nil_append]
  · rw [hskip, skipGap_append hright, skipGap_cons (by decide)]

theorem readComma_gap {cs later left right : List Char} (hleft : Gap left) (hright : Gap right)
    (hcs : skipGap cs = skipGap (left ++ ',' :: (right ++ later)))
    (hlater : skipGap later = later) : readComma cs = .ok later := by
  refine readComma_eq_ok.mpr ⟨right ++ later, ?_, ?_⟩
  · rw [hcs, skipGap_append hleft, skipGap_cons (by decide)]
  · rw [skipGap_append hright, hlater]

theorem moreOf_closed {α : Type} {item : Reader α} {cs after : List Char}
    (h : skipGap cs = '>' :: after) (most : Nat) : moreOf item most cs = ([], cs) := by
  cases most with
  | zero => rfl
  | succ most =>
      have hcomma : readComma cs = .error ⟨.mark, '>' :: after⟩ := by
        rw [readComma, h]
        rfl
      rw [moreOf, hcomma]
      rfl

section Lists

variable {depth : Nat}
  (hread : ∀ cs t, Spells cs t → cs.length < depth → Takes (read depth) Ends cs t)
include hread

theorem takes_pair {body : List Char} {k v : ColumnType} (h : Separated Spells body [k, v])
    (hlength : body.length < depth) : Takes (pairOf (read depth)) Closes body (k, v) := by
  intro before rest hbefore hrest
  cases h with
  | @more first second gap gap' _ _ hk hgap hgap' hsecond =>
      have hv : Spells second v := by
        cases hsecond with
        | one hv => exact hv
        | more _ _ _ hnone => exact nomatch hnone
      simp only [List.length_append, List.length_cons] at hlength
      obtain ⟨left, hfirst, hleft⟩ := hread first k hk (by omega) before
        (gap ++ ',' :: (gap' ++ (second ++ rest))) hbefore
        (ends_gap_append hgap (ends_mark (by decide) _))
      obtain ⟨left', hlast, hleft'⟩ := hread second v hv (by omega) [] rest gap_nil hrest.ends
      refine ⟨left', pairOf_eq_ok.mpr ⟨left, second ++ rest, ?_, ?_, hlast⟩, hleft'⟩
      · rw [← hfirst]
        simp only [List.append_assoc, List.cons_append]
      · exact readComma_gap hgap hgap' hleft (hsecond.skipGap_append rest)

/-- The items after a comma are read as long as there are commas. -/
theorem moreOf_separated {cs : List Char} {ts : List ColumnType} (h : Separated Spells cs ts)
    (hlength : cs.length < depth) {rest : List Char} (hrest : Closes rest) :
    ∀ {most : Nat} {left : List Char}, ts.length ≤ most → readComma left = .ok (cs ++ rest) →
      ∃ left', moreOf (read depth) most left = (ts, left') ∧ skipGap left' = skipGap rest := by
  induction h with
  | @one cs t h =>
      intro most left hmost hcomma
      obtain ⟨most, rfl⟩ : ∃ n, most = n + 1 := ⟨most - 1, by simp at hmost; omega⟩
      obtain ⟨left', hitem, hleft'⟩ := hread cs t h hlength [] rest gap_nil hrest.ends
      obtain ⟨after, hafter⟩ := hrest.skipGap
      have hnext : (readComma left >>= read depth) = .ok (t, left') := by
        rw [hcomma]
        exact hitem
      refine ⟨left', ?_, hleft'⟩
      simp only [moreOf, hnext, moreOf_closed (hleft'.trans hafter)]
  | @more cs others gap gap' t ts h hgap hgap' hothers ih =>
      intro most left hmost hcomma
      obtain ⟨most, rfl⟩ : ∃ n, most = n + 1 := ⟨most - 1, by simp at hmost; omega⟩
      simp only [List.length_append, List.length_cons] at hlength hmost
      obtain ⟨next, hitem, hnext⟩ := hread cs t h (by omega) []
        (gap ++ ',' :: (gap' ++ (others ++ rest))) gap_nil
        (ends_gap_append hgap (ends_mark (by decide) _))
      have hcomma' : readComma next = .ok (others ++ rest) :=
        readComma_gap hgap hgap' hnext (hothers.skipGap_append rest)
      obtain ⟨left', hmore, hleft'⟩ := ih (by omega) (Nat.le_of_succ_le_succ hmost) hcomma'
      have hfirst : (readComma left >>= read depth) = .ok (t, next) := by
        rw [hcomma, ← hitem]
        simp only [List.append_assoc, List.cons_append, List.nil_append]
        rfl
      exact ⟨left', by simp only [moreOf, hfirst, hmore], hleft'⟩

theorem takes_list {body : List Char} {ts : List ColumnType} (h : Separated Spells body ts)
    (hlength : body.length < depth) : Takes (listOf (read depth)) Closes body ts := by
  intro before rest hbefore hrest
  cases h with
  | @one _ t h =>
      obtain ⟨left, hitem, hleft⟩ := hread body t h hlength before rest hbefore hrest.ends
      obtain ⟨after, hafter⟩ := hrest.skipGap
      have hmore : moreOf (read depth) left.length left = ([], left) :=
        moreOf_closed (hleft.trans hafter) left.length
      exact ⟨left, listOf_eq_ok.mpr ⟨t, [], left, hitem, hmore, rfl⟩, hleft⟩
  | @more first others gap gap' t ts h hgap hgap' hothers =>
      simp only [List.length_append, List.length_cons] at hlength
      obtain ⟨next, hitem, hnext⟩ := hread first t h (by omega) before
        (gap ++ ',' :: (gap' ++ (others ++ rest))) hbefore
        (ends_gap_append hgap (ends_mark (by decide) _))
      have hcomma : readComma next = .ok (others ++ rest) :=
        readComma_gap hgap hgap' hnext (hothers.skipGap_append rest)
      -- Every item takes a character, so there are not more of them than characters.
      have hmost : ts.length ≤ next.length := by
        have hskip := length_skipGap_le next
        rw [hnext, skipGap_append hgap, skipGap_cons (by decide)] at hskip
        have hothers' := hothers.length_le
        simp only [List.length_cons, List.length_append] at hskip
        omega
      obtain ⟨left, hmore, hleft⟩ :=
        moreOf_separated hread hothers (by omega) hrest hmost hcomma
      refine ⟨left, listOf_eq_ok.mpr ⟨t, ts, next, ?_, hmore, rfl⟩, hleft⟩
      rw [← hitem]
      simp only [List.append_assoc, List.cons_append]

end Lists

theorem read_word {depth : Nat} {before word rest : List Char} (hbefore : Gap before)
    (hne : word ≠ []) (hword : ∀ c ∈ word, isNameChar c = true) (hrest : Ends rest) :
    read (depth + 1) (before ++ (word ++ rest)) = readAfter depth word (skipGap rest) := by
  have hname : readName (word ++ rest) = .ok (word, rest) :=
    readName_eq_ok.mpr ⟨rfl, hne, hword, hrest⟩
  rw [read_succ, skipGap_append hbefore, skipGap_name hne hword, hname]
  rfl

theorem readAfter_name {depth : Nat} {name cs : List Char} (h : IsName name) :
    readAfter depth name cs = .ok (named name, cs) := by
  have hkeyword := h.not_keyword
  simp only [keywords, List.mem_cons, List.not_mem_nil, or_false, not_or] at hkeyword
  unfold readAfter
  split
  · next hk => exact absurd hk hkeyword.1
  · next hk => exact absurd hk hkeyword.2.1
  · next hk => exact absurd hk hkeyword.2.2.2.2
  · next hk => exact absurd hk hkeyword.2.2.1
  · next hk => exact absurd hk hkeyword.2.2.2.1
  · rfl

/-- A keyword is read whatever its case, and then what it asks for. -/
theorem read_keyword {depth : Nat} {before keyword body brackets rest : List Char}
    {t : ColumnType} (hbefore : Gap before) (hk : lowerName keyword ∈ keywords)
    (hb : Bracketed body brackets)
    (h : readAfter depth keyword (skipGap (brackets ++ rest)) = .ok (t, rest)) :
    ∃ left, read (depth + 1) (before ++ ((keyword ++ brackets) ++ rest)) = .ok (t, left) ∧
      skipGap left = skipGap rest := by
  obtain ⟨hne, hchars⟩ := keyword_chars hk
  refine ⟨rest, ?_, rfl⟩
  rw [List.append_assoc, read_word hbefore hne hchars (hb.ends rest), h]

/-- A type is read in front of anything that does not go on with a name. The depth is enough, since
the parameters of a type are shorter than the type. -/
theorem read_takes (depth : Nat) :
    ∀ cs t, Spells cs t → cs.length < depth → Takes (read depth) Ends cs t := by
  induction depth with
  | zero => exact fun _ _ _ h => absurd h (Nat.not_lt_zero _)
  | succ depth ih =>
      intro cs t h hlength before rest hbefore hrest
      have hshorter : ∀ {keyword body brackets : List Char}, Bracketed body brackets →
          (keyword ++ brackets).length < depth + 1 → body.length < depth := by
        intro keyword body brackets hb hlength
        have hbody := hb.length_lt
        rw [List.length_append] at hlength
        omega
      have hinner : ∀ {body : List Char} {t : ColumnType}, Spells body t → body.length < depth →
          Takes (read depth) Closes body t :=
        fun h hlength before rest hbefore hrest => ih _ _ h hlength before rest hbefore hrest.ends
      cases h with
      | name h =>
          exact ⟨skipGap rest, by rw [read_word hbefore h.ne_nil h.chars hrest, readAfter_name h],
            skipGap_skipGap rest⟩
      | list hk h hb =>
          refine read_keyword hbefore (by rw [hk]; decide) hb ?_
          simp only [readAfter, hk, (hinner h (hshorter hb hlength)).bracketed hb rest]
          rfl
      | set hk h hb =>
          refine read_keyword hbefore (by rw [hk]; decide) hb ?_
          simp only [readAfter, hk, (hinner h (hshorter hb hlength)).bracketed hb rest]
          rfl
      | map hk h hb =>
          refine read_keyword hbefore (by rw [hk]; decide) hb ?_
          simp only [readAfter, hk, (takes_pair ih h (hshorter hb hlength)).bracketed hb rest]
          rfl
      | tuple hk h hb =>
          refine read_keyword hbefore (by rw [hk]; decide) hb ?_
          simp only [readAfter, hk, (takes_list ih h (hshorter hb hlength)).bracketed hb rest]
          rfl
      | frozen hk h hb =>
          refine read_keyword hbefore (by rw [hk]; decide) hb ?_
          simp only [readAfter, hk, (hinner h (hshorter hb hlength)).bracketed hb rest]
          rfl

/-! ## Whole texts -/

theorem ofChars_of_spells {cs : List Char} {t : ColumnType} (h : Spells (Text.trim cs) t) :
    ofChars cs = .ok t := by
  obtain ⟨left, hread, hleft⟩ := read_takes ((Text.trim cs).length + 1) _ _ h (Nat.lt_succ_self _)
    [] [] gap_nil (fun c hc => nomatch hc)
  rw [List.nil_append, List.append_nil] at hread
  simp only [ofChars, hread, hleft]
  rfl

/-- Nothing stands in front of the spelling that a trimmed text starts with. -/
theorem spells_of_read_trim {cs rest : List Char} {t : ColumnType} {depth : Nat}
    (h : read depth (Text.trim cs) = .ok (t, rest)) :
    ∃ body after, Spells body t ∧ Gap after ∧ Text.trim cs = body ++ (after ++ rest) := by
  obtain ⟨before, body, after, hbefore, hbody, hafter, hcs⟩ := read_finds depth _ t rest h
  cases before with
  | nil => exact ⟨body, after, hbody, hafter, hcs⟩
  | cons c before =>
      have hvisible := (Text.trim_edged cs).first c (by rw [hcs]; rfl)
      rw [isBlank_of_isGap (hbefore c (List.mem_cons_self ..))] at hvisible
      exact nomatch hvisible

/-- Nor does white space stand behind it. -/
theorem spells_of_ofChars {cs : List Char} {t : ColumnType} (h : ofChars cs = .ok t) :
    Spells (Text.trim cs) t := by
  simp only [ofChars] at h
  split at h
  · exact nomatch h
  · next t' rest hread =>
      split at h
      · next hrest =>
          cases Except.ok.inj h
          obtain ⟨body, after, hbody, hafter, hcs⟩ := spells_of_read_trim hread
          obtain ⟨gap, hgap, hgap'⟩ := exists_gap rest
          rw [hrest, List.append_nil] at hgap'
          have hblank : ∀ c ∈ after ++ rest, Text.isBlank c = true := fun c hc =>
            isBlank_of_isGap (gap_append hafter (hgap' ▸ hgap) c hc)
          have hedged : Text.Edged (body ++ (after ++ rest)) := hcs ▸ Text.trim_edged cs
          rw [hcs, hedged.no_blank_end hblank, List.append_nil]
          exact hbody
      · exact nomatch h

theorem ofText_eq_ok_iff {s : String} {t : ColumnType} :
    ofText s = .ok t ↔ Spells (Text.trim s.toList) t :=
  ⟨spells_of_ofChars, ofChars_of_spells⟩

theorem Spells.unique {cs : List Char} {t t' : ColumnType} (h : Spells cs t) (h' : Spells cs t') :
    t = t' := by
  have hread : ofChars cs = .ok t := ofChars_of_spells (h.trim_eq.symm ▸ h)
  have hread' : ofChars cs = .ok t' := ofChars_of_spells (h.trim_eq.symm ▸ h')
  exact Except.ok.inj (hread.symm.trans hread')

/-! ## Trailing text -/

theorem foldl_utf8Size (cs : List Char) (start : Nat) :
    cs.foldl (fun n c => n + c.utf8Size) start = start + byteCount cs := by
  induction cs generalizing start with
  | nil => rfl
  | cons c cs ih =>
      have hrest := ih (0 + c.utf8Size)
      simp only [byteCount, List.foldl_cons] at hrest ⊢
      rw [ih, hrest]
      simp only [byteCount]
      omega

theorem byteCount_append (front rest : List Char) :
    byteCount (front ++ rest) = byteCount front + byteCount rest := by
  rw [byteCount, List.foldl_append, foldl_utf8Size rest]
  rfl

theorem utf8ByteSize_ofList (cs : List Char) : (String.ofList cs).utf8ByteSize = byteCount cs := by
  induction cs with
  | nil => rfl
  | cons c cs ih =>
      rw [String.ofList_cons, String.utf8ByteSize_append, ih, String.utf8ByteSize_singleton]
      exact (byteCount_append [c] cs).symm ▸ by simp [byteCount]

/-- What is reported as trailing follows a type that could stand alone. -/
theorem trailing_of_ofChars {cs rest : List Char} {position : Nat}
    (h : ofChars cs = .error (.trailing position rest)) :
    ∃ front t, Text.trim cs = front ++ rest ∧ byteCount front = position ∧ rest ≠ [] ∧
      ofChars front = .ok t := by
  simp only [ofChars] at h
  split at h
  · exact nomatch h
  · next t left hread =>
      split at h
      · exact nomatch h
      · next hleft =>
          obtain ⟨hposition, hrest⟩ := ParseError.trailing.inj (Except.error.inj h)
          obtain ⟨body, after, hbody, hafter, hcs⟩ := spells_of_read_trim hread
          obtain ⟨gap, hgap, hskip⟩ := exists_gap left
          rw [hrest] at hskip
          have hsplit : Text.trim cs = (body ++ (after ++ gap)) ++ rest := by
            rw [hcs, hskip]
            simp only [List.append_assoc]
          refine ⟨body ++ (after ++ gap), t, hsplit, ?_, ?_, ?_⟩
          · rw [← hposition, hrest, hsplit, byteCount_append (body ++ _)]
            omega
          · rw [← hrest]
            exact hleft
          · refine ofChars_of_spells ?_
            rw [Text.trim_append_blank hbody.edged hbody.ne_nil fun c hc =>
              isBlank_of_isGap (gap_append hafter hgap c hc)]
            exact hbody

/-- **The grammar of types.** A text is accepted as a type exactly when its visible part spells the
type, and it spells no other. Where text is left over after a type, it is reported with the number
of bytes before it, and what comes before it is accepted. -/
theorem ofText_accepts_grammar (s : String) :
    (∀ t, ofText s = .ok t ↔ Spells (Text.trim s.toList) t) ∧
      (∀ t t', Spells (Text.trim s.toList) t → Spells (Text.trim s.toList) t' → t = t') ∧
      ∀ position rest, ofText s = .error (.trailing position rest) →
        ∃ front t, Text.trim s.toList = front.toList ++ rest ∧ front.utf8ByteSize = position ∧
          rest ≠ [] ∧ ofText front = .ok t := by
  refine ⟨fun t => ofText_eq_ok_iff, fun t t' => Spells.unique, fun position rest h => ?_⟩
  obtain ⟨front, t, hsplit, hposition, hrest, hfront⟩ := trailing_of_ofChars h
  refine ⟨String.ofList front, t, ?_, ?_, hrest, ?_⟩
  · rw [String.toList_ofList]
    exact hsplit
  · rw [utf8ByteSize_ofList]
    exact hposition
  · rw [ofText, String.toList_ofList]
    exact hfront

end ColumnType

end TypedCql
