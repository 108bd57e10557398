import TypedCql.Cql.Identifier
import TypedCql.Proofs.Splitting

/-!
# Reading quoted names

A reader of CQL takes what stands between double quotes for a name, two quotes in a row being one
that belongs to it, and everything else for text. `scan` is that reader. A name that the library
quotes is read back as it was, if no other quote comes right after it (`scan_enclosed`), and text
without quotes is read character by character (`scan_text`).
-/

namespace TypedCql

/-- What a text with quoted names is read as. -/
inductive Token (α : Type)
  | outside (c : Char)
  | name (a : α)
  deriving DecidableEq

/-- The token with another name in it, if it is one. -/
def Token.map {α β : Type} (f : α → β) : Token α → Token β
  | .outside c => .outside c
  | .name a => .name (f a)

/-- Where a reader is. -/
inductive ScanState
  | outside
  /-- Inside a name, after these characters of it. -/
  | inside (name : List Char)
  /-- After a quote inside a name, which ends the name unless another one follows. -/
  | closing (name : List Char)

/-- The tokens of what is left of a text, unless it ends inside a name. -/
def scan : ScanState → List Char → Option (List (Token String))
  | .outside, [] => some []
  | .inside _, [] => none
  | .closing name, [] => some [.name (String.ofList name)]
  | .outside, c :: rest =>
    if c = '"' then scan (.inside []) rest else (scan .outside rest).map (.outside c :: ·)
  | .inside name, c :: rest => scan (if c = '"' then .closing name else .inside (name ++ [c])) rest
  | .closing name, c :: rest =>
    if c = '"' then scan (.inside (name ++ ['"'])) rest
    else (scan .outside rest).map fun tokens => .name (String.ofList name) :: .outside c :: tokens

/-- The tokens of a text, unless it ends inside a name. -/
def tokens? (text : String) : Option (List (Token String)) := scan .outside text.toList

theorem scan_text {cs : List Char} (h : '"' ∉ cs) (rest : List Char) :
    scan .outside (cs ++ rest) = (scan .outside rest).map (cs.map .outside ++ ·) := by
  induction cs with
  | nil => simp
  | cons c cs ih =>
      obtain ⟨hc, hcs⟩ := not_or.mp (mt List.mem_cons.mpr h)
      rw [List.cons_append, scan, if_neg (Ne.symm hc), ih hcs, Option.map_map]
      rfl

/-- From inside a name the rest of it is read up to the quote that ends it. -/
theorem scan_doubled {rest : List Char} (hrest : ∀ c r, rest = c :: r → c ≠ '"')
    (read s : List Char) :
    scan (.inside read) (Text.doubled '"' s ++ '"' :: rest) =
      (scan .outside rest).map (.name (String.ofList (read ++ s)) :: ·) := by
  induction s generalizing read with
  | nil =>
      rw [List.append_nil, Text.doubled, List.nil_append, scan, if_pos rfl]
      cases rest with
      | nil => rfl
      | cons c rest =>
          have hc : c ≠ '"' := hrest c rest rfl
          rw [scan, if_neg hc, scan, if_neg hc, Option.map_map]
          rfl
  | cons c s ih =>
      by_cases hc : c = '"'
      · subst hc
        rw [doubled_cons_self, List.cons_append, List.cons_append, scan, if_pos rfl, scan,
          if_pos rfl, ih, List.append_assoc]
        rfl
      · rw [doubled_cons_ne hc, List.cons_append, scan, if_neg hc, ih, List.append_assoc]
        rfl

theorem scan_enclosed {rest : List Char} (hrest : ∀ c r, rest = c :: r → c ≠ '"')
    (name : String) :
    scan .outside ((Text.enclosed '"' name).toList ++ rest) =
      (scan .outside rest).map (.name name :: ·) := by
  have h := scan_doubled hrest [] name.toList
  rw [List.nil_append, String.ofList_toList] at h
  rw [Text.enclosed, String.toList_ofList, List.cons_append, List.append_assoc, scan, if_pos rfl]
  exact h

example : tokens? "a \"b\"\"c\"?" =
    some [.outside 'a', .outside ' ', .name "b\"c", .outside '?'] := by decide

/-- Between a keyspace and the name of its table, both in quotes, there is a point. -/
theorem toList_qualified_some (keyspace table : String) :
    (Identifier.qualified (some keyspace) table true).toList =
      (Text.enclosed '"' keyspace).toList ++ '.' :: (Text.enclosed '"' table).toList := by
  have hpoint : ".".toList = ['.'] := by decide
  show (Text.enclosed '"' keyspace ++ "." ++ Text.enclosed '"' table).toList = _
  rw [String.toList_append, String.toList_append, hpoint, List.append_assoc]
  rfl

end TypedCql
