import TypedCql.Codec.Value
import TypedCql.Proofs.JsonReading
import TypedCql.Proofs.TimestampReading
import TypedCql.Proofs.UuidReading

/-!
# Values read back from their documents

A value without floating-point numbers (`Value.Exact`) comes back from its document, unless that is
nested deeper than the reader follows (`ofJson?_toJson`). The names of the types, the pairs in maps
and records and the numbers in byte strings are all spelt so that the reader finds the value that was
written, in the order in which it was written.
-/

namespace TypedCql

namespace Json

mutual

/-- How many arrays and objects there are around the innermost part of a document. -/
def nesting : Json → Nat
  | .null | .bool _ | .number _ | .text _ => 0
  | .array items => itemsNesting items + 1
  | .object entries => entriesNesting entries + 1

def itemsNesting : List Json → Nat
  | [] => 0
  | item :: rest => max item.nesting (itemsNesting rest)

def entriesNesting : List (String × Json) → Nat
  | [] => 0
  | (_, value) :: rest => max value.nesting (entriesNesting rest)

end

theorem itemsNesting_map {write : α → Json} {as : List α} (h : ∀ a ∈ as, (write a).nesting = 0) :
    itemsNesting (as.map write) = 0 := by
  induction as with
  | nil => rfl
  | cons a rest ih =>
      rw [List.forall_mem_cons] at h
      rw [List.map_cons, itemsNesting, h.1, ih h.2, Nat.max_self]

end Json

namespace Value

mutual

/-- Neither the value nor one inside it is a floating-point number, and its timestamps are instants. -/
def Exact : Value → Prop
  | .null | .boolean _ | .int _ | .bigint _ | .text _ | .uuid _ | .blob _ => True
  | .float _ | .double _ => False
  | .timestamp t => t.IsInstant
  | .list items | .set items | .tuple items | .token items => ItemsExact items
  | .map entries => EntriesExact entries
  | .udt fields => FieldsExact fields

def ItemsExact : List Value → Prop
  | [] => True
  | v :: rest => Exact v ∧ ItemsExact rest

def EntriesExact : List (Value × Value) → Prop
  | [] => True
  | (k, v) :: rest => Exact k ∧ Exact v ∧ EntriesExact rest

def FieldsExact : List (String × Value) → Prop
  | [] => True
  | (_, v) :: rest => Exact v ∧ FieldsExact rest

end

/-! ## What is written -/

theorem tagged_spelt (type : String) {content : Json} (h : content.Spelt) :
    (tagged type content).Spelt := ⟨⟨type, rfl⟩, h, trivial⟩

mutual

theorem toJson_spelt : ∀ (v : Value), v.Exact → v.toJson.Spelt
  | .null, _ => Json.ofText_spelt _
  | .boolean _, _ => tagged_spelt _ trivial
  | .int _, _ => tagged_spelt _ (Json.ofInt_spelt _)
  | .bigint _, _ => tagged_spelt _ (Json.ofInt_spelt _)
  | .text _, _ => tagged_spelt _ (Json.ofText_spelt _)
  | .uuid _, _ => tagged_spelt _ (Json.ofText_spelt _)
  | .timestamp _, _ => tagged_spelt _ (Json.ofText_spelt _)
  | .blob _, _ => tagged_spelt _ (Json.itemsSpelt_map fun _ _ => Json.ofInt_spelt _)
  | .list items, h => tagged_spelt _ (itemsToJson_spelt items h)
  | .set items, h => tagged_spelt _ (itemsToJson_spelt items h)
  | .tuple items, h => tagged_spelt _ (itemsToJson_spelt items h)
  | .token items, h => tagged_spelt _ (itemsToJson_spelt items h)
  | .map entries, h => tagged_spelt _ (entriesToJson_spelt entries h)
  | .udt fields, h => tagged_spelt _ (fieldsToJson_spelt fields h)

theorem itemsToJson_spelt : ∀ (items : List Value), ItemsExact items →
    Json.ItemsSpelt (itemsToJson items)
  | [], _ => trivial
  | v :: rest, h => ⟨toJson_spelt v h.1, itemsToJson_spelt rest h.2⟩

theorem entriesToJson_spelt : ∀ (entries : List (Value × Value)), EntriesExact entries →
    Json.ItemsSpelt (entriesToJson entries)
  | [], _ => trivial
  | (k, v) :: rest, h =>
      ⟨⟨toJson_spelt k h.1, toJson_spelt v h.2.1, trivial⟩, entriesToJson_spelt rest h.2.2⟩

theorem fieldsToJson_spelt : ∀ (fields : List (String × Value)), FieldsExact fields →
    Json.ItemsSpelt (fieldsToJson fields)
  | [], _ => trivial
  | (name, v) :: rest, h =>
      ⟨⟨Json.ofText_spelt name, toJson_spelt v h.1, trivial⟩, fieldsToJson_spelt rest h.2⟩

end

/-! ## Atoms -/

/-- An integer of a type that holds no more than 64 bits. -/
theorem integerIn?_integer {low high n : Int} (hlow : low ≤ n) (hhigh : n ≤ high)
    (hmin : Int64.minValue.toInt ≤ low) (hmax : high ≤ Int64.maxValue.toInt) :
    integerIn? low high (toString n) = some n := by
  have hmax' : Int64.maxValue.toInt < UInt64.size := by decide
  rw [integerIn?, Json.integerOf?_integer (by omega) (by omega)]
  simp [hlow, hhigh]

theorem int32?_toInt (n : Int32) : int32? (toString n.toInt) = some n := by
  rw [int32?, integerIn?_integer n.minValue_le_toInt n.toInt_le (by decide) (by decide),
    Option.map_some, Int32.ofInt_toInt]

theorem int64?_toInt (n : Int64) : int64? (toString n.toInt) = some n := by
  rw [int64?, integerIn?_integer n.minValue_le_toInt n.toInt_le (by decide) (by decide),
    Option.map_some, Int64.ofInt_toInt]

theorem byte?_toNat (b : UInt8) : byte? (Json.ofInt b.toNat) = some b := by
  have hlt := b.toNat_lt
  have hread : integerIn? 0 255 (toString (b.toNat : Int)) = some (b.toNat : Int) :=
    integerIn?_integer (by omega) (by omega) (by decide) (by decide)
  simp only [byte?, Json.ofInt, hread, Option.map_some, Int.toNat_natCast, UInt8.ofNat_toNat]

/-! ## The depth -/

theorem inside?_of_lt {depth : Nat} (h : 1 < depth) : inside? depth = some (depth - 1) := by
  obtain ⟨d, rfl⟩ : ∃ d, depth = d + 2 := ⟨depth - 2, by omega⟩
  rfl

theorem inside?_of_le {depth : Nat} (h : depth ≤ 1) : inside? depth = none := by
  obtain rfl | rfl : depth = 0 ∨ depth = 1 := by omega
  · rfl
  · rfl

/-- One part is read after another: both come back, or there is no result. -/
theorem bind_ite {p q : Prop} [Decidable p] [Decidable q] {x : Option α} {f : α → Option β} {a : α}
    {b : β} (hx : x = if p then some a else none) (hf : f a = if q then some b else none) :
    x.bind f = if p ∧ q then some b else none := by
  by_cases hp : p
  · rw [hx, if_pos hp, Option.bind_some, hf]
    exact if_congr (by simp [hp]) rfl rfl
  · rw [hx, if_neg hp, if_neg (fun h => hp h.1), Option.bind_none]

/-- What is read last is put together with what was read before it. -/
theorem bind_some_ite {p : Prop} [Decidable p] {x : Option α} {a : α}
    (hx : x = if p then some a else none) (f : α → β) :
    (x.bind fun a => some (f a)) = if p then some (f a) else none := by
  rw [hx]
  split
  · rfl
  · rfl

/-- The reader enters an array or object, whose parts it then reads one level less deep. -/
theorem inside?_bind {P : Nat → Prop} [DecidablePred P] {f : Nat → Option α} {a : α}
    (hf : ∀ d, 0 < d → f d = if P d then some a else none) (depth : Nat) :
    (inside? depth).bind f = if 1 < depth ∧ P (depth - 1) then some a else none := by
  by_cases hdepth : 1 < depth
  · rw [inside?_of_lt hdepth, Option.bind_some, hf _ (by omega)]
    exact if_congr (by simp [hdepth]) rfl rfl
  · rw [inside?_of_le (by omega), if_neg (fun h => hdepth h.1), Option.bind_none]

theorem nesting_tagged (type : String) (content : Json) :
    (tagged type content).nesting = content.nesting + 1 := by
  simp [tagged, Json.ofFields, Json.nesting, Json.entriesNesting]

/-- A value is read from what its type's name stands over. -/
theorem ofJson?_tagged {type : String} {content : Json} {v : Value}
    (hread : ∀ d, 0 < d → ofContent? type content d = if content.nesting < d then some v else none)
    (depth : Nat) :
    ofJson? (tagged type content) depth =
      if (tagged type content).nesting < depth then some v else none := by
  have hkey : ofJson? (tagged type content) depth =
      (inside? depth).bind (ofContent? type content) := by
    simp [tagged, Json.ofFields, ofJson?]
  rw [hkey, inside?_bind hread, nesting_tagged]
  exact if_congr (by omega) rfl rfl

/-- The same where an array stands below the name, whose items `f` reads. -/
theorem ofJson?_array {type : String} {items : List Json} {a : α} {make : α → Value}
    {f : Nat → Option α}
    (hcontent : ∀ d, ofContent? type (.array items) d = (inside? d).bind fun d => (f d).map make)
    (hf : ∀ d, 0 < d → f d = if Json.itemsNesting items < d then some a else none) (depth : Nat) :
    ofJson? (tagged type (.array items)) depth =
      if (tagged type (.array items)).nesting < depth then some (make a) else none := by
  have hmake : ∀ d, 0 < d →
      (f d).map make = if Json.itemsNesting items < d then some (make a) else none := by
    intro d hd
    rw [Option.map_eq_bind]
    exact bind_some_ite (hf d hd) make
  apply ofJson?_tagged
  intro d _
  rw [hcontent, inside?_bind hmake, Json.nesting]
  exact if_congr (by omega) rfl rfl

/-! ## Values -/

mutual

/-- A value comes back from its document, if that is not nested too deep. -/
theorem ofJson?_toJson : ∀ (v : Value), v.Exact → ∀ depth, 0 < depth →
    ofJson? v.toJson depth = if v.toJson.nesting < depth then some v else none
  | .null, _, depth, h => by
      simp [toJson, Json.ofText, ofJson?, Json.nesting, h]
  | .boolean b, _, depth, _ => by
      apply ofJson?_tagged
      intro d hd
      simp [ofContent?, ofAtom?, Json.nesting, hd]
  | .int n, _, depth, _ => by
      apply ofJson?_tagged
      intro d hd
      simp only [Json.ofInt, ofContent?, ofAtom?, int32?_toInt, Json.nesting, hd, if_true,
        Option.map_some]
  | .bigint n, _, depth, _ => by
      apply ofJson?_tagged
      intro d hd
      simp only [Json.ofInt, ofContent?, ofAtom?, int64?_toInt, Json.nesting, hd, if_true,
        Option.map_some]
  | .text s, _, depth, _ => by
      apply ofJson?_tagged
      intro d hd
      simp [Json.ofText, ofContent?, ofAtom?, Json.nesting, hd]
  | .uuid u, _, depth, _ => by
      apply ofJson?_tagged
      intro d hd
      simp [Json.ofText, ofContent?, ofAtom?, Json.nesting, hd, Uuid.ofText?_text]
  | .timestamp t, h, depth, _ => by
      apply ofJson?_tagged
      intro d hd
      simp [Json.ofText, ofContent?, ofAtom?, Json.nesting, hd, Timestamp.ofText?_text h]
  | .blob bytes, _, depth, _ => by
      refine ofJson?_array (f := fun _ => (bytes.map fun b => Json.ofInt b.toNat).mapM byte?)
        (fun d => ?_) (fun d hd => ?_) depth
      · simp [ofContent?, ofAtom?]
      · rw [Json.mapM_written fun b _ => byte?_toNat b, Json.itemsNesting_map fun _ _ => rfl, if_pos hd]
  | .list items, h, depth, _ =>
      ofJson?_array (fun _ => by simp [ofContent?]) (itemsOf?_itemsToJson items h) depth
  | .set items, h, depth, _ =>
      ofJson?_array (fun _ => by simp [ofContent?]) (itemsOf?_itemsToJson items h) depth
  | .tuple items, h, depth, _ =>
      ofJson?_array (fun _ => by simp [ofContent?]) (itemsOf?_itemsToJson items h) depth
  | .token items, h, depth, _ =>
      ofJson?_array (fun _ => by simp [ofContent?]) (itemsOf?_itemsToJson items h) depth
  | .map entries, h, depth, _ =>
      ofJson?_array (fun _ => by simp [ofContent?]) (entriesOf?_entriesToJson entries h) depth
  | .udt fields, h, depth, _ =>
      ofJson?_array (fun _ => by simp [ofContent?]) (fieldsOf?_fieldsToJson fields h) depth

theorem itemsOf?_itemsToJson : ∀ (items : List Value), ItemsExact items → ∀ depth, 0 < depth →
    itemsOf? (itemsToJson items) depth =
      if Json.itemsNesting (itemsToJson items) < depth then some items else none
  | [], _, depth, hd => by simp [itemsToJson, itemsOf?, Json.itemsNesting, hd]
  | v :: rest, h, depth, hd => by
      have hv := ofJson?_toJson v h.1 depth hd
      have hrest := bind_some_ite (itemsOf?_itemsToJson rest h.2 depth hd) (v :: ·)
      rw [itemsToJson, itemsOf?, Json.itemsNesting]
      refine (bind_ite hv hrest).trans (if_congr ?_ rfl rfl)
      exact Nat.max_lt.symm

theorem entriesOf?_entriesToJson : ∀ (entries : List (Value × Value)), EntriesExact entries →
    ∀ depth, 0 < depth → entriesOf? (entriesToJson entries) depth =
      if Json.itemsNesting (entriesToJson entries) < depth then some entries else none
  | [], _, depth, hd => by simp [entriesToJson, entriesOf?, Json.itemsNesting, hd]
  | (k, v) :: rest, h, depth, hd => by
      have hrest := bind_some_ite (entriesOf?_entriesToJson rest h.2.2 depth hd) ((k, v) :: ·)
      rw [entriesToJson, entriesOf?]
      -- the pair is an array of its own, and what follows it is not inside that
      refine (inside?_bind (P := fun d => k.toJson.nesting < d ∧ v.toJson.nesting < d ∧
        Json.itemsNesting (entriesToJson rest) < depth) ?_ depth).trans (if_congr ?_ rfl rfl)
      · intro d hd
        exact bind_ite (ofJson?_toJson k h.1 d hd) (bind_ite (ofJson?_toJson v h.2.1 d hd) hrest)
      · simp only [Json.itemsNesting, Json.nesting]
        omega

theorem fieldsOf?_fieldsToJson : ∀ (fields : List (String × Value)), FieldsExact fields →
    ∀ depth, 0 < depth → fieldsOf? (fieldsToJson fields) depth =
      if Json.itemsNesting (fieldsToJson fields) < depth then some fields else none
  | [], _, depth, hd => by simp [fieldsToJson, fieldsOf?, Json.itemsNesting, hd]
  | (name, v) :: rest, h, depth, hd => by
      have hrest := bind_some_ite (fieldsOf?_fieldsToJson rest h.2 depth hd) ((name, v) :: ·)
      rw [fieldsToJson, Json.ofText, fieldsOf?, Json.unspell?_spell]
      refine (inside?_bind (P := fun d => v.toJson.nesting < d ∧
        Json.itemsNesting (fieldsToJson rest) < depth) ?_ depth).trans (if_congr ?_ rfl rfl)
      · intro d hd
        show (ofJson? v.toJson d).bind _ = _
        exact bind_ite (ofJson?_toJson v h.1 d hd) hrest
      · simp only [Json.itemsNesting, Json.nesting]
        omega

end

end Value

end TypedCql
