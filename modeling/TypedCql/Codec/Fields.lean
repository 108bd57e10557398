/-!
# Records with known fields

A record may be given by the names of its fields, in any order, or by their values alone, in
the order in which the fields are declared.
-/

namespace TypedCql.Codec

/-- Whether a field may be left out. -/
inductive Presence
  | required
  /-- It may be left out where fields have names. -/
  | optional
  /-- It may be left out, also at the end of values without names. -/
  | defaulted
  deriving Repr, DecidableEq

structure FieldSpec where
  name : String
  presence : Presence

/-- The values of the fields in a record with names. Unknown names are passed over; a known one
must not occur twice. -/
def namedFields (specs : List FieldSpec) (entries : List (String × α)) :
    Option (List (Option α)) :=
  specs.mapM fun spec =>
    match (entries.filter (·.1 == spec.name)).map Prod.snd with
    | [] => if spec.presence = .required then none else some none
    | [value] => some (some value)
    | _ => none

/-- The values of the fields in a record without names. There may be more values than fields
only where `surplus` allows it. -/
def positionalFields (surplus : Bool) : List FieldSpec → List α → Option (List (Option α))
  | [], [] => some []
  | [], _ :: _ => if surplus then some [] else none
  | spec :: specs, [] =>
    if spec.presence = .defaulted then (positionalFields surplus specs []).map (none :: ·)
    else none
  | _ :: specs, value :: values => (positionalFields surplus specs values).map (some value :: ·)

end TypedCql.Codec
