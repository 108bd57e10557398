import TypedCql.Toml.Reader
import TypedCql.Traced

/-!
# Mapping files in TOML
-/

namespace TypedCql

namespace MappingFile

/-- The mapping file that a text describes, without a check for repetitions. -/
def ofToml? (text : String) : Option MappingFile := do
  (← Toml.parse? text).toDocument.mappingFile? Toml.documentStyle

/-- The mapping file that a text describes. -/
def ofToml (text : String) : Except Error MappingFile :=
  match ofToml? text with
  | none => .error (.config .malformed)
  | some f => do
    f.validate
    return f

/-- The mapping file at a path, given its bytes or why they could not be read. -/
def ofFile (path : String) (contents : Except String ByteArray) : Traced MappingFile := do
  match contents with
  | .error reason => .fail (.io reason)
  | .ok bytes =>
    match String.fromUTF8? bytes with
    | none => .fail (.io "the file is no text in UTF-8")
    | some text =>
      let f ← .ofOutcome (ofToml text)
      .report (.loadedFile f.tables.length path)
      return f

end MappingFile

end TypedCql
