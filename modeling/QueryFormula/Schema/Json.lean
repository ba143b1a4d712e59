import QueryFormula.Json.Reading
import QueryFormula.Json.Record
import QueryFormula.Json.Writing
import QueryFormula.Schema.Basic

/-!
# Schemas as JSON

The JSON form of a schema names every field, with `null` for what is not known.
Reading fills in what is missing: an empty list, nothing known, the identifier
zero, not custom.
-/

namespace QueryFormula

namespace Database

/-- Nothing is known of the database. -/
def unknown : Database :=
  ⟨none, none⟩

/-- The JSON form. -/
def toJson (d : Database) : Json :=
  .object [
    ("name", .ofOption .string d.name),
    ("features", .ofOption (.ofList .string) d.features)]

/-- Read the JSON form. -/
def ofJson? (json : Json) : Option Database :=
  match json.record? ["name", "features"] with
  | some [name, features] => do
    let name ← Json.optional (Json.nullable Json.text?) none name
    let features ← Json.optional (Json.nullable (Json.list? Json.text?)) none features
    pure ⟨name, features⟩
  | _ => none

end Database

namespace Field

/-- The JSON form. -/
def toJson (f : Field) : Json :=
  .object [
    ("id", .ofInt f.id.toInt),
    ("name", .string f.name),
    ("display_name", .ofOption .string f.displayName),
    ("table", .ofOption .string f.table),
    ("base_type", .string f.baseType),
    ("custom", .boolean f.custom)]

/-- Read the JSON form. -/
def ofJson? (json : Json) : Option Field :=
  match json.record? ["id", "name", "display_name", "table", "base_type", "custom"] with
  | some [id, name, displayName, table, baseType, custom] => do
    let id ← Json.optional Json.int64? 0 id
    let name ← Json.required Json.text? name
    let displayName ← Json.optional (Json.nullable Json.text?) none displayName
    let table ← Json.optional (Json.nullable Json.text?) none table
    let baseType ← Json.required Json.text? baseType
    let custom ← Json.optional Json.boolean? false custom
    pure ⟨id, name, displayName, table, baseType, custom⟩
  | _ => none

end Field

namespace Saved

/-- The JSON form. -/
def toJson (s : Saved) : Json :=
  .object [("id", .ofInt s.id.toInt), ("name", .string s.name)]

/-- Read the JSON form. -/
def ofJson? (json : Json) : Option Saved :=
  match json.record? ["id", "name"] with
  | some [id, name] => do
    let id ← Json.required Json.int64? id
    let name ← Json.required Json.text? name
    pure ⟨id, name⟩
  | _ => none

end Saved

namespace Stage

/-- The JSON form. -/
def toJson (s : Stage) : Json :=
  .object [
    ("fields", .ofList Field.toJson s.fields),
    ("metrics", .ofList Saved.toJson s.metrics),
    ("segments", .ofList Saved.toJson s.segments)]

/-- Read the JSON form. -/
def ofJson? (json : Json) : Option Stage :=
  match json.record? ["fields", "metrics", "segments"] with
  | some [fields, metrics, segments] => do
    let fields ← Json.optional (Json.list? Field.ofJson?) [] fields
    let metrics ← Json.optional (Json.list? Saved.ofJson?) [] metrics
    let segments ← Json.optional (Json.list? Saved.ofJson?) [] segments
    pure ⟨fields, metrics, segments⟩
  | _ => none

end Stage

namespace Schema

/-- The JSON form. -/
def toJson (s : Schema) : Json :=
  .object [("database", s.database.toJson), ("stages", .ofList Stage.toJson s.stages)]

/-- Read the JSON form. -/
def ofJson? (json : Json) : Option Schema :=
  match json.record? ["database", "stages"] with
  | some [database, stages] => do
    let database ← Json.optional Database.ofJson? .unknown database
    let stages ← Json.optional (Json.list? Stage.ofJson?) [] stages
    pure ⟨database, stages⟩
  | _ => none

/-- The schema as JSON text. -/
def text (s : Schema) : String :=
  s.toJson.compact

/-- Read a schema from JSON text. -/
def ofText? (text : String) : Option Schema :=
  (Json.read text).bind ofJson?

end Schema

end QueryFormula
