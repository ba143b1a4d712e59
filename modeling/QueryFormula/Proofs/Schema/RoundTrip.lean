import QueryFormula.Proofs.Json.Record
import QueryFormula.Schema.Json

/-!
# Schemas survive their JSON text

Each part of a schema is read back from its JSON form, and so the schema from its text.
However a schema was written, with members left out, in another order or as an array, what
was read of it has one text, and that is read alike (`Schema.survives_text`).
-/

namespace QueryFormula

open Json

/-! ### The parts of a schema -/

theorem Database.ofJson?_toJson (d : Database) : Database.ofJson? d.toJson = some d := by
  have hrecord : d.toJson.record? ["name", "features"] =
      some [some (ofOption .string d.name), some (ofOption (ofList .string) d.features)] := rfl
  rw [Database.ofJson?, hrecord]
  simp only [Json.optional, nullable_text, nullable_texts]
  rfl

theorem Field.ofJson?_toJson (f : Field) : Field.ofJson? f.toJson = some f := by
  have hrecord :
      f.toJson.record? ["id", "name", "display_name", "table", "base_type", "custom"] =
        some [some (ofInt f.id.toInt), some (.string f.name), some (ofOption .string f.displayName),
          some (ofOption .string f.table), some (.string f.baseType), some (.boolean f.custom)] :=
    rfl
  rw [Field.ofJson?, hrecord]
  simp only [Json.optional, nullable_text, int64?_ofInt]
  rfl

theorem Saved.ofJson?_toJson (s : Saved) : Saved.ofJson? s.toJson = some s := by
  have hrecord : s.toJson.record? ["id", "name"] =
      some [some (ofInt s.id.toInt), some (.string s.name)] := rfl
  rw [Saved.ofJson?, hrecord]
  simp only [required, Option.bind_some, int64?_ofInt]
  rfl

theorem Stage.ofJson?_toJson (s : Stage) : Stage.ofJson? s.toJson = some s := by
  have hrecord : s.toJson.record? ["fields", "metrics", "segments"] =
      some [some (ofList Field.toJson s.fields), some (ofList Saved.toJson s.metrics),
        some (ofList Saved.toJson s.segments)] := rfl
  rw [Stage.ofJson?, hrecord]
  simp only [Json.optional, list?_ofList Field.ofJson?_toJson, list?_ofList Saved.ofJson?_toJson]
  rfl

namespace Schema

theorem ofJson?_toJson (s : Schema) : ofJson? s.toJson = some s := by
  have hrecord : s.toJson.record? ["database", "stages"] =
      some [some s.database.toJson, some (ofList Stage.toJson s.stages)] := rfl
  rw [ofJson?, hrecord]
  simp only [Json.optional, Database.ofJson?_toJson, list?_ofList Stage.ofJson?_toJson]
  rfl

end Schema

/-! ### Their texts -/

theorem Database.readable_toJson (d : Database) : d.toJson.Readable := by
  refine .object ?_
  simp only [List.forall_mem_cons, List.not_mem_nil, false_implies, implies_true, and_true]
  exact ⟨readable_ofOption Readable.string _, readable_ofOption (readable_ofList Readable.string) _⟩

theorem Field.readable_toJson (f : Field) : f.toJson.Readable := by
  refine .object ?_
  simp only [List.forall_mem_cons, List.not_mem_nil, false_implies, implies_true, and_true]
  exact ⟨readable_ofInt _, .string _, readable_ofOption Readable.string _,
    readable_ofOption Readable.string _, .string _, .boolean _⟩

theorem Saved.readable_toJson (s : Saved) : s.toJson.Readable := by
  refine .object ?_
  simp only [List.forall_mem_cons, List.not_mem_nil, false_implies, implies_true, and_true]
  exact ⟨readable_ofInt _, .string _⟩

theorem Stage.readable_toJson (s : Stage) : s.toJson.Readable := by
  refine .object ?_
  simp only [List.forall_mem_cons, List.not_mem_nil, false_implies, implies_true, and_true]
  exact ⟨readable_ofList Field.readable_toJson _, readable_ofList Saved.readable_toJson _,
    readable_ofList Saved.readable_toJson _⟩

namespace Schema

theorem readable_toJson (s : Schema) : s.toJson.Readable := by
  refine .object ?_
  simp only [List.forall_mem_cons, List.not_mem_nil, false_implies, implies_true, and_true]
  exact ⟨s.database.readable_toJson, readable_ofList Stage.readable_toJson _⟩

theorem ofText?_text (s : Schema) : ofText? s.text = some s := by
  rw [ofText?, text, read_compact s.readable_toJson, Option.bind_some, ofJson?_toJson]

/-- **Schemas survive their text.**  Every schema is read back from the text that is written
for it, and so is what was read from any text that is accepted. -/
theorem survives_text :
    (∀ s : Schema, ofText? s.text = some s) ∧
    ∀ text s, ofText? text = some s → ofText? s.text = some s :=
  ⟨ofText?_text, fun _ s _ => ofText?_text s⟩

/-- A column and a metric of one stage. -/
def sales : Schema where
  database := .unknown
  stages := [
    { fields := [⟨7, "Total", none, none, "type/Float", false⟩]
      metrics := [⟨3, "Umsatz €"⟩]
      segments := [] }]

/-- A text that leaves out the database, the filters and whether the column is custom, writes
records as arrays, spells a letter as an escape, and has a member too many. -/
def salesText : String :=
  "\x7b\"stages\": [[[[7, \"Total\", null, null, \"type/Float\"]], " ++
    "[[3, \"Umsatz \\u20ac\"]]]], \"version\": 2\x7d"

theorem survives_text_sales :
    ofText? salesText = some sales ∧ ofText? sales.text = some sales := by
  have haccepted : ofText? salesText = some sales := by decide +kernel
  exact ⟨haccepted, survives_text.2 _ _ haccepted⟩

end Schema

end QueryFormula
