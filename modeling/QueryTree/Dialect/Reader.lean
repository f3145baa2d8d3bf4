import QueryTree.Dialect.Basic
import QueryTree.Json.Raw

/-!
# Reading dialects

A dialect is read from JSON text: an object with the names of its fields as keys, or an array of
their values in the order of declaration.  What is not given keeps its default.

* `Dialect.read` — the dialect of a text, or what is wrong with it.
-/

namespace QueryTree

namespace Dialect

/-! ### Fields -/

/-- A style of placeholders by its name. -/
def placeholder? (j : RawJson) : Option Placeholder :=
  match j.choice? with
  | some "question" => some .question
  | some "dollar" => some .dollar
  | _ => none

/-- A style of windows by its name. -/
def pagination? (j : RawJson) : Option Pagination :=
  match j.choice? with
  | some "limit_offset" => some .limitOffset
  | some "offset_fetch" => some .offsetFetch
  | _ => none

/-- Free entries: texts under texts, the last of equal keys winning. -/
def custom? (j : RawJson) : Option (KeyMap String) := do
  let entries ← j.entries?
  let texts ← entries.mapM fun e => e.2.text?.map (e.1, ·)
  return .ofList texts

/-- The dialect with one field read from a value. -/
def setField? (d : Dialect) (field : String) (j : RawJson) : Option Dialect :=
  match field with
  | "name" => j.text?.map fun s => { d with name := s }
  | "placeholder" => (placeholder? j).map fun p => { d with placeholder := p }
  | "pagination" => (pagination? j).map fun p => { d with pagination := p }
  | "custom" => (custom? j).map fun m => { d with custom := m }
  | _ => some d

/-- The fields in the order of declaration. -/
def fieldNames : List String := ["name", "placeholder", "pagination", "custom"]

/-! ### Texts -/

/-- The dialect of an object, if no field is given twice; entries of other names are ignored. -/
def ofEntries? (entries : List (String × RawJson)) : Option Dialect :=
  if fieldNames.any fun name => 1 < (RawJson.valuesAt name entries).length then none
  else entries.foldlM (fun d e => setField? d e.1 e.2) default

/-- The dialect of an array that is no longer than the list of fields. -/
def ofItems? (items : List RawJson) : Option Dialect :=
  if fieldNames.length < items.length then none
  else (fieldNames.zip items).foldlM (fun d e => setField? d e.1 e.2) default

/-- The dialect of a tree. -/
def ofRaw? : RawJson → Option Dialect
  | .array items => ofItems? items
  | j => j.entries?.bind ofEntries?

/-- The dialect of a text, or what is wrong with it. -/
def read (s : String) : Except Error Dialect :=
  match (RawJson.parse? s).bind ofRaw? with
  | some d => d.validate
  | none => .error .invalidDialect

end Dialect

end QueryTree
