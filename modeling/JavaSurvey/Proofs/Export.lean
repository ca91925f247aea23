import JavaSurvey.Export
import JavaSurvey.Proofs.Json.Reading
import JavaSurvey.Proofs.Json.Writing

/-!
# What an export says

An export and the value it came from tell the same.

1. `Exportable.exported_iff`: values of all kinds are exported by one rule, which keeps their items
   and fields in order;
2. `Json.denotes_render` and `Json.denotes_render_iff`: the text of a value stands for this value
   and for no other;
3. `Json.json_exportable`: a value that was exported is exported as it is;
4. `Exportable.read_render_json`: what anything exported is written as, and what is read from it.
-/

namespace JavaSurvey

/-! ## The rule of exports -/

/-- A value, or null when there is none. -/
def Exportable.optional {α : Type} (value : α → Exportable) : Option α → Exportable
  | some x => value x
  | none => .null

/-- The tuple of some findings. -/
def Exportable.findings {α : Type} (finding : α → Finding) (xs : List α) : Exportable :=
  .tuple (xs.map fun x => .finding (finding x))

def MethodSummary.fields (m : MethodSummary) : List (String × Exportable) :=
  [("name", .str m.name), ("params_count", .int m.arity), ("visibility", .visibility m.visibility),
    ("is_static", .bool m.isStatic), ("start_line", .int m.line)]

/-- The fields of a finding in the order of the record, with their values as they are. -/
def Finding.fields : Finding → List (String × Exportable)
  | field f => [("name", .str f.name), ("type", .str f.type),
      ("visibility", .visibility f.visibility), ("is_static", .bool f.isStatic),
      ("start_line", .int f.line)]
  | methodSummary m => m.fields
  | method m => m.toMethodSummary.fields ++ [("signature", .str m.signature),
      ("start_offset", .int m.span.start), ("end_offset", .int m.span.stop),
      ("body_start_offset", .optional (.int ·.start) m.body),
      ("body_end_offset", .optional (.int ·.stop) m.body)]
  | call c => [("name", .str c.name), ("args_count", .int c.arguments),
      ("start_offset", .int c.offset), ("line", .int c.line)]
  | methodRef r => [("class_name", .str r.className), ("method_name", .str r.methodName),
      ("file_path", .str r.filePath), ("line", .int r.line)]
  | callGraph g => [("method", .str g.method), ("callers", .findings methodRef g.callers),
      ("callees", .findings methodRef g.callees)]
  | classSummary s => [("class_name", .str s.className), ("package_name", .str s.packageName),
      ("fields", .findings field s.fields), ("methods", .findings methodSummary s.methods),
      ("inner_classes", .tuple (s.innerClasses.map .str))]
  | binderService b => [("name", .str b.name), ("line", .int b.line)]
  | systemService s => [("service_class", .str s.className),
      ("on_start_line", .optional .int s.onStartLine),
      ("on_boot_phases", .tuple (s.onBootPhaseLines.map .int)),
      ("binder_services", .findings binderService s.binderServices)]
  | bootStep e => [("name", .str e.name), ("line", .int e.line)]
  | bootTimeline t => [("file_path", .str t.filePath), ("class_name", .str t.className),
      ("entries", .findings bootStep t.steps)]
  | span s => [("start_offset", .int s.start), ("end_offset", .int s.stop)]
  | lockWarning w => [("range", .finding (span w.range)), ("line", .int w.line),
      ("message", .str w.message)]
  | fileAnalysis a => [("summary", .finding (classSummary a.summary)),
      ("method_decls", .findings method a.methods),
      ("method_invocations", .findings call a.calls),
      ("system_service", .optional (fun s => .finding (systemService s)) a.service)]

/-- How many levels of findings there are below a finding. -/
def Finding.depth : Finding → Nat
  | fileAnalysis _ => 2
  | callGraph _ | classSummary _ | systemService _ | bootTimeline _ | lockWarning _ => 1
  | _ => 0

/-- What a value is exported as: plain data stays as it is, lists and tuples become the list of
their items, a word stands for a visibility or a kind of definition, and dictionaries and findings
become the object of their fields. -/
inductive Exported : Exportable → Json → Prop
  | null : Exported .null .null
  | bool (b : Bool) : Exported (.bool b) (.bool b)
  | int (n : Int) : Exported (.int n) (.int n)
  | str (s : String) : Exported (.str s) (.str s)
  | list {items : List Exportable} {forms : List Json} (count : items.length = forms.length)
      (each : ∀ p ∈ items.zip forms, Exported p.1 p.2) : Exported (.list items) (.list forms)
  | tuple {items : List Exportable} {forms : List Json} (count : items.length = forms.length)
      (each : ∀ p ∈ items.zip forms, Exported p.1 p.2) : Exported (.tuple items) (.list forms)
  | dictionary {fields : List (String × Exportable)} {forms : List (String × Json)}
      (count : fields.length = forms.length) (keys : ∀ p ∈ fields.zip forms, p.2.1 = p.1.1)
      (each : ∀ p ∈ fields.zip forms, Exported p.1.2 p.2.2) :
      Exported (.dictionary fields) (.object forms)
  | visibility (v : Visibility) : Exported (.visibility v) (.str v.word)
  | definitionKind (k : DefinitionKind) : Exported (.definitionKind k) (.str k.word)
  | finding {f : Finding} {j : Json} (record : Exported (.dictionary f.fields) j) :
      Exported (.finding f) j

namespace Exportable

theorem jsonAll_eq_map (items : List Exportable) : jsonAll items = items.map json := by
  induction items with
  | nil => rfl
  | cons x xs ih => rw [jsonAll, ih, List.map_cons]

theorem jsonFields_eq_map (fields : List (String × Exportable)) :
    jsonFields fields = fields.map fun f => (f.1, f.2.json) := by
  induction fields with
  | nil => rfl
  | cons x xs ih => rw [jsonFields, ih, List.map_cons, jsonField]

theorem json_optional {α : Type} (value : α → Exportable) (x : Option α) :
    (optional value x).json = Json.optional (fun x => (value x).json) x := by
  cases x <;> rfl

theorem json_tuple {α : Type} (value : α → Exportable) (xs : List α) :
    (tuple (xs.map value)).json = Json.listOf (fun x => (value x).json) xs := by
  rw [json, jsonAll_eq_map, List.map_map, Json.listOf]
  rfl

theorem json_findings {α : Type} (finding : α → Finding) (xs : List α) :
    (findings finding xs).json = Json.listOf (fun x => (finding x).json) xs :=
  json_tuple (fun x => .finding (finding x)) xs

/-- Every finding is exported as the dictionary of its fields. -/
theorem json_dictionary_fields (f : Finding) : (dictionary f.fields).json = f.json := by
  rw [json, jsonFields_eq_map]
  cases f <;>
    simp only [Finding.fields, MethodSummary.fields, List.map_cons, List.map_nil,
      List.cons_append, List.nil_append, json_findings, json_optional, json_tuple] <;>
    rfl

end Exportable

namespace Exported

open Exportable

theorem eq_map_of_zip {α β : Type} {form : α → β} {xs : List α} {ys : List β}
    (count : xs.length = ys.length) (each : ∀ p ∈ xs.zip ys, p.2 = form p.1) :
    ys = xs.map form := by
  induction xs generalizing ys with
  | nil => exact List.length_eq_zero_iff.mp count.symm
  | cons x xs ih =>
    cases ys with
    | nil => cases count
    | cons y ys =>
      rw [List.zip_cons_cons, List.forall_mem_cons] at each
      rw [List.map_cons, ← ih (Nat.succ.inj count) each.2, ← each.1]

/-- There is only one thing that a value is exported as. -/
theorem eq_json {x : Exportable} {j : Json} (exported : Exported x j) : j = x.json := by
  induction exported with
  | null => rfl
  | bool b => rfl
  | int n => rfl
  | str s => rfl
  | visibility v => rfl
  | definitionKind k => rfl
  | list count each ih => rw [json, jsonAll_eq_map, ← eq_map_of_zip count ih]
  | tuple count each ih => rw [json, jsonAll_eq_map, ← eq_map_of_zip count ih]
  | dictionary count keys each ih =>
    rw [json, jsonFields_eq_map,
      ← eq_map_of_zip count fun p member => Prod.ext (keys p member) (ih p member)]
  | finding record ih => rw [ih, json_dictionary_fields, json]

theorem forall_mem_zip_map {α β : Type} {form : α → β} {xs : List α} {P : α × β → Prop}
    (each : ∀ x ∈ xs, P (x, form x)) : ∀ p ∈ xs.zip (xs.map form), P p := by
  rw [← List.map_prod_left_eq_zip]
  exact List.forall_mem_map.mpr each

theorem list_json {items : List Exportable} (each : ∀ x ∈ items, Exported x x.json) :
    Exported (.list items) (Exportable.list items).json := by
  rw [json, jsonAll_eq_map]
  exact .list (by simp) (forall_mem_zip_map each)

theorem tuple_json {items : List Exportable} (each : ∀ x ∈ items, Exported x x.json) :
    Exported (.tuple items) (Exportable.tuple items).json := by
  rw [json, jsonAll_eq_map]
  exact .tuple (by simp) (forall_mem_zip_map each)

theorem dictionary_json {fields : List (String × Exportable)}
    (each : ∀ f ∈ fields, Exported f.2 f.2.json) :
    Exported (.dictionary fields) (Exportable.dictionary fields).json := by
  rw [json, jsonFields_eq_map]
  exact .dictionary (by simp) (forall_mem_zip_map fun f _ => rfl) (forall_mem_zip_map each)

theorem findings_json {α : Type} {finding : α → Finding}
    (each : ∀ x, Exported (.finding (finding x)) (finding x).json) (xs : List α) :
    Exported (.findings finding xs) (Exportable.findings finding xs).json :=
  tuple_json (List.forall_mem_map.mpr fun x _ => each x)

theorem optional_json {α : Type} {value : α → Exportable}
    (each : ∀ x, Exported (value x) (value x).json) (x : Option α) :
    Exported (.optional value x) (Exportable.optional value x).json := by
  cases x with
  | none => exact .null
  | some x => exact each x

theorem finding_json (f : Finding) : Exported (.finding f) f.json := by
  -- The findings among the fields are of less depth.
  rw [← json_dictionary_fields]
  refine .finding (dictionary_json ?_)
  match f with
  | .field _ | .methodSummary _ | .call _ | .methodRef _ | .binderService _ | .bootStep _
  | .span _ =>
    simp only [Finding.fields, MethodSummary.fields, List.forall_mem_cons]
    repeat' constructor
    exact List.forall_mem_nil _
  | .method m =>
    have body (f : Span → Int) := optional_json (fun s => .int (f s)) m.body
    simp only [Finding.fields, MethodSummary.fields, List.forall_mem_append, List.forall_mem_cons]
    exact ⟨⟨.str _, .int _, .visibility _, .bool _, .int _, List.forall_mem_nil _⟩,
      .str _, .int _, .int _, body Span.start, body Span.stop, List.forall_mem_nil _⟩
  | .callGraph g =>
    have refs := findings_json fun r => finding_json (.methodRef r)
    simp only [Finding.fields, List.forall_mem_cons]
    exact ⟨.str _, refs g.callers, refs g.callees, List.forall_mem_nil _⟩
  | .classSummary s =>
    have fields := findings_json (fun f => finding_json (.field f)) s.fields
    have methods := findings_json (fun m => finding_json (.methodSummary m)) s.methods
    simp only [Finding.fields, List.forall_mem_cons]
    exact ⟨.str _, .str _, fields, methods,
      tuple_json (List.forall_mem_map.mpr fun s _ => .str s), List.forall_mem_nil _⟩
  | .systemService s =>
    have binders := findings_json (fun b => finding_json (.binderService b)) s.binderServices
    simp only [Finding.fields, List.forall_mem_cons]
    exact ⟨.str _, optional_json .int _,
      tuple_json (List.forall_mem_map.mpr fun n _ => .int n), binders, List.forall_mem_nil _⟩
  | .bootTimeline t =>
    have steps := findings_json (fun e => finding_json (.bootStep e)) t.steps
    simp only [Finding.fields, List.forall_mem_cons]
    exact ⟨.str _, .str _, steps, List.forall_mem_nil _⟩
  | .lockWarning w =>
    simp only [Finding.fields, List.forall_mem_cons]
    exact ⟨finding_json (.span w.range), .int _, .str _, List.forall_mem_nil _⟩
  | .fileAnalysis a =>
    have methods := findings_json (fun m => finding_json (.method m)) a.methods
    have calls := findings_json (fun c => finding_json (.call c)) a.calls
    have service := optional_json (fun s => finding_json (.systemService s)) a.service
    simp only [Finding.fields, List.forall_mem_cons]
    exact ⟨finding_json (.classSummary a.summary), methods, calls, service, List.forall_mem_nil _⟩
termination_by f.depth
decreasing_by
  all_goals simp [Finding.depth]

end Exported

namespace Exportable

mutual

theorem exported_json (x : Exportable) : Exported x x.json := by
  cases x with
  | null => exact .null
  | bool b => exact .bool b
  | int n => exact .int n
  | str s => exact .str s
  | list items => exact Exported.list_json (exported_jsonAll items)
  | tuple items => exact Exported.tuple_json (exported_jsonAll items)
  | dictionary fields => exact Exported.dictionary_json (exported_jsonFields fields)
  | visibility v => exact .visibility v
  | definitionKind k => exact .definitionKind k
  | finding f => exact Exported.finding_json f

theorem exported_jsonAll (items : List Exportable) : ∀ x ∈ items, Exported x x.json := by
  cases items with
  | nil => nofun
  | cons x xs => exact List.forall_mem_cons.mpr ⟨exported_json x, exported_jsonAll xs⟩

theorem exported_jsonFields (fields : List (String × Exportable)) :
    ∀ f ∈ fields, Exported f.2 f.2.json := by
  cases fields with
  | nil => nofun
  | cons f fs =>
    obtain ⟨key, value⟩ := f
    exact List.forall_mem_cons.mpr ⟨exported_json value, exported_jsonFields fs⟩

end

/-- A value of any kind is exported as what the rule says, and as nothing else. -/
theorem exported_iff (x : Exportable) (j : Json) : Exported x j ↔ j = x.json := by
  constructor
  · exact Exported.eq_json
  · rintro rfl
    exact exported_json x

end Exportable

/-! ## The text of an export -/

namespace Json

theorem denotes_render (j : Json) : Denotes j.render.toList j := by
  have written := Written.padded blank_nil (written_write 0 j) blank_nil
  rwa [List.nil_append, List.append_nil, ← String.toList_ofList (l := write 0 j)] at written

/-- The text of a value stands for this value and for no other. -/
theorem denotes_render_iff (j other : Json) : Denotes j.render.toList other ↔ other = j := by
  constructor
  · intro denotes
    exact denotes.unique (denotes_render j)
  · rintro rfl
    exact denotes_render other

mutual

/-- A JSON value as something to export. -/
def exportable : Json → Exportable
  | null => .null
  | bool b => .bool b
  | int n => .int n
  | str s => .str s
  | list items => .list (exportableAll items)
  | object fields => .dictionary (exportableFields fields)

/-- Some JSON values as things to export. -/
def exportableAll : List Json → List Exportable
  | [] => []
  | x :: xs => exportable x :: exportableAll xs

/-- A field as one to export. -/
def exportableField : String × Json → String × Exportable
  | (key, value) => (key, exportable value)

/-- Some fields as fields to export. -/
def exportableFields : List (String × Json) → List (String × Exportable)
  | [] => []
  | x :: xs => exportableField x :: exportableFields xs

end

theorem jsonAll_exportableAll {items : List Json} (each : ∀ j ∈ items, j.exportable.json = j) :
    Exportable.jsonAll (exportableAll items) = items := by
  induction items with
  | nil => rfl
  | cons x xs ih =>
    rw [List.forall_mem_cons] at each
    rw [exportableAll, Exportable.jsonAll, each.1, ih each.2]

theorem jsonFields_exportableFields {fields : List (String × Json)}
    (each : ∀ f ∈ fields, f.2.exportable.json = f.2) :
    Exportable.jsonFields (exportableFields fields) = fields := by
  induction fields with
  | nil => rfl
  | cons x xs ih =>
    rw [List.forall_mem_cons] at each
    rw [exportableFields, Exportable.jsonFields, exportableField, Exportable.jsonField, each.1,
      ih each.2]

/-- A value that was exported is exported as it is. -/
theorem json_exportable (j : Json) : j.exportable.json = j := by
  induction j using Json.induction with
  | null => rfl
  | bool b => rfl
  | int n => rfl
  | str s => rfl
  | list items ih => rw [exportable, Exportable.json, jsonAll_exportableAll ih]
  | object fields ih => rw [exportable, Exportable.json, jsonFields_exportableFields ih]

end Json

/-- Whatever is exported is written in ASCII characters. The text stands for the exported value and
for no other, a reader gets this value from it, and the value is exported as it is. -/
theorem Exportable.read_render_json (x : Exportable) :
    x.json.render.toList.all Text.isAscii = true ∧
      (∀ j, Json.Denotes x.json.render.toList j ↔ j = x.json) ∧
      Json.read x.json.render.toList = some x.json ∧
      x.json.exportable.json = x.json := by
  refine ⟨?_, Json.denotes_render_iff x.json, ?_, Json.json_exportable x.json⟩
  · rw [Json.render, String.toList_ofList]
    exact Json.isAscii_write 0 x.json
  · exact Json.read_of_denotes (Json.denotes_render x.json)

end JavaSurvey
