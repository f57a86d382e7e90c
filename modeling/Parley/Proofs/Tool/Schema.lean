import Parley.Proofs.Latest
import Parley.Proofs.Ordered
import Parley.Tool
import Mathlib.Data.List.Forall2
import Mathlib.Data.List.Nodup
set_option autoImplicit false

/-! # What a schema tells about parameters

A schema is built from the parameters one after the other: each writes its own schema under its name
and, if it is required, adds its name to a list of its own. So a name keeps the place where it came
first and the schema that came last (`find?_properties`), and the two results stay together: whatever
is required has a schema (`mem_keys_of_mem_requiredNames`).

Where no two parameters have one name, the schema says all there is to know about them. It is read
back by `parameters?`, which gives every parameter in its normal form, with no values allowed at all
in place of an empty list of them (`parameters?_schema`). -/

namespace Parley.Tool

/-! ## Any parameters -/

theorem properties_append_singleton (parameters : List Parameter) (p : Parameter) :
    properties (parameters ++ [p]) = Ordered.insert p.name p.schema (properties parameters) := by
  unfold properties
  rw [List.map_append]
  exact Ordered.ofList_append_singleton _ _

theorem keys_properties (parameters : List Parameter) :
    Ordered.keys (properties parameters) = (parameters.map Parameter.name).eraseDups := by
  unfold properties
  rw [Ordered.keys_ofList, List.map_map]
  rfl

/-- Under a name stands the schema of the last parameter that has it. -/
theorem find?_properties {parameters : List Parameter} {name : String} {found : Json} :
    Ordered.find? name (properties parameters) = some found ↔
      ∃ before p after, parameters = before ++ p :: after ∧ (p.name = name ∧ p.schema = found) ∧
        ∀ later ∈ after, later.name ≠ name := by
  induction parameters using List.reverseRecOn with
  | nil => simp [properties, Ordered.ofList]
  | append_singleton parameters p ih =>
      rw [properties_append_singleton, Ordered.find?_insert, exists_latest_append_singleton, ← ih]
      by_cases hname : p.name = name
      · simp [hname]
      · simp [hname]

theorem requiredNames_sublist (parameters : List Parameter) :
    (requiredNames parameters).Sublist (parameters.map Parameter.name) :=
  List.filter_sublist.map Parameter.name

/-- Whatever is required has a schema. -/
theorem mem_keys_of_mem_requiredNames {parameters : List Parameter} {name : String}
    (h : name ∈ requiredNames parameters) : name ∈ Ordered.keys (properties parameters) := by
  rw [keys_properties, List.mem_eraseDups]
  exact (requiredNames_sublist parameters).subset h

/-! ## Reading a parameter back -/

/-- Two parameters agree if they are the same but for an empty list of allowed values, which is as
    good as none. -/
structure Parameter.Agrees (p q : Parameter) : Prop where
  name : p.name = q.name
  kind : p.kind = q.kind
  description : p.description = q.description
  required : p.required = q.required
  default : p.default = q.default
  allowed : p.allowed = q.allowed

/-- A parameter without an empty list of allowed values. -/
def Parameter.normal (p : Parameter) : Parameter :=
  { p with choices := if p.allowed.isEmpty then none else some p.allowed }

@[simp] theorem Parameter.allowed_normal (p : Parameter) : p.normal.allowed = p.allowed := by
  unfold normal
  cases hallowed : p.allowed <;> simp [allowed]

theorem Parameter.schema_normal (p : Parameter) : p.normal.schema = p.schema := by
  unfold schema
  rw [allowed_normal]
  rfl

theorem Parameter.normal_eq_iff {p q : Parameter} : p.normal = q.normal ↔ p.Agrees q := by
  constructor
  · intro h
    have hallowed : p.allowed = q.allowed := by rw [← allowed_normal p, h, allowed_normal]
    simp only [normal, mk.injEq] at h
    obtain ⟨hname, hkind, hdescription, hrequired, hdefault, -⟩ := h
    exact ⟨hname, hkind, hdescription, hrequired, hdefault, hallowed⟩
  · rintro ⟨hname, hkind, hdescription, hrequired, hdefault, hallowed⟩
    unfold normal
    rw [hname, hkind, hdescription, hrequired, hdefault, hallowed]

/-- The parameter with a schema, of which the name and whether it is required are known. -/
def Parameter.ofSchema? (name : String) (required : Bool) (schema : Json) : Option Parameter := do
  let kind ← (schema.field? "type").bind Json.text?
  let description ← (schema.field? "description").bind Json.text?
  let default := (schema.field? "default").getD .null
  let choices := (schema.field? "enum").bind Json.items?
  return { name, kind, description, required, default, choices }

theorem Parameter.ofSchema?_schema (p : Parameter) :
    ofSchema? p.name p.required p.schema = some p.normal := by
  unfold ofSchema? schema normal
  by_cases hallowed : p.allowed.isEmpty = true
  · by_cases hdefault : p.default = .null
    · simp [hallowed, hdefault, Json.field?, Ordered.find?, Json.text?]
    · simp [hallowed, hdefault, Json.field?, Ordered.find?, Json.text?]
  · by_cases hdefault : p.default = .null
    · simp [hallowed, hdefault, Json.field?, Ordered.find?, Json.text?, Json.items?]
    · simp [hallowed, hdefault, Json.field?, Ordered.find?, Json.text?, Json.items?]

/-! ## Parameters with distinct names -/

/-- No two parameters have one name. -/
def Named (parameters : List Parameter) : Prop :=
  (parameters.map Parameter.name).Nodup

theorem properties_eq_map {parameters : List Parameter} (h : Named parameters) :
    properties parameters = parameters.map fun p => (p.name, p.schema) := by
  refine Ordered.ofList_eq_self ?_
  rw [List.map_map]
  exact h

theorem mem_requiredNames_iff {parameters : List Parameter} (h : Named parameters) {p : Parameter}
    (hp : p ∈ parameters) : p.name ∈ requiredNames parameters ↔ p.required = true := by
  unfold requiredNames
  rw [List.mem_map]
  constructor
  · rintro ⟨q, hq, hname⟩
    obtain ⟨hmem, hrequired⟩ := List.mem_filter.1 hq
    rwa [← List.inj_on_of_nodup_map h hmem hp hname]
  · exact fun hrequired => ⟨p, List.mem_filter.2 ⟨hp, hrequired⟩, rfl⟩

/-- The parameters that a schema is made of. -/
def parameters? (schema : Json) : Option (List Parameter) := do
  let entries ← (schema.field? "properties").bind Json.fields?
  let required ← (schema.field? "required").bind Json.items?
  entries.mapM fun entry =>
    Parameter.ofSchema? entry.1 (decide (.string entry.1 ∈ required)) entry.2

/-- Reading every item succeeds if reading each of them does. -/
theorem mapM_eq_some_map {α β : Type} {read : α → Option β} {value : α → β} {items : List α}
    (h : ∀ item ∈ items, read item = some (value item)) :
    items.mapM read = some (items.map value) := by
  induction items with
  | nil => rfl
  | cons item rest ih =>
      have hrest := ih fun other hother => h other (List.mem_cons_of_mem _ hother)
      rw [List.mapM_cons, h item List.mem_cons_self, hrest]
      rfl

/-- **The schema of parameters with distinct names says all about them.** -/
theorem parameters?_schema {parameters : List Parameter} (h : Named parameters) :
    parameters? (schema parameters) = some (parameters.map Parameter.normal) := by
  have hread : parameters? (schema parameters) = (properties parameters).mapM fun entry =>
      Parameter.ofSchema? entry.1
        (decide (.string entry.1 ∈ (requiredNames parameters).map Json.string)) entry.2 := rfl
  rw [hread, properties_eq_map h, List.mapM_map]
  refine mapM_eq_some_map fun p hp => ?_
  have hrequired : decide (.string p.name ∈ (requiredNames parameters).map Json.string)
      = p.required := by
    rw [Bool.eq_iff_iff, decide_eq_true_iff, ← mem_requiredNames_iff h hp]
    simp
  rw [Function.comp_apply, hrequired]
  exact p.ofSchema?_schema

theorem schema_map_normal (parameters : List Parameter) :
    schema (parameters.map Parameter.normal) = schema parameters := by
  have hproperties : properties (parameters.map Parameter.normal) = properties parameters := by
    unfold properties
    rw [List.map_map]
    congr 2
    funext p
    exact Prod.ext rfl p.schema_normal
  have hrequired : requiredNames (parameters.map Parameter.normal) = requiredNames parameters := by
    unfold requiredNames
    rw [List.filter_map, List.map_map]
    rfl
  unfold schema
  rw [hproperties, hrequired]

theorem schema_eq_iff {parameters others : List Parameter} (h : Named parameters)
    (hothers : Named others) :
    schema parameters = schema others ↔ List.Forall₂ Parameter.Agrees parameters others := by
  have hnormal : List.Forall₂ Parameter.Agrees parameters others
      ↔ parameters.map Parameter.normal = others.map Parameter.normal := by
    rw [← List.forall₂_eq_eq_eq, List.forall₂_map_left_iff, List.forall₂_map_right_iff]
    simp only [Parameter.normal_eq_iff]
  rw [hnormal]
  constructor
  · intro heq
    have hread := parameters?_schema h
    rw [heq, parameters?_schema hothers] at hread
    exact (Option.some.inj hread).symm
  · intro heq
    rw [← schema_map_normal parameters, heq, schema_map_normal]

/-- **Schemas are consistent and lossless.** For any parameters, the properties of the schema have
    the names for keys, each once and in the order in which it came first; under every name stands
    the schema of the last parameter that has it; and the names of the required ones are listed in
    order, each of them a key of the properties. Parameters with distinct names are read back from the
    schema, and two schemas of such parameters are equal exactly if the parameters agree one by
    one. -/
theorem schema_lossless (parameters : List Parameter) :
    (∃ props required,
      schema parameters = .object [("type", .string "object"), ("properties", .object props),
        ("required", .array (required.map Json.string))] ∧
      Ordered.Distinct props ∧
      Ordered.keys props = (parameters.map Parameter.name).eraseDups ∧
      (∀ name found, Ordered.find? name props = some found ↔
        ∃ before p after, parameters = before ++ p :: after ∧
          (p.name = name ∧ p.schema = found) ∧ ∀ later ∈ after, later.name ≠ name) ∧
      required = (parameters.filter Parameter.required).map Parameter.name ∧
      ∀ name ∈ required, name ∈ Ordered.keys props) ∧
    (Named parameters → parameters? (schema parameters) = some (parameters.map Parameter.normal) ∧
      ∀ others, Named others →
        (schema parameters = schema others ↔ List.Forall₂ Parameter.Agrees parameters others)) := by
  refine ⟨⟨properties parameters, requiredNames parameters, rfl, Ordered.distinct_ofList _,
    keys_properties parameters, fun _ _ => find?_properties, rfl,
    fun _ hname => mem_keys_of_mem_requiredNames hname⟩, ?_⟩
  intro h
  exact ⟨parameters?_schema h, fun others hothers => schema_eq_iff h hothers⟩

/-- Parameters with defaults that count as false, of which one has an empty list of values. -/
def printing : List Parameter := [
  { name := "text", kind := "string", description := "Text." },
  { name := "times", kind := "integer", description := "Times.", required := false,
    default := .int 0 },
  { name := "loud", kind := "boolean", description := "Loud.", required := false,
    default := .bool false, choices := some [] },
  { name := "style", kind := "string", description := "Style.", default := .string "",
    choices := some [.string "", .string "bold"] }]

/-- The same parameters, without a default of the second one. -/
def printingAnyTimes : List Parameter :=
  printing.map fun p => if p.name = "times" then { p with default := .null } else p

theorem schema_lossless_printing :
    Named printing ∧ parameters? (schema printing) = some (printing.map Parameter.normal) ∧
    Named (printing.map Parameter.normal) ∧
    schema printing = schema (printing.map Parameter.normal) ∧
    Named printingAnyTimes ∧ schema printing ≠ schema printingAnyTimes := by
  have hnamed : Named printing := by unfold Named; decide
  have hnormal : Named (printing.map Parameter.normal) := by unfold Named; decide
  have hanyTimes : Named printingAnyTimes := by unfold Named; decide
  obtain ⟨-, hdistinct⟩ := schema_lossless printing
  obtain ⟨hread, hequal⟩ := hdistinct hnamed
  refine ⟨hnamed, hread, hnormal, (hequal _ hnormal).2 ?_, hanyTimes, ?_⟩
  · have hagrees : ∀ p ∈ printing, p.Agrees p.normal :=
      fun p _ => ⟨rfl, rfl, rfl, rfl, rfl, p.allowed_normal.symm⟩
    rwa [List.forall₂_map_right_iff, List.forall₂_same]
  · intro hschema
    cases (hequal _ hanyTimes).1 hschema with
    | cons _ hrest =>
        cases hrest with
        | cons htimes _ => cases htimes.default

end Parley.Tool
