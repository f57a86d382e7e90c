import Parley.Model.Resolver
import Parley.Price
import Mathlib.Data.List.Infix
import Mathlib.Data.Set.Finite.List
import Mathlib.Order.Preorder.Finite
set_option autoImplicit false

/-! # What the tables say

A table is searched from its first row on, for a key that the text begins with. Of two keys that a
text begins with, one is the beginning of the other, and the longer one says more about the text. The
search finds what the *longest* key says, as long as no row hides a later one that has a longer key
and another value (`Orderly`, `Orderly.value_eq`). All tables are orderly. So it does not matter that
some rows stand in different orders in the tables of models and of prices, nor that an exact key is
looked up apart (`ofModel_eq_find?`, `inTable?_eq`). -/

namespace Parley

/-! ## Longest keys -/

namespace Table

variable {ρ υ β : Type} {key : ρ → String} {value : ρ → υ} {text : String} {rows : List ρ}

/-- A row of a table has the longest of the keys that a text begins with. -/
structure IsLongest (key : ρ → String) (text : String) (rows : List ρ) (row : ρ) : Prop where
  mem : row ∈ rows
  start : (key row).toList <+: text.toList
  longest : ∀ other ∈ rows, (key other).toList <+: text.toList →
    (key other).length ≤ (key row).length

/-- An answer is what the row with the longest of the keys that a text begins with says, or the
    default if the text begins with no key. -/
def ByLongest (key : ρ → String) (text : String) (rows : List ρ) (reads : ρ → β)
    (default answer : β) : Prop :=
  (∃ row, IsLongest key text rows row ∧ answer = reads row) ∨
    (∀ row ∈ rows, ¬ (key row).toList <+: text.toList) ∧ answer = default

theorem exists_isLongest {row : ρ} (hrow : row ∈ rows)
    (hstart : (key row).toList <+: text.toList) : ∃ long, IsLongest key text rows long := by
  have hfinite : {row | row ∈ rows ∧ (key row).toList <+: text.toList}.Finite :=
    (List.finite_toSet rows).subset fun _ h => h.1
  obtain ⟨long, ⟨hmem, hlong⟩, hmax⟩ :=
    hfinite.exists_maximalFor (fun row => (key row).length) _ ⟨row, hrow, hstart⟩
  refine ⟨long, hmem, hlong, ?_⟩
  intro other hother hprefix
  rcases Nat.le_total (key other).length (key long).length with hle | hle
  · exact hle
  · exact hmax ⟨hother, hprefix⟩ hle

/-- No row hides a later one: a row whose key is the beginning of the key of a later row has the
    same value. -/
def Orderly (key : ρ → String) (value : ρ → υ) (rows : List ρ) : Prop :=
  rows.Pairwise fun row later => (key row).toList <+: (key later).toList → value row = value later

/-- The first row with a fitting key says what the longest fitting key says. -/
theorem Orderly.value_eq (h : Orderly key value rows) {first long : ρ}
    (hfirst : rows.find? (fun row => Text.startsWith (key row) text) = some first)
    (hlong : IsLongest key text rows long) : value first = value long := by
  induction rows with
  | nil => cases hfirst
  | cons row rest ih =>
      obtain ⟨hrow, hrest⟩ := List.pairwise_cons.1 h
      by_cases hstart : Text.startsWith (key row) text = true
      · simp only [List.find?_cons, hstart] at hfirst
        obtain rfl : row = first := Option.some.inj hfirst
        rcases List.mem_cons.1 hlong.mem with rfl | hmem
        · rfl
        -- both keys are beginnings of the text, and that of the first row is not the longer one
        · have hprefix := Text.startsWith_iff.1 hstart
          have hle := hlong.longest row List.mem_cons_self hprefix
          rw [← String.length_toList, ← String.length_toList] at hle
          exact hrow long hmem (List.prefix_of_prefix_length_le hprefix hlong.start hle)
      · simp only [List.find?_cons, Bool.eq_false_of_not_eq_true hstart] at hfirst
        have hmem : long ∈ rest := by
          rcases List.mem_cons.1 hlong.mem with rfl | hmem
          · exact absurd (Text.startsWith_iff.2 hlong.start) hstart
          · exact hmem
        exact ih hrest hfirst ⟨hmem, hlong.start,
          fun other hother => hlong.longest other (List.mem_cons_of_mem row hother)⟩

theorem find?_eq_none_iff :
    rows.find? (fun row => Text.startsWith (key row) text) = none ↔
      ∀ row ∈ rows, ¬ (key row).toList <+: text.toList := by
  simp [Text.startsWith_iff]

/-- Searching an orderly table from its first row on finds what the longest key says. -/
theorem Orderly.byLongest (h : Orderly key value rows) (text : String) (reads : υ → β)
    (default : β) :
    ByLongest key text rows (fun row => reads (value row)) default
      (((rows.find? fun row => Text.startsWith (key row) text).map
        fun row => reads (value row)).getD default) := by
  cases hfirst : rows.find? fun row => Text.startsWith (key row) text with
  | none => exact .inr ⟨find?_eq_none_iff.1 hfirst, rfl⟩
  | some first =>
      have hstart : (key first).toList <+: text.toList :=
        Text.startsWith_iff.1 (List.find?_some (p := fun row => Text.startsWith (key row) text) hfirst)
      obtain ⟨long, hlong⟩ := exists_isLongest (List.mem_of_find?_eq_some hfirst) hstart
      refine .inl ⟨long, hlong, ?_⟩
      rw [Option.map_some, Option.getD_some, h.value_eq hfirst hlong]

/-- A key that is the whole text is the longest that there can be. -/
theorem isLongest_of_eq {row : ρ} (hrow : row ∈ rows) (h : key row = text) :
    IsLongest key text rows row := by
  refine ⟨hrow, h ▸ List.prefix_rfl, ?_⟩
  intro other hother hprefix
  rw [h, ← String.length_toList, ← String.length_toList]
  exact hprefix.length_le

end Table

open Table

/-! ## Prices -/

namespace Price

/-- The prices of all models, those of Anthropic first. -/
def table : List (String × Price) :=
  anthropicTable ++ openAiTable

theorem orderly_table : Orderly Prod.fst Prod.snd table := by
  unfold Orderly
  decide

theorem byStart?_eq (identifier : String) (rows : List (String × Price)) :
    byStart? identifier rows
      = (rows.find? fun row => Text.startsWith row.1 identifier).map Prod.snd := by
  induction rows with
  | nil => rfl
  | cons row rest ih =>
      unfold byStart?
      rw [List.find?_cons, ih]
      cases Text.startsWith row.1 identifier <;> rfl

/-- One search through all prices is enough. -/
theorem ofModel_eq_find? (model : String) :
    ofModel model
      = ((table.find? fun row => Text.startsWith row.1 (Model.ofBedrock model)).map
          Prod.snd).getD free := by
  unfold ofModel table
  simp only [byStart?_eq, List.find?_append]
  cases hvendor : anthropicTable.find? fun row =>
      Text.startsWith row.1 (Model.ofBedrock model) with
  | some row => rfl
  | none =>
      simp only [Option.map_none, Option.none_or]
      cases hexact : Ordered.find? (Model.ofBedrock model) openAiTable with
      | none => rfl
      | some price =>
          -- the first row of all that fits is one of this table, and says what the exact one says
          have hmem := Ordered.mem_of_find? hexact
          have hall : (Model.ofBedrock model, price) ∈ table :=
            List.mem_append_right anthropicTable hmem
          cases hfirst : openAiTable.find? fun row =>
              Text.startsWith row.1 (Model.ofBedrock model) with
          | none =>
              have hnone := find?_eq_none_iff.1 hfirst (Model.ofBedrock model, price) hmem
              exact absurd List.prefix_rfl hnone
          | some first =>
              have hfind : table.find? (fun row => Text.startsWith row.1 (Model.ofBedrock model))
                  = some first := by
                rw [table, List.find?_append, hvendor, hfirst]
                rfl
              have hlong : IsLongest Prod.fst (Model.ofBedrock model) table
                  (Model.ofBedrock model, price) := isLongest_of_eq hall rfl
              exact (orderly_table.value_eq hfind hlong).symm

end Price

/-! ## Models -/

namespace Model

/-- What a row says about every model that takes after it. -/
def traits (m : Model) : Json × Int :=
  (m.family, m.contextWindow)

/-- The model of a name with some traits. -/
def withTraits (name : String) (traits : Json × Int) : Model :=
  ⟨name, traits.1, traits.2⟩

theorem orderly_anthropicTable : Orderly Model.name traits anthropicTable := by
  unfold Orderly
  decide

theorem orderly_openAiTable : Orderly Model.name traits openAiTable := by
  unfold Orderly
  decide

/-- The row of a name needs no search of its own. -/
theorem inTable?_eq {rows : List Model} (h : Orderly Model.name traits rows) (name : String) :
    inTable? name rows
      = (rows.find? fun m => Text.startsWith m.name name).map fun m =>
          withTraits name m.traits := by
  unfold inTable?
  cases hexact : rows.find? fun m => decide (m.name = name) with
  | none => rfl
  | some exact =>
      have hname : exact.name = name := by simpa using List.find?_some hexact
      have hmem := List.mem_of_find?_eq_some hexact
      cases hfirst : rows.find? fun m => Text.startsWith m.name name with
      | none =>
          refine absurd ?_ (find?_eq_none_iff.1 hfirst exact hmem)
          rw [hname]
      | some first =>
          have htraits := h.value_eq hfirst (isLongest_of_eq hmem hname)
          simp only [Option.map_some]
          rw [htraits, withTraits, ← hname]
          rfl

theorem openAi?_byLongest (name : String) :
    ByLongest Model.name name openAiTable (fun m => some { m with name }) none
      (openAi? name) := by
  have hsearch : openAi? name
      = ((openAiTable.find? fun m => Text.startsWith m.name name).map
          fun m => some (withTraits name m.traits)).getD none := by
    unfold openAi?
    rw [inTable?_eq orderly_openAiTable]
    cases openAiTable.find? fun m => Text.startsWith m.name name <;> rfl
  rw [hsearch]
  exact orderly_openAiTable.byLongest name (fun t => some (withTraits name t)) none

theorem anthropic?_byLongest (name : String) :
    ByLongest Model.name name anthropicTable (fun m => some { m with name })
      (if "claude-".toList <+: name.toList then some (row name "claude" 200000) else none)
      (anthropic? name) := by
  have hsearch : anthropic? name
      = ((anthropicTable.find? fun m => Text.startsWith m.name name).map
          fun m => some (withTraits name m.traits)).getD
        (if "claude-".toList <+: name.toList then some (row name "claude" 200000) else none) := by
    unfold anthropic?
    rw [inTable?_eq orderly_anthropicTable]
    cases anthropicTable.find? fun m => Text.startsWith m.name name with
    | some first => rfl
    | none => simp only [Option.map_none, Option.getD_none, Text.startsWith_iff]
  rw [hsearch]
  exact orderly_anthropicTable.byLongest name (fun t => some (withTraits name t)) _

/-! ## Priced models are known -/

/-- A key of a price is the beginning of the name of a model of Anthropic, or begins with the name
    of a model of OpenAI that is in the table of models. -/
theorem known_of_priced : ∀ priced ∈ Price.table,
    "claude-".toList <+: priced.1.toList ∨
      ∃ m ∈ openAiTable, m.name.toList <+: priced.1.toList := by
  decide

/-- No row of a table has the family of models that nothing is known about. -/
theorem family_ne_of_mem {m : Model} (h : m ∈ anthropicTable ∨ m ∈ openAiTable) :
    m.family ≠ .string defaultFamily := by
  have hall : ∀ m ∈ anthropicTable ++ openAiTable, m.family ≠ .string defaultFamily := by
    decide
  exact hall m (List.mem_append.2 h)

theorem family_ne_of_anthropic? {name : String} {found : Model} (h : anthropic? name = some found) :
    found.family ≠ .string defaultFamily := by
  rcases anthropic?_byLongest name with ⟨m, hlong, heq⟩ | ⟨-, heq⟩
  · rw [h] at heq
    obtain rfl := Option.some.inj heq
    exact family_ne_of_mem (m := m) (.inl hlong.mem)
  · rw [h] at heq
    split_ifs at heq
    obtain rfl := Option.some.inj heq
    show Json.string "claude" ≠ .string defaultFamily
    decide

theorem family_ne_of_openAi? {name : String} {found : Model} (h : openAi? name = some found) :
    found.family ≠ .string defaultFamily := by
  rcases openAi?_byLongest name with ⟨m, hlong, heq⟩ | ⟨-, heq⟩
  · rw [h] at heq
    obtain rfl := Option.some.inj heq
    exact family_ne_of_mem (m := m) (.inr hlong.mem)
  · rw [h] at heq
    cases heq

theorem exists_anthropic? {name : String} (h : "claude-".toList <+: name.toList) :
    ∃ found, anthropic? name = some found := by
  rcases anthropic?_byLongest name with ⟨m, -, heq⟩ | ⟨-, heq⟩
  · exact ⟨_, heq⟩
  · rw [if_pos h] at heq
    exact ⟨_, heq⟩

theorem exists_openAi? {name : String} {m : Model} (hm : m ∈ openAiTable)
    (h : m.name.toList <+: name.toList) : ∃ found, openAi? name = some found := by
  rcases openAi?_byLongest name with ⟨long, -, heq⟩ | ⟨hnone, -⟩
  · exact ⟨_, heq⟩
  · exact absurd h (hnone m hm)

/-- Without a provider, the tables of all vendors are searched. -/
theorem resolve_none (name : String) (endpoint : Option String) (d : Directory) :
    resolve name none endpoint d = (.ok (static name), d) := rfl

/-- What the tables know of a model whose identifier begins with the key of a price is more than the
    defaults. -/
theorem family_static_ne {name : String} {priced : String × Price} (hpriced : priced ∈ Price.table)
    (hstart : priced.1.toList <+: name.toList) :
    (static name).family ≠ .string defaultFamily := by
  unfold static
  cases hanthropic : anthropic? name with
  | some found => exact family_ne_of_anthropic? hanthropic
  | none =>
      rcases known_of_priced priced hpriced with hclaude | ⟨m, hm, hname⟩
      · obtain ⟨found, hfound⟩ := exists_anthropic? (hclaude.trans hstart)
        rw [hanthropic] at hfound
        cases hfound
      · obtain ⟨found, hfound⟩ := exists_openAi? hm (hname.trans hstart)
        rw [hfound]
        exact family_ne_of_openAi? hfound

/-- **Tables are read by the longest key.** The price of a model is that of the longest key, in the
    prices of both vendors, that its identifier begins with when it is stripped of what Bedrock adds;
    a model whose identifier begins with no key is free. What the table of a vendor says of a model
    is what the row says whose name is the longest one that the identifier begins with. Any other
    identifier that begins with `claude-` is that of a model of the family `claude` with a window of
    200000 tokens. About a model that is not free, more is known than the defaults. -/
theorem tables_byLongest (model : String) :
    ByLongest Prod.fst (ofBedrock model) Price.table Prod.snd Price.free (Price.ofModel model) ∧
    ByLongest Model.name model anthropicTable (fun m => some { m with name := model })
      (if "claude-".toList <+: model.toList then some (row model "claude" 200000) else none)
      (anthropic? model) ∧
    ByLongest Model.name model openAiTable (fun m => some { m with name := model }) none
      (openAi? model) ∧
    (Price.ofModel model ≠ Price.free → ∀ (endpoint : Option String) (d : Directory),
      ∃ known, (resolve (ofBedrock model) none endpoint d).1 = .ok known ∧
        known.family ≠ .string defaultFamily) := by
  have hprice : ByLongest Prod.fst (ofBedrock model) Price.table Prod.snd Price.free
      (Price.ofModel model) := by
    rw [Price.ofModel_eq_find?]
    exact Price.orderly_table.byLongest (ofBedrock model) id Price.free
  refine ⟨hprice, anthropic?_byLongest model, openAi?_byLongest model, ?_⟩
  intro hne endpoint d
  rcases hprice with ⟨priced, hlong, -⟩ | ⟨-, hfree⟩
  · rw [resolve_none]
    exact ⟨static (ofBedrock model), rfl, family_static_ne hlong.mem hlong.start⟩
  · exact absurd hfree hne

/-- An identifier for which a longer key stands behind a shorter one in the table of models, and
    before it in the table of prices. -/
theorem tables_byLongest_mini :
    Price.ofModel "gpt-4o-mini-2024-07-18" ≠ Price.free ∧
      ∃ known, (resolve (ofBedrock "gpt-4o-mini-2024-07-18") none none
          ⟨.empty (.int 3600), .int 0, .ofReplies []⟩).1 = .ok known ∧
        known.family ≠ .string defaultFamily := by
  have hne : Price.ofModel "gpt-4o-mini-2024-07-18" ≠ Price.free := by decide
  exact ⟨hne, (tables_byLongest "gpt-4o-mini-2024-07-18").2.2.2 hne none _⟩

end Model

end Parley
