import Parley.Proofs.Model.Resolver
import Parley.Proofs.Model.Tables
import Mathlib.Data.List.Find
import Mathlib.Data.List.TakeWhile
set_option autoImplicit false

/-! # Bedrock identifiers

A Bedrock identifier is that of a model between the vendor and a version. Exactly one version is
taken off, whatever the model identifier ends with (`beforeVersion?_eq_some_iff`), so the model gets
its own identifier back (`ofBedrock_wrapped`).

Prices are looked up under an identifier from which a version is taken off once more. That makes no
difference: no key of the table of prices reaches into a version or into a line break at the end
(`Apart`), so the identifiers with and without them begin with the same keys. -/

namespace Parley

namespace Model

/-! ## Versions -/

/-- A number in decimal digits, of any script. -/
structure IsNumeral (digits : List Char) : Prop where
  ne_nil : digits ≠ []
  digit : ∀ c ∈ digits, Text.isDecimalDigit c = true

/-- A version, from its major and its minor number. -/
def version (major minor : List Char) : List Char :=
  '-' :: 'v' :: major ++ ':' :: minor

theorem reverse_append_version (front major minor : List Char) :
    (front ++ version major minor).reverse
      = minor.reverse ++ ':' :: (major.reverse ++ 'v' :: '-' :: front.reverse) := by
  simp [version]

/-- A version is taken off an identifier exactly if the identifier ends with it, and then that is the
    whole of the version. -/
theorem beforeVersion?_eq_some_iff {text front : List Char} :
    beforeVersion? text = some front ↔
      ∃ major minor, IsNumeral major ∧ IsNumeral minor ∧ text = front ++ version major minor := by
  constructor
  · intro h
    unfold beforeVersion? at h
    dsimp only at h
    split at h
    · next more hminor =>
        split at h
        · next rest hmajor =>
            split_ifs at h with hempty
            obtain rfl := Option.some.inj h
            simp only [Bool.or_eq_true, List.isEmpty_iff, not_or] at hempty
            refine ⟨(more.takeWhile Text.isDecimalDigit).reverse,
              (text.reverse.takeWhile Text.isDecimalDigit).reverse,
              ⟨by simpa using hempty.2, fun c hc => ?_⟩, ⟨by simpa using hempty.1, fun c hc => ?_⟩, ?_⟩
            · exact List.mem_takeWhile_imp (List.mem_reverse.1 hc)
            · exact List.mem_takeWhile_imp (List.mem_reverse.1 hc)
            · rw [← List.reverse_inj, reverse_append_version, List.reverse_reverse,
                List.reverse_reverse, List.reverse_reverse, ← hmajor,
                List.takeWhile_append_dropWhile, ← hminor, List.takeWhile_append_dropWhile]
        · cases h
    · cases h
  · rintro ⟨major, minor, hmajor, hminor, rfl⟩
    have hcolon := Text.span_digits hminor.digit (c := ':') (by decide)
      (major.reverse ++ 'v' :: '-' :: front.reverse)
    have hv := Text.span_digits hmajor.digit (c := 'v') (by decide) ('-' :: front.reverse)
    unfold beforeVersion?
    rw [reverse_append_version]
    simp only [hcolon, hv]
    simp [hmajor.ne_nil, hminor.ne_nil]

/-! ## The identifier of the model -/

/-- What is left of an identifier without the vendor at its beginning. -/
def stripped (text : List Char) : List Char :=
  (beforeVersion? (splitFinalBreak text).1).getD (splitFinalBreak text).1
    ++ (splitFinalBreak text).2

theorem ofBedrock_eq_of_vendor {identifier : String} {own : List Char}
    (h : identifier.toList = "anthropic.".toList ++ own) :
    (ofBedrock identifier).toList = stripped own := by
  unfold ofBedrock stripped
  dsimp only
  rw [Text.afterPrefix?_eq_some_iff.2 h, Option.getD_some, String.toList_ofList]

theorem ofBedrock_eq_of_not_vendor {identifier : String}
    (h : ¬ "anthropic.".toList <+: identifier.toList) :
    (ofBedrock identifier).toList = stripped identifier.toList := by
  unfold ofBedrock stripped
  dsimp only
  rw [Text.afterPrefix?_eq_none h, Option.getD_none, String.toList_ofList]

theorem stripped_version (front : List Char) {major minor : List Char} (hmajor : IsNumeral major)
    (hminor : IsNumeral minor) : stripped (front ++ version major minor) = front := by
  have hlast : ¬ ['\n'] <:+ front ++ version major minor := by
    rintro ⟨body, hbody⟩
    obtain ⟨init, c, rfl⟩ := (List.eq_nil_or_concat minor).resolve_left hminor.ne_nil
    have hc := hminor.digit c (by simp)
    have hend : body ++ ['\n'] = (front ++ version major init) ++ [c] := by
      simpa [version] using hbody
    obtain ⟨-, hbreak⟩ := List.append_inj' hend rfl
    rw [← (List.cons.inj hbreak).1] at hc
    exact absurd hc (by decide)
  unfold stripped
  rw [splitFinalBreak_eq_self hlast, List.append_nil,
    beforeVersion?_eq_some_iff.2 ⟨major, minor, hmajor, hminor, rfl⟩, Option.getD_some]

/-- The Bedrock identifier of a model in a version. -/
def wrapped (model major minor : String) : String :=
  "anthropic." ++ model ++ "-v" ++ major ++ ":" ++ minor

/-- The identifier of a model comes back from its Bedrock identifier, whatever it ends with. -/
theorem ofBedrock_wrapped (model : String) {major minor : String} (hmajor : IsNumeral major.toList)
    (hminor : IsNumeral minor.toList) : ofBedrock (wrapped model major minor) = model := by
  have hlist : (wrapped model major minor).toList
      = "anthropic.".toList ++ (model.toList ++ version major.toList minor.toList) := by
    unfold wrapped
    repeat rw [String.toList_append]
    repeat rw [List.append_assoc]
    rfl
  rw [← String.toList_inj, ofBedrock_eq_of_vendor hlist, stripped_version _ hmajor hminor]

/-! ## Prices -/

/-- No line break stands in a key, and no version begins in it or at its last character. -/
def Apart (key : List Char) : Prop :=
  '\n' ∉ key ∧ ¬ ['-', 'v'] <:+: key ++ ['v']

instance (key : List Char) : Decidable (Apart key) :=
  inferInstanceAs (Decidable (_ ∧ _))

theorem apart_of_priced : ∀ priced ∈ Price.table, Apart priced.1.toList := by
  decide

/-- A key that is apart does not reach into what begins like a version or is at most a line break. -/
theorem Apart.prefix_append_iff {key : List Char} (h : Apart key) (front : List Char)
    {rest : List Char} (hrest : rest <+: ['\n'] ∨ ∃ tail, rest = '-' :: 'v' :: tail) :
    key <+: front ++ rest ↔ key <+: front := by
  constructor
  · intro hkey
    rcases List.prefix_or_prefix_of_prefix hkey (List.prefix_append front rest) with hle | ⟨more, rfl⟩
    · exact hle
    · have hmore : more <+: rest := (List.prefix_append_right_inj front).1 hkey
      cases more with
      | nil => simp
      | cons c tail =>
          rcases hrest with hbreak | ⟨after, rfl⟩
          · obtain ⟨rfl, -⟩ := List.cons_prefix_cons.1 (hmore.trans hbreak)
            exact absurd (by simp) h.1
          -- the key goes on with a hyphen, and what it has behind that can only begin with the `v`
          · obtain ⟨rfl, htail⟩ := List.cons_prefix_cons.1 hmore
            refine absurd ?_ h.2
            cases tail with
            | nil => exact ⟨front, [], by simp⟩
            | cons d tail =>
                obtain ⟨rfl, -⟩ := List.cons_prefix_cons.1 htail
                exact ⟨front, tail ++ ['v'], by simp⟩
  · exact fun hkey => hkey.trans (List.prefix_append front rest)

/-- An identifier begins with the same keys when a version is taken off. -/
theorem Apart.prefix_stripped_iff {key : List Char} (h : Apart key) (text : List Char) :
    key <+: stripped text ↔ key <+: text := by
  have hsplit := splitFinalBreak_append text
  have hbreak := snd_splitFinalBreak_prefix text
  unfold stripped
  cases hversion : beforeVersion? (splitFinalBreak text).1 with
  | none => rw [Option.getD_none, hsplit]
  | some front =>
      obtain ⟨major, minor, -, -, hbody⟩ := beforeVersion?_eq_some_iff.1 hversion
      rw [hbody, List.append_assoc] at hsplit
      have htext : key <+: text ↔ key <+: front := by
        rw [← hsplit]
        exact h.prefix_append_iff front (.inr ⟨_, rfl⟩)
      rw [Option.getD_some, h.prefix_append_iff front (.inl hbreak), htext]

/-- Models whose identifiers begin with the same keys have the same price. -/
theorem price_eq_of_prefixes {model other : String}
    (h : ∀ priced ∈ Price.table, priced.1.toList <+: (ofBedrock model).toList ↔
      priced.1.toList <+: (ofBedrock other).toList) :
    Price.ofModel model = Price.ofModel other := by
  have hfind : (Price.table.find? fun row => Text.startsWith row.1 (ofBedrock model))
      = Price.table.find? fun row => Text.startsWith row.1 (ofBedrock other) := by
    refine List.find?_congr ?_
    intro priced hpriced
    rw [Bool.eq_iff_iff, Text.startsWith_iff, Text.startsWith_iff]
    exact h priced hpriced
  rw [Price.ofModel_eq_find?, Price.ofModel_eq_find?, hfind]

/-! ## The model behind an identifier -/

theorem isNumeral_of_isDigit {digits : String} (hne : digits ≠ "")
    (h : ∀ c ∈ digits.toList, c.isDigit = true) : IsNumeral digits.toList :=
  ⟨by simpa using hne, fun c hc => Text.isDecimalDigit_of_isDigit (h c hc)⟩

theorem resolve_anthropic {model : String} {known : Model} (h : anthropic? model = some known)
    (endpoint : Option String) (d : Directory) :
    resolve model (some "anthropic") endpoint d = (.ok known, d) := by
  rw [resolve_of_not_consults rfl, fromTables, ofProvider?, if_pos rfl, h]
  rfl

theorem resolve_bedrock {identifier : String} {known : Model}
    (h : anthropic? (ofBedrock identifier) = some known) (endpoint : Option String)
    (d : Directory) :
    resolve identifier (some "bedrock") endpoint d
      = (.ok { known with name := identifier }, d) := by
  rw [resolve_of_not_consults rfl, fromTables, ofProvider?, if_neg (by decide), if_pos rfl, h]
  rfl

/-- **A Bedrock identifier stands for its model.** Out of the Bedrock identifier of a model whose own
    identifier begins with `claude-`, with any version, comes the identifier of the model. The two
    have the same price. Looked up on Bedrock, the one is what the other is when it is looked up at
    the vendor, except for its name. -/
theorem wrapped_like_model (model major minor : String) (hmodel : "claude-".toList <+: model.toList)
    (hmajor : major ≠ "" ∧ ∀ c ∈ major.toList, c.isDigit = true)
    (hminor : minor ≠ "" ∧ ∀ c ∈ minor.toList, c.isDigit = true) :
    ofBedrock (wrapped model major minor) = model ∧
    Price.ofModel (wrapped model major minor) = Price.ofModel model ∧
    ∀ (endpoint endpoint' : Option String) (d d' : Directory), ∃ known,
      (resolve model (some "anthropic") endpoint d).1 = .ok known ∧
      (resolve (wrapped model major minor) (some "bedrock") endpoint' d').1
        = .ok { known with name := wrapped model major minor } := by
  have hback : ofBedrock (wrapped model major minor) = model :=
    ofBedrock_wrapped model (isNumeral_of_isDigit hmajor.1 hmajor.2)
      (isNumeral_of_isDigit hminor.1 hminor.2)
  refine ⟨hback, ?_, ?_⟩
  · apply price_eq_of_prefixes
    intro priced hpriced
    have hvendor : ¬ "anthropic.".toList <+: model.toList := by
      intro hprefix
      rcases List.prefix_or_prefix_of_prefix hprefix hmodel with h | h <;>
        exact absurd h (by decide)
    rw [hback, ofBedrock_eq_of_not_vendor hvendor]
    exact ((apart_of_priced priced hpriced).prefix_stripped_iff model.toList).symm
  · intro endpoint endpoint' d d'
    obtain ⟨known, hknown⟩ := exists_anthropic? hmodel
    refine ⟨known, ?_, ?_⟩
    · rw [resolve_anthropic hknown]
    · rw [resolve_bedrock (hback.symm ▸ hknown)]

/-- A model whose own identifier ends with a version keeps it, and has the price that it has without
    it. -/
theorem wrapped_like_model_versioned :
    ofBedrock (wrapped "claude-3-opus-20240229-v1:0" "2" "10") = "claude-3-opus-20240229-v1:0" ∧
      Price.ofModel (wrapped "claude-3-opus-20240229-v1:0" "2" "10")
        = Price.ofModel "claude-3-opus-20240229-v1:0" ∧
      ofBedrock "claude-3-opus-20240229-v1:0" = "claude-3-opus-20240229" := by
  have hmajor : ∀ c ∈ "2".toList, c.isDigit = true := by simp
  have hminor : ∀ c ∈ "10".toList, c.isDigit = true := by simp
  obtain ⟨hback, hprice, -⟩ := wrapped_like_model "claude-3-opus-20240229-v1:0" "2" "10"
    (by decide) ⟨by decide, hmajor⟩ ⟨by decide, hminor⟩
  exact ⟨hback, hprice, by decide⟩

end Model

end Parley
