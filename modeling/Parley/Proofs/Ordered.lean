import Parley.Ordered
import Mathlib.Data.List.Induction
set_option autoImplicit false

/-! # Maps that are written again, and maps built from lists

Of two writes to one key the second is what counts, and writing what is there already changes
nothing. A map that is built from a list has the keys of the list in the order in which each came
first (`keys_ofList`). If no key comes twice, the map is the list itself (`ofList_eq_self`). -/

namespace Parley.Ordered

variable {κ ν : Type} [DecidableEq κ]

/-! ## Writing a key again -/

theorem insert_insert (key : κ) (first second : ν) (entries : Ordered κ ν) :
    insert key second (insert key first entries) = insert key second entries := by
  induction entries with
  | nil => simp [insert]
  | cons entry rest ih =>
      obtain ⟨k, v⟩ := entry
      by_cases hk : k = key
      · simp [insert, hk]
      · simp [insert, hk, ih]

/-- Writing what is there already changes nothing. -/
theorem insert_eq_self {key : κ} {value : ν} {entries : Ordered κ ν}
    (h : find? key entries = some value) : insert key value entries = entries := by
  induction entries with
  | nil => exact absurd h (by simp)
  | cons entry rest ih =>
      obtain ⟨k, v⟩ := entry
      by_cases hk : k = key
      · simp only [find?, if_pos hk, Option.some.injEq] at h
        rw [insert, if_pos hk, ← hk, ← h]
      · rw [find?, if_neg hk] at h
        rw [insert, if_neg hk, ih h]

/-- A new key is written at the end. -/
theorem insert_of_notMem {key : κ} {entries : Ordered κ ν} (h : key ∉ keys entries) (value : ν) :
    insert key value entries = entries ++ [(key, value)] := by
  induction entries with
  | nil => rfl
  | cons entry rest ih =>
      obtain ⟨k, v⟩ := entry
      obtain ⟨hkey, hrest⟩ := not_or.1 fun hmem => h (List.mem_cons.2 hmem)
      rw [insert, if_neg (Ne.symm hkey), ih hrest, List.cons_append]

/-! ## Maps built from lists -/

theorem ofList_append_singleton (pairs : List (κ × ν)) (pair : κ × ν) :
    ofList (pairs ++ [pair]) = insert pair.1 pair.2 (ofList pairs) := by
  unfold ofList
  rw [List.foldl_append]
  rfl

/-- The keys of a map that was built from a list, in the order in which each came first. -/
theorem keys_ofList (pairs : List (κ × ν)) :
    keys (ofList pairs) = (pairs.map Prod.fst).eraseDups := by
  induction pairs using List.reverseRecOn with
  | nil => rfl
  | append_singleton pairs pair ih =>
      rw [ofList_append_singleton, keys_insert, ih, List.map_append, List.eraseDups_append]
      simp only [List.mem_eraseDups, List.map_cons, List.map_nil]
      by_cases hold : pair.1 ∈ pairs.map Prod.fst
      · rw [if_pos hold]
        simp [List.removeAll, hold]
      · rw [if_neg hold]
        simp [List.removeAll, hold, List.eraseDups_cons]

/-- A list without a repeated key is a map as it stands. -/
theorem ofList_eq_self {pairs : List (κ × ν)} (h : (pairs.map Prod.fst).Nodup) :
    ofList pairs = pairs := by
  induction pairs using List.reverseRecOn with
  | nil => rfl
  | append_singleton pairs pair ih =>
      rw [List.map_append, List.nodup_append] at h
      obtain ⟨hold, -, hnew⟩ := h
      have hkey : pair.1 ∉ keys pairs := fun hmem => hnew _ hmem pair.1 (by simp) rfl
      rw [ofList_append_singleton, ih hold, insert_of_notMem hkey]

end Parley.Ordered
