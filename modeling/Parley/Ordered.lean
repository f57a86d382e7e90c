set_option autoImplicit false

/-! # Maps that remember insertion order

A map is the list of its entries. Writing a key that is present keeps its place and replaces its
value; writing a new key appends it; erasing a key and writing it again moves it to the end. The
list never holds one key twice when it is built by `insert` from the empty list (`Ordered.Distinct`
says so). JSON objects, tool registries, caches and conversation stores are all of this shape. -/

namespace Parley

/-- The entries of a map, oldest key first. -/
abbrev Ordered (κ ν : Type) := List (κ × ν)

namespace Ordered

variable {κ ν : Type}

/-- The keys, oldest first. -/
def keys (entries : Ordered κ ν) : List κ :=
  entries.map Prod.fst

/-- No key occurs twice. -/
def Distinct (entries : Ordered κ ν) : Prop :=
  (keys entries).Nodup

variable [DecidableEq κ]

/-- The value of a key. -/
def find? (key : κ) : Ordered κ ν → Option ν
  | [] => none
  | (k, v) :: rest => if k = key then some v else find? key rest

/-- Write a value: in place where the key is present, at the end where it is new. -/
def insert (key : κ) (value : ν) : Ordered κ ν → Ordered κ ν
  | [] => [(key, value)]
  | (k, v) :: rest =>
      if k = key then (key, value) :: rest else (k, v) :: insert key value rest

/-- Drop a key and its value. -/
def erase (key : κ) (entries : Ordered κ ν) : Ordered κ ν :=
  entries.filter fun entry => decide (entry.1 ≠ key)

/-- The map that holds the last value of every key of a list, each key at its first place. -/
def ofList (pairs : List (κ × ν)) : Ordered κ ν :=
  pairs.foldl (fun entries pair => insert pair.1 pair.2 entries) []

/-! ## Reading back what was written -/

@[simp] theorem find?_nil (key : κ) : find? key ([] : Ordered κ ν) = none := rfl

theorem find?_insert (key other : κ) (value : ν) (entries : Ordered κ ν) :
    find? other (insert key value entries)
      = if key = other then some value else find? other entries := by
  induction entries with
  | nil => by_cases h : key = other <;> simp [insert, find?, h]
  | cons entry rest ih =>
      obtain ⟨k, v⟩ := entry
      by_cases hk : k = key
      · subst hk
        by_cases h : k = other <;> simp [insert, find?, h]
      · by_cases h : k = other
        · subst h
          simp [insert, find?, hk, Ne.symm hk]
        · simp [insert, find?, hk, h, ih]

theorem find?_erase (key other : κ) (entries : Ordered κ ν) :
    find? other (erase key entries) = if key = other then none else find? other entries := by
  induction entries with
  | nil => simp [erase]
  | cons entry rest ih =>
      obtain ⟨k, v⟩ := entry
      by_cases hk : k = key
      · subst hk
        by_cases h : k = other <;> simp_all [erase, find?]
      · by_cases h : k = other
        · subst h
          simp [erase, find?, hk, Ne.symm hk]
        · simp_all [erase, find?]

theorem mem_of_find? {key : κ} {value : ν} {entries : Ordered κ ν}
    (h : find? key entries = some value) : (key, value) ∈ entries := by
  induction entries with
  | nil => cases h
  | cons entry rest ih =>
      obtain ⟨k, v⟩ := entry
      by_cases hk : k = key
      · rw [find?, if_pos hk] at h
        cases h
        rw [hk]
        exact List.mem_cons_self
      · rw [find?, if_neg hk] at h
        exact List.mem_cons_of_mem _ (ih h)

/-! ## Keys -/

theorem mem_keys_iff {key : κ} {entries : Ordered κ ν} :
    key ∈ keys entries ↔ ∃ value, find? key entries = some value := by
  induction entries with
  | nil => simp [keys]
  | cons entry rest ih =>
      obtain ⟨k, v⟩ := entry
      unfold keys at ih ⊢
      rw [List.map_cons, List.mem_cons, ih, find?]
      by_cases hk : k = key
      · simp [hk]
      · simp [hk, Ne.symm hk]

/-- In a map that holds no key twice, every entry is found under its key. -/
theorem find?_of_mem {key : κ} {value : ν} {entries : Ordered κ ν} (hdistinct : Distinct entries)
    (h : (key, value) ∈ entries) : find? key entries = some value := by
  induction entries with
  | nil => cases h
  | cons entry rest ih =>
      obtain ⟨k, v⟩ := entry
      obtain ⟨hnew, hrest⟩ := List.nodup_cons.1 hdistinct
      rcases List.mem_cons.1 h with heq | hmem
      · cases heq
        rw [find?, if_pos rfl]
      · have hk : k ≠ key := by
          rintro rfl
          exact hnew (List.mem_map.2 ⟨_, hmem, rfl⟩)
        rw [find?, if_neg hk]
        exact ih hrest hmem

/-- Writing a key that is present keeps the keys, and writing a new one appends it. -/
theorem keys_insert (key : κ) (value : ν) (entries : Ordered κ ν) :
    keys (insert key value entries)
      = if key ∈ keys entries then keys entries else keys entries ++ [key] := by
  induction entries with
  | nil => rfl
  | cons entry rest ih =>
      obtain ⟨k, v⟩ := entry
      by_cases hk : k = key
      · subst hk
        simp [insert, keys]
      · have hne : ¬ key = k := fun h => hk h.symm
        unfold keys at ih ⊢
        simp only [insert, if_neg hk, List.map_cons, ih, List.mem_cons, hne, false_or]
        split <;> simp

theorem keys_erase (key : κ) (entries : Ordered κ ν) :
    keys (erase key entries) = (keys entries).filter fun k => decide (k ≠ key) := by
  unfold keys erase
  rw [List.filter_map]
  rfl

theorem distinct_insert (key : κ) (value : ν) {entries : Ordered κ ν} (h : Distinct entries) :
    Distinct (insert key value entries) := by
  unfold Distinct at h ⊢
  rw [keys_insert]
  split
  · exact h
  · next absent =>
      rw [List.nodup_append]
      refine ⟨h, by simp, ?_⟩
      intro a ha b hb hab
      rw [List.mem_singleton] at hb
      subst hab hb
      exact absent ha

theorem distinct_erase (key : κ) {entries : Ordered κ ν} (h : Distinct entries) :
    Distinct (erase key entries) := by
  unfold Distinct at h ⊢
  rw [keys_erase]
  exact List.Pairwise.filter _ h

/-- A map that was built from a list holds no key twice. -/
theorem distinct_ofList (pairs : List (κ × ν)) : Distinct (ofList pairs) := by
  have grow : ∀ (pairs : List (κ × ν)) (entries : Ordered κ ν), Distinct entries →
      Distinct (pairs.foldl (fun entries pair => insert pair.1 pair.2 entries) entries) := by
    intro pairs
    induction pairs with
    | nil => exact fun entries h => h
    | cons pair rest ih => exact fun entries h => ih _ (distinct_insert pair.1 pair.2 h)
  exact grow pairs [] List.nodup_nil

end Ordered

end Parley
