import Parley.Cache
import Parley.Proofs.Latest
import Parley.Proofs.Number.Order
import Mathlib.Data.List.Chain
import Mathlib.Data.List.Induction
set_option autoImplicit false

/-! # A cache against its history

What a cache holds depends on which keys happened to be read after they expired. What is *read* from
it does not: the entry of a key is the latest store of that key since it was last dropped, and it is
read for as long as the time of that store plus the time to keep it lies ahead.

The bridge is `fresh?`, the entry of a key that has not expired. A step changes `fresh?` as its own
record in the history says (`fresh?_step`), and a read changes it for no key (`fresh?_get`), so that
a history and a cache that agree once (`Agrees`) agree after every run in which time does not go
back. -/

namespace Parley.Cache

open Number

variable {κ υ ε : Type} [DecidableEq κ]

/-! ## Runs -/

/-- A step that was run. -/
structure Taken (κ υ ε : Type) where
  step : Step κ υ ε
  answer : Answer υ ε
  /-- The time when the step was over. -/
  time : Number

/-- Run steps one after another. -/
def run : List (Step κ υ ε) → Clocked κ υ → List (Taken κ υ ε) × Clocked κ υ
  | [], c => ([], c)
  | s :: rest, c =>
      let (answer, next) := step s c
      let (history, last) := run rest next
      (⟨s, answer, next.now⟩ :: history, last)

/-- From the start of a history on, time does not go back. -/
def Ascending (start : Number) (history : List (Taken κ υ ε)) : Prop :=
  (start :: history.map Taken.time).IsChain fun before after => before.le after = true

/-! ## What a history stored -/

/-- A value, or the absence of one, and the time when it was stored. -/
structure Stored (υ : Type) where
  value : Option υ
  time : Number

/-- What a step stored under a key. -/
def Taken.stored? (key : κ) (taken : Taken κ υ ε) : Option (Stored υ) :=
  match taken.step, taken.answer with
  | .set k value, _ => if k = key then some ⟨value, taken.time⟩ else none
  | .load k _ _, .loaded (some value) =>
      if k = key then some ⟨some value, taken.time⟩ else none
  | _, _ => none

/-- Whether a step drops what is stored under a key. -/
def Step.drops (key : κ) : Step κ υ ε → Bool
  | .invalidate k => decide (k = key)
  | .clear => true
  | _ => false

/-- The latest store of a key since the key was last dropped. -/
def LatestStore (key : κ) (history : List (Taken κ υ ε)) (stored : Stored υ) : Prop :=
  ∃ before taken after, history = before ++ taken :: after ∧ taken.stored? key = some stored ∧
    ∀ later ∈ after, later.stored? key = none ∧ later.step.drops key = false

/-- A value that was stored has not expired: the time until which it is kept lies ahead, or it is not
    a number, and then it never passes. -/
def Unexpired (ttl stored now : Number) : Prop :=
  now.lt (stored.add ttl) = true ∨ (stored.add ttl).place? = none

/-- Among numbers, a value has not expired as long as the time until which it is kept lies ahead. -/
theorem unexpired_iff_lt {ttl stored now : Number} (h : (stored.add ttl).place?.isSome = true) :
    Unexpired ttl stored now ↔ now.lt (stored.add ttl) = true :=
  or_iff_left (Option.isSome_iff_ne_none.1 h)

/-- The latest store of a key, found from the first step on. -/
def latest? (key : κ) (history : List (Taken κ υ ε)) : Option (Stored υ) :=
  history.foldl (fun before taken =>
    if taken.step.drops key then none else (taken.stored? key).or before) none

theorem latest?_append_singleton (key : κ) (history : List (Taken κ υ ε)) (taken : Taken κ υ ε) :
    latest? key (history ++ [taken])
      = if taken.step.drops key then none else (taken.stored? key).or (latest? key history) := by
  unfold latest?
  rw [List.foldl_append]
  rfl

theorem Taken.drops_eq_false_of_stored? {key : κ} {taken : Taken κ υ ε} {stored : Stored υ}
    (h : taken.stored? key = some stored) : taken.step.drops key = false := by
  obtain ⟨s, answer, time⟩ := taken
  cases s <;> simp_all [Taken.stored?, Step.drops]

/-- The latest store is that of the last step, or the one before it that the last step leaves. -/
theorem latestStore_append_singleton {key : κ} {history : List (Taken κ υ ε)}
    {taken : Taken κ υ ε} {stored : Stored υ} :
    LatestStore key (history ++ [taken]) stored
      ↔ taken.stored? key = some stored ∨
        (taken.stored? key = none ∧ taken.step.drops key = false) ∧
          LatestStore key history stored :=
  exists_latest_append_singleton

theorem latest?_eq_some_iff {key : κ} {history : List (Taken κ υ ε)} {stored : Stored υ} :
    latest? key history = some stored ↔ LatestStore key history stored := by
  induction history using List.reverseRecOn with
  | nil => simp [latest?, LatestStore]
  | append_singleton history taken ih =>
      rw [latest?_append_singleton, latestStore_append_singleton, ← ih]
      cases hstored : taken.stored? key with
      | some own => simp [Taken.drops_eq_false_of_stored? hstored]
      | none => cases hdrops : taken.step.drops key <;> simp

/-! ## Entries that have not expired -/

/-- An entry is still read. -/
def Entry.isLive (now : Number) (entry : Entry υ) : Bool :=
  !entry.expires.le now

/-- The entry of a key, unless it has expired. -/
def fresh? (key : κ) (now : Number) (cache : Cache κ υ) : Option (Entry υ) :=
  (Ordered.find? key cache.entries).filter (Entry.isLive now)

/-- What was stored, as the entry of a cache. -/
def Stored.entry (ttl : Number) (stored : Stored υ) : Entry υ :=
  ⟨stored.value, stored.time.add ttl⟩

/-- An entry that has expired stays expired. -/
theorem Entry.isLive_of_le {now later : Number} (h : now.le later = true) {entry : Entry υ}
    (hlive : entry.isLive later = true) : entry.isLive now = true := by
  unfold Entry.isLive at hlive ⊢
  by_contra hexpired
  rw [Bool.not_eq_true, Bool.not_eq_false'] at hexpired
  rw [le_trans hexpired h] at hlive
  cases hlive

/-- Of the entries that are live now, those are live later that would be live later anyway. -/
theorem filter_isLive_of_le {now later : Number} (h : now.le later = true)
    (held? : Option (Entry υ)) :
    (held?.filter (Entry.isLive now)).filter (Entry.isLive later)
      = held?.filter (Entry.isLive later) := by
  rw [Option.filter_filter]
  congr 1
  funext entry
  by_cases hlive : entry.isLive later = true
  · simp [hlive, Entry.isLive_of_le h hlive]
  · simp [hlive]

theorem fresh?_of_le {now later : Number} (h : now.le later = true) (key : κ) (cache : Cache κ υ) :
    cache.fresh? key later = (cache.fresh? key now).filter (Entry.isLive later) :=
  (filter_isLive_of_le h _).symm

/-- A stored entry is live exactly while its time lies ahead. -/
theorem isLive_entry_iff {ttl now : Number} (hnow : now.place?.isSome = true) (stored : Stored υ) :
    (stored.entry ttl).isLive now = true ↔ Unexpired ttl stored.time now := by
  unfold Entry.isLive Unexpired Stored.entry
  rw [Bool.not_eq_true']
  cases hplace : (stored.time.add ttl).place? with
  | none => simp [le_eq_false_of_place?_eq_none hplace]
  | some place =>
      rw [lt_iff_not_le hnow (by rw [hplace]; rfl)]
      simp

/-! ## What the operations do to fresh entries -/

theorem get_fst (key : κ) (now : Number) (cache : Cache κ υ) :
    (cache.get key now).1 = (cache.fresh? key now).bind Entry.value := by
  unfold get fresh?
  cases Ordered.find? key cache.entries with
  | none => rfl
  | some entry => cases hle : entry.expires.le now <;> simp [Entry.isLive, hle, Option.filter]

/-- A read drops nothing that any read would return. -/
theorem fresh?_get (key other : κ) (now : Number) (cache : Cache κ υ) :
    (cache.get key now).2.fresh? other now = cache.fresh? other now := by
  unfold get fresh?
  cases hfind : Ordered.find? key cache.entries with
  | none => rfl
  | some entry =>
      by_cases hle : entry.expires.le now = true
      · simp only [if_pos hle, invalidate, Ordered.find?_erase]
        by_cases hkey : key = other
        · subst hkey
          simp [hfind, Entry.isLive, hle, Option.filter]
        · simp [hkey]
      · simp [hle]

theorem fresh?_set (key other : κ) (value : Option υ) (stored now : Number) (cache : Cache κ υ) :
    (cache.set key value stored).fresh? other now
      = if key = other then (some ⟨value, stored.add cache.ttl⟩).filter (Entry.isLive now)
        else cache.fresh? other now := by
  unfold set fresh?
  rw [Ordered.find?_insert]
  split <;> rfl

theorem fresh?_invalidate (key other : κ) (now : Number) (cache : Cache κ υ) :
    (cache.invalidate key).fresh? other now
      = if key = other then none else cache.fresh? other now := by
  unfold invalidate fresh?
  rw [Ordered.find?_erase]
  split <;> rfl

@[simp] theorem fresh?_clear (key : κ) (now : Number) (cache : Cache κ υ) :
    cache.clear.fresh? key now = none := rfl

@[simp] theorem ttl_get (key : κ) (now : Number) (cache : Cache κ υ) :
    (cache.get key now).2.ttl = cache.ttl := by
  unfold get
  split
  · rfl
  · split <;> rfl

@[simp] theorem ttl_store (key : κ) (loaded : Option υ) (now : Number) (cache : Cache κ υ) :
    (cache.store key loaded now).ttl = cache.ttl := by
  cases loaded <;> rfl

/-! ## One step -/

theorem fresh?_get_of_le {now later : Number} (h : now.le later = true) (key other : κ)
    (cache : Cache κ υ) :
    (cache.get key now).2.fresh? other later
      = (cache.fresh? other now).filter (Entry.isLive later) := by
  rw [fresh?_of_le h, fresh?_get]

/-- A key that is read is not loaded. -/
theorem getOrLoad_of_hit {key : κ} {c : Clocked κ υ} {value : υ}
    (h : (c.cache.get key c.now).1 = some value) (takes : Number)
    (outcome : Except ε (Option υ)) :
    getOrLoad key takes outcome c
      = (.hit value, { c with cache := (c.cache.get key c.now).2 }) := by
  have hget : c.cache.get key c.now = (some value, (c.cache.get key c.now).2) := Prod.ext h rfl
  unfold getOrLoad
  rw [hget]

/-- A key that reads as nothing is loaded, and a value that the loader returns is stored when the
    loader is done. -/
theorem getOrLoad_of_miss {key : κ} {c : Clocked κ υ} (h : (c.cache.get key c.now).1 = none)
    (takes : Number) (outcome : Except ε (Option υ)) :
    getOrLoad key takes outcome c
      = (.missed outcome,
        ⟨(c.cache.get key c.now).2.store key (outcome.toOption.bind id) (c.now.add takes),
          c.now.add takes⟩) := by
  have hget : c.cache.get key c.now = (none, (c.cache.get key c.now).2) := Prod.ext h rfl
  unfold getOrLoad
  rw [hget]
  cases outcome <;> rfl

theorem step_load_of_hit {key : κ} {c : Clocked κ υ} {value : υ}
    (h : (c.cache.get key c.now).1 = some value) (takes : Number)
    (outcome : Except ε (Option υ)) :
    step (.load key takes outcome) c
      = (.read (some value), { c with cache := (c.cache.get key c.now).2 }) := by
  unfold step
  dsimp only
  rw [getOrLoad_of_hit h]
  rfl

theorem step_load_of_miss {key : κ} {c : Clocked κ υ} (h : (c.cache.get key c.now).1 = none)
    (takes : Number) (outcome : Except ε (Option υ)) :
    step (.load key takes outcome) c
      = match outcome with
        | .error cause =>
            (.loadFailed cause, ⟨(c.cache.get key c.now).2, c.now.add takes⟩)
        | .ok loaded =>
            (.loaded loaded, ⟨(c.cache.get key c.now).2.store key loaded (c.now.add takes),
              c.now.add takes⟩) := by
  unfold step
  dsimp only
  rw [getOrLoad_of_miss h]
  cases outcome <;> rfl

/-- The record of running one step. -/
def take (s : Step κ υ ε) (c : Clocked κ υ) : Taken κ υ ε :=
  ⟨s, (step s c).1, (step s c).2.now⟩

/-- What a step leaves of an entry: nothing where the key is dropped, else what the step stored or
    what there was, for as long as it is live. -/
theorem fresh?_step {s : Step κ υ ε} {c : Clocked κ υ} (h : c.now.le (step s c).2.now = true)
    (key : κ) :
    (step s c).2.cache.fresh? key (step s c).2.now
      = if s.drops key then none
        else ((((take s c).stored? key).map (Stored.entry c.cache.ttl)).or
          (c.cache.fresh? key c.now)).filter (Entry.isLive (step s c).2.now) := by
  cases s with
  | advance amount => exact fresh?_of_le h key c.cache
  | set k value =>
      have hkept := fresh?_of_le h key c.cache
      by_cases hkey : k = key
      · simp [step, take, Taken.stored?, Step.drops, fresh?_set, hkey, Stored.entry]
      · simpa [step, take, Taken.stored?, Step.drops, fresh?_set, hkey] using hkept
  | get k => exact fresh?_get_of_le h k key c.cache
  | invalidate k =>
      have hkept := fresh?_of_le h key c.cache
      by_cases hkey : k = key
      · simp [step, Step.drops, fresh?_invalidate, hkey]
      · simpa [step, take, Taken.stored?, Step.drops, fresh?_invalidate, hkey] using hkept
  | clear => exact fresh?_clear key _ c.cache
  | load k takes outcome =>
      have hkept := fresh?_get_of_le h k key c.cache
      cases hget : (c.cache.get k c.now).1 with
      | some value =>
          simp only [take, step_load_of_hit hget] at hkept ⊢
          simpa [Taken.stored?, Step.drops] using hkept
      | none =>
          simp only [take, step_load_of_miss hget] at hkept ⊢
          rcases outcome with cause | loaded | value
          · simpa [Taken.stored?, Step.drops] using hkept
          · simpa [Taken.stored?, Step.drops, store] using hkept
          · by_cases hkey : k = key
            · simp [Taken.stored?, Step.drops, store, fresh?_set, hkey, Stored.entry]
            · simpa [Taken.stored?, Step.drops, store, fresh?_set, hkey] using hkept

@[simp] theorem ttl_step (s : Step κ υ ε) (c : Clocked κ υ) :
    (step s c).2.cache.ttl = c.cache.ttl := by
  cases s with
  | load k takes outcome =>
      cases hget : (c.cache.get k c.now).1 with
      | some value => simp [step_load_of_hit hget]
      | none => cases outcome <;> simp [step_load_of_miss hget]
  | get k => exact ttl_get k c.now c.cache
  | _ => rfl

/-! ## Whole runs -/

theorem run_cons (s : Step κ υ ε) (rest : List (Step κ υ ε)) (c : Clocked κ υ) :
    run (s :: rest) c = (take s c :: (run rest (step s c).2).1, (run rest (step s c).2).2) := rfl

omit [DecidableEq κ] in
theorem ascending_cons {start : Number} {taken : Taken κ υ ε} {history : List (Taken κ υ ε)} :
    Ascending start (taken :: history)
      ↔ start.le taken.time = true ∧ Ascending taken.time history := by
  unfold Ascending
  rw [List.map_cons, List.isChain_cons_cons]

/-- A cache agrees with a history: the fresh entry of every key is its latest store. -/
structure Agrees (ttl : Number) (history : List (Taken κ υ ε)) (c : Clocked κ υ) : Prop where
  ttl_eq : c.cache.ttl = ttl
  placed : history ≠ [] → c.now.place?.isSome = true
  fresh : ∀ key, c.cache.fresh? key c.now
    = ((latest? key history).map (Stored.entry ttl)).filter (Entry.isLive c.now)

theorem Agrees.step {ttl : Number} {history : List (Taken κ υ ε)} {c : Clocked κ υ}
    (agrees : Agrees ttl history c) {s : Step κ υ ε} (h : c.now.le (step s c).2.now = true) :
    Agrees ttl (history ++ [take s c]) (Cache.step s c).2 where
  ttl_eq := (ttl_step s c).trans agrees.ttl_eq
  placed := fun _ => isSome_place?_of_le h
  fresh := by
    intro key
    rw [fresh?_step h, latest?_append_singleton, agrees.fresh, agrees.ttl_eq]
    by_cases hdrops : s.drops key = true
    · simp [take, hdrops]
    · rw [if_neg hdrops, if_neg (by simpa [take] using hdrops)]
      cases (take s c).stored? key with
      | some stored => rfl
      | none => exact filter_isLive_of_le h _

/-- A cache that agrees with its past agrees with what follows, as long as time does not go
    back. -/
theorem Agrees.run {ttl : Number} {past : List (Taken κ υ ε)} {c : Clocked κ υ}
    (agrees : Agrees ttl past c) (steps : List (Step κ υ ε))
    (h : Ascending c.now (run steps c).1) :
    Agrees ttl (past ++ (Cache.run steps c).1) (Cache.run steps c).2 := by
  -- a step that was run joins the past
  induction steps generalizing past c with
  | nil => simpa [Cache.run] using agrees
  | cons s rest ih =>
      rw [run_cons] at h ⊢
      obtain ⟨hnow, hrest⟩ := ascending_cons.1 h
      have next := ih (agrees.step hnow) hrest
      rwa [List.append_assoc] at next

theorem agrees_empty (ttl start : Number) :
    Agrees ttl ([] : List (Taken κ υ ε)) ⟨empty ttl, start⟩ where
  ttl_eq := rfl
  placed := fun h => absurd rfl h
  fresh := fun _ => rfl

/-! ## Caches that read the same -/

/-- Two caches read the same now, whatever expired entries they hold. -/
structure Same (c d : Clocked κ υ) : Prop where
  ttl_eq : c.cache.ttl = d.cache.ttl
  now_eq : c.now = d.now
  fresh : ∀ key, c.cache.fresh? key c.now = d.cache.fresh? key c.now

theorem Same.get_fst {c d : Clocked κ υ} (same : Same c d) (key : κ) :
    (c.cache.get key c.now).1 = (d.cache.get key d.now).1 := by
  rw [Cache.get_fst, Cache.get_fst, ← same.now_eq, same.fresh]

/-- Caches that read the same answer every step alike. -/
theorem Same.take_eq {c d : Clocked κ υ} (same : Same c d) (s : Step κ υ ε) :
    take s c = take s d := by
  cases s with
  | get k => simpa [take, Cache.step, same.now_eq] using same.get_fst k
  | load k takes outcome =>
      have hread := same.get_fst k
      cases hget : (c.cache.get k c.now).1 with
      | some value =>
          rw [hget] at hread
          simp [take, step_load_of_hit hget, step_load_of_hit hread.symm, same.now_eq]
      | none =>
          rw [hget] at hread
          cases outcome <;>
            simp [take, step_load_of_miss hget, step_load_of_miss hread.symm, same.now_eq]
  | _ => simp [take, Cache.step, same.now_eq]

theorem Same.step {c d : Clocked κ υ} (same : Same c d) {s : Step κ υ ε}
    (h : c.now.le (step s c).2.now = true) : Same (Cache.step s c).2 (Cache.step s d).2 := by
  have hnow : (Cache.step s c).2.now = (Cache.step s d).2.now :=
    congrArg Taken.time (same.take_eq s)
  refine ⟨?_, hnow, ?_⟩
  · rw [ttl_step, ttl_step, same.ttl_eq]
  · intro key
    have h' : d.now.le (Cache.step s d).2.now = true := by rwa [← hnow, ← same.now_eq]
    rw [fresh?_step h, hnow, fresh?_step h', same.take_eq, same.ttl_eq, same.fresh, same.now_eq]

/-- Caches that read the same have the same history from then on. -/
theorem Same.run_fst {c d : Clocked κ υ} (same : Same c d) (steps : List (Step κ υ ε))
    (h : Ascending c.now (run steps c).1) : (Cache.run steps c).1 = (Cache.run steps d).1 := by
  induction steps generalizing c d with
  | nil => rfl
  | cons s rest ih =>
      rw [run_cons] at h ⊢
      obtain ⟨hnow, hrest⟩ := ascending_cons.1 h
      rw [run_cons, same.take_eq, ih (same.step hnow) hrest]

/-- A read leaves a cache that reads the same. -/
theorem same_get (key : κ) (c : Clocked κ υ) :
    Same c ⟨(c.cache.get key c.now).2, c.now⟩ where
  ttl_eq := (ttl_get key c.now c.cache).symm
  now_eq := rfl
  fresh := fun other => (fresh?_get key other c.now c.cache).symm

/-! ## What is read later -/

/-- A read changes no later read. -/
theorem get_get_fst {now later : Number} (h : now.le later = true) (key other : κ)
    (cache : Cache κ υ) :
    ((cache.get key now).2.get other later).1 = (cache.get other later).1 := by
  rw [get_fst, get_fst, fresh?_get_of_le h, fresh?_of_le h]

/-- A key that reads as nothing reads as nothing later on. -/
theorem get_fst_eq_none_of_le {now later : Number} (h : now.le later = true) {key : κ}
    {cache : Cache κ υ} (hnone : (cache.get key now).1 = none) :
    (cache.get key later).1 = none := by
  rw [get_fst] at hnone ⊢
  rw [fresh?_of_le h]
  cases hfresh : cache.fresh? key now with
  | none => rfl
  | some entry =>
      rw [hfresh, Option.bind_some] at hnone
      cases hlive : entry.isLive later <;> simp [Option.filter, hlive, hnone]

/-- A read that returned nothing leaves nothing to read under its key at any time, be it before
    the read. -/
theorem get_get_fst_of_miss {key : κ} {now : Number} {cache : Cache κ υ}
    (hmiss : (cache.get key now).1 = none) (later : Number) :
    ((cache.get key now).2.get key later).1 = none := by
  cases hfind : Ordered.find? key cache.entries with
  | none =>
      have hsame : (cache.get key now).2 = cache := by
        unfold get
        rw [hfind]
      rw [hsame, get_fst, fresh?, hfind]
      rfl
  | some entry =>
      unfold get at hmiss ⊢
      rw [hfind] at hmiss ⊢
      by_cases hle : entry.expires.le now = true
      -- the entry had expired and is gone
      · simp only [if_pos hle, invalidate, Ordered.find?_erase, if_true]
      -- the entry is there and holds no value
      · simp only [if_neg hle] at hmiss ⊢
        rw [hfind]
        dsimp only
        split
        · rfl
        · exact hmiss

/-- What was stored is read until its time has passed. -/
theorem get_set_fst (key : κ) (value : Option υ) (stored now : Number) (cache : Cache κ υ) :
    ((cache.set key value stored).get key now).1
      = if (stored.add cache.ttl).le now then none else value := by
  rw [get_fst, fresh?_set, if_pos rfl]
  cases hle : (stored.add cache.ttl).le now <;> simp [Option.filter, Entry.isLive, hle]

theorem find?_get_of_ne {key other : κ} (h : other ≠ key) (now : Number) (cache : Cache κ υ) :
    Ordered.find? key (cache.get other now).2.entries = Ordered.find? key cache.entries := by
  unfold get
  split
  · rfl
  · split
    · simp [invalidate, Ordered.find?_erase, h]
    · rfl

/-- A read writes nothing. -/
theorem find?_of_find?_get {key other : κ} {now : Number} {cache : Cache κ υ} {entry : Entry υ}
    (h : Ordered.find? other (cache.get key now).2.entries = some entry) :
    Ordered.find? other cache.entries = some entry := by
  by_cases hkey : key = other
  · subst hkey
    unfold get at h
    split at h
    · exact h
    · split at h
      · simp [invalidate, Ordered.find?_erase] at h
      · exact h
  · rwa [find?_get_of_ne hkey] at h

/-- A value that is read is that of an entry which has not expired. -/
theorem exists_entry_of_get_fst {key : κ} {now : Number} {cache : Cache κ υ} {value : υ}
    (h : (cache.get key now).1 = some value) :
    ∃ entry, Ordered.find? key cache.entries = some entry ∧ entry.value = some value ∧
      entry.expires.le now = false := by
  rw [get_fst, fresh?, Option.bind_eq_some_iff] at h
  obtain ⟨entry, hfresh, hvalue⟩ := h
  obtain ⟨hfind, hlive⟩ := Option.filter_eq_some_iff.1 hfresh
  exact ⟨entry, hfind, hvalue, by simpa [Entry.isLive] using hlive⟩

/-- Whether a step operates on a key. -/
def Step.concerns (key : κ) : Step κ υ ε → Bool
  | .advance _ => false
  | .set k _ => decide (k = key)
  | .get k => decide (k = key)
  | .invalidate k => decide (k = key)
  | .clear => true
  | .load k _ _ => decide (k = key)

/-- A step on other keys leaves the entry of a key where it is. -/
theorem find?_step_of_not_concerns {key : κ} {s : Step κ υ ε} (h : s.concerns key = false)
    (c : Clocked κ υ) :
    Ordered.find? key (step s c).2.cache.entries = Ordered.find? key c.cache.entries := by
  cases s with
  | advance amount => rfl
  | clear => cases h
  | set k value => simp [step, set, Ordered.find?_insert, of_decide_eq_false h]
  | get k => exact find?_get_of_ne (of_decide_eq_false h) c.now c.cache
  | invalidate k => simp [step, invalidate, Ordered.find?_erase, of_decide_eq_false h]
  | load k takes outcome =>
      have hkept := find?_get_of_ne (of_decide_eq_false h) c.now c.cache
      cases hread : (c.cache.get k c.now).1 with
      | some value => simpa [step_load_of_hit hread] using hkept
      | none =>
          rcases outcome with cause | loaded | value
          · simpa [step_load_of_miss hread] using hkept
          · simpa [step_load_of_miss hread, store] using hkept
          · simpa [step_load_of_miss hread, store, set, Ordered.find?_insert,
              of_decide_eq_false h] using hkept

theorem get_fst_step_of_not_concerns {key : κ} {s : Step κ υ ε} (h : s.concerns key = false)
    (c : Clocked κ υ) (now : Number) :
    ((step s c).2.cache.get key now).1 = (c.cache.get key now).1 := by
  rw [get_fst, get_fst]
  unfold fresh?
  rw [find?_step_of_not_concerns h]

/-- What is read of a key after a loader was awaited for it: the value that the loader returned,
    until its time has passed. -/
def readLoaded (ttl stored now : Number) : Except ε (Option υ) → Option υ
  | .ok (some value) => if (stored.add ttl).le now then none else some value
  | _ => none

theorem get_fst_step_load_of_miss {key : κ} {c : Clocked κ υ} {later : Number}
    (h : c.now.le later = true) (hmiss : (c.cache.get key c.now).1 = none) (takes : Number)
    (outcome : Except ε (Option υ)) :
    ((step (.load key takes outcome) c).2.cache.get key later).1
      = readLoaded c.cache.ttl (c.now.add takes) later outcome := by
  have hnone : ((c.cache.get key c.now).2.get key later).1 = none := by
    rw [get_get_fst h, get_fst_eq_none_of_le h hmiss]
  rw [step_load_of_miss hmiss]
  rcases outcome with cause | loaded | value
  · exact hnone
  · exact hnone
  · simp only [store, readLoaded]
    rw [get_set_fst, ttl_get]

/-! ## The refinement -/

/-- By its history, a key reads as a value: the value is what the latest store of the key stored,
    and that store has not expired. -/
def Live (ttl : Number) (key : κ) (history : List (Taken κ υ ε)) (now : Number) (value : υ) :
    Prop :=
  ∃ stored, LatestStore key history stored ∧ stored.value = some value ∧
    Unexpired ttl stored.time now

theorem Agrees.get_fst_eq_some_iff {ttl : Number} {history : List (Taken κ υ ε)}
    {c : Clocked κ υ} (agrees : Agrees ttl history c) (key : κ) (value : υ) :
    (c.cache.get key c.now).1 = some value ↔ Live ttl key history c.now value := by
  rw [Cache.get_fst, agrees.fresh]
  simp only [Option.bind_eq_some_iff, Option.filter_eq_some_iff, Option.map_eq_some_iff]
  -- something was stored, so that time has not gone back and lies on the line
  have hplaced : ∀ stored, latest? key history = some stored → c.now.place?.isSome = true := by
    intro stored hlatest
    apply agrees.placed
    rintro rfl
    cases hlatest
  constructor
  · rintro ⟨entry, ⟨⟨stored, hlatest, rfl⟩, hlive⟩, hvalue⟩
    exact ⟨stored, latest?_eq_some_iff.1 hlatest, hvalue,
      (isLive_entry_iff (hplaced stored hlatest) stored).1 hlive⟩
  · rintro ⟨stored, hstore, hvalue, hunexpired⟩
    have hlatest := latest?_eq_some_iff.2 hstore
    exact ⟨stored.entry ttl, ⟨⟨stored, hlatest, rfl⟩,
      (isLive_entry_iff (hplaced stored hlatest) stored).2 hunexpired⟩, hvalue⟩

/-- Where the latest store of a key is kept until a time that is a number, the key reads as what was
    stored exactly as long as that time lies ahead. -/
theorem live_iff_lt {ttl : Number} {key : κ} {history : List (Taken κ υ ε)} {stored : Stored υ}
    (hstore : LatestStore key history stored) (h : (stored.time.add ttl).place?.isSome = true)
    (now : Number) (value : υ) :
    Live ttl key history now value
      ↔ stored.value = some value ∧ now.lt (stored.time.add ttl) = true := by
  rw [← unexpired_iff_lt h]
  constructor
  · rintro ⟨latest, hlatest, hlive⟩
    have heq := (latest?_eq_some_iff.2 hlatest).symm.trans (latest?_eq_some_iff.2 hstore)
    exact Option.some.inj heq ▸ hlive
  · intro hlive
    exact ⟨stored, hstore, hlive⟩

/-- Whether a loader was awaited for an answer. -/
def Answer.awaited : Answer υ ε → Bool
  | .loaded _ => true
  | .loadFailed _ => true
  | _ => false

/-- **A cache refines its history.** After any steps in which time does not go back, a key reads as a
    value exactly when its latest store since it was last dropped stored that value and has not
    expired: when the time of that store and the time to keep it add up to a number, exactly as long
    as their sum lies ahead. A loader is awaited exactly when the key does not read as a value, and
    what it returns is read from then on if it is a value. A read, which may drop expired entries,
    leaves every later history as it would be without the read, and a step on other keys leaves what
    is read of a key at any time. -/
theorem refines_history (ttl start : Number) (steps : List (Step κ υ ε)) (key : κ)
    (h : Ascending start (run steps ⟨empty ttl, start⟩).1) :
    let history := (run steps ⟨empty ttl, start⟩).1
    let c := (run steps ⟨empty ttl, start⟩).2
    (∀ value, (c.cache.get key c.now).1 = some value ↔ Live ttl key history c.now value) ∧
    (∀ (takes : Number) (outcome : Except ε (Option υ)),
      let loading := step (.load key takes outcome) c
      (∀ value, loading.1 = .read (some value) ↔ Live ttl key history c.now value) ∧
      (loading.1.awaited = true ↔ ∀ value, ¬ Live ttl key history c.now value) ∧
      ∀ later, c.now.le later = true → (loading.2.cache.get key later).1
        = if loading.1.awaited then readLoaded ttl (c.now.add takes) later outcome
          else (c.cache.get key later).1) ∧
    (∀ (other : κ) (rest : List (Step κ υ ε)), Ascending c.now (run rest c).1 →
      (run rest ⟨(c.cache.get other c.now).2, c.now⟩).1 = (run rest c).1) ∧
    (∀ s : Step κ υ ε, s.concerns key = false → ∀ now,
      ((step s c).2.cache.get key now).1 = (c.cache.get key now).1) ∧
    ∀ stored, LatestStore key history stored → (stored.time.add ttl).place?.isSome = true →
      ∀ value, (c.cache.get key c.now).1 = some value
        ↔ stored.value = some value ∧ c.now.lt (stored.time.add ttl) = true := by
  intro history c
  have agrees : Agrees ttl history c := (agrees_empty ttl start).run steps h
  have hread := agrees.get_fst_eq_some_iff key
  refine ⟨hread, ?_, ?_, fun s hs now => get_fst_step_of_not_concerns hs c now,
    fun stored hstore hplace value => (hread value).trans (live_iff_lt hstore hplace c.now value)⟩
  · intro takes outcome
    cases hget : (c.cache.get key c.now).1 with
    | some found =>
        simp only [← hread, hget, step_load_of_hit hget]
        refine ⟨by simp, by simp [Answer.awaited], ?_⟩
        intro later hlater
        exact get_get_fst hlater key key c.cache
    | none =>
        have hawaited : (step (.load key takes outcome) c).1.awaited = true := by
          cases outcome <;> simp [step_load_of_miss hget, Answer.awaited]
        simp only [← hread, hget, hawaited, if_true]
        refine ⟨?_, by simp, ?_⟩
        · intro value
          cases outcome <;> simp [step_load_of_miss hget]
        · intro later hlater
          rw [get_fst_step_load_of_miss hlater hget, agrees.ttl_eq]
  · intro other rest hrest
    exact ((same_get other c).run_fst rest hrest).symm

/-- Two keys are stored, the first one is loaded again at the instant when it expires, and is read
    shortly before it would expire again; the second one has expired. -/
def reloading : List (Step String Nat String) := [
  .set "a" (some 1), .set "b" (some 5), .advance (.int 10), .get "a",
  .load "a" (.int 2) (.ok (some 2)), .advance (.int 9)]

theorem refines_history_reloading :
    let history := (run reloading ⟨empty (.int 10), .int 0⟩).1
    Ascending (.int 0) history ∧ Live (.int 10) "a" history (.int 21) 2 ∧
      ∀ value, ¬ Live (.int 10) "b" history (.int 21) value := by
  have h : Ascending (.int 0) (run reloading ⟨empty (.int 10), .int 0⟩).1 := by
    unfold Ascending
    decide +kernel
  refine ⟨h, ?_, ?_⟩
  · exact ((refines_history (.int 10) (.int 0) reloading "a" h).1 2).1 (by decide +kernel)
  · intro value hlive
    have hread := ((refines_history (.int 10) (.int 0) reloading "b" h).1 value).2 hlive
    exact absurd (hread.symm.trans (by decide +kernel)) (Option.some_ne_none value)

end Parley.Cache
