import Parley.Number
import Parley.Ordered
set_option autoImplicit false

/-! # Caches whose entries expire

A cache holds each value for a fixed time after it was stored. An entry that has expired is dropped
when its key is read, and only then, so the cache can hold entries that no read returns. What is
stored under a key may also be the absence of a value, which takes up an entry and reads like none.

The clock is given to every operation that depends on it. A loader takes time, so `Cache.getOrLoad`
reads the clock twice: when the key is read, and when the value that was loaded is stored.
`Cache.step` runs one operation of a history and says what it returned. -/

namespace Parley

/-- What is stored under a key. -/
structure Cache.Entry (υ : Type) where
  value : Option υ
  /-- The time from which on the entry is no longer read. -/
  expires : Number

/-- Values by key, each kept for the same time. -/
structure Cache (κ υ : Type) where
  /-- How long a value is kept. -/
  ttl : Number
  entries : Ordered κ (Cache.Entry υ)

namespace Cache

variable {κ υ ε : Type} [DecidableEq κ]

/-- A cache that holds nothing. -/
def empty (ttl : Number) : Cache κ υ := ⟨ttl, []⟩

/-- The number of entries, expired ones among them. -/
def size (cache : Cache κ υ) : Nat :=
  cache.entries.length

/-- Drop the entry of a key. -/
def invalidate (key : κ) (cache : Cache κ υ) : Cache κ υ :=
  { cache with entries := Ordered.erase key cache.entries }

/-- Drop every entry. -/
def clear (cache : Cache κ υ) : Cache κ υ :=
  { cache with entries := [] }

/-- Read a key. An expired entry is dropped and reads as nothing. -/
def get (key : κ) (now : Number) (cache : Cache κ υ) : Option υ × Cache κ υ :=
  match Ordered.find? key cache.entries with
  | none => (none, cache)
  | some entry =>
      if entry.expires.le now then (none, cache.invalidate key) else (entry.value, cache)

/-- Store under a key what is read from it until the time to keep it has passed. -/
def set (key : κ) (value : Option υ) (now : Number) (cache : Cache κ υ) : Cache κ υ :=
  { cache with entries := Ordered.insert key ⟨value, now.add cache.ttl⟩ cache.entries }

/-- Store what a loader returned, if it returned a value. -/
def store (key : κ) (loaded : Option υ) (now : Number) (cache : Cache κ υ) : Cache κ υ :=
  match loaded with
  | some value => cache.set key (some value) now
  | none => cache

/-! ## Loading -/

/-- A cache and its clock. -/
structure Clocked (κ υ : Type) where
  cache : Cache κ υ
  now : Number

/-- What comes of reading a key that is loaded on a miss. -/
inductive Loading (υ ε : Type)
  /-- The key read as a value, and no loader was awaited. -/
  | hit (value : υ)
  /-- A loader was awaited. -/
  | missed (outcome : Except ε (Option υ))

/-- Read a key, and on a miss await a loader that takes some time. The clock is read again when the
    loader is done, and what it returned is kept from that time on. -/
def getOrLoad (key : κ) (takes : Number) (outcome : Except ε (Option υ)) (c : Clocked κ υ) :
    Loading υ ε × Clocked κ υ :=
  match c.cache.get key c.now with
  | (some value, cache) => (.hit value, { c with cache })
  | (none, cache) =>
      let now := c.now.add takes
      match outcome with
      | .error cause => (.missed (.error cause), ⟨cache, now⟩)
      | .ok loaded => (.missed (.ok loaded), ⟨cache.store key loaded now, now⟩)

/-! ## Histories -/

/-- One operation on a cache, or the passing of time. -/
inductive Step (κ υ ε : Type)
  | advance (amount : Number)
  | set (key : κ) (value : Option υ)
  | get (key : κ)
  | invalidate (key : κ)
  | clear
  /-- Read a key, and on a miss run a loader that takes some time. -/
  | load (key : κ) (takes : Number) (outcome : Except ε (Option υ))

/-- What a step returned. -/
inductive Answer (υ ε : Type)
  | done
  | read (value : Option υ)
  | loaded (value : Option υ)
  | loadFailed (cause : ε)

/-- The answer of a step that loads. -/
def Loading.answer : Loading υ ε → Answer υ ε
  | .hit value => .read (some value)
  | .missed (.ok loaded) => .loaded loaded
  | .missed (.error cause) => .loadFailed cause

/-- Run one step. -/
def step : Step κ υ ε → Clocked κ υ → Answer υ ε × Clocked κ υ
  | .advance amount, c => (.done, { c with now := c.now.add amount })
  | .set key value, c => (.done, { c with cache := c.cache.set key value c.now })
  | .get key, c =>
      let (value, cache) := c.cache.get key c.now
      (.read value, { c with cache })
  | .invalidate key, c => (.done, { c with cache := c.cache.invalidate key })
  | .clear, c => (.done, { c with cache := c.cache.clear })
  | .load key takes outcome, c =>
      let (loading, c) := getOrLoad key takes outcome c
      (loading.answer, c)

end Cache

end Parley
