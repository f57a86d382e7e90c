import Parley.Model.Lookup
import Parley.Proofs.Cache
import Mathlib.Data.List.Infix
set_option autoImplicit false

/-! # Whose reply a lookup returns

A reply is kept under its endpoint and its model, joined by two colons. The invariant of a run of
lookups (`Supported`) is that every entry that is kept comes from a request that was made, and was
made for a pair with the key of the entry. So a lookup returns what a server said in reply to a
request for *a pair with the same key*, made in this lookup or before, and then the reply came so
recently that it had not expired. A request takes time, and the time to keep its reply counts from
its end.

Joining does not keep all pairs apart: a model name may begin where the endpoint of another pair
ends (`found_of_other_pair`). It does for endpoints in which no two colons stand side by side once
a colon is put at the end (`Plain`), and then the request was made for the very pair asked for. -/

namespace Parley.Model

/-! ## The key -/

/-- No two colons stand side by side in an endpoint, and none stands at its end. -/
def Plain (endpoint : String) : Prop :=
  ¬ [':', ':'] <:+: endpoint.toList ++ [':']

instance (endpoint : String) : Decidable (Plain endpoint) :=
  inferInstanceAs (Decidable (¬ _))

/-- A plain endpoint does not reach into the separator after a shorter one. -/
theorem eq_of_plain_of_append {endpoint endpoint' model model' : String} {rest : List Char}
    (h : Plain endpoint') (hend : endpoint'.toList = endpoint.toList ++ rest)
    (hsplit : ':' :: ':' :: model.toList = rest ++ ':' :: ':' :: model'.toList) :
    model = model' ∧ endpoint = endpoint' := by
  unfold Plain at h
  rw [hend] at h
  rcases rest with _ | ⟨c, _ | ⟨d, tail⟩⟩
  · rw [List.append_nil, String.toList_inj] at hend
    simp only [List.nil_append, List.cons.injEq, true_and, String.toList_inj] at hsplit
    exact ⟨hsplit, hend.symm⟩
  -- a single character, or the first two, would be colons next to the one put at the end or to
  -- each other
  · obtain ⟨rfl, -⟩ := List.cons.inj hsplit
    exact absurd ⟨endpoint.toList, [], by simp⟩ h
  · obtain ⟨rfl, htail⟩ := List.cons.inj hsplit
    obtain ⟨rfl, -⟩ := List.cons.inj htail
    exact absurd ⟨endpoint.toList, tail ++ [':'], by simp⟩ h

/-- The key of a pair with a plain endpoint belongs to no other such pair, whatever the models are
    called. -/
theorem lookupKey_inj {endpoint endpoint' model model' : String} (h : Plain endpoint)
    (h' : Plain endpoint') (hkey : lookupKey model endpoint = lookupKey model' endpoint') :
    model = model' ∧ endpoint = endpoint' := by
  have hlist := congrArg String.toList hkey
  simp only [lookupKey, String.toList_append, List.append_assoc] at hlist
  rcases List.append_eq_append_iff.1 hlist with ⟨rest, hend, hsplit⟩ | ⟨rest, hend, hsplit⟩
  · exact eq_of_plain_of_append h' hend hsplit
  · exact (eq_of_plain_of_append h hend hsplit).imp Eq.symm Eq.symm

/-! ## Runs of lookups -/

/-- A model that is looked up at an endpoint, after some time has passed. -/
structure Query where
  advance : Number
  model : String
  endpoint : String

/-- A request for what a server knows about a model, the time when it was made, its reply and the
    time that the reply took. -/
structure Fetch extends Http.Arrival where
  model : String
  endpoint : String
  time : Number

/-- The time when the reply was there, from which on it is kept. -/
def Fetch.arrived (fetch : Fetch) : Number :=
  fetch.time.add fetch.takes

/-- A query that was answered. -/
structure Asked where
  query : Query
  /-- The time when the cache was read for it. -/
  time : Number
  /-- The request that was made for it, if one was made. -/
  fetch? : Option Fetch
  returned : Except Fault (Option Model)

/-- The request that a lookup makes, if it makes one. -/
def fetch? (model endpoint : String) (d : Directory) : Option Fetch :=
  match (d.known.get (lookupKey model endpoint) d.now).1 with
  | some _ => none
  | none => some ⟨d.network.next, model, endpoint, d.now⟩

/-- The directory after some time. -/
def Directory.later (amount : Number) (d : Directory) : Directory :=
  { d with now := d.now.add amount }

/-- Answer one query. -/
def ask (query : Query) (d : Directory) : Asked × Directory :=
  let d := d.later query.advance
  let (returned, next) := lookup query.model query.endpoint d
  (⟨query, d.now, fetch? query.model query.endpoint d, returned⟩, next)

/-- Answer queries one after another. -/
def askAll : List Query → Directory → List Asked × Directory
  | [], d => ([], d)
  | query :: rest, d =>
      let (asked, next) := ask query d
      let (history, last) := askAll rest next
      (asked :: history, last)

/-! ## One lookup -/

theorem lookup_of_hit {model endpoint : String} {d : Directory} {found : Model}
    (h : (d.known.get (lookupKey model endpoint) d.now).1 = some found) :
    lookup model endpoint d
      = (.ok (some found),
        { d with known := (d.known.get (lookupKey model endpoint) d.now).2 }) := by
  unfold lookup
  dsimp only
  rw [Cache.getOrLoad_of_hit h]

theorem lookup_of_miss {model endpoint : String} {d : Directory}
    (h : (d.known.get (lookupKey model endpoint) d.now).1 = none) :
    lookup model endpoint d
      = (ofReply model d.network.next.reply,
        { known := (d.known.get (lookupKey model endpoint) d.now).2.store
            (lookupKey model endpoint) ((ofReply model d.network.next.reply).toOption.bind id)
            (d.now.add d.network.next.takes)
          now := d.now.add d.network.next.takes
          network := (d.network.post (request model endpoint)).2 }) := by
  unfold lookup
  dsimp only
  rw [Cache.getOrLoad_of_miss h]
  rfl

/-- A lookup posts the request that it makes, and no other. -/
theorem sent_lookup (model endpoint : String) (d : Directory) :
    (lookup model endpoint d).2.network.sent
      = d.network.sent ++ (fetch? model endpoint d).toList.map
          fun fetch => request fetch.model fetch.endpoint := by
  unfold fetch?
  cases hget : (d.known.get (lookupKey model endpoint) d.now).1 with
  | some found => simp [lookup_of_hit hget]
  | none =>
      rw [lookup_of_miss hget]
      rfl

theorem arrivals_lookup_subset (model endpoint : String) (d : Directory) :
    (lookup model endpoint d).2.network.arrivals ⊆ d.network.arrivals := by
  cases hget : (d.known.get (lookupKey model endpoint) d.now).1 with
  | some found => simp [lookup_of_hit hget]
  | none =>
      rw [lookup_of_miss hget]
      exact List.tail_subset d.network.arrivals

/-- A request that is made is one for the model and the endpoint looked up, and what describes a
    model in reply to it is one of the replies that were to come. -/
theorem eq_of_fetch? {model endpoint : String} {d : Directory} {fetch : Fetch}
    (h : fetch? model endpoint d = some fetch) :
    fetch.model = model ∧ fetch.endpoint = endpoint ∧
      ∀ found, ofReply model fetch.reply = .ok (some found) →
        fetch.toArrival ∈ d.network.arrivals := by
  unfold fetch? at h
  split at h
  · cases h
  · cases h
    refine ⟨rfl, rfl, ?_⟩
    intro found hfound
    unfold Http.Network.next at hfound ⊢
    cases harrivals : d.network.arrivals with
    | nil => simp [harrivals, ofReply] at hfound
    | cons arrival rest => simp

/-- The model that a reply describes has the name that was asked for. -/
theorem name_of_ofReply {name : String} {reply : Http.Reply} {found : Model}
    (h : ofReply name reply = .ok (some found)) : found.name = name := by
  unfold ofReply at h
  split at h
  · split at h
    · split at h
      · next document hdocument =>
          unfold ofDocument at h
          dsimp only at h
          split at h
          · split at h
            · cases h
              rfl
            · cases h
          · cases h
      · cases h
    · cases h
  · cases h
  · cases h

/-! ## Where the replies that are kept come from -/

/-- An entry under a key comes from one of some requests: it was made for a pair with this key, its
    reply described the model that is kept, and the entry expires when the time to keep the reply has
    passed since it came. -/
def ComesFrom (ttl : Number) (fetches : List Fetch) (key : String) (entry : Cache.Entry Model) :
    Prop :=
  ∃ fetch ∈ fetches, lookupKey fetch.model fetch.endpoint = key ∧
    ∃ found, ofReply fetch.model fetch.reply = .ok (some found) ∧
      entry = ⟨some found, fetch.arrived.add ttl⟩

/-- Every entry that is kept comes from one of some requests. -/
structure Supported (ttl : Number) (fetches : List Fetch) (d : Directory) : Prop where
  ttl_eq : d.known.ttl = ttl
  entry : ∀ key entry, Ordered.find? key d.known.entries = some entry →
    ComesFrom ttl fetches key entry

theorem Supported.lookup {ttl : Number} {fetches : List Fetch} {d : Directory}
    (supported : Supported ttl fetches d) (model endpoint : String) :
    Supported ttl (fetches ++ (fetch? model endpoint d).toList) (lookup model endpoint d).2 := by
  -- reading drops entries at most, so what is found after it was there before
  have kept : ∀ key entry,
      Ordered.find? key (d.known.get (lookupKey model endpoint) d.now).2.entries = some entry →
      ComesFrom ttl (fetches ++ (fetch? model endpoint d).toList) key entry := by
    intro key entry hfind
    obtain ⟨fetch, hmem, hfetch⟩ := supported.entry key entry (Cache.find?_of_find?_get hfind)
    exact ⟨fetch, List.mem_append_left _ hmem, hfetch⟩
  cases hget : (d.known.get (lookupKey model endpoint) d.now).1 with
  | some found =>
      rw [lookup_of_hit hget]
      exact ⟨(Cache.ttl_get ..).trans supported.ttl_eq, kept⟩
  | none =>
      rw [lookup_of_miss hget]
      refine ⟨by simpa using supported.ttl_eq, ?_⟩
      intro key entry hfind
      cases hreply : ofReply model d.network.next.reply with
      | error fault =>
          rw [hreply] at hfind
          exact kept key entry hfind
      | ok said =>
          cases said with
          | none =>
              rw [hreply] at hfind
              exact kept key entry hfind
          | some found =>
              simp only [hreply, Except.toOption, Option.bind_some, id_eq, Cache.store, Cache.set,
                Ordered.find?_insert, Cache.ttl_get] at hfind
              split at hfind
              · next hkey =>
                  rw [Option.some.injEq, supported.ttl_eq] at hfind
                  refine ⟨⟨d.network.next, model, endpoint, d.now⟩, ?_, hkey, found, hreply,
                    hfind.symm⟩
                  simp [fetch?, hget]
              · exact kept key entry hfind

/-- What a lookup returns was said in reply to a request for a pair with the key asked for. The
    request was made in this lookup, or before, and then the reply that came had not expired. -/
theorem Supported.found {ttl : Number} {fetches : List Fetch} {d : Directory}
    (supported : Supported ttl fetches d) {model endpoint : String} {found : Model}
    (h : (Model.lookup model endpoint d).1 = .ok (some found)) :
    ∃ fetch, lookupKey fetch.model fetch.endpoint = lookupKey model endpoint ∧
      ofReply fetch.model fetch.reply = .ok (some found) ∧
      (fetch? model endpoint d = some fetch ∨
        fetch ∈ fetches ∧ (fetch.arrived.add ttl).le d.now = false) := by
  cases hget : (d.known.get (lookupKey model endpoint) d.now).1 with
  | some kept =>
      rw [lookup_of_hit hget] at h
      cases h
      obtain ⟨entry, hfind, hvalue, hlive⟩ := Cache.exists_entry_of_get_fst hget
      obtain ⟨fetch, hmem, hkey, said, hreply, rfl⟩ := supported.entry _ entry hfind
      cases hvalue
      exact ⟨fetch, hkey, hreply, .inr ⟨hmem, hlive⟩⟩
  | none =>
      rw [lookup_of_miss hget] at h
      exact ⟨⟨d.network.next, model, endpoint, d.now⟩, rfl, h, .inl (by simp [fetch?, hget])⟩

/-! ## Whole runs -/

theorem askAll_cons (query : Query) (rest : List Query) (d : Directory) :
    askAll (query :: rest) d
      = ((ask query d).1 :: (askAll rest (ask query d).2).1, (askAll rest (ask query d).2).2) :=
  rfl

theorem Supported.later {ttl : Number} {fetches : List Fetch} {d : Directory}
    (supported : Supported ttl fetches d) (amount : Number) :
    Supported ttl fetches (d.later amount) :=
  ⟨supported.ttl_eq, supported.entry⟩

theorem filterMap_fetch?_cons (asked : Asked) (history : List Asked) :
    (asked :: history).filterMap Asked.fetch?
      = asked.fetch?.toList ++ history.filterMap Asked.fetch? := by
  rw [List.filterMap_cons]
  cases asked.fetch? <;> rfl

/-- What an answered query returned was said in reply to a request for a pair with its key, made for
    the query itself or before, and then not expired. -/
def Asked.Backed (ttl : Number) (earlier : List Fetch) (asked : Asked) : Prop :=
  ∀ found, asked.returned = .ok (some found) →
    ∃ fetch, lookupKey fetch.model fetch.endpoint
        = lookupKey asked.query.model asked.query.endpoint ∧
      ofReply fetch.model fetch.reply = .ok (some found) ∧
      (asked.fetch? = some fetch ∨
        fetch ∈ earlier ∧ (fetch.arrived.add ttl).le asked.time = false)

theorem Supported.backed {ttl : Number} {past : List Fetch} {d : Directory}
    (supported : Supported ttl past d) {queries : List Query} {before after : List Asked}
    {asked : Asked} (h : (askAll queries d).1 = before ++ asked :: after) :
    asked.Backed ttl (past ++ before.filterMap Asked.fetch?) := by
  induction queries generalizing past d before with
  | nil => simp [askAll] at h
  | cons query rest ih =>
      rw [askAll_cons] at h
      cases before with
      | nil =>
          obtain ⟨rfl, -⟩ := List.cons.inj h
          rw [List.filterMap_nil, List.append_nil]
          intro found hfound
          exact (supported.later query.advance).found hfound
      | cons first before =>
          obtain ⟨rfl, hrest⟩ := List.cons.inj h
          have next := (supported.later query.advance).lookup query.model query.endpoint
          have hbacked := ih next hrest
          rw [List.append_assoc] at hbacked
          rwa [filterMap_fetch?_cons]

theorem supported_empty (ttl start : Number) (network : Http.Network) :
    Supported ttl [] ⟨.empty ttl, start, network⟩ :=
  ⟨rfl, fun _ _ h => by cases h⟩

/-- Every request of a run was made for the query that it belongs to, and what describes a model in
    reply to it is one of the replies that were to come. -/
theorem fetch_of_mem_askAll {queries : List Query} {d : Directory} {asked : Asked}
    (h : asked ∈ (askAll queries d).1) :
    asked.query ∈ queries ∧ ∀ fetch, asked.fetch? = some fetch →
      fetch.model = asked.query.model ∧ fetch.endpoint = asked.query.endpoint ∧
        ∀ found, ofReply asked.query.model fetch.reply = .ok (some found) →
          fetch.toArrival ∈ d.network.arrivals := by
  induction queries generalizing d with
  | nil => cases h
  | cons query rest ih =>
      rw [askAll_cons] at h
      rcases List.mem_cons.1 h with rfl | hrest
      · exact ⟨List.mem_cons_self, fun fetch hfetch =>
          eq_of_fetch? (d := d.later query.advance) hfetch⟩
      · obtain ⟨hquery, hfetch⟩ := ih hrest
        refine ⟨List.mem_cons_of_mem query hquery, ?_⟩
        intro fetch hsome
        obtain ⟨hmodel, hendpoint, harrival⟩ := hfetch fetch hsome
        refine ⟨hmodel, hendpoint, ?_⟩
        intro found hfound
        exact arrivals_lookup_subset query.model query.endpoint (d.later query.advance)
          (harrival found hfound)

/-- The requests that were made are those of the fetches, in their order. -/
theorem sent_askAll (queries : List Query) (d : Directory) :
    (askAll queries d).2.network.sent
      = d.network.sent ++ ((askAll queries d).1.filterMap Asked.fetch?).map
          fun fetch => request fetch.model fetch.endpoint := by
  induction queries generalizing d with
  | nil => simp [askAll]
  | cons query rest ih =>
      have hsent := sent_lookup query.model query.endpoint (d.later query.advance)
      rw [askAll_cons, filterMap_fetch?_cons, List.map_append, ← List.append_assoc]
      exact (ih (ask query d).2).trans (congrArg (· ++ _) hsent)

/-- **What is known about a model is what its server said.** In a run of lookups whose endpoints are
    plain, a lookup that returns a model returns the model asked for, as it was described in reply to
    a request that was made for this model at this endpoint. The request was made in this lookup, or
    by an earlier one whose reply came at a time from which the time to keep it has not passed. -/
theorem found_of_askAll (ttl start : Number) (arrivals : List Http.Arrival) (queries : List Query)
    (hplain : ∀ query ∈ queries, Plain query.endpoint) {before after : List Asked} {asked : Asked}
    (h : (askAll queries ⟨.empty ttl, start, .ofArrivals arrivals⟩).1 = before ++ asked :: after)
    {found : Model} (hfound : asked.returned = .ok (some found)) :
    found.name = asked.query.model ∧
    ∃ fetch, fetch.model = asked.query.model ∧ fetch.endpoint = asked.query.endpoint ∧
      request fetch.model fetch.endpoint
        ∈ (askAll queries ⟨.empty ttl, start, .ofArrivals arrivals⟩).2.network.sent ∧
      fetch.toArrival ∈ arrivals ∧ ofReply fetch.model fetch.reply = .ok (some found) ∧
      (asked.fetch? = some fetch ∨
        (∃ earlier ∈ before, earlier.fetch? = some fetch) ∧
          (fetch.arrived.add ttl).le asked.time = false) := by
  have hmem : ∀ other ∈ before ++ asked :: after, Plain other.query.endpoint ∧ _ :=
    fun other hother => (fetch_of_mem_askAll (h ▸ hother)).imp (hplain _) id
  obtain ⟨fetch, hkey, hreply, hmade⟩ :=
    (supported_empty ttl start (.ofArrivals arrivals)).backed h found hfound
  rw [List.nil_append] at hmade
  -- the lookup in which the request was made, be it this one or an earlier one
  obtain ⟨other, hother, hfetch⟩ :
      ∃ other ∈ before ++ asked :: after, other.fetch? = some fetch := by
    rcases hmade with hown | ⟨hearlier, -⟩
    · exact ⟨asked, by simp, hown⟩
    · obtain ⟨other, hother, hfetch⟩ := List.mem_filterMap.1 hearlier
      exact ⟨other, List.mem_append_left _ hother, hfetch⟩
  obtain ⟨hplain', hfetches⟩ := hmem other hother
  obtain ⟨hmodel, hendpoint, harrivals⟩ := hfetches fetch hfetch
  have hpair : fetch.model = asked.query.model ∧ fetch.endpoint = asked.query.endpoint :=
    lookupKey_inj (hendpoint ▸ hplain') (hmem asked (by simp)).1 hkey
  refine ⟨(name_of_ofReply hreply).trans hpair.1, fetch, hpair.1, hpair.2, ?_,
    harrivals found (hmodel ▸ hreply), hreply, ?_⟩
  · rw [sent_askAll, h]
    refine List.mem_append_right _ (List.mem_map.2 ⟨fetch, ?_, rfl⟩)
    exact List.mem_filterMap.2 ⟨other, hother, hfetch⟩
  · rcases hmade with hown | ⟨hearlier, hkept⟩
    · exact .inl hown
    · obtain ⟨earlier, hmemBefore, hsome⟩ := List.mem_filterMap.1 hearlier
      exact .inr ⟨⟨earlier, hmemBefore, hsome⟩, hkept⟩

/-- A reply that describes a model. -/
def described : Http.Reply := .answer 200
  "\x7b\"model_info\": \x7b\"general.architecture\": \"a\", \"a.context_length\": 4096\x7d\x7d"

/-- The directory of a network that knows one reply, which takes five seconds, and nothing after
    it. -/
def onceDescribed : Directory :=
  ⟨.empty (.int 3600), .int 0, .ofArrivals [⟨described, .int 5⟩]⟩

/-- A model that is looked up twice at one endpoint. When it is looked up again, the request was made
    an hour and four seconds ago, and its reply came a second less than an hour ago. -/
def askedAgain : List Query := [
  ⟨.int 0, "m", "http://h:11434/v1"⟩, ⟨.int 3599, "m", "http://h:11434/v1"⟩]

theorem found_of_askAll_again :
    ∃ first second, (askAll askedAgain onceDescribed).1 = [first, second] ∧
      second.returned = .ok (some ⟨"m", .string "a", 4096⟩) ∧
      ∃ fetch, first.fetch? = some fetch ∧ fetch.model = "m" ∧
        fetch.endpoint = "http://h:11434/v1" ∧
        (fetch.arrived.add (.int 3600)).le second.time = false := by
  have hlength : (askAll askedAgain onceDescribed).1.length = 2 := by decide +kernel
  have hreturned : (askAll askedAgain onceDescribed).1.map
      (fun asked => (asked.query.model, asked.query.endpoint, asked.fetch?.isSome, asked.returned))
      = [("m", "http://h:11434/v1", true, .ok (some ⟨"m", .string "a", 4096⟩)),
        ("m", "http://h:11434/v1", false, .ok (some ⟨"m", .string "a", 4096⟩))] := by
    decide +kernel
  obtain ⟨first, second, hasked⟩ := List.length_eq_two.1 hlength
  rw [hasked] at hreturned
  simp only [List.map_cons, List.map_nil, List.cons.injEq, Prod.mk.injEq, and_true] at hreturned
  obtain ⟨-, hmodel, hendpoint, hfetch, hsecond⟩ := hreturned
  have hplain : ∀ query ∈ askedAgain, Plain query.endpoint := by decide +kernel
  obtain ⟨-, fetch, hm, he, -, -, -, hmade⟩ :=
    found_of_askAll (.int 3600) (.int 0) [⟨described, .int 5⟩] askedAgain hplain
      (show _ = [first] ++ second :: [] from hasked) hsecond
  obtain ⟨⟨other, hother, hfetched⟩, hkept⟩ := hmade.resolve_left (by
    intro h
    simp [h] at hfetch)
  rw [List.mem_singleton.1 hother] at hfetched
  exact ⟨first, second, hasked, hsecond, fetch, hfetched, hm.trans hmodel, he.trans hendpoint,
    hkept⟩

/-- What stands before a separator in the name of a model can as well stand at the end of the
    endpoint. -/
theorem lookupKey_append (front model endpoint : String) :
    lookupKey (front ++ "::" ++ model) endpoint = lookupKey model (endpoint ++ "::" ++ front) := by
  simp [lookupKey, String.append_assoc]

/-- Two pairs with the same key. -/
def askedAlike : List Query := [
  ⟨.int 0, "y::m", "http://h/x"⟩, ⟨.int 0, "m", "http://h/x::y"⟩]

/-- A lookup returns what was said about another model by the server of another endpoint, and makes
    no request. -/
theorem found_of_other_pair :
    (askAll askedAlike onceDescribed).1.map Asked.returned
        = [.ok (some ⟨"y::m", .string "a", 4096⟩), .ok (some ⟨"y::m", .string "a", 4096⟩)] ∧
      (askAll askedAlike onceDescribed).2.network.sent = [request "y::m" "http://h/x"] := by
  decide +kernel

end Parley.Model
