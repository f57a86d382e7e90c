import Parley.Proofs.Model.Resolver
set_option autoImplicit false

/-! # What a server is asked, and what is read from its reply

The slashes at the end of an endpoint and the version before them do not count, so all endpoints of
a server lead to one address (`serverAddress_eq`). Of the fields of some model information, the first
one that states a length as an integer gives the window, and fields that state it in another way are
passed over (`windowIn_ofInfo`).

After a reply without model information nothing is kept under the key of the lookup, and lookups
under other keys leave it so (`Unkept`): the next lookup of the pair asks the server again. Lookups
of another pair need not be lookups under another key: when a pair with the same key is looked up in
between and its server does reply, the first pair is not asked for again
(`askAll_between_failed`). -/

namespace Parley.Model

/-! ## The address -/

/-- A number of slashes. -/
def slashes (n : Nat) : String :=
  String.ofList (List.replicate n '/')

/-- A text ends with one character only. -/
theorem not_suffix_append_singleton {c d : Char} (h : c ≠ d) (front ending : List Char) :
    ¬ ending ++ [d] <:+ front ++ [c] := by
  rintro ⟨before, hbefore⟩
  rw [← List.append_assoc] at hbefore
  obtain ⟨-, hlast⟩ := List.append_inj' hbefore rfl
  exact h (List.cons.inj hlast).1.symm

theorem withoutSlashes_append {text : List Char} (h : ¬ ['/'] <:+ text) (n : Nat) :
    withoutSlashes (text ++ (slashes n).toList) = text := by
  have hslashes : ∀ c ∈ (slashes n).toList.reverse, (c == '/') = true := by
    simp [slashes]
  have hstop : text.reverse.dropWhile (fun c => c == '/') = text.reverse := by
    cases hreverse : text.reverse with
    | nil => rfl
    | cons c rest =>
        have hc : (c == '/') = false := by
          rw [beq_eq_false_iff_ne]
          rintro rfl
          exact h ⟨rest.reverse, (List.reverse_eq_cons_iff.1 hreverse).symm⟩
        rw [List.dropWhile_cons, hc]
        rfl
  unfold withoutSlashes
  rw [List.reverse_append, List.dropWhile_append_of_pos hslashes, hstop, List.reverse_reverse]

/-- All endpoints of a server lead to it. -/
theorem serverAddress_eq {server endpoint : String} {n : Nat} (hbreak : '\n' ∉ server.toList)
    (hslash : ¬ "/".toList <:+ server.toList) (hversion : ¬ "/v1".toList <:+ server.toList)
    (h : endpoint = server ++ slashes n ∨ endpoint = server ++ "/v1" ++ slashes n) :
    serverAddress endpoint = server := by
  have hsplit : ¬ ['\n'] <:+ server.toList := fun hsuffix => hbreak (hsuffix.subset (by simp))
  have hlong : ¬ "/v1/".toList <:+ server.toList :=
    fun hsuffix => hslash (List.IsSuffix.trans ⟨"/v1".toList, rfl⟩ hsuffix)
  rw [← String.toList_inj]
  unfold serverAddress
  rcases h with rfl | rfl
  · rw [String.toList_append, withoutSlashes_append hslash, splitFinalBreak_eq_self hsplit]
    dsimp only
    rw [Text.beforeSuffix?_eq_none hlong, Text.beforeSuffix?_eq_none hversion]
    simp
  · have hbody : server.toList ++ "/v1".toList = (server.toList ++ "/v".toList) ++ ['1'] := by
      rw [List.append_assoc]
      rfl
    have hends : ∀ (d : Char) (ending : List Char), d ≠ '1' →
        ¬ ending ++ [d] <:+ server.toList ++ "/v1".toList := by
      intro d ending hd
      rw [hbody]
      exact not_suffix_append_singleton hd.symm _ ending
    rw [String.toList_append, String.toList_append,
      withoutSlashes_append (hends '/' [] (by decide)),
      splitFinalBreak_eq_self (hends '\n' [] (by decide))]
    dsimp only
    have hnone : Text.beforeSuffix? "/v1/".toList (server.toList ++ "/v1".toList) = none :=
      Text.beforeSuffix?_eq_none (hends '/' "/v1".toList (by decide))
    rw [hnone, Text.beforeSuffix?_eq_some_iff.2 rfl]
    simp

/-! ## The window -/

/-- An integer, for which a truth value can stand as one or zero. -/
inductive Whole : Json → Int → Prop
  | int (n : Int) : Whole (.number (.int n)) n
  | true : Whole (.bool true) 1
  | false : Whole (.bool false) 0

theorem integer?_eq_some_iff {value : Json} {n : Int} : integer? value = some n ↔ Whole value n := by
  constructor
  · intro h
    unfold integer? at h
    split at h
    · cases h
      exact .int _
    · next flag =>
        cases h
        cases flag
        · exact .false
        · exact .true
    · cases h
  · rintro (_ | _ | _) <;> rfl

/-- A field states the length of a context as an integer. -/
def StatesLength (field : String × Json) (n : Int) : Prop :=
  ".context_length".toList <:+ field.1.toList ∧ Whole field.2 n

/-- The window that some model information gives: the first length that a field states as an
    integer, and 200000 if no field does. -/
def WindowIn (fields : List (String × Json)) (window : Int) : Prop :=
  (∃ before field after, fields = before ++ field :: after ∧ StatesLength field window ∧
    ∀ other ∈ before, ∀ n, ¬ StatesLength other n) ∨
  (∀ field ∈ fields, ∀ n, ¬ StatesLength field n) ∧ window = 200000

/-- A field states a length, or the search goes on behind it. -/
theorem contextLength?_cons (field : String × Json) (rest : List (String × Json)) :
    (∃ n, StatesLength field n ∧ contextLength? (field :: rest) = some n) ∨
      (∀ n, ¬ StatesLength field n) ∧ contextLength? (field :: rest) = contextLength? rest := by
  obtain ⟨name, value⟩ := field
  unfold StatesLength
  rw [contextLength?]
  cases hvalue : integer? value with
  | none =>
      refine .inr ⟨?_, rfl⟩
      rintro n ⟨-, hwhole⟩
      rw [integer?_eq_some_iff.2 hwhole] at hvalue
      cases hvalue
  | some n =>
      by_cases hname : Text.endsWith ".context_length" name = true
      · exact .inl ⟨n, ⟨Text.endsWith_iff.1 hname, integer?_eq_some_iff.1 hvalue⟩, if_pos hname⟩
      · exact .inr ⟨fun _ h => hname (Text.endsWith_iff.2 h.1), if_neg hname⟩

theorem windowIn_cons {field : String × Json} {rest : List (String × Json)}
    (h : ∀ n, ¬ StatesLength field n) {window : Int} (hrest : WindowIn rest window) :
    WindowIn (field :: rest) window := by
  rcases hrest with ⟨before, found, after, rfl, hfound, hbefore⟩ | ⟨hnone, hwindow⟩
  · exact .inl ⟨field :: before, found, after, rfl, hfound, List.forall_mem_cons.2 ⟨h, hbefore⟩⟩
  · exact .inr ⟨List.forall_mem_cons.2 ⟨h, hnone⟩, hwindow⟩

theorem windowIn_contextLength? (fields : List (String × Json)) :
    WindowIn fields ((contextLength? fields).getD defaultContextWindow) := by
  induction fields with
  | nil => exact .inr ⟨by simp, rfl⟩
  | cons field rest ih =>
      rcases contextLength?_cons field rest with ⟨n, hstates, heq⟩ | ⟨hnone, heq⟩
      · rw [heq]
        exact .inl ⟨[], field, rest, rfl, hstates, by simp⟩
      · rw [heq]
        exact windowIn_cons hnone ih

theorem windowIn_ofInfo (name : String) (fields : List (String × Json)) :
    WindowIn fields (ofInfo name fields).contextWindow :=
  windowIn_contextLength? fields

/-! ## Keys under which nothing is kept -/

/-- Nothing is read under a key, at any time. -/
def Unkept (key : String) (d : Directory) : Prop :=
  ∀ now, (d.known.get key now).1 = none

/-- A lookup reads and writes under its own key only. -/
theorem get_known_lookup_of_ne {key model endpoint : String} (h : lookupKey model endpoint ≠ key)
    (d : Directory) (now : Number) :
    ((lookup model endpoint d).2.known.get key now).1 = (d.known.get key now).1 := by
  rw [Cache.get_fst, Cache.get_fst]
  congr 1
  cases hget : (d.known.get (lookupKey model endpoint) d.now).1 with
  | some found =>
      rw [lookup_of_hit hget]
      unfold Cache.fresh?
      rw [Cache.find?_get_of_ne h]
  | none =>
      rw [lookup_of_miss hget]
      unfold Cache.fresh?
      cases (ofReply model d.network.next.reply).toOption.bind id with
      | none => simp only [Cache.store, Cache.find?_get_of_ne h]
      | some found =>
          simp only [Cache.store, Cache.set, Ordered.find?_insert, if_neg h,
            Cache.find?_get_of_ne h]

theorem Unkept.askAll {key : String} {d : Directory} (h : Unkept key d) {queries : List Query}
    (hother : ∀ query ∈ queries, lookupKey query.model query.endpoint ≠ key) :
    Unkept key (askAll queries d).2 := by
  induction queries generalizing d with
  | nil => exact h
  | cons query rest ih =>
      obtain ⟨hquery, hrest⟩ := List.forall_mem_cons.1 hother
      rw [askAll_cons]
      refine ih ?_ hrest
      intro now
      exact (get_known_lookup_of_ne hquery (d.later query.advance) now).trans (h now)

/-- A lookup that gets no model from the server leaves nothing under its key. -/
theorem unkept_lookup {model endpoint : String} {d : Directory}
    (hmiss : (d.known.get (lookupKey model endpoint) d.now).1 = none)
    (h : (lookup model endpoint d).1 = .ok none) :
    Unkept (lookupKey model endpoint) (lookup model endpoint d).2 := by
  intro now
  rw [lookup_of_miss hmiss] at h ⊢
  dsimp only at h ⊢
  rw [h]
  exact Cache.get_get_fst_of_miss hmiss now

/-- Where nothing is kept, the server is asked. -/
theorem sent_lookup_of_miss {model endpoint : String} {d : Directory}
    (hmiss : (d.known.get (lookupKey model endpoint) d.now).1 = none) :
    (lookup model endpoint d).2.network.sent = d.network.sent ++ [request model endpoint] := by
  rw [sent_lookup]
  unfold fetch?
  rw [hmiss]
  rfl

/-! ## One lookup and the next one -/

/-- **What a lookup asks and reads.** Take a server without a line break in its address, and without
    a slash or a version at the end of it. A lookup at any of its endpoints that finds nothing kept
    posts one request, for the model and to the server. If the reply states model information in an
    object, what is returned has the window that the information gives. If it states none, nothing is
    returned, and the next lookup of the pair posts the request again, whenever that may be, if no
    lookup in between was one under the same key. -/
theorem lookup_asks_server (server endpoint model : String) (n : Nat) (d : Directory)
    (hbreak : '\n' ∉ server.toList) (hslash : ¬ "/".toList <:+ server.toList)
    (hversion : ¬ "/v1".toList <:+ server.toList)
    (hendpoint : endpoint = server ++ slashes n ∨ endpoint = server ++ "/v1" ++ slashes n)
    (hmiss : (d.known.get (lookupKey model endpoint) d.now).1 = none) :
    let asked : Http.Request := ⟨server ++ "/api/show", .object [("name", .string model)]⟩
    let reply := (d.network.post asked).1
    let next := lookup model endpoint d
    next.2.network = (d.network.post asked).2 ∧ next.2.network.sent = d.network.sent ++ [asked] ∧
    (∀ fields, States reply (.object fields) →
      ∃ found, next.1 = .ok (some found) ∧ WindowIn fields found.contextWindow) ∧
    (Unusable reply → next.1 = .ok none ∧ ∀ (between : List Query) (amount : Number),
      (∀ query ∈ between, lookupKey query.model query.endpoint ≠ lookupKey model endpoint) →
      let later := (askAll between next.2).2.later amount
      (lookup model endpoint later).2.network.sent = later.network.sent ++ [asked]) := by
  intro asked reply next
  have hasked : request model endpoint = asked := by
    rw [request, serverAddress_eq hbreak hslash hversion hendpoint]
  have hnext : next = _ := lookup_of_miss hmiss
  rw [hasked] at hnext
  refine ⟨by rw [hnext], hasked ▸ sent_lookup_of_miss hmiss, ?_, ?_⟩
  · intro fields hstates
    refine ⟨ofInfo model fields, ?_, windowIn_ofInfo model fields⟩
    rw [hnext]
    exact ofReply_of_states model hstates
  · intro hunusable
    have hnone : next.1 = .ok none := by
      rw [hnext]
      exact ofReply_of_unusable model hunusable
    refine ⟨hnone, ?_⟩
    intro between amount hbetween
    have hunkept := (unkept_lookup hmiss hnone).askAll hbetween
    exact hasked ▸ sent_lookup_of_miss (hunkept _)

/-- A directory whose server first fails, and then replies as it should. -/
def failingOnce : Directory :=
  ⟨.empty (.int 3600), .int 0, .ofReplies [.answer 500 "", described]⟩

/-- After a failure, another model is looked up, and a minute later the server is asked again. -/
theorem lookup_asks_server_failingOnce :
    let asked : Http.Request := ⟨"http://h" ++ "/api/show", .object [("name", .string "m")]⟩
    let first := lookup "m" "http://h/v1//" failingOnce
    let later := (askAll [⟨.int 0, "n", "http://h"⟩] first.2).2.later (.int 60)
    first.1 = .ok none ∧ first.2.network.sent = [asked] ∧
      (lookup "m" "http://h/v1//" later).2.network.sent = later.network.sent ++ [asked] := by
  have hother : ∀ query ∈ [(⟨.int 0, "n", "http://h"⟩ : Query)],
      lookupKey query.model query.endpoint ≠ lookupKey "m" "http://h/v1//" := by
    decide +kernel
  have hlookup := lookup_asks_server "http://h" "http://h/v1//" "m" 2 failingOnce
    (by decide +kernel) (by decide +kernel) (by decide +kernel) (.inr (by decide +kernel)) rfl
  -- the texts are left as they are: nothing is to be computed here
  dsimp only at hlookup ⊢
  obtain ⟨-, hsent, -, hfailed⟩ := hlookup
  obtain ⟨hnone, hagain⟩ := hfailed (by decide +kernel)
  exact ⟨hnone, hsent, hagain _ (.int 60) hother⟩

/-- A pair whose server fails, a pair with the same key, and the first pair again. -/
def askedBetween : List Query := [
  ⟨.int 0, "m", "http://h/x::y"⟩, ⟨.int 0, "y::m", "http://h/x"⟩, ⟨.int 0, "m", "http://h/x::y"⟩]

/-- After a failure, the server is not asked again for the pair: the reply about the other pair
    stands under its key. -/
theorem askAll_between_failed :
    (askAll askedBetween failingOnce).1.map Asked.returned
        = [.ok none, .ok (some ⟨"y::m", .string "a", 4096⟩),
          .ok (some ⟨"y::m", .string "a", 4096⟩)] ∧
      (askAll askedBetween failingOnce).2.network.sent
        = [request "m" "http://h/x::y", request "y::m" "http://h/x"] := by
  decide +kernel

end Parley.Model
