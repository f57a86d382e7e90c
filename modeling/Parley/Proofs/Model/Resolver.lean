import Parley.Model.Resolver
import Parley.Proofs.Model.Lookup
set_option autoImplicit false

/-! # What becomes of an unusable reply

Of a reply that a server gives, only its model information is used: the value in the field
`model_info` of the document in the body of a success, if that value does not count as false
(`States`). Three things can be the case. The information is an object, and describes a model. There
is none, because the request failed, the status is not one of success, the body is no document or
the document holds nothing that counts: then the reply is unusable, nothing is kept of it, and what
is known about the model comes from the tables (`resolve_unusable`). Or the information is of
another type (`Garbled`), and the lookup ends in a fault. -/

namespace Parley.Model

/-! ## What a reply states -/

/-- The reply of a server states some model information. -/
def States (reply : Http.Reply) (info : Json) : Prop :=
  ∃ status body document, reply = .answer status body ∧ (200 ≤ status ∧ status < 300) ∧
    bodyDocument? body = some document ∧ document.field? "model_info" = some info ∧
    info.truthy = true

/-- A reply states information that is no object. -/
def Garbled (reply : Http.Reply) : Prop :=
  ∃ info, States reply info ∧ info.fields? = none

/-- A reply states no information. -/
def Unusable (reply : Http.Reply) : Prop :=
  ∀ info, ¬ States reply info

/-- What a document describes is decided by the information that it holds. -/
theorem ofDocument_eq (name : String) (document : Json) :
    ofDocument name document
      = match (document.field? "model_info").filter Json.truthy with
        | some info =>
            match info.fields? with
            | some fields => .ok (some (ofInfo name fields))
            | none => .error .notAnObject
        | none => .ok none := by
  unfold ofDocument
  dsimp only
  cases document.field? "model_info" with
  | none => rfl
  | some info =>
      rw [Option.getD_some, Option.filter_some]
      split <;> rfl

/-- The information that a reply states, if it states any. -/
def stated? : Http.Reply → Option Json
  | .answer status body =>
      if 200 ≤ status ∧ status < 300 then
        ((bodyDocument? body).bind fun document => document.field? "model_info").filter Json.truthy
      else none
  | _ => none

theorem stated?_eq_some_iff {reply : Http.Reply} {info : Json} :
    stated? reply = some info ↔ States reply info := by
  constructor
  · intro h
    unfold stated? at h
    split at h
    · next status body =>
        split at h
        · next hstatus =>
            obtain ⟨hinfo, htruthy⟩ := Option.filter_eq_some_iff.1 h
            obtain ⟨document, hdocument, hfield⟩ := Option.bind_eq_some_iff.1 hinfo
            exact ⟨status, body, document, rfl, hstatus, hdocument, hfield, htruthy⟩
        · cases h
    · cases h
  · rintro ⟨status, body, document, rfl, hstatus, hdocument, hfield, htruthy⟩
    show (if 200 ≤ status ∧ status < 300 then _ else none) = some info
    rw [if_pos hstatus, hdocument, Option.bind_some, hfield, Option.filter_some, if_pos htruthy]

theorem stated?_eq_none_iff {reply : Http.Reply} : stated? reply = none ↔ Unusable reply := by
  unfold Unusable
  simp only [Option.eq_none_iff_forall_ne_some, ne_eq, stated?_eq_some_iff]

instance (reply : Http.Reply) : Decidable (Unusable reply) :=
  decidable_of_iff _ stated?_eq_none_iff

instance (reply : Http.Reply) : Decidable (Garbled reply) :=
  decidable_of_iff ((stated? reply).any fun info => info.fields?.isNone) <| by
    unfold Garbled
    simp [Option.any_eq_true, stated?_eq_some_iff]

theorem States.unique {reply : Http.Reply} {info info' : Json} (h : States reply info)
    (h' : States reply info') : info = info' := by
  rw [← Option.some.injEq, ← stated?_eq_some_iff.2 h, stated?_eq_some_iff.2 h']

/-- What a reply describes is decided by the information that it states. -/
theorem ofReply_eq (name : String) (reply : Http.Reply) :
    ofReply name reply
      = match stated? reply with
        | some info =>
            match info.fields? with
            | some fields => .ok (some (ofInfo name fields))
            | none => .error .notAnObject
        | none => .ok none := by
  cases reply with
  | connectionFailed => rfl
  | timedOut => rfl
  | answer status body =>
      unfold ofReply stated?
      by_cases hstatus : 200 ≤ status ∧ status < 300
      · simp only [if_pos hstatus]
        cases bodyDocument? body with
        | none => rfl
        | some document => exact ofDocument_eq name document
      · simp only [if_neg hstatus]

theorem ofReply_of_states {reply : Http.Reply} {fields : List (String × Json)} (name : String)
    (h : States reply (.object fields)) : ofReply name reply = .ok (some (ofInfo name fields)) := by
  rw [ofReply_eq, stated?_eq_some_iff.2 h]
  rfl

theorem ofReply_of_garbled {reply : Http.Reply} (name : String) (h : Garbled reply) :
    ofReply name reply = .error .notAnObject := by
  obtain ⟨info, hstates, hfields⟩ := h
  rw [ofReply_eq, stated?_eq_some_iff.2 hstates]
  dsimp only
  rw [hfields]

theorem ofReply_of_unusable {reply : Http.Reply} (name : String) (h : Unusable reply) :
    ofReply name reply = .ok none := by
  rw [ofReply_eq, stated?_eq_none_iff.2 h]

/-- A reply states an object, states something else, or states nothing. -/
theorem states_or_garbled_or_unusable (reply : Http.Reply) :
    (∃ fields, States reply (.object fields)) ∨ Garbled reply ∨ Unusable reply := by
  by_cases hunusable : Unusable reply
  · exact .inr (.inr hunusable)
  · unfold Unusable at hunusable
    push Not at hunusable
    obtain ⟨info, hstates⟩ := hunusable
    cases info with
    | object fields => exact .inl ⟨fields, hstates⟩
    | _ => exact .inr (.inl ⟨_, hstates, rfl⟩)

/-! ## The request -/

/-- Whether a server is asked what is not kept: the provider has one, and there is an endpoint. -/
def consults (provider endpoint : Option String) : Bool :=
  isServed provider && !(endpoint.getD "").isEmpty

/-- The request that is made to find out about a model, if one is made. -/
def asked? (name : String) (provider endpoint : Option String) (d : Directory) : Option Fetch :=
  if consults provider endpoint then fetch? name (endpoint.getD "") d else none

theorem resolve_of_not_consults {name : String} {provider endpoint : Option String}
    (h : consults provider endpoint = false) (d : Directory) :
    resolve name provider endpoint d = (.ok (fromTables name provider), d) := by
  unfold resolve
  dsimp only
  rw [if_neg (by rw [show (isServed provider && _) = false from h]; exact Bool.false_ne_true)]

theorem resolve_of_consults {name : String} {provider endpoint : Option String}
    (h : consults provider endpoint = true) (d : Directory) :
    resolve name provider endpoint d
      = ((lookup name (endpoint.getD "") d).1.map fun found => found.getD (static name),
          (lookup name (endpoint.getD "") d).2) := by
  unfold resolve
  dsimp only
  rw [if_pos (show (isServed provider && _) = true from h)]
  rcases lookup name (endpoint.getD "") d with ⟨_ | _ | _, d⟩ <;> rfl

/-- A request is made when the provider is one with a server and nothing is kept, and its reply is
    the next one that comes. -/
theorem asked?_eq_some_iff {name : String} {provider endpoint : Option String} {d : Directory}
    {fetch : Fetch} :
    asked? name provider endpoint d = some fetch ↔
      consults provider endpoint = true ∧
      (d.known.get (lookupKey name (endpoint.getD "")) d.now).1 = none ∧
      fetch = ⟨d.network.next, name, endpoint.getD "", d.now⟩ := by
  unfold asked? fetch?
  by_cases hconsults : consults provider endpoint = true
  · rw [if_pos hconsults]
    cases (d.known.get (lookupKey name (endpoint.getD "")) d.now).1 with
    | some found => simp
    | none => simp [hconsults, eq_comm]
  · simp [hconsults]

/-- What a request leads to: the model that its reply describes is stored and returned, and the
    tables answer for a reply that describes none. -/
theorem resolve_of_asked {name : String} {provider endpoint : Option String} {d : Directory}
    {fetch : Fetch} (h : asked? name provider endpoint d = some fetch) :
    resolve name provider endpoint d
      = ((ofReply name fetch.reply).map fun found => found.getD (static name),
        { known := (d.known.get (lookupKey name (endpoint.getD "")) d.now).2.store
            (lookupKey name (endpoint.getD "")) ((ofReply name fetch.reply).toOption.bind id)
            fetch.arrived
          now := fetch.arrived
          network := (d.network.post (request name (endpoint.getD ""))).2 }) := by
  obtain ⟨hconsults, hmiss, rfl⟩ := asked?_eq_some_iff.1 h
  rw [resolve_of_consults hconsults, lookup_of_miss hmiss]
  rfl

theorem resolve_of_kept {name : String} {provider endpoint : Option String} {d : Directory}
    {known : Model} (hconsults : consults provider endpoint = true)
    (h : (d.known.get (lookupKey name (endpoint.getD "")) d.now).1 = some known) :
    resolve name provider endpoint d
      = (.ok known,
        { d with known := (d.known.get (lookupKey name (endpoint.getD "")) d.now).2 }) := by
  rw [resolve_of_consults hconsults, lookup_of_hit h]
  rfl

/-! ## After an unusable reply -/

/-- Nothing was kept of a request: every entry was there before it, and whenever the same question
    comes up again, it is asked again. -/
structure NotKept (name : String) (provider endpoint : Option String) (before after : Directory) :
    Prop where
  entries : ∀ key entry, Ordered.find? key after.known.entries = some entry →
    Ordered.find? key before.known.entries = some entry
  again : ∀ amount, (asked? name provider endpoint (after.later amount)).isSome = true

/-- An unusable reply is as good as none: the tables answer, and nothing is kept. -/
theorem resolve_unusable {name : String} {provider endpoint : Option String} {d : Directory}
    {fetch : Fetch} (h : asked? name provider endpoint d = some fetch)
    (hunusable : Unusable fetch.reply) :
    (resolve name provider endpoint d).1 = .ok (static name) ∧
      NotKept name provider endpoint d (resolve name provider endpoint d).2 := by
  obtain ⟨hconsults, hmiss, -⟩ := asked?_eq_some_iff.1 h
  rw [resolve_of_asked h, ofReply_of_unusable name hunusable]
  refine ⟨rfl, ?_, ?_⟩
  · intro key entry hfind
    exact Cache.find?_of_find?_get hfind
  · intro amount
    rw [Option.isSome_iff_exists]
    exact ⟨_, asked?_eq_some_iff.2 ⟨hconsults, Cache.get_get_fst_of_miss hmiss _, rfl⟩⟩

/-- The model that a reply describes is returned. -/
theorem resolve_stated {name : String} {provider endpoint : Option String} {d : Directory}
    {fetch : Fetch} {fields : List (String × Json)}
    (h : asked? name provider endpoint d = some fetch)
    (hstates : States fetch.reply (.object fields)) :
    (resolve name provider endpoint d).1 = .ok (ofInfo name fields) := by
  rw [resolve_of_asked h, ofReply_of_states name hstates]
  rfl

/-- A garbled reply is a fault. -/
theorem resolve_garbled {name : String} {provider endpoint : Option String} {d : Directory}
    {fetch : Fetch} (h : asked? name provider endpoint d = some fetch)
    (hgarbled : Garbled fetch.reply) :
    (resolve name provider endpoint d).1 = .error .notAnObject := by
  rw [resolve_of_asked h, ofReply_of_garbled name hgarbled]
  rfl

/-- **A bad server breaks no resolution, unless its reply is garbled.** Whatever the model, the
    provider, the endpoint, the cache and the replies to come are, if the request that is made, if
    one is made, is not answered by a garbled reply, then something is known about the model. With a
    request, that is what its reply describes, or for an unusable reply what the tables say, and then
    nothing is kept of the request. Without one, that is the model that is kept, or what the
    tables say. -/
theorem resolve_isOk (name : String) (provider endpoint : Option String) (d : Directory)
    (h : ∀ fetch, asked? name provider endpoint d = some fetch → ¬ Garbled fetch.reply) :
    ∃ known, (resolve name provider endpoint d).1 = .ok known ∧
      (∀ fetch, asked? name provider endpoint d = some fetch →
        d.network.post (request name (endpoint.getD ""))
          = (fetch.reply, (resolve name provider endpoint d).2.network) ∧
        (∀ fields, States fetch.reply (.object fields) → known = ofInfo name fields) ∧
        (Unusable fetch.reply → known = static name ∧
          NotKept name provider endpoint d (resolve name provider endpoint d).2)) ∧
      (asked? name provider endpoint d = none →
        (resolve name provider endpoint d).2.network = d.network ∧
        if consults provider endpoint then
          (d.known.get (lookupKey name (endpoint.getD "")) d.now).1 = some known
        else known = fromTables name provider) := by
  cases hasked : asked? name provider endpoint d with
  | none =>
      cases hconsults : consults provider endpoint with
      | false =>
          rw [resolve_of_not_consults hconsults]
          exact ⟨_, rfl, nofun, fun _ => ⟨rfl, rfl⟩⟩
      | true =>
          cases hkept : (d.known.get (lookupKey name (endpoint.getD "")) d.now).1 with
          | none =>
              rw [asked?_eq_some_iff.2 ⟨hconsults, hkept, rfl⟩] at hasked
              cases hasked
          | some known =>
              rw [resolve_of_kept hconsults hkept]
              exact ⟨known, rfl, nofun, fun _ => ⟨rfl, rfl⟩⟩
  | some fetch =>
      have hpost : d.network.post (request name (endpoint.getD ""))
          = (fetch.reply, (resolve name provider endpoint d).2.network) := by
        rw [resolve_of_asked hasked, (asked?_eq_some_iff.1 hasked).2.2]
        rfl
      rcases states_or_garbled_or_unusable fetch.reply with
        ⟨fields, hstates⟩ | hgarbled | hunusable
      · refine ⟨_, resolve_stated hasked hstates, ?_, nofun⟩
        rintro _ ⟨⟩
        refine ⟨hpost, ?_, fun hunusable => absurd hstates (hunusable _)⟩
        intro others hothers
        cases hstates.unique hothers
        rfl
      · exact absurd hgarbled (h fetch hasked)
      · obtain ⟨hreturned, hkept⟩ := resolve_unusable hasked hunusable
        refine ⟨_, hreturned, ?_, nofun⟩
        rintro _ ⟨⟩
        exact ⟨hpost, fun _ hstates => absurd hstates (hunusable _), fun _ => ⟨rfl, hkept⟩⟩

/-- A directory whose server first replies with a body that is no document, and then as it should. -/
def recovering : Directory :=
  ⟨.empty (.int 3600), .int 0, .ofReplies [.answer 200 "<html>", described]⟩

/-- The tables answer for the first reply, and a minute later the server is asked again. -/
theorem resolve_isOk_recovering :
    let first := resolve "gpt-4" (some "ollama") (some "http://h") recovering
    first.1 = .ok ⟨"gpt-4", .string "gpt-4", 8192⟩ ∧
      (asked? "gpt-4" (some "ollama") (some "http://h") (first.2.later (.int 60))).isSome = true := by
  intro first
  obtain ⟨fetch, hasked, hunusable⟩ : ∃ fetch,
      asked? "gpt-4" (some "ollama") (some "http://h") recovering = some fetch ∧
        Unusable fetch.reply :=
    ⟨_, rfl, by decide +kernel⟩
  obtain ⟨known, hknown, hfetched, -⟩ :=
    resolve_isOk "gpt-4" (some "ollama") (some "http://h") recovering (by
      intro other hother
      rw [hasked] at hother
      cases hother
      rintro ⟨info, hstates, -⟩
      exact hunusable info hstates)
  obtain ⟨rfl, hnotKept⟩ := (hfetched fetch hasked).2.2 hunusable
  exact ⟨hknown.trans (by decide +kernel), hnotKept.again (.int 60)⟩

/-- A directory whose server replies with model information that is a text. -/
def garbling : Directory :=
  ⟨.empty (.int 3600), .int 0, .ofReplies [.answer 200 "\x7b\"model_info\": \"x\"\x7d"]⟩

theorem resolve_garbling :
    (resolve "m" (some "ollama") (some "http://h") garbling).1 = .error .notAnObject := by
  decide +kernel

end Parley.Model
