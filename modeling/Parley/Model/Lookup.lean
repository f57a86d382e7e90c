import Parley.Cache
import Parley.Fault
import Parley.Http
import Parley.Json.Reader
import Parley.Model
set_option autoImplicit false

/-! # Asking a server about a model

Servers that are reached through an endpoint are asked what they know about a model, and a usable
reply is kept for some time, counted from when it came. A failed request, a status outside 200 to
299, a body that is no JSON document, and a document without model information are failed lookups.
They are not kept. -/

namespace Parley.Model

open Text

/-- What lookups leave behind: the replies kept, the time, and the network with its requests. -/
structure Directory where
  known : Cache String Model
  now : Number
  network : Http.Network

/-! ## The request -/

/-- A text without slashes at its end. -/
def withoutSlashes (text : List Char) : List Char :=
  (text.reverse.dropWhile fun c => c == '/').reverse

/-- The address of a server: its endpoint without slashes at the end and without the version `/v1`
    of the interface. A final line break stays. -/
def serverAddress (endpoint : String) : String :=
  let (body, lineBreak) := splitFinalBreak (withoutSlashes endpoint.toList)
  let stripped :=
    match beforeSuffix? "/v1/".toList body with
    | some front => front
    | none => (beforeSuffix? "/v1".toList body).getD body
  String.ofList (stripped ++ lineBreak)

/-- The request for what a server knows about a model. -/
def request (model endpoint : String) : Http.Request where
  url := serverAddress endpoint ++ "/api/show"
  body := .object [("name", .string model)]

/-! ## The reply -/

/-- The integer that a value is; the truth values count as one and zero. -/
def integer? : Json → Option Int
  | .number (.int n) => some n
  | .bool value => some (if value then 1 else 0)
  | _ => none

/-- The first field that states the length of a context, if its value is an integer. -/
def contextLength? : List (String × Json) → Option Int
  | [] => none
  | (name, value) :: rest =>
      match integer? value with
      | some n => if endsWith ".context_length" name then some n else contextLength? rest
      | none => contextLength? rest

/-- The model that the fields of some model information describe. -/
def ofInfo (name : String) (info : List (String × Json)) : Model :=
  let family := Json.fieldOrNull "general.architecture" info
  { name
    family := if family.truthy then family else .string defaultFamily
    contextWindow := (contextLength? info).getD defaultContextWindow }

/-- The model that a document describes. Model information that is neither empty nor an object is a
    fault. -/
def ofDocument (name : String) (document : Json) : Except Fault (Option Model) :=
  let info := (document.field? "model_info").getD .null
  if info.truthy then
    match info.fields? with
    | some fields => .ok (some (ofInfo name fields))
    | none => .error .notAnObject
  else .ok none

/-- The document in the body of a reply, which may start with a byte order mark. -/
def bodyDocument? (body : String) : Option Json :=
  match body.toList with
  | '\ufeff' :: rest => Json.read? (String.ofList rest)
  | _ => Json.read? body

/-- The model that a reply describes. -/
def ofReply (name : String) : Http.Reply → Except Fault (Option Model)
  | .answer status body =>
      if 200 ≤ status ∧ status < 300 then
        match bodyDocument? body with
        | some document => ofDocument name document
        | none => .ok none
      else .ok none
  | .connectionFailed => .ok none
  | .timedOut => .ok none

/-! ## The lookup -/

/-- The key under which the reply of a server about a model is kept. -/
def lookupKey (model endpoint : String) : String :=
  endpoint ++ "::" ++ model

/-- What a server knows about a model: from the replies kept, else from a request. A model that the
    reply describes is kept from the time when the reply is there. -/
def lookup (model endpoint : String) (d : Directory) :
    Except Fault (Option Model) × Directory :=
  let (reply, network) := d.network.post (request model endpoint)
  match Cache.getOrLoad (lookupKey model endpoint) d.network.next.takes (ofReply model reply)
      ⟨d.known, d.now⟩ with
  | (.hit found, c) => (.ok (some found), ⟨c.cache, c.now, d.network⟩)
  | (.missed outcome, c) => (outcome, ⟨c.cache, c.now, network⟩)

end Parley.Model
