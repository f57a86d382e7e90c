import Parley.Json
set_option autoImplicit false

/-! # Requests and replies

The library talks to servers by posting JSON. A network is a list of the replies that are still to
come, one for each request, each with the time that it takes, and the list of the requests made so
far. When no reply is left, the connection fails.

Every request comes to a `Reply`: the client is taken to answer, or to fail with one of its HTTP
errors, and to raise nothing else. That an address can be malformed, so that the client refuses it
before anything is sent, is not modelled. -/

namespace Parley.Http

/-- A document that is posted to an address. -/
structure Request where
  url : String
  body : Json
deriving DecidableEq

/-- What comes of a request: an answer, or an HTTP error of the client. -/
inductive Reply
  | answer (status : Int) (body : String)
  | connectionFailed
  | timedOut
deriving DecidableEq

/-- A reply and the time from the request until it comes. -/
structure Arrival where
  reply : Reply
  takes : Number
deriving DecidableEq

/-- The replies to come and the requests made. -/
structure Network where
  arrivals : List Arrival
  /-- The requests made so far, the latest one last. -/
  sent : List Request
deriving DecidableEq

/-- A network that has not been used. -/
def Network.ofArrivals (arrivals : List Arrival) : Network := ⟨arrivals, []⟩

/-- A network that has not been used, where replies come at once. -/
def Network.ofReplies (replies : List Reply) : Network :=
  .ofArrivals (replies.map fun reply => ⟨reply, .int 0⟩)

/-- What comes of the next request, and when. -/
def Network.next (network : Network) : Arrival :=
  network.arrivals.head?.getD ⟨.connectionFailed, .int 0⟩

/-- Post a request. -/
def Network.post (request : Request) (network : Network) : Reply × Network :=
  (network.next.reply, ⟨network.arrivals.tail, network.sent ++ [request]⟩)

end Parley.Http
