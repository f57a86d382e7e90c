import Parley.Message
set_option autoImplicit false

/-! # The protected end of a conversation

The latest messages of a conversation are never changed. The window holds the last few user
messages, at least one, and everything after the first of them. A conversation that has fewer user
messages is protected as a whole. -/

namespace Parley.Window

/-- How many user messages a window protects: as many as its size says, and at least one. -/
def reach (size : Int) : Nat :=
  if size < 1 then 1 else size.toNat

/-- The number of user messages. -/
def userCount (messages : List Message) : Nat :=
  messages.countP Message.isUser

/-- How many messages stand before the last `wanted` user messages, when there are that many. A
    message stands before them exactly if that many user messages come after it. -/
def lengthBefore (wanted : Nat) : List Message → Nat
  | [] => 0
  | _ :: rest => if wanted ≤ userCount rest then lengthBefore wanted rest + 1 else 0

/-- The index at which the window starts. -/
def start (messages : List Message) (size : Int) : Nat :=
  lengthBefore (reach size) messages

end Parley.Window
