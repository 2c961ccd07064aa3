import Docwright.Service.Failure

/-!
# Feeds of answers

A feed holds the answers that a service will give, one for each request, and the
answer it gives once they are used up. Seen as an endless sequence it is
`Feed.answer`.
-/

namespace Docwright

/-- The answers of a service to the requests to come. -/
structure Feed (α : Type) where
  next : List (Except Failure α) := []
  after : Except Failure α

namespace Feed

variable {α : Type}

def head (feed : Feed α) : Except Failure α :=
  match feed.next with
  | [] => feed.after
  | answer :: _ => answer

def tail (feed : Feed α) : Feed α :=
  match feed.next with
  | [] => feed
  | _ :: rest => { feed with next := rest }

/-- The answer to the request after `n` others. -/
def answer (feed : Feed α) : Nat → Except Failure α
  | 0 => feed.head
  | n + 1 => feed.tail.answer n

end Feed

end Docwright
