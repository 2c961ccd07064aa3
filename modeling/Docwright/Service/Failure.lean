import Docwright.Text.Quoted

/-!
# Failures of services

A service refuses a request with a failure: a kind and a message, a key that it
did not find, or a status. An interruption is not a failure of the service but
the end of the whole run.
-/

namespace Docwright

/-- What a service answers a request with when it does not serve it. -/
inductive Failure where
  | raised (kind message : String)
  | noKey (key : String)
  | status (code : Int) (message body : String)
  | interruption (kind message : String)
  deriving DecidableEq, Repr

def Failure.kind : Failure → String
  | .raised kind _ => kind
  | .noKey _ => "KeyError"
  | .status _ _ _ => "APIStatusError"
  | .interruption kind _ => kind

/-- The message of a failure; a key is quoted. -/
def Failure.message : Failure → String
  | .raised _ message => message
  | .noKey key => Text.quote key
  | .status _ message _ => message
  | .interruption _ message => message

end Docwright
