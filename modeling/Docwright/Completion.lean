import Docwright.Job

/-!
# Texts from the writing service

A request to the writing service yields what the text field in front of the reply
holds, which need not be a text, or null: the reply may have no content block with
such a field, and the service may fail. What is said then is the same for every kind
of document up to what follows an error status.
-/

namespace Docwright.Completion

open Job

def modelName : String := "claude-3-5-sonnet-20240620"

/-- Asks for a text and gives what the reply holds to `receive`, which is part of
the request: a fault in it counts as one of the service. An error status
is reported, with `onStatus` after it. -/
def request (model maxTokens prompt : Json.Value)
    (receive : Json.Value → Job Unit) (onStatus : Int → String → Job Unit) :
    Job Json.Value := do
  let reading : Job Json.Value := do
    let reply ← write model maxTokens prompt
    match reply.firstText? with
    | some value =>
        receive value
        return value
    | none =>
        say s!"Unexpected response structure from Anthropic API: {reply.shown}"
        return .null
  match ← attempt reading with
  | .ok value => return value
  | .error (.service (.status code message body)) =>
      say s!"Anthropic API returned an error (model: {model}, status: {code}): {message}"
      onStatus code body
      return .null
  | .error fault =>
      say s!"Error calling Anthropic API ({model}): {fault.kind} - {fault.message}"
      return .null

end Docwright.Completion
