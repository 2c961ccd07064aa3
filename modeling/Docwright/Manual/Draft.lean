import Docwright.Job

/-!
# Texts from the drafting service

A request to the drafting service is repeated after a failure, at most three
times in all, with a pause before each repetition that doubles from one to the
next. A reply that is not a failure ends the matter: the texts of its parts are
joined, and if that gives nothing there is no text. A part whose text field holds
no text cannot be joined and counts as a failure.
-/

namespace Docwright.Manual

open Job

def textFields (parts : List Block) : List Json.Value :=
  parts.filterMap fun part =>
    match part with
    | .text value => some value
    | .other => none

/-- The text of a reply, empty if it has no parts. -/
def replyText (reply : DrafterReply) : Except Fault String :=
  match textsFrom 0 (textFields (reply.parts.getD [])) with
  | .ok texts => .ok (String.join texts)
  | .error fault => .error fault

def draftOnce (prompt : Json.Value) : Job (Option String) := do
  let reply ← draft prompt
  match replyText reply, reply.blocked? with
  | .error fault, _ => throw fault
  | .ok "", some feedback =>
      let message := feedback.message.display
      say s!"Gemini API request failed: Prompt blocked. Reason: {message}"
      return none
  | .ok "", none =>
      say <| "Gemini API returned an empty or unexpected response structure. " ++
        s!"Response: {reply.shown}"
      return none
  | .ok text, blocked? =>
      say s!"Received completion from Gemini. Output length (chars): {text.length}"
      match blocked? with
      | some feedback =>
          let message := feedback.message.display
          say s!"Warning: Prompt feedback indicates blockage: {message}"
      | none => pure ()
      return some text

/-- Requests a text up to `left` times, with a first pause of `delay` seconds;
`number` is that of the next request. -/
def draftWithin (model prompt : Json.Value) : Nat → Nat → Nat → Job (Option String)
  | 0, _, _ => return none
  | left + 1, number, delay => do
      match ← attempt (draftOnce prompt) with
      | .ok text => return text
      | .error fault =>
          say <| s!"Error calling Gemini API ({model}) on attempt {number}: " ++
            s!"{fault.kind} - {fault.message}"
          if left = 0 then
            say "Max retries reached."
            return none
          else
            say s!"Retrying in {delay} seconds..."
            ask (.pause delay)
            draftWithin model prompt left (number + 1) (delay * 2)

def complete (model prompt : Json.Value) : Job (Option String) := do
  let length ← lengthOf prompt
  say s!"Sending prompt to Gemini ({model}). Prompt length (chars): {length}"
  draftWithin model prompt 3 1 10

end Docwright.Manual
