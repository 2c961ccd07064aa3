import Docwright.Proofs.Completion.Obtained
import Docwright.Proofs.Manual.Drafting

/-!
# What is received from the services

Requests use up the answers of the services one by one: `Services.next` are the services
after a request, and `Services.received` lists those requests that were answered with a
value that counts as present, each with its value. That is a text that is not empty,
unless the writing service puts something else in the place of a text. What was received
for some requests is still received when others follow them.

Services are calm if none of their answers is an interruption. They give texts if the
index can be opened and the writing service puts nothing else in the place of a text. Either
stays so after requests.
-/

namespace Docwright

namespace Services

/-- The services after a request: the one that was asked has used up an answer. -/
def next (services : Services) : Request → Services
  | .write _ _ _ => { services with writer := services.writer.tail }
  | .draft _ => { services with drafter := services.drafter.tail }
  | .openIndex _ => { services with openings := services.openings.tail }
  | .search _ _ => { services with searches := services.searches.tail }
  | .parse _ => { services with parser := services.parser.tail }
  | _ => services

/-- What a request for a text is answered with, if it counts as present. -/
def answer? (services : Services) : Request → Option Json.Value
  | .write _ _ _ => (Completion.obtained services.writer.head).present?
  | .draft _ => (Manual.outcome services.drafter.head).toOption.join.map .str
  | _ => none

def received : Services → List Request → List (Request × Json.Value)
  | _, [] => []
  | services, request :: rest =>
      ((services.answer? request).map (request, ·)).toList ++ (services.next request).received rest

variable {services : Services} {made : List Request} {request : Request} {value : Json.Value}

theorem received_append (services : Services) (made more : List Request) :
    services.received (made ++ more) =
      services.received made ++ (made.foldl next services).received more := by
  induction made generalizing services with
  | nil => rfl
  | cons request made ih => rw [List.cons_append, received, received, ih, List.append_assoc,
      List.foldl_cons]

theorem mem_received_append (more : List Request)
    (h : (request, value) ∈ services.received made) :
    (request, value) ∈ services.received (made ++ more) := by
  rw [received_append]
  exact List.mem_append_left _ h

theorem mem_received_concat (h : (made.foldl next services).answer? request = some value) :
    (request, value) ∈ services.received (made ++ [request]) := by
  rw [received_append]
  apply List.mem_append_right
  simp [received, h]

theorem isPresent_of_outcome {answer : Except Failure DrafterReply} {text : String}
    (h : Manual.outcome answer = .ok (some text)) : (Json.Value.str text).isPresent = true := by
  unfold Manual.outcome at h
  split at h
  · exact absurd h (by simp)
  · split at h
    · exact (Option.filter_eq_some_iff.1 (Except.ok.inj h)).2
    · exact absurd h (by simp)

theorem isPresent_of_mem_received (h : (request, value) ∈ services.received made) :
    value.isPresent = true := by
  induction made generalizing services with
  | nil => exact absurd h List.not_mem_nil
  | cons other made ih =>
      rw [received, List.mem_append, Option.mem_toList, Option.map_eq_some_iff] at h
      obtain ⟨found, hfound, hpair⟩ | h := h
      · obtain ⟨rfl, rfl⟩ := Prod.mk.inj hpair
        cases other with
        | write model maxTokens prompt => exact (Json.Value.present?_eq_some_iff.1 hfound).2
        | draft prompt =>
            obtain ⟨text, htext, rfl⟩ := Option.map_eq_some_iff.1 hfound
            cases houtcome : Manual.outcome services.drafter.head with
            | error fault => simp [houtcome, Except.toOption] at htext
            | ok text? =>
                have hsome : text? = some text := by
                  simpa [houtcome, Except.toOption] using htext
                exact isPresent_of_outcome (hsome ▸ houtcome)
        | _ => exact absurd hfound (by simp [answer?])
      · exact ih h

theorem indexLoad_foldl (services : Services) (made : List Request) :
    (made.foldl next services).indexLoad = services.indexLoad := by
  induction made generalizing services with
  | nil => rfl
  | cons request made ih =>
      rw [List.foldl_cons, ih]
      cases request <;> rfl

/-- No answer to a request for a text or a search is an interruption, nor is one met when
the index is loaded or opened. -/
structure Calm (services : Services) : Prop where
  writer : services.writer.Ordinary
  drafter : services.drafter.Ordinary
  openings : services.openings.Ordinary
  searches : services.searches.Ordinary
  index : ∀ kind message, services.indexLoad ≠ .error (.interruption kind message)

/-- The index can always be opened, and what the writing service gives is a text or does
not count as present. -/
structure GivesTexts (services : Services) : Prop where
  openings : ∀ n, services.openings.answer n = .ok ()
  writer : ∀ n, (Completion.obtained (services.writer.answer n)).isPresent = true →
    (Completion.obtained (services.writer.answer n)).text?.isSome = true

theorem GivesTexts.next (h : services.GivesTexts) (request : Request) :
    (services.next request).GivesTexts := by
  cases request with
  | write model maxTokens prompt => exact ⟨h.openings, fun n => h.writer (n + 1)⟩
  | openIndex limit => exact ⟨fun n => h.openings (n + 1), h.writer⟩
  | _ => exact ⟨h.openings, h.writer⟩

theorem GivesTexts.foldl (h : services.GivesTexts) (made : List Request) :
    (made.foldl Services.next services).GivesTexts := by
  induction made generalizing services with
  | nil => exact h
  | cons request made ih => exact ih (h.next request)

theorem Calm.next (h : services.Calm) (request : Request) : (services.next request).Calm := by
  obtain ⟨hwriter, hdrafter, hopenings, hsearches, hindex⟩ := h
  cases request with
  | write model maxTokens prompt => exact ⟨hwriter.tail, hdrafter, hopenings, hsearches, hindex⟩
  | draft prompt => exact ⟨hwriter, hdrafter.tail, hopenings, hsearches, hindex⟩
  | openIndex limit => exact ⟨hwriter, hdrafter, hopenings.tail, hsearches, hindex⟩
  | search limit text => exact ⟨hwriter, hdrafter, hopenings, hsearches.tail, hindex⟩
  | _ => exact ⟨hwriter, hdrafter, hopenings, hsearches, hindex⟩

theorem Calm.foldl (h : services.Calm) (made : List Request) :
    (made.foldl Services.next services).Calm := by
  induction made generalizing services with
  | nil => exact h
  | cons request made ih => exact ih (h.next request)

end Services

end Docwright
