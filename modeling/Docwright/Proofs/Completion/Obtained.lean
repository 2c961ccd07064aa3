import Docwright.Proofs.Job.Ends
import Docwright.Proofs.Service.Feed

/-!
# How a text is written

A request to the writing service takes one answer of its feed, and what is
obtained depends on that answer only: a failure, or a reply without a text field in
front, gives null. The rest of the site stays as it was, up to the lines said,
unless the answer is an interruption.
-/

namespace Docwright

theorem Json.Value.text?_eq_some_iff {value : Json.Value} {text : String} :
    value.text? = some text ↔ value = .str text := by
  cases value with
  | str other => simp [text?]
  | _ => simp [text?]

theorem Json.Value.present?_eq_some_iff {given value : Json.Value} :
    given.present? = some value ↔ given = value ∧ value.isPresent = true := by
  rw [present?, Option.ite_none_right_eq_some, Option.some_inj]
  constructor
  · rintro ⟨hpresent, rfl⟩
    exact ⟨rfl, hpresent⟩
  · rintro ⟨rfl, hpresent⟩
    exact ⟨hpresent, rfl⟩

end Docwright

namespace Docwright.Completion

open Docwright.Job

/-- What an answer of the writing service gives. -/
def obtained : Except Failure WriterReply → Json.Value
  | .ok reply => reply.firstText?.getD .null
  | .error _ => .null

/-- An answer of the writing service with one value in front. -/
def oneValue (value : Json.Value) : Except Failure WriterReply := .ok ⟨some [.text value], ""⟩

def oneText (text : String) : Except Failure WriterReply := oneValue (.str text)

/-- Services by which these values are given, one after the other. -/
def writing (values : List Json.Value) : Services :=
  { Services.failing with writer := ⟨values.map oneValue, oneText ""⟩ }

def requested (request : Request) (site : Site) : Site :=
  { site with
    asked := site.asked ++ [request]
    services := { site.services with writer := site.services.writer.tail } }

theorem write_ends (model maxTokens prompt : Json.Value) (site : Site) :
    Ends (write model maxTokens prompt) site (site.services.writer.head.mapError .service)
      (requested (.write model maxTokens prompt) site) :=
  .answer rfl

theorem isOrdinary_service {failure : Failure}
    (h : ∀ kind message, failure ≠ .interruption kind message) :
    (Fault.service failure).isOrdinary = true := by
  cases failure with
  | interruption kind message => exact absurd rfl (h kind message)
  | raised kind message => rfl
  | noKey key => rfl
  | status code message body => rfl

/-- What is obtained is what the next answer gives, if the reports on it come to
nothing but lines. -/
theorem request_ends (model maxTokens prompt : Json.Value) {onStatus : Int → String → Job Unit}
    (honStatus : ∀ code body site, Ends (onStatus code body) site (.ok ()) site) {site : Site}
    (hordinary : site.services.writer.Ordinary) :
    Ends (request model maxTokens prompt (fun _ => pure ()) onStatus) site
      (.ok (obtained site.services.writer.head))
      (requested (.write model maxTokens prompt) site) := by
  have hwrite := write_ends model maxTokens prompt site
  have hanswer := hordinary.head
  cases hhead : site.services.writer.head with
  | ok reply =>
      rw [hhead] at hwrite
      refine Ends.bind (?_ : Ends _ site (.ok (.ok (obtained (.ok reply))))
        (requested (.write model maxTokens prompt) site)) fun said => .pure
      refine .attempt (.bind hwrite fun said => ?_) (by simp)
      rw [show obtained (.ok reply) = reply.firstText?.getD .null from rfl]
      cases reply.firstText? with
      | some given => exact Ends.bind .pure fun said => .pure
      | none => exact Ends.bind (.say _) fun said => .pure
  | error failure =>
      rw [hhead] at hwrite hanswer
      have hcaught : (Fault.service failure).isOrdinary = true :=
        isOrdinary_service fun kind message h => hanswer kind message (by rw [h])
      refine Ends.bind (.attempt hwrite.bind_fault ?_) fun said => ?_
      · rintro fault hfault
        rw [← Except.error.inj hfault]
        exact hcaught
      · cases failure with
        | status code message body =>
            refine Ends.bind (.say _) fun said => Ends.bind (honStatus code body _) fun said => ?_
            exact .pure
        | raised kind message => exact Ends.bind (.say _) fun said => .pure
        | noKey key => exact Ends.bind (.say _) fun said => .pure
        | interruption kind message => exact Ends.bind (.say _) fun said => .pure

end Docwright.Completion
