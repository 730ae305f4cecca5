import RecordApi.Proofs.Api.Serving
import RecordApi.Proofs.Console.Markup
import RecordApi.Sample.Service

/-!
# What the method of a route answers

A method answers with its payload, with nothing, or with an error that tells nothing.  What
escapes instead is a payload that JSON cannot hold, a page count beyond all bounds, and an
error whose text breaks the markup of the log.
-/

namespace RecordApi

open Http Console

/-- The body of an error that tells nothing of its cause. -/
def opaqueBody : Value :=
  .map [("error", .bool true), ("message", .text "Internal server error"), ("detail", .null),
    ("status_code", .int 500)]

/-- The answers that a route promises: its payload with the status of success, nothing with
404, and an error that tells nothing with 500. -/
def Route.Promises (route : Route) (response : Response) : Prop :=
  (∃ data, response = Response.ofValue route.successStatus data) ∨
    response = { status := 404 } ∨ response = Response.ofValue 500 opaqueBody

/-- An outcome can be answered: a payload by JSON, and a failure after it was logged. -/
def Outcome.IsAnswerable (logger : Logger) : Outcome → Prop
  | .done payload => Json.isFiniteTree payload = true
  | .missing => True
  | .failed failure =>
      logger.shows .error = true → (Markup.plain? failure.summary).isSome = true
  | .uncounted _ => False

namespace Application

variable {app : Application} {route : Route} {id : String} {request : Request}
  {payload : Assoc Value} {db : Database}

theorem ordinary_activity (route : Route) :
    ∀ c ∈ (route.activity ++ " failed in crud.py: ").toList, Markup.IsOrdinary c := by
  apply Markup.ordinary_of_all
  unfold Route.activity
  cases route.method with
  | gets => decide
  | get => decide
  | post => decide
  | put => decide
  | delete => decide

/-- A failure is answered when its log entry is printed, and escapes otherwise. -/
theorem failed_eq
    (app : Application) (route : Route) (failure : Failure) :
    (∃ exchange, app.failed route failure = .inr exchange ∧
        exchange.response = app.internalError failure.text ∧
        (Outcome.failed failure).IsAnswerable app.console) ∨
      app.failed route failure = .inl .unprintable ∧
        ¬ (Outcome.failed failure).IsAnswerable app.console := by
  have hlogged : (app.console.message .error
      s!"{route.activity} failed in crud.py: {failure.summary}").2 = .completed ↔
        (Outcome.failed failure).IsAnswerable app.console :=
    message_completed_iff app.console _ failure.summary (ordinary_activity route)
  rw [← hlogged]
  unfold failed
  cases app.console.message .error
      s!"{route.activity} failed in crud.py: {failure.summary}" with
  | mk console ending =>
      cases ending with
      | completed => exact Or.inl ⟨_, rfl, rfl, rfl⟩
      | raised => exact Or.inr ⟨rfl, Ending.noConfusion⟩

theorem answered_done_iff
    (app : Application) (route : Route) (request : Request) (data : Value) :
    (∃ exchange, app.answered route request (.done data) = .inr exchange ∧
        route.Promises exchange.response) ↔
      Json.isFiniteTree data = true := by
  unfold answered
  dsimp only
  constructor
  · rintro ⟨exchange, hexchange, _⟩
    split at hexchange
    · assumption
    · cases hexchange
  · intro hfinite
    rw [if_pos hfinite]
    exact ⟨_, rfl, Or.inl ⟨data, rfl⟩⟩

theorem answered_failed_iff
    (request : Request) (failure : Failure)
    (hdebug : app.config.debugMode = false) :
    (∃ exchange, app.answered route request (.failed failure) = .inr exchange ∧
        route.Promises exchange.response) ↔
      (Outcome.failed failure).IsAnswerable app.console := by
  have hopaque : app.internalError failure.text = Response.ofValue 500 opaqueBody := by
    unfold internalError debugDetail
    rw [hdebug]
    rfl
  unfold answered
  dsimp only
  rcases failed_eq app route failure with
    ⟨exchange, hfailed, hresponse, hanswerable⟩ | ⟨hfailed, hnot⟩
  · constructor
    · intro _
      exact hanswerable
    · intro _
      refine ⟨exchange, hfailed, Or.inr (Or.inr ?_)⟩
      rw [hresponse, hopaque]
  · constructor
    · rintro ⟨exchange, hexchange, _⟩
      rw [hfailed] at hexchange
      cases hexchange
    · intro hanswerable
      exact absurd hanswerable hnot

theorem answered_promises_iff
    (request : Request) (outcome : Outcome)
    (hdebug : app.config.debugMode = false) :
    (∃ exchange, app.answered route request outcome = .inr exchange ∧
        route.Promises exchange.response) ↔
      outcome.IsAnswerable app.console := by
  cases outcome with
  | done data => exact answered_done_iff app route request data
  | failed failure => exact answered_failed_iff request failure hdebug
  | missing =>
      constructor
      · intro _
        exact True.intro
      · intro _
        exact ⟨{ response := { status := 404 } }, rfl, Or.inr (Or.inl rfl)⟩
  | uncounted error =>
      constructor
      · rintro ⟨_, hescape, _⟩
        cases hescape
      · intro hanswerable
        cases hanswerable

/-- A failure whose text has no opening bracket is always answered. -/
theorem isAnswerable_of_no_bracket
    {failure : Failure} (logger : Logger)
    (h : '[' ∉ failure.summary.toList) :
    (Outcome.failed failure).IsAnswerable logger := by
  intro _
  exact Markup.isPrintable_of_no_bracket [] h

end Application

namespace Sample

/-- An author, to be shown by a field whose name is a closing tag. -/
def markupRequest : Request where
  verb := "GET"
  path := "/authors/1".toList
  items := [("fields", "a[/x]")]

/-- The database with an item of infinite weight. -/
def infiniteDatabase : Database where
  tables := [table items [[.int 1, .null, .null, .float (.infinite false)]]]
  links := []

def itemRequest : Request where
  verb := "GET"
  path := "/items/1".toList

end Sample
end RecordApi
