/-
**Recording a run of exchanges.**

A run records exchanges one after the other and reports what became of each.  A strict run ends at
the first exchange that cannot be recorded; a skipping run passes over those whose causes lie in
them alone.

Main definitions:

* `ApiScribe.Event`, `ApiScribe.Event.text` — what became of an exchange;
* `ApiScribe.Document.recordAll` — a run, with its events up to the end or to the exchange that
  ended it.
-/

import ApiScribe.Recording.Step

set_option autoImplicit false

namespace ApiScribe

/-- What became of an exchange. -/
inductive Event where
  /-- It was recorded in a cell. -/
  | recorded (cell : Cell)
  /-- It was passed over; `index` exchanges come before it. -/
  | skipped (index : Nat) (request : Request) (e : RecordError)

/-- The line that reports an event. -/
def Event.text : Event → String
  | recorded cell => s!"DEBUG Recorded {cell.method.upperName} {cell.template} -> {cell.status}"
  | skipped index request e =>
    let place := s!"{index} ({request.method} {request.url})"
    s!"WARNING Skipping observation {place}: {e.message}"

/-- What a run has done. -/
structure Run where
  /-- What became of the exchanges, in order. -/
  events : List Event
  /-- The document after the last exchange, or why the run ended early. -/
  outcome : Except RecordError Document

/-- A run with an event in front. -/
def Run.after (event : Event) (run : Run) : Run := { run with events := event :: run.events }

/-- Records exchanges, of which the first has `index` others before it. -/
def Document.recordFrom (skip : Bool) (index : Nat) (doc : Document) : List Exchange → Run
  | [] => ⟨[], .ok doc⟩
  | x :: rest =>
    match doc.record x with
    | .ok (cell, next) => (next.recordFrom skip (index + 1) rest).after (.recorded cell)
    | .error e =>
      if skip && e.isSkippable then
        (doc.recordFrom skip (index + 1) rest).after (.skipped index x.request e)
      else ⟨[], .error e⟩

/-- Records exchanges in order; `skip` says whether the run is a skipping one. -/
def Document.recordAll (skip : Bool) (doc : Document) (xs : List Exchange) : Run :=
  doc.recordFrom skip 0 xs

end ApiScribe
