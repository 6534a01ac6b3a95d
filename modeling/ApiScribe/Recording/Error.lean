/-
**Why an exchange cannot be recorded.**

Some causes lie in the one exchange alone, so that a run may go on without it; the others, a
document of another version and a URL that is refused, end the run.  So does a cause that is not
reported as what it is.

Main definitions:

* `ApiScribe.RecordError` — the causes;
* `ApiScribe.RecordError.message` — what is said about each of them;
* `ApiScribe.RecordError.isSkippable` — which of them a run may pass over.
-/

import ApiScribe.Schema.Error
import ApiScribe.Traffic.Body
import ApiScribe.Url.Split

set_option autoImplicit false

namespace ApiScribe

/-- Why an exchange cannot be recorded in a document. -/
inductive RecordError where
  /-- The document is of another version of the format. -/
  | otherVersion (found : String)
  /-- The method has no operation. -/
  | unsupportedMethod (method : String)
  /-- The URL is refused. -/
  | url (e : UrlError)
  /-- A body is not what it is announced as. -/
  | body (e : BodyError)
  /-- A body has no schema, or none that joins with the one recorded before. -/
  | schema (e : SchemaError)

/-- What is said about the cause. -/
def BodyError.message (e : BodyError) : String := s!"Unable to parse JSON body: {e.body.spell}"

namespace RecordError

/-- What is said about the cause. -/
def message : RecordError → String
  | otherVersion found => s!"Swagger 2.0 currently only supported, got {spellText found}"
  | unsupportedMethod method => s!"Method {spellText method} has no Swagger 2.0 operation"
  | url e => e.message
  | body e => e.message
  | schema e => e.message

/-- Whether a run may pass over the exchange. -/
def isSkippable : RecordError → Bool
  | otherVersion _ | url _ => false
  | unsupportedMethod _ | body _ => true
  | schema e => e.isReported

end RecordError

end ApiScribe
