/-
**Bodies.**

A body comes as data, as a text or as bytes.  A text or bytes that are announced as JSON are read as
JSON; everything else is passed on as it is.

Main definition: `ApiScribe.readBody`.
-/

import ApiScribe.Json.Reader
import ApiScribe.Text.Encoding
import ApiScribe.Traffic.MediaType

set_option autoImplicit false

namespace ApiScribe

/-- A body that is announced as JSON and cannot be read as JSON. -/
structure BodyError where
  /-- The body. -/
  body : Value

/-- The text of a body that is a text or bytes; `some none` stands for bytes that are no text. -/
def bodyText? : Value → Option (Option (List Char))
  | .atom (.text s) => some (some s.toList)
  | .atom (.bytes bs) => some (textOfBytes? bs)
  | _ => none

/-- The data of a body with a content type. -/
def readBody (body : Value) (contentType : Option String) : Except BodyError Value :=
  if announcesJson contentType then
    match bodyText? body with
    | none => .ok body
    | some text =>
      match text.bind Json.read? with
      | some v => .ok v
      | none => .error ⟨body⟩
  else .ok body

end ApiScribe
