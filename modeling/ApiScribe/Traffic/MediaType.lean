/-
**Media types.**

Main definition: `ApiScribe.announcesJson` — whether a content type announces JSON.
-/

import ApiScribe.Text.Blank
import ApiScribe.Text.LowerCase

set_option autoImplicit false

namespace ApiScribe

/-- The media type of a content type: what precedes the parameters, in lower case. -/
def mediaType (contentType : String) : String :=
  let essence := contentType.toList.takeWhile (· ≠ ';')
  Text.lower (String.ofList (Text.trimBy Text.isBlank essence))

/-- Whether a content type announces JSON: its media type is that of JSON, or has the suffix of
the types that are written in JSON. -/
def announcesJson : Option String → Bool
  | none => false
  | some contentType =>
    let type := mediaType contentType
    type == "application/json" || type.endsWith "+json"

end ApiScribe
