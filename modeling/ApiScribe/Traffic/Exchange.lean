/-
**Observed traffic.**

An exchange is a request with the reply to it, as they were seen on the wire.

Main definitions:

* `ApiScribe.Headers`, `ApiScribe.Headers.find?` — header fields, found whatever the case of their
  names;
* `ApiScribe.Request`, `ApiScribe.Reply`, `ApiScribe.Exchange` — what was seen;
* `ApiScribe.Request.ofValue`, `ApiScribe.Reply.ofValue`, `ApiScribe.Exchange.ofValue`, and the
  functions `toValue` — what was seen as data.
-/

import ApiScribe.Document.ToValue
import ApiScribe.Text.LowerCase
import ApiScribe.Validation.Fields

set_option autoImplicit false

namespace ApiScribe

/-- The header fields of a message in order. -/
abbrev Headers := Members String String

/-- The value of the first header field with a name, whatever the case of its letters. -/
def Headers.find? (headers : Headers) (name : String) : Option String :=
  (List.find? (fun m => Text.lower m.1 = Text.lower name) headers).map (·.2)

/-- The content type that header fields announce. -/
def Headers.contentType? (headers : Headers) : Option String := headers.find? "Content-Type"

/-- A request. -/
structure Request where
  /-- The method as it was given. -/
  method : String
  /-- The URL as it was given. -/
  url : String
  /-- The header fields. -/
  headers : Headers := []
  /-- The body; the absent value stands for none. -/
  body : Value := .null

/-- The reply to a request. -/
structure Reply where
  /-- The status code. -/
  status : Int
  /-- The header fields. -/
  headers : Headers := []
  /-- The body; the absent value stands for none. -/
  body : Value := .null

/-- A request with the reply to it. -/
structure Exchange where
  /-- The request. -/
  request : Request
  /-- The reply. -/
  reply : Reply

/-- The content type of a request. -/
def Request.contentType? (request : Request) : Option String := request.headers.contentType?

/-- The content type of a reply. -/
def Reply.contentType? (reply : Reply) : Option String := reply.headers.contentType?

/-! ### Traffic from data -/

/-- The header fields among the members of a message. -/
def headersField (ms : Members Atom Value) : Checked Headers :=
  optionalField ms ["headers"] [] (readMapping readText)

/-- The body among the members of a message. -/
def bodyField (ms : Members Atom Value) : Checked Value :=
  optionalField ms ["body"] .null .valid

/-- A request from data. -/
def Request.ofValue (v : Value) : Checked Request :=
  asObject v fun ms =>
    Request.mk
      <$> requiredField ms ["method"] readText
      <*> requiredField ms ["url"] readText
      <*> headersField ms
      <*> bodyField ms

/-- A reply from data. -/
def Reply.ofValue (v : Value) : Checked Reply :=
  asObject v fun ms =>
    Reply.mk <$> requiredField ms ["status_code"] readInteger <*> headersField ms <*> bodyField ms

/-- An exchange from data. -/
def Exchange.ofValue (v : Value) : Checked Exchange :=
  asObject v fun ms =>
    Exchange.mk
      <$> requiredField ms ["request"] Request.ofValue
      <*> requiredField ms ["response"] Reply.ofValue

/-! ### Traffic as data -/

/-- Header fields as data. -/
def Headers.toValue (headers : Headers) : Value := .object (headers.mapValues .text)

/-- A request as data. -/
def Request.toValue (view : View) (request : Request) : Value :=
  view.objectOf
    [("method", .text request.method), ("url", .text request.url),
     ("headers", request.headers.toValue), ("body", request.body)] []

/-- A reply as data. -/
def Reply.toValue (view : View) (reply : Reply) : Value :=
  view.objectOf
    [("status_code", .atom (.int reply.status)), ("headers", reply.headers.toValue),
     ("body", reply.body)] []

/-- An exchange as data. -/
def Exchange.toValue (view : View) (exchange : Exchange) : Value :=
  view.objectOf
    [("request", exchange.request.toValue view), ("response", exchange.reply.toValue view)] []

end ApiScribe
