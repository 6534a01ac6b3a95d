/-
**Documents in files.**

A document is written as JSON or as YAML, as the name of the file says.  A file is always read as
YAML, whatever its name.

Main definitions:

* `ApiScribe.FileFormat`, `ApiScribe.FileFormat.ofName` — the two formats, and the one that the name
  of a file asks for;
* `ApiScribe.Document.write?`, `ApiScribe.Document.write` — the text of a file, for documents of any
  depth and for those that can be shown;
* `ApiScribe.LoadError`, `ApiScribe.Document.read`, `ApiScribe.Document.readBytes` — the document of
  a file, from its text and from its bytes.
-/

import ApiScribe.Document.Dump
import ApiScribe.Document.OfValue
import ApiScribe.Json.Writer
import ApiScribe.Text.LowerCase
import ApiScribe.Yaml.Reader
import ApiScribe.Yaml.Writer

set_option autoImplicit false

namespace ApiScribe

/-! ### Names of files -/

/-- The formats of files. -/
inductive FileFormat where
  /-- JSON. -/
  | json
  /-- YAML. -/
  | yaml
  deriving DecidableEq, Repr

/-- The last part of a path that is neither empty nor a single point. -/
def lastPart (path : String) : String :=
  (((path.splitOn "/").filter fun part => part ≠ "" && part ≠ ".").getLast?).getD ""

/-- The suffix of a name: its last point with what follows.  A point at one of the two ends starts
no suffix. -/
def suffixOf (name : List Char) : List Char :=
  let extension := (name.reverse.takeWhile (· ≠ '.')).reverse
  let stem := name.length - extension.length
  if 1 < stem && !extension.isEmpty then '.' :: extension else []

/-- The format that the name of a file asks for. -/
def FileFormat.ofName (path : String) : FileFormat :=
  if Text.lower (String.ofList (suffixOf (lastPart path).toList)) = ".json" then json else yaml

/-! ### Writing -/

/-- The members of a mapping. -/
def Value.members : Value → Members Atom Value
  | .map ms => ms
  | _ => []

/-- The text of a file for a document, unless it holds bytes that encode no text. -/
def Document.write? (doc : Document) (format : FileFormat) : Option (List Char) :=
  doc.toJson?.map fun v =>
    match format with
    | .json => Json.write .file v ++ ['\n']
    | .yaml => Yaml.write v.members

/-- The text of a file for a document, by a serializer that has at most `limit` calls open. -/
def Document.write (doc : Document) (limit : Nat) (format : FileFormat) :
    Except DumpError (List Char) :=
  doc.within limit (doc.write? format)

/-! ### Reading -/

/-- A text in which each line break is a line feed. -/
def plainBreaks : List Char → List Char
  | '\r' :: '\n' :: rest => '\n' :: plainBreaks rest
  | '\r' :: rest => '\n' :: plainBreaks rest
  | c :: rest => c :: plainBreaks rest
  | [] => []

/-- Why a file holds no document. -/
inductive LoadError where
  /-- Its bytes encode no text. -/
  | notText
  /-- Its text is no YAML. -/
  | notYaml
  /-- Its data are no document. -/
  | parse (e : ParseError)
  /-- Its data would have to contain themselves. -/
  | circular

/-- The document of a file with a text. -/
def Document.read (text : List Char) : Except LoadError Document :=
  match Yaml.read? (plainBreaks text) with
  | none => .error .notYaml
  | some reading =>
    match Document.parse reading.value with
    | .error e => .error (.parse e)
    | .ok doc => if reading.isCircular then .error .circular else .ok doc

/-- The document of a file with the given bytes. -/
def Document.readBytes (bytes : List UInt8) : Except LoadError Document :=
  match Utf8.decode? bytes with
  | none => .error .notText
  | some text => Document.read text

end ApiScribe
