/-
**Documents from data.**

Data are read as an object of the format, and everything that is wrong with them is reported at
once: field by field in the order of the format, and then the free members.

Main definitions:

* `ApiScribe.Document.ofValue` and its companions — the objects from data;
* `ApiScribe.VersionError`, `ApiScribe.Document.parse` — a document from data that may be of another
  format or version.
-/

import ApiScribe.Document.Basic
import ApiScribe.Schema.OfValue

set_option autoImplicit false

namespace ApiScribe

/-- A self-description from data. -/
def Info.ofValue (v : Value) : Checked Info :=
  asObject v fun ms =>
    Info.mk
      <$> optionalField ms ["title"] "Generated Schema" readText
      <*> optionalField ms ["version"] "1.0" readText
      <*> freeMembers ms [["title"], ["version"]]

/-! ### Parameters -/

/-- A place with a name among the four. -/
def readPlace (v : Value) : Checked Place :=
  (fun name => (Place.ofName? name).getD .path)
    <$> readOneOf ["path", "query", "header", "formData"] v

/-- The names of the member for the place of a parameter. -/
def placeNames : List String := ["in", "in_"]

/-- The names of the member for a schema. -/
def schemaNames : List String := ["schema", "schema_"]

/-- A parameter that is a single value, from data. -/
def ValueParameter.ofValue (v : Value) : Checked ValueParameter :=
  asObject v fun ms =>
    ValueParameter.mk
      <$> requiredField ms placeNames readPlace
      <*> requiredField ms ["name"] readText
      <*> optionalField ms ["type"] "string" readText
      <*> optionalField ms ["required"] false readTruth
      <*> optionalField ms ["description"] none (readNullable readText)
      <*> freeMembers ms [placeNames, ["name"], ["type"], ["required"], ["description"]]

/-- The body of a request, from data. -/
def BodyParameter.ofValue (v : Value) : Checked BodyParameter :=
  asObject v fun ms =>
    (fun _ name schema extras => BodyParameter.mk name schema extras)
      <$> optionalField ms placeNames "body" (readOneOf ["body"])
      <*> optionalField ms ["name"] "body" readText
      <*> requiredField ms schemaNames Schema.ofValue
      <*> freeMembers ms [placeNames, ["name"], schemaNames]

/-- Whether data denote the body of a request: their member `in` says so. -/
def denotesBody : Value → Bool
  | .map ms =>
    match Members.get? ms (.text "in") with
    | some (.atom (.text place)) => place == "body"
    | _ => false
  | _ => false

/-- A parameter from data. -/
def Parameter.ofValue (v : Value) : Checked Parameter :=
  if denotesBody v then (Parameter.body <$> BodyParameter.ofValue v).under (.name "body")
  else (Parameter.value <$> ValueParameter.ofValue v).under (.name "other")

/-! ### Operations -/

/-- An answer from data. -/
def Response.ofValue (v : Value) : Checked Response :=
  asObject v fun ms =>
    Response.mk
      <$> requiredField ms ["description"] readText
      <*> optionalField ms schemaNames none (readNullable Schema.ofValue)
      <*> freeMembers ms [["description"], schemaNames]

/-- The answers by status code.  A code may be given as any atom and stands for its text. -/
def readResponses (v : Value) : Checked (Members String Response) :=
  asMapping v fun ms =>
    let named : Members String Value := Members.ofList (ms.map fun m => (m.1.plain, m.2))
    Members.ofList <$> readMembersWith Response.ofValue (named.map fun m => (.text m.1, m.2))

/-- An operation from data. -/
def Operation.ofValue (v : Value) : Checked Operation :=
  asObject v fun ms =>
    Operation.mk
      <$> optionalField ms ["consumes"] [] (readSequence readText)
      <*> optionalField ms ["produces"] [] (readSequence readText)
      <*> optionalField ms ["parameters"] [] (readSequence Parameter.ofValue)
      <*> optionalField ms ["responses"] [] readResponses
      <*> freeMembers ms [["consumes"], ["produces"], ["parameters"], ["responses"]]

/-- The operation of a method, from the members of what is recorded under a path template. -/
def operationField (ms : Members Atom Value) (m : Method) : Checked (Option Operation) :=
  optionalField ms [m.name] none (readNullable Operation.ofValue)

/-- Everything under a path template, from data. -/
def PathItem.ofValue (v : Value) : Checked PathItem :=
  asObject v fun ms =>
    PathItem.mk
      <$> operationField ms .get
      <*> operationField ms .put
      <*> operationField ms .post
      <*> operationField ms .delete
      <*> operationField ms .options
      <*> operationField ms .head
      <*> operationField ms .patch
      <*> optionalField ms ["parameters"] none
        (readNullable (readSequence Parameter.ofValue))
      <*> freeMembers ms (Method.all.map (fun m => [m.name]) ++ [["parameters"]])

/-! ### Documents -/

/-- What is recorded under a path template, where nothing at all is the same as no members. -/
def readPathItem (v : Value) : Checked PathItem :=
  PathItem.ofValue (if v.isNull then .map [] else v)

/-- The path templates, where nothing at all is the same as none. -/
def readPaths (v : Value) : Checked (Members String PathItem) :=
  if v.isNull then .valid [] else readMapping readPathItem v

/-- A document of any version, from data. -/
def Document.ofValue (v : Value) : Checked Document :=
  asObject v fun ms =>
    Document.mk
      <$> optionalField ms ["swagger"] formatVersion readText
      <*> optionalField ms ["info"] {} Info.ofValue
      <*> optionalField ms ["paths"] [] readPaths
      <*> freeMembers ms [["swagger"], ["info"], ["paths"]]

/-- Why data are not of the format and version. -/
inductive VersionError where
  /-- The data are no mapping. -/
  | notAMapping (data : Value)
  /-- The version is a number. -/
  | numericVersion (version : Binary64)
  /-- The version is another one. -/
  | otherVersion (found : Value)

/-- What is said about the cause. -/
def VersionError.message : VersionError → String
  | .notAMapping data => s!"Expected a Swagger document mapping, got {data.typeName}"
  | .numericVersion version =>
    let expected := spellText formatVersion
    let found := (Atom.float version).spell
    s!"Swagger version must be the string {expected}, got the number {found}; quote it in YAML"
  | .otherVersion found =>
    s!"Swagger {formatVersion} currently only supported, got {found.spell}"

/-- Whether data are of the format and version.  Where no version is given, the one of the later
format is reported. -/
def checkVersion : Value → Option VersionError
  | .map ms =>
    let member (name : String) : Value := (Members.get? ms (.text name)).getD .null
    match member "swagger" with
    | .atom (.float x) => some (.numericVersion x)
    | .atom (.text s) =>
      if s = formatVersion then none else some (.otherVersion (.text s))
    | .atom .null => some (.otherVersion (member "openapi"))
    | v => some (.otherVersion v)
  | v => some (.notAMapping v)

/-- Why data are not a document. -/
inductive ParseError where
  /-- They are of another format or version. -/
  | version (e : VersionError)
  /-- Their members are not those of a document. -/
  | invalid (issues : List Issue)

/-- A document of the format and version, from data. -/
def Document.parse (v : Value) : Except ParseError Document :=
  match checkVersion v with
  | some e => .error (.version e)
  | none =>
    match Document.ofValue v with
    | .valid doc => .ok doc
    | .invalid issues => .error (.invalid issues)

end ApiScribe
