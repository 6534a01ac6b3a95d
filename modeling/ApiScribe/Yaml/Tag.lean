/-
**The kinds of YAML nodes.**

Each node has a kind.  It is given by a tag, or for a plain text by the form of the text: a text of
the form of a number is a number, and so on; all others are just texts.

Main definitions:

* `ApiScribe.Yaml.Tag`, `ApiScribe.Yaml.Tag.ofName` — the kinds, and the kind with a full name;
* `ApiScribe.Yaml.isFloatForm`, `ApiScribe.Yaml.isIntForm` — the forms of numbers;
* `ApiScribe.Yaml.Tag.ofPlain` — the kind of a plain text.
-/

import ApiScribe.Yaml.Stamp

set_option autoImplicit false

namespace ApiScribe.Yaml

/-- The kinds of nodes. -/
inductive Tag where
  /-- A text. -/
  | str
  /-- The absent value. -/
  | null
  /-- A truth value. -/
  | bool
  /-- A whole number. -/
  | int
  /-- A floating-point number. -/
  | float
  /-- A sequence of bytes. -/
  | binary
  /-- A day or a moment. -/
  | timestamp
  /-- A sequence. -/
  | seq
  /-- A mapping. -/
  | map
  /-- A collection without repetitions. -/
  | set
  /-- A sequence of pairs of which none repeats. -/
  | omap
  /-- A sequence of pairs. -/
  | pairs
  /-- The key whose value is merged into the mapping around it. -/
  | merge
  /-- The key whose value stands for the mapping around it. -/
  | value
  /-- Any other kind; no node of it has a value. -/
  | other
  deriving DecidableEq, Repr

namespace Tag

/-- The full names of the kinds. -/
def names : List (String × Tag) :=
  [("tag:yaml.org,2002:str", .str), ("tag:yaml.org,2002:null", .null),
   ("tag:yaml.org,2002:bool", .bool), ("tag:yaml.org,2002:int", .int),
   ("tag:yaml.org,2002:float", .float), ("tag:yaml.org,2002:binary", .binary),
   ("tag:yaml.org,2002:timestamp", .timestamp), ("tag:yaml.org,2002:seq", .seq),
   ("tag:yaml.org,2002:map", .map), ("tag:yaml.org,2002:set", .set),
   ("tag:yaml.org,2002:omap", .omap), ("tag:yaml.org,2002:pairs", .pairs),
   ("tag:yaml.org,2002:merge", .merge), ("tag:yaml.org,2002:value", .value)]

/-- The kind with a full name. -/
def ofName (name : String) : Tag := (names.lookup name).getD .other

end Tag

/-! ### The forms of plain texts -/

/-- A text without a sign at its start. -/
def dropSign : List Char → List Char
  | '+' :: rest => rest
  | '-' :: rest => rest
  | cs => cs

/-- Whether `c` is a digit or an underscore between digits. -/
def isDigitOrLow (c : Char) : Bool := c.isDigit || c = '_'

/-- Whether a text is a power of ten with a sign, or nothing. -/
def isPowerForm : List Char → Bool
  | [] => true
  | e :: sign :: ds =>
    (e = 'e' || e = 'E') && (sign = '+' || sign = '-') && !ds.isEmpty && ds.all Char.isDigit
  | _ => false

/-- What follows the first character outside of digits and underscores, if a digit comes first. -/
def afterDigits? : List Char → Option (List Char)
  | [] => none
  | c :: rest => if c.isDigit then some (rest.dropWhile isDigitOrLow) else none

/-- Whether a text, after a point, is the rest of a number. -/
def isFractionForm (cs : List Char) : Bool := isPowerForm (cs.dropWhile isDigitOrLow)

/-- What follows one or more groups to the base sixty, each after a colon.  A group is a digit, or
two of which the first is less than six, and nothing of it may be left. -/
def afterSixties? : List Char → Option (List Char)
  | ':' :: a :: b :: rest =>
    if !a.isDigit then none
    else if b.isDigit then
      if a < '6' then
        match rest with
        | ':' :: _ => afterSixties? rest
        | _ => some rest
      else none
    else if b = ':' then afterSixties? (b :: rest)
    else some (b :: rest)
  | [':', a] => if a.isDigit then some [] else none
  | _ => none

/-- Whether a text has the form of a floating-point number. -/
def isFloatForm (cs : List Char) : Bool :=
  let unsigned := dropSign cs
  let words := [".inf", ".Inf", ".INF"].map String.toList
  let decimal :=
    match afterDigits? unsigned with
    | some ('.' :: rest) => isFractionForm rest
    | some rest =>
      match afterSixties? rest with
      | some ('.' :: rest) => rest.all isDigitOrLow
      | _ => false
    | none => false
  let pointed :=
    match cs with
    | '.' :: d :: rest => d.isDigit && isFractionForm rest
    | _ => false
  decimal || pointed || words.contains unsigned
    || ([".nan", ".NaN", ".NAN"].map String.toList).contains cs

/-- Whether a text without a sign has the form of a whole number. -/
def isUnsignedIntForm : List Char → Bool
  | ['0'] => true
  | '0' :: 'b' :: ds => !ds.isEmpty && ds.all fun c => c = '0' || c = '1' || c = '_'
  | '0' :: 'x' :: ds => !ds.isEmpty && ds.all fun c => isHexDigit c || c = '_'
  | '0' :: ds => ds.all fun c => ('0' ≤ c && c ≤ '7') || c = '_'
  | cs =>
    match afterDigits? cs with
    | some [] => true
    | some rest => afterSixties? rest = some []
    | none => false

/-- Whether a text has the form of a whole number. -/
def isIntForm (cs : List Char) : Bool := isUnsignedIntForm (dropSign cs)

/-- The words for truth values. -/
def boolWords : List (List Char) :=
  ["yes", "Yes", "YES", "no", "No", "NO", "true", "True", "TRUE", "false", "False", "FALSE", "on",
    "On", "ON", "off", "Off", "OFF"].map String.toList

/-- The words for the absent value. -/
def nullWords : List (List Char) := ["~", "null", "Null", "NULL"].map String.toList

/-- The kind of a text that is not empty and does not end with a line feed. -/
def Tag.ofForm (cs : List Char) : Tag :=
  if boolWords.contains cs then .bool
  else if nullWords.contains cs then .null
  else if cs = ['<', '<'] then .merge
  else if cs = ['='] then .value
  else if cs = ['!'] || cs = ['&'] || cs = ['*'] then .other
  else if isFloatForm cs then .float
  else if isIntForm cs then .int
  else if (Stamp.read? cs).any Stamp.isPlain then .timestamp
  else .str

/-- A text without a line feed at its end. -/
def withoutLineFeed (cs : List Char) : List Char :=
  if cs.getLast? = some '\n' then cs.dropLast else cs

/-- The kind of a plain text.  A line feed at its end does not count. -/
def Tag.ofPlain (cs : List Char) : Tag :=
  if cs.isEmpty then .null
  else if (withoutLineFeed cs).isEmpty then .str
  else .ofForm (withoutLineFeed cs)

end ApiScribe.Yaml
