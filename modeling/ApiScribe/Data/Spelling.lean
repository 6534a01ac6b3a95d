/-
**Values spelled out in messages.**

A message shows a value in a form that tells texts from numbers and names what cannot be seen.  A
text is put in single quotes, or in double quotes if it holds single quotes only; characters that
cannot be shown are written by their code point in two, four or eight hexadecimal digits.

Main definitions:

* `ApiScribe.hexDigits` — a number in hexadecimal digits of a fixed width;
* `ApiScribe.spellText`, `ApiScribe.spellBytes` — texts and bytes in quotes;
* `ApiScribe.Atom.spell`, `ApiScribe.Value.spell` — any value;
* `ApiScribe.Atom.plain` — an atom as bare text, where a text has no quotes.
-/

import ApiScribe.Data.Value
import ApiScribe.Text.Printable

set_option autoImplicit false

namespace ApiScribe

/-! ### Texts -/

/-- A hexadecimal digit, with `a` to `f` for the last six. -/
def hexDigit (d : Nat) : Char :=
  if d < 10 then Char.ofNat ('0'.toNat + d) else Char.ofNat ('a'.toNat + (d - 10))

/-- The last `width` hexadecimal digits of `n`. -/
def hexDigits : Nat → Nat → List Char
  | 0, _ => []
  | width + 1, n => hexDigits width (n / 16) ++ [hexDigit (n % 16)]

/-- A character by its code point. -/
def spellCode (code : Nat) : List Char :=
  if code < 0x100 then '\\' :: 'x' :: hexDigits 2 code
  else if code < 0x10000 then '\\' :: 'u' :: hexDigits 4 code
  else '\\' :: 'U' :: hexDigits 8 code

/-- The mark that encloses a text: double quotes exactly if it holds single quotes and no double
ones. -/
def quoteMark (cs : List Char) : Char :=
  if cs.contains '\'' && !cs.contains '"' then '"' else '\''

/-- A character inside a text that is enclosed in `mark`; `shown` says which characters stand for
themselves. -/
def spellChar (shown : Char → Bool) (mark c : Char) : List Char :=
  if c = mark || c = '\\' then ['\\', c]
  else if c = '\t' then ['\\', 't']
  else if c = '\n' then ['\\', 'n']
  else if c = '\r' then ['\\', 'r']
  else if shown c then [c]
  else spellCode c.toNat

/-- Characters in quotes. -/
def spellChars (shown : Char → Bool) (cs : List Char) : List Char :=
  let mark := quoteMark cs
  mark :: cs.flatMap (spellChar shown mark) ++ [mark]

/-- A text in quotes. -/
def spellText (s : String) : String := String.ofList (spellChars Text.isPrintable s.toList)

/-- Bytes in quotes, with the ASCII characters that can be shown as themselves. -/
def spellBytes (bs : List UInt8) : String :=
  let cs := bs.map fun b => Char.ofNat b.toNat
  String.ofList ('b' :: spellChars (fun c => 0x20 ≤ c.toNat && c.toNat < 0x7F) cs)

/-! ### Dates and moments -/

/-- Numbers with commas between them. -/
def spellNumbers (ns : List Nat) : String := ", ".intercalate (ns.map toString)

/-- A day as a call with its parts. -/
def Date.spell (d : Date) : String := s!"datetime.date({spellNumbers [d.year, d.month, d.day]})"

/-- A distance from universal time as a call; a negative one is a day less and a positive rest. -/
def spellOffset (offset : Int) : String :=
  if offset = 0 then "datetime.timezone.utc"
  else
    let days := if offset < 0 then "days=-1, " else ""
    let seconds := if offset < 0 then 86400 + offset * 60 else offset * 60
    let delta := s!"datetime.timedelta({days}seconds={seconds})"
    s!"datetime.timezone({delta})"

/-- A moment as a call with its parts, without zeros at the end of the seconds and their
fraction. -/
def Moment.spell (t : Moment) : String :=
  let fraction := if t.micro = 0 then [] else [t.micro]
  let seconds := if t.second = 0 && t.micro = 0 then [] else t.second :: fraction
  let parts := spellNumbers ([t.date.year, t.date.month, t.date.day, t.hour, t.minute] ++ seconds)
  let zone := match t.offset with
    | none => ""
    | some offset => s!", tzinfo={spellOffset offset}"
  s!"datetime.datetime({parts}{zone})"

/-! ### Values -/

/-- An atom spelled out. -/
def Atom.spell : Atom → String
  | .null => "None"
  | .bool b => if b then "True" else "False"
  | .int n => String.ofList (integerText n)
  | .float x => String.ofList (Layout.spelled.render x)
  | .text s => spellText s
  | .bytes bs => spellBytes bs
  | .date d => d.spell
  | .moment t => t.spell

/-- An atom as bare text: as it is spelled out, but for texts, dates and moments. -/
def Atom.plain : Atom → String
  | .text s => s
  | .date d => String.ofList d.iso
  | .moment t => String.ofList t.spaced
  | a => a.spell

mutual

/-- A value spelled out. -/
def Value.spell : Value → String
  | .atom a => a.spell
  | .list xs => "[" ++ ", ".intercalate (spellItems xs) ++ "]"
  | .tuple [x] => "(" ++ x.spell ++ ",)"
  | .tuple xs => "(" ++ ", ".intercalate (spellItems xs) ++ ")"
  | .set [] => "set()"
  | .set xs => "\x7b" ++ ", ".intercalate (xs.map Atom.spell) ++ "\x7d"
  | .map ms => "\x7b" ++ ", ".intercalate (spellMembers ms) ++ "\x7d"

/-- The items of a sequence spelled out. -/
def spellItems : List Value → List String
  | [] => []
  | v :: rest => v.spell :: spellItems rest

/-- The members of a mapping spelled out. -/
def spellMembers : Members Atom Value → List String
  | [] => []
  | (k, v) :: rest => (k.spell ++ ": " ++ v.spell) :: spellMembers rest

end

end ApiScribe
