/-
**The path of a URL.**

A URL is cleared of the controls that must not be in it.  Then its scheme, its authority, its query
and its fragment are taken off, and what is left is its path, of which the percent escapes are
decoded.

Main definitions:

* `ApiScribe.UrlError`, `ApiScribe.UrlError.message` — why a URL is refused;
* `ApiScribe.Url.rawPath` — the path as it is written;
* `ApiScribe.Url.unescape` — a text without percent escapes;
* `ApiScribe.pathOf` — the decoded path of a URL.
-/

import ApiScribe.Data.Spelling
import ApiScribe.Text.Utf8
import ApiScribe.Url.Address
import ApiScribe.Url.HostHazard

set_option autoImplicit false

namespace ApiScribe

/-- Why a URL is refused. -/
inductive UrlError where
  /-- The authority has an opening bracket without a closing one, or the reverse. -/
  | unbalancedBrackets
  /-- The host in brackets starts as an address of a later version and is not one. -/
  | invalidFutureAddress
  /-- The host in brackets is an address of four bytes. -/
  | bracketedAddress4
  /-- The host in brackets is no address. -/
  | notAnAddress (host : String)
  /-- The authority holds a character whose compatibility form holds a delimiter. -/
  | hazardousAuthority (authority : String)
  deriving DecidableEq, Repr

/-- What is said about the cause. -/
def UrlError.message : UrlError → String
  | .unbalancedBrackets => "Invalid IPv6 URL"
  | .invalidFutureAddress => "IPvFuture address is invalid"
  | .bracketedAddress4 => "An IPv4 address cannot be in brackets"
  | .notAnAddress host => s!"{spellText host} does not appear to be an IPv4 or IPv6 address"
  | .hazardousAuthority authority =>
    s!"netloc '{authority}' contains invalid characters under NFKC normalization"

namespace Url

/-! ### Parts of a URL -/

/-- A URL without controls and blanks at its start, and without line breaks and tabs. -/
def clear (cs : List Char) : List Char :=
  (cs.dropWhile fun c => c.toNat ≤ 0x20).filter fun c => !(c = '\t' || c = '\r' || c = '\n')

/-- Whether `c` may stand in a scheme. -/
def isSchemeChar (c : Char) : Bool := c.isAlphanum || c = '+' || c = '-' || c = '.'

/-- A URL without its scheme. -/
def dropScheme (cs : List Char) : List Char :=
  let scheme := cs.takeWhile (· ≠ ':')
  match cs.dropWhile (· ≠ ':') with
  | _ :: rest =>
    if (scheme.head?.any Char.isAlpha) && scheme.all isSchemeChar then rest else cs
  | [] => cs

/-- Whether `c` ends an authority. -/
def endsAuthority (c : Char) : Bool := c = '/' || c = '?' || c = '#'

/-- The authority of a URL without its scheme, and what follows it. -/
def takeAuthority : List Char → List Char × List Char
  | '/' :: '/' :: rest =>
    (rest.takeWhile (!endsAuthority ·), rest.dropWhile (!endsAuthority ·))
  | cs => ([], cs)

/-- What stands between the first opening bracket and the next closing one. -/
def bracketedHost (authority : List Char) : List Char :=
  ((authority.dropWhile (· ≠ '[')).drop 1).takeWhile (· ≠ ']')

/-- Refuses a host in brackets that is not an address of eight groups or of a later version. -/
def checkHost (host : List Char) : Except UrlError Unit :=
  if host.head? = some 'v' then
    if isFutureAddress host then .ok () else .error .invalidFutureAddress
  else if isAddress4 host then .error .bracketedAddress4
  else if isAddress6 host then .ok ()
  else .error (.notAnAddress (String.ofList host))

/-- Refuses an authority that is not well formed. -/
def checkAuthority (authority : List Char) : Except UrlError Unit :=
  let brackets : Except UrlError Unit :=
    match authority.contains '[', authority.contains ']' with
    | true, true => checkHost (bracketedHost authority)
    | false, false => .ok ()
    | _, _ => .error .unbalancedBrackets
  match brackets with
  | .error e => .error e
  | .ok () =>
    if authority.any isHostHazard then .error (.hazardousAuthority (String.ofList authority))
    else .ok ()

/-- The path of a URL as it is written. -/
def rawPath (url : List Char) : Except UrlError (List Char) :=
  let (authority, rest) := takeAuthority (dropScheme (clear url))
  match checkAuthority authority with
  | .error e => .error e
  | .ok () => .ok ((rest.takeWhile (· ≠ '#')).takeWhile (· ≠ '?'))

/-! ### Percent escapes -/

/-- The byte of two hexadecimal digits. -/
def escapedByte? (a b : Char) : Option UInt8 :=
  if isHexDigit a && isHexDigit b then some (UInt8.ofNat (natOfDigits 16 [a, b])) else none

/-- Decodes a text of which the bytes in `pending`, in reverse, are already read.  Neighbouring
ASCII characters and escapes are bytes of one UTF-8 text; other characters stand for themselves. -/
def unescapeAfter (pending : List UInt8) : List Char → List Char
  | [] => Utf8.decodeReplacing pending.reverse
  | '%' :: a :: b :: rest =>
    match escapedByte? a b with
    | some byte => unescapeAfter (byte :: pending) rest
    | none => unescapeAfter (UInt8.ofNat '%'.toNat :: pending) (a :: b :: rest)
  | c :: rest =>
    if c.toNat < 0x80 then unescapeAfter (UInt8.ofNat c.toNat :: pending) rest
    else Utf8.decodeReplacing pending.reverse ++ c :: unescapeAfter [] rest

/-- A text without percent escapes. -/
def unescape (cs : List Char) : List Char := unescapeAfter [] cs

end Url

/-- The decoded path of a URL; an empty path is that of the root. -/
def pathOf (url : String) : Except UrlError String :=
  (Url.rawPath url.toList).map fun path =>
    let path := Url.unescape path
    String.ofList (if path.isEmpty then ['/'] else path)

end ApiScribe
