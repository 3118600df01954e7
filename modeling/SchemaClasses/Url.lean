import SchemaClasses.Format.Address
import SchemaClasses.Url.Domain
import SchemaClasses.Validation.Content

/-! Absolute addresses with their hosts, and references relative to them. -/

namespace SchemaClasses

/-! The hosts of addresses. -/

namespace Host

/-- The value of a hexadecimal digit. -/
def hexValue (c : Char) : Nat :=
  if c.isDigit then c.toNat - '0'.toNat else c.toLower.toNat - 'a'.toNat + 10

/-- The bytes of a text, in which a percent sign and two digits stand for one of them. -/
def bytes : List Char → List Nat
  | '%' :: a :: b :: rest =>
    if isHexDigit a && isHexDigit b then (hexValue a * 16 + hexValue b) :: bytes rest
    else '%'.toNat :: bytes (a :: b :: rest)
  | c :: rest => (String.singleton c).toUTF8.toList.map UInt8.toNat ++ bytes rest
  | [] => []
termination_by text => text.length

/-- The number that a part of an address of four bytes stands for: decimal, or octal behind a zero,
or hexadecimal behind `0x`. -/
def ipv4Part? (part : List Char) : Option Nat :=
  let value (base : Nat) (isDigit : Char → Bool) (digits : List Char) : Option Nat :=
    if digits.all isDigit then some (digits.foldl (fun n c => n * base + hexValue c) 0) else none
  match part with
  | [] => none
  | '0' :: 'x' :: rest | '0' :: 'X' :: rest => value 16 isHexDigit rest
  | '0' :: c :: rest => value 8 (fun c => '0' ≤ c && c ≤ '7') (c :: rest)
  | digits => value 10 Char.isDigit digits

/-- The parts between dots, without an empty one at the end. -/
def parts (domain : List Char) : List (List Char) :=
  let parts := cut '.' domain
  if 1 < parts.length && parts.getLast? == some [] then parts.dropLast else parts

/-- Whether a domain ends in a number, so that it must be an address of four bytes. -/
def endsInNumber (domain : List Char) : Bool :=
  (parts domain).getLast?.any fun last =>
    (!last.isEmpty && last.all Char.isDigit) || (ipv4Part? last).isSome

/-- An address of four bytes, of which the last number may stand for several. -/
def isIpv4Address (domain : List Char) : Bool :=
  match (parts domain).mapM ipv4Part? with
  | some numbers =>
    numbers.length ≤ 4 && numbers.dropLast.all (· ≤ 255)
      && numbers.getLast?.any (· < Nat.pow 256 (5 - numbers.length))
  | none => false

/-- The characters that no domain has. -/
def isForbidden (c : Char) : Bool := c.toNat ≤ 0x20 || c ∈ "#%/:<>?@[\\]^|\x7f".toList

/-- The text in brackets is an address of sixteen bytes. -/
def isBracketed (text : List Char) : Bool :=
  text.getLast? == some ']' && isIpv6 (text.drop 1).dropLast

/-- Whether a text is a host of one of the schemes that speak of hosts. -/
def isDomain (text : List Char) : Bool :=
  if text.head? = some '[' then isBracketed text
  else
    match (Utf8.decode (bytes text)).toOption.bind fun decoded => Domain.toPlain? decoded.toList with
    | some domain =>
      !domain.isEmpty && !domain.any isForbidden
        && (!endsInNumber domain || isIpv4Address domain)
    | none => false

/-- Whether a text is a host of another scheme. -/
def isOpaque (text : List Char) : Bool :=
  if text.head? = some '[' then isBracketed text
  else !text.any fun c => c == '\x00' || c ∈ "\t\n\r #/:<>?@[\\]^|".toList

end Host

/-! Absolute addresses, and references relative to them. -/

/-- What a reference to another address depends on. -/
structure Url where
  scheme : List Char
  /-- Nothing but a fragment can be relative to the address. -/
  isOpaque : Bool
deriving DecidableEq, Repr

namespace Url

/-- How the parts of an address are written, which depends on its scheme. -/
inductive SchemeKind where
  | file
  /-- The address has a host. -/
  | web
  | other
deriving DecidableEq, Repr

/-- The kind of a scheme. -/
def kindOf (scheme : List Char) : SchemeKind :=
  if scheme = "file".toList then .file
  else if scheme ∈ ["http", "https", "ws", "wss", "ftp"].map String.toList then .web
  else .other

/-- The characters of an address that count. -/
def counting (text : String) : List Char :=
  let isOuter (c : Char) : Bool := c.toNat ≤ 0x20
  let inner := ((text.toList.dropWhile isOuter).reverse.dropWhile isOuter).reverse
  inner.filter fun c => c != '\t' && c != '\n' && c != '\r'

/-- The scheme in lower case, and the text behind its colon. -/
def cutScheme? (text : List Char) : Option (List Char × List Char) :=
  let isPart (c : Char) : Bool := c.isAlphanum || c == '+' || c == '-' || c == '.'
  let scheme := text.takeWhile isPart
  match text.drop scheme.length with
  | ':' :: rest =>
    if scheme.head?.any Char.isAlpha then some (scheme.map Char.toLower, rest) else none
  | _ => none

/-- Whether a character separates the parts of a path. -/
def isSlash (c : Char) : Bool := c == '/' || c == '\\'

/-- Whether a character ends the host and what belongs to it. -/
def endsAuthority (kind : SchemeKind) (c : Char) : Bool :=
  c == '/' || c == '?' || c == '#' || (c == '\\' && kind != .other)

/-- Whether a port is a number of 16 bits, if there is one. A backslash ends it in any case. -/
def isPort (text : List Char) : Bool :=
  let digits := text.takeWhile (· != '\\')
  digits.all Char.isDigit
    && digits.foldl (fun n c => min 65536 (n * 10 + (c.toNat - '0'.toNat))) 0 < 65536

/-- The host up to a colon outside of brackets, and the text from there on. -/
def cutHost (inBrackets : Bool) : List Char → List Char × List Char
  | [] => ([], [])
  | c :: rest =>
    if c = ':' ∧ !inBrackets then ([], c :: rest)
    else
      let (host, port) := cutHost (if c = '[' then true else if c = ']' then false else inBrackets) rest
      (c :: host, port)

/-- Whether a host and a port are valid; only a scheme that does not speak of hosts can do without a
host, and then also without a port and without a user. -/
def isHostAndPort (kind : SchemeKind) (hasUser : Bool) (text : List Char) : Bool :=
  let (host, port) := cutHost false text
  let isHost := if kind = .other then Host.isOpaque host else !host.isEmpty && Host.isDomain host
  isHost && (!host.isEmpty || (port.isEmpty && !hasUser)) && isPort (port.drop 1)

/-- Whether the text behind two slashes starts with a valid host and what belongs to it: a user in
front of the last at sign, and a port. -/
def isAuthority (kind : SchemeKind) (text : List Char) : Bool :=
  let authority := text.takeWhile (!endsAuthority kind ·)
  match (cut '@' authority).reverse with
  | host :: user :: users =>
    let credentials := List.intercalate ['@'] (user :: users).reverse
    -- Nothing may not stand behind nothing but an at sign.
    !(credentials.isEmpty && host.isEmpty && text.length != authority.length)
      && isHostAndPort kind (!credentials.isEmpty && credentials != [':']) host
  | _ => isHostAndPort kind false authority

/-- Whether a text is the letter of a drive. -/
def isDrive (text : List Char) : Bool :=
  match text with
  | [letter, sign] => letter.isAlpha && (sign == ':' || sign == '|')
  | _ => false

/-- Whether the text of a file's address behind its scheme is valid: there need not be a host. -/
def isFilePart (text : List Char) : Bool :=
  match text with
  | a :: b :: rest =>
    if isSlash a && isSlash b then
      let host := rest.takeWhile (!endsAuthority .file ·)
      isDrive host || host.isEmpty || Host.isDomain host
    else true
  | _ => true

/-- The text behind the first two slashes, of which there may be more. -/
def behindSlashes? (text : List Char) : Option (List Char) :=
  let slashes := text.takeWhile isSlash
  if slashes.length < 2 then none
  else match text with
    | '/' :: '/' :: rest => some rest
    | _ => some (text.drop slashes.length)

/-- A reference without a scheme of its own. -/
def relative? (base : Url) (text : List Char) : Option Url :=
  if text.head? = some '#' then some base
  else if base.isOpaque then none
  else match kindOf base.scheme with
    | .file => if isFilePart text then some base else none
    | kind =>
      match behindSlashes? text with
      | some rest => if isAuthority kind rest then some base else none
      | none => some base

/-- A reference with a scheme. -/
def absolute? (base : Option Url) (scheme text : List Char) : Option Url :=
  let found : Url := ⟨scheme, false⟩
  match kindOf scheme with
  | .file => if isFilePart text then some found else none
  | .web =>
    let slashes := text.takeWhile isSlash
    if base.any (·.scheme == scheme) && slashes.length < 2 then some found
    else if isAuthority .web (text.drop slashes.length) then some found
    else none
  | .other =>
    match text with
    | '/' :: '/' :: rest => if isAuthority .other rest then some found else none
    | '/' :: _ => some found
    | _ => some ⟨scheme, true⟩

/-- The address that a text stands for, which may be relative to another one. -/
def parse? (base : Option Url) (text : String) : Option Url :=
  let letters := counting text
  match cutScheme? letters with
  | some (scheme, rest) => absolute? base scheme rest
  | none => base.bind fun base => relative? base letters

end Url

end SchemaClasses
