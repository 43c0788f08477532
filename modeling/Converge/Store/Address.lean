import Converge.Config.Sections

/-!
# Addresses of databases

The address of the databases has the form `redis://<host>:<port>/`, with the host as it was
configured. `usable` says whether the address can be taken apart again: whoever writes separators
into the host changes where the parts end.

* The authority ends at the first `/`, `?` or `#`; a user name before the last `@` is set aside.
* A host is a bracketed group of hexadecimal fields or a name without the characters that are
  forbidden in a name; it may not be empty.
* A port has digits only and at most 65535; behind the authority only a number of a database may
  stand.
-/

namespace Converge.Store.Address

/-- Characters that no name of a host may hold. -/
def forbidden : List Char :=
  ['\x00', '\t', '\n', '\r', ' ', '#', '/', ':', '<', '>', '?', '@', '[', '\\', ']', '^', '|']

/-- Characters that are passed over wherever they stand. -/
def ignored (c : Char) : Bool := c == '\t' || c == '\n' || c == '\r'

def isHex (c : Char) : Bool :=
  c.isDigit || ('a' ≤ c && c ≤ 'f') || ('A' ≤ c && c ≤ 'F')

/-- A field of up to four hexadecimal digits. -/
def isField (f : List Char) : Bool := !f.isEmpty && f.length ≤ 4 && f.all isHex

def decimal (cs : List Char) : Nat := cs.foldl (fun n c => n * 10 + (c.toNat - '0'.toNat)) 0

/-- Four numbers below 256 between points. -/
def isDotted (cs : List Char) : Bool :=
  let parts := Text.splitAllChars '.' cs
  parts.length == 4 && parts.all fun p =>
    !p.isEmpty && p.all Char.isDigit && decimal p ≤ 255 && (p.length == 1 || p.head? != some '0')

/-- The number of fields that the parts between colons stand for, if all of them are fields. -/
def width? (parts : List (List Char)) : Option Nat :=
  match parts.reverse with
  | [] => some 0
  | last :: front =>
    if isDotted last && front.all isField then some (front.length + 2)
    else if parts.all isField then some parts.length
    else none

/-- The parts of a text between colons; none for the empty text. -/
def colonParts (cs : List Char) : List (List Char) :=
  if cs.isEmpty then [] else Text.splitAllChars ':' cs

/-- The places at which two colons stand, with the text before and behind. -/
def doubleColons : List Char → List Char → List (List Char × List Char)
  | _, [] => []
  | _, [_] => []
  | front, c :: d :: rest =>
    let here := if c == ':' && d == ':' then [(front.reverse, rest)] else []
    here ++ doubleColons (c :: front) (d :: rest)

/-- Eight fields, or fewer with one gap of two colons. -/
def isNumericHost (cs : List Char) : Bool :=
  match doubleColons [] cs with
  | [] => width? (colonParts cs) == some 8
  | [(front, behind)] =>
    match width? (colonParts front), width? (colonParts behind) with
    | some a, some b => a + b ≤ 7 && (colonParts front).all isField
    | _, _ => false
  | _ => false

/-- The host behind brackets, or the name. -/
def isHost (cs : List Char) : Bool :=
  match cs with
  | '[' :: rest =>
    match rest.reverse with
    | ']' :: inner => isNumericHost inner.reverse
    | _ => false
  | [] => false
  | cs => cs.all fun c => !forbidden.contains c

/-- The host and what follows it, given whether a bracket is open. -/
def takeHost (inside : Bool) : List Char → List Char × List Char
  | [] => ([], [])
  | c :: cs =>
    if c == ':' && !inside then ([], c :: cs)
    else
      let (h, rest) := takeHost (c == '[' || (inside && c != ']')) cs
      (c :: h, rest)

/-- The port is left out or is a number of 16 bits. -/
def isPort (cs : List Char) : Bool :=
  match cs with
  | [] => true
  | ':' :: digits => digits.all Char.isDigit && decimal digits ≤ 65535
  | _ => false

/-- What stands behind the last user mark. -/
def behindUser (cs : List Char) : List Char := (cs.reverse.takeWhile (· != '@')).reverse

/-- A number with a sign. -/
def isNumber (cs : List Char) : Bool :=
  let (negative, digits) :=
    match cs with
    | '-' :: rest => (true, rest)
    | '+' :: rest => (false, rest)
    | rest => (false, rest)
  !digits.isEmpty && digits.all Char.isDigit &&
    decimal digits < 0x8000000000000000 + (if negative then 1 else 0)

/-- The path is empty or holds the number of a database. -/
def isDatabase (path : List Char) : Bool :=
  let inner := ((path.dropWhile (· == '/')).reverse.dropWhile (· == '/')).reverse
  inner.isEmpty || isNumber inner

/-- The address of the configured databases can be taken apart. -/
def usable (c : StoreConfig) : Bool :=
  let cs := (c.host ++ ":" ++ toString c.port.toNat ++ "/").toList.filter fun c => !ignored c
  let ends (c : Char) : Bool := c == '/' || c == '?' || c == '#'
  let authority := behindUser (cs.takeWhile fun c => !ends c)
  let path := (cs.dropWhile fun c => !ends c).takeWhile fun c => c != '?' && c != '#'
  let (host, port) := takeHost false authority
  isHost host && isPort port && isDatabase path

/-- The databases as messages show them. -/
def describe (c : StoreConfig) : String :=
  "RedisStore \x7b config_db: " ++ toString c.configDb.toNat ++ ", state_db: " ++
    toString c.statusDb.toNat ++ " \x7d"

end Converge.Store.Address
