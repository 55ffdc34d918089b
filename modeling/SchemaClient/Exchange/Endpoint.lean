/-!
# Endpoints

The address of a server: a scheme, a host, perhaps with a service number and credentials, and
whatever follows. A request can be sent to it if the scheme is one of HTTP and host and service
number are well formed. A host that ends in a number is an IPv4 address, one in brackets an IPv6
address.

This is the check a client makes unless it is given another one. It reads hosts of ASCII as the URL
standard does; the mapping of international names to ASCII, which folds full-width digits and
refuses what is not UTF-8, is left out.
-/

namespace SchemaClient.Endpoint

/-- The address without blanks at its ends and line ends in it. -/
def cleaned (cs : List Char) : List Char :=
  let isEdge (c : Char) : Bool := c ≤ ' '
  ((cs.dropWhile isEdge).reverse.dropWhile isEdge).reverse.filter fun c =>
    c ≠ '\t' && c ≠ '\n' && c ≠ '\r'

def isSlash (c : Char) : Bool := c = '/' || c = '\\'

/-- What stands between the scheme and the path of an HTTP address. -/
def authority? (cs : List Char) : Option (List Char) :=
  let scheme := cs.takeWhile (· ≠ ':')
  if ["http", "https"].contains (String.ofList (scheme.map Char.toLower))
      && scheme.length < cs.length then
    some (((cs.drop (scheme.length + 1)).dropWhile isSlash).takeWhile fun c =>
      !isSlash c && c ≠ '?' && c ≠ '#')
  else none

/-- What follows the credentials. -/
def withoutCredentials (cs : List Char) : List Char :=
  if cs.contains '@' then (cs.reverse.takeWhile (· ≠ '@')).reverse else cs

def number? (base : Nat) (digit : Char → Option Nat) (cs : List Char) : Option Nat :=
  cs.foldlM (fun n c => (digit c).map fun d => n * base + d) 0

def hexValue? (c : Char) : Option Nat :=
  if c.isDigit then some (c.toNat - '0'.toNat)
  else if 'a' ≤ c.toLower && c.toLower ≤ 'f' then some (c.toLower.toNat - 'a'.toNat + 10)
  else none

def digitBelow? (base : Nat) (c : Char) : Option Nat :=
  (hexValue? c).filter (· < base)

/-- A part of an IPv4 address: decimal, octal behind `0`, or hexadecimal behind `0x`. -/
def addressNumber? (cs : List Char) : Option Nat :=
  match cs with
  | [] => none
  | ['0'] => some 0
  | '0' :: 'x' :: rest | '0' :: 'X' :: rest => number? 16 hexValue? rest
  | '0' :: rest => number? 8 (digitBelow? 8) rest
  | cs => number? 10 (digitBelow? 10) cs

def labels (host : List Char) : List (List Char) :=
  let parts := host.splitOn '.'
  match parts.reverse with
  | [] :: front => if front.isEmpty then parts else front.reverse
  | _ => parts

/-- Whether the last label makes a host an IPv4 address. -/
def endsInNumber (host : List Char) : Bool :=
  match (labels host).getLast? with
  | some last =>
    (!last.isEmpty && last.all Char.isDigit) ||
      (match last with
        | '0' :: 'x' :: rest | '0' :: 'X' :: rest => rest.all fun c => (hexValue? c).isSome
        | _ => false)
  | none => false

/-- All numbers but the last are bytes; the last fills the bytes that remain. -/
def isAddress4 (host : List Char) : Bool :=
  match (labels host).mapM addressNumber? with
  | none => false
  | some numbers =>
    match numbers.reverse with
    | [] => false
    | last :: front =>
      front.length ≤ 3 && front.all (· ≤ 255) && last < Nat.pow 256 (4 - front.length)

/-- Four decimal bytes without leading zeros. -/
def isDottedTail (cs : List Char) : Bool :=
  let parts := cs.splitOn '.'
  parts.length = 4 && parts.all fun p =>
    !p.isEmpty && p.all Char.isDigit && (p.length = 1 || p.head? ≠ some '0') &&
      p.length ≤ 3 && (number? 10 (digitBelow? 10) p).any (· ≤ 255)

/-- The number of 16-bit groups between colons, if all are well formed. -/
def groups? (allowTail : Bool) (cs : List Char) : Option Nat :=
  if cs.isEmpty then some 0
  else
    let parts := cs.splitOn ':'
    let isGroup (p : List Char) : Bool :=
      !p.isEmpty && p.length ≤ 4 && p.all fun c => (hexValue? c).isSome
    match parts.reverse with
    | [] => none
    | last :: front =>
      if !front.all isGroup then none
      else if isGroup last then some parts.length
      else if allowTail && isDottedTail last then some (parts.length + 1)
      else none

/-- The text before and after the first `::`. -/
def splitGap? : List Char → Option (List Char × List Char)
  | [] => none
  | ':' :: ':' :: rest => some ([], rest)
  | c :: cs => (splitGap? cs).map fun (before, after) => (c :: before, after)

/-- Eight groups, of which `::` may stand for one or more. -/
def isAddress6 (cs : List Char) : Bool :=
  match splitGap? cs with
  | none => groups? true cs = some 8
  | some (before, after) =>
    match groups? false before, groups? true after with
    | some a, some b => a + b ≤ 7
    | _, _ => false

/-- A host with its percent-encoded bytes decoded. -/
def decoded : List Char → List Char
  | '%' :: a :: b :: rest =>
    match hexValue? a, hexValue? b with
    | some x, some y => Char.ofNat (x * 16 + y) :: decoded rest
    | _, _ => '%' :: decoded (a :: b :: rest)
  | c :: rest => c :: decoded rest
  | [] => []

def isForbidden (c : Char) : Bool :=
  c ≤ ' ' || c = '\x7f' || "#/:<>?@[\\]^|%".toList.contains c

def isHost (cs : List Char) : Bool :=
  let host := decoded cs
  !host.isEmpty && !host.any isForbidden && (!endsInNumber host || isAddress4 host)

def isServiceNumber (cs : List Char) : Bool :=
  cs.all Char.isDigit && (number? 10 (digitBelow? 10) cs).any (· ≤ 65535)

/-- Whether nothing or a service number follows the host. -/
def isHostSuffix (cs : List Char) : Bool :=
  match cs with
  | [] => true
  | ':' :: digits => isServiceNumber digits
  | _ => false

/-- Whether a request can be sent to an address. -/
def isValid (endpoint : String) : Bool :=
  match (authority? (cleaned endpoint.toList)).map withoutCredentials with
  | none => false
  | some ('[' :: rest) =>
    match rest.span (· ≠ ']') with
    | (address, _ :: suffix) => isAddress6 address && isHostSuffix suffix
    | _ => false
  | some cs => isHost (cs.takeWhile (· ≠ ':')) && isHostSuffix (cs.dropWhile (· ≠ ':'))

end SchemaClient.Endpoint
