import ChunkScope.Text.Encoding
import ChunkScope.Text.Numeral

/-!
# URLs

A URL in the parts that it has, each in its one written form. Some URLs have a path made of names;
others have one that is just a text, and nothing can be put below it. Blanks at the ends of a URL,
and tabs and ends of lines anywhere in it, do not count.
-/

/-! ## Addresses of sixteen bytes

Eight groups of sixteen bits with colons between them. Two colons in a row stand for all groups that
are not written, which are zero, and the last two groups may be written as four decimal numbers. The
one written form leaves out the first of the longest runs of zeros, if it has at least two of
them. -/

namespace ChunkScope.Http.Ipv6

/-! ### Reading -/

/-- A group: up to four hexadecimal digits. -/
def group? (cs : List Char) : Option Nat :=
  if cs.length ≤ 4 then Numeral.natural? 16 cs else none

/-- A byte in decimal, without a zero in front. -/
def byte? (cs : List Char) : Option Nat :=
  if cs.head? = some '0' ∧ 1 < cs.length then none
  else (Numeral.natural? 10 cs).filter (· < 256)

/-- Two groups that are written as four decimal numbers. -/
def quad? (cs : List Char) : Option (List Nat) :=
  match (cs.splitOn '.').mapM byte? with
  | some [a, b, c, d] => some [a * 256 + b, c * 256 + d]
  | _ => none

/-- The groups between single colons, of which the last two may be decimal. -/
def groups? : List (List Char) → Option (List Nat)
  | [] => some []
  | [part] => if part.contains '.' then quad? part else (group? part).map fun group => [group]
  | part :: rest => do return (← group? part) :: (← groups? rest)

/-- What stands before and behind the first two colons in a row. -/
def splitGap? : List Char → Option (List Char × List Char)
  | [] => none
  | ':' :: ':' :: rest => some ([], rest)
  | c :: rest => (splitGap? rest).map fun (front, back) => (c :: front, back)

/-- The eight groups of an address. -/
def parse? (cs : List Char) : Option (List Nat) :=
  match splitGap? cs with
  | none => (groups? (cs.splitOn ':')).filter (·.length = 8)
  | some (front, back) => do
    let front ← if front = [] then some [] else (front.splitOn ':').mapM group?
    let back ← if back = [] then some [] else groups? (back.splitOn ':')
    if front.length + back.length < 8 then
      return front ++ List.replicate (8 - front.length - back.length) 0 ++ back
    else none

/-! ### Writing -/

/-- The place and the length of the first of the longest runs of zeros. -/
def longestGap : List Nat → Nat × Nat
  | [] => (0, 0)
  | group :: groups =>
    let here := ((group :: groups).takeWhile (· == 0)).length
    let (place, length) := longestGap groups
    if length ≤ here then (0, here) else (place + 1, length)

/-- Groups with colons between them. -/
def joined (groups : List Nat) : String :=
  ":".intercalate (groups.map Numeral.hex)

/-- An address as text. -/
def text (groups : List Nat) : String :=
  let (place, length) := longestGap groups
  if length < 2 then joined groups
  else joined (groups.take place) ++ "::" ++ joined (groups.drop (place + length))

end ChunkScope.Http.Ipv6

/-! ## Hosts

Names and addresses of hosts as they stand in URLs, in the one form that all ways of writing them
have in common: names in lower case, addresses of four bytes as four decimal numbers, and those of
sixteen bytes between brackets. Names are ASCII only. -/

namespace ChunkScope.Http.Host

/-- Characters that no host has. -/
def forbidden : List Char :=
  [' ', '#', '/', ':', '<', '>', '?', '@', '[', '\\', ']', '^', '|', '%', '\x7f']

/-- A character that the name of a host may have. -/
def isNameChar (c : Char) : Bool :=
  0x20 < c.toNat && c.toNat < 0x80 && !forbidden.contains c

/-! ### Addresses of four bytes -/

/-- The parts of a name between its points, without an empty one at its end. -/
def labels (name : List Char) : List (List Char) :=
  let all := name.splitOn '.'
  if 1 < all.length ∧ all.getLast? = some [] then all.dropLast else all

/-- A number in an address: hexadecimal after `0x`, octal after another zero, else decimal. -/
def number? : List Char → Option Nat
  | ['0', 'x'] | ['0', 'X'] => some 0
  | '0' :: 'x' :: rest | '0' :: 'X' :: rest => Numeral.natural? 16 rest
  | '0' :: c :: rest => Numeral.natural? 8 (c :: rest)
  | cs => Numeral.natural? 10 cs

/-- Whether the last label makes a name an address. -/
def endsInNumber (name : List Char) : Bool :=
  match (labels name).getLast? with
  | none | some [] => false
  | some label => label.all Digit.isDecimal || (number? label).isSome

/-- The four bytes of an address of at most four numbers, the last of which fills what the others
leave. -/
def address? (name : List Char) : Option Nat := do
  let numbers ← (labels name).mapM number?
  let last ← numbers.getLast?
  let front := numbers.dropLast
  if numbers.length ≤ 4 ∧ front.all (· < 256) ∧ last < Nat.pow 256 (5 - numbers.length) then
    return Numeral.ofDigits 256 front * Nat.pow 256 (4 - front.length) + last
  else none

/-- An address as four decimal numbers. -/
def addressText (address : Nat) : String :=
  ".".intercalate ((Numeral.fixedDigits 256 4 address).map Numeral.decimal)

/-! ### Hosts -/

/-- A host between brackets, which is an address of sixteen bytes. -/
def bracketed? (text : List Char) : Option String :=
  match text with
  | '[' :: rest =>
    if rest.getLast? = some ']' then
      (Ipv6.parse? rest.dropLast).map fun groups => "[" ++ Ipv6.text groups ++ "]"
    else none
  | _ => none

/-- The host that a text in the URL of a scheme of its own writes: any text, with what is no
printable ASCII escaped. -/
def opaque? (text : List Char) : Option String :=
  if text.head? = some '[' then bracketed? text
  else if text.any fun c => c.toNat = 0 || (c ≠ '%' && c ≠ '\x7f' && forbidden.contains c) then none
  else
    some (String.ofList (Percent.encode Percent.isPrintable (String.ofList text)))

/-- The host that a text in the URL of a usual scheme writes. -/
def parse? (text : List Char) : Option String :=
  if text.head? = some '[' then bracketed? text
  else do
    let name := (← Percent.decode? text).toList.map Char.toLower
    if name = [] ∨ !name.all isNameChar then none
    else if endsInNumber name then (address? name).map addressText
    else return String.ofList name

end ChunkScope.Http.Host

/-! ## URLs -/

namespace ChunkScope.Http

/-- The path of a URL: a text that is no path of names, or names with a slash before each. -/
inductive Url.Path where
  | opaqueText (text : String)
  | named (names : List String)
deriving DecidableEq

/-- Who answers for a URL: a user and a password, as they are written before the host, the name or
address of the host, and the port, unless it is the usual one. -/
structure Url.Authority where
  user : Option String
  host : String
  port : Option Nat
deriving DecidableEq

/-- A URL. The query is what follows the question mark, the fragment what follows the number
sign. -/
structure Url where
  scheme : String
  authority : Option Url.Authority
  path : Url.Path
  query : Option String
  fragment : Option String
deriving DecidableEq

namespace Url

/-! ### Writing -/

/-- The host and the port. -/
def Authority.place (authority : Authority) : String :=
  authority.host ++ (authority.port.map fun port => ":" ++ Numeral.decimal port).getD ""

/-- An authority as text. -/
def Authority.text (authority : Authority) : String :=
  (authority.user.map (· ++ "@")).getD "" ++ authority.place

/-- A path as text. -/
def Path.text : Path → String
  | opaqueText text => text
  | named names => String.join (names.map ("/" ++ ·))

/-- The path and the query: what a request to the host asks for. -/
def target (url : Url) : String :=
  url.path.text ++ (url.query.map ("?" ++ ·)).getD ""

/-- Whether a URL is spoken to in HTTP, be it plain or through an encrypted connection. -/
def IsHttp (url : Url) : Prop :=
  url.scheme = "http" ∨ url.scheme = "https"

instance : DecidablePred IsHttp := fun url =>
  inferInstanceAs (Decidable (url.scheme = "http" ∨ url.scheme = "https"))

/-- A URL as text. -/
def text (url : Url) : String :=
  url.scheme ++ ":" ++ (url.authority.map fun authority => "//" ++ authority.text).getD "" ++
    url.target ++ (url.fragment.map ("#" ++ ·)).getD ""

/-! ### Characters that are written as they are -/

/-- Whether a byte stands for itself: it is printable, no space and none of some characters. -/
def isKept (but : List Char) (b : UInt8) : Bool :=
  Percent.isPrintable b && b != 0x20 && !but.contains (Char.ofNat b.toNat)

/-- What is escaped in a fragment. -/
def fragmentEscapes : List Char := ['"', '<', '>', '\x60']

/-- What is escaped in a path. -/
def pathEscapes : List Char := fragmentEscapes ++ ['#', '?', '\x7b', '\x7d']

/-- What is escaped in a name that is put below a path. -/
def nameEscapes (isSpecial : Bool) : List Char :=
  pathEscapes ++ ['/', '%'] ++ if isSpecial then ['\\'] else []

/-- What is escaped in a user and a password. -/
def userEscapes : List Char := pathEscapes ++ ['/', ';', '=', '@', '[', '\\', ']', '^', '|']

/-- What is escaped in a query. -/
def queryEscapes (isSpecial : Bool) : List Char :=
  ['"', '#', '<', '>'] ++ if isSpecial then ['\x27'] else []

/-- A text with some characters escaped. -/
def encode (escapes : List Char) (cs : List Char) : String :=
  String.ofList (Percent.encode (isKept escapes) (String.ofList cs))

/-! ### Paths -/

/-- A name that means the directory that it is in. -/
def isDot (name : List Char) : Bool :=
  name.map Char.toLower ∈ [".".toList, "%2e".toList]

/-- A name that means the directory above. -/
def isDoubleDot (name : List Char) : Bool :=
  name.map Char.toLower ∈
    ["..".toList, "%2e.".toList, ".%2e".toList, "%2e%2e".toList]

/-- The names of a path, with those resolved that mean a directory; such a one at the end leaves an
empty name behind. -/
def resolve : List String → List (List Char) → List String
  | found, [] => found
  | found, name :: rest =>
    let behind := if rest = [] then [""] else []
    if isDoubleDot name then resolve (found.dropLast ++ behind) rest
    else if isDot name then resolve (found ++ behind) rest
    else resolve (found ++ [encode pathEscapes name]) rest

/-- What separates the names of a path: a slash, which may lean back in special URLs. -/
def isSlash (isSpecial : Bool) (c : Char) : Bool :=
  c == '/' || (isSpecial && c == '\\')

/-- The names of a path; the path of a special URL has at least one. -/
def parsePath (isSpecial : Bool) (cs : List Char) : List String :=
  match cs with
  | [] => if isSpecial then [""] else []
  | c :: rest =>
    let names := if isSlash isSpecial c then rest else c :: rest
    resolve [] (names.splitOnP (isSlash isSpecial))

/-- A path that is just a text. -/
def opaquePath (cs : List Char) : Path :=
  .opaqueText (String.ofList (Percent.encode Percent.isPrintable (String.ofList cs)))

/-! ### Reading -/

/-- The schemes whose URLs always have an authority, and their usual ports; that of a file has
none. -/
def specialSchemes : List (String × Option Nat) :=
  [("http", some 80), ("https", some 443), ("ws", some 80), ("wss", some 443), ("ftp", some 21),
    ("file", none)]

/-- Whether a scheme is one of those. -/
def isSpecialScheme (scheme : String) : Bool :=
  (specialSchemes.lookup scheme).isSome

/-- A character that a scheme may have behind its first letter. -/
def isSchemeChar (c : Char) : Bool :=
  c.isAlphanum || c == '+' || c == '-' || c == '.'

/-- The scheme of a URL and what follows its colon. -/
def scheme? (cs : List Char) : Option (String × List Char) :=
  match cs.takeWhile isSchemeChar, cs.dropWhile isSchemeChar with
  | c :: name, ':' :: rest =>
    if c.isAlpha then some (String.ofList ((c :: name).map Char.toLower), rest) else none
  | _, _ => none

/-- The port that some digits write; none are the usual one. -/
def port? (usual : Option Nat) (digits : List Char) : Option (Option Nat) :=
  match digits with
  | [] => some none
  | digits => do
    let port ← Numeral.natural? 10 digits
    if port < UInt16.size then return if some port = usual then none else some port else none

/-- The host and the port in the part of a URL that tells who answers for it. -/
def splitPort (place : List Char) : List Char × List Char :=
  let behind := (place.reverse.takeWhile fun c => c ≠ ':' && c ≠ ']').reverse
  let front := place.take (place.length - behind.length)
  if front.getLast? = some ':' then (front.dropLast, behind) else (place, [])

/-- The part of a URL that tells who answers for it. -/
def authority? (host? : List Char → Option String) (usual : Option Nat) (cs : List Char) :
    Option Authority := do
  let place := (cs.reverse.takeWhile (· ≠ '@')).reverse
  let user := cs.take (cs.length - place.length - 1)
  let (host, digits) := splitPort place
  let host ← host? host
  let port ← port? usual digits
  let user := if user = [] then none else some (encode (userEscapes.filter (· ≠ ':')) user)
  return ⟨user, host, port⟩

/-- The path, the query and the fragment in what follows the scheme and the authority. -/
def splitTail (cs : List Char) : List Char × Option (List Char) × Option (List Char) :=
  let hash := cs.dropWhile (· ≠ '#')
  let front := cs.takeWhile (· ≠ '#')
  let question := front.dropWhile (· ≠ '?')
  let behind (cs : List Char) : Option (List Char) := if cs = [] then none else some cs.tail
  (front.takeWhile (· ≠ '?'), behind question, behind hash)

/-- A URL with the path that some characters write, and what follows them. -/
def ofTail (scheme : String) (authority : Option Authority) (isOpaque : Bool) (cs : List Char) :
    Url :=
  let isSpecial := isSpecialScheme scheme
  let (path, query, fragment) := splitTail cs
  { scheme, authority
    path := if isOpaque then opaquePath path else .named (parsePath isSpecial path)
    query := query.map (encode (queryEscapes isSpecial))
    fragment := fragment.map (encode fragmentEscapes) }

/-- A text without what does not count in a URL. -/
def clean (text : String) : List Char :=
  let isOuter (c : Char) : Bool := c.toNat ≤ 0x20
  let inner := ((text.toList.dropWhile isOuter).reverse.dropWhile isOuter).reverse
  inner.filter fun c => c ≠ '\t' && c ≠ '\n' && c ≠ '\r'

/-- What ends the part of a URL that tells who answers for it. -/
def endsPlace (isSpecial : Bool) (c : Char) : Bool :=
  isSlash isSpecial c || c == '?' || c == '#'

/-- A URL of a special scheme with a port, from behind its colon. -/
def parseSpecial? (scheme : String) (port : Nat) (cs : List Char) : Option Url := do
  let cs := cs.dropWhile (isSlash true)
  let authority ← authority? Host.parse? (some port) (cs.takeWhile (!endsPlace true ·))
  return ofTail scheme (some authority) false (cs.dropWhile (!endsPlace true ·))

/-- A URL of a file, from behind its colon: the host may be left out, and the local one has no
name. -/
def parseFile? (cs : List Char) : Option Url := do
  let behind := cs.drop 2
  if (cs.takeWhile (isSlash true)).length < 2 then
    return ofTail "file" (some ⟨none, "", none⟩) false cs
  else
    let place := behind.takeWhile (!endsPlace true ·)
    let host ← if place = [] then some "" else Host.parse? place
    return ofTail "file" (some ⟨none, if host = "localhost" then "" else host, none⟩) false
      (behind.dropWhile (!endsPlace true ·))

/-- A URL of any other scheme, from behind its colon. -/
def parseOther? (scheme : String) (cs : List Char) : Option Url := do
  match cs with
  | '/' :: '/' :: cs =>
    let place := cs.takeWhile (!endsPlace false ·)
    let authority ←
      if place = [] then some ⟨none, "", none⟩ else authority? Host.opaque? none place
    return ofTail scheme (some authority) false (cs.dropWhile (!endsPlace false ·))
  | '/' :: _ => return ofTail scheme none false cs
  | _ => return ofTail scheme none true cs

/-- The URL that a text writes. -/
def parse? (text : String) : Option Url := do
  let (scheme, cs) ← scheme? (clean text)
  match specialSchemes.lookup scheme with
  | some (some port) => parseSpecial? scheme port cs
  | some none => parseFile? cs
  | none => parseOther? scheme cs

/-! ### Names below a path -/

/-- A name as it is put below a path: tabs and ends of lines are left out of it. -/
def nameText (isSpecial : Bool) (name : String) : String :=
  encode (nameEscapes isSpecial)
    (name.toList.filter fun c => c ≠ '\t' && c ≠ '\n' && c ≠ '\r')

/-- Puts a name below a path. The names for a directory add nothing; one that turns into such a name
when its tabs are left out is resolved. -/
def push (isSpecial : Bool) (names : List String) (name : String) : List String :=
  if name = "." ∨ name = ".." then names
  else
    let front := if names = [""] then [] else names
    let last := nameText isSpecial name
    if last = ".." then front.dropLast ++ [""]
    else if last = "." then front ++ [""]
    else front ++ [last]

/-- The URL with names below its path, unless it has no path of names. -/
def below? (url : Url) (added : List String) : Option Url :=
  match url.path with
  | .opaqueText _ => none
  | .named names =>
    let isSpecial := isSpecialScheme url.scheme
    some { url with path := .named (added.foldl (push isSpecial) names) }

end Url

end ChunkScope.Http
