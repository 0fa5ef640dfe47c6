import ChunkScope.Http.Url
import ChunkScope.Text.Encoding
import ChunkScope.Text.Numeral
import ChunkScope.Text.Unicode

/-!
# Requests and responses

As much of the two as nodes and their clients look at: methods, status codes, the types that
contents are declared to be, and the bytes that go over a connection.
-/

/-! ## Status codes -/

namespace ChunkScope.Http.Status

/-- The registered status codes and what they are called. -/
def reasons : List (Nat × String) :=
  [(100, "Continue"), (101, "Switching Protocols"), (102, "Processing"), (200, "OK"),
    (201, "Created"), (202, "Accepted"), (203, "Non Authoritative Information"),
    (204, "No Content"), (205, "Reset Content"), (206, "Partial Content"), (207, "Multi-Status"),
    (208, "Already Reported"), (226, "IM Used"), (300, "Multiple Choices"),
    (301, "Moved Permanently"), (302, "Found"), (303, "See Other"), (304, "Not Modified"),
    (305, "Use Proxy"), (307, "Temporary Redirect"), (308, "Permanent Redirect"),
    (400, "Bad Request"), (401, "Unauthorized"), (402, "Payment Required"), (403, "Forbidden"),
    (404, "Not Found"), (405, "Method Not Allowed"), (406, "Not Acceptable"),
    (407, "Proxy Authentication Required"), (408, "Request Timeout"), (409, "Conflict"),
    (410, "Gone"), (411, "Length Required"), (412, "Precondition Failed"),
    (413, "Payload Too Large"), (414, "URI Too Long"), (415, "Unsupported Media Type"),
    (416, "Range Not Satisfiable"), (417, "Expectation Failed"), (418, "I'm a teapot"),
    (421, "Misdirected Request"), (422, "Unprocessable Entity"), (423, "Locked"),
    (424, "Failed Dependency"), (425, "Too Early"), (426, "Upgrade Required"),
    (428, "Precondition Required"), (429, "Too Many Requests"),
    (431, "Request Header Fields Too Large"), (451, "Unavailable For Legal Reasons"),
    (500, "Internal Server Error"), (501, "Not Implemented"), (502, "Bad Gateway"),
    (503, "Service Unavailable"), (504, "Gateway Timeout"), (505, "HTTP Version Not Supported"),
    (506, "Variant Also Negotiates"), (507, "Insufficient Storage"), (508, "Loop Detected"),
    (510, "Not Extended"), (511, "Network Authentication Required")]

/-- What a status code is called. -/
def reason (status : Nat) : String :=
  (reasons.lookup status).getD "<unknown status code>"

/-- A status code and what it is called. -/
def text (status : Nat) : String :=
  Numeral.decimal status ++ " " ++ reason status

/-- Whether a status code tells of success. -/
def isSuccess (status : Nat) : Bool :=
  200 ≤ status && status < 300

end ChunkScope.Http.Status

/-! ## Messages -/

namespace ChunkScope.Http

/-- What is to be done with a resource. -/
inductive Method where
  | get
  | head
  | post
  | delete
  | options
  | other (name : String)
deriving DecidableEq

namespace Method

/-- The method of a name, which is matched exactly. -/
def ofName (name : String) : Method :=
  if name = "GET" then get
  else if name = "HEAD" then head
  else if name = "POST" then post
  else if name = "DELETE" then delete
  else if name = "OPTIONS" then options
  else other name

/-- The name of a method. -/
def name : Method → String
  | get => "GET"
  | head => "HEAD"
  | post => "POST"
  | delete => "DELETE"
  | options => "OPTIONS"
  | other name => name

end Method

/-- A request to a node. The target is the path of the resource and what may follow it. -/
structure Request where
  method : Method
  target : String
  contentType : Option String
  body : Bytes
deriving DecidableEq

/-- The response of a node. It may say from which pages a browser may read it. -/
structure Response where
  status : Nat
  contentType : Option String
  allowOrigin : Option String
  body : String
deriving DecidableEq

/-! ## Media types

The types of contents that requests declare: a type, a subtype and parameters behind semicolons.
Names of types may be in any mix of ASCII cases. A part of the subtype behind its last plus sign
tells which general format the contents are written in. -/

/-- A media type without its parameters, in lower case: the name before the slash, and the one
behind it, of which the part behind the last plus sign is kept apart. -/
structure MediaType where
  type : List Char
  subtype : List Char
  suffix : Option (List Char)
deriving DecidableEq

namespace MediaType

/-- The marks that names may hold beside ASCII letters and digits. -/
def marks : List Char :=
  ['!', '#', '$', '%', '&', '\x27', '*', '+', '-', '.', '^', '_', '\x60', '|', '~']

/-- A character of a name. -/
def isToken (c : Char) : Bool :=
  c.isAlphanum || marks.contains c

/-- A character of a quoted value. -/
def isQuotable (c : Char) : Bool :=
  0x20 ≤ c.toNat && c.toNat < 0x7F

/-! ### Parameters -/

/-- What follows a quoted value: the next parameter, if there is one. -/
def afterQuoted : List Char → Option (List Char)
  | [] => some []
  | ';' :: rest => some rest
  | ' ' :: rest => afterQuoted rest
  | _ => none

/-- What follows the value that a quote has opened, which has at least one character. -/
def quotedValue (cs : List Char) : Option (List Char) :=
  match cs with
  | [] => none
  | c :: rest =>
    if isQuotable c then
      match rest.dropWhile fun c => c ≠ '"' && isQuotable c with
      | '"' :: rest => afterQuoted rest
      | _ => none
    else none

/-- What follows the value of a parameter; one that is not quoted is empty only at the end. -/
def parameterValue : List Char → Option (List Char)
  | '"' :: rest => quotedValue rest
  | cs =>
    match cs.takeWhile isToken, cs.dropWhile isToken with
    | _, [] => some []
    | _ :: _, ';' :: rest => some rest
    | _, _ => none

/-- Whether what follows a semicolon is a list of parameters. -/
def parameters : Nat → List Char → Bool
  | 0, _ => false
  | fuel + 1, cs =>
    match cs.dropWhile (· == ' ') with
    | [] => true
    | cs =>
      match cs.takeWhile isToken, cs.dropWhile isToken with
      | _ :: _, '=' :: rest =>
        match parameterValue rest with
        | some rest => parameters fuel rest
        | none => false
      | _, _ => false

/-! ### Types -/

/-- The subtype and the suffix of a name: a plus sign at its front is part of the subtype. -/
def splitSuffix (name : List Char) : List Char × Option (List Char) :=
  match name with
  | [] => ([], none)
  | first :: rest =>
    let behind := (rest.reverse.takeWhile (· != '+')).reverse
    if behind.length < rest.length then
      (first :: rest.take (rest.length - behind.length - 1), some behind)
    else (name, none)

/-- A media type in a header. -/
def parse? (header : String) : Option MediaType := do
  let cs := header.toList.map Char.toLower
  let type := cs.takeWhile isToken
  match type, cs.dropWhile isToken with
  | _ :: _, '/' :: rest =>
    let (subtype, suffix) := splitSuffix (rest.takeWhile isToken)
    match rest.takeWhile isToken, rest.dropWhile isToken with
    | _, [] => return ⟨type, subtype, suffix⟩
    | _ :: _, ';' :: rest =>
      if parameters (rest.length + 1) rest then return ⟨type, subtype, suffix⟩ else none
    | _, _ => none
  | _, _ => none

/-- Whether contents of a type are JSON. -/
def isJson (mediaType : MediaType) : Bool :=
  mediaType.type == "application".toList &&
    (mediaType.subtype == "json".toList || mediaType.suffix == some "json".toList)

/-- Whether the contents that a header declares are JSON. -/
def declaresJson (header : String) : Bool :=
  (parse? header).any isJson

end MediaType

end ChunkScope.Http

/-! ## Messages on a connection

How the two are written as bytes and read back, one of each on a connection that is closed behind
the response. A message has a head, which ends with an empty line, and a body; the head says how
long the body is. -/

namespace ChunkScope.Http.Transfer

/-! ### Heads -/

/-- The head of a message: the first line, and the fields on the other lines, their names in lower
case. -/
structure Head where
  start : String
  fields : List (String × String)

namespace Head

/-- The name and the value on a line. -/
def field (line : List Char) : String × String :=
  (String.ofList ((line.takeWhile (· ≠ ':')).map Char.toLower),
    String.ofList (Blank.trim ((line.dropWhile (· ≠ ':')).drop 1)))

/-- The head in some bytes. -/
def parse (bytes : Bytes) : Head :=
  let lines := ((bytes.map Latin1.char).filter (· ≠ '\r')).splitOn '\n'
  ⟨String.ofList (lines.headD []), lines.tail.map field⟩

/-- The words of the first line. -/
def words (head : Head) : List String :=
  (head.start.toList.splitOn ' ').map String.ofList

/-- How many bytes the body has, if the head says so. -/
def bodyLength? (head : Head) : Option Nat :=
  (head.fields.lookup "content-length").bind fun value => Numeral.natural? 10 value.toList

/-- A head as bytes, with the empty line behind it. -/
def encode (head : Head) : Bytes :=
  let lines := head.start :: head.fields.map fun field => field.1 ++ ": " ++ field.2
  Utf8.encode (String.join (lines.map (· ++ "\r\n")) ++ "\r\n")

end Head

/-- The head of a message and what follows it, once all of the head is there. -/
def split? : Bytes → Option (Bytes × Bytes)
  | [] => none
  | 13 :: 10 :: 13 :: 10 :: rest => some ([], rest)
  | b :: rest => (split? rest).map fun (head, body) => (b :: head, body)

/-! ### Messages -/

/-- A request as bytes. -/
def encodeRequest (method : Method) (url : Url) (body : Option String) : Bytes :=
  let place := (url.authority.map Url.Authority.place).getD ""
  let content := (body.map Utf8.encode).getD []
  let fields := if body.isSome then
      [("content-type", "application/json"), ("content-length", Numeral.decimal content.length)]
    else []
  Head.encode
    ⟨method.name ++ " " ++ url.target ++ " HTTP/1.0", ("host", place) :: fields⟩ ++ content

/-- The status code and the body in the bytes of a response. -/
def decodeResponse? (bytes : Bytes) : Option (Nat × Bytes) := do
  let (head, body) ← split? bytes
  let head := Head.parse head
  let status ← head.words[1]? >>= fun word => Numeral.natural? 10 word.toList
  let length := head.bodyLength?.getD body.length
  if length ≤ body.length then return (status, body.take length) else none

/-- The request in some bytes, once all of it is there. -/
def decodeRequest? (bytes : Bytes) : Option Request := do
  let (head, body) ← split? bytes
  let head := Head.parse head
  let length := head.bodyLength?.getD 0
  if length ≤ body.length then
    return {
      method := .ofName (head.words.headD "")
      target := head.words[1]?.getD ""
      contentType := head.fields.lookup "content-type"
      body := body.take length }
  else none

/-- A response as bytes. -/
def encodeResponse (response : Response) : Bytes :=
  let content := Utf8.encode response.body
  let fields := (response.contentType.map ("content-type", ·)).toList ++
    (response.allowOrigin.map ("access-control-allow-origin", ·)).toList ++
    [("content-length", Numeral.decimal content.length), ("connection", "close")]
  Head.encode ⟨"HTTP/1.1 " ++ Status.text response.status, fields⟩ ++ content

end ChunkScope.Http.Transfer
