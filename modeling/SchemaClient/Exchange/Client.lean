import SchemaClient.Exchange.Endpoint
import SchemaClient.Exchange.Response
import SchemaClient.Exchange.Upload

/-!
# Clients

A client has an endpoint and headers that go with every request. It posts a request body, or a
form if files are part of it, and reads the value of the operation's field from the reply. How a
request travels is the transport's matter, and which endpoints a request can be made for that of
`accepts`.
-/

namespace SchemaClient

namespace Header

def isName (name : String) : Bool :=
  !name.isEmpty && name.utf8ByteSize ≤ 65535 && name.toList.all MediaType.isTokenChar

/-- Whether a text has no control characters but tabs. -/
def isValue (value : String) : Bool :=
  value.toList.all fun c => c = '\t' || (' ' ≤ c && c ≠ '\x7f')

def invalidName (name : String) : Failure :=
  .header (name ++ ": invalid HTTP header name")

def invalidValue (name : String) : Failure :=
  .header (name ++ ": failed to parse header value")

/-- Adds a header, in place of one whose name differs by case at most. -/
def add (headers : Dictionary String) (name value : String) :
    Except Failure (Dictionary String) :=
  if !isName name then .error (invalidName name)
  else if !isValue value then .error (invalidValue name)
  else .ok (headers.insert name.toLower value)

end Header

inductive RequestContent
  | body (json : Json)
  | form (form : UploadForm)
deriving Repr

namespace RequestContent

def mediaType : RequestContent → String
  | body _ => "application/json"
  | form _ => "multipart/form-data"

end RequestContent

/-- A request to be posted. -/
structure Request where
  endpoint : String
  headers : Dictionary String
  content : RequestContent
deriving Repr

/-- Brings a request to a server and the reply back. -/
abbrev Transport (m : Type → Type) := Request → m (Except TransportError Reply)

structure Client where
  endpoint : String
  headers : Dictionary String
deriving DecidableEq, Repr

/-- An operation as it is sent. -/
structure Call where
  document : String
  values : Dictionary Json
  /-- The field of the data that holds the value. -/
  field : String

namespace Client

/-- A client with headers, the first bad one of which is reported, and a token that stands for an
authorization header of its own. -/
def build (endpoint : String) (headers : List (String × String)) (bearer : Option String) :
    Except Failure Client := do
  let headers ← headers.foldlM (fun hs h => Header.add hs h.1 h.2) []
  match bearer with
  | none => pure ⟨endpoint, headers⟩
  | some token => return ⟨endpoint, ← Header.add headers "authorization" ("Bearer " ++ token)⟩

/-- The request that posts some content; what the content requires wins over the client's
headers. -/
def request (c : Client) (content : RequestContent) : Request where
  endpoint := c.endpoint
  headers := (c.headers.insert "accept" "application/json").insert "content-type"
    content.mediaType
  content := content

variable {m : Type → Type} [Monad m] {α : Type}

/-- Posts some content to an accepted endpoint and reads the value of a field from the reply. -/
def send (c : Client) (accepts : String → Bool) (transport : Transport m) (read : Json.Reader α)
    (field : String) (content : RequestContent) : m (Except Failure (Option α)) := do
  if !accepts c.endpoint then pure (.error (.transport .invalidEndpoint))
  else
    match ← transport (c.request content) with
    | .error e => pure (.error (.transport e))
    | .ok reply => pure (reply.value read field)

def execute (c : Client) (transport : Transport m) (read : Json.Reader α) (call : Call)
    (accepts : String → Bool := Endpoint.isValid) : m (Except Failure (Option α)) :=
  c.send accepts transport read call.field
    (.body (Variables.requestBody call.document call.values))

/-- Executes a call with files for some of its variables. -/
def executeWithUploads (c : Client) (fs : FileAccess m) (transport : Transport m)
    (read : Json.Reader α) (call : Call) (uploads : List (String × Upload))
    (accepts : String → Bool := Endpoint.isValid) : m (Except Failure (Option α)) := do
  match ← UploadForm.build fs call.document call.values uploads with
  | .error e => pure (.error e)
  | .ok form => c.send accepts transport read call.field (.form form)

end Client

end SchemaClient
