import SchemaClient.Json.Outline

/-!
# Failed exchanges

Why an operation that was sent gave no value. A failure is worth another try if the server could
not be reached in time, was too busy, or broke down.
-/

namespace SchemaClient

/-- A place in the document of a request. -/
structure DocumentPosition where
  line : Nat
  column : Nat
deriving DecidableEq, Repr

/-- An error that a server reports. -/
structure ServerError where
  message : String
  locations : List DocumentPosition
  /-- Names and list indices from the root of the response to the field. -/
  path : List Json
  extensions : Option Json
deriving Repr

/-- All errors of one response, with the extensions of the response. -/
structure ServerReport where
  errors : List ServerError
  extensions : Option Json
deriving Repr

namespace ServerReport

def firstMessage? (r : ServerReport) : Option String :=
  r.errors.head?.map (·.message)

def message (r : ServerReport) : String :=
  match r.errors with
  | [] => "unknown GraphQL error"
  | [e] => e.message
  | e :: more => e.message ++ " (and " ++ toString more.length ++ " more)"

end ServerReport

/-- Why a request got no reply. -/
inductive TransportError
  | unreachable
  | timedOut
  | interrupted
  | invalidEndpoint
  | invalidMediaType
deriving DecidableEq, Repr

namespace TransportError

def message : TransportError → String
  | unreachable => "connection failed"
  | timedOut => "timed out"
  | interrupted => "connection closed before the reply"
  | invalidEndpoint => "invalid endpoint"
  | invalidMediaType => "invalid media type"

end TransportError

inductive Failure
  | transport (cause : TransportError)
  | status (code : Nat) (body : String)
  | server (report : ServerReport)
  | unreadable (cause : Json.ReadError)
  | upload (path cause : String)
  | header (message : String)
deriving Repr

namespace Failure

def message : Failure → String
  | transport cause => "HTTP request failed: " ++ cause.message
  | status code body => "HTTP " ++ toString code ++ ": " ++ body
  | server report => "GraphQL error: " ++ report.message
  | unreadable cause => "Invalid response JSON: " ++ cause.message
  | upload path cause => "Upload file '" ++ path ++ "' could not be read: " ++ cause
  | header message => "Invalid header: " ++ message

def statusCode? : Failure → Option Nat
  | status code _ => some code
  | _ => none

/-- Whether the same request may succeed later. -/
def isRetryable : Failure → Bool
  | transport cause => cause = .unreachable || cause = .timedOut
  | status code _ => code = 429 || (500 ≤ code && code < 600)
  | _ => false

end Failure

end SchemaClient
