import SchemaClient.Exchange.Failure
import SchemaClient.Json.Reader

/-!
# Responses

A response has data, errors and extensions, each of which may be missing. Reported errors win
over any data; without them the value is what the data has under the field of the operation, and
a missing or null field is no value.
-/

namespace SchemaClient

open Json

/-- Bound of line and column numbers. -/
def positionLimit : Int := 4294967295

/-! ## JSON form -/

def DocumentPosition.json (p : DocumentPosition) : Json :=
  .obj [("line", .int p.line), ("column", .int p.column)]

/-- Empty lists and missing extensions are left out. -/
def ServerError.json (e : ServerError) : Json :=
  .obj (("message", .str e.message) ::
    ((if e.locations.isEmpty then []
      else [("locations", .ofList DocumentPosition.json e.locations)]) ++
    (if e.path.isEmpty then [] else [("path", .arr e.path)]) ++
    (match e.extensions with
      | none => []
      | some x => [("extensions", x)])))

structure Response where
  data : Option Json
  errors : Option (List ServerError)
  extensions : Option Json
deriving Repr

def Response.json (r : Response) : Json :=
  .obj [("data", .ofOption id r.data), ("errors", .ofOption (.ofList ServerError.json) r.errors),
    ("extensions", .ofOption id r.extensions)]

namespace Json.Reader

structure DocumentPositionDraft where
  line : Option Int := none
  column : Option Int := none

def documentPositionFields : List (Field DocumentPositionDraft) :=
  [field "line" (integer 0 positionLimit) (·.line) fun v d => { d with line := some v },
    field "column" (integer 0 positionLimit) (·.column) fun v d => { d with column := some v }]

def documentPosition : Reader DocumentPosition :=
  record documentPositionFields {} fun _ d => do
    pure ⟨(← d.line).toNat, (← d.column).toNat⟩

structure ServerErrorDraft where
  message : Option String := none
  locations : Option (List DocumentPosition) := none
  path : Option (List Json) := none
  extensions : Option (Option Json) := none

def serverErrorFields : List (Field ServerErrorDraft) :=
  [field "message" string (·.message) fun v d => { d with message := some v },
    field "locations" (list documentPosition) (·.locations)
      fun v d => { d with locations := some v },
    field "path" (list json) (·.path) fun v d => { d with path := some v },
    field "extensions" (option json) (·.extensions) fun v d => { d with extensions := some v }]

/-- Only the message is required. -/
def serverError : Reader ServerError :=
  record serverErrorFields {} fun _ d => do
    pure ⟨← d.message, d.locations.getD [], d.path.getD [], d.extensions.getD none⟩

structure ResponseDraft where
  data : Option (Option Json) := none
  errors : Option (Option (List ServerError)) := none
  extensions : Option (Option Json) := none

def responseFields : List (Field ResponseDraft) :=
  [field "data" (option json) (·.data) fun v d => { d with data := some v },
    field "errors" (option (list serverError)) (·.errors) fun v d => { d with errors := some v },
    field "extensions" (option json) (·.extensions) fun v d => { d with extensions := some v }]

def response : Reader Response :=
  record responseFields {} fun _ d =>
    some ⟨d.data.getD none, d.errors.getD none, d.extensions.getD none⟩

end Json.Reader

/-! ## Values -/

namespace Response

/-- The errors that a response reports, if it reports any. -/
def report? (r : Response) : Option ServerReport :=
  match r.errors with
  | none | some [] => none
  | some (e :: es) => some ⟨e :: es, r.extensions⟩

/-- The data under a field. -/
def fieldData? (r : Response) (field : String) : Option Json :=
  match r.data.bind (·.member? field) with
  | none | some .null => none
  | some v => some v

/-- The value of a field. -/
def value {α : Type} (r : Response) (read : Reader α) (field : String) :
    Except Failure (Option α) :=
  match r.report? with
  | some report => .error (.server report)
  | none =>
    match r.fieldData? field with
    | none => .ok none
    | some v => ((read.value v).map some).mapError .unreadable

end Response

/-! ## Replies -/

/-- What a server sends back. -/
structure Reply where
  status : Nat
  body : String
deriving DecidableEq, Repr

namespace Reply

def isSuccess (r : Reply) : Bool :=
  200 ≤ r.status && r.status < 300

def response (r : Reply) : Except Failure Response :=
  if r.isSuccess then (Reader.response.text r.body).mapError .unreadable
  else .error (.status r.status r.body)

/-- The value that a reply gives for the field of an operation. -/
def value {α : Type} (r : Reply) (read : Reader α) (field : String) :
    Except Failure (Option α) := do
  (← r.response).value read field

end Reply

end SchemaClient
