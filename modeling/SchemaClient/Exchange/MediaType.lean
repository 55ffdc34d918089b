import SchemaClient.Files.Path

/-!
# Media types

The media type of a file is guessed from the extension of its name, by a short table of common
extensions unless another guess is given. A media type is written as a type and a subtype with a
slash between them, perhaps followed by parameters, whose values are tokens or quoted.
-/

namespace SchemaClient.MediaType

/-- The type of a file about which nothing is known. -/
def standard : String := "application/octet-stream"

/-- Media types of common extensions. -/
def byExtension : List (String × String) :=
  [("png", "image/png"), ("jpg", "image/jpeg"), ("jpeg", "image/jpeg"), ("gif", "image/gif"),
    ("txt", "text/plain"), ("json", "application/json"), ("pdf", "application/pdf"),
    ("html", "text/html"), ("htm", "text/html"), ("csv", "text/csv"), ("xml", "text/xml"),
    ("zip", "application/zip"), ("svg", "image/svg+xml"), ("css", "text/css"),
    ("mp4", "video/mp4"), ("mp3", "audio/mpeg"), ("wasm", "application/wasm"),
    ("gz", "application/gzip"), ("md", "text/markdown"), ("webp", "image/webp")]

/-- The type that a file's extension suggests, upper and lower case being the same. -/
def guess? (p : DiskPath) : Option String := do
  byExtension.lookup (String.ofList ((← DiskPath.extension? p).toList.map Char.toLower))

/-- Characters of a token. -/
def isTokenChar (c : Char) : Bool :=
  c.isAlphanum || "!#$%&'*+-.^_\x60|~".toList.contains c

/-- Characters between quotes. -/
def isQuotedChar (c : Char) : Bool :=
  ' ' ≤ c && c ≠ '"' && c ≠ '\x7f'

/-- What follows a nonempty token. -/
def afterToken? (cs : List Char) : Option (List Char) :=
  if (cs.takeWhile isTokenChar).isEmpty then none else some (cs.dropWhile isTokenChar)

/-- What follows the value of a parameter. Only the last value may be empty. -/
def afterValue? (cs : List Char) : Option (List Char) :=
  match cs with
  | '"' :: inside =>
    match inside.dropWhile isQuotedChar with
    | '"' :: rest =>
      if (inside.takeWhile isQuotedChar).isEmpty then none else some (rest.dropWhile (· = ' '))
    | _ => none
  | [] => some []
  | cs => afterToken? cs

/-- Whether a text is a list of parameters with semicolons between them. Every parameter takes at
least one character, so the length of the text bounds their number. -/
def areParameters : (steps : Nat) → List Char → Bool
  | 0, cs => cs.isEmpty
  | steps + 1, cs =>
    match cs.dropWhile (· = ' ') with
    | [] => true
    | cs =>
      match afterToken? cs with
      | some ('=' :: value) =>
        match afterValue? value with
        | some [] => true
        | some (';' :: rest) => areParameters steps rest
        | _ => false
      | _ => false

def isValid (text : String) : Bool :=
  match afterToken? text.toList with
  | some ('/' :: subtype) =>
    match afterToken? subtype with
    | some [] => true
    | some (c :: rest) => (c = ';' || c = ' ') && areParameters rest.length rest
    | none => false
  | _ => false

end SchemaClient.MediaType
