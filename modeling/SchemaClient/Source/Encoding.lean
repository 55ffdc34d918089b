import SchemaClient.Text.Utf16

/-!
# Schema bytes

A byte order mark names the encoding of a schema. Without one, text whose second and fourth bytes
are zero is taken to be UTF-16, which is how ASCII looks there; all else is UTF-8. Whatever does
not decode is replaced, so every byte sequence is some text.
-/

namespace SchemaClient

open Text

inductive SourceEncoding
  | utf8
  | utf8Mark
  | utf16Little
  | utf16Big
  | utf16LittleUnmarked
deriving DecidableEq, Repr

namespace SourceEncoding

def detect (bs : Bytes) : SourceEncoding :=
  match bs with
  | 0xFF :: 0xFE :: _ => .utf16Little
  | 0xFE :: 0xFF :: _ => .utf16Big
  | 0xEF :: 0xBB :: 0xBF :: _ => .utf8Mark
  | _ :: 0 :: _ :: 0 :: rest => if 6 < rest.length then .utf16LittleUnmarked else .utf8
  | _ => .utf8

/-- The text of bytes in this encoding, with its mark. -/
def decode : SourceEncoding → Bytes → List Char
  | .utf8, bs => decodeUtf8Lossy bs
  | .utf8Mark, bs => decodeUtf8Lossy (bs.drop 3)
  | .utf16Little, bs => decodeUtf16 .little (bs.drop 2)
  | .utf16Big, bs => decodeUtf16 .big (bs.drop 2)
  | .utf16LittleUnmarked, bs => decodeUtf16 .little bs

def mark : SourceEncoding → Bytes
  | .utf8 => []
  | .utf8Mark => [0xEF, 0xBB, 0xBF]
  | .utf16Little => [0xFF, 0xFE]
  | .utf16Big => [0xFE, 0xFF]
  | .utf16LittleUnmarked => []

/-- The bytes of a text in this encoding, after its mark. -/
def encode (e : SourceEncoding) (cs : List Char) : Bytes :=
  e.mark ++
    match e with
    | .utf8 | .utf8Mark => encodeUtf8 cs
    | .utf16Little | .utf16LittleUnmarked => encodeUtf16 .little cs
    | .utf16Big => encodeUtf16 .big cs

end SourceEncoding

def decodeSource (bs : Bytes) : String :=
  String.ofList ((SourceEncoding.detect bs).decode bs)

end SchemaClient
