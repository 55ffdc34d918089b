import SchemaClient.Text.Printable

/-!
# String literals

Text in double quotes. Quotes, backslashes and control characters are escaped, and so is whatever
has no shape of its own; the rest is written as it is.
-/

namespace SchemaClient.Code

open Text

def hexDigits (n : Nat) : List Char :=
  Nat.toDigits 16 n

/-- A character of a literal, given the character behind it: a zero before an octal digit takes
the longer form, which no digit can extend. -/
def quoteChar (c : Char) (next : Option Char) : List Char :=
  match c with
  | '\x00' =>
    if (next.map fun d => '0' ≤ d && d ≤ '7').getD false then ['\\', 'x', '0', '0']
    else ['\\', '0']
  | '"' => ['\\', '"']
  | '\\' => ['\\', '\\']
  | '\n' => ['\\', 'n']
  | '\r' => ['\\', 'r']
  | '\t' => ['\\', 't']
  | c =>
    if isPrintable c then [c]
    else ['\\', 'u', '\x7b'] ++ hexDigits c.toNat ++ ['\x7d']

def quoteChars : List Char → List Char
  | [] => []
  | c :: cs => quoteChar c cs.head? ++ quoteChars cs

def quoted (s : String) : String :=
  "\"" ++ String.ofList (quoteChars s.toList) ++ "\""

/-- A literal without escapes, fenced when it holds a quote. -/
def rawQuoted (s : String) : String :=
  if s.contains '"' then "r#\"" ++ s ++ "\"#" else "r\"" ++ s ++ "\""

end SchemaClient.Code
