import SchemaClient.Text.Alphabet
import SchemaClient.Text.LetterCase

/-!
# Words of a name

A name is cut into words at every character that is not alphanumeric, and inside what is left
before an upper-case letter that follows a lower-case letter or a digit, or that ends a row of
capitals: `HTTPClient` has the words `HTTP` and `Client`. Words are put together again in one of
three spellings.
-/

namespace SchemaClient.Names

open Text

/-- The longest runs of alphanumeric characters. -/
def segments (cs : List Char) : List (List Char) :=
  match cs with
  | [] => []
  | c :: rest =>
    match isAlphanumeric c, segments rest with
    | false, found => found
    | true, found =>
      match rest with
      | [] => [[c]]
      | d :: _ =>
        match isAlphanumeric d, found with
        | true, word :: more => (c :: word) :: more
        | _, _ => [c] :: found

/-- Whether a word starts at `current`. -/
def startsWord (previous current : Char) (next : Option Char) : Bool :=
  isUppercase current
    && (isLowercase previous || previous.isDigit
      || (next.map isLowercase).getD false && isUppercase previous)

/-- Cuts a segment before every character that starts a word. -/
def splitCase : List Char → List (List Char)
  | [] => []
  | [c] => [[c]]
  | c :: d :: rest =>
    match splitCase (d :: rest) with
    | [] => [[c]]
    | word :: more =>
      if startsWord c d rest.head? then [c] :: word :: more else (c :: word) :: more

def words (cs : List Char) : List (List Char) :=
  (segments cs).flatMap splitCase

/-- Words with an underscore between each two. -/
def joinWords : List (List Char) → List Char
  | [] => []
  | [word] => word
  | word :: more => word ++ '_' :: joinWords more

def snakeCase (cs : List Char) : List Char :=
  joinWords ((words cs).map lower)

def screamingCase (cs : List Char) : List Char :=
  joinWords ((words cs).map upper)

/-- A word with a capital; the rest is lower-cased character by character. -/
def capitalised : List Char → List Char
  | [] => []
  | c :: cs => upperChar c ++ cs.flatMap lowerChar

def pascalCase (cs : List Char) : List Char :=
  (words cs).flatMap capitalised

end SchemaClient.Names
