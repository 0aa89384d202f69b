import FluentPattern.CharSet
import FluentPattern.Text

/-! The classes that are named inside of brackets, such as `[:alpha:]`. They hold only ASCII characters. -/

namespace FluentPattern.Regex

/-- The ranges of the classes that have a name. -/
def namedRanges : List (String × List (Char × Char)) :=
  [("alnum", [('0', '9'), ('A', 'Z'), ('a', 'z')]),
   ("alpha", [('A', 'Z'), ('a', 'z')]),
   ("ascii", [('\x00', '\x7F')]),
   ("blank", [('\t', '\t'), (' ', ' ')]),
   ("cntrl", [('\x00', '\x1F'), ('\x7F', '\x7F')]),
   ("digit", [('0', '9')]),
   ("graph", [('!', '~')]),
   ("lower", [('a', 'z')]),
   ("print", [(' ', '~')]),
   ("punct", [('!', '/'), (':', '@'), ('[', '\x60'), ('\x7B', '~')]),
   ("space", [('\t', '\r'), (' ', ' ')]),
   ("upper", [('A', 'Z')]),
   ("word", [('0', '9'), ('A', 'Z'), ('_', '_'), ('a', 'z')]),
   ("xdigit", [('0', '9'), ('A', 'F'), ('a', 'f')])]

def namedClass? (negated : Bool) (name : Text) : Option CharSet :=
  (namedRanges.lookup (String.ofList name)).map fun ranges =>
    .brackets negated ((ranges.map fun (first, last) => CharSet.range first last).foldl .union .nothing)

/-- The named class that a text starts with after its opening bracket, and the number of characters that write it. -/
def readNamedClass? (text : Text) : Option (CharSet × Nat) :=
  match text with
  | ':' :: rest =>
    let negated := rest.head? = some '^'
    let named := if negated then rest.tail else rest
    let name := named.takeWhile (· != ':')
    match named.dropWhile (· != ':') with
    | ':' :: ']' :: after => (namedClass? negated name).map fun set => (set, text.length - after.length)
    | _ => none
  | _ => none

end FluentPattern.Regex
