import SchemaBindings.Toml.Date
import SchemaBindings.Toml.Quotation
import SchemaBindings.Toml.Value

/-!
# Words in configuration text

Where a word ends, and the truth value, the date or the number that it stands for.
-/

namespace SchemaBindings.Toml

/-- Whether a character ends a word; all others, quotes too, go on with it. -/
def endsWord (c : Char) : Bool :=
  isFiller c || c = '\n' || c = '#' || c = '=' || c = ',' || c = '[' || c = ']' || c = '\x7b' ||
    c = '\x7d'

/-- A word; a time may follow a day behind one blank. -/
def word (text : List Char) : List Char × List Char :=
  let first := text.takeWhile (!endsWord ·)
  match text.dropWhile (!endsWord ·) with
  | ' ' :: c :: rest =>
    if isDay first && c.isDigit then
      (first ++ ' ' :: (c :: rest).takeWhile (!endsWord ·), (c :: rest).dropWhile (!endsWord ·))
    else (first, ' ' :: c :: rest)
  | rest => (first, rest)

def ofWord? (word : List Char) : Option Toml :=
  if word = ['t', 'r', 'u', 'e'] then some (.boolean true)
  else if word = ['f', 'a', 'l', 's', 'e'] then some (.boolean false)
  else if isDate word then some .date
  else (number? word).map .number

end SchemaBindings.Toml
