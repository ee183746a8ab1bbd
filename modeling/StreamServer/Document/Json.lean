import StreamServer.Document
import StreamServer.Text.Digits
import StreamServer.Text.Reader

/-!
# JSON

The printer writes a value on one line without blanks, piece by piece, and escapes in strings only the
quote, the backslash and the control characters below U+0020.  The reader accepts every JSON text up to a fixed
depth of nesting.  A number without fraction and exponent is an integer as long as it fits sixty-four
bits, signed if negative, unsigned otherwise; minus zero and all other numbers are reals.
-/

namespace StreamServer

namespace Json

/-- The spelling of one character in a string. -/
def escape (c : Char) : List Char :=
  if c = '"' then ['\\', '"']
  else if c = '\\' then ['\\', '\\']
  else if c = '\x08' then ['\\', 'b']
  else if c = '\x0c' then ['\\', 'f']
  else if c = '\n' then ['\\', 'n']
  else if c = '\r' then ['\\', 'r']
  else if c = '\t' then ['\\', 't']
  else if c.toNat < 0x20 then
    ['\\', 'u', '0', '0'] ++ [Nat.digitChar (c.toNat / 16), Nat.digitChar (c.toNat % 16)]
  else [c]

/-- Whether a character is not spelt by itself. -/
def isEscaped (c : Char) : Bool :=
  escape c != [c]

/-- A string between quotes. -/
def printString (s : String) : List Char :=
  '"' :: s.toList.flatMap escape ++ ['"']

/-- A string between quotes, in pieces: each quote, each escape, and each run of characters that are
spelt by themselves. -/
def stringPieces (s : String) : List (List Char) :=
  ['"'] :: (s.toList.splitBy fun c d => !isEscaped c && !isEscaped d).map (·.flatMap escape)
    ++ [['"']]

/-- An integer in decimal. -/
def printInt : Int → List Char
  | .ofNat n => Digits.decimal n
  | .negSucc n => '-' :: Digits.decimal (n + 1)

mutual

/-- A value on one line, without blanks, in the pieces in which it is written. -/
def printPieces : Value → List (List Char)
  | .null => ["null".toList]
  | .bool true => ["true".toList]
  | .bool false => ["false".toList]
  | .integer i => [printInt i]
  | .real x => [x.chars .compact]
  | .string s => stringPieces s
  | .moment => ["null".toList]
  | .list [] => [['['], [']']]
  | .list (v :: rest) => ['['] :: printPieces v ++ itemPieces rest
  | .table [] => [['\x7b'], ['\x7d']]
  | .table ((k, v) :: rest) =>
      ['\x7b'] :: stringPieces k ++ [':'] :: printPieces v ++ entryPieces rest

/-- The items of a list after the first, and its end. -/
def itemPieces : List Value → List (List Char)
  | [] => [[']']]
  | v :: rest => [','] :: printPieces v ++ itemPieces rest

/-- The entries of a table after the first, and its end. -/
def entryPieces : List (String × Value) → List (List Char)
  | [] => [['\x7d']]
  | (k, v) :: rest => [','] :: stringPieces k ++ [':'] :: printPieces v ++ entryPieces rest

end

/-- A value on one line, without blanks. -/
def print (v : Value) : List Char :=
  (printPieces v).flatten

/-- The items of a list after the first, and its end, as they are printed. -/
def printItems (vs : List Value) : List Char :=
  (itemPieces vs).flatten

/-- The entries of a table after the first, and its end, as they are printed. -/
def printEntries (entries : List (String × Value)) : List Char :=
  (entryPieces entries).flatten

/-- The text of a value. -/
def text (v : Value) : String :=
  String.ofList (print v)

/-- Blank characters between the parts of a text. -/
def isBlank (c : Char) : Bool :=
  c = ' ' || c = '\t' || c = '\n' || c = '\r'

/-- Skips blanks. -/
def blanks : Reader Unit := do
  let _ ← Reader.takeWhile isBlank
  pure ()

/-- The number that four hexadecimal digits write. -/
def unit? (a b c d : Char) : Option Nat :=
  Digits.read? 16 [a, b, c, d]

/-- The character that a pair of surrogates stands for. -/
def ofSurrogates? (high low : Nat) : Option Char :=
  if 0xD800 ≤ high ∧ high < 0xDC00 ∧ 0xDC00 ≤ low ∧ low < 0xE000 then
    some (Char.ofNat (0x10000 + (high - 0xD800) * 0x400 + (low - 0xDC00)))
  else none

/-- The character that a backslash and one letter stand for. -/
def unescape? (c : Char) : Option Char :=
  if c = '"' then some '"'
  else if c = '\\' then some '\\'
  else if c = '/' then some '/'
  else if c = 'b' then some '\x08'
  else if c = 'f' then some '\x0c'
  else if c = 'n' then some '\n'
  else if c = 'r' then some '\r'
  else if c = 't' then some '\t'
  else none

/-- Puts a character before the rest of a string. -/
def consChar (c : Char) (r : Option (List Char × List Char)) : Option (List Char × List Char) :=
  r.map fun p => (c :: p.1, p.2)

/-- The characters of a string up to its closing quote. -/
def stringBody : Reader (List Char)
  | [] => none
  | '"' :: rest => some ([], rest)
  | '\\' :: 'u' :: a :: b :: c :: d :: rest =>
      match unit? a b c d with
      | none => none
      | some n =>
          if n.isValidChar then consChar (Char.ofNat n) (stringBody rest)
          else
            match rest with
            | '\\' :: 'u' :: e :: f :: g :: h :: rest =>
                match (unit? e f g h).bind (ofSurrogates? n) with
                | some ch => consChar ch (stringBody rest)
                | none => none
            | _ => none
  | '\\' :: c :: rest =>
      match unescape? c with
      | some ch => consChar ch (stringBody rest)
      | none => none
  | c :: rest => if c = '\\' || c.toNat < 0x20 then none else consChar c (stringBody rest)

/-- A string. -/
def string : Reader String := do
  Reader.char '"'
  let cs ← stringBody
  pure (String.ofList cs)

/-- A digit of a decimal number. -/
def isDigit (c : Char) : Bool :=
  Digits.isDigit 10 c

/-- The digits before the point: a zero alone, or digits that do not begin with a zero. -/
def wholePart : Reader (List Char) := do
  let c ← Reader.satisfy isDigit
  if c = '0' then pure [c]
  else do
    let cs ← Reader.takeWhile isDigit
    pure (c :: cs)

/-- The digits after a point. -/
def fraction : Reader (List Char) := do
  Reader.char '.'
  Reader.takeWhile1 isDigit

/-- An exponent of ten. -/
def exponent : Reader Int := do
  let _ ← Reader.satisfy fun c => c = 'e' || c = 'E'
  let sign ← Reader.optional (Reader.satisfy fun c => c = '+' || c = '-')
  let ds ← Reader.takeWhile1 isDigit
  let n := (Digits.read? 10 ds).getD 0
  pure (if sign = some '-' then -(n : Int) else n)

/-- The value of a number from its parts; a number beyond all reals is none. -/
def numberValue (negative : Bool) (whole : List Char) (frac : Option (List Char))
    (exp : Option Int) : Option Value :=
  let ds := whole ++ frac.getD []
  let n := (Digits.read? 10 ds).getD 0
  let real (x : Binary64) : Option Value :=
    match x with
    | .infinite _ => none
    | x => some (.real x)
  match frac, exp with
  | none, none =>
      if negative then
        if n = 0 then some (.real (.finite true 0 Binary64.minExponent))
        else if n ≤ 9223372036854775808 then some (.integer (-(n : Int)))
        else real (.nearest true ⟨n, 0⟩)
      else if n < UInt64.size then some (.integer n)
      else real (.nearest false ⟨n, 0⟩)
  | _, _ => real (.nearest negative ⟨n, exp.getD 0 - (frac.getD []).length⟩)

/-- A number. -/
def number : Reader Value := do
  let sign ← Reader.optional (Reader.char '-')
  let whole ← wholePart
  let frac ← Reader.optional fraction
  let exp ← Reader.optional exponent
  match numberValue sign.isSome whole frac exp with
  | some v => pure v
  | none => Reader.refuse

/-- A given word that stands for a value. -/
def word (w : String) (v : Value) : Reader Value := do
  Reader.chars w.toList
  pure v

/-- A value without parts. -/
def scalar : Reader Value :=
  Reader.firstOf
    [ word "null" .null,
      word "true" (.bool true),
      word "false" (.bool false),
      do let s ← string; pure (.string s),
      number ]

/-- A reader with blanks skipped on both sides. -/
def spaced {α : Type} (p : Reader α) : Reader α := do
  blanks
  let a ← p
  blanks
  pure a

/-- A list whose items are read by a given reader. -/
def list (item : Reader Value) : Reader Value := do
  Reader.char '['
  blanks
  let items ← Reader.separated (Reader.char ',') (spaced item)
  Reader.char ']'
  pure (.list items)

/-- An entry of a table. -/
def entry (item : Reader Value) : Reader (String × Value) := do
  let k ← spaced string
  Reader.char ':'
  let v ← spaced item
  pure (k, v)

/-- A table whose values are read by a given reader. -/
def table (item : Reader Value) : Reader Value := do
  Reader.char '\x7b'
  blanks
  let entries ← Reader.separated (Reader.char ',') (entry item)
  Reader.char '\x7d'
  pure (.table entries)

/-- A value whose lists and tables are nested no deeper than a given depth. -/
def value : Nat → Reader Value
  | 0 => scalar
  | depth + 1 => Reader.firstOf [list (value depth), table (value depth), scalar]

/-- The deepest nesting that is read. -/
def maxDepth : Nat := 128

/-- The value that a text writes. -/
def parse? (s : String) : Option Value :=
  Reader.run? (spaced (value maxDepth)) s.toList

end Json

end StreamServer
