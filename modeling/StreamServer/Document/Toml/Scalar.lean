import StreamServer.Document
import StreamServer.Text.Digits
import StreamServer.Text.Reader

/-!
# TOML: keys and values without parts

Strings in their four forms, integers in four bases, floats, truth values, and dates and times, of
which only the validity is kept.  Line ends in strings are read as a single line feed.
-/

namespace StreamServer

namespace Toml

/-- Blank characters inside a line. -/
def isBlank (c : Char) : Bool :=
  c = ' ' || c = '\t'

/-- Characters that stand for themselves: the tab and everything that is no control character. -/
def isPlain (c : Char) : Bool :=
  c = '\t' || (0x20 ≤ c.toNat && c.toNat ≠ 0x7F)

/-- Skips blanks inside a line. -/
def blanks : Reader Unit := do
  let _ ← Reader.takeWhile isBlank
  pure ()

/-- One end of a line. -/
def newline : Reader Unit
  | '\n' :: rest => some ((), rest)
  | '\r' :: '\n' :: rest => some ((), rest)
  | _ => none

/-- Puts a character before the rest of a string. -/
def consChar (c : Char) (r : Option (List Char × List Char)) : Option (List Char × List Char) :=
  r.map fun p => (c :: p.1, p.2)

/-- The character that a backslash and one letter stand for. -/
def unescape? (c : Char) : Option Char :=
  if c = 'b' then some '\x08'
  else if c = 'f' then some '\x0c'
  else if c = 'n' then some '\n'
  else if c = 'r' then some '\r'
  else if c = 't' then some '\t'
  else if c = '"' then some '"'
  else if c = '\\' then some '\\'
  else none

/-- The character with a number given in hexadecimal. -/
def scalar? (ds : List Char) : Option Char :=
  match Digits.read? 16 ds with
  | some n => if n.isValidChar then some (Char.ofNat n) else none
  | none => none

/-- The rest of a string between single double quotes. -/
def basicBody : Reader (List Char)
  | [] => none
  | '"' :: rest => some ([], rest)
  | '\\' :: 'u' :: a :: b :: c :: d :: rest =>
      match scalar? [a, b, c, d] with
      | some ch => consChar ch (basicBody rest)
      | none => none
  | '\\' :: 'U' :: a :: b :: c :: d :: e :: f :: g :: h :: rest =>
      match scalar? [a, b, c, d, e, f, g, h] with
      | some ch => consChar ch (basicBody rest)
      | none => none
  | '\\' :: c :: rest =>
      match unescape? c with
      | some ch => consChar ch (basicBody rest)
      | none => none
  | c :: rest => if isPlain c && c ≠ '\\' then consChar c (basicBody rest) else none

/-- Whether only blanks stand before the end of the line. -/
def endsLine (s : List Char) : Bool :=
  (newline (s.dropWhile isBlank)).isSome

/--
The rest of a string between triple double quotes.  `skipping` holds after a backslash at the end of
a line, up to the next character that is neither blank nor a line end.  Up to two quotes may stand
directly before the closing ones.
-/
def multilineBody : Bool → Reader (List Char)
  | true, ' ' :: rest => multilineBody true rest
  | true, '\t' :: rest => multilineBody true rest
  | true, '\n' :: rest => multilineBody true rest
  | true, '\r' :: '\n' :: rest => multilineBody true rest
  | _, '"' :: '"' :: '"' :: '"' :: '"' :: rest => some (['"', '"'], rest)
  | _, '"' :: '"' :: '"' :: '"' :: rest => some (['"'], rest)
  | _, '"' :: '"' :: '"' :: rest => some ([], rest)
  | _, '\\' :: 'u' :: a :: b :: c :: d :: rest =>
      match scalar? [a, b, c, d] with
      | some ch => consChar ch (multilineBody false rest)
      | none => none
  | _, '\\' :: 'U' :: a :: b :: c :: d :: e :: f :: g :: h :: rest =>
      match scalar? [a, b, c, d, e, f, g, h] with
      | some ch => consChar ch (multilineBody false rest)
      | none => none
  | _, '\\' :: c :: rest =>
      match unescape? c with
      | some ch => consChar ch (multilineBody false rest)
      | none => if endsLine (c :: rest) then multilineBody true (c :: rest) else none
  | _, '\r' :: '\n' :: rest => consChar '\n' (multilineBody false rest)
  | _, '\n' :: rest => consChar '\n' (multilineBody false rest)
  | _, c :: rest => if isPlain c && c ≠ '\\' then consChar c (multilineBody false rest) else none
  | _, [] => none

/-- The rest of a string between single apostrophes. -/
def literalBody : Reader (List Char)
  | [] => none
  | '\'' :: rest => some ([], rest)
  | c :: rest => if isPlain c then consChar c (literalBody rest) else none

/-- The rest of a string between triple apostrophes. -/
def multilineLiteralBody : Reader (List Char)
  | '\'' :: '\'' :: '\'' :: '\'' :: '\'' :: rest => some (['\'', '\''], rest)
  | '\'' :: '\'' :: '\'' :: '\'' :: rest => some (['\''], rest)
  | '\'' :: '\'' :: '\'' :: rest => some ([], rest)
  | '\r' :: '\n' :: rest => consChar '\n' (multilineLiteralBody rest)
  | '\n' :: rest => consChar '\n' (multilineLiteralBody rest)
  | c :: rest => if isPlain c then consChar c (multilineLiteralBody rest) else none
  | [] => none

/-- A string on one line, in either kind of quotes. -/
def lineString : Reader String := do
  let cs ← Reader.orElse
    (do Reader.char '"'; basicBody)
    (do Reader.char '\''; literalBody)
  pure (String.ofList cs)

/-- A string in triple quotes; a line end directly after the opening ones does not count. -/
def multilineString : Reader String := do
  let cs ← Reader.orElse
    (do Reader.chars ['"', '"', '"']; let _ ← Reader.optional newline; multilineBody false)
    (do Reader.chars ['\'', '\'', '\'']; let _ ← Reader.optional newline; multilineLiteralBody)
  pure (String.ofList cs)

/-- A string. -/
def string : Reader String :=
  Reader.firstOf [multilineString, lineString]

/-- Characters of a key without quotes. -/
def isKeyChar (c : Char) : Bool :=
  c.isAlphanum || c = '_' || c = '-'

/-- One part of a key. -/
def keyPart : Reader String :=
  Reader.firstOf
    [ lineString,
      do let cs ← Reader.takeWhile1 isKeyChar; pure (String.ofList cs) ]

/-- Keys have fewer parts than this. -/
def maxKeyParts : Nat := 80

/-- A key: its parts with points between them, and blanks anywhere around. -/
def key : Reader (List String) := do
  let parts ← Reader.separated1 (Reader.char '.') (do blanks; let k ← keyPart; blanks; pure k)
  if parts.length < maxKeyParts then pure parts else Reader.refuse

/-- Digits of which any two may be parted by one underscore; the underscores are left out. -/
def moreDigits (p : Char → Bool) : List Char → List Char × List Char
  | '_' :: c :: rest =>
      if p c then
        let more := moreDigits p rest
        (c :: more.1, more.2)
      else ([], '_' :: c :: rest)
  | c :: rest =>
      if p c then
        let more := moreDigits p rest
        (c :: more.1, more.2)
      else ([], c :: rest)
  | [] => ([], [])

/-- At least one digit, with underscores between digits. -/
def digits (base : Nat) : Reader (List Char) := do
  let c ← Reader.satisfy (Digits.isDigit base)
  let cs ← fun s => some (moreDigits (Digits.isDigit base) s)
  pure (c :: cs)

/-- A sign, or none; whether it is a minus. -/
def sign : Reader Bool := do
  let c ← Reader.optional (Reader.satisfy fun c => c = '+' || c = '-')
  pure (c = some '-')

/-- Decimal digits without a zero before others. -/
def wholeDigits : Reader (List Char) := do
  let c ← Reader.satisfy (Digits.isDigit 10)
  if c = '0' then pure [c]
  else do
    let cs ← fun s => some (moreDigits (Digits.isDigit 10) s)
    pure (c :: cs)

/-- An integer, if it fits sixty-four bits with a sign. -/
def checked (i : Int) : Reader Value :=
  if -9223372036854775808 ≤ i ∧ i ≤ 9223372036854775807 then pure (.integer i)
  else Reader.refuse

/-- An integer in a base that is announced by a zero and a letter. -/
def basedInteger (base : Nat) (letter : Char) : Reader Value := do
  Reader.chars ['0', letter]
  let ds ← digits base
  checked ((Digits.read? base ds).getD 0 : Nat)

/-- An integer. -/
def integer : Reader Value :=
  Reader.firstOf
    [ basedInteger 16 'x',
      basedInteger 8 'o',
      basedInteger 2 'b',
      do
        let negative ← sign
        let ds ← wholeDigits
        let n := (Digits.read? 10 ds).getD 0
        checked (if negative then -(n : Int) else n) ]

/-- The exponent of a float. -/
def exponent : Reader Int := do
  let _ ← Reader.satisfy fun c => c = 'e' || c = 'E'
  let negative ← sign
  let ds ← digits 10
  let n := (Digits.read? 10 ds).getD 0
  pure (if negative then -(n : Int) else n)

/-- A float with digits; beyond the largest value there is none, though there is below the smallest. -/
def digitFloat : Reader Value := do
  let negative ← sign
  let whole ← wholeDigits
  let frac ← Reader.optional (do Reader.char '.'; digits 10)
  let exp ← Reader.optional exponent
  if frac.isNone && exp.isNone then Reader.refuse
  else do
    let n := (Digits.read? 10 (whole ++ frac.getD [])).getD 0
    let x := Binary64.nearest negative ⟨n, exp.getD 0 - (frac.getD []).length⟩
    if x = .infinite false then Reader.refuse else pure (.real x)

/-- A float written as a word. -/
def wordFloat : Reader Value := do
  let negative ← sign
  Reader.firstOf
    [ do Reader.chars ['i', 'n', 'f']; pure (.real (.infinite negative)),
      do Reader.chars ['n', 'a', 'n']; pure (.real .nan) ]

/-- A fixed count of decimal digits, and the number they write. -/
def fixedDigits : Nat → Reader (List Char)
  | 0 => pure []
  | n + 1 => do
      let c ← Reader.satisfy (Digits.isDigit 10)
      let cs ← fixedDigits n
      pure (c :: cs)

/-- A number of a fixed count of digits between two bounds. -/
def bounded (count low high : Nat) : Reader Nat := do
  let ds ← fixedDigits count
  let n := (Digits.read? 10 ds).getD 0
  if low ≤ n ∧ n ≤ high then pure n else Reader.refuse

/-- The number of days of a month. -/
def daysIn (year month : Nat) : Nat :=
  if month = 2 then
    if year % 4 = 0 ∧ (year % 100 ≠ 0 ∨ year % 400 = 0) then 29 else 28
  else if month = 4 ∨ month = 6 ∨ month = 9 ∨ month = 11 then 30
  else 31

/-- A date that the calendar has. -/
def date : Reader Unit := do
  let year ← bounded 4 0 9999
  Reader.char '-'
  let month ← bounded 2 1 12
  Reader.char '-'
  let _ ← bounded 2 1 (daysIn year month)
  pure ()

/-- A time of day; a minute may have a leap second. -/
def time : Reader Unit := do
  let _ ← bounded 2 0 23
  Reader.char ':'
  let _ ← bounded 2 0 59
  Reader.char ':'
  let _ ← bounded 2 0 60
  let _ ← Reader.optional (do Reader.char '.'; Reader.takeWhile1 (Digits.isDigit 10))
  pure ()

/-- An offset from universal time. -/
def offset : Reader Unit :=
  Reader.firstOf
    [ do let _ ← Reader.satisfy fun c => c = 'Z' || c = 'z'; pure (),
      do
        let _ ← Reader.satisfy fun c => c = '+' || c = '-'
        let _ ← bounded 2 0 23
        Reader.char ':'
        let _ ← bounded 2 0 59
        pure () ]

/-- A date, a time of day, or both. -/
def moment : Reader Value :=
  Reader.firstOf
    [ do
        date
        let _ ← Reader.optional do
          let _ ← Reader.satisfy fun c => c = 'T' || c = 't' || c = ' '
          time
          Reader.optional offset
        pure .moment,
      do time; pure .moment ]

/-- A value without parts. -/
def scalar : Reader Value :=
  Reader.firstOf
    [ do let s ← string; pure (.string s),
      do Reader.chars "true".toList; pure (.bool true),
      do Reader.chars "false".toList; pure (.bool false),
      moment, wordFloat, digitFloat, integer ]

end Toml

end StreamServer
