import StreamServer.Text.Digits
import StreamServer.Text.Unprintable

/-!
# Quoted text

A text shown inside double quotes on one line.  Tab, carriage return, line feed, the quote, the
backslash and the null character are spelt with a backslash and one character; every other character
without a printed form is spelt by its number, `\\u{..}` in hexadecimal without leading zeros; all
else stands for itself.  The spelling can be undone, which `unquote?` does.
-/

namespace StreamServer

namespace Quoted

/-- The spelling of one character inside quotes. -/
def spell (c : Char) : List Char :=
  if c = '\t' then ['\\', 't']
  else if c = '\r' then ['\\', 'r']
  else if c = '\n' then ['\\', 'n']
  else if c = '"' then ['\\', '"']
  else if c = '\\' then ['\\', '\\']
  else if c = '\x00' then ['\\', '0']
  else if isUnprintable c then
    ['\\', 'u', '\x7b'] ++ Digits.write 16 c.toNat ++ ['\x7d']
  else [c]

/-- A list of characters between double quotes. -/
def quoteChars (cs : List Char) : List Char :=
  '"' :: cs.flatMap spell ++ ['"']

/-- The character that a backslash and one letter spell. -/
def short? (c : Char) : Option Char :=
  if c = 't' then some '\t'
  else if c = 'r' then some '\r'
  else if c = 'n' then some '\n'
  else if c = '"' then some '"'
  else if c = '\\' then some '\\'
  else if c = '0' then some '\x00'
  else none

/-- Where the decoder stands inside a spelling. -/
inductive Position
  | plain
  | backslash
  | brace
  | digits (value : Nat)
  deriving Repr, DecidableEq

/-- Undoes the spelling of a text up to the closing quote, after which nothing may follow. -/
def unspell? : Position → List Char → Option (List Char)
  | .plain, ['"'] => some []
  | .plain, c :: rest =>
      if c = '\\' then unspell? .backslash rest
      else if c = '"' then none
      else (unspell? .plain rest).map (c :: ·)
  | .backslash, c :: rest =>
      if c = 'u' then unspell? .brace rest
      else
        match short? c with
        | some d => (unspell? .plain rest).map (d :: ·)
        | none => none
  | .brace, c :: rest =>
      if c = '\x7b' then unspell? (.digits 0) rest else none
  | .digits value, c :: rest =>
      if c = '\x7d' then (unspell? .plain rest).map (Char.ofNat value :: ·)
      else
        match Digits.value? c with
        | some d => unspell? (.digits (value * 16 + d)) rest
        | none => none
  | _, [] => none

/-- The characters whose quoted form is given. -/
def unquote? : List Char → Option (List Char)
  | '"' :: rest => unspell? .plain rest
  | _ => none

end Quoted

/-- A text between double quotes, on one line. -/
def quote (s : String) : String :=
  String.ofList (Quoted.quoteChars s.toList)

end StreamServer
