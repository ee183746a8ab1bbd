import StreamServer.Document.Toml.Scalar
import StreamServer.Document.Toml.Table

/-!
# TOML

A document is read as a sequence of statements, each on lines of its own: a key with a value, the
header of a table, or the header of one more table of a list.  The statements then build the root
table.
-/

namespace StreamServer

namespace Toml

/-- Skips blanks, line ends and comments; stops at a character that no comment may hold. -/
def skipLines : Bool → List Char → List Char
  | false, ' ' :: rest => skipLines false rest
  | false, '\t' :: rest => skipLines false rest
  | false, '#' :: rest => skipLines true rest
  | _, '\n' :: rest => skipLines false rest
  | _, '\r' :: '\n' :: rest => skipLines false rest
  | true, c :: rest => if isPlain c then skipLines true rest else c :: rest
  | _, s => s

/-- Skips blanks, line ends and comments. -/
def gap : Reader Unit :=
  fun s => some ((), skipLines false s)

/-- A reader with blanks, line ends and comments skipped on both sides. -/
def spaced {α : Type} (p : Reader α) : Reader α := do
  gap
  let a ← p
  gap
  pure a

/-- A list whose items are read by a given reader; a separator may follow the last. -/
def list (item : Reader Value) : Reader Value := do
  Reader.char '['
  gap
  let items ← Reader.separated (Reader.char ',') (spaced item)
  if items.isEmpty then pure ()
  else do
    let _ ← Reader.optional (Reader.char ',')
    gap
  Reader.char ']'
  pure (.list items)

/-- A key with its value. -/
def pair (item : Reader Value) : Reader (List String × Value) := do
  let k ← key
  Reader.char '='
  blanks
  let v ← item
  pure (k, v)

/-- A table on one line whose values are read by a given reader. -/
def table (item : Reader Value) : Reader Value := do
  Reader.char '\x7b'
  let pairs ← Reader.separated (Reader.char ',') (do let p ← pair item; blanks; pure p)
  blanks
  Reader.char '\x7d'
  match inlineTable? pairs with
  | some v => pure v
  | none => Reader.refuse

/-- A value whose lists and tables are nested no deeper than a given depth. -/
def value : Nat → Reader Value
  | 0 => scalar
  | depth + 1 => Reader.firstOf [list (value depth), table (value depth), scalar]

/-- The deepest nesting that is read. -/
def maxDepth : Nat := 79

/-- What may stand between a statement and the end of its line. -/
def lineEnd : Reader Unit := do
  blanks
  let _ ← Reader.optional (do Reader.char '#'; Reader.takeWhile isPlain)
  Reader.firstOf [newline, Reader.eof]

/-- A statement. -/
def statement : Reader Statement :=
  Reader.firstOf
    [ do
        Reader.chars ['[', '[']
        let k ← key
        Reader.chars [']', ']']
        pure (.item k),
      do
        Reader.char '['
        let k ← key
        Reader.char ']'
        pure (.header k),
      do
        let (k, v) ← pair (value maxDepth)
        pure (.entry k v) ]

/-- The statements of a document. -/
def document : Reader (List Statement) := do
  let _ ← Reader.optional (Reader.char '\uFEFF')
  let statements ← Reader.many (do gap; let s ← statement; lineEnd; pure s)
  gap
  Reader.eof
  pure statements

/-- The root table that a text describes. -/
def parse? (s : String) : Option Value := do
  let statements ← Reader.run? document s.toList
  build? statements

end Toml

end StreamServer
