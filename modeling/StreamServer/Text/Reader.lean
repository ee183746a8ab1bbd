/-!
# Readers

A reader takes a value off the front of a list of characters and hands on the rest, or refuses.
Readers are composed in sequence, as alternatives, and by repetition.  A repetition goes on only
while it makes progress, so every reader ends.
-/

namespace StreamServer

/-- Takes a value off the front of a text. -/
abbrev Reader := StateT (List Char) Option

namespace Reader

variable {α β : Type}

/-- Refuses every text. -/
def refuse : Reader α := fun _ => none

/-- The next character. -/
def next : Reader Char
  | [] => none
  | c :: rest => some (c, rest)

/-- The next character, if it is as asked. -/
def satisfy (p : Char → Bool) : Reader Char
  | [] => none
  | c :: rest => if p c then some (c, rest) else none

/-- One given character. -/
def char (c : Char) : Reader Unit
  | [] => none
  | d :: rest => if d = c then some ((), rest) else none

/-- A given sequence of characters. -/
def chars : List Char → Reader Unit
  | [] => pure ()
  | c :: cs => do
      char c
      chars cs

/-- All characters at the front that are as asked. -/
def takeWhile (p : Char → Bool) : Reader (List Char) :=
  fun s => some (s.takeWhile p, s.dropWhile p)

/-- At least one character that is as asked, and all that follow. -/
def takeWhile1 (p : Char → Bool) : Reader (List Char) := do
  let c ← satisfy p
  let cs ← takeWhile p
  pure (c :: cs)

/-- Accepts only the end of the text. -/
def eof : Reader Unit
  | [] => some ((), [])
  | _ :: _ => none

/-- The first of two readers that accepts. -/
def orElse (p q : Reader α) : Reader α :=
  fun s =>
    match p s with
    | some r => some r
    | none => q s

/-- The first of several readers that accepts. -/
def firstOf : List (Reader α) → Reader α
  | [] => refuse
  | p :: ps => orElse p (firstOf ps)

/-- A reader that may be absent. -/
def optional (p : Reader α) : Reader (Option α) :=
  fun s =>
    match p s with
    | some (a, rest) => some (some a, rest)
    | none => some (none, s)

/-- What is read by using a reader again and again, while it accepts and makes progress. -/
def repeated (p : Reader α) (s : List Char) : List α × List Char :=
  match p s with
  | some (a, rest) =>
      if rest.length < s.length then
        let more := repeated p rest
        (a :: more.1, more.2)
      else ([], s)
  | none => ([], s)
termination_by s.length

/-- As many values in a row as there are. -/
def many (p : Reader α) : Reader (List α) :=
  fun s => some (repeated p s)

/-- One value or more, with a separator between any two. -/
def separated1 (separator : Reader β) (p : Reader α) : Reader (List α) := do
  let first ← p
  let more ← many (do let _ ← separator; p)
  pure (first :: more)

/-- Any number of values, with a separator between any two. -/
def separated (separator : Reader β) (p : Reader α) : Reader (List α) :=
  orElse (separated1 separator p) (pure [])

/-- The value of a reader that has to use up the whole text. -/
def run? (p : Reader α) (s : List Char) : Option α :=
  match p s with
  | some (a, []) => some a
  | _ => none

end Reader

end StreamServer
