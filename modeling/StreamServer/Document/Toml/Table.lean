import StreamServer.Document

/-!
# TOML: how tables grow

A table of a document grows statement by statement.  What a later statement may still add depends on
how the table came to be: by a header of its own, implied by a longer header, or by a key with
points.  An entry is never given twice.
-/

namespace StreamServer

namespace Toml

/-- How a table came to be. -/
inductive Origin
  | header
  | implied
  | dotted
  deriving Repr, DecidableEq

/-- What a key of a growing table holds: a finished value, a table, or a list of tables. -/
inductive Node
  | value (v : Value)
  | table (origin : Origin) (entries : List (String × Node))
  | tables (items : List (List (String × Node)))

/-- The entries of a growing table, in the order of their first appearance. -/
abbrev Entries := List (String × Node)

namespace Entries

/-- What a key holds. -/
def get? (es : Entries) (k : String) : Option Node :=
  (es.find? fun e => e.1 == k).map Prod.snd

/-- The entries with what a key holds replaced in its place. -/
def set (es : Entries) (k : String) (n : Node) : Entries :=
  es.map fun e => if e.1 == k then (k, n) else e

/-- The entries without a key. -/
def erase (es : Entries) (k : String) : Entries :=
  es.filter fun e => e.1 != k

end Entries

/--
Goes down a path of tables and does something at its end.  Missing tables are made, with `fresh` as
their origin; of a list of tables the last one is entered.  A key with points may not enter a table
that has a header of its own.
-/
def within {α : Type} (fresh : Origin) (act : Origin → Entries → Option (Entries × α)) :
    List String → Origin → Entries → Option (Entries × α)
  | [], origin, es => act origin es
  | k :: path, _, es =>
      match es.get? k with
      | none => do
          let (sub, a) ← within fresh act path fresh []
          some (es ++ [(k, .table fresh sub)], a)
      | some (.value _) => none
      | some (.table origin sub) =>
          if fresh = .dotted ∧ origin = .header then none
          else do
            let (sub, a) ← within fresh act path origin sub
            some (es.set k (.table origin sub), a)
      | some (.tables items) =>
          match items.getLast? with
          | none => none
          | some last => do
              let (sub, a) ← within fresh act path .header last
              some (es.set k (.tables (items.dropLast ++ [sub])), a)

/-- Adds a value at a key of one part or more.  The table that takes it is either the one that the
statement stands in or one that keys with points have made. -/
def insert (es : Entries) (path : List String) (v : Value) : Option Entries :=
  match path.getLast? with
  | none => none
  | some k => do
      let (es, _) ← within .dotted
        (fun origin es =>
          if origin = .dotted ↔ path.dropLast = [] then none
          else if (es.get? k).isSome then none
          else some (es ++ [(k, .value v)], ()))
        path.dropLast .header es
      some es

mutual

/-- The value that a node stands for. -/
def Node.toValue : Node → Value
  | .value v => v
  | .table _ es => .table (entriesToValues es)
  | .tables items => .list (itemsToValues items)

/-- The entries of a table value. -/
def entriesToValues : List (String × Node) → List (String × Value)
  | [] => []
  | (k, n) :: rest => (k, n.toValue) :: entriesToValues rest

/-- The items of a list of tables. -/
def itemsToValues : List (List (String × Node)) → List Value
  | [] => []
  | es :: rest => .table (entriesToValues es) :: itemsToValues rest

end

/-- A table value from its keys and values. -/
def inlineTable? (pairs : List (List String × Value)) : Option Value := do
  let es ← pairs.foldlM (fun es p => insert es p.1 p.2) []
  some (.table (entriesToValues es))

/-- What a statement of a document says. -/
inductive Statement
  | entry (path : List String) (v : Value)
  | header (path : List String)
  | item (path : List String)

/-- A document in the making: the tables placed so far and the one that entries go into now. -/
structure Builder where
  placed : Entries
  path : List String
  isItem : Bool
  own : Entries

namespace Builder

/-- The beginning of a document: entries go into the root. -/
def empty : Builder := ⟨[], [], false, []⟩

/-- The document with the current table put in its place. -/
def close (b : Builder) : Option Entries :=
  match b.path.getLast? with
  | none => some b.own
  | some k => do
      let (es, _) ← within .implied
        (fun _ es =>
          match es.get? k, b.isItem with
          | none, true => some (es ++ [(k, .tables [b.own])], ())
          | some (.tables items), true => some (es.set k (.tables (items ++ [b.own])), ())
          | none, false => some (es ++ [(k, .table .header b.own)], ())
          | _, _ => none)
        b.path.dropLast .header b.placed
      some es

/-- Begins a table under a header; a table so far only implied is taken over. -/
def begin? (placed : Entries) (path : List String) : Option Builder :=
  match path.getLast? with
  | none => none
  | some k => do
      let (placed, own) ← within .implied
        (fun _ es =>
          match es.get? k with
          | none => some (es, [])
          | some (.table .implied sub) => some (es.erase k, sub)
          | _ => none)
        path.dropLast .header placed
      some ⟨placed, path, false, own⟩

/-- The document after one more statement. -/
def step (b : Builder) : Statement → Option Builder
  | .entry path v => do
      let own ← insert b.own path v
      some { b with own }
  | .header path => do
      let placed ← b.close
      begin? placed path
  | .item path => do
      let placed ← b.close
      some ⟨placed, path, true, []⟩

end Builder

/-- The table that a sequence of statements describes. -/
def build? (statements : List Statement) : Option Value := do
  let b ← statements.foldlM Builder.step Builder.empty
  let es ← b.close
  some (.table (entriesToValues es))

end Toml

end StreamServer
