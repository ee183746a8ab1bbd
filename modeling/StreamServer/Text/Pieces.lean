/-!
# Pieces of a list

Cutting a list at a separator.
-/

namespace StreamServer

variable {α : Type} [DecidableEq α]

/-- The pieces of a list between the occurrences of a separator. -/
def pieces (sep : α) : List α → List (List α)
  | [] => [[]]
  | a :: rest =>
      if a = sep then [] :: pieces sep rest
      else
        match pieces sep rest with
        | [] => [[a]]
        | p :: ps => (a :: p) :: ps

/-- The parts of a list before and after the first occurrence of a separator. -/
def cut? (sep : α) : List α → Option (List α × List α)
  | [] => none
  | a :: rest =>
      if a = sep then some ([], rest)
      else (cut? sep rest).map fun p => (a :: p.1, p.2)

end StreamServer
