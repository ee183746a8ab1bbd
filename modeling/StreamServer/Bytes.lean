/-!
# Octet strings

What a transport carries is a list of octets.  Lists rather than arrays, because everything said
about a stream of data is said about prefixes, suffixes and concatenations.
-/

namespace StreamServer

/-- A string of octets, in the order in which they travel. -/
abbrev Bytes := List UInt8

namespace Bytes

/-- The UTF-8 encoding of a list of characters. -/
def ofChars (cs : List Char) : Bytes :=
  cs.flatMap String.utf8EncodeChar

/-- The UTF-8 encoding of a text. -/
def ofString (s : String) : Bytes :=
  ofChars s.toList

theorem ofChars_nil : ofChars [] = [] := rfl

theorem ofChars_cons (c : Char) (cs : List Char) :
    ofChars (c :: cs) = String.utf8EncodeChar c ++ ofChars cs := rfl

theorem ofChars_singleton (c : Char) : ofChars [c] = String.utf8EncodeChar c := by
  simp [ofChars]

theorem ofChars_append (cs ds : List Char) :
    ofChars (cs ++ ds) = ofChars cs ++ ofChars ds := by
  simp [ofChars]

end Bytes

end StreamServer
