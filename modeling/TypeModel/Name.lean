import TypeModel.Text.Split

/-!
# Names

A name is a string; a dot divides a qualified name into segments.

* `Name.qualify p c`    the name of `c` inside `p`;
* `Name.segments n`     the segments of `n` that are not empty;
* `Name.ofSegments ss`  the name with the given segments, empty ones left out;
* `Name.last n`         what follows the last dot.
-/

namespace TypeModel

abbrev Name := String

namespace Name

def qualify (parent child : Name) : Name := parent ++ "." ++ child

def segments (n : Name) : List String := (Text.split '.' n).filter (!·.isEmpty)

def ofSegments (parts : List String) : Name := Text.joinWith "." (parts.filter (!·.isEmpty))

def last (n : Name) : String := (Text.split '.' n).getLast?.getD n

def isQualified (n : Name) : Bool := n.toList.contains '.'

/-- the length in characters -/
def chars (n : Name) : Nat := n.toList.length

end Name

end TypeModel
