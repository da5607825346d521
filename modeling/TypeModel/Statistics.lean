import TypeModel.Model.Basic
import TypeModel.Text.Split

/-!
# Statistics

How many declarations of each kind a model has, and a summary of its top-level structs.
-/

namespace TypeModel

structure KindCounts where
  structs : Nat := 0
  enumerations : Nat := 0
  arrays : Nat := 0
  aliases : Nat := 0
  deriving DecidableEq, Repr

namespace KindCounts

def ofTypes (types : List TypeDef) : KindCounts :=
  let count (k : TypeKind) : Nat := types.countP (·.kind = k)
  { structs := count .struct, enumerations := count .enumeration, arrays := count .array,
    aliases := count .alias }

def total (c : KindCounts) : Nat := c.structs + c.enumerations + c.arrays + c.aliases

def lines (c : KindCounts) (indent : String) : List String :=
  [indent ++ "Structs: " ++ Nat.repr c.structs,
   indent ++ "Enums: " ++ Nat.repr c.enumerations,
   indent ++ "Arrays: " ++ Nat.repr c.arrays,
   indent ++ "Typedefs: " ++ Nat.repr c.aliases]

end KindCounts

structure StructSummary where
  name : Name
  fields : Nat
  base : Option Name
  deriving DecidableEq, Repr

def StructSummary.text (s : StructSummary) : String :=
  s.name ++ " (fields: " ++ Nat.repr s.fields ++
    (match s.base with
      | some base => ", extends: " ++ base
      | none => "") ++ ")"

structure Statistics where
  name : Option String
  primitiveTypes : Nat
  topLevel : KindCounts
  packages : List (Name × KindCounts)
  structs : List StructSummary
  deriving DecidableEq, Repr

namespace Statistics

def ofModel (m : Model) : Statistics :=
  { name := m.name
    primitiveTypes := (m.primitives.flatMap (·.dataTypes)).length
    topLevel := .ofTypes m.types
    packages := m.packages.map fun p => (p.name, .ofTypes p.types)
    structs := (m.types.filterMap TypeDef.struct?).map fun s =>
      { name := s.name, fields := s.fields.length, base := s.base.map (·.name) } }

/-- declared types, top-level and packaged -/
def totalTypes (s : Statistics) : Nat :=
  (s.packages.map (·.2.total)).foldl (· + ·) s.topLevel.total

def lines (s : Statistics) : List String :=
  ["Model: " ++ s.name.getD "(unnamed)",
   "Primitive types: " ++ Nat.repr s.primitiveTypes,
   "Packages: " ++ Nat.repr s.packages.length,
   "Top-level types: " ++ Nat.repr s.topLevel.total] ++ s.topLevel.lines "  " ++
  (if s.packages.isEmpty then []
    else ["", "Packages:"] ++
      s.packages.flatMap fun (name, counts) => ("  - " ++ name ++ ":") :: counts.lines "      ") ++
  (if s.structs.isEmpty then []
    else ["", "Struct details:"] ++ s.structs.map fun x => "  - " ++ x.text)

/-- lines, each ended by a line feed -/
def text (s : Statistics) : String := String.join (s.lines.map (· ++ "\n"))

end Statistics

end TypeModel
