import TypeModel.Model.Basic
import TypeModel.Text.Case

/-!
# Names in generated C++

* `namespaceOf e`           the namespace of a declaration: that of its struct if the struct
                            gives one, else its package;
* `qualifiedName e from`    the declaration as written inside the namespace `from`;
* `headerPath`, `sourcePath`, `testPath`   the files of a declaration;
* `includeGuard`            the guard of a header.
-/

namespace TypeModel.Cpp

/-- a text cut at `::`, empty parts included -/
def splitScopes : List Char → List (List Char)
  | [] => [[]]
  | ':' :: ':' :: cs => [] :: splitScopes cs
  | c :: cs => Text.consHead c (splitScopes cs)

/-- segments of a namespace written with `.` or `::` -/
def namespaceSegments (s : String) : List String :=
  ((splitScopes (s.toList.flatMap fun c => if c = '.' then [':', ':'] else [c])).filter
    (!·.isEmpty)).map String.ofList

def normalizeNamespace (s : String) : String := Text.joinWith "::" (namespaceSegments s)

def namespaceOf (e : Entry) : Option String :=
  let owner := e.outer.orElse fun _ => e.type.struct?
  let name :=
    match owner.bind (·.ownNamespace) with
    | some own => normalizeNamespace own
    | none => ((e.package.map (·.name)).map normalizeNamespace).getD ""
  if name.isEmpty then none else some name

/-- the name inside its own namespace -/
def localName (e : Entry) : String :=
  match e.outer with
  | some outer => outer.name ++ "::" ++ e.name
  | none => e.name

def qualifiedName (e : Entry) (fromNamespace : Option String) : String :=
  match namespaceOf e with
  | some ns => if some ns = fromNamespace then localName e else ns ++ "::" ++ localName e
  | none => localName e

def headerPath (e : Entry) : String := "include/" ++ e.name ++ ".h"

def sourcePath (e : Entry) : String := "src/" ++ e.name ++ ".cpp"

def testPath (e : Entry) : String := "test/" ++ e.name ++ "Test.cpp"

/-- stem of the header that declares a type: inner types stand in the header of their struct -/
def headerStem (e : Entry) : String :=
  match e.outer with
  | some outer => outer.name
  | none => e.name

/-- `COM_EXAMPLE_ORDER_H` for `Order` in `com::example` -/
def includeGuard (ns : Option String) (name : String) : String :=
  let segments := ((ns.map fun ns => (splitScopes ns.toList).map String.ofList).getD []) ++ [name]
  Text.toUpper (Text.joinWith "_" segments) ++ "_H"

def getterName (f : Field) : String := "get" ++ Text.capitalize f.name

def setterName (f : Field) : String := "set" ++ Text.capitalize f.name

/-- the fields that get a getter and a setter: single values for which neither is written by
hand -/
def accessorFields (s : StructType) : List Field :=
  s.instanceFields.filter fun f =>
    f.isSingleValued && !s.hasMethodNamed (getterName f) && !s.hasMethodNamed (setterName f)

def hasDefaultConstructor (s : StructType) : Bool := s.constructors.any (·.parameters.isEmpty)

/-- whether a constructor from all fields is generated -/
def hasFieldsConstructor (s : StructType) : Bool :=
  s.constructors.isEmpty && !s.instanceFields.isEmpty

end TypeModel.Cpp
