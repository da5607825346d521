import TypeModel.Cpp.Header

/-!
# Test stubs

A small program for each class: it creates an instance, calls the generated accessors, and tries
the generated copy, comparison and serialization members.  A class that cannot be created without
arguments is only mentioned.

`isAbstractAlong` decides whether a class has a pure virtual method left: one declared by it or a
base, with no other method of that name in a class derived from the one that declares it.
-/

namespace TypeModel.Cpp

/-- along a chain of structs, most derived first, with methods `implemented` so far: some pure
method is not implemented before it is declared -/
def isAbstractAlong (implemented : List Name) : List StructType → Bool
  | [] => false
  | s :: ss =>
    (s.methods.any fun x => x.isPure && !implemented.contains x.name) ||
      isAbstractAlong ((s.methods.filter (!·.isPure)).map (·.name) ++ implemented) ss

def isAbstract (m : Model) (id : TypeId) (s : StructType) : Bool :=
  isAbstractAlong [] (s :: m.baseStructs id)

/-- the class is not abstract, and a constructor without arguments, if written by hand, is
public -/
def isConstructible (m : Model) (id : TypeId) (s : StructType) : Bool :=
  (s.constructors.filter (·.parameters.isEmpty)).all (·.visibility = .publicAccess) &&
    !isAbstract m id s

/-- values of the type can be compared: primitives and scalars -/
def isComparable (m : Model) (f : Field) : Except GenerationError Bool := do
  match ← m.target f.typeRef with
  | .basic _ => return true
  | .declared _ => m.isScalar f.typeRef

def accessorCalls (m : Model) (f : Field) : Except GenerationError Text.Script := do
  let value := (← memberType m none f).text ++ "\x7b\x7d"
  let set : Text.Step := .line ("instance." ++ setterName f ++ "(" ++ value ++ ");")
  if ← isComparable m f then
    return [set, .line ("assert(instance." ++ getterName f ++ "() == " ++ value ++ ");")]
  else return [set, .line ("static_cast<void>(instance." ++ getterName f ++ "());")]

def featureCalls (className : String) (o : StructOptions) : Text.Script :=
  (if o.copySemantics then
    .line (className ++ " copy(instance);") ::
      (if o.operators then [.line "assert(copy == instance);"] else [])
    else []) ++
  (if o.operators then
    [.line "assert(instance == instance);", .line "assert(!(instance != instance));"]
    else []) ++
  (if o.serialization then
    [.line "const std::string encoded = instance.serialize();",
     .line (className ++ " restored;"),
     .line "assert(restored.deserialize(encoded));"]
    else [])

def printLine (text : String) : Text.Step :=
  .line ("std::cout << \"" ++ text ++ "\" << std::endl;")

/-- the body of `main` -/
def testBody (m : Model) (e : Entry) (s : StructType) : Except GenerationError Text.Script := do
  if isConstructible m e.id s then
    let className := qualifiedName e none
    let calls ← (accessorFields s).mapM (accessorCalls m)
    return [.line (className ++ " instance;")] ++ calls.flatten ++
      featureCalls className s.options ++
      [printLine (s.name ++ "Test passed"), .line "return 0;"]
  else
    return [printLine (s.name ++ "Test: " ++ s.name ++ " cannot be default constructed"),
      .line "return 0;"]

def testScript (m : Model) (e : Entry) (s : StructType) : Except GenerationError Text.Script := do
  let body ← testBody m e s
  return [.line ("// " ++ banner), .blank, .line ("#include \"" ++ s.name ++ ".h\""), .blank,
    .line "#include <cassert>", .line "#include <iostream>", .blank, .line "int main() \x7b",
    .indented body, .line "\x7d"]

def testText (m : Model) (e : Entry) (s : StructType) : Except GenerationError String :=
  return Text.Script.render indent (← testScript m e s)

end TypeModel.Cpp
