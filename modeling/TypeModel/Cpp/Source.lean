import TypeModel.Cpp.Header

/-!
# Implementation files

The definitions of the member functions of one class, in a fixed order: static members,
constructors and destructor, copy and move members, methods that are not pure virtual, accessors,
operators, serialization.  A `Heading` is a definition without initializers and body.

Serialization writes `key=value;` for the fields whose type is a primitive or an enumeration
(`fieldEncoding`).
-/

namespace TypeModel.Cpp

/-- the definition of a static member -/
structure StaticDefinition where
  type : TypeExpr
  name : String
  initial : Option String

def StaticDefinition.text (d : StaticDefinition) (owner : String) : String :=
  let head := d.type.text ++ " " ++ owner ++ "::" ++ d.name
  match d.initial with
  | some value => head ++ " = " ++ value ++ ";"
  | none => head ++ "\x7b\x7d;"

/-- what stands in front of the initializers and the body of a function -/
structure Heading where
  /-- constructors and destructors have no result -/
  returns : Option TypeExpr := none
  name : String
  arguments : List Argument := []
  isConst : Bool := false
  isNoexcept : Bool := false
  deriving DecidableEq

/-- the heading of a member of the class `owner` -/
def Heading.text (g : Heading) (owner : String) : String :=
  (match g.returns with
    | some type => type.text ++ " "
    | none => "") ++
  owner ++ "::" ++ g.name ++ "(" ++ argumentsText g.arguments ++ ")" ++ wordIf g.isConst " const" ++
    wordIf g.isNoexcept " noexcept"

structure Definition where
  heading : Heading
  initializers : List String := []
  body : List String := []

/-- a definition outside the class `owner`; an empty body stays on the line of the heading -/
def Definition.script (d : Definition) (owner : String) : Text.Script :=
  let heading := d.heading.text owner
  let opening := if d.body.isEmpty then "\x7b\x7d" else "\x7b"
  let head : Text.Script :=
    if d.initializers.isEmpty then [.line (heading ++ " " ++ opening)]
    else [.line heading,
      .indented [.line (": " ++ Text.joinWith ", " d.initializers ++ " " ++ opening)]]
  let rest : Text.Script :=
    if d.body.isEmpty then [] else [.indented (d.body.map .line), .line "\x7d"]
  head ++ rest ++ [.blank]

structure Source where
  name : String
  ns : Option String
  includes : List String
  statics : List StaticDefinition
  definitions : List Definition

/-- lines of a body written by hand, without blanks around it -/
def bodyLines (body : Option String) : List String :=
  match body with
  | some text => Text.lines (String.ofList (Text.trim text.toList))
  | none => []

/-! ## headings -/

namespace Heading

/-- the constructor with one argument for every instance field -/
def ofFields (m : Model) (ns : Option String) (s : StructType) :
    Except GenerationError Heading := do
  let arguments ← s.instanceFields.mapM fun f =>
    return ⟨← memberParameterType m ns f, f.name⟩
  return { name := s.name, arguments }

def ofConstructor (m : Model) (ns : Option String) (s : StructType) (c : Constructor) :
    Except GenerationError Heading :=
  return { name := s.name, arguments := ← argumentsOf m ns c.parameters }

def ofMethod (m : Model) (ns : Option String) (x : Method) : Except GenerationError Heading := do
  let returns ← resultOf m ns x
  let arguments ← argumentsOf m ns x.parameters
  return { returns := some returns, name := x.name, arguments, isConst := x.has .const,
           isNoexcept := x.has .noexcept }

/-- a getter returns scalars, and everything in a class with a lock, by value -/
def getter (m : Model) (ns : Option String) (s : StructType) (f : Field) :
    Except GenerationError Heading := do
  let type ← memberType m ns f
  let byValue := (← memberIsScalar m f) || s.options.threading
  return { returns := some (if byValue then type else .constRef type), name := getterName f,
           isConst := true }

def setter (m : Model) (ns : Option String) (f : Field) : Except GenerationError Heading :=
  return { returns := some (.named "void"), name := setterName f,
           arguments := [⟨← memberParameterType m ns f, "value"⟩] }

def copyConstructor (s : StructType) : Heading :=
  { name := s.name, arguments := [⟨.constRef (.named s.name), "other"⟩] }

def copyAssignment (s : StructType) : Heading :=
  { returns := some (.ref (.named s.name)), name := "operator=",
    arguments := [⟨.constRef (.named s.name), "other"⟩] }

def moveConstructor (s : StructType) : Heading :=
  { name := s.name, arguments := [⟨.rvalueRef (.named s.name), "other"⟩], isNoexcept := true }

def moveAssignment (s : StructType) : Heading :=
  { returns := some (.ref (.named s.name)), name := "operator=",
    arguments := [⟨.rvalueRef (.named s.name), "other"⟩], isNoexcept := true }

def comparison (s : StructType) (name : String) : Heading :=
  { returns := some (.named "bool"), name, arguments := [⟨.constRef (.named s.name), "other"⟩],
    isConst := true }

def serialize : Heading :=
  { returns := some (.named "std::string"), name := "serialize", isConst := true }

def deserialize : Heading :=
  { returns := some (.named "bool"), name := "deserialize",
    arguments := [⟨.constRef (.named "std::string"), "data"⟩] }

end Heading

/-! ## constructors and special members -/

def defaultConstructors (s : StructType) : List Definition :=
  if hasDefaultConstructor s then [] else [{ heading := { name := s.name } }]

def fieldsConstructors (m : Model) (ns : Option String) (s : StructType) :
    Except GenerationError (List Definition) := do
  if hasFieldsConstructor s then
    let heading ← Heading.ofFields m ns s
    return [{ heading,
              initializers := s.instanceFields.map fun f => f.name ++ "(" ++ f.name ++ ")" }]
  else return []

def constructorDefinition (m : Model) (ns : Option String) (s : StructType) (c : Constructor) :
    Except GenerationError Definition := do
  let heading ← Heading.ofConstructor m ns s c
  return { heading,
           initializers := c.initializers.map fun i => i.member ++ "(" ++ i.value ++ ")",
           body := bodyLines c.body }

def destructor (s : StructType) : Definition := { heading := { name := "~" ++ s.name } }

/-- a member of `other`, moved or not -/
def sourceOf (moving : Bool) (x : String) : String := if moving then "std::move(" ++ x ++ ")" else x

/-- initializers of a copy or move constructor: the base, then every field -/
def transferInitializers (base : Option TypeExpr) (fields : List Field) (moving : Bool) :
    List String :=
  (base.map fun b => b.text ++ "(" ++ sourceOf moving "other" ++ ")").toList ++
    fields.map fun f => f.name ++ "(" ++ sourceOf moving ("other." ++ f.name) ++ ")"

/-- body of a copy or move assignment -/
def transferBody (base : Option TypeExpr) (fields : List Field) (moving : Bool) : List String :=
  ["if (this != &other) \x7b"] ++
    (base.map fun b =>
      indent ++ b.text ++ "::operator=(" ++ sourceOf moving "other" ++ ");").toList ++
    (fields.map fun f =>
      indent ++ "this->" ++ f.name ++ " = " ++ sourceOf moving ("other." ++ f.name) ++ ";") ++
    ["\x7d", "return *this;"]

def specialDefinitions (m : Model) (ns : Option String) (s : StructType) :
    Except GenerationError (List Definition) := do
  let base ←
    match s.base with
    | some r => pure (some (← typeOf m ns r))
    | none => pure none
  let fields := s.instanceFields
  let copies : List Definition :=
    if s.options.copySemantics then
      [{ heading := Heading.copyConstructor s,
         initializers := transferInitializers base fields false },
       { heading := Heading.copyAssignment s, body := transferBody base fields false }]
    else []
  let moves : List Definition :=
    if s.options.moveSemantics then
      [{ heading := Heading.moveConstructor s,
         initializers := transferInitializers base fields true },
       { heading := Heading.moveAssignment s, body := transferBody base fields true }]
    else []
  return copies ++ moves

/-! ## methods and accessors -/

/-- a method without a body returns a default value of its result type -/
def methodDefinition (m : Model) (ns : Option String) (x : Method) :
    Except GenerationError Definition := do
  let heading ← Heading.ofMethod m ns x
  let written := bodyLines x.body
  let body :=
    if written.isEmpty then
      match x.returns, heading.returns with
      | some _, some type => ["return " ++ type.text ++ "\x7b\x7d;"]
      | _, _ => []
    else written
  return { heading, body }

def lockLine : String := "std::lock_guard<std::mutex> lock(mutex_);"

/-- the lock at the start of functions that touch members -/
def lockLines (s : StructType) : List String := if s.options.threading then [lockLine] else []

def accessorDefinitions (m : Model) (ns : Option String) (s : StructType) (f : Field) :
    Except GenerationError (List Definition) := do
  let getter ← Heading.getter m ns s f
  let setter ← Heading.setter m ns f
  return [{ heading := getter, body := lockLines s ++ ["return " ++ f.name ++ ";"] },
    { heading := setter, body := lockLines s ++ ["this->" ++ f.name ++ " = value;"] }]

/-! ## operators -/

/-- `return a == other.a`, a line for each further field, and a semicolon -/
def equalityBody (s : StructType) : List String :=
  let comparisons := s.instanceFields.map fun f => f.name ++ " == other." ++ f.name
  match comparisons with
  | [] => ["return true;"]
  | first :: rest =>
    let lines := ("return " ++ first) :: rest.map fun c => indent ++ "&& " ++ c
    lines.dropLast ++ (lines.getLast?.map (· ++ ";")).toList

def operatorDefinitions (s : StructType) : List Definition :=
  if s.options.operators then
    [{ heading := Heading.comparison s "operator==", body := equalityBody s },
     { heading := Heading.comparison s "operator!=", body := ["return !(*this == other);"] }]
  else []

/-! ## serialization -/

/-- how a field is written to text and read from it -/
inductive FieldEncoding where
  | text
  | boolean
  | integer
  | float
  | enumeration
  deriving DecidableEq, Repr

/-- the encoding of a field; structs, arrays, maps and other names of types have none -/
def fieldEncoding (m : Model) (f : Field) : Except GenerationError (Option FieldEncoding) :=
  if !f.isSingleValued then return none
  else do
    match ← m.target f.typeRef with
    | .basic b =>
      return some <| match b.kind with
        | .text => .text
        | .boolean => .boolean
        | .integer _ _ => .integer
        | .float _ => .float
    | .declared e => return if e.type.kind = .enumeration then some .enumeration else none

/-- a field that takes part in serialization -/
structure EncodedField where
  field : Field
  encoding : FieldEncoding
  type : TypeExpr

def encodedField? (m : Model) (ns : Option String) (f : Field) :
    Except GenerationError (Option EncodedField) := do
  match ← fieldEncoding m f with
  | some encoding => return some ⟨f, encoding, ← memberType m ns f⟩
  | none => return none

def encodedFields (m : Model) (ns : Option String) (s : StructType) :
    Except GenerationError (List EncodedField) := do
  return (← s.instanceFields.mapM (encodedField? m ns)).filterMap id

def EncodedField.member (x : EncodedField) : String := "this->" ++ x.field.name

def EncodedField.writeLine (x : EncodedField) : String :=
  let value :=
    match x.encoding with
    | .integer => "+" ++ x.member
    | .enumeration => "static_cast<long long>(" ++ x.member ++ ")"
    | _ => x.member
  "out << \"" ++ x.field.name ++ "=\" << " ++ value ++ " << ';';"

def EncodedField.parsedLines (x : EncodedField) (declaration : String) : List String :=
  [declaration, "std::istringstream(value) >> parsed;",
    x.member ++ " = static_cast<" ++ x.type.text ++ ">(parsed);"]

def EncodedField.readLines (x : EncodedField) : List String :=
  match x.encoding with
  | .text => [x.member ++ " = value;"]
  | .boolean => [x.member ++ " = value == \"1\" || value == \"true\";"]
  | .integer | .enumeration => x.parsedLines "long long parsed = 0;"
  | .float => x.parsedLines "double parsed = 0.0;"

def serializeBody (s : StructType) (fields : List EncodedField) : List String :=
  lockLines s ++ ["std::ostringstream out;"] ++ fields.map EncodedField.writeLine ++
    ["return out.str();"]

/-- one branch for every field, all in one chain of conditions -/
def readBranches : (isFirst : Bool) → List EncodedField → List String
  | _, [] => []
  | isFirst, x :: xs =>
    let keyword := if isFirst then "if" else "\x7d else if"
    (indent ++ keyword ++ " (key == \"" ++ x.field.name ++ "\") \x7b") ::
      x.readLines.map (indent ++ indent ++ ·) ++ readBranches false xs

def deserializeBody (s : StructType) (fields : List EncodedField) : List String :=
  lockLines s ++
    ["std::istringstream in(data);",
     "std::string entry;",
     "while (std::getline(in, entry, ';')) \x7b",
     indent ++ "const auto separator = entry.find('=');",
     indent ++ "if (separator == std::string::npos) \x7b",
     indent ++ indent ++ "return false;",
     indent ++ "\x7d",
     indent ++ "const std::string key = entry.substr(0, separator);",
     indent ++ "const std::string value = entry.substr(separator + 1);"] ++
    readBranches true fields ++
    (if fields.isEmpty then [] else [indent ++ "\x7d"]) ++
    ["\x7d", "return true;"]

def serializationDefinitions (m : Model) (ns : Option String) (s : StructType) :
    Except GenerationError (List Definition) := do
  if s.options.serialization then
    let fields ← encodedFields m ns s
    return [{ heading := Heading.serialize, body := serializeBody s fields },
      { heading := Heading.deserialize, body := deserializeBody s fields }]
  else return []

/-! ## the whole file -/

def staticDefinition (m : Model) (ns : Option String) (f : Field) :
    Except GenerationError StaticDefinition := do
  let type ← memberType m ns f
  let initial ← defaultText m ns f
  return { type, name := f.name, initial }

def Source.ofStruct (m : Model) (e : Entry) (s : StructType) : Except GenerationError Source := do
  let ns := namespaceOf e
  let statics ← s.staticFields.mapM (staticDefinition m ns)
  let fromFields ← fieldsConstructors m ns s
  let authored ← s.constructors.mapM (constructorDefinition m ns s)
  let special ← specialDefinitions m ns s
  let methods ← (s.methods.filter (!·.isPure)).mapM (methodDefinition m ns)
  let accessors ← (accessorFields s).mapM (accessorDefinitions m ns s)
  let serialization ← serializationDefinitions m ns s
  return {
    name := s.name
    ns
    includes := (if s.options.serialization then ["sstream"] else []) ++
      (if s.options.moveSemantics then ["utility"] else [])
    statics
    definitions := defaultConstructors s ++ fromFields ++ authored ++
      [destructor s] ++ special ++ methods ++ accessors.flatten ++
      operatorDefinitions s ++ serialization }

def Source.script (x : Source) : Text.Script :=
  [.line ("// " ++ banner), .blank, .line ("#include \"" ++ x.name ++ ".h\"")] ++
    (if x.includes.isEmpty then []
      else .blank :: x.includes.map fun i => .line ("#include <" ++ i ++ ">")) ++
    [.blank] ++ openNamespace x.ns ++
    x.statics.map (fun d => .line (d.text x.name)) ++
    (if x.statics.isEmpty then [] else [.blank]) ++
    x.definitions.flatMap (·.script x.name) ++ closeNamespace x.ns

def Source.text (x : Source) : String := Text.Script.render indent x.script

end TypeModel.Cpp
