import TypeModel.Cpp.Function
import TypeModel.Text.Ordered
import TypeModel.Text.Writer

/-!
# Headers

A header declares one type of the model: a class with its inner types, an enumeration, or another
name for a type.

* `Header.ofEntry m e`   the header of a declared type;
* `Header.script`        its text.

A class lists its inner types, its members by visibility (private first) and its member functions
by visibility (public first), in titled sections.  A `Declaration` declares a member function, with
the words that stand only inside the class.  Included are the headers of the types that the
declaration of the class mentions.
-/

namespace TypeModel.Cpp

/-! ## parts of a header -/

/-- how a member is introduced -/
inductive MemberForm where
  | static
  | bitField (bits : Nat)
  | value (initial : Option String)
  deriving DecidableEq

structure Member where
  comment : List String
  type : TypeExpr
  name : String
  form : MemberForm

def Member.text (x : Member) : String :=
  match x.form with
  | .static => "static " ++ x.type.text ++ " " ++ x.name ++ ";"
  | .bitField bits => x.type.text ++ " " ++ x.name ++ " : " ++ Nat.repr bits ++ ";"
  | .value (some initial) => x.type.text ++ " " ++ x.name ++ " = " ++ initial ++ ";"
  | .value none => x.type.text ++ " " ++ x.name ++ ";"

/-- the members of one visibility; `hasMutex` adds a lock -/
structure MemberBlock where
  visibility : Visibility
  members : List Member
  hasMutex : Bool

structure EnumDeclaration where
  name : String
  isEnumClass : Bool
  underlying : String
  values : List (Name × Int64)

structure UsingDeclaration where
  name : String
  type : TypeExpr

def UsingDeclaration.text (u : UsingDeclaration) : String :=
  "using " ++ u.name ++ " = " ++ u.type.text ++ ";"

/-- a type declared inside a class -/
inductive NestedDeclaration where
  | record (name : String) (blocks : List MemberBlock)
  | enumeration (e : EnumDeclaration)
  | synonym (u : UsingDeclaration)

structure Nested where
  comment : List String
  declaration : NestedDeclaration

structure Declaration where
  /-- constructors and destructors have no result -/
  returns : Option TypeExpr := none
  name : String
  arguments : List Argument := []
  isExplicit : Bool := false
  isStatic : Bool := false
  isVirtual : Bool := false
  isConst : Bool := false
  isNoexcept : Bool := false
  isOverride : Bool := false
  isPure : Bool := false
  deriving DecidableEq

def Declaration.text (d : Declaration) : String :=
  wordIf d.isExplicit "explicit " ++ wordIf d.isStatic "static " ++
    wordIf d.isVirtual "virtual " ++
    (match d.returns with
      | some type => type.text ++ " "
      | none => "") ++
    d.name ++ "(" ++ argumentsText d.arguments ++ ")" ++ wordIf d.isConst " const" ++
    wordIf d.isNoexcept " noexcept" ++ wordIf d.isOverride " override" ++
    wordIf d.isPure " = 0" ++ ";"

inductive SectionItem where
  /-- a line about the function that follows -/
  | note (text : String)
  | declaration (d : Declaration)

/-- member functions under a title -/
structure Section where
  title : String
  items : List SectionItem

structure FunctionBlock where
  visibility : Visibility
  sections : List Section

structure ClassDeclaration where
  name : String
  comment : List String
  base : Option TypeExpr
  nested : List Nested
  members : List MemberBlock
  functions : List FunctionBlock
  friends : List Friend

inductive HeaderBody where
  | classOf (c : ClassDeclaration)
  | enumeration (comment : List String) (e : EnumDeclaration)
  | synonym (comment : List String) (u : UsingDeclaration)

structure Header where
  name : String
  ns : Option String
  standardIncludes : List String
  projectIncludes : List String
  body : HeaderBody

/-! ## what a declaration mentions -/

/-- the references of a struct and its inner types that its header spells out -/
def structReferences (s : StructType) (inner : List TypeDef) : List TypeRef :=
  s.base.toList ++
    (s.fields.flatMap fun f => f.typeRef :: f.key.toList) ++
    (s.methods.flatMap fun x => x.returns.toList ++ x.parameters.map (·.typeRef)) ++
    (s.constructors.flatMap fun c => c.parameters.map (·.typeRef)) ++
    inner.flatMap fun t =>
      match t with
      | .struct i _ => i.fields.flatMap fun f => f.typeRef :: f.key.toList
      | t => t.expands?.toList

/-- stems of the headers that declare the referenced types, without `own` -/
def stemsMentioned (m : Model) (own : String) (refs : List TypeRef) :
    Except GenerationError (List String) := do
  let targets ← refs.mapM m.target
  return Text.orderedOf <| (targets.filterMap fun t =>
    match t with
    | .declared e => some (headerStem e)
    | .basic _ => none).filter (· ≠ own)

def arrayInclude (a : ArrayType) : String := if a.size.isSome then "array" else "vector"

def fieldIncludes (f : Field) : List String :=
  (if f.arraySize.isSome then ["array"] else []) ++ (if f.key.isSome then ["map"] else [])

def standardHeaders (s : StructType) (inner : List TypeDef) : List String :=
  Text.orderedOf <|
    ["cstdint", "string"] ++ s.fields.flatMap fieldIncludes ++
      (inner.flatMap fun t =>
        match t with
        | .struct i _ => i.fields.flatMap fieldIncludes
        | .array a => [arrayInclude a]
        | _ => []) ++
      if s.options.threading then ["mutex"] else []

/-! ## building headers -/

def memberOf (m : Model) (ns : Option String) (f : Field) : Except GenerationError Member := do
  let type ← memberType m ns f
  let form ←
    if f.isStatic then pure .static
    else
      match ← bitFieldWidth m f with
      | some bits => pure (.bitField bits)
      | none => pure (.value (← defaultText m ns f))
  return { comment := f.comment, type, name := f.name, form }

def memberBlock (m : Model) (ns : Option String) (s : StructType) (withMutex : Bool)
    (v : Visibility) : Except GenerationError MemberBlock := do
  let members ← (s.fields.filter (·.visibility = v)).mapM (memberOf m ns)
  return { visibility := v, members, hasMutex := withMutex && v = .privateAccess }

/-- blocks with a member, private ones first -/
def memberBlocks (m : Model) (ns : Option String) (s : StructType) (withMutex : Bool) :
    Except GenerationError (List MemberBlock) := do
  let blocks ← [Visibility.privateAccess, .protectedAccess, .publicAccess].mapM
    (memberBlock m ns s withMutex)
  return blocks.filter fun b => !b.members.isEmpty || b.hasMutex

/-- an underlying type that names a primitive is mapped, any other is kept -/
def underlyingText (m : Model) : Option String → String
  | none => "int"
  | some name =>
    match m.basicTypes.find? (·.2.name == name) with
    | some (_, b) => b.kind.cppName
    | none => name

def enumDeclaration (m : Model) (id : TypeId) (e : EnumerationType) : EnumDeclaration :=
  { name := e.name, isEnumClass := e.isEnumClass,
    underlying := underlyingText m e.underlyingType, values := m.foldedEnumerators id e }

def usingArray (m : Model) (ns : Option String) (a : ArrayType) :
    Except GenerationError UsingDeclaration :=
  match a.elementType with
  | none => throw (.unresolved a.name)
  | some r => do
    let element ← typeOf m ns r
    return { name := a.name,
             type := match a.size with
               | some size => .array element size
               | none => .vector element }

def usingAlias (m : Model) (ns : Option String) (a : AliasType) :
    Except GenerationError UsingDeclaration :=
  match a.actualType with
  | none => throw (.unresolved a.name)
  | some r => return { name := a.name, type := ← typeOf m ns r }

def nestedOf (m : Model) (ns : Option String) (e : Entry) : Except GenerationError Nested := do
  let declaration ←
    match e.type with
    | .struct s _ => pure (.record s.name (← memberBlocks m ns s false))
    | .enumeration x => pure (.enumeration (enumDeclaration m e.id x))
    | .array a => pure (.synonym (← usingArray m ns a))
    | .alias a => pure (.synonym (← usingAlias m ns a))
  return { comment := e.type.comment, declaration }

/-! ### member functions -/

namespace Declaration

/-- the constructor with one argument for every instance field -/
def ofFields (m : Model) (ns : Option String) (s : StructType) :
    Except GenerationError Declaration := do
  let arguments ← s.instanceFields.mapM fun f =>
    return ⟨← memberParameterType m ns f, f.name⟩
  return { name := s.name, arguments, isExplicit := arguments.length = 1 }

def ofConstructor (m : Model) (ns : Option String) (s : StructType) (c : Constructor) :
    Except GenerationError Declaration :=
  return { name := s.name, arguments := ← argumentsOf m ns c.parameters, isExplicit := c.explicit }

def ofMethod (m : Model) (ns : Option String) (x : Method) :
    Except GenerationError Declaration := do
  let returns ← resultOf m ns x
  let arguments ← argumentsOf m ns x.parameters
  return { returns := some returns, name := x.name, arguments, isStatic := x.has .static,
           isVirtual := x.has .virtual || x.isPure, isConst := x.has .const,
           isNoexcept := x.has .noexcept, isOverride := x.has .override, isPure := x.isPure }

/-- a getter returns scalars, and everything in a class with a lock, by value -/
def getter (m : Model) (ns : Option String) (s : StructType) (f : Field) :
    Except GenerationError Declaration := do
  let type ← memberType m ns f
  let byValue := (← memberIsScalar m f) || s.options.threading
  return { returns := some (if byValue then type else .constRef type), name := getterName f,
           isConst := true }

def setter (m : Model) (ns : Option String) (f : Field) : Except GenerationError Declaration :=
  return { returns := some (.named "void"), name := setterName f,
           arguments := [⟨← memberParameterType m ns f, "value"⟩] }

def copies (s : StructType) : List Declaration :=
  [{ name := s.name, arguments := [⟨.constRef (.named s.name), "other"⟩] },
    { returns := some (.ref (.named s.name)), name := "operator=",
      arguments := [⟨.constRef (.named s.name), "other"⟩] }]

def moves (s : StructType) : List Declaration :=
  [{ name := s.name, arguments := [⟨.rvalueRef (.named s.name), "other"⟩], isNoexcept := true },
    { returns := some (.ref (.named s.name)), name := "operator=",
      arguments := [⟨.rvalueRef (.named s.name), "other"⟩], isNoexcept := true }]

def comparisons (s : StructType) : List Declaration :=
  ["operator==", "operator!="].map fun name =>
    { returns := some (.named "bool"), name, arguments := [⟨.constRef (.named s.name), "other"⟩],
      isConst := true }

def serialization : List Declaration :=
  [{ returns := some (.named "std::string"), name := "serialize", isConst := true },
    { returns := some (.named "bool"), name := "deserialize",
      arguments := [⟨.constRef (.named "std::string"), "data"⟩] }]

end Declaration

/-- constructors written by hand with the given visibility -/
def authoredConstructors (m : Model) (ns : Option String) (s : StructType) (v : Visibility) :
    Except GenerationError (List SectionItem) :=
  (s.constructors.filter (·.visibility = v)).mapM fun c =>
    return .declaration (← Declaration.ofConstructor m ns s c)

/-- a method with its description -/
def methodItems (m : Model) (ns : Option String) (x : Method) :
    Except GenerationError (List SectionItem) := do
  let declaration ← Declaration.ofMethod m ns x
  return (x.description.map fun d => SectionItem.note ("// " ++ d)).toList ++
    [.declaration declaration]

def methodSection (m : Model) (ns : Option String) (s : StructType) (v : Visibility) :
    Except GenerationError Section := do
  let items ← (s.methods.filter (·.visibility = v)).mapM (methodItems m ns)
  return { title := "Methods", items := items.flatten }

/-- the default constructor and the one from all fields, unless written by hand -/
def generatedConstructors (m : Model) (ns : Option String) (s : StructType) :
    Except GenerationError (List SectionItem) := do
  let simple : List SectionItem :=
    if hasDefaultConstructor s then [] else [.declaration { name := s.name }]
  if hasFieldsConstructor s then
    let fromFields ← Declaration.ofFields m ns s
    return simple ++ [.declaration fromFields]
  else return simple

/-- copy and move members and the destructor -/
def specialMembers (m : Model) (e : Entry) (s : StructType) : List SectionItem :=
  let destructor : Declaration :=
    { name := "~" ++ s.name,
      isVirtual := s.hasVirtualMethods || !(m.derivedStructs e.id).isEmpty }
  ((if s.options.copySemantics then Declaration.copies s else []) ++
    (if s.options.moveSemantics then Declaration.moves s else []) ++ [destructor]).map .declaration

def accessorItems (m : Model) (ns : Option String) (s : StructType) (f : Field) :
    Except GenerationError (List SectionItem) := do
  let getter ← Declaration.getter m ns s f
  let setter ← Declaration.setter m ns f
  return [.declaration getter, .declaration setter]

def publicBlock (m : Model) (ns : Option String) (e : Entry) (s : StructType) :
    Except GenerationError FunctionBlock := do
  let generated ← generatedConstructors m ns s
  let authored ← authoredConstructors m ns s .publicAccess
  let methods ← methodSection m ns s .publicAccess
  let accessors ← (accessorFields s).mapM (accessorItems m ns s)
  return { visibility := .publicAccess, sections := [
    { title := "Constructors and Destructor",
      items := generated ++ authored ++ specialMembers m e s },
    methods,
    { title := "Getters and Setters", items := accessors.flatten },
    { title := "Operators",
      items := if s.options.operators then (Declaration.comparisons s).map .declaration else [] },
    { title := "Serialization",
      items := if s.options.serialization then Declaration.serialization.map .declaration
        else [] }] }

def restrictedBlock (m : Model) (ns : Option String) (s : StructType) (v : Visibility) :
    Except GenerationError FunctionBlock := do
  let authored ← authoredConstructors m ns s v
  let methods ← methodSection m ns s v
  return { visibility := v, sections := [{ title := "Constructors", items := authored }, methods] }

/-- blocks of member functions, public ones first; empty sections and blocks are left out -/
def functionBlocks (m : Model) (ns : Option String) (e : Entry) (s : StructType) :
    Except GenerationError (List FunctionBlock) := do
  let publicOnes ← publicBlock m ns e s
  let protectedOnes ← restrictedBlock m ns s .protectedAccess
  let privateOnes ← restrictedBlock m ns s .privateAccess
  let blocks := [publicOnes, protectedOnes, privateOnes].map fun b =>
    { b with sections := b.sections.filter (!·.items.isEmpty) }
  return blocks.filter (!·.sections.isEmpty)

def classOf (m : Model) (ns : Option String) (e : Entry) (s : StructType) :
    Except GenerationError ClassDeclaration := do
  let base ←
    match s.base with
    | some r => pure (some (← typeOf m ns r))
    | none => pure none
  let nested ← e.inners.mapM (nestedOf m ns)
  let members ← memberBlocks m ns s s.options.threading
  let functions ← functionBlocks m ns e s
  return { name := s.name, comment := s.comment, base, nested, members, functions,
           friends := s.friends }

/-- the header of a declared type -/
def Header.ofEntry (m : Model) (e : Entry) : Except GenerationError Header := do
  let ns := namespaceOf e
  match e.type with
  | .struct s inner =>
    let included ← stemsMentioned m s.name (structReferences s inner)
    let c ← classOf m ns e s
    return { name := s.name, ns, standardIncludes := standardHeaders s inner,
             projectIncludes := included, body := .classOf c }
  | .enumeration x =>
    return { name := x.name, ns, standardIncludes := ["cstdint"], projectIncludes := [],
             body := .enumeration x.comment (enumDeclaration m e.id x) }
  | .array a =>
    let included ← stemsMentioned m a.name a.elementType.toList
    let u ← usingArray m ns a
    return { name := a.name, ns,
             standardIncludes := Text.orderedOf ["cstdint", "string", arrayInclude a],
             projectIncludes := included, body := .synonym a.comment u }
  | .alias a =>
    let included ← stemsMentioned m a.name a.actualType.toList
    let u ← usingAlias m ns a
    return { name := a.name, ns, standardIncludes := ["cstdint", "string"],
             projectIncludes := included, body := .synonym a.comment u }

/-! ## the text of a header -/

def openNamespace : Option String → Text.Script
  | some ns => [.line ("namespace " ++ ns ++ " \x7b"), .blank]
  | none => []

def closeNamespace : Option String → Text.Script
  | some ns => [.line ("\x7d  // namespace " ++ ns), .blank]
  | none => []

/-- the comment in front of a class or enumeration -/
def docBlock (tag name : String) (comment : List String) : Text.Script :=
  .line "/**" :: .line (" * @" ++ tag ++ " " ++ name) ::
    (match comment with
      | [] => []
      | first :: rest => .line (" * @brief " ++ first) :: rest.map fun l => .line (" * " ++ l)) ++
    [.line " */"]

def EnumDeclaration.script (e : EnumDeclaration) : Text.Script :=
  let keyword := if e.isEnumClass then "enum class" else "enum"
  [.line (keyword ++ " " ++ e.name ++ " : " ++ e.underlying ++ " \x7b"),
    .indented (e.values.map fun (name, value) =>
      .line (name ++ " = " ++ Int.repr value.toInt ++ ",")),
    .line "\x7d;"]

def MemberBlock.script (b : MemberBlock) : Text.Script :=
  [.line (b.visibility.text ++ ":"),
    .indented ((b.members.flatMap fun x => [.comment "//" x.comment, .line x.text]) ++
      if b.hasMutex then [.line "mutable std::mutex mutex_;"] else []),
    .blank]

def Nested.script (n : Nested) : Text.Script :=
  .comment "//" n.comment ::
    match n.declaration with
    | .record name blocks =>
      .line ("class " ++ name ++ " \x7b") :: blocks.flatMap MemberBlock.script ++ [.line "\x7d;"]
    | .enumeration e => e.script
    | .synonym u => [.line u.text]

def SectionItem.text : SectionItem → String
  | .note text => text
  | .declaration d => d.text

def Section.script (s : Section) : Text.Script :=
  .line ("// " ++ s.title) :: s.items.map (fun i => .line i.text) ++ [.blank]

def FunctionBlock.script (b : FunctionBlock) : Text.Script :=
  [.line (b.visibility.text ++ ":"), .indented (b.sections.flatMap Section.script)]

/-- a signature without blanks around it and semicolons behind it -/
def friendText : Friend → String
  | .classNamed name => "friend class " ++ name ++ ";"
  | .functionOf signature =>
    let bare := (Text.trim signature.toList).reverse.dropWhile (· == ';')
    "friend " ++ String.ofList bare.reverse ++ ";"

def ClassDeclaration.script (c : ClassDeclaration) : Text.Script :=
  let base :=
    match c.base with
    | some t => " : public " ++ t.text
    | none => ""
  docBlock "class" c.name c.comment ++
    [.line ("class " ++ c.name ++ base ++ " \x7b")] ++
    (if c.nested.isEmpty then []
      else [.line "public:", .indented (c.nested.flatMap fun n => n.script ++ [.blank])]) ++
    c.members.flatMap MemberBlock.script ++
    c.functions.flatMap FunctionBlock.script ++
    (if c.friends.isEmpty then []
      else [.indented (c.friends.map fun f => .line (friendText f))]) ++
    [.line "\x7d;"]

def HeaderBody.script (name : String) : HeaderBody → Text.Script
  | .classOf c => c.script
  | .enumeration comment e => docBlock "enum" name comment ++ e.script
  | .synonym comment u => [.comment "//" comment, .line u.text]

def Header.script (h : Header) : Text.Script :=
  let guard := includeGuard h.ns h.name
  [.line ("// " ++ banner), .blank, .line ("#ifndef " ++ guard), .line ("#define " ++ guard),
    .blank] ++
    h.standardIncludes.map (fun i => .line ("#include <" ++ i ++ ">")) ++
    (if h.projectIncludes.isEmpty then []
      else .blank :: h.projectIncludes.map fun i => .line ("#include \"" ++ i ++ ".h\"")) ++
    [.blank] ++ openNamespace h.ns ++ h.body.script h.name ++ [.blank] ++
    closeNamespace h.ns ++ [.line ("#endif  // " ++ guard)]

/-- indentation of generated C++ -/
def indent : String := "    "

def Header.text (h : Header) : String := Text.Script.render indent h.script

end TypeModel.Cpp
