import TypeModel.Cpp.TypeExpr

/-!
# Parameters and results

Parameter lists and result types are spelled in one way for the declaration of a member function,
which stands in the header of its class, and for its definition in the implementation.  All else
about the two is written in each file by itself.
-/

namespace TypeModel.Cpp

structure Argument where
  type : TypeExpr
  name : String
  deriving DecidableEq

def Argument.text (p : Argument) : String := p.type.text ++ " " ++ p.name

def argumentsText (ps : List Argument) : String := Text.joinWith ", " (ps.map Argument.text)

def argumentsOf (m : Model) (ns : Option String) (ps : List Parameter) :
    Except GenerationError (List Argument) :=
  ps.mapM fun p => return ⟨← parameterType m ns p.typeRef, p.name⟩

def resultOf (m : Model) (ns : Option String) (x : Method) : Except GenerationError TypeExpr :=
  match x.returns with
  | some r => typeOf m ns r
  | none => return .named "void"

/-- `word` if the condition holds -/
def wordIf (condition : Bool) (word : String) : String := if condition then word else ""

end TypeModel.Cpp
