import TypeModel.Text.Case

/-!
# Naming conventions

| kind       | convention                              |
|------------|-----------------------------------------|
| field      | `[a-z][a-zA-Z0-9_]*`                    |
| type       | `[A-Z][a-zA-Z0-9_]*`                    |
| enumerator | `[A-Z][A-Z0-9_]*`                       |
| package    | segments `[a-z][a-z0-9_]*` between dots |

For each there is a suggestion in the matching case style.
-/

namespace TypeModel.Convention

/-- names with more characters are long -/
def maxNameLength : Nat := 100

def isWordChar (c : Char) : Bool := c.isAlphanum || c == '_'

def isConstantChar (c : Char) : Bool := c.isUpper || c.isDigit || c == '_'

def isSegmentChar (c : Char) : Bool := c.isLower || c.isDigit || c == '_'

/-- a first character of one class and others of another -/
def hasShape (first rest : Char → Bool) : List Char → Bool
  | [] => false
  | c :: cs => first c && cs.all rest

def isFieldName (name : String) : Bool := hasShape Char.isLower isWordChar name.toList

def isTypeName (name : String) : Bool := hasShape Char.isUpper isWordChar name.toList

def isEnumeratorName (name : String) : Bool := hasShape Char.isUpper isConstantChar name.toList

def isPackageName (name : String) : Bool :=
  (Text.splitOn '.' name.toList).all (hasShape Char.isLower isSegmentChar)

def suggestField (name : String) : String := Text.Style.camel.apply name

def suggestType (name : String) : String := Text.Style.upperCamel.apply name

def suggestEnumerator (name : String) : String := Text.Style.constant.apply name

def suggestPackage (name : String) : String :=
  Text.joinWith "." (((Text.split '.' name).filter (!·.isEmpty)).map Text.Style.snake.apply)

end TypeModel.Convention
