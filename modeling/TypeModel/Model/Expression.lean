import TypeModel.Name
import TypeModel.Number.Double
import TypeModel.Text.Quoted

/-!
# Expressions

Default values of fields and values of enumerators: a literal, or the name of a constant.

* `Expression.text`       as written in generated code;
* `Expression.integer?`   the value of an integer literal;
* `Expression.evaluate`   that value, `0` for anything else.
-/

namespace TypeModel

inductive Literal where
  | bool (value : Bool)
  | integer (value : Int64)
  | float (value : Float)
  | string (value : String)

inductive Expression where
  | literal (value : Literal)
  | identifier (name : Name)

namespace Expression

def integer (value : Int64) : Expression := .literal (.integer value)

def integer? : Expression → Option Int64
  | .literal (.integer value) => some value
  | _ => none

def evaluate (e : Expression) : Int64 := e.integer?.getD 0

def isIdentifier : Expression → Bool
  | .identifier _ => true
  | _ => false

def text : Expression → String
  | .literal (.bool true) => "true"
  | .literal (.bool false) => "false"
  | .literal (.integer value) => Int.repr value.toInt
  | .literal (.float value) => Number.Double.text value
  | .literal (.string value) => Text.quote value
  | .identifier name => name

end Expression

end TypeModel
