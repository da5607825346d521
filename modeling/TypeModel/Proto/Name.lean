import TypeModel.Name
import TypeModel.Text.Case

/-!
# Names in a Protobuf schema

* `wrapperName p`         the message that holds a package: `com.example` becomes `ComExample`;
* `enumeratorName e x`    an enumerator behind the name of its enumeration in constant case,
                          unless it stands there already;
* `unspecifiedName e`     the added zero of an enumeration without one.
-/

namespace TypeModel.Proto

def wrapperName (package : Name) : String :=
  Text.Style.upperCamel.apply
    (String.ofList (package.toList.map fun c => if c = '.' then '_' else c))

def enumPrefixOf (enumeration : Name) : String := Text.Style.constant.apply enumeration

/-- whether a name starts with `lead` and goes on with `_` -/
def continues (lead name : List Char) : Bool := (lead ++ ['_']).isPrefixOf name

def enumeratorName (enumeration enumerator : Name) : String :=
  let lead := enumPrefixOf enumeration
  if continues lead.toList enumerator.toList then enumerator else lead ++ "_" ++ enumerator

def unspecifiedName (enumeration : Name) : String := enumPrefixOf enumeration ++ "_UNSPECIFIED"

end TypeModel.Proto
