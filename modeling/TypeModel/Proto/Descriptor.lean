import TypeModel.Output.Path

/-!
# Descriptor requests

Compiling a schema into a descriptor set is left to an external compiler; a request says from
which file to which.
-/

namespace TypeModel.Proto

structure DescriptorRequest where
  input : String
  output : String
  deriving DecidableEq, Repr

namespace DescriptorRequest

/-- from a schema to a `.desc` file beside it -/
def forSchema (path : String) : DescriptorRequest :=
  { input := path, output := Path.withExtension path "desc" }

/-- both files below a directory -/
def within (r : DescriptorRequest) (dir : String) : DescriptorRequest :=
  { input := Path.join dir r.input, output := Path.join dir r.output }

end DescriptorRequest

end TypeModel.Proto
