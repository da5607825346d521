import TypeModel.Cpp.Source

/-!
# Declarations and headings

A member function is declared in the header and defined in the implementation, and the two files
put together result, name, parameters and qualifiers each for itself.  Both computations give the
same, and fail for the same reason.

* `Declaration.heading d`   the heading of a definition for `d`: without the words that stand only
                            inside the class;
* `heading_ofFields`, `heading_ofConstructor`, `heading_ofMethod`, `heading_getter`,
  `heading_setter`          one agreement for each kind of function that is computed.
-/

namespace TypeModel.Cpp

def Declaration.heading (d : Declaration) : Heading :=
  { returns := d.returns, name := d.name, arguments := d.arguments, isConst := d.isConst,
    isNoexcept := d.isNoexcept }

section
variable (m : Model) (ns : Option String) (s : StructType)

theorem heading_ofFields :
    (Declaration.ofFields m ns s).map Declaration.heading = Heading.ofFields m ns s := by
  unfold Declaration.ofFields Heading.ofFields
  cases s.instanceFields.mapM fun f => return (⟨← memberParameterType m ns f, f.name⟩ : Argument)
    <;> rfl

theorem heading_ofConstructor (c : Constructor) :
    (Declaration.ofConstructor m ns s c).map Declaration.heading =
      Heading.ofConstructor m ns s c := by
  unfold Declaration.ofConstructor Heading.ofConstructor
  cases argumentsOf m ns c.parameters <;> rfl

theorem heading_ofMethod (x : Method) :
    (Declaration.ofMethod m ns x).map Declaration.heading = Heading.ofMethod m ns x := by
  unfold Declaration.ofMethod Heading.ofMethod
  cases resultOf m ns x with
  | error err => rfl
  | ok result => cases argumentsOf m ns x.parameters <;> rfl

theorem heading_getter (f : Field) :
    (Declaration.getter m ns s f).map Declaration.heading = Heading.getter m ns s f := by
  unfold Declaration.getter Heading.getter
  cases memberType m ns f with
  | error err => rfl
  | ok type => cases memberIsScalar m f <;> rfl

theorem heading_setter (f : Field) :
    (Declaration.setter m ns f).map Declaration.heading = Heading.setter m ns f := by
  unfold Declaration.setter Heading.setter
  cases memberParameterType m ns f <;> rfl

end

end TypeModel.Cpp
