/-!
# White space

The White_Space property of Unicode and trimming by it.

* `isBlank c`      `c` has the White_Space property;
* `trimEnd cs`     `cs` without its longest blank tail;
* `trim cs`        `cs` without blanks at either end;
* `allBlank cs`    nothing but blanks.

Trimming only removes characters at the ends, so what is left is an infix of the text.
-/

namespace TypeModel.Text

/-- characters with the White_Space property -/
def isBlank (c : Char) : Bool :=
  let n := c.toNat
  (9 ≤ n && n ≤ 13) || n == 0x20 || n == 0x85 || n == 0xA0 || n == 0x1680 ||
    (0x2000 ≤ n && n ≤ 0x200A) || n == 0x2028 || n == 0x2029 || n == 0x202F ||
    n == 0x205F || n == 0x3000

def trimStart (cs : List Char) : List Char := cs.dropWhile isBlank

def trimEnd (cs : List Char) : List Char := (cs.reverse.dropWhile isBlank).reverse

def trim (cs : List Char) : List Char := trimEnd (trimStart cs)

def allBlank (cs : List Char) : Bool := cs.all isBlank

theorem trimEnd_nil : trimEnd [] = [] := rfl

/-- a blank character at the end goes, any other character stops the trimming -/
theorem trimEnd_concat (cs : List Char) (c : Char) :
    trimEnd (cs ++ [c]) = if isBlank c then trimEnd cs else cs ++ [c] := by
  unfold trimEnd
  by_cases h : isBlank c <;> simp [h]

end TypeModel.Text
