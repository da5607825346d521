import TypeModel.Text.ClusterTable
import TypeModel.Text.Split

/-!
# Characters as a reader sees them

A letter with its accents, or a picture with its modifiers, is one cluster.

* `joins c d`         `c` and `d`, next to each other, belong to one cluster;
* `clusters cs`       a text cut into clusters;
* `clusters_of_plain` below the first marks every character is a cluster of its own.

Clusters serve to cut names into words, and words are cut next to letters with case, digits and
separators.  So nothing is lost by leaving out the rules that only bind characters without case:
syllable blocks, flags and conjuncts may fall into several clusters.
-/

namespace TypeModel.Text

def isControl (c : Char) : Bool := inRanges controlRanges c.toNat

/-- a character that belongs to the one before it; there are none below the combining marks -/
def isExtender (c : Char) : Bool := 0x300 ≤ c.toNat && inRanges extenderRanges c.toNat

/-- a character that belongs to the one behind it -/
def isLeader (c : Char) : Bool := 0x300 ≤ c.toNat && inRanges leaderRanges c.toNat

def isPicture (c : Char) : Bool := inRanges pictureRanges c.toNat

/-- the character that binds two pictures -/
def joiner : Char := '\u200D'

def joins (c d : Char) : Bool :=
  (c == '\r' && d == '\n') ||
    (!isControl c && !isControl d && (isExtender d || isLeader c))

/-- the clusters of a text that starts with `c`; the flag tells that a picture with extenders
stands right before it, in the same cluster -/
def clustersFrom : (afterPicture : Bool) → Char → List Char → List (List Char)
  | _, c, [] => [[c]]
  | afterPicture, c, d :: ds =>
    if joins c d || (afterPicture && c == joiner && isPicture d) then
      consHead c
        (clustersFrom (isPicture c || (afterPicture && isExtender c && c != joiner)) d ds)
    else [c] :: clustersFrom false d ds

def clusters : List Char → List (List Char)
  | [] => []
  | c :: cs => clustersFrom false c cs

/-- a character below the first marks that does not begin a line end -/
def isPlain (c : Char) : Bool := c.toNat < 0x300 && c != '\r'

theorem joins_of_plain {c d : Char} (hc : isPlain c = true) (hd : isPlain d = true) :
    joins c d = false := by
  simp only [isPlain, Bool.and_eq_true, decide_eq_true_eq, bne_iff_ne] at hc hd
  have h₁ : ¬ 0x300 ≤ c.toNat := by omega
  have h₂ : ¬ 0x300 ≤ d.toNat := by omega
  simp [joins, isExtender, isLeader, h₁, h₂, hc.2]

theorem clustersFrom_of_plain (c : Char) (cs : List Char) (hc : isPlain c = true)
    (hcs : ∀ d ∈ cs, isPlain d = true) :
    clustersFrom false c cs = (c :: cs).map ([·]) := by
  induction cs generalizing c with
  | nil => rfl
  | cons d ds ih =>
    have hd := hcs d List.mem_cons_self
    rw [clustersFrom, joins_of_plain hc hd]
    have := ih d hd fun e he => hcs e (List.mem_cons_of_mem d he)
    simp [this]

/-- below the first marks every character is a cluster of its own -/
theorem clusters_of_plain (cs : List Char) (h : ∀ c ∈ cs, isPlain c = true) :
    clusters cs = cs.map ([·]) := by
  cases cs with
  | nil => rfl
  | cons c cs =>
    exact clustersFrom_of_plain c cs (h c List.mem_cons_self)
      fun d hd => h d (List.mem_cons_of_mem c hd)

end TypeModel.Text
