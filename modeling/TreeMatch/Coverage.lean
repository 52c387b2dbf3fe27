import TreeMatch.Path.Basic

/-!
# Coverage

A path counts as covered by a set of checked paths when it was checked itself or something below it
was. The texts of all paths below `p` start with the text of `p` and a dot; in code point order the
texts with a common beginning stand together, right where that beginning would be inserted. So one
binary search in the sorted texts answers the question.
-/

namespace TreeMatch

/-- The first position in `xs` between `lo` and `lo + n` from which on no text is below `x`, by
bisection, if the texts are sorted. -/
def lowerBound (xs : Array String) (x : String) (lo n : Nat) : Nat :=
  if n = 0 then lo else
  let mid := lo + n / 2
  if xs.getD mid "" < x then lowerBound xs x (mid + 1) (n - n / 2 - 1)
  else lowerBound xs x lo (n / 2)
termination_by n

/-- Whether a text starts with another one. -/
def startsWith (text start : String) : Bool := start.toList.isPrefixOf text.toList

/-- The texts of checked paths, sorted and without repetition. -/
structure CoveredPaths where
  /-- The sorted texts. -/
  sorted : Array String

namespace CoveredPaths

/-- The texts of a list in ascending order without repetition. -/
def ofList (checked : List String) : CoveredPaths :=
  ⟨(checked.eraseDups.mergeSort (fun a b => a ≤ b)).toArray⟩

/-- The number of texts. -/
def size (c : CoveredPaths) : Nat := c.sorted.size

/-- Whether the path or anything below it was checked. Everything is below the root. -/
def covers (c : CoveredPaths) (path : Path) : Bool :=
  if c.sorted.contains path.render then true
  else if path.isEmpty then !c.sorted.isEmpty
  else
    let stem := path.render ++ "."
    let i := lowerBound c.sorted stem 0 c.sorted.size
    decide (i < c.sorted.size) && startsWith (c.sorted.getD i "") stem

end CoveredPaths

end TreeMatch
