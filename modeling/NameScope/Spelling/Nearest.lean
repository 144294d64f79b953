import NameScope.Spelling.Distance

/-
  Names that may have been meant.  Of the names at hand those at a small edit distance are
  suggested, the nearest first; of two that are equally near the one that comes first in the list.
-/

namespace NameScope.Spelling

/-- Names farther away than this are never suggested. -/
def maxDistance : Nat := 3

/-- Candidates other than the target that are near enough, each with its distance. -/
def scored (target : String) (candidates : List String) : List (String × Nat) :=
  ((candidates.filter (· ≠ target)).map fun c => (c, distance target.toList c.toList)).filter
    (·.2 ≤ maxDistance)

/-- Takes names until there are `limit`, each once. -/
def takeDistinct (limit : Nat) (taken : List String) : List String → List String
  | [] => taken
  | name :: names =>
    if taken.length = limit then taken
    else if name ∈ taken then takeDistinct limit taken names
    else takeDistinct limit (taken ++ [name]) names

/-- At most `limit` different candidates near the target, the nearest first. -/
def nearest (target : String) (candidates : List String) (limit : Nat) : List String :=
  takeDistinct limit []
    (((scored target candidates).mergeSort fun p q => p.2 ≤ q.2).map Prod.fst)

end NameScope.Spelling
