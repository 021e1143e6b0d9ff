import Mathlib.Data.List.Basic

namespace PredicateSearch

/-! What comes first in a list, and what comes last -/

theorem eraseDups_concat (ks : List String) (k : String) :
    (ks ++ [k]).eraseDups = if k ∈ ks then ks.eraseDups else ks.eraseDups ++ [k] := by
  rw [List.eraseDups_append]
  by_cases hk : k ∈ ks
  · simp [List.removeAll, hk]
  · simp [List.removeAll, hk, List.eraseDups_cons]

section

variable {α β : Type}

/-- The value that the last member with one has. -/
def lastOf (f : α → Option β) (as : List α) : Option β := (as.filterMap f).getLast?

theorem lastOf_append (f : α → Option β) (as bs : List α) :
    lastOf f (as ++ bs) = (lastOf f bs).or (lastOf f as) := by
  rw [lastOf, List.filterMap_append, List.getLast?_append]
  rfl

theorem lastOf_singleton (f : α → Option β) (a : α) : lastOf f [a] = f a := by
  cases h : f a <;> simp [lastOf, h]

end

end PredicateSearch
