import Mathlib.Data.List.Induction
import PredicateSearch.Proofs.Order
import PredicateSearch.Settings

namespace PredicateSearch

/-- No field is set by both. -/
structure Override.Apart (o o' : Override) : Prop where
  provider : o.provider = none ∨ o'.provider = none
  combinator : o.combinator = none ∨ o'.combinator = none
  ignoreBlank : o.ignoreBlank = none ∨ o'.ignoreBlank = none
  logPredicates : o.logPredicates = none ∨ o'.logPredicates = none

namespace Settings

section

variable {α : Type} {es : List (String × α)}

end

/-! What is left of the environments that were applied -/

end Settings

end PredicateSearch
