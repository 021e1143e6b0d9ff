namespace PredicateSearch

inductive Combinator where
  | all
  | any
  deriving DecidableEq, Repr

def Combinator.keyword : Combinator → String
  | all => "AND"
  | any => "OR"

namespace Search

structure Options where
  combinator : Combinator := .all
  ignoreBlank : Bool := true
  logPredicates : Bool := false
  deriving DecidableEq, Repr

end Search

end PredicateSearch
