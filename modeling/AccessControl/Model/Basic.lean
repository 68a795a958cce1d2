import AccessControl.Policy.Rule

namespace AccessControl

/-- The attributes of a request or of the rows of a policy, under the symbol that matchers know the
tuple by. -/
structure Schema where
  symbol : String
  attrs : List String
deriving DecidableEq

/-- The attribute that holds the effect of a row, where a schema has it. -/
def effectAttribute : String := "eft"

def Schema.effectIndex? (s : Schema) : Option Nat :=
  s.attrs.findIdx? (· == effectAttribute)

/-- What a schema calls the effect, given the values of all attributes. -/
def Schema.effectText? (s : Schema) (values : List String) : Option String :=
  (s.attrs.zip values).lookup effectAttribute

/-- A relation between names that matchers can ask for. -/
structure Role where
  symbol : String
  arity : Nat
deriving DecidableEq

structure Model where
  request : Schema
  policies : List Schema
  roles : List Role
  clause : Policy.Clause
  matcher : String
deriving DecidableEq

namespace Model

def policy? (m : Model) (symbol : String) : Option Schema :=
  m.policies.find? (·.symbol == symbol)

def role? (m : Model) (symbol : String) : Option Role :=
  m.roles.find? (·.symbol == symbol)

/-- The policy whose rows decide. -/
def decidingPolicy? (m : Model) : Option Schema :=
  m.policy? m.clause.policy

end Model

end AccessControl
