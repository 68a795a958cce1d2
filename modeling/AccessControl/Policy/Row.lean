import AccessControl.Policy.Effect

namespace AccessControl.Policy

structure Row where
  policy : String
  values : List String
  effect : Effect
deriving DecidableEq

end AccessControl.Policy
