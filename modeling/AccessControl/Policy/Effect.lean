namespace AccessControl.Policy

inductive Effect
  | allow
  | deny
deriving DecidableEq

namespace Effect

def name : Effect → String
  | allow => "allow"
  | deny => "deny"

def ofName? : String → Option Effect
  | "allow" => some allow
  | "deny" => some deny
  | _ => none

theorem ofName?_eq_some_iff {s : String} {e : Effect} : ofName? s = some e ↔ s = e.name := by
  constructor
  · intro h
    unfold ofName? at h
    split at h <;> simp_all [name]
    all_goals subst h; rfl
  · rintro rfl
    cases e <;> rfl

end Effect

end AccessControl.Policy
