import AccessControl.Matcher.FunctionTable

namespace AccessControl.Matcher

/-- By name, and among those of one name by the number of arguments. -/
def Signature.Before (s t : Signature) : Prop :=
  s.name < t.name ∨ s.name = t.name ∧ s.arity < t.arity

theorem Signature.compare_eq_lt_iff {s t : Signature} : compare s t = .lt ↔ s.Before t := by
  have hname : compare s.name t.name = .lt ↔ s.name < t.name := compareOfLessAndEq_eq_lt
  have hsame : compare s.name t.name = .eq ↔ s.name = t.name :=
    Std.LawfulEqOrd.compare_eq_iff_eq
  change (compare s.name t.name).then (compare s.arity t.arity) = .lt ↔ _
  rw [Ordering.then_eq_lt, hname, hsame, Nat.compare_eq_lt]
  rfl

instance : Std.TransOrd Signature :=
  inferInstanceAs (Std.TransCmp (compareLex (compareOn Signature.name) (compareOn Signature.arity)))

namespace FunctionTable

theorem mem_signatures_iff {t : FunctionTable} {s : Signature} :
    s ∈ t.signatures ↔ (t.get? s).isSome :=
  Table.isSome_get?_iff.symm

/-- No signature is listed twice, and none before one that precedes it. -/
theorem signatures_pairwise {t : FunctionTable} (h : t.Ascending) :
    t.signatures.Pairwise Signature.Before :=
  List.Pairwise.imp Signature.compare_eq_lt_iff.mp h

/-- What is there without anyone providing it. -/
def builtin? (s : Signature) : Option Binding :=
  (Builtin.Predicate.all.find? fun p => s == ⟨p.name, Builtin.Predicate.arity⟩).map .predicate

theorem get?_builtins (s : Signature) : builtins.get? s = builtin? s := by
  rw [builtins, Table.get?_ofList, builtin?]
  by_cases h : ∃ p ∈ Builtin.Predicate.all, s = ⟨p.name, Builtin.Predicate.arity⟩
  · obtain ⟨p, -, rfl⟩ := h
    cases p <;> rfl
  · have hnone : Builtin.Predicate.all.find?
        (fun p => s == ⟨p.name, Builtin.Predicate.arity⟩) = none := by simpa using h
    rw [hnone, Option.map_none, List.lookup_eq_none_iff]
    simpa using h

theorem ascending_builtins : Table.Ascending builtins :=
  Table.ascending_ofList _

end FunctionTable

end AccessControl.Matcher
