import AccessControl.Proofs.Matcher.Simulation
import Mathlib.Logic.Function.Defs

namespace AccessControl.Matcher

namespace Value

mutual

/-- Replaces the strings of a value; the names of fields stay. -/
def rename (f : String → String) : Value → Value
  | number x => .number x
  | string s => .string (f s)
  | bool b => .bool b
  | map fields => .map (renameFields f fields)

def renameFields (f : String → String) : List (String × Value) → List (String × Value)
  | [] => []
  | (name, v) :: fields => (name, rename f v) :: renameFields f fields

end

section

variable {f : String → String}

theorem renameFields_eq_map (fields : List (String × Value)) :
    renameFields f fields = fields.map (Prod.map id (rename f)) := by
  induction fields with
  | nil => rfl
  | cons field fields ih =>
    rw [renameFields, ih]
    rfl

theorem type_rename (v : Value) : (v.rename f).type = v.type := by
  cases v <;> rfl

theorem keepsTruth_rename : KeepsTruth (rename f) :=
  ⟨type_rename, fun _ => rfl⟩

theorem field?_rename (v : Value) (attr : String) :
    (v.rename f).field? attr = (v.field? attr).map (rename f) := by
  cases v with
  | map fields =>
    rw [rename, renameFields_eq_map]
    exact Table.get?_map (rename f) fields attr
  | number | string | bool => rfl

theorem rename_record (fields : List (String × Value)) :
    (record fields).rename f = record (fields.map (Prod.map id (rename f))) := by
  rw [record, rename, renameFields_eq_map, Table.map_ofList]
  rfl

/-- A record of strings has a string in the place of each one. -/
theorem rename_record_strings (attrs values : List String) :
    (record (attrs.zip (values.map .string))).rename f =
      record (attrs.zip ((values.map f).map .string)) := by
  rw [rename_record, List.map_map]
  refine congrArg record ?_
  induction attrs generalizing values with
  | nil => rfl
  | cons attr attrs ih =>
    cases values with
    | nil => rfl
    | cons value values =>
      rw [List.map_cons, List.zip_cons_cons, List.map_cons, ih]
      rfl

end

end Value

namespace Instruction

/-- Strings are no more to it than the same or different: it leaves them to no function and does not
compare them by order. -/
def ComparesOnly : Instruction → Prop
  | call _ _ => False
  | binary op => op ≠ .lt ∧ op ≠ .le ∧ op ≠ .gt ∧ op ≠ .ge
  | _ => True

end Instruction

section

variable {f : String → String}

theorem follow_rename (walked : String) (v : Value) (path : List String) :
    Scope.follow walked (v.rename f) path = (Scope.follow walked v path).map (·.rename f) := by
  induction path generalizing walked v with
  | nil => rfl
  | cons attr path ih =>
    rw [Scope.follow, Scope.follow, Value.field?_rename]
    cases v.field? attr with
    | none => rfl
    | some w => exact ih _ w

theorem unary_rename (op : UnaryOp) (v : Value) :
    op.apply (v.rename f) = (op.apply v).map (·.rename f) := by
  cases op <;> cases v <;> rfl

theorem binary_rename {op : BinaryOp} (h : Instruction.ComparesOnly (.binary op))
    (hf : f.Injective) (u v : Value) :
    op.apply (u.rename f) (v.rename f) = (op.apply u v).map (·.rename f) := by
  have hbeq (s t : String) : (f s == f t) = (s == t) := by
    rw [Bool.eq_iff_iff, beq_iff_eq, beq_iff_eq, hf.eq_iff]
  obtain ⟨hlt, hle, hgt, hge⟩ := h
  cases op with
  | lt | le | gt | ge => contradiction
  | div =>
    cases u <;> cases v <;> try rfl
    next x y =>
      simp only [Value.rename, BinaryOp.apply]
      split <;> rfl
  | eq | ne =>
    cases u <;> cases v <;> try rfl
    next s t => simp [Value.rename, BinaryOp.apply, Except.map, hbeq, bne]
  | mul | add | sub | and | or => cases u <;> cases v <;> rfl

/-- An instruction that mentions no replaced string, and to which strings are only the same or
different, does not see the replacement. -/
theorem mirrors_rename {s s' : Scope} {i : Instruction} (hf : f.Injective)
    (hscope : ∀ name, s'.get? name = (s.get? name).map (·.rename f))
    (hcompares : i.ComparesOnly) (hfixed : ∀ t, i = .push (.string t) → f t = t) :
    i.Mirrors (Value.rename f) s s' := by
  have hfetch (name : String) : s'.fetch name = (s.fetch name).map (·.rename f) := by
    rw [Scope.fetch, Scope.fetch, hscope]
    cases s.get? name <;> rfl
  cases i with
  | push l =>
    cases l with
    | number x => rfl
    | string t => exact congrArg Value.string (hfixed t rfl)
  | fetch name => exact hfetch name
  | fetchPath name path =>
    change s'.fetchPath name path = (s.fetchPath name path).map (·.rename f)
    rw [Scope.fetchPath, Scope.fetchPath, hfetch]
    cases s.fetch name with
    | error e => rfl
    | ok v => exact follow_rename name v path
  | unary op => exact unary_rename op
  | binary op => exact binary_rename hcompares hf
  | call => exact hcompares.elim

end

end AccessControl.Matcher
