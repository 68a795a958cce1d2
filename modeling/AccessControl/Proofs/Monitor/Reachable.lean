import AccessControl.Monitor.Setup
import AccessControl.Proofs.Model.Reader
import AccessControl.Proofs.Monitor.Memory
import AccessControl.Proofs.Monitor.Step

namespace AccessControl.Monitor

open Policy Matcher

inductive Reachable : Monitor → Prop
  | built {setup : Setup} {m : Monitor} (h : setup.build = .ok m) : Reachable m
  | after {m : Monitor} (h : Reachable m) (op : Operation) : Reachable (m.after op)

theorem reachable_afterAll {m : Monitor} (h : Reachable m) (ops : List Operation) :
    Reachable (m.afterAll ops) := by
  induction ops generalizing m with
  | nil => exact h
  | cons op ops ih => exact ih (h.after op)

/-- A monitor that is built has its model from the text and its program from the model, and it
starts with no rows and nothing to remember. -/
theorem build_eq_ok_iff {setup : Setup} {m : Monitor} : setup.build = .ok m ↔
    ∃ text, setup.modelSource = .ok text ∧ Model.ofText text = .ok m.model ∧
      m.model.program setup.maxDepth = .ok m.program ∧
      Setup.bindResolvers m.model setup.bindFunctions setup.resolvers = .ok m.functions ∧
      m.rows = [] ∧ m.recent = setup.recent.map .empty := by
  simp only [Setup.build, Result.bind_eq_ok_iff, Result.mapError_eq_ok_iff]
  constructor
  · rintro ⟨text, htext, model, hmodel, program, hprogram, functions, hfunctions, h⟩
    cases h
    exact ⟨text, htext, hmodel, hprogram, hfunctions, rfl, rfl⟩
  · rintro ⟨text, htext, hmodel, hprogram, hfunctions, hrows, hrecent⟩
    refine ⟨text, htext, m.model, hmodel, m.program, hprogram, m.functions, hfunctions, ?_⟩
    rw [← hrows, ← hrecent]
    rfl

theorem build_rows {setup : Setup} {m : Monitor} (h : setup.build = .ok m) : m.rows = [] := by
  obtain ⟨-, -, -, -, -, hrows, -⟩ := build_eq_ok_iff.mp h
  exact hrows

theorem Reachable.exists_program {m : Monitor} (h : Reachable m) :
    ∃ limit, m.model.program limit = .ok m.program := by
  induction h with
  | built h =>
    obtain ⟨-, -, -, hprogram, -⟩ := build_eq_ok_iff.mp h
    exact ⟨_, hprogram⟩
  | @after m h op ih =>
    obtain ⟨rows, recent, hafter⟩ := keeps_after m op
    rw [hafter]
    exact ih

/-- The policy that decides is always one of the model's. -/
theorem Reachable.exists_decidingPolicy {m : Monitor} (h : Reachable m) :
    ∃ s, m.model.decidingPolicy? = some s ∧ s.symbol = m.model.clause.policy := by
  induction h with
  | built h =>
    obtain ⟨text, -, htext, -⟩ := build_eq_ok_iff.mp h
    exact Model.exists_decidingPolicy htext
  | @after m h op ih =>
    obtain ⟨rows, recent, hafter⟩ := keeps_after m op
    rw [hafter]
    exact ih

theorem error_of_holding {p : Program} {policy : Schema} {s : Scope} {rows : List Row} {e : Error}
    (h : (holding p policy s rows).result = .error e) : ∃ failure, e = .evaluation failure := by
  induction rows generalizing s with
  | nil => cases h
  | cons row rows ih =>
    rcases Traced.result_bind_eq_error_iff.mp h with h | ⟨b, -, h⟩
    · rw [Traced.mapError] at h
      cases hholds : (p.holds (s.bindTuple policy.symbol policy.attrs row.values)).result with
      | error failure =>
        rw [hholds] at h
        cases h
        exact ⟨failure, rfl⟩
      | ok b =>
        rw [hholds] at h
        cases h
    · rcases Traced.result_bind_eq_error_iff.mp h with h | ⟨rest, -, h⟩
      · exact ih h
      · cases h

/-- A request fails because of its length or because the matcher does. -/
theorem Reachable.error_of_decideAnew {m : Monitor} (hm : Reachable m) {request : List String}
    {e : Error} (h : (m.decideAnew request).result = .error e) :
    (∃ expected found, e = .requestArity expected found) ∨ ∃ failure, e = .evaluation failure := by
  obtain ⟨policy, hpolicy, -⟩ := hm.exists_decidingPolicy
  rcases Traced.result_bind_eq_error_iff.mp h with h | ⟨_, -, h⟩
  · rw [Traced.result_ofExcept, checkRequest] at h
    split at h
    · cases h
    · cases h
      exact .inl ⟨_, _, rfl⟩
  · rcases Traced.result_bind_eq_error_iff.mp h with h | ⟨rows, -, h⟩
    · rw [matching, hpolicy] at h
      exact .inr (error_of_holding h)
    · cases h

section

variable {m : Monitor} {request : List String} {e : Error}

/-- What is remembered does not fail. -/
theorem decideAnew_fails_of_decide (h : m.reply (.decide request) = .error e) :
    (m.decideAnew request).result = .error e := by
  rw [reply_decide, Result.map_eq_error_iff] at h
  obtain ⟨recent, recent', b, hrecent, hfound⟩ | hfind := find_or_not m request
  · rw [decide_of_find hrecent hfound] at h
    rcases Traced.result_bind_eq_error_iff.mp h with h | ⟨_, -, h⟩
    · exact Traced.result_bind_eq_error_iff.mpr (.inl h)
    · cases h
  · rwa [decide_of_not_find hfind, Traced.result_map, Result.map_eq_error_iff] at h

theorem decideAnew_fails_of_explain (h : m.reply (.explain request) = .error e) :
    (m.decideAnew request).result = .error e := by
  rw [reply_explain, Result.map_eq_error_iff] at h
  rcases Traced.result_bind_eq_error_iff.mp h with h | ⟨_, hcheck, h⟩
  · exact Traced.result_bind_eq_error_iff.mpr (.inl h)
  · rcases Traced.result_bind_eq_error_iff.mp h with h | ⟨_, -, h⟩
    · exact Traced.result_bind_eq_error_iff.mpr
        (.inr ⟨_, hcheck, Traced.result_bind_eq_error_iff.mpr (.inl h)⟩)
    · cases h

end

end AccessControl.Monitor
