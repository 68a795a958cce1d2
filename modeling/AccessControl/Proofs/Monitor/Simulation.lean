import AccessControl.Proofs.Matcher.Simulation
import AccessControl.Proofs.Monitor.Enforcement

namespace AccessControl.Monitor

open Policy Matcher

/-- Where the symbols are the same, the row hides the request. -/
theorem rowScope_get? (m : Monitor) (policy : Schema) (request : List String) (row : Row)
    (name : String) : (m.rowScope policy request row).get? name =
      if name = policy.symbol then some (.record (policy.attrs.zip (row.values.map .string)))
      else if name = m.model.request.symbol then
        some (.record (m.model.request.attrs.zip (request.map .string)))
      else none := by
  rw [rowScope, Scope.get?, Table.get?_ofList]
  simp only [List.reverse_cons, List.reverse_nil, List.nil_append, List.singleton_append,
    List.lookup_cons, List.lookup_nil]
  cases hpolicy : name == policy.symbol with
  | true => rw [if_pos (eq_of_beq hpolicy)]
  | false =>
    rw [if_neg (ne_of_beq_false hpolicy)]
    cases hrequest : name == m.model.request.symbol with
    | true => rw [if_pos (eq_of_beq hrequest)]
    | false => rw [if_neg (ne_of_beq_false hrequest)]

/-- What is seen of an attribute in a record of strings. -/
theorem field?_record (attrs values : List String) (attr : String) :
    (Value.record (attrs.zip (values.map .string))).field? attr =
      (attrs.zip (values.map Value.string)).reverse.lookup attr :=
  Table.get?_ofList _ attr

section

variable {m m' : Monitor} {policy : Schema} {request request' : List String}

theorem judge_mirrors {f : Value → Value} (hf : KeepsTruth f) (hprogram : m'.program = m.program)
    {row row' : Row} (h : ∀ i ∈ m.program.instructions,
      i.Mirrors f (m.rowScope policy request row) (m'.rowScope policy request' row')) :
    m'.judge policy request' row' = m.judge policy request row := by
  rw [← judge_eq, ← judge_eq, hprogram, holds_mirrors hf h]

/-- The request to the monitor `m'` is the other's counterpart: the rows that have a say in it are
counterparts too, have the same effects, and are judged alike. -/
structure Counterpart (g : Row → Row) (m m' : Monitor) (request request' : List String) : Prop where
  model : m'.model = m.model
  length : request'.length = request.length
  candidates : m'.candidates = m.candidates.map g
  effect : ∀ row, (g row).effect = row.effect
  judge : ∀ policy, m.model.decidingPolicy? = some policy → ∀ row ∈ m.candidates,
    m'.judge policy request' (g row) = m.judge policy request row

theorem holding_counterpart {g : Row → Row} {rows : List Row}
    (h : ∀ row ∈ rows, m'.judge policy request' (g row) = m.judge policy request row) :
    holding m'.program policy (m'.requestScope request') (rows.map g) =
      List.map g <$> holding m.program policy (m.requestScope request) rows := by
  induction rows with
  | nil => rfl
  | cons row rows ih =>
    obtain ⟨hrow, hrows⟩ := List.forall_mem_cons.mp h
    rw [List.map_cons, holding_cons (fresh_requestScope m' policy request'), hrow, ih hrows,
      holding_cons (fresh_requestScope m policy request), map_bind]
    refine congrArg _ (funext fun b => ?_)
    rw [bind_map_left, map_bind]
    refine congrArg _ (funext fun rest => ?_)
    cases b <;> rfl

section

variable {g : Row → Row} (h : Counterpart g m m' request request')
  (hpolicy : m.model.decidingPolicy? = some policy)
  (hsymbol : policy.symbol = m.model.clause.policy)
include h hpolicy hsymbol

theorem matching_counterpart : m'.matching request' = List.map g <$> m.matching request := by
  have hpolicy' : m'.model.decidingPolicy? = some policy := by rw [h.model, hpolicy]
  have hsymbol' : policy.symbol = m'.model.clause.policy := by rw [h.model, hsymbol]
  rw [matching_eq hpolicy' hsymbol', matching_eq hpolicy hsymbol, h.candidates,
    holding_counterpart (h.judge policy hpolicy)]

omit hpolicy hsymbol in
theorem checkRequest_counterpart : m'.checkRequest request' = m.checkRequest request := by
  rw [checkRequest, checkRequest, h.model, h.length]

omit hpolicy hsymbol in
/-- A decision depends on nothing but the effects of rows. -/
theorem verdict_counterpart (rows : List Row) : m'.verdict (rows.map g) = m.verdict rows := by
  have heffects : (rows.map g).map (·.effect) = rows.map (·.effect) := by
    rw [List.map_map]
    exact List.map_congr_left fun row _ => h.effect row
  rw [verdict, verdict, h.model, heffects]

theorem decideAnew_counterpart : m'.decideAnew request' = m.decideAnew request := by
  rw [decideAnew, decideAnew, checkRequest_counterpart h, matching_counterpart h hpolicy hsymbol]
  simp only [bind_map_left, verdict_counterpart h]

theorem explain_counterpart : m'.explain request' =
    (fun (granted, rows) => (granted, rows.map g)) <$> m.explain request := by
  rw [explain, explain, checkRequest_counterpart h, matching_counterpart h hpolicy hsymbol]
  simp only [bind_map_left, map_bind, map_pure, verdict_counterpart h]

end

end

end AccessControl.Monitor
