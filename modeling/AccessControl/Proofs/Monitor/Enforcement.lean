import AccessControl.Proofs.Monitor.Reachable

namespace AccessControl.Monitor

open Policy Matcher

/-- The rows that have a say, in the order of their insertion. -/
def candidates (m : Monitor) : List Row :=
  m.rows.filter fun row => row.policy == m.model.clause.policy

/-- Nothing but the request and one row. -/
def rowScope (m : Monitor) (policy : Schema) (request : List String) (row : Row) : Scope :=
  let asked := m.model.request.attrs.zip (request.map .string)
  let stored := policy.attrs.zip (row.values.map .string)
  ⟨.ofList [(m.model.request.symbol, .record asked), (policy.symbol, .record stored)], m.functions⟩

/-- What the matcher says of a row; anything but a truth value is an error. -/
def judge (m : Monitor) (policy : Schema) (request : List String) (row : Row) : Traced Error Bool :=
  let outcome := m.program.eval (m.rowScope policy request row)
  let answer := match outcome.result with
    | .ok (.bool b) => .ok b
    | .ok v => .error (.evaluation (.typeMismatch m.program.source (.outcome v.type)))
    | .error e => .error (.evaluation e)
  ⟨answer, outcome.calls⟩

/-- Whether a rule grants a request, given the rows that match it. -/
def Grants (matched : List Row) : Rule → Prop
  | .allowOverride => ∃ row ∈ matched, row.effect = .allow
  | .denyOverride => ¬∃ row ∈ matched, row.effect = .deny

section

variable (judge : Row → Traced Error Bool)

def Judged (rows : List Row) : Prop :=
  ∀ row ∈ rows, ∃ b, (judge row).result = .ok b

def accepts (row : Row) : Bool :=
  match (judge row).result with
  | .ok b => b
  | .error _ => false

/-- The function calls that it takes to judge rows one after another. -/
def callsOn (rows : List Row) : List Invocation :=
  rows.flatMap fun row => (judge row).calls

/-- Either all rows are judged, or there is a first one that is not. -/
theorem judged_or_first_error (rows : List Row) :
    Judged judge rows ∨ ∃ front row rest e, rows = front ++ row :: rest ∧ Judged judge front ∧
      (judge row).result = .error e := by
  induction rows with
  | nil => exact .inl fun row h => nomatch h
  | cons row rows ih =>
    cases hrow : (judge row).result with
    | error e => exact .inr ⟨[], row, rows, e, rfl, (fun _ h => nomatch h), hrow⟩
    | ok b =>
      have hcons {front : List Row} (h : Judged judge front) : Judged judge (row :: front) := by
        intro r hr
        rcases List.mem_cons.mp hr with rfl | hr
        · exact ⟨b, hrow⟩
        · exact h r hr
      rcases ih with h | ⟨front, r, rest, e, rfl, hfront, he⟩
      · exact .inl (hcons h)
      · exact .inr ⟨row :: front, r, rest, e, rfl, hcons hfront, he⟩

end

/-- The request is answered as declared: with the first error there is, or else by the rule on the
rows that match. No row is judged after an error, nor one that is not a candidate. -/
def DecidedByRule (m : Monitor) (policy : Schema) (request : List String) : Prop :=
  let judge := m.judge policy request
  (∃ front row rest e, m.candidates = front ++ row :: rest ∧ Judged judge front ∧
    (judge row).result = .error e ∧
    m.decide request = ⟨.error e, callsOn judge (front ++ [row])⟩ ∧
    m.explain request = ⟨.error e, callsOn judge (front ++ [row])⟩) ∨
  (Judged judge m.candidates ∧ ∃ granted,
    (granted = true ↔ Grants (m.candidates.filter (accepts judge)) m.model.clause.rule) ∧
    m.decide request = ⟨.ok (granted, m), callsOn judge m.candidates⟩ ∧
    m.explain request =
      ⟨.ok (granted, m.candidates.filter (accepts judge)), callsOn judge m.candidates⟩)

theorem verdict_iff (m : Monitor) (rows : List Row) :
    m.verdict rows = true ↔ Grants rows m.model.clause.rule := by
  rw [verdict]
  cases m.model.clause.rule with
  | allowOverride => simp [Rule.combine, Grants]
  | denyOverride => simp [Rule.combine, Grants]

theorem judge_eq (m : Monitor) (policy : Schema) (request : List String) (row : Row) :
    (m.program.holds (m.rowScope policy request row)).mapError .evaluation =
      m.judge policy request row := by
  rw [Program.holds, judge]
  cases h : (m.program.eval (m.rowScope policy request row)).result with
  | error e =>
    rw [Traced.bind_of_error h]
    rfl
  | ok v =>
    rw [Traced.bind_of_ok h]
    cases v <;> exact congrArg (Traced.mk _) (List.append_nil _)

/-- Whether the scope, once a row is bound in it, holds nothing but the request and that row. -/
def Fresh (m : Monitor) (policy : Schema) (request : List String) (s : Scope) : Prop :=
  ∀ row : Row, s.bindTuple policy.symbol policy.attrs row.values = m.rowScope policy request row

theorem fresh_requestScope (m : Monitor) (policy : Schema) (request : List String) :
    m.Fresh policy request (m.requestScope request) :=
  fun _ => rfl

/-- A row leaves no trace when the next one is bound. -/
theorem fresh_rowScope (m : Monitor) (policy : Schema) (request : List String) (row : Row) :
    m.Fresh policy request (m.rowScope policy request row) := by
  intro next
  have hinsert := Table.insert_insert policy.symbol
    (Value.record (policy.attrs.zip (next.values.map .string)))
    (Value.record (policy.attrs.zip (row.values.map .string)))
    (m.requestScope request).values
  exact congrArg (Scope.mk · m.functions) hinsert

section

variable {m : Monitor} {policy : Schema} {request : List String}

theorem holding_congr {s s' : Scope} (h : m.Fresh policy request s)
    (h' : m.Fresh policy request s') (rows : List Row) :
    holding m.program policy s rows = holding m.program policy s' rows := by
  cases rows with
  | nil => rfl
  | cons row rows => rw [holding, holding, h row, h' row]

/-- Each row is judged by itself. -/
theorem holding_cons {s : Scope} (h : m.Fresh policy request s) (row : Row) (rows : List Row) :
    holding m.program policy s (row :: rows) = (do
      let holds ← m.judge policy request row
      let rest ← holding m.program policy s rows
      return if holds then row :: rest else rest) := by
  -- The rows that follow are judged in the scope that this one was bound in.
  have hrest := holding_congr (fresh_rowScope m policy request row) h rows
  rw [holding, h row, judge_eq]
  simp only [hrest]

theorem holding_of_judged {s : Scope} (h : m.Fresh policy request s) {rows : List Row}
    (hrows : Judged (m.judge policy request) rows) :
    holding m.program policy s rows =
      ⟨.ok (rows.filter (accepts (m.judge policy request))),
        callsOn (m.judge policy request) rows⟩ := by
  induction rows with
  | nil => rfl
  | cons row rows ih =>
    obtain ⟨b, hb⟩ := hrows row List.mem_cons_self
    have hrest := ih fun r hr => hrows r (List.mem_cons_of_mem row hr)
    have haccepts : accepts (m.judge policy request) row = b := by simp [accepts, hb]
    rw [holding_cons h, Traced.bind_of_ok hb, hrest, List.filter_cons, haccepts]
    cases b <;> simp [callsOn, Traced.bind_of_ok]

theorem holding_of_first_error {s : Scope} (h : m.Fresh policy request s) {front rest : List Row}
    {row : Row} {e : Error} (hfront : Judged (m.judge policy request) front)
    (he : (m.judge policy request row).result = .error e) :
    holding m.program policy s (front ++ row :: rest) =
      ⟨.error e, callsOn (m.judge policy request) (front ++ [row])⟩ := by
  induction front with
  | nil =>
    rw [List.nil_append, holding_cons h, Traced.bind_of_error he]
    simp [callsOn]
  | cons first front ih =>
    obtain ⟨b, hb⟩ := hfront first List.mem_cons_self
    have hrest := ih fun r hr => hfront r (List.mem_cons_of_mem first hr)
    rw [List.cons_append, holding_cons h, Traced.bind_of_ok hb, hrest]
    simp [callsOn, Traced.bind_of_error]

theorem matching_eq (hpolicy : m.model.decidingPolicy? = some policy)
    (hsymbol : policy.symbol = m.model.clause.policy) :
    m.matching request =
      holding m.program policy (m.requestScope request) m.candidates := by
  rw [matching, hpolicy, candidates, ← hsymbol]

end

section

variable {m : Monitor} {policy : Schema} {request : List String}

theorem checkRequest_of_length_eq (hlen : request.length = m.model.request.attrs.length) :
    m.checkRequest request = .ok () := by
  rw [checkRequest, if_pos hlen]

theorem checkRequest_of_length_ne (hlen : request.length ≠ m.model.request.attrs.length) :
    m.checkRequest request =
      .error (.requestArity m.model.request.attrs.length request.length) := by
  rw [checkRequest, if_neg hlen]

theorem explain_eq (hlen : request.length = m.model.request.attrs.length) :
    m.explain request = (fun rows => (m.verdict rows, rows)) <$> m.matching request := by
  rw [explain, checkRequest_of_length_eq hlen, Traced.ok_bind, map_eq_pure_bind]

theorem decide_eq (hrecent : m.recent = none)
    (hlen : request.length = m.model.request.attrs.length) :
    m.decide request = (fun rows => (m.verdict rows, m)) <$> m.matching request := by
  have hself : { m with recent := none } = m := by rw [← hrecent]
  rw [decide, checkRequest_of_length_eq hlen, Traced.ok_bind, map_eq_pure_bind]
  simp only [hrecent, Option.map_none, hself]

theorem decidedByRule (hrecent : m.recent = none)
    (hpolicy : m.model.decidingPolicy? = some policy)
    (hsymbol : policy.symbol = m.model.clause.policy)
    (hlen : request.length = m.model.request.attrs.length) : m.DecidedByRule policy request := by
  have hfresh := fresh_requestScope m policy request
  have hmatching := @matching_eq m policy request hpolicy hsymbol
  rcases judged_or_first_error (m.judge policy request) m.candidates with
    hjudged | ⟨front, row, rest, e, hsplit, hfront, he⟩
  · rw [holding_of_judged hfresh hjudged] at hmatching
    have hverdict := verdict_iff m (m.candidates.filter (accepts (m.judge policy request)))
    refine .inr ⟨hjudged, _, hverdict, ?_, ?_⟩
    · rw [decide_eq hrecent hlen, hmatching, map_eq_pure_bind, Traced.bind_of_ok rfl]
      simp
    · rw [explain_eq hlen, hmatching, map_eq_pure_bind, Traced.bind_of_ok rfl]
      simp
  · rw [hsplit, holding_of_first_error hfresh hfront he] at hmatching
    refine .inl ⟨front, row, rest, e, hsplit, hfront, he, ?_, ?_⟩
    · rw [decide_eq hrecent hlen, hmatching]
      rfl
    · rw [explain_eq hlen, hmatching]
      rfl

/-- Rows that are no candidates have no say. -/
theorem matching_congr {rows : List Row} (hpolicy : m.model.decidingPolicy? = some policy)
    (hsymbol : policy.symbol = m.model.clause.policy)
    (hrows : candidates { m with rows } = m.candidates) :
    matching { m with rows } request = m.matching request := by
  have hother : matching { m with rows } request = holding m.program policy
      (m.requestScope request) (candidates { m with rows }) := matching_eq hpolicy hsymbol
  rw [hother, hrows, matching_eq hpolicy hsymbol]

end

/-- A request of the wrong length is refused before anything is evaluated; any other is decided by
the declared rule, and no rows but those of the deciding policy make a difference. -/
theorem enforcement_is_declared {m : Monitor} (hm : Reachable m) (hrecent : m.recent = none)
    (request : List String) :
    let expected := m.model.request.attrs.length
    (request.length ≠ expected →
      m.decide request = ⟨.error (.requestArity expected request.length), []⟩ ∧
      m.explain request = ⟨.error (.requestArity expected request.length), []⟩) ∧
    (request.length = expected → ∃ policy, m.model.decidingPolicy? = some policy ∧
      policy.symbol = m.model.clause.policy ∧ m.DecidedByRule policy request) ∧
    ∀ rows, candidates { m with rows } = m.candidates →
      explain { m with rows } request = m.explain request ∧
      Prod.fst <$> decide { m with rows } request = Prod.fst <$> m.decide request := by
  obtain ⟨policy, hpolicy, hsymbol⟩ := hm.exists_decidingPolicy
  refine ⟨fun hlen => ?_, fun hlen => ?_, fun rows hrows => ?_⟩
  · have hcheck := checkRequest_of_length_ne hlen
    constructor
    · rw [decide, hcheck]
      rfl
    · rw [explain, hcheck]
      rfl
  · exact ⟨policy, hpolicy, hsymbol, decidedByRule hrecent hpolicy hsymbol hlen⟩
  · have hmatching := @matching_congr m policy request rows hpolicy hsymbol hrows
    by_cases hlen : request.length = m.model.request.attrs.length
    · constructor
      · rw [explain_eq hlen, ← hmatching]
        exact explain_eq hlen
      · rw [decide_eq hrecent hlen, ← hmatching, @decide_eq { m with rows } request hrecent hlen,
          Functor.map_map, Functor.map_map]
        rfl
    · have hcheck := checkRequest_of_length_ne hlen
      have hcheck' : checkRequest { m with rows } request = m.checkRequest request := rfl
      constructor
      · rw [explain, explain, hcheck', hcheck]
        rfl
      · rw [decide, decide, hcheck', hcheck]
        rfl

/-- Denies what a row of the first policy denies; the second has no say. -/
def watchedText : String :=
  "[request_definition]\nr = sub\n[policy_definition]\np = sub, eft\nq = sub\n" ++
  "[policy_effect]\ne = !some(where (p.eft == deny))\n[matchers]\nm = r.sub == p.sub"

def watched : Monitor where
  model := ⟨⟨"r", ["sub"]⟩, [⟨"p", ["sub", "eft"]⟩, ⟨"q", ["sub"]⟩], [], ⟨.denyOverride, "p"⟩,
    "r.sub == p.sub"⟩
  program := ⟨"r.sub == p.sub",
    [.fetchPath "r" ["sub"], .fetchPath "p" ["sub"], .binary .eq]⟩
  functions := .empty
  rows := []
  recent := none

theorem build_watched_with (recent : Option Nat) :
    Setup.build ⟨some watchedText, none, 8, recent, false, [], []⟩ =
      .ok { watched with recent := recent.map .empty } := by
  have hmodel : Model.ofText watchedText = .ok watched.model :=
    Result.eq_ok_of_toOption (by decide +kernel)
  have hcompile : Program.compile 8 watched.model.matcher = .ok watched.program := by
    with_unfolding_all rfl
  have hprogram : watched.model.program 8 = .ok watched.program :=
    congrArg (Except.mapError Model.Error.matcher) hcompile
  exact build_eq_ok_iff.mpr ⟨_, rfl, hmodel, hprogram, rfl, rfl, rfl⟩

theorem build_watched :
    Setup.build ⟨some watchedText, none, 8, none, false, [], []⟩ = .ok watched :=
  build_watched_with none

/-- With a row of either policy, and a request that both rows speak of. -/
theorem enforcement_is_declared_watched :
    let denial : Row := ⟨"p", ["alice", "deny"], .deny⟩
    let m := { watched with rows := [⟨"q", ["alice"], .allow⟩, denial] }
    Reachable m ∧ m.recent = none ∧ ["alice"].length = m.model.request.attrs.length ∧
      (∃ policy, m.model.decidingPolicy? = some policy ∧
        policy.symbol = m.model.clause.policy ∧ m.DecidedByRule policy ["alice"]) ∧
      m.explain ["alice"] = ⟨.ok (false, [denial]), []⟩ := by
  intro denial m
  have hadded : watched.afterAll [.add "q" ["alice"], .add "p" ["alice", "deny"]] = m := rfl
  have hm : Reachable m := hadded ▸ reachable_afterAll (.built build_watched) _
  have hrecent : m.recent = none := rfl
  have hlen : ["alice"].length = m.model.request.attrs.length := rfl
  have hdecided := (enforcement_is_declared hm hrecent ["alice"]).2.1 hlen
  have hexplained : m.explain ["alice"] = ⟨.ok (false, [denial]), []⟩ :=
    Traced.eq_ok_of_toOption (by decide +kernel) (by decide +kernel)
  exact ⟨hm, hrecent, hlen, hdecided, hexplained⟩

end AccessControl.Monitor
