import AccessControl.Proofs.Model.Matcher
import AccessControl.Proofs.Monitor.Change
import AccessControl.Proofs.Monitor.Enforcement
import AccessControl.Proofs.Monitor.Memory

namespace AccessControl.Monitor

open Policy Matcher

theorem Reachable.faithful {m : Monitor} (hm : Reachable m) : Faithful m := by
  induction hm with
  | built h =>
    obtain ⟨-, -, -, -, -, -, hmemory⟩ := build_eq_ok_iff.mp h
    intro recent hrecent entry hentry
    rw [hmemory] at hrecent
    obtain ⟨capacity, -, rfl⟩ := Option.map_eq_some_iff.mp hrecent
    simp [RecentDecisions.empty] at hentry
  | after _ op ih => exact faithful_after ih op

/-- Monitors of the same model run the same program. -/
theorem Reachable.program_eq {m m' : Monitor} (hm : Reachable m) (hm' : Reachable m')
    (hmodel : m'.model = m.model) : m'.program = m.program := by
  obtain ⟨limit, hprogram⟩ := hm.exists_program
  obtain ⟨limit', hprogram'⟩ := hm'.exists_program
  rw [hmodel] at hprogram'
  exact Model.program_unique hprogram' hprogram

/-- Whether some candidate that the matcher accepts has the effect. -/
def Speaks (m : Monitor) (policy : Schema) (request : List String) (effect : Effect) : Prop :=
  ∃ row ∈ m.candidates, accepts (m.judge policy request) row = true ∧ row.effect = effect

/-- The decision that the rule asks for. -/
def Rules (m : Monitor) (policy : Schema) (request : List String) (granted : Bool) : Prop :=
  match m.model.clause.rule with
  | .allowOverride => granted = true ↔ m.Speaks policy request .allow
  | .denyOverride => granted = false ↔ m.Speaks policy request .deny

section

variable {m m' : Monitor} {policy : Schema} {request : List String} {granted : Bool}

theorem rules_iff_grants : m.Rules policy request granted ↔ (granted = true ↔
    Grants (m.candidates.filter (accepts (m.judge policy request))) m.model.clause.rule) := by
  unfold Rules
  cases m.model.clause.rule with
  | allowOverride => simp [Grants, Speaks, and_assoc]
  | denyOverride => cases granted <;> simp [Grants, Speaks, and_assoc]

/-- A request is refused for its length, fails with a candidate, or is decided by the rule. -/
theorem reply_decide_cases (hm : Reachable m) (request : List String) :
    (request.length ≠ m.model.request.attrs.length ∧ m.reply (.decide request) =
      .error (.requestArity m.model.request.attrs.length request.length)) ∨
    (request.length = m.model.request.attrs.length ∧ ∃ policy,
      m.model.decidingPolicy? = some policy ∧
      ((∃ row ∈ m.candidates, ∃ e, (m.judge policy request row).result = .error e ∧
        m.reply (.decide request) = .error e) ∨
      (Judged (m.judge policy request) m.candidates ∧ ∃ granted,
        m.Rules policy request granted ∧ m.reply (.decide request) = .ok (.flag granted)))) := by
  obtain ⟨policy, hpolicy, hsymbol⟩ := hm.exists_decidingPolicy
  rw [← reply_forgetful hm.faithful, reply_decide]
  by_cases hlen : request.length = m.model.request.attrs.length
  · refine .inr ⟨hlen, policy, hpolicy, ?_⟩
    rcases @decidedByRule m.forgetful policy request rfl hpolicy hsymbol hlen with
      ⟨front, row, rest, e, hsplit, -, he, hdecide, -⟩ | ⟨hjudged, granted, hgranted, hdecide, -⟩
    · have hrow : row ∈ m.candidates := by
        change row ∈ m.forgetful.candidates
        simp [hsplit]
      refine .inl ⟨row, hrow, e, he, ?_⟩
      rw [hdecide]
      rfl
    · refine .inr ⟨hjudged, granted, rules_iff_grants.mpr hgranted, ?_⟩
      rw [hdecide]
      rfl
  · refine .inl ⟨hlen, ?_⟩
    rw [decide, @checkRequest_of_length_ne m.forgetful request hlen]
    rfl

theorem rules_unique {granted' : Bool} (h : m.Rules policy request granted)
    (h' : m.Rules policy request granted') : granted = granted' := by
  have heq := (rules_iff_grants.mp h).trans (rules_iff_grants.mp h').symm
  exact Bool.eq_iff_iff.mpr heq

/-- A request is decided if it has the right length and every candidate can be judged. -/
theorem reply_decide_eq_ok_iff (hm : Reachable m) {r : Reply} :
    m.reply (.decide request) = .ok r ↔
      request.length = m.model.request.attrs.length ∧ ∃ policy,
        m.model.decidingPolicy? = some policy ∧
        Judged (m.judge policy request) m.candidates ∧
        ∃ granted, m.Rules policy request granted ∧ r = .flag granted := by
  rcases reply_decide_cases hm request with ⟨hlen, hreply⟩ |
    ⟨hlen, policy, hpolicy, ⟨row, hrow, e, he, hreply⟩ | ⟨hjudged, granted, hrules, hreply⟩⟩
  · simp [hreply, hlen]
  · rw [hreply]
    constructor
    · intro h
      cases h
    · rintro ⟨-, policy', hpolicy', hjudged, -⟩
      cases hpolicy.symm.trans hpolicy'
      obtain ⟨b, hb⟩ := hjudged row hrow
      cases he.symm.trans hb
  · rw [hreply]
    constructor
    · intro h
      cases h
      exact ⟨hlen, policy, hpolicy, hjudged, granted, hrules, rfl⟩
    · rintro ⟨-, policy', hpolicy', -, granted', hrules', rfl⟩
      cases hpolicy.symm.trans hpolicy'
      rw [rules_unique hrules hrules']

theorem error_of_reply_decide (hm : Reachable m) {e : Error}
    (h : m.reply (.decide request) = .error e) :
    (request.length ≠ m.model.request.attrs.length ∧
      e = .requestArity m.model.request.attrs.length request.length) ∨
    (request.length = m.model.request.attrs.length ∧ ∃ policy,
      m.model.decidingPolicy? = some policy ∧
      ∃ row ∈ m.candidates, (m.judge policy request row).result = .error e) := by
  rcases reply_decide_cases hm request with ⟨hlen, hreply⟩ |
    ⟨hlen, policy, hpolicy, ⟨row, hrow, e', he, hreply⟩ | ⟨-, granted, -, hreply⟩⟩
  · cases hreply.symm.trans h
    exact .inl ⟨hlen, rfl⟩
  · cases hreply.symm.trans h
    exact .inr ⟨hlen, policy, hpolicy, row, hrow, he⟩
  · cases hreply.symm.trans h

end

section

variable {m m' : Monitor} {policy : Schema} {request : List String}

theorem judge_eq_of_model (hm : Reachable m) (hm' : Reachable m') (hmodel : m'.model = m.model)
    (hfunctions : m'.functions = m.functions) :
    m'.judge policy request = m.judge policy request := by
  have hprogram := hm.program_eq hm' hmodel
  funext row
  rw [judge, judge, rowScope, rowScope, hprogram, hmodel, hfunctions]

end

/-- Monitors of one model and with the same functions decide alike if they have the same candidates,
in whatever order and whatever other rows there are: both decide and their decisions are the same,
or both fail, with the error of one candidate or of another. -/
theorem decide_depends_on_candidates {m m' : Monitor} (hm : Reachable m) (hm' : Reachable m')
    (hmodel : m'.model = m.model) (hfunctions : m'.functions = m.functions)
    (hrows : ∀ row, row ∈ m'.candidates ↔ row ∈ m.candidates) (request : List String) :
    (∀ r, m'.reply (.decide request) = .ok r ↔ m.reply (.decide request) = .ok r) ∧
    ∀ e e', m.reply (.decide request) = .error e → m'.reply (.decide request) = .error e' →
      e' = e ∨ ∃ policy, m.model.decidingPolicy? = some policy ∧
        (∃ row ∈ m.candidates, (m.judge policy request row).result = .error e) ∧
        ∃ row ∈ m.candidates, (m.judge policy request row).result = .error e' := by
  have hjudge (policy : Schema) : m'.judge policy request = m.judge policy request :=
    judge_eq_of_model hm hm' hmodel hfunctions
  have hspeaks (policy : Schema) (effect : Effect) :
      m'.Speaks policy request effect ↔ m.Speaks policy request effect := by
    simp only [Speaks, hjudge, hrows]
  have hrules (policy : Schema) (granted : Bool) :
      m'.Rules policy request granted ↔ m.Rules policy request granted := by
    simp only [Rules, hmodel, hspeaks]
  have hjudged (policy : Schema) : Judged (m'.judge policy request) m'.candidates ↔
      Judged (m.judge policy request) m.candidates := by
    simp only [Judged, hjudge, hrows]
  refine ⟨fun r => ?_, fun e e' he he' => ?_⟩
  · rw [reply_decide_eq_ok_iff hm, reply_decide_eq_ok_iff hm', hmodel]
    simp only [hjudged, hrules]
  · have hfail := error_of_reply_decide hm' he'
    rw [hmodel] at hfail
    rcases error_of_reply_decide hm he with ⟨hlen, rfl⟩ | ⟨hlen, policy, hpolicy, row, hrow, hfails⟩
    · rcases hfail with ⟨-, rfl⟩ | ⟨hlen', -⟩
      · exact .inl rfl
      · exact absurd hlen' hlen
    · rcases hfail with ⟨hlen', -⟩ | ⟨-, policy', hpolicy', row', hrow', hfails'⟩
      · exact absurd hlen hlen'
      · cases hpolicy.symm.trans hpolicy'
        rw [hjudge] at hfails'
        exact .inr ⟨policy, hpolicy, ⟨row, hrow, hfails⟩, row', (hrows row').mp hrow', hfails'⟩

/-- With the candidates in another order and a row of another policy between them. -/
theorem decide_depends_on_candidates_watched :
    let denial : Row := ⟨"p", ["alice", "deny"], .deny⟩
    let grant : Row := ⟨"p", ["bob", "allow"], .allow⟩
    let other : Row := ⟨"q", ["alice"], .allow⟩
    let m := watched.after (.addMany [denial, grant])
    let m' := watched.after (.addMany [grant, other, denial])
    Reachable m ∧ Reachable m' ∧ m'.model = m.model ∧ m'.functions = m.functions ∧
    (∀ row, row ∈ m'.candidates ↔ row ∈ m.candidates) ∧ m'.rows ≠ m.rows ∧
    m.reply (.decide ["alice"]) = .ok (.flag false) ∧
    m'.reply (.decide ["alice"]) = .ok (.flag false) := by
  intro denial grant other m m'
  have hm : Reachable m := (Reachable.built build_watched).after _
  have hm' : Reachable m' := (Reachable.built build_watched).after _
  have hmodel : m'.model = m.model := rfl
  have hfunctions : m'.functions = m.functions := rfl
  have hcandidates : m.candidates = [denial, grant] := rfl
  have hcandidates' : m'.candidates = [grant, denial] := rfl
  have hrows (row : Row) : row ∈ m'.candidates ↔ row ∈ m.candidates := by
    rw [hcandidates, hcandidates', List.mem_pair, List.mem_pair]
    exact or_comm
  have hdiffer : m'.rows ≠ m.rows := by
    have hlength : m.rows.length = 2 := rfl
    have hlength' : m'.rows.length = 3 := rfl
    intro heq
    rw [heq, hlength] at hlength'
    cases hlength'
  have hanew : m.decideAnew ["alice"] = ⟨.ok false, []⟩ :=
    Traced.eq_ok_of_toOption (by decide +kernel) (by decide +kernel)
  have hreply : m.reply (.decide ["alice"]) = .ok (.flag false) := by
    rw [reply_decide, decide_of_recent_none rfl, hanew]
    rfl
  have hsame := decide_depends_on_candidates hm hm' hmodel hfunctions hrows ["alice"]
  exact ⟨hm, hm', hmodel, hfunctions, hrows, hdiffer, hreply, (hsame.1 _).mpr hreply⟩

section

variable {m m' : Monitor} {policy : Schema} {request : List String} {before after : Bool}

/-- What is said is still said when there are more rows. -/
theorem speaks_mono (hkeeps : Keeps m m') (hrows : ∀ row ∈ m.rows, row ∈ m'.rows)
    {effect : Effect} (h : m.Speaks policy request effect) : m'.Speaks policy request effect := by
  obtain ⟨rows, recent, rfl⟩ := hkeeps
  obtain ⟨row, hrow, haccepts, heffect⟩ := h
  obtain ⟨hmem, hpolicy⟩ := List.mem_filter.mp hrow
  exact ⟨row, List.mem_filter.mpr ⟨hrows row hmem, hpolicy⟩, haccepts, heffect⟩

/-- More rows can only allow more under the one rule, and deny more under the other. -/
theorem rules_mono (hkeeps : Keeps m m') (hrows : ∀ row ∈ m.rows, row ∈ m'.rows)
    (hbefore : m.Rules policy request before) (hafter : m'.Rules policy request after) :
    (m.model.clause.rule = .allowOverride → before = true → after = true) ∧
    (m.model.clause.rule = .denyOverride → before = false → after = false) := by
  have hspeaks (effect : Effect) :
      m.Speaks policy request effect → m'.Speaks policy request effect :=
    speaks_mono hkeeps hrows
  have hmodel := model_of_keeps hkeeps
  unfold Rules at hbefore hafter
  rw [hmodel] at hafter
  constructor
  · intro hrule hgranted
    rw [hrule] at hbefore hafter
    exact hafter.mpr (hspeaks .allow (hbefore.mp hgranted))
  · intro hrule hdenied
    rw [hrule] at hbefore hafter
    exact hafter.mpr (hspeaks .deny (hbefore.mp hdenied))

theorem rules_of_decide (hm : Reachable m) (h : (m.decide request).result = .ok (before, m')) :
    ∃ policy, m.model.decidingPolicy? = some policy ∧ m.Rules policy request before := by
  have hreply : m.reply (.decide request) = .ok (.flag before) := by
    rw [reply_decide, h]
    rfl
  obtain ⟨-, policy, hpolicy, -, granted, hrules, hflag⟩ := (reply_decide_eq_ok_iff hm).mp hreply
  cases hflag
  exact ⟨policy, hpolicy, hrules⟩

theorem after_of_perform {op : Operation} {reply : Reply}
    (h : (m.perform op).result = .ok (reply, m')) : m.after op = m' := by
  rw [Monitor.after, h]

theorem after_of_decide (h : (m.decide request).result = .ok (before, m')) :
    m.after (.decide request) = m' := by
  have hperform : (m.perform (.decide request)).result = .ok (.flag before, m') := by
    rw [perform, Traced.result_bind, h]
    rfl
  exact after_of_perform hperform

end

/-- Between two decisions on a request, an operation that adds rows can only make the rule that
allows on an allowing row grant what was refused, and the rule that denies on a denying row refuse
what was granted; one that removes rows works the other way. -/
theorem changes_move_with_rule {m m₁ m₂ m₃ : Monitor} (hm : Reachable m) {request : List String}
    {op : Operation} {reply : Reply} {before after : Bool}
    (hbefore : (m.decide request).result = .ok (before, m₁))
    (hop : (m₁.perform op).result = .ok (reply, m₂))
    (hafter : (m₂.decide request).result = .ok (after, m₃)) :
    (m.model.clause.rule = .allowOverride →
      (op.Adds → before = true → after = true) ∧ (op.Removes → before = false → after = false)) ∧
    (m.model.clause.rule = .denyOverride →
      (op.Adds → before = false → after = false) ∧
      (op.Removes → before = true → after = true)) := by
  have hm₁ : Reachable m₁ := after_of_decide hbefore ▸ hm.after _
  have hm₂ : Reachable m₂ := after_of_perform hop ▸ hm₁.after op
  have hkeeps := keeps_trans (keeps_decide hbefore) (keeps_perform hop)
  have hmodel := model_of_keeps hkeeps
  obtain ⟨policy, hpolicy, hrules⟩ := rules_of_decide hm hbefore
  obtain ⟨policy', hpolicy', hrules'⟩ := rules_of_decide hm₂ hafter
  rw [hmodel] at hpolicy'
  cases hpolicy.symm.trans hpolicy'
  have hmore (hadds : op.Adds) : ∀ row ∈ m.rows, row ∈ m₂.rows := by
    rw [← rows_decide hbefore, ← after_of_perform hop]
    exact fun row => mem_rows_of_adds hadds
  have hfewer (hremoves : op.Removes) : ∀ row ∈ m₂.rows, row ∈ m.rows := by
    rw [← rows_decide hbefore, ← after_of_perform hop]
    exact fun row => mem_rows_of_removes hremoves
  have hforward (hadds : op.Adds) := rules_mono hkeeps (hmore hadds) hrules hrules'
  have hbackward (hremoves : op.Removes) :=
    rules_mono (keeps_symm hkeeps) (hfewer hremoves) hrules' hrules
  rw [hmodel] at hbackward
  refine ⟨fun hrule => ⟨fun hop => (hforward hop).1 hrule, fun hop hrefused => ?_⟩,
    fun hrule => ⟨fun hop => (hforward hop).2 hrule, fun hop hgranted => ?_⟩⟩
  · rw [Bool.eq_false_iff]
    intro hafter
    simp [(hbackward hop).1 hrule hafter] at hrefused
  · rw [← Bool.not_eq_false]
    intro hafter
    simp [(hbackward hop).2 hrule hafter] at hgranted

/-- The monitor `watched` with memory for two decisions. -/
def mindful (rows : List Row) (entries : List (List String × Bool)) : Monitor :=
  { watched with rows, recent := some ⟨2, entries⟩ }

/-- With memory, where a row that allows comes to one that denies. -/
theorem changes_move_with_rule_watched :
    let denial : Row := ⟨"p", ["alice", "deny"], .deny⟩
    let grant : Row := ⟨"p", ["alice", "allow"], .allow⟩
    let refused := [(["alice"], false)]
    Reachable (mindful [denial] []) ∧
    ((mindful [denial] []).decide ["alice"]).result = .ok (false, mindful [denial] refused) ∧
    ((mindful [denial] refused).perform (.add "p" ["alice", "allow"])).result =
      .ok (.flag true, mindful [denial, grant] []) ∧
    ∃ after, ((mindful [denial, grant] []).decide ["alice"]).result =
      .ok (after, mindful [denial, grant] [(["alice"], after)]) ∧ after = false := by
  intro denial grant refused
  have hm : Reachable (mindful [denial] []) := by
    have hadded : (mindful [] []).after (.add "p" ["alice", "deny"]) = mindful [denial] [] :=
      rfl
    exact hadded ▸ (Reachable.built (build_watched_with (some 2))).after _
  have hfind (rows : List Row) : ∀ recent, (mindful rows []).recent = some recent →
      (recent.find ["alice"]).1 = none := by
    rintro _ ⟨⟩
    rfl
  have hbarred : (mindful [denial] []).decideAnew ["alice"] = ⟨.ok false, []⟩ :=
    Traced.eq_ok_of_toOption (by decide +kernel) (by decide +kernel)
  have hbefore : ((mindful [denial] []).decide ["alice"]).result =
      .ok (false, mindful [denial] refused) := by
    rw [decide_of_not_find (hfind _), hbarred]
    rfl
  have hop : ((mindful [denial] refused).perform (.add "p" ["alice", "allow"])).result =
      .ok (.flag true, mindful [denial, grant] []) := rfl
  have hstill : (mindful [denial, grant] []).decideAnew ["alice"] = ⟨.ok false, []⟩ :=
    Traced.eq_ok_of_toOption (by decide +kernel) (by decide +kernel)
  have hafter : ((mindful [denial, grant] []).decide ["alice"]).result =
      .ok (false, mindful [denial, grant] [(["alice"], false)]) := by
    rw [decide_of_not_find (hfind _), hstill]
    rfl
  have hmoves := changes_move_with_rule hm hbefore hop hafter
  exact ⟨hm, hbefore, hop, false, hafter, (hmoves.2 rfl).1 trivial rfl⟩

end AccessControl.Monitor
