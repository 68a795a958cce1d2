import AccessControl.Model.Reader
import AccessControl.Proofs.Policy.Clause
import AccessControl.Proofs.Result

namespace AccessControl.Model

open Config Policy Text

/-- Each part of a model comes from a section of its own. -/
theorem ofDocument_eq_ok_iff {d : Document} {m : Model} : ofDocument d = .ok m ↔
    (∃ entry, soleEntry d requestSection = .ok entry ∧
      schemaOf [] requestSection entry = .ok m.request) ∧
    (∃ all, entries d policySection = .ok all ∧
      schemasOf [m.request.symbol] all = .ok m.policies) ∧
    rolesOf (m.request.symbol :: m.policies.map (·.symbol))
      (((d.section? roleSection).map (·.entries)).getD []) = .ok m.roles ∧
    (∃ entry, soleEntry d clauseSection = .ok entry ∧ clauseOf m.policies entry = .ok m.clause) ∧
    ∃ key, soleEntry d matcherSection = .ok (key, m.matcher) := by
  simp only [ofDocument, Result.bind_eq_ok_iff]
  constructor
  · rintro ⟨requestEntry, hrequestEntry, request, hrequest, policyEntries, hpolicyEntries, policies,
      hpolicies, roles, hroles, clauseEntry, hclauseEntry, clause, hclause, matcher, hmatcher, h⟩
    cases h
    exact ⟨⟨requestEntry, hrequestEntry, hrequest⟩, ⟨policyEntries, hpolicyEntries, hpolicies⟩,
      hroles, ⟨clauseEntry, hclauseEntry, hclause⟩, matcher.1, hmatcher⟩
  · rintro ⟨⟨requestEntry, hrequestEntry, hrequest⟩, ⟨policyEntries, hpolicyEntries, hpolicies⟩,
      hroles, ⟨clauseEntry, hclauseEntry, hclause⟩, key, hmatcher⟩
    exact ⟨requestEntry, hrequestEntry, m.request, hrequest, policyEntries, hpolicyEntries,
      m.policies, hpolicies, m.roles, hroles, clauseEntry, hclauseEntry, m.clause, hclause,
      (key, m.matcher), hmatcher, rfl⟩

/-- Nothing but the section of that name is looked at. -/
theorem entries_congr {d d' : Document} {name : String}
    (h : d.section? name = d'.section? name) : entries d name = entries d' name := by
  rw [entries, entries, h]

theorem soleEntry_congr {d d' : Document} {name : String}
    (h : d.section? name = d'.section? name) : soleEntry d name = soleEntry d' name := by
  rw [soleEntry, soleEntry, entries_congr h]

theorem soleEntry_eq_ok_iff {d : Document} {name : String} {entry : String × String} :
    soleEntry d name = .ok entry ↔ ∃ s, d.section? name = some s ∧ s.entries = [entry] := by
  rw [soleEntry, entries]
  cases d.section? name with
  | none => simp
  | some s =>
    obtain ⟨name, _ | ⟨e, _ | ⟨e', es⟩⟩⟩ := s <;> simp

theorem clauseOf_eq_ok_iff {policies : List Schema} {entry : String × String} {c : Clause} :
    clauseOf policies entry = .ok c ↔
      Clause.parse? entry.2 = some c ∧ ∃ s ∈ policies, s.symbol = c.policy := by
  rw [clauseOf]
  cases Clause.parse? entry.2 with
  | none => exact ⟨fun h => (nomatch h), fun h => nomatch h.1⟩
  | some c' =>
    have hany : policies.any (·.symbol == c'.policy) ↔ ∃ s ∈ policies, s.symbol = c'.policy := by
      simp
    simp only [hany]
    constructor
    · intro h
      split at h
      · next hdeclared =>
        cases h
        exact ⟨rfl, hdeclared⟩
      · cases h
    · rintro ⟨h, hdeclared⟩
      cases h
      exact if_pos hdeclared

/-- The text at fault is the text of the entry, as it stands. -/
theorem clauseOf_eq_unsupported_iff {policies : List Schema} {entry : String × String}
    {text : String} : clauseOf policies entry = .error (.unsupportedEffect text) ↔
      text = entry.2 ∧ Clause.parse? entry.2 = none := by
  rw [clauseOf]
  cases Clause.parse? entry.2 with
  | none => simp [eq_comm]
  | some c =>
    dsimp only
    split <;> simp

/-- A clause is read from those texts that are its own but for blanks, and from no others; all that
is not read is refused as it stands. -/
theorem clause_read_exactly (s : String) :
    (∀ c : Clause, Clause.parse? s = some c ↔
      isSymbol c.policy.toList ∧ Clause.compact s = c.text) ∧
    (∀ policies key text, clauseOf policies (key, s) = .error (.unsupportedEffect text) ↔
      text = s ∧ ∀ c : Clause, isSymbol c.policy.toList → Clause.compact s ≠ c.text) ∧
    (∀ c : Clause, isSymbol c.policy.toList → Clause.parse? c.text = some c) ∧
    ∀ s', Clause.compact s' = Clause.compact s → Clause.parse? s' = Clause.parse? s := by
  have hread (c : Clause) : Clause.parse? s = some c ↔
      isSymbol c.policy.toList ∧ Clause.compact s = c.text := by
    rw [Clause.parse?_eq_some_iff, Clause.compact_eq_iff, and_comm]
  refine ⟨hread, fun policies key text => ?_, fun c => Clause.parse?_text,
    fun s' => Clause.parse?_congr⟩
  rw [clauseOf_eq_unsupported_iff, Option.eq_none_iff_forall_ne_some]
  simp only [ne_eq, hread, not_and]

/-- Blanks between the words of a clause are passed over. -/
theorem clause_read_exactly_spaced :
    isSymbol "p2".toList ∧
    Clause.compact "!some(where (p2.eft == deny))" = "!some(where(p2.eft==deny))" ∧
    Clause.parse? "!some(where (p2.eft == deny))" = some ⟨.denyOverride, "p2"⟩ ∧
    Clause.parse? "!some(where(p2.eft==deny))" = some ⟨.denyOverride, "p2"⟩ := by
  have hsymbol : isSymbol "p2".toList := by decide
  have hcompact : Clause.compact "!some(where (p2.eft == deny))" =
      "!some(where(p2.eft==deny))" := by decide +kernel
  obtain ⟨hread, -, hwritten, -⟩ := clause_read_exactly "!some(where (p2.eft == deny))"
  exact ⟨hsymbol, hcompact, (hread ⟨.denyOverride, "p2"⟩).mpr ⟨hsymbol, hcompact⟩,
    hwritten ⟨.denyOverride, "p2"⟩ hsymbol⟩

/-- The policy that decides is one of those declared. -/
theorem exists_decidingPolicy {text : String} {m : Model} (h : ofText text = .ok m) :
    ∃ s, m.decidingPolicy? = some s ∧ s.symbol = m.clause.policy := by
  obtain ⟨d, -, h⟩ := Result.bind_eq_ok_iff.mp h
  obtain ⟨-, -, -, ⟨entry, -, hclause⟩, -⟩ := ofDocument_eq_ok_iff.mp h
  obtain ⟨-, s, hs, hsymbol⟩ := clauseOf_eq_ok_iff.mp hclause
  have hsome : (m.policies.find? (·.symbol == m.clause.policy)).isSome := by
    rw [List.find?_isSome]
    exact ⟨s, hs, by simp [hsymbol]⟩
  obtain ⟨found, hfound⟩ := Option.isSome_iff_exists.mp hsome
  exact ⟨found, hfound, by simpa using List.find?_some hfound⟩

end AccessControl.Model
