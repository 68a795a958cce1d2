import AccessControl.Proofs.Matcher.Access
import AccessControl.Proofs.Model.Acceptance
import AccessControl.Proofs.Monitor.Noninterference
import AccessControl.Proofs.Monitor.Rows

namespace AccessControl

open Policy Matcher Text

/-- The symbol and the attributes are names, and no two of the attributes are the same. -/
structure Schema.Named (s : Schema) : Prop where
  symbol : isSymbol s.symbol.toList
  attrs : ∀ attr ∈ s.attrs, isSymbol attr.toList
  distinct : s.attrs.Nodup

theorem Model.DeclaresSchema.named {entry : String × String} {s : Schema}
    (h : DeclaresSchema entry s) (hkey : isSymbol entry.1.toList) : s.Named :=
  ⟨h.symbol ▸ hkey, h.identifiers, h.distinct⟩

/-- Whatever a model declares has names, and no policy has that of the request. -/
theorem Model.named_of_ofText {text : String} {m : Model} (h : ofText text = .ok m) :
    m.request.Named ∧ ∀ policy ∈ m.policies, policy.Named ∧ policy.symbol ≠ m.request.symbol := by
  obtain ⟨d, hd, hdescribes⟩ := ofText_eq_ok_iff.mp h
  have hkeys := (Config.wellFormed_of_parse hd).keys
  obtain ⟨entry, hentry, hrequest⟩ := hdescribes.request
  obtain ⟨all, hall, hpolicies⟩ := hdescribes.policies
  have hnotMem := (List.nodup_cons.mp hdescribes.distinct).1
  refine ⟨hrequest.named (hkeys _ hentry _ List.mem_cons_self), fun policy hpolicy => ⟨?_, ?_⟩⟩
  · obtain ⟨entry, hentry, hdeclares⟩ := Sequence.exists_mem_of_forall₂ hpolicies hpolicy
    exact hdeclares.named (hkeys _ hall entry hentry)
  · intro heq
    exact hnotMem (heq ▸ List.mem_append_left _ (List.mem_map_of_mem hpolicy))

namespace Monitor

theorem Reachable.exists_text {m : Monitor} (h : Reachable m) :
    ∃ text, Model.ofText text = .ok m.model := by
  induction h with
  | built h =>
    obtain ⟨text, -, htext, -⟩ := build_eq_ok_iff.mp h
    exact ⟨text, htext⟩
  | @after m h op ih => rwa [model_of_keeps (keeps_after m op)]

/-- What a matcher sees after it has come to rows one by one. -/
def bindRows (policy : Schema) (s : Scope) (rows : List Row) : Scope :=
  rows.foldl (fun s row => s.bindTuple policy.symbol policy.attrs row.values) s

theorem holding_append (p : Program) (policy : Schema) (s : Scope) (front back : List Row) :
    holding p policy s (front ++ back) = (do
      let held ← holding p policy s front
      let rest ← holding p policy (bindRows policy s front) back
      return held ++ rest) := by
  induction front generalizing s with
  | nil => simp [holding, bindRows]
  | cons row front ih =>
    rw [List.cons_append, holding, holding, ih]
    simp only [bind_assoc, pure_bind]
    refine congrArg _ (funext fun b => ?_)
    cases b <;> simp [bindRows]

theorem fresh_bindRows {m : Monitor} {policy : Schema} {request : List String} {s : Scope}
    (h : m.Fresh policy request s) (rows : List Row) :
    m.Fresh policy request (bindRows policy s rows) := by
  induction rows generalizing s with
  | nil => exact h
  | cons row rows ih =>
    refine ih ?_
    change m.Fresh policy request (s.bindTuple policy.symbol policy.attrs row.values)
    rw [h row]
    exact fresh_rowScope m policy request row

/-- The symbol of the schema stands for a tuple: each declared attribute has the value in its own
place, and no other attribute has one. -/
structure Addresses (s : Scope) (schema : Schema) (values : List String) : Prop where
  column : ∀ (i : Nat) attr, schema.attrs[i]? = some attr → ∃ value, values[i]? = some value ∧
    Yields s (schema.symbol ++ "." ++ attr) (.ok (.string value))
  undeclared : ∀ attr : String, IsName attr.toList → attr ∉ schema.attrs →
    Yields s (schema.symbol ++ "." ++ attr) (.error (.undefinedAttribute schema.symbol attr))

theorem addresses_of_get? {s : Scope} {schema : Schema} {values : List String}
    (hnamed : schema.Named) (hlen : values.length = schema.attrs.length)
    (hget : s.get? schema.symbol =
      some (.record (schema.attrs.zip (values.map .string)))) : Addresses s schema values := by
  have hfetch (attr : String) : s.fetchPath schema.symbol [attr] =
      Scope.follow schema.symbol (.record (schema.attrs.zip (values.map .string))) [attr] := by
    rw [Scope.fetchPath, Scope.fetch, hget]
    rfl
  have hsymbol := isName_of_isSymbol hnamed.symbol
  constructor
  · intro i attr hattr
    have hi : i < values.length := hlen ▸ (List.getElem?_eq_some_iff.mp hattr).1
    have hvalue := List.getElem?_eq_getElem hi
    have hstring : (values.map Value.string)[i]? = some (.string values[i]) := by
      rw [List.getElem?_map, hvalue, Option.map_some]
    have hname := isName_of_isSymbol (hnamed.attrs attr (List.mem_of_getElem? hattr))
    have hyields := yields_access hsymbol hname s
    rw [hfetch, Scope.follow, field?_record,
      Sequence.lookup_zip_of_nodup hnamed.distinct hattr hstring] at hyields
    exact ⟨_, hvalue, hyields⟩
  · intro attr hname hattr
    have hyields := yields_access hsymbol hname s
    rwa [hfetch, Scope.follow, field?_record, Sequence.lookup_zip_of_notMem hattr] at hyields

/-- What is not there has no attributes either. -/
theorem yields_of_get?_eq_none {s : Scope} {name : String} (hname : IsName name.toList)
    (hget : s.get? name = none) : Yields s name (.error (.undefinedVariable name)) ∧
      ∀ attr : String, IsName attr.toList →
        Yields s (name ++ "." ++ attr) (.error (.undefinedVariable name)) := by
  have hfetch : s.fetch name = .error (.undefinedVariable name) := by rw [Scope.fetch, hget]
  constructor
  · rw [← hfetch]
    exact yields_name hname s
  · intro attr hattr
    have hyields := yields_access hname hattr s
    rwa [Scope.fetchPath, hfetch, Result.error_bind] at hyields

/-- The rows that have a say are bound one after another, each in the scope that the one before it
leaves. There each declared attribute of the request has the value in its own place in the request,
and each declared attribute of the deciding policy the value in its own place in the row; any other
attribute of the two is undefined, and so is any other name. -/
theorem columns_are_addressed {m : Monitor} (hm : Reachable m) {request : List String}
    (hlen : request.length = m.model.request.attrs.length) :
    ∃ policy, m.model.decidingPolicy? = some policy ∧ policy.symbol = m.model.clause.policy ∧
    ∀ front row rest, m.candidates = front ++ row :: rest →
      let s := bindRows policy (m.requestScope request) (front ++ [row])
      (m.matching request = do
        let held ← holding m.program policy (m.requestScope request) front
        let holds ← (m.program.holds s).mapError .evaluation
        let others ← holding m.program policy s rest
        return held ++ if holds then row :: others else others) ∧
      Addresses s m.model.request request ∧ Addresses s policy row.values ∧
      ∀ name : String, IsName name.toList → name ≠ m.model.request.symbol → name ≠ policy.symbol →
        Yields s name (.error (.undefinedVariable name)) ∧
        ∀ attr : String, IsName attr.toList →
          Yields s (name ++ "." ++ attr) (.error (.undefinedVariable name)) := by
  obtain ⟨policy, hpolicy, hsymbol⟩ := hm.exists_decidingPolicy
  obtain ⟨text, htext⟩ := hm.exists_text
  obtain ⟨hrequest, hpolicies⟩ := Model.named_of_ofText htext
  obtain ⟨hnamed, hother⟩ := hpolicies policy (List.mem_of_find?_eq_some hpolicy)
  refine ⟨policy, hpolicy, hsymbol, fun front row rest hsplit => ?_⟩
  intro s
  have hlast : s = (bindRows policy (m.requestScope request) front).bindTuple policy.symbol
      policy.attrs row.values := by
    simp [s, bindRows]
  have hscope : s = m.rowScope policy request row :=
    hlast.trans (fresh_bindRows (fresh_requestScope m policy request) front row)
  have hget := m.rowScope_get? policy request row
  rw [← hscope] at hget
  have hrow : row ∈ m.candidates := by simp [hsplit]
  obtain ⟨hmem, hof⟩ := List.mem_filter.mp hrow
  have hdeclared : m.model.policy? row.policy = some policy := by
    rw [eq_of_beq hof]
    exact hpolicy
  have hwidth := (hm.sound.conforms row hmem).length_eq hdeclared
  refine ⟨?_, addresses_of_get? hrequest hlen ?_, addresses_of_get? hnamed hwidth ?_, ?_⟩
  · rw [matching_eq hpolicy hsymbol, hsplit, holding_append, holding, ← hlast]
    simp only [bind_assoc, pure_bind]
  · rw [hget, if_neg hother.symm, if_pos rfl]
  · rw [hget, if_pos rfl]
  · intro name hname hrequest' hpolicy'
    refine yields_of_get?_eq_none hname ?_
    rw [hget, if_neg hpolicy', if_neg hrequest']

/-- The second of two rows, in a request of three columns. -/
theorem columns_are_addressed_located :
    let alice : Row := ⟨"p", ["alice"], .allow⟩
    let bob : Row := ⟨"p", ["bob"], .allow⟩
    let m := { located with rows := [alice, bob] }
    let request := ["carol", "gate", "door"]
    let s := bindRows ⟨"p", ["sub"]⟩ (m.requestScope request) [alice, bob]
    Reachable m ∧ request.length = m.model.request.attrs.length ∧ m.candidates = [alice, bob] ∧
      Yields s "r.via" (.ok (.string "gate")) ∧ Yields s "p.sub" (.ok (.string "bob")) ∧
      Yields s "p.via" (.error (.undefinedAttribute "p" "via")) ∧
      Yields s "sub" (.error (.undefinedVariable "sub")) := by
  intro alice bob m request s
  have hadded : located.afterAll [.add "p" ["alice"], .add "p" ["bob"]] = m := rfl
  have hm : Reachable m := hadded ▸ reachable_afterAll (.built build_located) _
  have hlen : request.length = m.model.request.attrs.length := rfl
  have hcandidates : m.candidates = [alice] ++ bob :: [] := rfl
  obtain ⟨policy, hpolicy, -, hrows⟩ := columns_are_addressed hm hlen
  obtain rfl : ⟨"p", ["sub"]⟩ = policy := Option.some.inj hpolicy
  obtain ⟨-, hrequest, hrow, hother⟩ := hrows [alice] bob [] hcandidates
  obtain ⟨value, hvalue, hvia⟩ := hrequest.column 1 "via" rfl
  obtain ⟨value', hvalue', hsub⟩ := hrow.column 0 "sub" rfl
  cases hvalue
  cases hvalue'
  have hname (name : String) (h : isSymbol name.toList) : IsName name.toList := isName_of_isSymbol h
  exact ⟨hm, hlen, hcandidates, hvia, hsub,
    hrow.undeclared "via" (hname "via" (by decide)) (by decide),
    (hother "sub" (hname "sub" (by decide)) (by decide) (by decide)).1⟩

end Monitor

end AccessControl
