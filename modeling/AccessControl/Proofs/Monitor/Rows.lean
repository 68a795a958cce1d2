import AccessControl.Proofs.Monitor.Change
import AccessControl.Proofs.Monitor.Enforcement

namespace AccessControl

open Policy Matcher

theorem lookup_zip (attr : String) (attrs values : List String) :
    (attrs.zip values).lookup attr = (attrs.findIdx? (· == attr)).bind (values[·]?) := by
  induction attrs generalizing values with
  | nil => rfl
  | cons a attrs ih =>
    cases values with
    | nil => simp
    | cons v values =>
      rw [List.zip_cons_cons, List.lookup_cons, List.findIdx?_cons, Bool.beq_comm]
      cases h : a == attr with
      | true => rfl
      | false =>
        simp only [ih values, Bool.false_eq_true, if_false, Option.bind_map]
        rfl

/-- The effect stands where the effect attribute does. -/
theorem Schema.effectText?_eq (s : Schema) (values : List String) :
    s.effectText? values = s.effectIndex?.bind (values[·]?) :=
  lookup_zip effectAttribute s.attrs values

namespace Monitor

/-- One value for each attribute of a declared policy, and where that has an effect attribute, the
effect that its value names. -/
def Conforms (m : Model) (row : Row) : Prop :=
  ∃ s, m.policy? row.policy = some s ∧ row.values.length = s.attrs.length ∧
    ∀ i, s.effectIndex? = some i → row.values[i]?.bind Effect.ofName? = some row.effect

theorem effectIndex_lt {s : Schema} {values : List String} {i : Nat}
    (hlen : values.length = s.attrs.length) (hi : s.effectIndex? = some i) :
    i < values.length := by
  obtain ⟨hlt, -⟩ := List.findIdx?_eq_some_iff_getElem.mp hi
  rw [hlen]
  exact hlt

section

variable {m : Monitor} {row given : Row}

theorem policy?_of_policy {policy : String} {s : Schema} (h : m.policy policy = .ok s) :
    m.model.policy? policy = some s := by
  unfold Monitor.policy at h
  split at h <;> cases h
  assumption

theorem conforms_of_asStored (h : m.asStored given = .ok row) : Conforms m.model row := by
  obtain ⟨s, hpolicy, h⟩ := Result.bind_eq_ok_iff.mp h
  have hs := policy?_of_policy hpolicy
  by_cases hlen : given.values.length = s.attrs.length
  · simp only [hlen, bne_self_eq_false, Bool.false_eq_true, if_false] at h
    rw [Schema.effectText?_eq] at h
    cases hi : s.effectIndex? with
    | none =>
      rw [hi] at h
      cases h
      exact ⟨s, hs, hlen, fun i hi' => nomatch hi.symm.trans hi'⟩
    | some i =>
      have hvalue := List.getElem?_eq_getElem (effectIndex_lt hlen hi)
      simp only [hi, Option.bind_some, hvalue] at h
      split at h
      · next effect heffect =>
        cases h
        refine ⟨s, hs, hlen, fun j hj => ?_⟩
        cases hi.symm.trans hj
        simp only [hvalue, Option.bind_some, heffect]
      · cases h
  · simp [hlen] at h

/-- Nothing of a row but its effect is stored other than as given, and that only where its policy
has an effect attribute. -/
theorem asStored_cases (h : m.asStored given = .ok row) :
    ∃ s, m.model.policy? given.policy = some s ∧ row = { given with effect := row.effect } ∧
      (s.effectIndex? = none → row = given) := by
  obtain ⟨s, hpolicy, h⟩ := Result.bind_eq_ok_iff.mp h
  have hs := policy?_of_policy hpolicy
  refine ⟨s, hs, ?_⟩
  by_cases hlen : given.values.length = s.attrs.length
  · simp only [hlen, bne_self_eq_false, Bool.false_eq_true, if_false] at h
    cases htext : s.effectText? given.values with
    | none =>
      rw [htext] at h
      cases h
      exact ⟨rfl, fun _ => rfl⟩
    | some text =>
      rw [htext] at h
      simp only at h
      split at h
      · cases h
        refine ⟨rfl, fun hnone => ?_⟩
        rw [Schema.effectText?_eq, hnone] at htext
        cases htext
      · cases h
  · simp [hlen] at h

/-- A row that conforms is stored as it is. -/
theorem asStored_of_conforms (h : Conforms m.model row) : m.asStored row = .ok row := by
  obtain ⟨s, hs, hlen, heffect⟩ := h
  have hpolicy : m.policy row.policy = .ok s := by rw [Monitor.policy, hs]
  simp only [asStored, hpolicy, Result.ok_bind, hlen, bne_self_eq_false, Bool.false_eq_true,
    if_false, Schema.effectText?_eq]
  cases hi : s.effectIndex? with
  | none => rfl
  | some i =>
    have hvalue := List.getElem?_eq_getElem (effectIndex_lt hlen hi)
    have hname := heffect i hi
    rw [hvalue, Option.bind_some] at hname
    simp only [Option.bind_some, hvalue, hname]
    rfl

end

/-- What an operation can make of the rows: it adds checked ones that are new, or keeps some of
those there are. -/
inductive Revises (m : Monitor) : List Row → Prop
  | insert {given new : List Row} (h : given.mapM m.asStored = .ok new) :
    Revises m (insertNew m.rows new)
  | keep (kept : Row → Bool) : Revises m (m.rows.filter kept)

theorem revises_refl (m : Monitor) : Revises m m.rows := by
  have h := Revises.keep (m := m) fun _ => true
  rwa [List.filter_true] at h

theorem revises_after (m : Monitor) (op : Operation) : Revises m (m.after op).rows := by
  rcases after_cases m op with ⟨-, hnew, hrows⟩ | ⟨-, hafter⟩
  · rw [hrows]
    cases op with
    | remove | removeWhere | clear => exact .keep _
    | _ =>
      rw [filter_drops fun _ => rfl]
      exact .insert hnew
  · rw [hafter]
    exact revises_refl m

/-- The rows as they have to be. -/
structure Sound (m : Monitor) : Prop where
  nodup : m.rows.Nodup
  conforms : ∀ row ∈ m.rows, Conforms m.model row

theorem conforms_of_mapM {m : Monitor} {given new : List Row}
    (h : given.mapM m.asStored = .ok new) : ∀ row ∈ new, Conforms m.model row := by
  induction given generalizing new with
  | nil =>
    cases h
    exact fun row hrow => nomatch hrow
  | cons r given ih =>
    rw [List.mapM_cons] at h
    obtain ⟨row, hrow, h⟩ := Result.bind_eq_ok_iff.mp h
    obtain ⟨rest, hrest, h⟩ := Result.bind_eq_ok_iff.mp h
    cases h
    exact List.forall_mem_cons.mpr ⟨conforms_of_asStored hrow, ih hrest⟩

theorem Sound.after {m : Monitor} (h : Sound m) (op : Operation) : Sound (m.after op) := by
  have hmodel := model_of_keeps (keeps_after m op)
  suffices hrows : (m.after op).rows.Nodup ∧ ∀ row ∈ (m.after op).rows, Conforms m.model row by
    exact ⟨hrows.1, hmodel ▸ hrows.2⟩
  generalize hrows : (m.after op).rows = rows
  have hrevises := hrows ▸ revises_after m op
  cases hrevises with
  | insert hnew =>
    refine ⟨nodup_insertNew h.nodup _, fun row hrow => ?_⟩
    rcases mem_insertNew.mp hrow with hrow | hrow
    · exact h.conforms row hrow
    · exact conforms_of_mapM hnew row hrow
  | keep kept =>
    exact ⟨h.nodup.filter _, fun row hrow => h.conforms row (List.mem_of_mem_filter hrow)⟩

theorem Reachable.sound {m : Monitor} (h : Reachable m) : Sound m := by
  induction h with
  | built h =>
    have hrows := build_rows h
    exact ⟨hrows ▸ List.nodup_nil, hrows ▸ fun row hrow => nomatch hrow⟩
  | after _ op ih => exact ih.after op

theorem valuesFit_cons {values wanted : List String} {want : String} {index : Nat}
    (hlt : index < values.length) : valuesFit values index (want :: wanted) =
      ((want.isEmpty || values[index] == want) && valuesFit values (index + 1) wanted) := by
  rw [valuesFit, List.drop_eq_getElem_cons hlt]
  rfl

/-- Where the wanted values do not reach beyond the row, each is held against the value at its own
place. -/
theorem valuesFit_iff {values wanted : List String} {index : Nat}
    (hlen : index + wanted.length ≤ values.length) : valuesFit values index wanted ↔
      ∀ j want, wanted[j]? = some want → want = "" ∨ values[index + j]? = some want := by
  induction wanted generalizing index with
  | nil => simp [valuesFit]
  | cons want wanted ih =>
    rw [List.length_cons] at hlen
    have hlt : index < values.length := by omega
    have hrest := @ih (index + 1) (by omega)
    rw [valuesFit_cons hlt, Bool.and_eq_true, hrest]
    constructor
    · rintro ⟨hfirst, hall⟩ j w hj
      cases j with
      | zero =>
        cases hj
        simpa [List.getElem?_eq_getElem hlt] using hfirst
      | succ j =>
        have hw := hall j w hj
        rwa [Nat.add_right_comm] at hw
    · intro hall
      refine ⟨?_, fun j w hj => ?_⟩
      · simpa [List.getElem?_eq_getElem hlt] using hall 0 want rfl
      · have hw := hall (j + 1) w hj
        rwa [← Nat.add_assoc, Nat.add_right_comm] at hw

theorem removeWhere_within {m : Monitor} {policy : String} {index : Nat} {wanted : List String}
    {r : Nat × Monitor} (h : m.removeWhere policy index wanted = .ok r) :
    ∃ s, m.model.policy? policy = some s ∧ index + wanted.length ≤ s.attrs.length := by
  obtain ⟨s, hs, h⟩ := Result.bind_eq_ok_iff.mp h
  refine ⟨s, policy?_of_policy hs, Nat.le_of_not_lt fun hlt => ?_⟩
  simp [hlt] at h

theorem decidingPolicy?_symbol {m : Model} {s : Schema} (h : m.decidingPolicy? = some s) :
    m.policy? s.symbol = some s := by
  have hsymbol : s.symbol = m.clause.policy := by simpa using List.find?_some h
  rw [hsymbol]
  exact h

theorem Conforms.length_eq {m : Model} {row : Row} {s : Schema} (h : Conforms m row)
    (hs : m.policy? row.policy = some s) : row.values.length = s.attrs.length := by
  obtain ⟨s', hs', hlen, -⟩ := h
  cases hs.symm.trans hs'
  exact hlen

/-- Where a policy has an effect attribute, its values tell the effect. -/
theorem Conforms.effect_eq {m : Model} {row row' : Row} {s : Schema} {i : Nat} (h : Conforms m row)
    (h' : Conforms m row') (hs : m.policy? row.policy = some s) (hi : s.effectIndex? = some i)
    (hpolicy : row'.policy = row.policy) (hvalues : row'.values = row.values) :
    row'.effect = row.effect := by
  obtain ⟨t, ht, -, heffect⟩ := h
  obtain ⟨t', ht', -, heffect'⟩ := h'
  rw [hpolicy] at ht'
  cases hs.symm.trans ht
  cases hs.symm.trans ht'
  have hsame := heffect i hi
  have hsame' := heffect' i hi
  rw [hvalues] at hsame'
  exact Option.some.inj (hsame'.symm.trans hsame)

/-- In every monitor there can be, the rows differ from each other, and each conforms to the model
and is stored as it is. So no reader of a row goes beyond its values: the effect of a row with one
value for each attribute stands in the row, a removal compares values at their own places, and what
a matcher sees of a row has all its attributes and all its values. -/
theorem stored_rows_conform {m : Monitor} (hm : Reachable m) :
    m.rows.Nodup ∧ (∀ row ∈ m.rows, Conforms m.model row ∧ m.asStored row = .ok row) ∧
    (∀ (row : Row) s i, m.model.policy? row.policy = some s →
      row.values.length = s.attrs.length → s.effectIndex? = some i →
      ∃ h : i < row.values.length, s.effectText? row.values = some row.values[i]) ∧
    (∀ policy index wanted r, m.removeWhere policy index wanted = .ok r →
      ∀ row ∈ m.rows, row.policy = policy → index + wanted.length ≤ row.values.length ∧
        (valuesFit row.values index wanted ↔ ∀ j want, wanted[j]? = some want →
          want = "" ∨ row.values[index + j]? = some want)) ∧
    ∀ s, m.model.decidingPolicy? = some s → ∀ row ∈ m.rows.filter (·.policy == s.symbol),
      (s.attrs.zip (row.values.map Value.string)).unzip =
        (s.attrs, row.values.map Value.string) := by
  have hsound := hm.sound
  refine ⟨hsound.nodup, fun row hrow => ?_, fun row s i hs hlen hi => ?_,
    fun policy index wanted r hr row hrow hpolicy => ?_, fun s hs row hrow => ?_⟩
  · have hconforms := hsound.conforms row hrow
    exact ⟨hconforms, asStored_of_conforms hconforms⟩
  · have hlt := effectIndex_lt hlen hi
    refine ⟨hlt, ?_⟩
    rw [Schema.effectText?_eq, hi, Option.bind_some, List.getElem?_eq_getElem hlt]
  · obtain ⟨s, hs, hle⟩ := removeWhere_within hr
    rw [← (hsound.conforms row hrow).length_eq (hpolicy ▸ hs)] at hle
    exact ⟨hle, valuesFit_iff hle⟩
  · obtain ⟨hmem, hpolicy⟩ := List.mem_filter.mp hrow
    have hs' := decidingPolicy?_symbol hs
    rw [← beq_iff_eq.mp hpolicy] at hs'
    have hlen := (hsound.conforms row hmem).length_eq hs'
    exact List.unzip_zip (by simpa using hlen.symm)

/-- Of a batch that repeats itself, with an effect against the row's own value. -/
theorem stored_rows_conform_watched :
    let denial : Row := ⟨"p", ["alice", "deny"], .deny⟩
    let other : Row := ⟨"q", ["alice"], .deny⟩
    let m := watched.after (.addMany [{ denial with effect := .allow }, other, denial])
    Reachable m ∧ m.rows = [denial, other] ∧ m.rows.Nodup ∧ m.asStored denial = .ok denial := by
  intro denial other m
  have hm : Reachable m := (Reachable.built build_watched).after _
  have hrows : m.rows = [denial, other] := rfl
  obtain ⟨hnodup, hconforms, -⟩ := stored_rows_conform hm
  have hdenial := hconforms denial (by rw [hrows]; exact List.mem_cons_self)
  exact ⟨hm, hrows, hnodup, hdenial.2⟩

end Monitor

end AccessControl
