import AccessControl.Monitor.Operation
import AccessControl.Proofs.Result

namespace AccessControl.Monitor

open Policy Matcher

/-- The decision on a request without regard to those made before. -/
def decideAnew (m : Monitor) (request : List String) : Traced Error Bool := do
  Traced.ofExcept (m.checkRequest request)
  let rows ← m.matching request
  return m.verdict rows

/-- A decision that is found is given without a look at the rows. -/
theorem decide_of_find {m : Monitor} {recent recent' : RecentDecisions} {request : List String}
    {b : Bool} (hm : m.recent = some recent) (hfind : recent.find request = (some b, recent')) :
    m.decide request = (do
      Traced.ofExcept (m.checkRequest request)
      return (b, { m with recent := some recent' })) := by
  simp [decide, hm, hfind]

/-- A decision that is not found is made anew, and remembered. -/
theorem decide_of_not_find {m : Monitor} {request : List String}
    (hfind : ∀ recent, m.recent = some recent → (recent.find request).1 = none) :
    m.decide request = (fun b => (b, { m with recent := m.recent.map (·.insert request b) })) <$>
      m.decideAnew request := by
  cases hm : m.recent with
  | none => simp [decide, decideAnew, hm]
  | some recent =>
    have hnone := hfind recent hm
    obtain ⟨found, recent', h⟩ : ∃ found recent', recent.find request = (found, recent') :=
      ⟨_, _, rfl⟩
    rw [h] at hnone
    cases hnone
    simp [decide, decideAnew, hm, h]

/-- A decision is found in memory or has to be made. -/
theorem find_or_not (m : Monitor) (request : List String) :
    (∃ recent recent' b, m.recent = some recent ∧ recent.find request = (some b, recent')) ∨
      ∀ recent, m.recent = some recent → (recent.find request).1 = none := by
  cases hm : m.recent with
  | none => exact .inr fun recent h => nomatch h
  | some recent =>
    cases hfound : (recent.find request).1 with
    | none =>
      refine .inr fun recent' h => ?_
      cases h
      exact hfound
    | some b => exact .inl ⟨recent, (recent.find request).2, b, rfl, Prod.ext hfound rfl⟩

/-- With other rows, if there are any to change to. -/
def update (m : Monitor) : Option (List Row) → Monitor
  | none => m
  | some rows => m.withRows rows

/-- What an operation on rows does: whatever decisions are remembered, it gives the same answer and
comes to the same rows, and it drops those decisions where it changes the rows. -/
def EditsRows {α : Type} (f : Monitor → Except Error (α × Monitor)) : Prop :=
  ∀ m : Monitor, ∃ answer : Except Error (α × Option (List Row)), ∀ recent,
    f { m with recent } = answer.map fun (a, rows) => (a, update { m with recent } rows)

theorem add_editsRows (policy : String) (values : List String) :
    EditsRows (·.add policy values) := by
  intro m
  refine ⟨(m.asStored ⟨policy, values, .allow⟩).map fun row =>
    if row ∈ m.rows then (false, none) else (true, some (m.rows ++ [row])), fun recent => ?_⟩
  have hstored : Monitor.asStored { m with recent } = m.asStored := rfl
  simp only [add, hstored]
  cases m.asStored ⟨policy, values, .allow⟩ with
  | error e => rfl
  | ok row => by_cases h : row ∈ m.rows <;> simp [h, Except.map, update]

theorem addMany_editsRows (rows : List Row) : EditsRows (·.addMany rows) := by
  intro m
  refine ⟨(rows.mapM m.asStored).map fun new =>
    let stored := insertNew m.rows new
    let added := stored.length - m.rows.length
    (added, if added = 0 then none else some stored), fun recent => ?_⟩
  have hstored : Monitor.asStored { m with recent } = m.asStored := rfl
  simp only [addMany, hstored]
  cases rows.mapM m.asStored with
  | error e => rfl
  | ok new =>
    by_cases h : (insertNew m.rows new).length - m.rows.length = 0 <;> simp [h, Except.map, update]

/-- How many rows there are to drop, and what is left of them. -/
def dropped (m : Monitor) (covers : Row → Bool) : Nat × Option (List Row) :=
  let kept := m.rows.filter fun row => !covers row
  let removed := m.rows.length - kept.length
  (removed, if removed = 0 then none else some kept)

theorem drop_eq_update (m : Monitor) (covers : Row → Bool) :
    m.drop covers = ((m.dropped covers).1, m.update (m.dropped covers).2) := by
  simp only [drop, dropped]
  split <;> rfl

theorem remove_editsRows (policy : String) (values : List String) :
    EditsRows (·.remove policy values) := by
  intro m
  let dropped := m.dropped fun row => row.policy == policy && row.values == values
  refine ⟨(m.policy policy).map fun _ => (dropped.1 != 0, dropped.2), fun recent => ?_⟩
  have hpolicy : Monitor.policy { m with recent } policy = m.policy policy := rfl
  simp only [remove, hpolicy, drop_eq_update]
  cases m.policy policy <;> rfl

theorem removeWhere_editsRows (policy : String) (index : Nat) (wanted : List String) :
    EditsRows (·.removeWhere policy index wanted) := by
  intro m
  let stop := index + wanted.length
  refine ⟨m.policy policy >>= fun s =>
    if s.attrs.length < stop then .error (.policyArity policy s.attrs.length (min maxIndex stop))
    else .ok (m.dropped fun row => row.policy == policy && valuesFit row.values index wanted),
    fun recent => ?_⟩
  have hpolicy : Monitor.policy { m with recent } policy = m.policy policy := rfl
  simp only [removeWhere, hpolicy, drop_eq_update]
  cases m.policy policy with
  | error e => rfl
  | ok s =>
    simp only [Result.ok_bind]
    by_cases h : s.attrs.length < stop
    · rw [if_pos h, if_pos h]
      rfl
    · rw [if_neg h, if_neg h]
      rfl

theorem importJson_editsRows (text : String) : EditsRows (·.importJson text) := by
  intro m
  cases h : Row.listOfJson? text with
  | none => exact ⟨.error .malformedRows, fun recent => by simp [importJson, h, Except.map]⟩
  | some rows =>
    obtain ⟨answer, hanswer⟩ := addMany_editsRows rows m
    exact ⟨answer, fun recent => by simpa only [importJson, h] using hanswer recent⟩

/-- An operation on rows that succeeds has changed them or left the monitor as it was. -/
theorem EditsRows.eq_update {α : Type} {f : Monitor → Except Error (α × Monitor)}
    (hf : EditsRows f) {m m' : Monitor} {a : α} (hm : f m = .ok (a, m')) :
    ∃ rows, m' = m.update rows := by
  obtain ⟨answer, hanswer⟩ := hf m
  have hrecent := hanswer m.recent
  change f m = _ at hrecent
  rw [hm] at hrecent
  cases answer with
  | error e => cases hrecent
  | ok r =>
    cases hrecent
    exact ⟨r.2, rfl⟩

/-- At most the rows and the remembered decisions are not those of `m`. -/
def Keeps (m m' : Monitor) : Prop :=
  ∃ rows recent, m' = { m with rows, recent }

theorem keeps_refl (m : Monitor) : Keeps m m :=
  ⟨m.rows, m.recent, rfl⟩

theorem keeps_symm {m m' : Monitor} (h : Keeps m m') : Keeps m' m := by
  obtain ⟨rows, recent, rfl⟩ := h
  exact ⟨m.rows, m.recent, rfl⟩

theorem keeps_trans {m m' m'' : Monitor} (h : Keeps m m') (h' : Keeps m' m'') : Keeps m m'' := by
  obtain ⟨rows, recent, rfl⟩ := h
  obtain ⟨rows', recent', rfl⟩ := h'
  exact ⟨rows', recent', rfl⟩

theorem model_of_keeps {m m' : Monitor} (h : Keeps m m') : m'.model = m.model := by
  obtain ⟨rows, recent, rfl⟩ := h
  rfl

theorem keeps_update (m : Monitor) (rows : Option (List Row)) : Keeps m (m.update rows) := by
  cases rows with
  | none => exact keeps_refl m
  | some rows => exact ⟨rows, m.recent.map (·.clear), rfl⟩

theorem keeps_decide {m m' : Monitor} {request : List String} {b : Bool}
    (h : (m.decide request).result = .ok (b, m')) : Keeps m m' := by
  obtain ⟨recent, recent', b', hrecent, hfound⟩ | hfind := find_or_not m request
  · rw [decide_of_find hrecent hfound] at h
    obtain ⟨_, -, h⟩ := Traced.result_bind_eq_ok_iff.mp h
    cases h
    exact ⟨m.rows, some recent', rfl⟩
  · rw [decide_of_not_find hfind, Traced.result_map] at h
    cases hb : (m.decideAnew request).result with
    | error e =>
      rw [hb] at h
      cases h
    | ok b' =>
      rw [hb] at h
      cases h
      exact ⟨m.rows, m.recent.map (·.insert request b), rfl⟩

theorem EditsRows.keeps {α β : Type} {f : Monitor → Except Error (α × Monitor)} (hf : EditsRows f)
    {m : Monitor} {g : α → β} {r : β × Monitor}
    (h : (f m >>= fun r => .ok (g r.1, r.2)) = .ok r) : Keeps m r.2 := by
  obtain ⟨⟨a, m'⟩, hstep, h⟩ := Result.bind_eq_ok_iff.mp h
  obtain ⟨rows, rfl⟩ := hf.eq_update hstep
  cases h
  exact keeps_update m rows

theorem keeps_perform {m m' : Monitor} {op : Operation} {reply : Reply}
    (h : (m.perform op).result = .ok (reply, m')) : Keeps m m' := by
  cases op with
  | decide request =>
    obtain ⟨⟨b, m''⟩, hdecide, h⟩ := Traced.result_bind_eq_ok_iff.mp h
    cases h
    exact keeps_decide hdecide
  | explain request =>
    obtain ⟨r, -, h⟩ := Traced.result_bind_eq_ok_iff.mp h
    cases h
    exact keeps_refl m
  | add policy values => exact (add_editsRows policy values).keeps h
  | addMany rows => exact (addMany_editsRows rows).keeps h
  | remove policy values => exact (remove_editsRows policy values).keeps h
  | removeWhere policy index wanted => exact (removeWhere_editsRows policy index wanted).keeps h
  | clear =>
    cases h
    exact keeps_update m (some [])
  | forget =>
    cases h
    exact keeps_update m (some m.rows)
  | importJson text => exact (importJson_editsRows text).keeps h
  | importFile file =>
    cases file with
    | text contents => exact (importJson_editsRows contents).keeps h
    | unreadable => cases h
  | rows | rowsOf policy | exportJson =>
    cases h
    exact keeps_refl m

theorem keeps_after (m : Monitor) (op : Operation) : Keeps m (m.after op) := by
  unfold after
  split
  · next reply m' h => exact keeps_perform h
  · exact keeps_refl m

end AccessControl.Monitor
