import AccessControl.Monitor.Action
import AccessControl.Proofs.Monitor.Change
import AccessControl.Proofs.Monitor.Memory

namespace AccessControl.Monitor

open Policy Matcher

section

variable {α β : Type}

/-- How an operation on `m` ends, if one that fails changes nothing. -/
def settle (m : Monitor) : Except Error (α × Monitor) → EStateM.Result Error Monitor α
  | .ok (a, m') => .ok a m'
  | .error e => .error e m

theorem settle_eq_ok_iff {m m' : Monitor} {r : Except Error (α × Monitor)} {a : α} :
    settle m r = .ok a m' ↔ r = .ok (a, m') := by
  cases r with
  | error e => simp [settle]
  | ok r => simp [settle, Prod.ext_iff]

namespace Action

variable {m m' : Monitor} {a : α} {e : Error} {look : Monitor → Except Error α}

theorem bind_of_ok {x : Action α} (h : x.run m = .ok a m') (f : α → Action β) :
    (x >>= f).run m = (f a).run m' := by
  rw [EStateM.run_bind, h]

theorem bind_of_error {x : Action α} (h : x.run m = .error e m') (f : α → Action β) :
    (x >>= f).run m = .error e m' := by
  rw [EStateM.run_bind, h]

theorem get_bind (f : Monitor → Action α) (m : Monitor) : (get >>= f).run m = (f m).run m :=
  bind_of_ok (EStateM.run_get m) f

theorem modify_bind (g : Monitor → Monitor) (f : Unit → Action α) (m : Monitor) :
    (modify g >>= f).run m = (f ()).run (g m) :=
  bind_of_ok (EStateM.run_modify g m) f

theorem run_check (look : Monitor → Except Error α) (m : Monitor) :
    (check look).run m = settle m ((look m).map (·, m)) := by
  rw [check, get_bind]
  cases look m <;> rfl

/-- A check that comes first leaves everything to what comes behind it. -/
theorem run_check_bind {x : α → Action β} {r : α → Except Error (β × Monitor)}
    (h : ∀ a, (x a).run m = settle m (r a)) :
    (check look >>= x).run m = settle m (look m >>= r) := by
  have hcheck := run_check look m
  cases hlook : look m with
  | error e =>
    rw [hlook] at hcheck
    rw [bind_of_error hcheck]
    rfl
  | ok a =>
    rw [hlook] at hcheck
    rw [bind_of_ok hcheck, h a]
    rfl

/-- Checks of one element after another are one check of the list. -/
theorem run_mapM_check (look : Monitor → α → Except Error β) (as : List α) (m : Monitor) :
    (as.mapM fun a => check (look · a)).run m = (check fun m => as.mapM (look m)).run m := by
  rw [run_check]
  induction as with
  | nil => rfl
  | cons a as ih =>
    rw [List.mapM_cons, List.mapM_cons, Result.map_bind]
    refine run_check_bind fun b => ?_
    cases has : as.mapM (look m) with
    | error e =>
      rw [has] at ih
      rw [bind_of_error ih]
      rfl
    | ok bs =>
      rw [has] at ih
      rw [bind_of_ok ih]
      rfl

end Action

/-- What is made of the answer makes no difference. -/
theorem run_map_of_settle {x : Action α} {m : Monitor} {r : Except Error (α × Monitor)}
    (h : x.run m = settle m r) (g : α → β) :
    (x >>= fun a => pure (g a)).run m = settle m (r >>= fun r => .ok (g r.1, r.2)) := by
  cases r with
  | error e =>
    rw [Action.bind_of_error h, Result.error_bind]
    rfl
  | ok r =>
    rw [Action.bind_of_ok h, Result.ok_bind]
    rfl

end

section

variable {m : Monitor} {row : Row}

theorem Action.insert_of_mem (h : row ∈ m.rows) : (Action.insert row).run m = .ok false m := by
  rw [Action.insert, get_bind, if_pos (List.contains_iff_mem.mpr h)]
  rfl

theorem Action.insert_of_notMem (h : row ∉ m.rows) :
    (Action.insert row).run m = .ok true { m with rows := m.rows ++ [row] } := by
  have hcontains : ¬m.rows.contains row = true := fun hmem => h (List.contains_iff_mem.mp hmem)
  rw [Action.insert, get_bind, if_neg hcontains]
  rfl

end

/-- Rows inserted one by one are rows inserted at once. -/
theorem Action.run_insertAll (rows : List Row) (m : Monitor) :
    (Action.insertAll rows).run m =
      .ok ((insertNew m.rows rows).length - m.rows.length)
        { m with rows := insertNew m.rows rows } := by
  induction rows generalizing m with
  | nil => simp [Action.insertAll, insertNew]
  | cons row rows ih =>
    rw [Action.insertAll]
    by_cases hrow : row ∈ m.rows
    · have hnew : insertNew m.rows (row :: rows) = insertNew m.rows rows := by
        simp [insertNew, hrow]
      rw [bind_of_ok (insert_of_mem hrow), bind_of_ok (ih m), hnew]
      simp only [EStateM.run_pure, Bool.toNat_false, Nat.zero_add]
    · have hnew : insertNew m.rows (row :: rows) = insertNew (m.rows ++ [row]) rows := by
        simp [insertNew, hrow]
      have hlength := length_le_insertNew (m.rows ++ [row]) rows
      rw [List.length_append, List.length_singleton] at hlength
      rw [bind_of_ok (insert_of_notMem hrow), bind_of_ok (ih _), hnew]
      simp only [EStateM.run_pure, Bool.toNat_true, List.length_append, List.length_singleton]
      congr 1
      omega

/-- Keeping what is not covered drops what is. -/
theorem Action.run_retain (covers : Row → Bool) (m : Monitor) :
    (Action.retain fun row => !covers row).run m = .ok (m.drop covers).1 (m.drop covers).2 := by
  rw [Action.retain, get_bind, modify_bind, get_bind]
  simp only [drop]
  by_cases hremoved : m.rows.length - (m.rows.filter fun row => !covers row).length = 0
  · have hlength := List.length_filter_le (fun row => !covers row) m.rows
    have hsame : m.rows.filter (fun row => !covers row) = m.rows :=
      List.filter_sublist.eq_of_length (by omega)
    rw [if_neg (not_not_intro hremoved), if_pos hremoved, hsame]
    rfl
  · rw [if_pos hremoved, if_neg hremoved]
    rfl

section

variable (m : Monitor)

theorem Action.run_consult_of_find {recent recent' : RecentDecisions} {request : List String}
    {b : Bool} (hrecent : m.recent = some recent)
    (hfind : recent.find request = (some b, recent')) :
    (Action.consult request).run m = .ok (some b) { m with recent := some recent' } := by
  rw [Action.consult, get_bind, hrecent]
  simp only [hfind]
  rw [modify_bind]
  rfl

/-- Looking in vain changes nothing. -/
theorem Action.run_consult_of_not_find {request : List String}
    (hfind : ∀ recent, m.recent = some recent → (recent.find request).1 = none) :
    (Action.consult request).run m = .ok none m := by
  rw [Action.consult, get_bind]
  cases hrecent : m.recent with
  | none => rfl
  | some recent =>
    have hsame : recent.find request = (none, recent) := by
      have hnone := hfind recent hrecent
      unfold RecentDecisions.find at hnone ⊢
      split at hnone
      · cases hnone
      · rfl
    simp only [hsame]
    rw [modify_bind, ← hrecent]
    rfl

theorem run_decide (request : List String) :
    (Action.decide request).run m = settle m (m.decide request).result := by
  rw [Action.decide]
  obtain ⟨recent, recent', b, hrecent, hfound⟩ | hfind := find_or_not m request
  · rw [decide_of_find hrecent hfound, Traced.result_bind]
    refine Action.run_check_bind fun _ => ?_
    rw [Action.bind_of_ok (Action.run_consult_of_find m hrecent hfound)]
    rfl
  · rw [decide_of_not_find hfind, Traced.result_map, decideAnew, Traced.result_bind,
      Result.map_bind]
    refine Action.run_check_bind fun _ => ?_
    rw [Action.bind_of_ok (Action.run_consult_of_not_find m hfind), Traced.result_bind,
      Result.map_bind]
    exact Action.run_check_bind fun _ => rfl

theorem run_explain (request : List String) : (Action.explain request).run m =
    settle m ((m.explain request).result.map (·, m)) := by
  rw [Action.explain, Monitor.explain, Traced.result_bind, Result.map_bind]
  refine Action.run_check_bind fun _ => ?_
  rw [Traced.result_bind, Result.map_bind]
  exact Action.run_check_bind fun _ => rfl

theorem run_add (policy : String) (values : List String) :
    (Action.add policy values).run m = settle m (m.add policy values) := by
  refine Action.run_check_bind fun row => ?_
  by_cases hrow : row ∈ m.rows
  · rw [Action.bind_of_ok (Action.insert_of_mem hrow), if_pos (List.contains_iff_mem.mpr hrow)]
    rfl
  · rw [Action.bind_of_ok (Action.insert_of_notMem hrow),
      if_neg fun hmem => hrow (List.contains_iff_mem.mp hmem)]
    rfl

theorem run_addMany (given : List Row) :
    (Action.addMany given).run m = settle m (m.addMany given) := by
  rw [Action.addMany, EStateM.run_bind, Action.run_mapM_check asStored given m,
    ← EStateM.run_bind]
  refine Action.run_check_bind fun rows => ?_
  rw [Action.bind_of_ok (Action.run_insertAll rows m)]
  simp only
  by_cases hadded : (insertNew m.rows rows).length - m.rows.length = 0
  · rw [if_neg (not_not_intro hadded), if_pos hadded, insertNew_eq_self hadded]
    rfl
  · rw [if_pos hadded, if_neg hadded]
    rfl

theorem run_remove (policy : String) (values : List String) :
    (Action.remove policy values).run m = settle m (m.remove policy values) := by
  refine Action.run_check_bind fun s => ?_
  rw [Action.bind_of_ok (Action.run_retain _ m)]
  rfl

theorem run_removeWhere (policy : String) (index : Nat) (wanted : List String) :
    (Action.removeWhere policy index wanted).run m =
      settle m (m.removeWhere policy index wanted) := by
  refine Action.run_check_bind fun s => ?_
  by_cases hstop : s.attrs.length < index + wanted.length
  · simp only [hstop, if_true]
    rfl
  · simp only [hstop, if_false]
    exact Action.run_retain _ m

theorem run_importJson (text : String) :
    (Action.importJson text).run m = settle m (m.importJson text) := by
  unfold Action.importJson Monitor.importJson
  cases Row.listOfJson? text with
  | none => rfl
  | some given => exact run_addMany m given

end

/-- An operation on the spot ends as its function says, and where that is in failure it has changed
nothing. -/
theorem run_act (m : Monitor) (op : Operation) :
    op.act.run m = settle m (m.perform op).result := by
  cases op with
  | decide request =>
    rw [perform, Traced.result_bind]
    exact run_map_of_settle (run_decide m request) Reply.flag
  | explain request =>
    rw [perform, Traced.result_bind]
    have hexplain := run_map_of_settle (run_explain m request) fun r => Reply.explanation r.1 r.2
    cases hresult : (m.explain request).result <;> rwa [hresult] at hexplain
  | add policy values => exact run_map_of_settle (run_add m policy values) Reply.flag
  | addMany given => exact run_map_of_settle (run_addMany m given) Reply.count
  | remove policy values => exact run_map_of_settle (run_remove m policy values) Reply.flag
  | removeWhere policy index wanted =>
    exact run_map_of_settle (run_removeWhere m policy index wanted) Reply.count
  | importJson text => exact run_map_of_settle (run_importJson m text) Reply.count
  | importFile file =>
    cases file with
    | text contents => exact run_map_of_settle (run_importJson m contents) Reply.count
    | unreadable => rfl
  | clear | forget | rows | rowsOf policy | exportJson => rfl

/-- `e` is why the first row that cannot be stored cannot be stored. -/
def FirstRefused (m : Monitor) (given : List Row) (e : Error) : Prop :=
  ∃ front row rest, given = front ++ row :: rest ∧
    (∀ r ∈ front, ∃ stored, m.asStored r = .ok stored) ∧ m.asStored row = .error e

theorem reply_addMany_eq_error_iff {m : Monitor} {given : List Row} {e : Error} :
    m.reply (.addMany given) = .error e ↔ m.FirstRefused given e := by
  rw [FirstRefused, ← Result.mapM_eq_error_iff, reply, perform, Traced.result_ofExcept, addMany]
  cases given.mapM m.asStored with
  | error e' =>
    rw [Result.error_bind, Result.error_bind]
    constructor <;> intro h <;> cases h <;> rfl
  | ok rows => constructor <;> intro h <;> cases h

/-- A text that holds no rows is refused as such, and one that does as a batch of them. -/
theorem reply_importJson_eq_error_iff {m : Monitor} {text : String} {e : Error} :
    m.reply (.importJson text) = .error e ↔
      (Row.listOfJson? text = none ∧ e = .malformedRows) ∨
        ∃ given, Row.listOfJson? text = some given ∧ m.FirstRefused given e := by
  cases hgiven : Row.listOfJson? text with
  | none =>
    rw [reply, perform, Traced.result_ofExcept, importJson, hgiven]
    constructor
    · intro h
      cases h
      exact .inl ⟨rfl, rfl⟩
    · rintro (⟨-, rfl⟩ | ⟨given, h, -⟩)
      · rfl
      · cases h
  | some given =>
    have hbatch : m.reply (.importJson text) = m.reply (.addMany given) := by
      rw [reply, reply, perform, perform, importJson, hgiven]
    rw [hbatch, reply_addMany_eq_error_iff]
    constructor
    · exact fun h => .inr ⟨given, rfl, h⟩
    · rintro (⟨h, -⟩ | ⟨given', h, hrefused⟩)
      · cases h
      · cases h
        exact hrefused

/-- An operation that fails, at whatever step, leaves the monitor as it was; one that succeeds gives
the reply and the monitor that it should. A batch fails for the reason of its first invalid row. -/
theorem failure_changes_nothing (m : Monitor) (op : Operation) :
    ((∃ reply, m.reply op = .ok reply ∧ op.act.run m = .ok reply (m.after op)) ∨
      ∃ e, m.reply op = .error e ∧ op.act.run m = .error e m ∧ m.after op = m) ∧
    (∀ given e, m.reply (.addMany given) = .error e ↔ m.FirstRefused given e) ∧
    ∀ text e, m.reply (.importJson text) = .error e ↔
      (Row.listOfJson? text = none ∧ e = .malformedRows) ∨
        ∃ given, Row.listOfJson? text = some given ∧ m.FirstRefused given e := by
  refine ⟨?_, fun _ _ => reply_addMany_eq_error_iff, fun _ _ => reply_importJson_eq_error_iff⟩
  rw [run_act, reply, after]
  cases (m.perform op).result with
  | error e => exact .inr ⟨e, rfl, rfl, rfl⟩
  | ok r => exact .inl ⟨r.1, rfl, rfl⟩

/-- The first row of the batch would be stored, were it not for the second one. -/
example :
    let model : Model := ⟨⟨"r", ["sub"]⟩, [⟨"p", ["sub"]⟩], [], ⟨.allowOverride, "p"⟩, "r.sub"⟩
    let m : Monitor := ⟨model, ⟨"r.sub", [.fetchPath "r" ["sub"]]⟩, .empty, [], none⟩
    (Operation.addMany [⟨"p", ["alice"], .allow⟩, ⟨"q", ["bob"], .allow⟩]).act.run m =
      .error (.unknownPolicy "q") m :=
  rfl

end AccessControl.Monitor
