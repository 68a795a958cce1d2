import AccessControl.Proofs.Monitor.Step
import Mathlib.Data.List.Basic

namespace AccessControl.Monitor

open Policy Matcher

/-- The rows that an operation wants added, in its order. -/
def Operation.given : Operation → List Row
  | .add policy values => [⟨policy, values, .allow⟩]
  | .addMany batch => batch
  | .importJson text => (Row.listOfJson? text).getD []
  | .importFile (.text contents) => (Row.listOfJson? contents).getD []
  | _ => []

/-- The rows that an operation takes out of the store. -/
def Operation.drops : Operation → Row → Bool
  | .clear, _ => true
  | .remove policy values, row => row.policy == policy && row.values == values
  | .removeWhere policy index wanted, row =>
    row.policy == policy && valuesFit row.values index wanted
  | _, _ => false

/-- The operations that can only bring rows into the store. -/
def Operation.Adds : Operation → Prop
  | .add .. | .addMany .. | .importJson .. | .importFile .. => True
  | _ => False

/-- The operations that can only take rows out of the store. -/
def Operation.Removes : Operation → Prop
  | .remove .. | .removeWhere .. | .clear => True
  | _ => False

/-- The model alone decides how a row is stored. -/
theorem asStored_congr {m m' : Monitor} (h : m'.model = m.model) : m'.asStored = m.asStored := by
  have hpolicy : m'.policy = m.policy := by
    funext symbol
    rw [Monitor.policy, Monitor.policy, h]
  funext row
  simp only [asStored, hpolicy]

/-- The rows that an operation has for the store, in its order and as they are stored. -/
def offered (m : Monitor) (op : Operation) : List Row :=
  op.given.filterMap fun row => (m.asStored row).toOption

/-- What the reply to an operation says of how many rows there are before and after it. -/
def Operation.Reports (before after : Nat) : Operation → Reply → Prop
  | .add .., .flag b | .remove .., .flag b => b = true ↔ after ≠ before
  | .addMany .., .count n | .importJson .., .count n | .importFile .., .count n =>
    after = before + n
  | .removeWhere .., .count n => before = after + n
  | .clear, .done => after = 0
  | .decide .., .flag _ | .explain .., .explanation .. | .forget, .done | .rows, .rows _
  | .rowsOf .., .rows _ | .exportJson, .text _ => after = before
  | _, _ => False

theorem mem_insertNew {stored rows : List Row} {row : Row} :
    row ∈ insertNew stored rows ↔ row ∈ stored ∨ row ∈ rows := by
  induction rows generalizing stored with
  | nil => simp [insertNew]
  | cons r rows ih =>
    have hstep : insertNew stored (r :: rows) =
      insertNew (if stored.contains r then stored else stored ++ [r]) rows := rfl
    rw [hstep, ih]
    by_cases hr : r ∈ stored
    · simp only [List.contains_iff_mem.mpr hr, if_true, List.mem_cons]
      constructor
      · rintro (h | h)
        · exact .inl h
        · exact .inr (.inr h)
      · rintro (h | rfl | h)
        · exact .inl h
        · exact .inl hr
        · exact .inr h
    · simp [hr, or_assoc]

theorem nodup_insertNew {stored : List Row} (h : stored.Nodup) (rows : List Row) :
    (insertNew stored rows).Nodup := by
  induction rows generalizing stored with
  | nil => exact h
  | cons r rows ih =>
    apply ih
    by_cases hr : r ∈ stored
    · simpa [hr] using h
    · simpa [hr, List.nodup_append, List.forall_mem_ne'] using h

/-- What is stored stays in front; behind it stand the new rows, in the order of their first
occurrences. -/
theorem insertNew_eq_append (stored rows : List Row) : ∃ added,
    insertNew stored rows = stored ++ added ∧ (∀ row ∈ added, row ∉ stored) ∧
    added.Pairwise fun a b => rows.idxOf a < rows.idxOf b := by
  induction rows generalizing stored with
  | nil => exact ⟨[], by simp [insertNew], by simp, .nil⟩
  | cons r rows ih =>
    have hlater {a b : Row} (ha : a ≠ r) (hb : b ≠ r) (h : rows.idxOf a < rows.idxOf b) :
        (r :: rows).idxOf a < (r :: rows).idxOf b := by
      rw [List.idxOf_cons_ne _ ha.symm, List.idxOf_cons_ne _ hb.symm]
      exact Nat.succ_lt_succ h
    by_cases hr : r ∈ stored
    · obtain ⟨added, heq, hnew, hsorted⟩ := ih stored
      have hne {row : Row} (hrow : row ∈ added) : row ≠ r := by
        rintro rfl
        exact hnew row hrow hr
      refine ⟨added, ?_, hnew, ?_⟩
      · rw [← heq]
        simp [insertNew, hr]
      · exact hsorted.imp_of_mem fun ha hb h => hlater (hne ha) (hne hb) h
    · obtain ⟨added, heq, hnew, hsorted⟩ := ih (stored ++ [r])
      have hne {row : Row} (hrow : row ∈ added) : row ≠ r := by
        rintro rfl
        exact hnew row hrow (by simp)
      refine ⟨r :: added, ?_, ?_, ?_⟩
      · rw [List.append_cons, ← heq]
        simp [insertNew, hr]
      · refine List.forall_mem_cons.mpr ⟨hr, fun row hrow hstored => ?_⟩
        exact hnew row hrow (List.mem_append_left _ hstored)
      · refine List.pairwise_cons.mpr ⟨fun row hrow => ?_, ?_⟩
        · rw [List.idxOf_cons_self, List.idxOf_cons_ne _ (hne hrow).symm]
          exact Nat.succ_pos _
        · exact hsorted.imp_of_mem fun ha hb h => hlater (hne ha) (hne hb) h

/-- If nothing is added, nothing changes. -/
theorem insertNew_eq_self {stored rows : List Row}
    (h : (insertNew stored rows).length - stored.length = 0) : insertNew stored rows = stored := by
  obtain ⟨added, heq, -, -⟩ := insertNew_eq_append stored rows
  rw [heq, List.length_append] at h
  have hnil : added = [] := List.eq_nil_of_length_eq_zero (by omega)
  rw [heq, hnil, List.append_nil]

theorem length_le_insertNew (stored rows : List Row) :
    stored.length ≤ (insertNew stored rows).length := by
  obtain ⟨added, heq, -, -⟩ := insertNew_eq_append stored rows
  rw [heq, List.length_append]
  exact Nat.le_add_right _ _

/-- How many of the checked rows are new, and the monitor with these. -/
def inserted (m : Monitor) (new : List Row) : Nat × Monitor :=
  let stored := insertNew m.rows new
  let added := stored.length - m.rows.length
  (added, if added = 0 then m else m.withRows stored)

theorem addMany_of_mapM {m : Monitor} {given new : List Row} (h : given.mapM m.asStored = .ok new) :
    m.addMany given = .ok (m.inserted new) := by
  rw [addMany, h]
  rfl

theorem inserted_of_none (m : Monitor) (new : List Row) (h : (m.inserted new).1 = 0) :
    (m.inserted new).2 = m := by
  simp only [inserted] at h ⊢
  rw [if_pos h]

theorem inserted_of_some (m : Monitor) (new : List Row) (h : (m.inserted new).1 ≠ 0) :
    (m.inserted new).2 = m.withRows (insertNew m.rows new) := by
  simp only [inserted] at h ⊢
  rw [if_neg h]

theorem rows_inserted (m : Monitor) (new : List Row) :
    (m.inserted new).2.rows = insertNew m.rows new := by
  by_cases h : (m.inserted new).1 = 0
  · have hsame : insertNew m.rows new = m.rows := insertNew_eq_self h
    rw [inserted_of_none m new h, hsame]
  · rw [inserted_of_some m new h]
    rfl

theorem keeps_inserted (m : Monitor) (new : List Row) : Keeps m (m.inserted new).2 := by
  by_cases h : (m.inserted new).1 = 0
  · rw [inserted_of_none m new h]
    exact keeps_refl m
  · rw [inserted_of_some m new h]
    exact keeps_update m (some _)

theorem length_inserted (m : Monitor) (new : List Row) :
    (insertNew m.rows new).length = m.rows.length + (m.inserted new).1 := by
  have hle := length_le_insertNew m.rows new
  simp only [inserted]
  omega

/-- What was decided before is forgotten once. -/
theorem withRows_withRows (m : Monitor) (rows rows' : List Row) :
    (m.withRows rows).withRows rows' = m.withRows rows' := by
  cases hrecent : m.recent <;> simp [withRows, forget, hrecent, RecentDecisions.clear]

theorem rows_drop (m : Monitor) (covers : Row → Bool) :
    (m.drop covers).2.rows = m.rows.filter fun row => !covers row := by
  have hle := List.length_filter_le (fun row => !covers row) m.rows
  simp only [drop]
  split
  · next hzero =>
    have heq : (m.rows.filter fun row => !covers row).length = m.rows.length := by omega
    rw [List.filter_eq_self.mpr (List.length_filter_eq_length_iff.mp heq)]
  · rfl

theorem length_drop (m : Monitor) (covers : Row → Bool) :
    m.rows.length = (m.rows.filter fun row => !covers row).length + (m.drop covers).1 := by
  have hle := List.length_filter_le (fun row => !covers row) m.rows
  simp only [drop]
  omega

/-- The rows of `m` that an operation does not drop, and behind them the new ones that it offers. -/
def Revised (m : Monitor) (op : Operation) (rows : List Row) : Prop :=
  op.given.mapM m.asStored = .ok (m.offered op) ∧
  rows = insertNew (m.rows.filter fun row => !op.drops row) (m.offered op)

/-- What an operation that succeeds with this reply makes of the rows. -/
def Changes (m : Monitor) (op : Operation) (reply : Reply) (m' : Monitor) : Prop :=
  op.Reports m.rows.length m'.rows.length reply ∧ Revised m op m'.rows

section

variable {m m' : Monitor} {op : Operation} {rows : List Row}

theorem filterMap_of_mapM {given new : List Row} (h : given.mapM m.asStored = .ok new) :
    given.filterMap (fun row => (m.asStored row).toOption) = new := by
  induction given generalizing new with
  | nil =>
    cases h
    rfl
  | cons r given ih =>
    rw [List.mapM_cons] at h
    obtain ⟨row, hrow, h⟩ := Result.bind_eq_ok_iff.mp h
    obtain ⟨rest, hrest, h⟩ := Result.bind_eq_ok_iff.mp h
    cases h
    rw [List.filterMap_cons, hrow, ih hrest]
    rfl

theorem filter_drops (hop : ∀ row, op.drops row = false) (rows : List Row) :
    (rows.filter fun row => !op.drops row) = rows := by
  simp [hop]

theorem revised_of_insert {new : List Row} (hop : ∀ row, op.drops row = false)
    (hnew : op.given.mapM m.asStored = .ok new) (hrows : rows = insertNew m.rows new) :
    Revised m op rows := by
  have hoffered : m.offered op = new := filterMap_of_mapM hnew
  rw [Revised, hoffered, filter_drops hop]
  exact ⟨hnew, hrows⟩

theorem revised_of_filter (hop : op.given = [])
    (hrows : rows = m.rows.filter fun row => !op.drops row) : Revised m op rows := by
  rw [Revised, offered, hop]
  exact ⟨rfl, hrows⟩

/-- An operation that asks for nothing leaves the rows as they are. -/
theorem revised_refl (hop : ∀ row, op.drops row = false) (hgiven : op.given = []) :
    Revised m op m.rows :=
  revised_of_filter hgiven (filter_drops hop m.rows).symm

theorem revised_of_addMany {n : Nat} (hop : ∀ row, op.drops row = false)
    (h : m.addMany op.given = .ok (n, m')) :
    m'.rows.length = m.rows.length + n ∧ Revised m op m'.rows := by
  obtain ⟨new, hnew, -⟩ := Result.bind_eq_ok_iff.mp h
  have hr : m.inserted new = (n, m') := Except.ok.inj ((addMany_of_mapM hnew).symm.trans h)
  have hrows := rows_inserted m new
  have hlen := length_inserted m new
  rw [hr] at hrows hlen
  rw [← hrows] at hlen
  exact ⟨hlen, revised_of_insert hop hnew hrows⟩

theorem addMany_of_importJson {text : String} {r : Nat × Monitor} (h : m.importJson text = .ok r) :
    m.addMany ((Row.listOfJson? text).getD []) = .ok r := by
  unfold importJson at h
  split at h
  · next given hgiven =>
    rw [hgiven]
    exact h
  · cases h

theorem revised_of_drop (hop : op.given = []) :
    m.rows.length = (m.drop op.drops).2.rows.length + (m.drop op.drops).1 ∧
    Revised m op (m.drop op.drops).2.rows := by
  have hrows := rows_drop m op.drops
  refine ⟨?_, revised_of_filter hop hrows⟩
  rw [hrows]
  exact length_drop m op.drops

theorem rows_decide {request : List String} {b : Bool}
    (h : (m.decide request).result = .ok (b, m')) : m'.rows = m.rows := by
  obtain ⟨recent, recent', b', hrecent, hfound⟩ | hfind := find_or_not m request
  · rw [decide_of_find hrecent hfound] at h
    obtain ⟨_, -, h⟩ := Traced.result_bind_eq_ok_iff.mp h
    cases h
    rfl
  · rw [decide_of_not_find hfind, Traced.result_map] at h
    cases hb : (m.decideAnew request).result with
    | error e =>
      rw [hb] at h
      cases h
    | ok b' =>
      rw [hb] at h
      cases h
      rfl

theorem changes_add {policy : String} {values : List String} {b : Bool}
    (h : m.add policy values = .ok (b, m')) :
    Changes m (.add policy values) (.flag b) m' := by
  obtain ⟨row, hrow, h⟩ := Result.bind_eq_ok_iff.mp h
  have hnew : (Operation.add policy values).given.mapM m.asStored = .ok [row] := by
    simp [Operation.given, hrow]
  by_cases hmem : row ∈ m.rows
  · simp only [List.contains_iff_mem.mpr hmem, if_true] at h
    cases h
    refine ⟨by simp [Operation.Reports], revised_of_insert (fun _ => rfl) hnew ?_⟩
    simp [insertNew, hmem]
  · simp [hmem] at h
    obtain ⟨rfl, rfl⟩ := h
    refine ⟨by simp [Operation.Reports, withRows, forget], ?_⟩
    refine revised_of_insert (fun _ => rfl) hnew ?_
    simp [insertNew, hmem, withRows, forget]

theorem changes_remove {policy : String} {values : List String} {b : Bool}
    (h : m.remove policy values = .ok (b, m')) :
    Changes m (.remove policy values) (.flag b) m' := by
  obtain ⟨s, -, h⟩ := Result.bind_eq_ok_iff.mp h
  obtain ⟨hlen, hrevised⟩ := @revised_of_drop m (.remove policy values) rfl
  cases h
  refine ⟨?_, hrevised⟩
  change ((m.drop (Operation.remove policy values).drops).1 != 0) = true ↔
    (m.drop (Operation.remove policy values).drops).2.rows.length ≠ m.rows.length
  rw [bne_iff_ne]
  omega

theorem changes_removeWhere {policy : String} {index : Nat} {wanted : List String} {n : Nat}
    (h : m.removeWhere policy index wanted = .ok (n, m')) :
    Changes m (.removeWhere policy index wanted) (.count n) m' := by
  obtain ⟨s, -, h⟩ := Result.bind_eq_ok_iff.mp h
  simp only at h
  split at h
  · cases h
  · cases h
    exact @revised_of_drop m (.removeWhere policy index wanted) rfl

/-- What an operation that succeeds does to the rows, and what it says of it. -/
theorem changes_perform {reply : Reply} (h : (m.perform op).result = .ok (reply, m')) :
    Changes m op reply m' := by
  cases op with
  | decide request =>
    obtain ⟨⟨b, m''⟩, hdecide, h⟩ := Traced.result_bind_eq_ok_iff.mp h
    cases h
    rw [Changes, rows_decide hdecide]
    exact ⟨rfl, revised_refl (fun _ => rfl) rfl⟩
  | explain request =>
    obtain ⟨r, -, h⟩ := Traced.result_bind_eq_ok_iff.mp h
    cases h
    exact ⟨rfl, revised_refl (fun _ => rfl) rfl⟩
  | add policy values =>
    obtain ⟨⟨b, m''⟩, hadd, h⟩ := Result.bind_eq_ok_iff.mp h
    cases h
    exact changes_add hadd
  | addMany given =>
    obtain ⟨⟨n, m''⟩, hadd, h⟩ := Result.bind_eq_ok_iff.mp h
    cases h
    exact revised_of_addMany (fun _ => rfl) hadd
  | remove policy values =>
    obtain ⟨⟨b, m''⟩, hremove, h⟩ := Result.bind_eq_ok_iff.mp h
    cases h
    exact changes_remove hremove
  | removeWhere policy index wanted =>
    obtain ⟨⟨n, m''⟩, hremove, h⟩ := Result.bind_eq_ok_iff.mp h
    cases h
    exact changes_removeWhere hremove
  | clear =>
    cases h
    refine ⟨rfl, revised_of_filter rfl ?_⟩
    simp [Operation.drops, clear, withRows, forget]
  | importJson text =>
    obtain ⟨⟨n, m''⟩, himport, h⟩ := Result.bind_eq_ok_iff.mp h
    cases h
    exact revised_of_addMany (fun _ => rfl) (addMany_of_importJson himport)
  | importFile file =>
    obtain ⟨text, hfile, h⟩ := Result.bind_eq_ok_iff.mp h
    obtain ⟨⟨n, m''⟩, himport, h⟩ := Result.bind_eq_ok_iff.mp h
    cases h
    cases file with
    | text contents =>
      cases hfile
      exact revised_of_addMany (fun _ => rfl) (addMany_of_importJson himport)
    | unreadable => cases hfile
  | forget | rows | rowsOf policy | exportJson =>
    cases h
    exact ⟨rfl, revised_refl (fun _ => rfl) rfl⟩

end

def Succeeds (m : Monitor) (op : Operation) : Prop :=
  ∃ r, (m.perform op).result = .ok r

/-- An operation succeeds with what `changes_perform` says, or it leaves all as it was. -/
theorem after_cases (m : Monitor) (op : Operation) :
    (m.Succeeds op ∧ Revised m op (m.after op).rows) ∨ (¬m.Succeeds op ∧ m.after op = m) := by
  unfold after
  split
  · next reply m' h => exact .inl ⟨⟨_, h⟩, (changes_perform h).2⟩
  · next e h =>
    refine .inr ⟨?_, rfl⟩
    rintro ⟨r, hr⟩
    cases h.symm.trans hr

section

variable {m : Monitor} {op : Operation} {row : Row}

theorem mem_rows_of_adds (hop : op.Adds) (hrow : row ∈ m.rows) : row ∈ (m.after op).rows := by
  rcases after_cases m op with ⟨-, -, hrows⟩ | ⟨-, hafter⟩
  · have hdrops : ∀ row, op.drops row = false := by
      cases op with
      | remove | removeWhere | clear => exact hop.elim
      | _ => exact fun _ => rfl
    rw [hrows, filter_drops hdrops]
    exact mem_insertNew.mpr (.inl hrow)
  · rwa [hafter]

theorem mem_rows_of_removes (hop : op.Removes) (hrow : row ∈ (m.after op).rows) :
    row ∈ m.rows := by
  rcases after_cases m op with ⟨-, -, hrows⟩ | ⟨-, hafter⟩
  · have hoffered : m.offered op = [] := by
      cases op with
      | remove | removeWhere | clear => rfl
      | _ => exact hop.elim
    rw [hrows, hoffered] at hrow
    exact (List.mem_filter.mp hrow).1
  · rwa [hafter] at hrow

end

end AccessControl.Monitor
