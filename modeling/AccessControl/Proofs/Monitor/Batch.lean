import AccessControl.Proofs.Monitor.Action
import AccessControl.Proofs.Monitor.Enforcement

namespace AccessControl.Monitor

open Policy

/-- Adds each of the rows as a batch of its own, and counts those that are new. -/
def Action.addEach : List Row → Action Nat
  | [] => return 0
  | row :: rows => do
    let added ← Action.addMany [row]
    let more ← Action.addEach rows
    return added + more

/-- Every row can be stored, in one form or another. -/
def Storable (m : Monitor) (rows : List Row) : Prop :=
  ∀ row ∈ rows, ∃ stored, m.asStored row = .ok stored

section

variable {m : Monitor} {rows front back : List Row}

theorem Storable.exists_mapM (h : m.Storable rows) : ∃ new, rows.mapM m.asStored = .ok new := by
  cases hrows : rows.mapM m.asStored with
  | ok new => exact ⟨new, rfl⟩
  | error e =>
    obtain ⟨front, row, rest, heq, -, hrow⟩ := Result.mapM_eq_error_iff.mp hrows
    have hmem : row ∈ rows := by simp [heq]
    obtain ⟨stored, hstored⟩ := h row hmem
    cases hrow.symm.trans hstored

theorem Storable.left (h : m.Storable (front ++ back)) : m.Storable front := by
  intro row hrow
  exact h row (List.mem_append_left back hrow)

theorem Storable.right (h : m.Storable (front ++ back)) : m.Storable back := by
  intro row hrow
  exact h row (List.mem_append_right front hrow)

theorem Storable.of_model {m' : Monitor} (h : m.Storable rows) (hmodel : m'.model = m.model) :
    m'.Storable rows := by
  rw [Storable, asStored_congr hmodel]
  exact h

end

theorem insertNew_append (stored front back : List Row) :
    insertNew stored (front ++ back) = insertNew (insertNew stored front) back :=
  List.foldl_append

section

variable (m : Monitor) (new front back : List Row)

theorem inserted_withRows (stored : List Row) :
    ((m.withRows stored).inserted new).2 = m.withRows (insertNew stored new) := by
  by_cases h : ((m.withRows stored).inserted new).1 = 0
  · have hsame : insertNew stored new = stored := insertNew_eq_self h
    rw [inserted_of_none _ new h, hsame]
  · rw [inserted_of_some _ new h, withRows_withRows]
    rfl

theorem inserted_append :
    m.inserted (front ++ back) =
      ((m.inserted front).1 + ((m.inserted front).2.inserted back).1,
        ((m.inserted front).2.inserted back).2) := by
  -- Only if a row of the first part is new does the second part start from other rows.
  by_cases hnone : (m.inserted front).1 = 0
  · have hsame : insertNew m.rows front = m.rows := insertNew_eq_self hnone
    rw [inserted_of_none m front hnone, hnone, Nat.zero_add]
    simp only [inserted, insertNew_append, hsame]
  · have hfront := length_inserted m front
    have hback := length_inserted (m.withRows (insertNew m.rows front)) back
    have hboth := length_inserted m (front ++ back)
    have hrows : (m.withRows (insertNew m.rows front)).rows = insertNew m.rows front := rfl
    rw [hrows] at hback
    rw [insertNew_append] at hboth
    rw [inserted_of_some m front hnone]
    apply Prod.ext
    · simp only
      omega
    · have hsome : (m.inserted (front ++ back)).1 ≠ 0 := by omega
      rw [inserted_withRows, inserted_of_some m _ hsome, insertNew_append]

end

section

variable {m : Monitor} {rows front back : List Row}

theorem run_addMany_of_mapM {new : List Row} (h : rows.mapM m.asStored = .ok new) :
    (Action.addMany rows).run m = .ok (m.inserted new).1 (m.inserted new).2 := by
  rw [run_addMany, addMany_of_mapM h]
  rfl

/-- A batch in two parts. -/
theorem run_addMany_append (h : m.Storable (front ++ back)) : ∃ n m₁ k m₂,
    (Action.addMany front).run m = .ok n m₁ ∧ (Action.addMany back).run m₁ = .ok k m₂ ∧
    (Action.addMany (front ++ back)).run m = .ok (n + k) m₂ ∧ m₁.model = m.model := by
  obtain ⟨newFront, hfront⟩ := h.left.exists_mapM
  obtain ⟨newBack, hback⟩ := h.right.exists_mapM
  have hboth : (front ++ back).mapM m.asStored = .ok (newFront ++ newBack) := by
    rw [List.mapM_append, hfront, hback]
    rfl
  have hmodel := model_of_keeps (keeps_inserted m newFront)
  have hback' : back.mapM (m.inserted newFront).2.asStored = .ok newBack := by
    rw [asStored_congr hmodel]
    exact hback
  have hrun := run_addMany_of_mapM hboth
  rw [inserted_append] at hrun
  exact ⟨_, _, _, _, run_addMany_of_mapM hfront, run_addMany_of_mapM hback', hrun, hmodel⟩

/-- One batch for each row is one batch of them all. -/
theorem run_addEach (h : m.Storable rows) :
    (Action.addEach rows).run m = (Action.addMany rows).run m := by
  induction rows generalizing m with
  | nil =>
    have hnil : ([] : List Row).mapM m.asStored = .ok [] := rfl
    rw [run_addMany_of_mapM hnil]
    simp [Action.addEach, inserted, insertNew]
  | cons row rows ih =>
    have hsplit : m.Storable ([row] ++ rows) := h
    obtain ⟨n, m₁, k, m₂, hrow, hrows, hboth, hmodel⟩ := run_addMany_append hsplit
    have hrest := ih (hsplit.right.of_model hmodel)
    rw [hrows] at hrest
    rw [List.singleton_append] at hboth
    rw [Action.addEach, Action.bind_of_ok hrow, Action.bind_of_ok hrest, hboth]
    rfl

theorem addMany_singleton (m : Monitor) (policy : String) (values : List String) :
    m.addMany [⟨policy, values, .allow⟩] =
      (m.add policy values >>= fun r => .ok (r.1.toNat, r.2)) := by
  cases hrow : m.asStored ⟨policy, values, .allow⟩ with
  | error e => simp [addMany, add, hrow]
  | ok row =>
    by_cases hmem : row ∈ m.rows
    · simp [addMany, add, hrow, insertNew, hmem]
    · simp [addMany, add, hrow, insertNew, hmem]

end

/-- A row added by itself is stored, counted or refused just as the batch of that row is. A batch of
rows that can be stored comes to the same as its first part followed by the rest of it, and as its
rows one after another: the same rows, the same count in all, and the decisions made before are
dropped if any row is new. -/
theorem batch_is_row_by_row (m : Monitor) :
    (∀ policy values, (Action.addMany [⟨policy, values, .allow⟩]).run m =
      (do return (← Action.add policy values).toNat : Action Nat).run m) ∧
    ∀ front back, m.Storable (front ++ back) → ∃ n m₁ k m₂,
      (Action.addMany front).run m = .ok n m₁ ∧ (Action.addMany back).run m₁ = .ok k m₂ ∧
      (Action.addMany (front ++ back)).run m = .ok (n + k) m₂ ∧
      (Action.addEach (front ++ back)).run m = .ok (n + k) m₂ ∧
      (n + k = 0 → m₂ = m) ∧ (0 < n + k → m₂.recent = m.recent.map (·.clear)) := by
  constructor
  · intro policy values
    rw [run_addMany, addMany_singleton]
    exact (run_map_of_settle (run_add m policy values) Bool.toNat).symm
  · intro front back h
    obtain ⟨n, m₁, k, m₂, hfront, hback, hboth, -⟩ := run_addMany_append h
    have heach := run_addEach h
    rw [hboth] at heach
    obtain ⟨new, hnew⟩ := h.exists_mapM
    have hrun := hboth.symm.trans (run_addMany_of_mapM hnew)
    injection hrun with hcount hm₂
    refine ⟨n, m₁, k, m₂, hfront, hback, hboth, heach, ?_, ?_⟩
    · intro hzero
      rw [hm₂]
      apply inserted_of_none
      omega
    · intro hpos
      rw [hm₂, inserted_of_some m new (by omega)]
      rfl

/-- Of a row that another one is stored as, of repetitions within each part and across them, and
with a decision to drop. -/
theorem batch_is_row_by_row_watched :
    let denial : Row := ⟨"p", ["alice", "deny"], .deny⟩
    let barred : Row := ⟨"q", ["alice"], .deny⟩
    let free : Row := ⟨"q", ["alice"], .allow⟩
    let m := { watched with recent := some ⟨2, [(["alice"], true)]⟩ }
    let front := [{ denial with effect := .allow }, barred, barred]
    let back := [denial, free, barred]
    m.Storable (front ++ back) ∧ ∃ m₁ m₂, (Action.addMany front).run m = .ok 2 m₁ ∧
      (Action.addMany back).run m₁ = .ok 1 m₂ ∧
      (Action.addMany (front ++ back)).run m = .ok 3 m₂ ∧
      (Action.addEach (front ++ back)).run m = .ok 3 m₂ ∧
      m₂.rows = [denial, barred, free] ∧ m₂.recent = some ⟨2, []⟩ := by
  intro denial barred free m front back
  let cleared (rows : List Row) : Monitor := { m with rows, recent := some ⟨2, []⟩ }
  have hstorable : m.Storable (front ++ back) := by
    intro row hrow
    simp only [front, back, List.cons_append, List.nil_append, List.mem_cons, List.not_mem_nil,
      or_false] at hrow
    obtain rfl | rfl | rfl | rfl | rfl | rfl := hrow
    all_goals exact ⟨_, rfl⟩
  obtain ⟨n, m₁, k, m₂, hfront, hback, hboth, heach, -, hpos⟩ :=
    (batch_is_row_by_row m).2 front back hstorable
  have hfirst : (Action.addMany front).run m = .ok 2 (cleared [denial, barred]) := rfl
  cases hfront.symm.trans hfirst
  have hsecond : (Action.addMany back).run (cleared [denial, barred]) =
      .ok 1 (cleared [denial, barred, free]) := rfl
  cases hback.symm.trans hsecond
  exact ⟨hstorable, _, _, hfirst, hsecond, hboth, heach, rfl, hpos (by decide)⟩

end AccessControl.Monitor
