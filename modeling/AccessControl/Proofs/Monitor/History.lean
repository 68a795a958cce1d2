import AccessControl.Proofs.Monitor.Memory
import AccessControl.Proofs.Monitor.Rows
import Mathlib.Data.List.Induction

namespace AccessControl.Monitor

open Policy

/-- The rows that an operation wants removed. -/
def Operation.Covers : Operation → Row → Prop
  | .clear, _ => True
  | .remove policy values, row => row.policy = policy ∧ row.values = values
  | .removeWhere policy index wanted, row => row.policy = policy ∧
    ∀ j want, wanted[j]? = some want → want = "" ∨ row.values[index + j]? = some want
  | _, _ => False

instance (policy : String) (index : Nat) (wanted : List String) (row : Row) :
    Decidable ((Operation.removeWhere policy index wanted).Covers row) :=
  decidable_of_iff (row.policy = policy ∧ ∀ j, ∀ h : j < wanted.length,
      wanted[j] = "" ∨ row.values[index + j]? = some wanted[j]) (by
    simp only [Operation.Covers, List.getElem?_eq_some_iff, forall_exists_index]
    refine and_congr_right fun _ => ⟨?_, ?_⟩
    · intro h j want hj heq
      subst heq
      exact h j hj
    · intro h j hj
      exact h j _ hj rfl)

section

variable {m : Monitor} {op : Operation} {row : Row}

/-- The rows that are stored have room for the values that a removal names. -/
theorem drops_iff_covers (hm : Sound m) (hop : m.Succeeds op) (hrow : row ∈ m.rows) :
    op.drops row = true ↔ op.Covers row := by
  cases op with
  | remove policy values => simp [Operation.drops, Operation.Covers]
  | removeWhere policy index wanted =>
    obtain ⟨r, h⟩ := hop
    obtain ⟨r', hremove, -⟩ := Result.bind_eq_ok_iff.mp h
    obtain ⟨s, hs, hle⟩ := removeWhere_within hremove
    simp only [Operation.drops, Operation.Covers, Bool.and_eq_true, beq_iff_eq]
    refine and_congr_right fun hpolicy => valuesFit_iff ?_
    rw [(hm.conforms row hrow).length_eq (hpolicy ▸ hs)]
    exact hle
  | _ => simp [Operation.drops, Operation.Covers]

theorem not_covers_of_mem_offered (h : row ∈ m.offered op) : ¬op.Covers row := by
  have hgiven : op.given ≠ [] := by
    intro hnil
    simp [offered, hnil] at h
  cases op with
  | remove | removeWhere | clear => exact absurd rfl hgiven
  | _ => exact id

/-- What is stored is there because it was offered just now, or was there before and is not covered
just now. -/
theorem mem_rows_after_iff (hm : Sound m) : row ∈ (m.after op).rows ↔
    (m.Succeeds op ∧ row ∈ m.offered op) ∨
    (row ∈ m.rows ∧ ¬(m.Succeeds op ∧ op.Covers row)) := by
  rcases after_cases m op with ⟨hsucceeds, -, hrows⟩ | ⟨hfails, hafter⟩
  · have hkept : row ∈ m.rows ∧ op.drops row = false ↔ row ∈ m.rows ∧ ¬op.Covers row := by
      refine and_congr_right fun hrow => ?_
      rw [← drops_iff_covers hm hsucceeds hrow, Bool.not_eq_true]
    rw [hrows, mem_insertNew, List.mem_filter, Bool.not_eq_true', hkept]
    simp only [hsucceeds, true_and]
    exact or_comm
  · rw [hafter]
    simp [hfails]

end

/-- The monitor when the first `t` operations of a history are done. -/
def afterFirst (m : Monitor) (ops : List Operation) (t : Nat) : Monitor :=
  m.afterAll (ops.take t)

/-- The operation at place `t` of a history is `op`, and it succeeds there. -/
def Performs (m : Monitor) (ops : List Operation) (t : Nat) (op : Operation) : Prop :=
  ops[t]? = some op ∧ (m.afterFirst ops t).Succeeds op

/-- An operation that succeeded has offered the row, and none that succeeded since has covered
it. -/
def Outstanding (m : Monitor) (ops : List Operation) (row : Row) : Prop :=
  ∃ t op, m.Performs ops t op ∧ row ∈ m.offered op ∧
    ∀ u op', t < u → m.Performs ops u op' → ¬op'.Covers row

/-- The operation at place `t` has brought the row into the store, and it is there ever since. -/
def EnteredAt (m : Monitor) (ops : List Operation) (row : Row) (t : Nat) : Prop :=
  t < ops.length ∧ row ∉ (m.afterFirst ops t).rows ∧
    ∀ u, t < u → u ≤ ops.length → row ∈ (m.afterFirst ops u).rows

/-- Whether `a` has come into the store before `b`: through an earlier operation, or earlier among
the rows of the same one. -/
def EnteredBefore (m : Monitor) (ops : List Operation) (a b : Row) : Prop :=
  ∃ t u, m.EnteredAt ops a t ∧ m.EnteredAt ops b u ∧
    (t < u ∨ t = u ∧ ∃ op, ops[t]? = some op ∧ (m.offered op).idxOf a < (m.offered op).idxOf b)

section

variable {m : Monitor} {ops : List Operation} {row a b : Row} {t u : Nat}

theorem enteredAt_unique (ht : m.EnteredAt ops row t) (hu : m.EnteredAt ops row u) : t = u := by
  obtain ⟨htlen, htnot, htsince⟩ := ht
  obtain ⟨hulen, hunot, husince⟩ := hu
  rcases Nat.lt_trichotomy t u with hlt | heq | hlt
  · exact absurd (htsince u hlt (Nat.le_of_lt hulen)) hunot
  · exact heq
  · exact absurd (husince t hlt (Nat.le_of_lt htlen)) htnot

theorem enteredBefore_asymm (h : m.EnteredBefore ops a b) : ¬m.EnteredBefore ops b a := by
  rintro ⟨u', t', hb', ha', horder'⟩
  obtain ⟨t, u, ha, hb, horder⟩ := h
  obtain rfl := enteredAt_unique ha ha'
  obtain rfl := enteredAt_unique hb hb'
  rcases horder with hlt | ⟨rfl, op, hop, hlt⟩
  · rcases horder' with hlt' | ⟨rfl, -⟩ <;> omega
  · rcases horder' with hlt' | ⟨-, op', hop', hlt'⟩
    · omega
    · cases hop.symm.trans hop'
      omega

end

theorem afterAll_snoc (m : Monitor) (ops : List Operation) (op : Operation) :
    m.afterAll (ops ++ [op]) = (m.afterAll ops).after op := by
  rw [afterAll, List.foldl_append]
  rfl

theorem model_afterAll (m : Monitor) (ops : List Operation) : (m.afterAll ops).model = m.model := by
  induction ops using List.reverseRecOn with
  | nil => rfl
  | append_singleton ops op ih =>
    rw [afterAll_snoc, model_of_keeps (keeps_after _ op), ih]

/-- The model alone decides what an operation offers. -/
theorem offered_congr {m m' : Monitor} (h : m'.model = m.model) : m'.offered = m.offered := by
  have hstored := asStored_congr h
  funext op
  rw [offered, offered, hstored]

section

variable {m : Monitor} {ops : List Operation} {op op' : Operation} {row a b : Row} {t : Nat}

theorem afterFirst_snoc (h : t ≤ ops.length) :
    m.afterFirst (ops ++ [op]) t = m.afterFirst ops t := by
  rw [afterFirst, afterFirst, List.take_append_of_le_length h]

theorem afterFirst_length (m : Monitor) (ops : List Operation) :
    m.afterFirst ops ops.length = m.afterAll ops := by
  rw [afterFirst, List.take_length]

theorem lt_of_performs (h : m.Performs ops t op) : t < ops.length :=
  (List.getElem?_eq_some_iff.mp h.1).1

theorem performs_snoc_iff : m.Performs (ops ++ [op]) t op' ↔
    m.Performs ops t op' ∨ (t = ops.length ∧ op' = op ∧ (m.afterAll ops).Succeeds op) := by
  unfold Performs
  rcases Nat.lt_trichotomy t ops.length with hlt | rfl | hlt
  · rw [List.getElem?_append_left hlt, afterFirst_snoc (Nat.le_of_lt hlt)]
    simp [Nat.ne_of_lt hlt]
  · rw [List.getElem?_concat_length, afterFirst_snoc (Nat.le_refl _), afterFirst_length,
      List.getElem?_eq_none (Nat.le_refl _)]
    constructor
    · rintro ⟨h, hsucceeds⟩
      cases h
      exact .inr ⟨rfl, rfl, hsucceeds⟩
    · rintro (⟨h, -⟩ | ⟨-, rfl, hsucceeds⟩)
      · cases h
      · exact ⟨rfl, hsucceeds⟩
  · rw [List.getElem?_eq_none (by simp; omega), List.getElem?_eq_none (Nat.le_of_lt hlt)]
    simp [Nat.ne_of_gt hlt]

theorem outstanding_snoc_iff : m.Outstanding (ops ++ [op]) row ↔
    ((m.afterAll ops).Succeeds op ∧ row ∈ m.offered op) ∨
    (m.Outstanding ops row ∧ ¬((m.afterAll ops).Succeeds op ∧ op.Covers row)) := by
  constructor
  · rintro ⟨t, o, hperforms, hoffered, hsince⟩
    rcases performs_snoc_iff.mp hperforms with hearlier | ⟨-, rfl, hsucceeds⟩
    · refine .inr ⟨⟨t, o, hearlier, hoffered, fun u o' hu hperforms' => ?_⟩, ?_⟩
      · exact hsince u o' hu (performs_snoc_iff.mpr (.inl hperforms'))
      · rintro ⟨hsucceeds, hcovers⟩
        have hlast := performs_snoc_iff.mpr (.inr ⟨rfl, rfl, hsucceeds⟩)
        exact hsince ops.length op (lt_of_performs hearlier) hlast hcovers
    · exact .inl ⟨hsucceeds, hoffered⟩
  · rintro (⟨hsucceeds, hoffered⟩ | ⟨⟨t, o, hperforms, hoffered, hsince⟩, hlast⟩)
    · refine ⟨ops.length, op, performs_snoc_iff.mpr (.inr ⟨rfl, rfl, hsucceeds⟩), hoffered, ?_⟩
      intro u o' hu hperforms
      have hlt := lt_of_performs hperforms
      rw [List.length_append, List.length_singleton] at hlt
      omega
    · refine ⟨t, o, performs_snoc_iff.mpr (.inl hperforms), hoffered, fun u o' hu hperforms' => ?_⟩
      rcases performs_snoc_iff.mp hperforms' with hearlier | ⟨-, rfl, hsucceeds⟩
      · exact hsince u o' hu hearlier
      · exact fun hcovers => hlast ⟨hsucceeds, hcovers⟩

/-- A row that stays keeps its place in time. -/
theorem enteredAt_snoc (h : m.EnteredAt ops row t) (hrow : row ∈ (m.afterAll (ops ++ [op])).rows) :
    m.EnteredAt (ops ++ [op]) row t := by
  obtain ⟨hlen, hnot, hsince⟩ := h
  have hlength : (ops ++ [op]).length = ops.length + 1 := by simp
  refine ⟨by omega, ?_, fun u htu hu => ?_⟩
  · rwa [afterFirst_snoc (Nat.le_of_lt hlen)]
  · rcases Nat.lt_or_ge ops.length u with hlt | hle
    · obtain rfl : u = (ops ++ [op]).length := by omega
      rwa [afterFirst_length]
    · rw [afterFirst_snoc hle]
      exact hsince u htu hle

theorem enteredAt_length (hnot : row ∉ (m.afterAll ops).rows)
    (hrow : row ∈ (m.afterAll (ops ++ [op])).rows) :
    m.EnteredAt (ops ++ [op]) row ops.length := by
  have hlength : (ops ++ [op]).length = ops.length + 1 := by simp
  refine ⟨by omega, ?_, fun u hlt hu => ?_⟩
  · rwa [afterFirst_snoc (Nat.le_refl _), afterFirst_length]
  · obtain rfl : u = (ops ++ [op]).length := by omega
    rwa [afterFirst_length]

theorem enteredBefore_snoc (h : m.EnteredBefore ops a b)
    (ha : a ∈ (m.afterAll (ops ++ [op])).rows) (hb : b ∈ (m.afterAll (ops ++ [op])).rows) :
    m.EnteredBefore (ops ++ [op]) a b := by
  obtain ⟨t, u, hat, hbu, horder⟩ := h
  refine ⟨t, u, enteredAt_snoc hat ha, enteredAt_snoc hbu hb, ?_⟩
  rcases horder with hlt | ⟨rfl, o, ho, hlt⟩
  · exact .inl hlt
  · refine .inr ⟨rfl, o, ?_, hlt⟩
    rwa [List.getElem?_append_left hat.1]

end

section

variable {m : Monitor} {ops : List Operation}

theorem mem_rows_iff_outstanding (hm : Reachable m) (hempty : m.rows = []) (row : Row) :
    row ∈ (m.afterAll ops).rows ↔ m.Outstanding ops row := by
  induction ops using List.reverseRecOn with
  | nil =>
    have hnone : ¬m.Outstanding [] row := by
      rintro ⟨t, op, hperforms, -⟩
      cases lt_of_performs hperforms
    simp [afterAll, hempty, hnone]
  | append_singleton ops op ih =>
    have hsound := (reachable_afterAll hm ops).sound
    rw [afterAll_snoc, mem_rows_after_iff hsound, outstanding_snoc_iff, ih,
      offered_congr (model_afterAll m ops)]

theorem exists_enteredAt (hempty : m.rows = []) {row : Row} (hrow : row ∈ (m.afterAll ops).rows) :
    ∃ t, m.EnteredAt ops row t := by
  induction ops using List.reverseRecOn with
  | nil =>
    rw [afterAll, List.foldl_nil, hempty] at hrow
    cases hrow
  | append_singleton ops op ih =>
    by_cases hmem : row ∈ (m.afterAll ops).rows
    · obtain ⟨t, ht⟩ := ih hmem
      exact ⟨t, enteredAt_snoc ht hrow⟩
    · exact ⟨ops.length, enteredAt_length hmem hrow⟩

/-- What is new behind the rows that stay has come in with the last operation. -/
theorem sorted_insert {op : Operation} {kept : Row → Bool} (hempty : m.rows = [])
    (hkept : ∀ row ∈ (m.afterAll ops).rows, row ∈ m.offered op → kept row = true)
    (hrows : (m.afterAll (ops ++ [op])).rows =
      insertNew ((m.afterAll ops).rows.filter kept) (m.offered op))
    (hsorted : (m.afterAll ops).rows.Pairwise (m.EnteredBefore ops)) :
    (m.afterAll (ops ++ [op])).rows.Pairwise (m.EnteredBefore (ops ++ [op])) := by
  obtain ⟨added, heq, hnew, haddedSorted⟩ :=
    insertNew_eq_append ((m.afterAll ops).rows.filter kept) (m.offered op)
  have hstays {row : Row} (hrow : row ∈ (m.afterAll ops).rows.filter kept) :
      row ∈ (m.afterAll (ops ++ [op])).rows := by
    rw [hrows, heq]
    exact List.mem_append_left _ hrow
  have hcomes {row : Row} (hrow : row ∈ added) : row ∈ (m.afterAll (ops ++ [op])).rows := by
    rw [hrows, heq]
    exact List.mem_append_right _ hrow
  have hentered {row : Row} (hrow : row ∈ added) :
      m.EnteredAt (ops ++ [op]) row ops.length := by
    refine enteredAt_length (fun hmem => ?_) (hcomes hrow)
    have hoffered : row ∈ m.offered op := by
      have hin := hcomes hrow
      rw [hrows] at hin
      exact (mem_insertNew.mp hin).resolve_left (hnew row hrow)
    exact hnew row hrow (List.mem_filter.mpr ⟨hmem, hkept row hmem hoffered⟩)
  have hop : (ops ++ [op])[ops.length]? = some op := List.getElem?_concat_length
  rw [hrows, heq, List.pairwise_append]
  refine ⟨?_, ?_, fun a ha b hb => ?_⟩
  · exact (hsorted.filter kept).imp_of_mem fun ha hb h =>
      enteredBefore_snoc h (hstays ha) (hstays hb)
  · exact haddedSorted.imp_of_mem fun ha hb hlt =>
      ⟨ops.length, ops.length, hentered ha, hentered hb, .inr ⟨rfl, op, hop, hlt⟩⟩
  · obtain ⟨t, ht⟩ := exists_enteredAt hempty (List.mem_filter.mp ha).1
    exact ⟨t, ops.length, enteredAt_snoc ht (hstays ha), hentered hb, .inl ht.1⟩

theorem rows_sorted (hm : Reachable m) (hempty : m.rows = []) (ops : List Operation) :
    (m.afterAll ops).rows.Pairwise (m.EnteredBefore ops) := by
  induction ops using List.reverseRecOn with
  | nil =>
    rw [afterAll, List.foldl_nil, hempty]
    exact .nil
  | append_singleton ops op ih =>
    have hsound := (reachable_afterAll hm ops).sound
    have hsnoc := afterAll_snoc m ops op
    rcases after_cases (m.afterAll ops) op with ⟨hsucceeds, -, hrows⟩ | ⟨-, hafter⟩
    · rw [offered_congr (model_afterAll m ops), ← hsnoc] at hrows
      refine sorted_insert hempty (fun row hrow hoffered => ?_) hrows ih
      rw [Bool.not_eq_true', ← Bool.not_eq_true, drops_iff_covers hsound hsucceeds hrow]
      exact not_covers_of_mem_offered hoffered
    · have hsame : m.afterAll (ops ++ [op]) = m.afterAll ops := hsnoc.trans hafter
      have hsorted : (m.afterAll ops).rows.Pairwise (m.EnteredBefore (ops ++ [op])) :=
        ih.imp_of_mem fun ha hb h => enteredBefore_snoc h (hsame ▸ ha) (hsame ▸ hb)
      rwa [← hsame] at hsorted

end

/-- A row is stored if an operation that succeeded has offered it and none since has covered it;
each stored row has come in at one place of the history, and the rows stand in the order in which
they have come in. What is listed for a policy are its rows in that order, and the reply to an
operation tells how many rows it has added or removed. -/
theorem rows_follow_history {setup : Setup} {m : Monitor} (hm : setup.build = .ok m)
    (ops : List Operation) :
    let now := m.afterAll ops
    (∀ row, row ∈ now.rows ↔ m.Outstanding ops row) ∧
    (∀ row ∈ now.rows, ∃! t, m.EnteredAt ops row t) ∧
    now.rows.Pairwise (m.EnteredBefore ops) ∧
    (∀ a b, m.EnteredBefore ops a b → ¬m.EnteredBefore ops b a) ∧
    now.reply .rows = .ok (.rows now.rows) ∧
    (∀ policy, ∃ rows, now.reply (.rowsOf policy) = .ok (.rows rows) ∧ rows.Sublist now.rows ∧
      ∀ row, row ∈ rows ↔ row ∈ now.rows ∧ row.policy = policy) ∧
    ∀ op reply next, (now.perform op).result = .ok (reply, next) →
      op.Reports now.rows.length next.rows.length reply := by
  have hreachable : Reachable m := .built hm
  have hempty := build_rows hm
  intro now
  refine ⟨mem_rows_iff_outstanding hreachable hempty, fun row hrow => ?_,
    rows_sorted hreachable hempty ops, fun a b => enteredBefore_asymm, rfl, fun policy => ?_,
    fun op reply next h => (changes_perform h).1⟩
  · obtain ⟨t, ht⟩ := exists_enteredAt hempty hrow
    exact ⟨t, ht, fun u hu => enteredAt_unique hu ht⟩
  · refine ⟨now.rowsOf policy, rfl, List.filter_sublist, fun row => ?_⟩
    simp [rowsOf]

/-- Of rows that differ only in their effects, in a batch that repeats one, and after a removal of
both and the return of one. -/
theorem rows_follow_history_watched :
    let denial : Row := ⟨"p", ["alice", "deny"], .deny⟩
    let barred : Row := ⟨"q", ["alice"], .deny⟩
    let free : Row := ⟨"q", ["alice"], .allow⟩
    let ops := [.addMany [barred, free, denial, barred], .removeWhere "q" 0 ["alice"],
      .removeWhere "q" 1 ["alice"], .add "q" ["alice"]]
    let now := watched.afterAll ops
    Setup.build ⟨some watchedText, none, 8, none, false, [], []⟩ = .ok watched ∧
    now.rows = [denial, free] ∧ watched.Outstanding ops free ∧ ¬watched.Outstanding ops barred ∧
    watched.EnteredBefore ops denial free := by
  intro denial barred free ops now
  have hbatch : watched.after (.addMany [barred, free, denial, barred]) =
      { watched with rows := [barred, free, denial] } := rfl
  have hremoval : after { watched with rows := [barred, free, denial] }
      (.removeWhere "q" 0 ["alice"]) = { watched with rows := [denial] } := rfl
  have hfailure : after { watched with rows := [denial] }
      (.removeWhere "q" 1 ["alice"]) = { watched with rows := [denial] } := rfl
  have hreturn : after { watched with rows := [denial] } (.add "q" ["alice"]) =
      { watched with rows := [denial, free] } := rfl
  have hnow : now = { watched with rows := [denial, free] } := by
    simp only [now, ops, afterAll, List.foldl_cons, List.foldl_nil, hbatch, hremoval, hfailure,
      hreturn]
  have hrows : now.rows = [denial, free] := by rw [hnow]
  obtain ⟨hmem, -, hsorted, -⟩ := rows_follow_history build_watched ops
  refine ⟨build_watched, hrows, (hmem free).mp ?_, fun hbarred => ?_, ?_⟩
  · change free ∈ now.rows
    simp [hrows]
  · have hin : barred ∈ now.rows := (hmem barred).mpr hbarred
    rw [hrows] at hin
    exact absurd hin (by decide)
  · change now.rows.Pairwise _ at hsorted
    rw [hrows] at hsorted
    exact List.rel_of_pairwise_cons hsorted List.mem_cons_self

end AccessControl.Monitor
