import AccessControl.Monitor.Bounded
import AccessControl.Proofs.Monitor.Action
import AccessControl.Proofs.Monitor.History
import Mathlib.Algebra.GroupWithZero.Nat

namespace AccessControl.Monitor

open Policy

section

variable {m : Monitor} {policy : String} {s : Schema} {index : Nat} {wanted : List String}

theorem drop_congr {covers covers' : Row → Bool} (h : ∀ row ∈ m.rows, covers row = covers' row) :
    m.drop covers = m.drop covers' := by
  have hkept : (m.rows.filter fun row => !covers row) = m.rows.filter fun row => !covers' row := by
    apply List.filter_congr
    intro row hrow
    rw [h row hrow]
  simp only [drop, hkept]

theorem count_drop (m : Monitor) (covers : Row → Bool) :
    (m.drop covers).1 = m.rows.countP covers := by
  have hlen := length_drop m covers
  have hcount := List.length_eq_countP_add_countP covers (l := m.rows)
  simp only [Bool.not_eq_true, Bool.decide_eq_false, List.countP_eq_length_filter] at hcount ⊢
  omega

theorem policy_of_policy? (h : m.model.policy? policy = some s) : m.policy policy = .ok s := by
  rw [Monitor.policy, h]

theorem remove_declared (hs : m.model.policy? policy = some s) (values : List String) :
    m.remove policy values = .ok ((m.drop (Operation.remove policy values).drops).1 != 0,
      (m.drop (Operation.remove policy values).drops).2) := by
  rw [remove, policy_of_policy? hs, Result.ok_bind]
  rfl

theorem removeWhere_beyond (hs : m.model.policy? policy = some s)
    (hstop : s.attrs.length < index + wanted.length) : m.removeWhere policy index wanted =
      .error (.policyArity policy s.attrs.length (min maxIndex (index + wanted.length))) := by
  simp [removeWhere, policy_of_policy? hs, hstop]

theorem removeWhere_inside (hs : m.model.policy? policy = some s)
    (hstop : index + wanted.length ≤ s.attrs.length) : m.removeWhere policy index wanted =
      .ok (m.drop (Operation.removeWhere policy index wanted).drops) := by
  have hnot : ¬s.attrs.length < index + wanted.length := Nat.not_lt.mpr hstop
  simp only [removeWhere, policy_of_policy? hs, Result.ok_bind, hnot, if_false]
  rfl

end

section

variable {values wanted : List String} {index : Nat}

theorem sum?_of_le {a b : Nat} (h : a + b ≤ maxIndex) : sum? a b = some (a + b) :=
  if_pos h

theorem valueFits?_eq {offset : Nat} (want : String) (hlt : index + offset < values.length)
    (hsize : values.length ≤ maxIndex) : valueFits? values index offset want =
      some (want.isEmpty || values[index + offset] == want) := by
  have hsum : sum? index offset = some (index + offset) := sum?_of_le (by omega)
  have hvalue : values[index + offset]? = some values[index + offset] :=
    List.getElem?_eq_getElem hlt
  cases hempty : want.isEmpty with
  | true => simp [valueFits?, hempty]
  | false => simp [valueFits?, hempty, hsum, hvalue]

/-- Within a row there is a value at every place, and every place is a size. -/
theorem valuesFit?_eq {offset : Nat} (hlen : index + offset + wanted.length ≤ values.length)
    (hsize : values.length ≤ maxIndex) :
    valuesFit? values index offset wanted = some (valuesFit values (index + offset) wanted) := by
  induction wanted generalizing offset with
  | nil => simp [valuesFit?, valuesFit]
  | cons want wanted ih =>
    rw [List.length_cons] at hlen
    have hlt : index + offset < values.length := by omega
    have hfirst := valueFits?_eq want hlt hsize
    -- What is left to compare starts one offset further and is one shorter.
    have hrest := @ih (offset + 1) (by omega)
    rw [← Nat.add_assoc] at hrest
    rw [valuesFit_cons hlt, valuesFit?, hfirst]
    cases want.isEmpty || values[index + offset] == want with
    | true => simp [hrest]
    | false => simp

theorem uncovered?_eq {covers? : Row → Option Bool} {covers : Row → Bool} {rows : List Row}
    (h : ∀ row ∈ rows, covers? row = some (covers row)) :
    uncovered? covers? rows = some (rows.filter fun row => !covers row) := by
  induction rows with
  | nil => rfl
  | cons row rows ih =>
    obtain ⟨hrow, hrows⟩ := List.forall_mem_cons.mp h
    have hrest := ih hrows
    cases hcovers : covers row with
    | true => simp [uncovered?, hrow, hrest, hcovers]
    | false => simp [uncovered?, hrow, hrest, hcovers]

end

section

variable {m : Monitor} {policy : String} {s : Schema} {index : Nat} {wanted : List String}

/-- Every row of a policy has as many values as the policy has attributes. -/
theorem Sound.length_values (hm : Sound m) (hs : m.model.policy? policy = some s) {row : Row}
    (hrow : row ∈ m.rows) (hpolicy : row.policy = policy) :
    row.values.length = s.attrs.length := by
  subst hpolicy
  exact (hm.conforms row hrow).length_eq hs

theorem removeWhere?_eq (hm : Sound m) (hs : m.model.policy? policy = some s)
    (hsize : s.attrs.length ≤ maxIndex) :
    m.removeWhere? policy index wanted = some (m.removeWhere policy index wanted) := by
  by_cases hstop : index + wanted.length ≤ s.attrs.length
  · have hsum : sum? index wanted.length = some (index + wanted.length) :=
      sum?_of_le (Nat.le_trans hstop hsize)
    have hcovers : ∀ row ∈ m.rows, covers? policy index wanted row =
        some ((Operation.removeWhere policy index wanted).drops row) := by
      intro row hrow
      by_cases hpolicy : row.policy = policy
      · have hlen := hm.length_values hs hrow hpolicy
        have hfit := @valuesFit?_eq row.values wanted index 0 (by omega) (by omega)
        simp [covers?, Operation.drops, hpolicy, hfit]
      · simp [covers?, Operation.drops, hpolicy]
    rw [removeWhere_inside hs hstop]
    simp [removeWhere?, policy_of_policy? hs, hsum, hstop, uncovered?_eq hcovers, drop]
  · have hlt : s.attrs.length < index + wanted.length := Nat.lt_of_not_le hstop
    rw [removeWhere_beyond hs hlt]
    -- A sum that is no size is beyond the attributes as well, and is told as the largest size.
    by_cases hsum : index + wanted.length ≤ maxIndex
    · simp [removeWhere?, policy_of_policy? hs, sum?_of_le hsum, hstop, Nat.min_eq_right hsum]
    · have hnone : sum? index wanted.length = none := if_neg hsum
      have hmin : min maxIndex (index + wanted.length) = maxIndex := Nat.min_eq_left (by omega)
      simp [removeWhere?, policy_of_policy? hs, hnone, hmin]

end

section

variable {m : Monitor} {policy : String} {s : Schema} {index : Nat} {wanted : List String}

theorem drops_removeWhere_iff (hm : Sound m) (hs : m.model.policy? policy = some s)
    (hstop : index + wanted.length ≤ s.attrs.length) {row : Row} (hrow : row ∈ m.rows) :
    (Operation.removeWhere policy index wanted).drops row = true ↔
      (Operation.removeWhere policy index wanted).Covers row := by
  have hsucceeds : m.Succeeds (.removeWhere policy index wanted) := by
    rw [Succeeds, perform, removeWhere_inside hs hstop]
    exact ⟨_, rfl⟩
  exact drops_iff_covers hm hsucceeds hrow

/-- The rows that are covered are taken and counted; the others stay in their order. -/
theorem removeWhere_covers (hm : Sound m) (hs : m.model.policy? policy = some s)
    (hstop : index + wanted.length ≤ s.attrs.length) :
    ∃ m', m.removeWhere policy index wanted =
        .ok (m.rows.countP ((Operation.removeWhere policy index wanted).Covers ·), m') ∧
      m'.rows = m.rows.filter (¬(Operation.removeWhere policy index wanted).Covers ·) := by
  let covered (row : Row) : Bool :=
    Decidable.decide ((Operation.removeWhere policy index wanted).Covers row)
  have hcovered : ∀ row ∈ m.rows,
      (Operation.removeWhere policy index wanted).drops row = covered row := by
    intro row hrow
    rw [Bool.eq_iff_iff, drops_removeWhere_iff hm hs hstop hrow, decide_eq_true_iff]
  have hcount := count_drop m covered
  have hrows := rows_drop m covered
  refine ⟨(m.drop covered).2, ?_, ?_⟩
  · rw [removeWhere_inside hs hstop, drop_congr hcovered, ← hcount]
  · simpa [covered] using hrows

/-- A row as long as the wanted values fits them, none of them empty, only if it is the same. -/
theorem valuesFit_whole {values : List String} (hlen : values.length = wanted.length)
    (hempty : "" ∉ wanted) : valuesFit values 0 wanted = true ↔ values = wanted := by
  rw [valuesFit_iff (by omega)]
  constructor
  · intro h
    apply List.ext_getElem?
    intro j
    cases hwant : wanted[j]? with
    | none =>
      have hle : wanted.length ≤ j := List.getElem?_eq_none_iff.mp hwant
      exact List.getElem?_eq_none (by omega)
    | some want =>
      have hmem : want ∈ wanted := List.mem_of_getElem? hwant
      have hne : want ≠ "" := fun heq => hempty (heq ▸ hmem)
      have hvalue := (h j want hwant).resolve_left hne
      rwa [Nat.zero_add] at hvalue
  · intro h j want hwant
    right
    rwa [h, Nat.zero_add]

/-- With a wanted value for each attribute, a removal by places is one by values. -/
theorem remove_eq_removeWhere (hm : Sound m) (hs : m.model.policy? policy = some s)
    (hlen : wanted.length = s.attrs.length) (hempty : "" ∉ wanted) :
    m.remove policy wanted =
      (m.removeWhere policy 0 wanted >>= fun r => .ok (r.1 != 0, r.2)) := by
  have hdrop : m.drop (Operation.remove policy wanted).drops =
      m.drop (Operation.removeWhere policy 0 wanted).drops := by
    apply drop_congr
    intro row hrow
    by_cases hpolicy : row.policy = policy
    · have hvalues := hm.length_values hs hrow hpolicy
      have hfit := @valuesFit_whole wanted row.values (by omega) hempty
      simp only [Operation.drops, hpolicy, beq_self_eq_true, Bool.true_and]
      rw [Bool.eq_iff_iff, hfit, beq_iff_eq]
    · have hother : (row.policy == policy) = false := beq_false_of_ne hpolicy
      simp [Operation.drops, hother]
  rw [removeWhere_inside hs (by omega), remove_declared hs, hdrop]
  rfl

/-- A removal by places that reaches beyond the attributes of the policy is refused, however large
its index is, and changes nothing. Any other has a value of each row of the policy to look at for
each of the wanted ones, and it takes the rows with all of these that are not empty, no others, and
counts them. As long as a policy has no more attributes than there are sizes, no sum and no place on
the way is out of bounds. With a wanted value for each attribute it does what a removal by values
does. -/
theorem removeWhere_exact (hm : Reachable m) (hs : m.model.policy? policy = some s) :
    let width := s.attrs.length
    let stop := index + wanted.length
    (width < stop → (Action.removeWhere policy index wanted).run m =
      .error (.policyArity policy width (min (2 ^ 64 - 1) stop)) m) ∧
    (stop ≤ width → (∀ row ∈ m.rows, row.policy = policy → stop ≤ row.values.length) ∧
      ∃ m', (Action.removeWhere policy index wanted).run m =
          .ok (m.rows.countP ((Operation.removeWhere policy index wanted).Covers ·)) m' ∧
        m'.rows = m.rows.filter (¬(Operation.removeWhere policy index wanted).Covers ·)) ∧
    (width < 2 ^ 64 →
      m.removeWhere? policy index wanted = some (m.removeWhere policy index wanted)) ∧
    (wanted.length = width → "" ∉ wanted → (Action.remove policy wanted).run m =
      (do return (← Action.removeWhere policy 0 wanted) != 0 : Action Bool).run m) := by
  intro width stop
  have hsound := hm.sound
  refine ⟨?_, ?_, ?_, ?_⟩
  · intro hstop
    rw [run_removeWhere, removeWhere_beyond hs hstop]
    rfl
  · intro hstop
    refine ⟨?_, ?_⟩
    · intro row hrow hpolicy
      rw [hsound.length_values hs hrow hpolicy]
      exact hstop
    · obtain ⟨m', hremove, hrows⟩ := removeWhere_covers hsound hs hstop
      refine ⟨m', ?_, hrows⟩
      rw [run_removeWhere, hremove]
      rfl
  · intro hsize
    exact removeWhere?_eq hsound hs (Nat.le_pred_of_lt hsize)
  · intro hlen hempty
    rw [run_remove, remove_eq_removeWhere hsound hs hlen hempty]
    exact (run_map_of_settle (run_removeWhere m policy 0 wanted) (· != 0)).symm

end

/-- With an index that leaves room for no sum, a wildcard, and a row of another policy that has the
wanted value. -/
theorem removeWhere_exact_watched :
    let denial : Row := ⟨"p", ["alice", "deny"], .deny⟩
    let grant : Row := ⟨"p", ["bob", "allow"], .allow⟩
    let barred : Row := ⟨"q", ["deny"], .deny⟩
    let m := watched.after (.addMany [denial, grant, barred])
    Reachable m ∧ m.model.policy? "p" = some ⟨"p", ["sub", "eft"]⟩ ∧
    (Action.removeWhere "p" (2 ^ 64 - 1) ["deny"]).run m =
      .error (.policyArity "p" 2 (2 ^ 64 - 1)) m ∧
    (∃ m', (Action.removeWhere "p" 0 ["", "deny"]).run m = .ok 1 m' ∧ m'.rows = [grant, barred]) ∧
    m.removeWhere? "p" 1 ["deny"] = some (m.removeWhere "p" 1 ["deny"]) ∧
    (Action.remove "p" ["alice", "deny"]).run m =
      (do return (← Action.removeWhere "p" 0 ["alice", "deny"]) != 0 : Action Bool).run m := by
  intro denial grant barred m
  have hm : Reachable m := (Reachable.built build_watched).after _
  have hs : m.model.policy? "p" = some ⟨"p", ["sub", "eft"]⟩ := rfl
  have hrows : m.rows = [denial, grant, barred] := rfl
  obtain ⟨hbeyond, -⟩ := @removeWhere_exact m "p" _ (2 ^ 64 - 1) ["deny"] hm hs
  obtain ⟨-, hinside, -⟩ := @removeWhere_exact m "p" _ 0 ["", "deny"] hm hs
  obtain ⟨-, -, hbounded, -⟩ := @removeWhere_exact m "p" _ 1 ["deny"] hm hs
  obtain ⟨-, -, -, hwhole⟩ := @removeWhere_exact m "p" _ 0 ["alice", "deny"] hm hs
  obtain ⟨-, m', hrun, hleft⟩ := hinside (by decide)
  rw [hrows] at hrun hleft
  exact ⟨hm, hs, hbeyond (by decide), ⟨m', hrun, hleft⟩, hbounded (by decide),
    hwhole rfl (by decide)⟩

section

variable {m m' : Monitor} {policy : String} {values : List String}

/-- A row that is added was not there before. -/
theorem new_of_add (h : m.add policy values = .ok (true, m')) : ∃ new,
    m.asStored ⟨policy, values, .allow⟩ = .ok new ∧ new ∉ m.rows ∧
      m' = m.withRows (m.rows ++ [new]) := by
  obtain ⟨new, hstored, h⟩ := Result.bind_eq_ok_iff.mp h
  by_cases hnew : new ∈ m.rows
  · simp [hnew] at h
  · simp only [List.contains_iff_mem, hnew, if_false] at h
    cases h
    exact ⟨new, hstored, hnew, rfl⟩

theorem drops_new {new : Row} (h : m.asStored ⟨policy, values, .allow⟩ = .ok new) :
    (Operation.remove policy values).drops new = true := by
  obtain ⟨-, -, hkeeps, -⟩ := asStored_cases h
  rw [hkeeps]
  simp [Operation.drops]

/-- Where the values of a new row are stored already, they are so in a denial, and nothing among
them tells the effect. -/
theorem denial_of_new {new row : Row} (hm : Sound m)
    (hstored : m.asStored ⟨policy, values, .allow⟩ = .ok new) (hnew : new ∉ m.rows)
    (hrow : row ∈ m.rows) (hpolicy : row.policy = policy) (hvalues : row.values = values) :
    row = ⟨policy, values, .deny⟩ ∧
      ∀ s, m.model.policy? policy = some s → s.effectIndex? = none := by
  obtain ⟨s, hs, hkeeps, hgiven⟩ := asStored_cases hstored
  have hne : row.effect ≠ new.effect := by
    intro heq
    apply hnew
    rw [hkeeps, ← hpolicy, ← hvalues, ← heq]
    exact hrow
  have hnone : s.effectIndex? = none := by
    cases hi : s.effectIndex? with
    | none => rfl
    | some i =>
      -- Both effects would be read off the same value.
      have hs' : m.model.policy? new.policy = some s := by rw [hkeeps]; exact hs
      have hpolicy' : row.policy = new.policy := by rw [hkeeps]; exact hpolicy
      have hvalues' : row.values = new.values := by rw [hkeeps]; exact hvalues
      have heq := (conforms_of_asStored hstored).effect_eq (hm.conforms row hrow) hs' hi hpolicy'
        hvalues'
      exact absurd heq hne
  have hallow : new.effect = .allow := by rw [hgiven hnone]
  have hdeny : row.effect = .deny := by
    cases heffect : row.effect with
    | deny => rfl
    | allow => exact absurd (heffect.trans hallow.symm) hne
  refine ⟨?_, ?_⟩
  · rw [← hpolicy, ← hvalues, ← hdeny]
  · intro t ht
    cases hs.symm.trans ht
    exact hnone

theorem drop_of_mem {covers : Row → Bool} {row : Row} (hrow : row ∈ m.rows)
    (hcovers : covers row = true) : (m.drop covers).1 ≠ 0 ∧
      (m.drop covers).2 = m.withRows (m.rows.filter fun row => !covers row) := by
  have hpos : 0 < m.rows.countP covers := List.countP_pos_iff.mpr ⟨row, hrow, hcovers⟩
  have hcount := count_drop m covers
  have hne : (m.drop covers).1 ≠ 0 := by omega
  refine ⟨hne, ?_⟩
  simp only [drop] at hne ⊢
  rw [if_neg hne]

/-- What is left of the rows and a new one behind them. -/
theorem filter_of_new {new : Row} (hm : Sound m)
    (hstored : m.asStored ⟨policy, values, .allow⟩ = .ok new) (hnew : new ∉ m.rows) :
    ((m.rows ++ [new]).filter fun row => !(Operation.remove policy values).drops row) =
      m.rows.erase ⟨policy, values, .deny⟩ := by
  have hlast : ([new].filter fun row => !(Operation.remove policy values).drops row) = [] := by
    simp [drops_new hstored]
  rw [List.filter_append, hlast, List.append_nil, hm.nodup.erase_eq_filter]
  apply List.filter_congr
  intro row hrow
  -- Of the rows that are stored, none but the denial has the policy and the values of the new one.
  by_cases hsame : row.policy = policy ∧ row.values = values
  · obtain ⟨hdenial, -⟩ := denial_of_new hm hstored hnew hrow hsame.1 hsame.2
    simp [Operation.drops, hdenial]
  · have hother : row ≠ ⟨policy, values, .deny⟩ := by
      intro heq
      subst heq
      exact hsame ⟨rfl, rfl⟩
    have hkept : (Operation.remove policy values).drops row = false := by
      simpa [Operation.drops] using hsame
    simp [hkept, hother]

theorem remove_of_add (hm : Sound m) (h : m.add policy values = .ok (true, m')) :
    m'.remove policy values = .ok (true, m.withRows (m.rows.erase ⟨policy, values, .deny⟩)) := by
  obtain ⟨new, hstored, hnew, rfl⟩ := new_of_add h
  obtain ⟨s, hs, -⟩ := asStored_cases hstored
  have hmem : new ∈ (m.withRows (m.rows ++ [new])).rows :=
    List.mem_append_right _ List.mem_cons_self
  have hdeclared : (m.withRows (m.rows ++ [new])).model.policy? policy = some s := hs
  have hrows : (m.withRows (m.rows ++ [new])).rows = m.rows ++ [new] := rfl
  obtain ⟨hne, hleft⟩ := drop_of_mem hmem (drops_new hstored)
  rw [withRows_withRows, hrows, filter_of_new hm hstored hnew] at hleft
  rw [remove_declared hdeclared, hleft, bne_iff_ne.mpr hne]

/-- A row that was added can be removed at once, and what is left are the rows from before, in their
order, but for a denial with the same values. There is none where the values tell the effect. -/
theorem remove_undoes_add (hm : Reachable m)
    (hadd : (Action.add policy values).run m = .ok true m') :
    let denial : Row := ⟨policy, values, .deny⟩
    ∃ m'', (Action.remove policy values).run m' = .ok true m'' ∧
      m''.rows = m.rows.erase denial ∧ (m''.rows = m.rows ↔ denial ∉ m.rows) ∧
      ∀ s, m.model.policy? policy = some s → s.effectIndex? ≠ none → m''.rows = m.rows := by
  intro denial
  have hsound := hm.sound
  rw [run_add, settle_eq_ok_iff] at hadd
  have hremove := remove_of_add hsound hadd
  obtain ⟨new, hstored, hnew, -⟩ := new_of_add hadd
  refine ⟨m.withRows (m.rows.erase denial), ?_, rfl, List.erase_eq_self_iff, ?_⟩
  · rw [run_remove, hremove]
    rfl
  · intro s hs heffect
    apply List.erase_of_not_mem
    intro hmem
    obtain ⟨-, hnone⟩ := denial_of_new hsound hstored hnew hmem rfl rfl
    exact heffect (hnone s hs)

/-- A denial that no value tells of, under an addition and its removal. -/
theorem remove_undoes_add_watched :
    let denial : Row := ⟨"q", ["alice"], .deny⟩
    let other : Row := ⟨"q", ["bob"], .deny⟩
    let m := watched.after (.addMany [denial, other])
    let m' := watched.after (.addMany [denial, other, { denial with effect := .allow }])
    Reachable m ∧ (Action.add "q" ["alice"]).run m = .ok true m' ∧
    ∃ m'', (Action.remove "q" ["alice"]).run m' = .ok true m'' ∧ m''.rows = [other] := by
  intro denial other m m'
  have hm : Reachable m := (Reachable.built build_watched).after _
  have hrows : m.rows = [denial, other] := rfl
  have hadd : (Action.add "q" ["alice"]).run m = .ok true m' := by
    rw [run_add, settle_eq_ok_iff]
    rfl
  obtain ⟨m'', hremove, hleft, -⟩ := remove_undoes_add hm hadd
  rw [hrows] at hleft
  exact ⟨hm, hadd, m'', hremove, hleft⟩

/-- The addition brings in a row beside one that denies; the removal of its values takes both. -/
theorem remove_takes_denial :
    let denial : Row := ⟨"q", ["alice"], .deny⟩
    let m := watched.after (.addMany [denial])
    Reachable m ∧ m.rows = [denial] ∧ ∃ m' m'', (Action.add "q" ["alice"]).run m = .ok true m' ∧
      (Action.remove "q" ["alice"]).run m' = .ok true m'' ∧ m''.rows = [] ∧
      m''.rows ≠ m.rows := by
  intro denial m
  have hm : Reachable m := (Reachable.built build_watched).after _
  have hrows : m.rows = [denial] := rfl
  refine ⟨hm, hrows, { watched with rows := [denial, { denial with effect := .allow }] },
    { watched with rows := [] }, ?_, ?_, rfl, ?_⟩
  · rw [run_add, settle_eq_ok_iff]
    rfl
  · rw [run_remove, settle_eq_ok_iff]
    rfl
  · rw [hrows]
    exact (List.cons_ne_nil _ _).symm

end

end AccessControl.Monitor
