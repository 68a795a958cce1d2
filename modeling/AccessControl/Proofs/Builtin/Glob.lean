import AccessControl.Proofs.Builtin.Wildcard
import AccessControl.Proofs.Sequence
import Mathlib.Data.List.Induction

namespace AccessControl.Builtin.Glob

/-- The names of a path that one name of a pattern can stand for: any number of them if it is `**`,
and just one that it fits otherwise. -/
def Takes (word : List Char) (run : List (List Char)) : Prop :=
  word = ['*', '*'] ∨ ∃ name, run = [name] ∧ Fits word name

/-- The names of a pattern stand for runs of names that make up the path. -/
def Covers (pattern path : List (List Char)) : Prop :=
  ∃ runs, List.Forall₂ Takes pattern runs ∧ runs.flatten = path

section

variable {pattern path : List (List Char)} {word name : List Char}

theorem covers_nil_iff : Covers [] path ↔ path = [] := by
  constructor
  · rintro ⟨runs, hruns, rfl⟩
    cases hruns
    rfl
  · rintro rfl
    exact ⟨[], .nil, rfl⟩

theorem covers_snoc_iff : Covers (pattern ++ [word]) path ↔
    ∃ front run, path = front ++ run ∧ Covers pattern front ∧ Takes word run := by
  constructor
  · rintro ⟨runs, hruns, rfl⟩
    obtain ⟨fronts, last, rfl, hfronts, hlast⟩ := Sequence.exists_append_of_forall₂ hruns
    obtain _ | ⟨hrun, _ | _⟩ := hlast
    exact ⟨fronts.flatten, _, by simp, ⟨fronts, hfronts, rfl⟩, hrun⟩
  · rintro ⟨_, run, rfl, ⟨runs, hruns, rfl⟩, hrun⟩
    exact ⟨runs ++ [run], List.rel_append hruns (.cons hrun .nil), by simp⟩

/-- With `**` behind it, a pattern covers what it covers at first and anything further. -/
theorem covers_snoc_stars_iff {j : Nat} : Covers (pattern ++ [['*', '*']]) (path.take j) ↔
    ∃ i ≤ j, Covers pattern (path.take i) := by
  rw [covers_snoc_iff]
  constructor
  · rintro ⟨front, run, hsplit, hfront, -⟩
    refine ⟨min front.length j, Nat.min_le_right _ _, ?_⟩
    rwa [← List.take_take, hsplit, List.take_left]
  · rintro ⟨i, hij, hi⟩
    refine ⟨path.take i, (path.take j).drop i, ?_, hi, .inl rfl⟩
    have htake : path.take i = (path.take j).take i := by rw [List.take_take, Nat.min_eq_left hij]
    rw [htake, List.take_append_drop]

/-- Any other name takes the last name of the path. -/
theorem covers_snoc_name_iff (hword : word ≠ ['*', '*']) :
    Covers (pattern ++ [word]) (path ++ [name]) ↔ Covers pattern path ∧ Fits word name := by
  rw [covers_snoc_iff]
  constructor
  · rintro ⟨front, run, hsplit, hfront, hstars | ⟨last, rfl, hlast⟩⟩
    · exact absurd hstars hword
    · obtain ⟨rfl, hname⟩ := List.append_inj' hsplit rfl
      cases hname
      exact ⟨hfront, hlast⟩
  · rintro ⟨hpath, hname⟩
    exact ⟨path, [name], rfl, hpath, .inr ⟨name, rfl, hname⟩⟩

theorem not_covers_snoc_nil (hword : word ≠ ['*', '*']) : ¬Covers (pattern ++ [word]) [] := by
  rw [covers_snoc_iff]
  rintro ⟨front, run, hsplit, -, hstars | ⟨last, rfl, -⟩⟩
  · exact hword hstars
  · simp at hsplit

end

/-- Entry `j` of the chart says whether the pattern covers the first `j` names of the path. -/
def Charts (pattern path : List (List Char)) (accepted : List Bool) : Prop :=
  accepted.length = path.length + 1 ∧
  ∀ j ≤ path.length, accepted[j]? = some true ↔ Covers pattern (path.take j)

theorem length_spread (seen : Bool) (bs : List Bool) : (spread seen bs).length = bs.length := by
  induction bs generalizing seen with
  | nil => rfl
  | cons b bs ih => simp [spread, ih]

/-- An entry holds if one up to it did. -/
theorem spread_getElem? {seen : Bool} {bs : List Bool} {j : Nat} (hj : j < bs.length) :
    (spread seen bs)[j]? = some true ↔ seen = true ∨ ∃ i ≤ j, bs[i]? = some true := by
  induction bs generalizing seen j with
  | nil => simp at hj
  | cons b bs ih =>
    cases j with
    | zero => simp [spread]
    | succ j =>
      rw [spread, List.getElem?_cons_succ, ih (by simpa using hj), Bool.or_eq_true, or_assoc]
      refine or_congr_right ?_
      constructor
      · rintro (hb | ⟨i, hi, h⟩)
        · exact ⟨0, Nat.zero_le _, by simp [hb]⟩
        · exact ⟨i + 1, Nat.succ_le_succ hi, h⟩
      · rintro ⟨_ | i, hi, h⟩
        · exact .inl (by simpa using h)
        · exact .inr ⟨i, Nat.le_of_succ_le_succ hi, h⟩

section

variable {pattern path : List (List Char)} {word : List Char} {accepted : List Bool}

theorem charts_nil (path : List (List Char)) :
    Charts [] path (true :: path.map fun _ => false) := by
  refine ⟨by simp, fun j hj => ?_⟩
  rw [covers_nil_iff, List.take_eq_nil_iff]
  cases j with
  | zero => simp
  | succ j =>
    have hne : path ≠ [] := by
      rintro rfl
      simp at hj
    simp [hne, List.getElem?_replicate]

theorem charts_extend_stars (h : Charts pattern path accepted) :
    Charts (pattern ++ [['*', '*']]) path (spread false accepted) := by
  obtain ⟨hlen, hentry⟩ := h
  refine ⟨(length_spread false accepted).trans hlen, fun j hj => ?_⟩
  rw [spread_getElem? (by omega), covers_snoc_stars_iff]
  simp only [Bool.false_eq_true, false_or]
  exact exists_congr fun i => and_congr_right fun hi => hentry i (Nat.le_trans hi hj)

theorem charts_extend_name (hword : word ≠ ['*', '*']) (h : Charts pattern path accepted) :
    Charts (pattern ++ [word]) path
      (false :: List.zipWith (fun b next => b && nameFits word next) accepted path) := by
  obtain ⟨hlen, hentry⟩ := h
  refine ⟨by simp [hlen], fun j hj => ?_⟩
  cases j with
  | zero => simp [not_covers_snoc_nil hword]
  | succ j =>
    have hlt : j < path.length := hj
    have hj' := hentry j (Nat.le_of_lt hlt)
    rw [List.take_succ_eq_append_getElem hlt, covers_snoc_name_iff hword, ← hj', ← nameFits_iff,
      List.getElem?_cons_succ, List.getElem?_zipWith, List.getElem?_eq_getElem hlt]
    cases accepted[j]? <;> simp

/-- A pattern with one name more has its chart from that of the pattern. -/
theorem charts_extend (word : List Char) (h : Charts pattern path accepted) :
    Charts (pattern ++ [word]) path (extend path accepted word) := by
  rw [extend]
  split
  · next hword =>
    subst hword
    exact charts_extend_stars h
  · next hword => exact charts_extend_name hword h

theorem charts_foldl (pattern path : List (List Char)) :
    Charts pattern path (pattern.foldl (extend path) (true :: path.map fun _ => false)) := by
  induction pattern using List.reverseRecOn with
  | nil => exact charts_nil path
  | append_singleton pattern word ih =>
    rw [List.foldl_append]
    exact charts_extend word ih

/-- The last entry is about the path as a whole. -/
theorem getLast?_of_charts (h : Charts pattern path accepted) :
    accepted.getLast?.getD false = true ↔ Covers pattern path := by
  obtain ⟨hlen, hentry⟩ := h
  have hlast := hentry path.length (Nat.le_refl _)
  rw [List.take_length] at hlast
  rw [← hlast, List.getLast?_eq_getElem?, hlen, Nat.add_sub_cancel]
  cases accepted[path.length]? <;> simp

end

/-- A path is accepted if its names are made up of runs, one for each name of the pattern and in
their order: of any length for `**`, and of one name that fits for every other name. -/
theorem accepts_iff_covers (pattern path : List Char) :
    accepts pattern path = true ↔ Covers (names pattern) (names path) :=
  getLast?_of_charts (charts_foldl (names pattern) (names path))

/-- Two stars stand for no name as well as for many, but only if they are all of a name. -/
example : accepts "/a/**/**/b".toList "/a/b".toList = true ∧
    accepts "/a/**/b".toList "/a/x/../y/z/b".toList = true ∧
    accepts "/a/x**".toList "/a/x/y".toList = false := by decide

end AccessControl.Builtin.Glob
