import AccessControl.Monitor.RecentDecisions
import AccessControl.Proofs.Sequence
import Mathlib.Data.Set.Card
import Mathlib.Data.List.Induction

namespace AccessControl.RecentDecisions

/-- What is asked of a memory. -/
inductive Access
  | find (request : List String)
  | insert (request : List String) (b : Bool)
  | clear

def access (d : RecentDecisions) : Access → RecentDecisions
  | .find request => (d.find request).2
  | .insert request b => d.insert request b
  | .clear => d.clear

/-- The memory behind a history of accesses, the earliest of which comes first. -/
def after (capacity : Nat) (history : List Access) : RecentDecisions :=
  history.foldl access (.empty capacity)

/-- An access uses a request if it inserts a decision on it, or looks for one and finds it. -/
def Uses (d : RecentDecisions) (request : List String) : Access → Prop
  | .find r => r = request ∧ (d.find r).1.isSome
  | .insert r _ => r = request
  | .clear => False

/-- The access at place `i` of a history uses the request. -/
def UsedAt (capacity : Nat) (history : List Access) (i : Nat) (request : List String) : Prop :=
  ∃ a, history[i]? = some a ∧ (after capacity (history.take i)).Uses request a

/-- The requests that are used behind place `i` of a history. -/
def usedSince (capacity : Nat) (history : List Access) (i : Nat) : Set (List String) :=
  {request | ∃ j, i < j ∧ UsedAt capacity history j request}

/-- A decision on the request was inserted since the memory was last cleared, and `b` was the last
one. -/
def InsertedLast (history : List Access) (request : List String) (b : Bool) : Prop :=
  ∃ front back, history = front ++ .insert request b :: back ∧
    ∀ a ∈ back, a ≠ .clear ∧ ∀ b', a ≠ .insert request b'

section

variable {capacity i : Nat} {history : List Access} {a : Access} {request : List String} {b : Bool}

theorem after_snoc (capacity : Nat) (history : List Access) (a : Access) :
    after capacity (history ++ [a]) = (after capacity history).access a := by
  rw [after, List.foldl_append]
  rfl

theorem capacity_after (capacity : Nat) (history : List Access) :
    (after capacity history).capacity = max capacity 1 := by
  induction history using List.reverseRecOn with
  | nil => rfl
  | append_singleton history a ih =>
    rw [after_snoc, ← ih]
    cases a with
    | find request =>
      rw [access, find]
      split <;> rfl
    | insert | clear => rfl

theorem capacity_pos (capacity : Nat) (history : List Access) :
    0 < (after capacity history).capacity := by
  rw [capacity_after]
  omega

theorem usedAt_lt (h : UsedAt capacity history i request) : i < history.length := by
  obtain ⟨a, ha, -⟩ := h
  exact (List.getElem?_eq_some_iff.mp ha).1

theorem usedAt_snoc : UsedAt capacity (history ++ [a]) i request ↔
    UsedAt capacity history i request ∨
      i = history.length ∧ (after capacity history).Uses request a := by
  rcases Nat.lt_trichotomy i history.length with hlt | rfl | hlt
  · rw [UsedAt, List.getElem?_append_left hlt, List.take_append_of_le_length hlt.le]
    simp [UsedAt, hlt.ne]
  · have hnone : ¬UsedAt capacity history history.length request := fun h =>
      Nat.lt_irrefl _ (usedAt_lt h)
    rw [UsedAt, List.getElem?_concat_length, List.take_left]
    simp [hnone]
  · have hnone : ¬UsedAt capacity history i request := fun h => Nat.lt_asymm hlt (usedAt_lt h)
    have hnone' : ¬UsedAt capacity (history ++ [a]) i request := fun h => by
      have hi := usedAt_lt h
      rw [List.length_append, List.length_singleton] at hi
      omega
    simp [hnone, hnone', hlt.ne']

theorem insertedLast_snoc : InsertedLast (history ++ [a]) request b ↔
    a = .insert request b ∨
      (a ≠ .clear ∧ ∀ b', a ≠ .insert request b') ∧ InsertedLast history request b := by
  constructor
  · rintro ⟨front, back, hsplit, hback⟩
    rcases List.eq_nil_or_concat back with rfl | ⟨back, a', rfl⟩
    · obtain ⟨-, ha⟩ := List.append_inj' hsplit rfl
      exact .inl (List.cons.inj ha).1
    · rw [List.concat_eq_append, ← List.cons_append, ← List.append_assoc] at hsplit
      obtain ⟨rfl, ha⟩ := List.append_inj' hsplit rfl
      obtain rfl := (List.cons.inj ha).1
      rw [List.concat_eq_append, List.forall_mem_append] at hback
      exact .inr ⟨hback.2 a List.mem_cons_self, front, back, rfl, hback.1⟩
  · rintro (rfl | ⟨ha, front, back, rfl, hback⟩)
    · exact ⟨history, [], rfl, fun _ h => nomatch h⟩
    · refine ⟨front, back ++ [a], by simp, List.forall_mem_append.mpr ⟨hback, ?_⟩⟩
      exact List.forall_mem_singleton.mpr ha

theorem insertedLast_snoc_find {r : List String} :
    InsertedLast (history ++ [.find r]) request b ↔ InsertedLast history request b := by
  simp [insertedLast_snoc]

theorem insertedLast_snoc_insert {r : List String} {c : Bool} :
    InsertedLast (history ++ [.insert r c]) request b ↔
      request = r ∧ b = c ∨ request ≠ r ∧ InsertedLast history request b := by
  rw [insertedLast_snoc]
  by_cases h : r = request <;> simp [h, eq_comm]

end

/-- The requests on which decisions were inserted since the last clearing, each with the last of
them. The request used last comes first. -/
structure Ranked (capacity : Nat) (history : List Access) (ranking : List (List String × Bool)) :
    Prop where
  distinct : (ranking.map (·.1)).Nodup
  inserted : ∀ request b, InsertedLast history request b ↔ (request, b) ∈ ranking
  since : ∀ front entry back, ranking = front ++ entry :: back → ∃ i,
    UsedAt capacity history i entry.1 ∧
      usedSince capacity history i = {request | request ∈ front.map (·.1)}

/-- Puts a request in front of all others. -/
def toFront (request : List String) (b : Bool) (ranking : List (List String × Bool)) :
    List (List String × Bool) :=
  (request, b) :: ranking.filter fun entry => entry.1 != request

theorem mem_toFront {request r : List String} {b c : Bool} {ranking : List (List String × Bool)} :
    (r, c) ∈ toFront request b ranking ↔
      r = request ∧ c = b ∨ r ≠ request ∧ (r, c) ∈ ranking := by
  simp [toFront, and_comm]

section

variable {capacity : Nat} {history : List Access} {ranking : List (List String × Bool)}
  {a : Access} {request : List String} {b : Bool}

theorem ranked_nil (capacity : Nat) : Ranked capacity [] [] where
  distinct := List.nodup_nil
  inserted request b := by simp [InsertedLast]
  since front entry back h := by simp at h

theorem usedSince_snoc {i : Nat} (hi : i < history.length) :
    usedSince capacity (history ++ [a]) i = usedSince capacity history i ∪
      {request | (after capacity history).Uses request a} := by
  ext request
  simp only [usedSince, usedAt_snoc, Set.mem_ofPred_eq, Set.mem_union]
  constructor
  · rintro ⟨j, hj, hused | ⟨-, huses⟩⟩
    · exact .inl ⟨j, hj, hused⟩
    · exact .inr huses
  · rintro (⟨j, hj, hused⟩ | huses)
    · exact ⟨j, hj, .inl hused⟩
    · exact ⟨_, hi, .inr ⟨rfl, huses⟩⟩

theorem usedSince_last : usedSince capacity (history ++ [a]) history.length = ∅ := by
  ext request
  simp only [usedSince, Set.mem_ofPred_eq, Set.mem_empty_iff_false, iff_false]
  rintro ⟨j, hj, hused⟩
  have hlt := usedAt_lt hused
  rw [List.length_append, List.length_singleton] at hlt
  omega

theorem Ranked.unique (h : Ranked capacity history ranking) {c : Bool}
    (hb : (request, b) ∈ ranking) (hc : (request, c) ∈ ranking) : c = b :=
  congrArg Prod.snd (List.inj_on_of_nodup_map h.distinct hc hb rfl)

/-- An access that uses no request and inserts nothing leaves the order as it is. -/
theorem Ranked.unused (h : Ranked capacity history ranking)
    (huses : ∀ r, ¬(after capacity history).Uses r a)
    (hinserted : ∀ r c, InsertedLast (history ++ [a]) r c ↔ InsertedLast history r c) :
    Ranked capacity (history ++ [a]) ranking where
  distinct := h.distinct
  inserted r c := (hinserted r c).trans (h.inserted r c)
  since front entry back hsplit := by
    obtain ⟨i, hused, hsince⟩ := h.since front entry back hsplit
    refine ⟨i, usedAt_snoc.mpr (.inl hused), ?_⟩
    rw [usedSince_snoc (usedAt_lt hused), hsince]
    simp [huses]

/-- An access that uses a request puts it in front. -/
theorem Ranked.used (h : Ranked capacity history ranking)
    (huses : ∀ r, (after capacity history).Uses r a ↔ r = request)
    (hinserted : ∀ r c, InsertedLast (history ++ [a]) r c ↔
      r = request ∧ c = b ∨ r ≠ request ∧ InsertedLast history r c) :
    Ranked capacity (history ++ [a]) (toFront request b ranking) where
  distinct := by
    refine List.nodup_cons.mpr ⟨by simp, ?_⟩
    exact (List.filter_sublist.map _).nodup h.distinct
  inserted r c := by rw [hinserted, mem_toFront, h.inserted]
  since front entry back hsplit := by
    cases front with
    | nil =>
      obtain ⟨rfl, -⟩ := List.cons.inj hsplit
      refine ⟨history.length, usedAt_snoc.mpr (.inr ⟨rfl, (huses _).mpr rfl⟩), ?_⟩
      rw [usedSince_last]
      simp
    | cons first front =>
      obtain ⟨rfl, hrest⟩ := List.cons.inj hsplit
      obtain ⟨front', back', hranking, rfl⟩ := Sequence.exists_append_of_filter_eq hrest
      obtain ⟨i, hused, hsince⟩ := h.since front' entry back' hranking
      refine ⟨i, usedAt_snoc.mpr (.inl hused), ?_⟩
      rw [usedSince_snoc (usedAt_lt hused), hsince]
      ext r
      by_cases hr : r = request <;> simp [huses, hr]

theorem Ranked.cleared : Ranked capacity (history ++ [.clear]) [] where
  distinct := List.nodup_nil
  inserted r c := by simp [insertedLast_snoc]
  since front entry back h := by simp at h

end

/-- The memory is the front of an order of last use. -/
def Holds (d : RecentDecisions) (ranking : List (List String × Bool)) : Prop :=
  d.entries = ranking.take d.capacity

section

variable {d : RecentDecisions} {ranking : List (List String × Bool)} {request : List String}
  {b : Bool}

theorem Holds.distinct (h : d.Holds ranking) (hdistinct : (ranking.map (·.1)).Nodup) :
    (d.entries.map (·.1)).Nodup := by
  rw [h]
  exact ((List.take_sublist _ _).map _).nodup hdistinct

theorem find_iff (h : (d.entries.map (·.1)).Nodup) :
    (d.find request).1 = some b ↔ (request, b) ∈ d.entries := by
  rw [← Sequence.lookup_eq_some_iff_of_nodup h, find]
  cases d.entries.lookup request <;> simp

/-- Inserting a decision on one request does not bring one on another. -/
theorem find_insert_of_ne {other : List String} {c : Bool} (h : (d.entries.map (·.1)).Nodup)
    (hne : request ≠ other) (hfind : ((d.insert other c).find request).1 = some b) :
    (d.find request).1 = some b := by
  obtain ⟨hmem, -⟩ := mem_of_find (Prod.ext hfind rfl)
  rcases mem_insert hmem with heq | hmem
  · exact absurd (congrArg Prod.fst heq) hne
  · exact (find_iff h).mpr hmem

theorem find_of_none (h : (d.find request).1 = none) : (d.find request).2 = d := by
  unfold find at h ⊢
  split at h
  · cases h
  · rfl

/-- Finding a decision is as good as inserting it once more. -/
theorem find_of_some (h : d.Holds ranking) (hfind : (d.find request).1 = some b) :
    (d.find request).2 = d.insert request b := by
  unfold find at hfind ⊢
  split at hfind
  · next c hlookup =>
    cases hfind
    obtain ⟨front, back, hentries, -⟩ := List.lookup_eq_some_iff.mp hlookup
    have hothers : (d.others request).length < d.entries.length :=
      List.length_filter_lt_length_iff_exists.mpr ⟨(request, b), by simp [hentries], by simp⟩
    have hsize : d.entries.length ≤ d.capacity := by
      rw [h]
      exact List.length_take_le _ _
    have hroom : ((request, b) :: d.others request).length ≤ d.capacity := by
      rw [List.length_cons]
      omega
    rw [insert, List.take_of_length_le hroom]
  · cases hfind

theorem holds_insert (h : d.Holds ranking) (hdistinct : (ranking.map (·.1)).Nodup)
    (hcapacity : 0 < d.capacity) : (d.insert request b).Holds (toFront request b ranking) := by
  obtain ⟨n, hn⟩ := Nat.exists_eq_add_one.mpr hcapacity
  rw [Holds] at h
  rw [Holds, insert, others, h, hn, toFront, List.take_succ_cons, List.take_succ_cons,
    Sequence.take_filter_take hdistinct]

end

/-- There is an order of last use of which the memory is the front. -/
def InOrder (capacity : Nat) (history : List Access) : Prop :=
  ∃ ranking, Ranked capacity history ranking ∧ (after capacity history).Holds ranking

section

variable {capacity : Nat} {history : List Access}

theorem inOrder_insert (h : InOrder capacity history) (request : List String) (b : Bool) :
    InOrder capacity (history ++ [.insert request b]) := by
  obtain ⟨ranking, hranked, hholds⟩ := h
  refine ⟨toFront request b ranking,
    hranked.used (fun r => eq_comm) fun r c => insertedLast_snoc_insert, ?_⟩
  rw [after_snoc]
  exact holds_insert hholds hranked.distinct (capacity_pos capacity history)

theorem inOrder_find (h : InOrder capacity history) (request : List String) :
    InOrder capacity (history ++ [.find request]) := by
  obtain ⟨ranking, hranked, hholds⟩ := h
  rw [InOrder, after_snoc, access]
  cases hfind : ((after capacity history).find request).1 with
  | none =>
    rw [find_of_none hfind]
    refine ⟨ranking, hranked.unused (fun r => ?_) fun _ _ => insertedLast_snoc_find, hholds⟩
    rintro ⟨rfl, hsome⟩
    rw [hfind] at hsome
    cases hsome
  | some b =>
    rw [find_of_some hholds hfind]
    have hmem := (find_iff (hholds.distinct hranked.distinct)).mp hfind
    rw [hholds] at hmem
    replace hmem := List.mem_of_mem_take hmem
    refine ⟨toFront request b ranking, hranked.used (fun r => ?_) fun r c => ?_,
      holds_insert hholds hranked.distinct (capacity_pos capacity history)⟩
    · simp [Uses, hfind, eq_comm]
    · rw [insertedLast_snoc_find, hranked.inserted]
      by_cases hr : r = request
      · subst hr
        simpa using ⟨hranked.unique hmem, fun hc => hc ▸ hmem⟩
      · simp [hr]

theorem inOrder (capacity : Nat) (history : List Access) : InOrder capacity history := by
  induction history using List.reverseRecOn with
  | nil => exact ⟨[], ranked_nil capacity, List.take_nil.symm⟩
  | append_singleton history a ih =>
    cases a with
    | find request => exact inOrder_find ih request
    | insert request b => exact inOrder_insert ih request b
    | clear =>
      refine ⟨[], .cleared, ?_⟩
      rw [after_snoc]
      exact List.take_nil.symm

/-- A request has but one last use. -/
theorem lastUse_unique {i j : Nat} {request : List String} (hi : UsedAt capacity history i request)
    (hilast : request ∉ usedSince capacity history i) (hj : UsedAt capacity history j request)
    (hjlast : request ∉ usedSince capacity history j) : i = j := by
  rcases Nat.lt_trichotomy i j with hlt | heq | hlt
  · exact absurd ⟨j, hlt, hj⟩ hilast
  · exact heq
  · exact absurd ⟨i, hlt, hi⟩ hjlast

/-- What is used behind the last use of a request is what comes before it in the order. -/
theorem Ranked.lastUse {ranking front back : List (List String × Bool)} {request : List String}
    {b : Bool} (h : Ranked capacity history ranking)
    (hsplit : ranking = front ++ (request, b) :: back) : ∃ i,
      UsedAt capacity history i request ∧ request ∉ usedSince capacity history i ∧
        (usedSince capacity history i).ncard = front.length := by
  obtain ⟨i, hused, hsince⟩ := h.since front (request, b) back hsplit
  have hdistinct := h.distinct
  rw [hsplit, List.map_append, List.map_cons, List.nodup_append] at hdistinct
  obtain ⟨hfront, -, hapart⟩ := hdistinct
  refine ⟨i, hused, ?_, ?_⟩
  · rw [hsince]
    exact fun hmem => hapart request hmem request List.mem_cons_self rfl
  · rw [hsince, ← List.coe_toFinset, Set.ncard_coe_finset, List.toFinset_card_of_nodup hfront,
      List.length_map]

/-- A memory never holds more decisions than there is room for, and there is room for one at least.
A decision is found if and only if it is the last that was inserted on the request since the memory
was cleared, and fewer other requests than there is room for have been used since the last use of
this one. Requests that differ at some place, be it that one has more texts than the other, never
share a decision, even if they read the same without the bounds between their texts. -/
theorem find_exact (capacity : Nat) (history : List Access) :
    (after capacity history).size ≤ max capacity 1 ∧
    (∀ request b, ((after capacity history).find request).1 = some b ↔
      InsertedLast history request b ∧
      ∃ i, UsedAt capacity history i request ∧ request ∉ usedSince capacity history i ∧
        (usedSince capacity history i).ncard < max capacity 1) ∧
    ∀ request other b, (∃ k : Nat, request[k]? ≠ other[k]?) →
      (((after capacity history).insert other b).find request).1 =
        ((after capacity history).find request).1 ∨
      (((after capacity history).insert other b).find request).1 = none := by
  obtain ⟨ranking, hranked, hholds⟩ := inOrder capacity history
  have hcapacity := capacity_after capacity history
  have hdistinct := hholds.distinct hranked.distinct
  refine ⟨?_, fun request b => ?_, fun request other b hdiffer => ?_⟩
  · rw [size, hholds, hcapacity]
    exact List.length_take_le _ _
  · rw [find_iff hdistinct, hholds, hcapacity, Sequence.mem_take_iff]
    constructor
    · rintro ⟨front, back, hsplit, hlen⟩
      obtain ⟨i, hused, hlast, hcard⟩ := hranked.lastUse hsplit
      have hmem : (request, b) ∈ ranking := by simp [hsplit]
      exact ⟨(hranked.inserted request b).mpr hmem, i, hused, hlast, hcard.trans_lt hlen⟩
    · rintro ⟨hinserted, i, hused, hlast, hcard⟩
      obtain ⟨front, back, hsplit⟩ :=
        List.append_of_mem ((hranked.inserted request b).mp hinserted)
      obtain ⟨j, hused', hlast', hcard'⟩ := hranked.lastUse hsplit
      obtain rfl := lastUse_unique hused hlast hused' hlast'
      exact ⟨front, back, hsplit, hcard' ▸ hcard⟩
  · obtain ⟨k, hk⟩ := hdiffer
    have hne : request ≠ other := fun heq => hk (heq ▸ rfl)
    cases hfind : (((after capacity history).insert other b).find request).1 with
    | none => exact .inr rfl
    | some c => exact .inl (find_insert_of_ne hdistinct hne hfind).symm

/-- It is the decision used last that stays, not the one inserted last. -/
example : ((after 2 [.insert ["ab", "c"] true, .insert ["a", "bc"] false, .find ["ab", "c"],
    .insert ["d"] true]).find ["ab", "c"]).1 = some true := by decide

end

end AccessControl.RecentDecisions
