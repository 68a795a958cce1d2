namespace AccessControl

/-- The latest used entry comes first. -/
structure RecentDecisions where
  capacity : Nat
  entries : List (List String × Bool)

namespace RecentDecisions

/-- Room for at least one decision. -/
def empty (capacity : Nat) : RecentDecisions :=
  ⟨max capacity 1, []⟩

def size (d : RecentDecisions) : Nat :=
  d.entries.length

/-- The entries of all requests but one. -/
def others (d : RecentDecisions) (request : List String) : List (List String × Bool) :=
  d.entries.filter fun entry => entry.1 != request

/-- Finding a decision counts as use of it. -/
def find (d : RecentDecisions) (request : List String) : Option Bool × RecentDecisions :=
  match d.entries.lookup request with
  | some b => (some b, { d with entries := (request, b) :: d.others request })
  | none => (none, d)

/-- When there is no more room, the request that has gone unused for longest makes some. -/
def insert (d : RecentDecisions) (request : List String) (b : Bool) : RecentDecisions :=
  { d with entries := ((request, b) :: d.others request).take d.capacity }

def clear (d : RecentDecisions) : RecentDecisions :=
  { d with entries := [] }

/-- What is found was there, and nothing else comes in by looking. -/
theorem mem_of_find {d d' : RecentDecisions} {request : List String} {b : Bool}
    (h : d.find request = (some b, d')) :
    (request, b) ∈ d.entries ∧ ∀ entry ∈ d'.entries, entry ∈ d.entries := by
  unfold find at h
  split at h
  · next c hc =>
    cases h
    obtain ⟨front, rest, hd, -⟩ := List.lookup_eq_some_iff.mp hc
    have hmem : (request, b) ∈ d.entries := by simp [hd]
    refine ⟨hmem, fun entry hentry => ?_⟩
    rcases List.mem_cons.mp hentry with rfl | hentry
    · exact hmem
    · exact (List.mem_filter.mp hentry).1
  · cases h

theorem mem_insert {d : RecentDecisions} {request : List String} {b : Bool}
    {entry : List String × Bool} (h : entry ∈ (d.insert request b).entries) :
    entry = (request, b) ∨ entry ∈ d.entries := by
  rcases List.mem_cons.mp (List.mem_of_mem_take h) with h | h
  · exact .inl h
  · exact .inr (List.mem_filter.mp h).1

end RecentDecisions

end AccessControl
