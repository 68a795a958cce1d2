import AccessControl.Proofs.Config.Parsing
import AccessControl.Proofs.Sequence

namespace AccessControl.Config

open Text

/-- The lines end in a header of the section `name` and, perhaps, lines that say nothing. -/
def Under (name : String) (lines : List (List Char)) : Prop :=
  ∃ front header gap, lines = front ++ header :: gap ∧ Spells (bare header) (.header name) ∧
    ∀ line ∈ gap, bare line = []

theorem bareLines_of_blank {gap : List (List Char)} (h : ∀ line ∈ gap, bare line = []) :
    bareLines gap = [] := by
  induction gap with
  | nil => rfl
  | cons line gap ih =>
    obtain ⟨hline, hgap⟩ := List.forall_mem_cons.mp h
    rw [bareLines_cons_of_nil hline, ih hgap]

section

variable {name : String} {above below : List (List Char)} {old new : List Char}
  {e e' : String × String}

/-- What the lines around an entry say does not depend on it. -/
theorem exists_spells_around {sts : List Statement} (hunder : Under name above)
    (hold : Spells (bare old) (.entry e))
    (h : List.Forall₂ Spells (bareLines (above ++ old :: below)) sts) : ∃ front back,
      sts = front ++ .header name :: .entry e :: back ∧
      ∀ {new e'}, Spells (bare new) (.entry e') →
        List.Forall₂ Spells (bareLines (above ++ new :: below))
          (front ++ .header name :: .entry e' :: back) := by
  obtain ⟨before, header, gap, rfl, hheader, hgap⟩ := hunder
  have hlines {line : List Char} (hne : bare line ≠ []) :
      bareLines (before ++ header :: gap ++ line :: below) =
        bareLines before ++ bare header :: bare line :: bareLines below := by
    rw [List.append_assoc, List.cons_append, bareLines_append,
      bareLines_cons (ne_nil_of_spells hheader), bareLines_append, bareLines_of_blank hgap,
      List.nil_append, bareLines_cons hne]
  rw [hlines (ne_nil_of_spells hold)] at h
  obtain ⟨front, rest, rfl, hfront, hrest⟩ := Sequence.exists_append_of_forall₂ h
  obtain _ | ⟨hst, _ | ⟨hst', hback⟩⟩ := hrest
  obtain rfl := Line.spells_unique hst hheader
  obtain rfl := Line.spells_unique hst' hold
  refine ⟨front, _, rfl, fun hnew => ?_⟩
  rw [hlines (ne_nil_of_spells hnew)]
  exact List.rel_append hfront (.cons hheader (.cons hnew hback))

end

theorem sectionsOf_append (sts : List Statement) (ss : List Section) :
    sectionsOf (sts ++ ss.flatMap Section.statements) = sectionsOf sts ++ ss := by
  have hregroup : regroup (sts ++ ss.flatMap Section.statements) =
      ((regroup sts).1, (regroup sts).2 ++ ss) := by
    calc regroup (sts ++ ss.flatMap Section.statements)
      _ = regroup ((regroup sts).1.map .entry ++
            ((regroup sts).2 ++ ss).flatMap Section.statements) := by
        rw [List.flatMap_append, ← List.append_assoc, statements_regroup]
      _ = ((regroup sts).1, (regroup sts).2 ++ ss) := by
        rw [regroup_append, regroup_flatMap, List.append_nil]
  rw [sectionsOf, sectionsOf, hregroup]
  obtain ⟨entries, sections⟩ := regroup sts
  cases entries <;> rfl

theorem sectionsOf_entry (name : String) (e : String × String) (front back : List Statement) :
    sectionsOf (front ++ .header name :: .entry e :: back) =
      sectionsOf front ++ ⟨name, e :: (regroup back).1⟩ :: (regroup back).2 := by
  rw [← sectionsOf_append, List.flatMap_cons, Section.statements, List.map_cons,
    List.cons_append, List.cons_append, statements_regroup]

theorem consistent_replace {name : String} {e e' : String × String} {front back : List Section}
    (h : Consistent (front ++ ⟨name, [e]⟩ :: back)) :
    Consistent (front ++ ⟨name, [e']⟩ :: back) := by
  obtain ⟨hnames, hentries, hkeys⟩ := h
  refine ⟨by simpa using hnames, ?_, ?_⟩
  · simp only [List.forall_mem_append, List.forall_mem_cons] at hentries ⊢
    exact ⟨hentries.1, List.cons_ne_nil e' [], hentries.2.2⟩
  · simp only [List.forall_mem_append, List.forall_mem_cons] at hkeys ⊢
    exact ⟨hkeys.1, List.pairwise_singleton _ e'.1, hkeys.2.2⟩

section

variable {front back : List Section} {s : Section}

theorem find_section_of_ne {other : String} (h : other ≠ s.name) :
    Document.section? ⟨front ++ s :: back⟩ other = Document.section? ⟨front ++ back⟩ other := by
  have hs : (s.name == other) = false := beq_false_of_ne h.symm
  simp only [Document.section?, List.find?_append, List.find?_cons, hs]

theorem find_section_self (h : Consistent (front ++ s :: back)) :
    Document.section? ⟨front ++ s :: back⟩ s.name = some s :=
  (Sequence.find?_eq_some_iff_of_nodup h.names).mpr ⟨by simp, rfl⟩

end

/-- The line that an entry stands on may be replaced by that of another, if the section has no
more entries. -/
theorem exists_parse_replaced {name text revised : String} {above below : List (List Char)}
    {old new : List Char} {e e' : String × String} {d : Document}
    (htext : text.toList.splitOn '\n' = above ++ old :: below)
    (hrevised : revised.toList.splitOn '\n' = above ++ new :: below) (hunder : Under name above)
    (hold : Spells (bare old) (.entry e)) (hnew : Spells (bare new) (.entry e'))
    (h : Document.parse text = .ok d) : ∃ entries, d.section? name = some ⟨name, e :: entries⟩ ∧
      (entries = [] → ∃ d', Document.parse revised = .ok d' ∧
        d'.section? name = some ⟨name, [e']⟩ ∧
        ∀ other, other ≠ name → d'.section? other = d.section? other) := by
  obtain ⟨sts, hspells, hlists, hconsistent⟩ := spells_of_parse h
  rw [htext] at hspells
  obtain ⟨front, back, rfl, hreplaced⟩ := exists_spells_around hunder hold hspells
  obtain ⟨sections⟩ := d
  obtain rfl := (lists_iff.mp hlists).symm.trans (sectionsOf_entry name e front back)
  refine ⟨_, find_section_self hconsistent, fun hsole => ?_⟩
  rw [hsole] at hconsistent ⊢
  have hconsistent' := @consistent_replace _ _ e' _ _ hconsistent
  have hspells' := hreplaced hnew
  rw [← hrevised] at hspells'
  refine ⟨⟨_⟩, parse_of_spells hspells' (lists_iff.mpr ?_) hconsistent',
    find_section_self hconsistent', fun other hother => ?_⟩
  · rw [sectionsOf_entry, hsole]
  · exact (@find_section_of_ne _ _ ⟨name, [e']⟩ _ hother).trans
      (@find_section_of_ne _ _ ⟨name, [e]⟩ _ hother).symm

end AccessControl.Config
