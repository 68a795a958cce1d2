import AccessControl.Proofs.Text.Blank
import AccessControl.Proofs.Text.Symbol

namespace AccessControl.Text

/-- There are at most blanks around the word. -/
def Pads (cs : List Char) (word : String) : Prop :=
  ∃ front back, cs = front ++ (word.toList ++ back) ∧
    (∀ c ∈ front, isBlank c) ∧ ∀ c ∈ back, isBlank c

/-- The words of a text, with commas between them. -/
inductive Enumerates : List Char → List String → Prop
  | last {cs word} (h : Pads cs word) : Enumerates cs [word]
  | more {cs word rest words} (h : Pads cs word) (hrest : Enumerates rest words) :
    Enumerates (cs ++ ',' :: rest) (word :: words)

section

variable {cs : List Char} {word : String}

theorem pads_trim (cs : List Char) : Pads cs (.ofList (trim cs)) := by
  rw [Pads, String.toList_ofList]
  exact exists_trim_append cs

theorem trim_of_pads (hword : isSymbol word.toList) (h : Pads cs word) : trim cs = word.toList := by
  obtain ⟨front, back, rfl, hfront, hback⟩ := h
  have hblank : ∀ c ∈ word.toList, isBlank c = false :=
    fun c hc => isBlank_eq_false_of_isSymbolPart (isSymbolPart_of_isSymbol hword c hc)
  rw [trim_blank_append hfront, trim_append_blank hback]
  exact trim_eq_self (fun c hc => hblank c (List.mem_of_mem_head? hc))
    fun c hc => hblank c (List.mem_of_getLast? hc)

theorem comma_notMem_of_pads (hword : isSymbol word.toList) (h : Pads cs word) : ',' ∉ cs := by
  obtain ⟨front, back, rfl, hfront, hback⟩ := h
  have hblank : isBlank ',' = false := by decide
  have hpart : isSymbolPart ',' = false := by decide
  simp only [List.mem_append, not_or]
  exact ⟨notMem_of_forall hfront hblank, notMem_of_forall (isSymbolPart_of_isSymbol hword) hpart,
    notMem_of_forall hback hblank⟩

theorem enumerates_intercalate {pieces : List (List Char)} (h : pieces ≠ []) :
    Enumerates ([','].intercalate pieces) (pieces.map fun piece => .ofList (trim piece)) := by
  induction pieces with
  | nil => exact absurd rfl h
  | cons piece pieces ih =>
    cases pieces with
    | nil =>
      rw [List.intercalate_singleton]
      exact .last (pads_trim piece)
    | cons next pieces =>
      rw [List.intercalate_cons_cons, List.append_assoc, List.singleton_append]
      exact .more (pads_trim piece) (ih (List.cons_ne_nil next pieces))

/-- Symbols enumerated in a text are what is between its commas, without the blanks around it. -/
theorem enumerates_iff {words : List String} (hwords : ∀ word ∈ words, isSymbol word.toList) :
    Enumerates cs words ↔
      (cs.splitOn ',').map (fun piece => String.ofList (trim piece)) = words := by
  constructor
  · intro h
    induction h with
    | @last cs word hpads =>
      have hword := hwords word List.mem_cons_self
      rw [List.splitOn_eq_singleton (comma_notMem_of_pads hword hpads), List.map_singleton,
        trim_of_pads hword hpads, String.ofList_toList]
    | @more cs word rest words hpads _ ih =>
      obtain ⟨hword, hrest⟩ := List.forall_mem_cons.mp hwords
      rw [List.splitOn_append_cons_self_of_not_mem (comma_notMem_of_pads hword hpads),
        List.map_cons, ih hrest, trim_of_pads hword hpads, String.ofList_toList]
  · rintro rfl
    have h := enumerates_intercalate (List.splitOn_ne_nil ',' cs)
    rwa [List.intercalate_splitOn] at h

end

end AccessControl.Text
