import AccessControl.Policy.Rule
import AccessControl.Proofs.Text.Symbol

namespace AccessControl.Policy.Clause

open Text

theorem between?_eq_some_iff {front back mid cs : List Char} :
    between? front back cs = some mid ↔ cs = front ++ (mid ++ back) := by
  rw [between?]
  constructor
  · intro h
    simp only [Option.ite_none_right_eq_some, Bool.and_eq_true, List.isPrefixOf_iff_prefix,
      List.isSuffixOf_iff_suffix, Option.some.injEq] at h
    obtain ⟨⟨⟨rest, rfl⟩, hback⟩, hmid⟩ := h
    rw [List.drop_left] at hback hmid
    obtain ⟨mid', rfl⟩ := hback
    rw [List.length_append, Nat.add_sub_cancel, List.take_left] at hmid
    rw [hmid]
  · rintro rfl
    have hstarts : front.isPrefixOf (front ++ (mid ++ back)) :=
      List.isPrefixOf_iff_prefix.mpr (List.prefix_append _ _)
    have hends : back.isSuffixOf (mid ++ back) :=
      List.isSuffixOf_iff_suffix.mpr (List.suffix_append _ _)
    simp [hstarts, hends]

theorem text_toList (c : Clause) : c.text.toList =
    c.rule.opening.toList ++ (c.policy.toList ++ c.rule.closing.toList) := by
  rw [text, String.toList_append, String.toList_append, List.append_assoc]

theorem ofCompact?_eq_some_iff {rule : Rule} {cs : List Char} {c : Clause} :
    ofCompact? rule cs = some c ↔
      c.rule = rule ∧ cs = c.text.toList ∧ isSymbol c.policy.toList := by
  rw [ofCompact?, Option.bind_eq_bind, Option.bind_eq_some_iff]
  constructor
  · rintro ⟨policy, hbetween, h⟩
    split at h
    · next hsymbol =>
      cases h
      rw [text_toList, String.toList_ofList]
      exact ⟨rfl, between?_eq_some_iff.mp hbetween, hsymbol⟩
    · cases h
  · rintro ⟨rfl, hcs, hsymbol⟩
    refine ⟨c.policy.toList, between?_eq_some_iff.mpr (hcs.trans (text_toList c)), ?_⟩
    rw [if_pos hsymbol, String.ofList_toList]
    rfl

/-- By its first character a text has but one rule. -/
theorem rule_eq_of_text_eq {c c' : Clause} (h : c.text.toList = c'.text.toList) :
    c.rule = c'.rule := by
  rw [text_toList, text_toList] at h
  have hhead := congrArg List.head? h
  cases hrule : c.rule <;> cases hrule' : c'.rule <;> rw [hrule, hrule'] at hhead <;>
    simp [Rule.opening] at hhead ⊢

theorem parse?_eq_some_iff {s : String} {c : Clause} :
    parse? s = some c ↔
      s.toList.filter (fun ch => !isBlank ch) = c.text.toList ∧ isSymbol c.policy.toList := by
  rw [parse?, Option.orElse_eq_orElse, Option.orElse_eq_or, Option.or_eq_some_iff]
  constructor
  · rintro (h | ⟨-, h⟩)
    · exact (ofCompact?_eq_some_iff.mp h).2
    · exact (ofCompact?_eq_some_iff.mp h).2
  · intro h
    cases hrule : c.rule with
    | denyOverride => exact .inl (ofCompact?_eq_some_iff.mpr ⟨hrule, h⟩)
    | allowOverride =>
      refine .inr ⟨Option.eq_none_iff_forall_ne_some.mpr fun c' hc' => ?_,
        ofCompact?_eq_some_iff.mpr ⟨hrule, h⟩⟩
      obtain ⟨hrule', htext, -⟩ := ofCompact?_eq_some_iff.mp hc'
      have heq := rule_eq_of_text_eq (h.1.symm.trans htext)
      rw [hrule, hrule'] at heq
      cases heq

/-- A text freed of its blanks. -/
def compact (s : String) : String :=
  .ofList (s.toList.filter fun ch => !isBlank ch)

theorem compact_eq_iff {s s' : String} :
    compact s = s' ↔ s.toList.filter (fun ch => !isBlank ch) = s'.toList := by
  rw [compact, ← String.toList_inj, String.toList_ofList]

/-- Blanks that come and go, wherever they stand, make no difference. -/
theorem parse?_congr {s s' : String} (h : compact s = compact s') : parse? s = parse? s' := by
  rw [compact_eq_iff, compact, String.toList_ofList] at h
  rw [parse?, parse?, h]

theorem isBlank_frame_eq_false (rule : Rule) :
    ∀ ch ∈ rule.opening.toList ++ rule.closing.toList, isBlank ch = false := by
  have hall : (rule.opening.toList ++ rule.closing.toList).all fun ch => !isBlank ch := by
    cases rule <;> decide
  intro ch hch
  simpa using List.all_eq_true.mp hall ch hch

/-- A clause is written without blanks. -/
theorem compact_text {c : Clause} (h : isSymbol c.policy.toList) : compact c.text = c.text := by
  have hframe := isBlank_frame_eq_false c.rule
  rw [List.forall_mem_append] at hframe
  rw [compact_eq_iff, List.filter_eq_self, text_toList, List.forall_mem_append,
    List.forall_mem_append]
  simp only [Bool.not_eq_true']
  have hpolicy : ∀ ch ∈ c.policy.toList, isBlank ch = false := fun ch hch =>
    isBlank_eq_false_of_isSymbolPart (isSymbolPart_of_isSymbol h ch hch)
  exact ⟨hframe.1, hpolicy, hframe.2⟩

theorem parse?_text {c : Clause} (h : isSymbol c.policy.toList) : parse? c.text = some c :=
  parse?_eq_some_iff.mpr ⟨compact_eq_iff.mp (compact_text h), h⟩

end AccessControl.Policy.Clause
