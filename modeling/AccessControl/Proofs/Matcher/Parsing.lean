import AccessControl.Proofs.Matcher.Completeness
import AccessControl.Proofs.Matcher.Scanning
import AccessControl.Proofs.Matcher.Soundness

namespace AccessControl.Matcher

open Lexeme (Kind scan)

/-- The grammar has no room for a name right behind a literal. -/
theorem not_glued_of_derives {ks : List Kind} {e : Expr} (h : Derives .disjunction ks e) :
    ¬Glued ks := by
  rintro ⟨front, l, k, rest, rfl, name, hname⟩
  let lexeme (k : Kind) : Lexeme := ⟨k, "", .start⟩
  have hkinds : ((front ++ .literal l :: k :: rest).map lexeme).map Lexeme.kind =
      front ++ .literal l :: k :: rest := by
    simp [lexeme, Function.comp_def]
  rw [← hkinds] at h
  obtain ⟨s, _, hrun, -⟩ := derives_finish h
  rw [List.map_append, List.map_cons, List.map_cons, List.foldlM_append] at hrun
  obtain ⟨s₀, -, hrun⟩ := Result.bind_eq_ok_iff.mp hrun
  rw [List.foldlM_cons] at hrun
  obtain ⟨s₁, hliteral, hrun⟩ := Result.bind_eq_ok_iff.mp hrun
  rw [List.foldlM_cons] at hrun
  obtain ⟨s₂, hword, -⟩ := Result.bind_eq_ok_iff.mp hrun
  have hs₁ : s₁.awaiting = .operator := by
    simp only [Postfix.step, Postfix.operand, lexeme] at hliteral
    split at hliteral
    · cases hliteral
    · cases hliteral
      rfl
  rcases hname with rfl | rfl
  · simp [Postfix.step, Postfix.operand, lexeme, hs₁] at hword
  · simp [Postfix.step, Postfix.openGroup, lexeme, hs₁] at hword

/-- Tokens put into postfix order come from lexemes that are read to the end. -/
theorem ofSource_eq_ok_iff {source : String} {ts : List Token} :
    Token.ofSource source = .ok ts ↔ ∃ xs s, scan .start source.toList = (xs, none) ∧
      xs.foldlM Postfix.step .start = .ok s ∧ s.finish = .ok ts := by
  obtain ⟨xs, fault, hscan⟩ : ∃ xs fault, scan .start source.toList = (xs, fault) := ⟨_, _, rfl⟩
  rw [Token.ofSource, hscan]
  constructor
  · intro h
    obtain ⟨s, hrun, h⟩ := Result.bind_eq_ok_iff.mp h
    cases fault with
    | some e => cases h
    | none => exact ⟨xs, s, rfl, hrun, h⟩
  · rintro ⟨xs', s, heq, hrun, hfinish⟩
    cases heq
    exact Result.bind_eq_ok_iff.mpr ⟨s, hrun, hfinish⟩

/-- A source is split in at most one way, and it spells just those expressions within the limit that
its lexemes derive in the grammar. -/
theorem parse_exact (limit : Nat) (source : String) :
    (∀ ks ks', Munches source.toList ks → Munches source.toList ks' → ks = ks') ∧
    ∀ e, Expr.parse limit source = .ok e ↔
      ∃ ks, Munches source.toList ks ∧ Derives .disjunction ks e ∧ e.height ≤ limit := by
  refine ⟨fun ks ks' => munches_unique, fun e => ⟨fun h => ?_, ?_⟩⟩
  · obtain ⟨ts, hsource, hbuild⟩ := Result.bind_eq_ok_iff.mp h
    obtain ⟨xs, s, hscan, hrun, hfinish⟩ := ofSource_eq_ok_iff.mp hsource
    have hbuilds := Expr.ofPostfix_eq_ok_iff.mp hbuild
    have hderives := derives_of_finish hrun hfinish hbuilds
    have hheight :=
      Expr.builds_height_le hbuilds (fun _ h => nomatch h) e (List.mem_singleton_self e)
    exact ⟨xs.map Lexeme.kind, munches_of_scan hscan, hderives, hheight⟩
  · rintro ⟨ks, hmunches, hderives, hheight⟩
    rcases scan_of_munches hmunches .start with hglued | ⟨xs, hscan, rfl⟩
    · exact absurd hglued (not_glued_of_derives hderives)
    · obtain ⟨s, ts, hrun, hfinish, hkinds⟩ := derives_finish hderives
      have hsource := ofSource_eq_ok_iff.mpr ⟨xs, s, hscan, hrun, hfinish⟩
      have hbuild := Expr.ofPostfix_eq_ok_iff.mpr
        (hkinds ▸ Expr.builds_postorder e [] (derives_proper hderives) hheight)
      exact Result.bind_eq_ok_iff.mpr ⟨ts, hsource, hbuild⟩

/-- A dot binds tighter than the sign before it, and the sign tighter than what joins operands. -/
example : Expr.parse 3 "!a.b && c" =
    .ok (.binary .and (.unary .not (.attr "a" ["b"])) (.var "c")) := by cbv

end AccessControl.Matcher
