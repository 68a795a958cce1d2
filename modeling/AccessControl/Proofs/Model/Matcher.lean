import AccessControl.Monitor.Setup
import AccessControl.Proofs.Config.Replacement
import AccessControl.Proofs.Matcher.Truncation
import AccessControl.Proofs.Model.Reader

namespace AccessControl.Model

open Config Matcher Text

section

variable {limit : Nat} {source : String} {p : Program}

theorem compile_eq_ok_iff : Program.compile limit source = .ok p ↔
    ∃ e, Expr.parse limit source = .ok e ∧ ⟨source, e.code⟩ = p := by
  rw [Program.compile, Result.bind_eq_ok_iff]
  simp

/-- A model has one program, however deep it may be nested. -/
theorem program_unique {m : Model} {limit' : Nat} {p' : Program} (h : m.program limit = .ok p)
    (h' : m.program limit' = .ok p') : p = p' := by
  obtain ⟨e, hparse, rfl⟩ := compile_eq_ok_iff.mp (Result.mapError_eq_ok_iff.mp h)
  obtain ⟨e', hparse', rfl⟩ := compile_eq_ok_iff.mp (Result.mapError_eq_ok_iff.mp h')
  rw [parse_unique hparse hparse']

/-- Without a `#` only blanks are lost. -/
theorem compile_bare (h : Program.compile limit source = .ok p) (hhash : '#' ∉ source.toList) :
    ∃ q, Program.compile limit (.ofList (bare source.toList)) = .ok q ∧
      q.instructions = p.instructions := by
  obtain ⟨e, hparse, rfl⟩ := compile_eq_ok_iff.mp h
  rw [bare_eq_trim hhash]
  exact ⟨_, compile_eq_ok_iff.mpr ⟨e, parse_trim hparse, rfl⟩, rfl⟩

/-- With a `#` a string is left open. -/
theorem compile_bare_of_hash (h : Program.compile limit source = .ok p)
    (hhash : '#' ∈ source.toList) : ∃ before body, bare source.toList = before ++ '"' :: body ∧
      Program.compile limit (.ofList (bare source.toList)) =
        .error (leftOpen .start before body) := by
  obtain ⟨e, hparse, -⟩ := compile_eq_ok_iff.mp h
  obtain ⟨kept, comment, hsplit, hkept, hcomment⟩ := exists_comment source.toList
  obtain ⟨front, gap, htrim, hfront, hgap⟩ := exists_trim_append kept
  have hbare : bare source.toList = trim kept := by
    rw [bare, hsplit, takeWhile_comment hkept hcomment]
  cases comment with
  | nil =>
    rw [hsplit, List.append_nil] at hhash
    exact absurd hhash hkept
  | cons c rest =>
    obtain rfl := hcomment c rfl
    rw [htrim, List.append_assoc, List.append_assoc] at hsplit
    obtain ⟨before, body, hcut, hfault⟩ := parse_cut hparse hsplit hfront hgap
    refine ⟨before, body, hbare.trans hcut, ?_⟩
    rw [hbare, Program.compile, hfault]
    rfl

/-- Nothing spells no expression. -/
theorem compile_nil : Program.compile limit (.ofList []) =
    .error (.unexpectedToken "" .start .emptyExpression) := by
  simp [Program.compile, Expr.parse, Token.ofSource, Lexeme.scan, Postfix.finish, Postfix.start,
    Expr.ofPostfix]

theorem bare_ne_nil (h : Program.compile limit source = .ok p) : bare source.toList ≠ [] := by
  intro hnil
  by_cases hhash : '#' ∈ source.toList
  · obtain ⟨before, body, hbare, -⟩ := compile_bare_of_hash h hhash
    simp [hnil] at hbare
  · obtain ⟨q, hq, -⟩ := compile_bare h hhash
    rw [hnil, compile_nil] at hq
    cases hq

theorem spells_matcher_line (h : bare source.toList ≠ []) :
    Spells (bare ("m = " ++ source).toList) (.entry ("m", .ofList (bare source.toList))) := by
  obtain ⟨body, comment, hsplit, hbody, hcomment⟩ := exists_comment source.toList
  have hspace := isBlank_of_mem_space
  have hline : ("m = " ++ source).toList =
      [] ++ (['m'] ++ ([' '] ++ '=' :: (' ' :: body ++ comment))) := by
    rw [String.toList_append, hsplit]
    rfl
  have hvalue : bare source.toList = trim (trimRight (' ' :: body)) := by
    rw [bare, hsplit, takeWhile_comment hbody hcomment, trim_trimRight]
    exact (trim_blank_append hspace body).symm
  rw [hvalue] at h ⊢
  rw [hline, bare_entry (by simp) (by decide) hspace (by simp [hbody]) hcomment]
  refine .entry rfl hspace (fun hhead => ?_) h
  obtain ⟨gap, hgap, -⟩ := exists_trimRight_append (' ' :: body)
  obtain ⟨rest, hrest⟩ := List.head?_eq_some_iff.mp hhead
  rw [hrest] at hgap
  cases hgap

end

/-- All but the matcher is read from other sections. -/
theorem ofDocument_of_matcher {d d' : Document} {model : Model} {entry : String × String}
    (h : ofDocument d = .ok model)
    (hother : ∀ name, name ≠ matcherSection → d'.section? name = d.section? name)
    (hmatcher : soleEntry d' matcherSection = .ok entry) :
    ofDocument d' = .ok { model with matcher := entry.2 } := by
  have hsole {name : String} (hname : name ≠ matcherSection) :
      soleEntry d' name = soleEntry d name := soleEntry_congr (hother name hname)
  rw [ofDocument_eq_ok_iff] at h ⊢
  rw [hsole (by decide : requestSection ≠ matcherSection),
    entries_congr (hother policySection (by decide)),
    hother roleSection (by decide), hsole (by decide : clauseSection ≠ matcherSection)]
  obtain ⟨hrequest, hpolicies, hroles, hclause, -⟩ := h
  exact ⟨hrequest, hpolicies, hroles, hclause, entry.1, hmatcher⟩

/-- A text in which the matcher is replaced gives the same model, but for the matcher. -/
theorem ofText_of_matcher {text revised : String} {above below : List (List Char)}
    {old new : List Char} {entry entry' : String × String} {model : Model}
    (htext : text.toList.splitOn '\n' = above ++ old :: below)
    (hrevised : revised.toList.splitOn '\n' = above ++ new :: below)
    (hunder : Under matcherSection above) (hold : Spells (bare old) (.entry entry))
    (hnew : Spells (bare new) (.entry entry')) (h : ofText text = .ok model) :
    ofText revised = .ok { model with matcher := entry'.2 } := by
  obtain ⟨d, hd, hmodel⟩ := Result.bind_eq_ok_iff.mp h
  obtain ⟨entries, hsection, hreplaced⟩ := exists_parse_replaced htext hrevised hunder hold hnew
    (Result.mapError_eq_ok_iff.mp hd)
  obtain ⟨-, -, -, -, key, hsole⟩ := ofDocument_eq_ok_iff.mp hmodel
  obtain ⟨s, hs, hentries⟩ := soleEntry_eq_ok_iff.mp hsole
  rw [hsection] at hs
  cases hs
  obtain ⟨d', hd', hmatcher, hother⟩ := hreplaced (List.cons.inj hentries).2
  have hsole' := soleEntry_eq_ok_iff.mpr ⟨_, hmatcher, rfl⟩
  exact Result.bind_eq_ok_iff.mpr ⟨d', Result.mapError_eq_ok_iff.mpr hd',
    ofDocument_of_matcher hmodel hother hsole'⟩

theorem build_of_fault {setup : Monitor.Setup} {text : String} {m : Model} {e : Error}
    (htext : setup.modelSource = .ok text) (hm : ofText text = .ok m)
    (hprogram : m.program setup.maxDepth = .error e) : setup.build = .error (.model e) := by
  have hmodel : (ofText text).mapError Monitor.Error.model = .ok m :=
    Result.mapError_eq_ok_iff.mpr hm
  rw [Monitor.Setup.build, htext, Result.ok_bind, hmodel, Result.ok_bind, hprogram]
  rfl

/-- Where `text` has an entry `old` for the matcher, `revised` has the line `m = source`. It is read
as what is left of the source. Without a `#` this runs as the source does. With one it is refused,
at a string that stays open, as all that goes before a `#` of the source would be. -/
theorem matcher_line_runs_or_fails {limit : Nat} {text revised source : String}
    {above below : List (List Char)} {old : List Char} {entry : String × String} {model : Model}
    {p : Program} (htext : text.toList.splitOn '\n' = above ++ old :: below)
    (hrevised : revised.toList.splitOn '\n' = above ++ ("m = " ++ source).toList :: below)
    (hunder : Under matcherSection above) (hold : Spells (bare old) (.entry entry))
    (hmodel : ofText text = .ok model) (hcompile : Program.compile limit source = .ok p) :
    let written : Model := { model with matcher := .ofList (bare source.toList) }
    ofText revised = .ok written ∧
    ('#' ∉ source.toList → ∃ q, written.program limit = .ok q ∧ q.instructions = p.instructions) ∧
    ('#' ∈ source.toList → ∃ before body, written.matcher.toList = before ++ '"' :: body ∧
      written.program limit = .error (.matcher (leftOpen .start before body)) ∧
      ∀ setup : Monitor.Setup, setup.modelSource = .ok revised → setup.maxDepth = limit →
        setup.build = .error (.model (.matcher (leftOpen .start before body)))) ∧
    ∀ kept rest, source.toList = kept ++ '#' :: rest → ∃ before body, kept = before ++ '"' :: body ∧
      Program.compile limit (.ofList kept) = .error (leftOpen .start before body) := by
  intro written
  have hline := spells_matcher_line (bare_ne_nil hcompile)
  have hwritten := ofText_of_matcher htext hrevised hunder hold hline hmodel
  refine ⟨hwritten, fun hhash => ?_, fun hhash => ?_, fun kept rest hsplit => ?_⟩
  · obtain ⟨q, hq, hinstructions⟩ := compile_bare hcompile hhash
    exact ⟨q, Result.mapError_eq_ok_iff.mpr hq, hinstructions⟩
  · obtain ⟨before, body, hbare, hfault⟩ := compile_bare_of_hash hcompile hhash
    have hprogram : written.program limit = .error (.matcher (leftOpen .start before body)) := by
      rw [program, hfault]
      rfl
    have hmatcher : written.matcher.toList = before ++ '"' :: body :=
      String.toList_ofList.trans hbare
    refine ⟨before, body, hmatcher, hprogram, fun setup hsource hdepth => ?_⟩
    rw [← hdepth] at hprogram
    exact build_of_fault hsource hwritten hprogram
  · obtain ⟨e, hparse, -⟩ := compile_eq_ok_iff.mp hcompile
    obtain ⟨before, body, hkept, hfault⟩ :=
      @parse_cut _ _ _ [] kept [] rest hparse hsplit (by simp) (by simp)
    refine ⟨before, body, hkept, ?_⟩
    rw [Program.compile, hfault]
    rfl

/-- The lines of a model text before that of its matcher. -/
def sampleLines : List (List Char) :=
  ["[request_definition]", "r = sub", "[policy_definition]", "p = sub", "[policy_effect]",
    "e = some(where (p.eft == allow))", "[matchers]"].map String.toList

def sampleText (source : String) : String :=
  .ofList (['\n'].intercalate (sampleLines ++ [("m = " ++ source).toList]))

def sampleModel (source : String) : Model :=
  ⟨⟨"r", ["sub"]⟩, [⟨"p", ["sub"]⟩], [], ⟨.allowOverride, "p"⟩, source⟩

theorem split_sampleText {source : String} (h : '\n' ∉ source.toList) :
    List.splitOn '\n' (sampleText source).toList = sampleLines ++ [("m = " ++ source).toList] := by
  have hline : '\n' ∉ ("m = " ++ source).toList := by simpa [String.toList_append] using h
  have hlines : ∀ line ∈ sampleLines, '\n' ∉ line := by decide +kernel
  rw [sampleText, String.toList_ofList, List.splitOn_intercalate _ _ (by simp)]
  exact List.forall_mem_append.mpr ⟨hlines, List.forall_mem_singleton.mpr hline⟩

theorem sampleLines_under : Under matcherSection sampleLines := by
  have hname : IsSectionName matcherSection.toList :=
    ⟨'m', "atchers".toList, by decide, List.all_eq_true.mp (by decide), rfl⟩
  have hbare : bare "[matchers]".toList = '[' :: (matcherSection.toList ++ [']']) := by
    decide +kernel
  have hspells := Spells.header hname
  rw [← hbare, String.ofList_toList] at hspells
  exact ⟨sampleLines.dropLast, _, [], rfl, hspells, fun _ h => nomatch h⟩

/-- Of a source without a `#`, and of one with a `#` in a string. -/
theorem matcher_line_runs_or_fails_sample :
    ofText (sampleText " r.sub == p.sub") = .ok (sampleModel "r.sub == p.sub") ∧
    (∃ q, (sampleModel "r.sub == p.sub").program 8 = .ok q) ∧
    ofText (sampleText "r.sub == \"a#b\"") = .ok (sampleModel "r.sub == \"a") ∧
    ∃ before body, (sampleModel "r.sub == \"a").program 8 =
      .error (.matcher (leftOpen .start before body)) := by
  have hread : (ofText (sampleText "r.sub")).toOption = some (sampleModel "r.sub") := by
    decide +kernel
  have hmodel := Result.eq_ok_of_toOption hread
  have htext := @split_sampleText "r.sub" (by decide)
  have hold : Spells (bare ("m = " ++ "r.sub").toList) (.entry ("m", "r.sub")) :=
    spells_matcher_line (by decide +kernel)
  have hplain : Program.compile 8 " r.sub == p.sub" = .ok ⟨" r.sub == p.sub",
      [.fetchPath "r" ["sub"], .fetchPath "p" ["sub"], .binary .eq]⟩ := by with_unfolding_all rfl
  have hquoted : Program.compile 8 "r.sub == \"a#b\"" = .ok ⟨"r.sub == \"a#b\"",
      [.fetchPath "r" ["sub"], .push (.string "a#b"), .binary .eq]⟩ := by with_unfolding_all rfl
  obtain ⟨hplainText, hruns, -⟩ := matcher_line_runs_or_fails htext
    (split_sampleText (by decide)) sampleLines_under hold hmodel hplain
  obtain ⟨hquotedText, -, hfails, -⟩ := matcher_line_runs_or_fails htext
    (split_sampleText (by decide)) sampleLines_under hold hmodel hquoted
  obtain ⟨q, hq, -⟩ := hruns (by decide)
  obtain ⟨before, body, -, hfault, -⟩ := hfails (by decide)
  exact ⟨hplainText, ⟨q, hq⟩, hquotedText, before, body, hfault⟩

end AccessControl.Model
