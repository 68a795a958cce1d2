import AccessControl.Config.Scanner
import AccessControl.Proofs.Config.Parsing
import AccessControl.Proofs.Sequence

namespace AccessControl.Config

open Text

namespace Scanner

variable {p : Position} {cs tail : List Char} {found : List Gathered}

theorem takeFrom_append_stop {pass : Char → Bool} {xs ys : List Char} (hxs : ∀ x ∈ xs, pass x)
    (hys : ∀ y ∈ ys.head?, pass y = false) (p : Position) :
    takeFrom pass p (xs ++ ys) = (xs, ⟨ys, p.after xs⟩) := by
  induction xs generalizing p with
  | nil =>
    cases ys with
    | nil => rfl
    | cons y ys =>
      rw [List.nil_append, takeFrom, hys y rfl]
      rfl
  | cons x xs ih =>
    obtain ⟨hx, hxs⟩ := List.forall_mem_cons.mp hxs
    rw [List.cons_append, takeFrom, if_pos hx, ih hxs]
    rfl

theorem takeWhile_append_stop {pass : Char → Bool} {xs ys : List Char} (hxs : ∀ x ∈ xs, pass x)
    (hys : ∀ y ∈ ys.head?, pass y = false) (p : Position) :
    takeWhile pass ⟨xs ++ ys, p⟩ = (xs, ⟨ys, p.after xs⟩) :=
  takeFrom_append_stop hxs hys p

theorem eq_nil_or_newline (htail : ∀ c ∈ tail.head?, c = '\n') :
    tail = [] ∨ ∃ more, tail = '\n' :: more := by
  cases tail with
  | nil => exact .inl rfl
  | cons c more => exact .inr ⟨more, by rw [htail c rfl]⟩

/-- The end of a line stops what a newline does not pass. -/
theorem stop_append {pass : Char → Bool} (hnewline : pass '\n' = false)
    (hcs : ∀ c ∈ cs.head?, pass c = false) (htail : ∀ c ∈ tail.head?, c = '\n') :
    ∀ c ∈ (cs ++ tail).head?, pass c = false := by
  cases cs with
  | nil => exact fun c hc => htail c hc ▸ hnewline
  | cons c cs => exact hcs

theorem isInlineSpace_of_isBlank (hcs : '\n' ∉ cs) (h : ∀ c ∈ cs, isBlank c) :
    ∀ c ∈ cs, isInlineSpace c := by
  intro c hc
  have hne : c ≠ '\n' := fun heq => hcs (heq ▸ hc)
  simp [isInlineSpace, hne, h c hc]

theorem isInlineSpace_eq_false {c : Char} (h : isBlank c = false) : isInlineSpace c = false := by
  simp [isInlineSpace, h]

theorem skipInlineSpace_append {gap : List Char} (hnewline : '\n' ∉ gap)
    (hgap : ∀ c ∈ gap, isBlank c) (hcs : ∀ c ∈ cs.head?, isBlank c = false)
    (htail : ∀ c ∈ tail.head?, c = '\n') (p : Position) :
    skipInlineSpace ⟨gap ++ cs ++ tail, p⟩ = ⟨cs ++ tail, p.after gap⟩ := by
  have hstop := stop_append (by decide) (fun c hc => isInlineSpace_eq_false (hcs c hc)) htail
  rw [skipInlineSpace, List.append_assoc,
    takeWhile_append_stop (isInlineSpace_of_isBlank hnewline hgap) hstop]

theorem skipComment_append (hcs : '\n' ∉ cs) (htail : ∀ c ∈ tail.head?, c = '\n') (p : Position) :
    skipComment ⟨cs ++ tail, p⟩ = ⟨tail, p.after cs⟩ := by
  have hpass : ∀ c ∈ cs, (c != '\n') = true := fun c hc => by
    simpa using fun heq : c = '\n' => hcs (heq ▸ hc)
  have hstop : ∀ c ∈ tail.head?, (c != '\n') = false := fun c hc => by simp [htail c hc]
  rw [skipComment, takeWhile_append_stop hpass hstop]

/-- The sections so far, with one more line. -/
def addLine : Line → List Gathered → List Gathered
  | .blank, found => found
  | .header name p, found => found ++ [⟨name, p, []⟩]
  | .entry e, found => addEntry e found

/-- What has been taken of the line `cs` that starts at `p`, put in with `put`, against the line as
read: the same error, or the same element with at most a comment left over. -/
inductive Takes {α : Type} (put : α → List Gathered → List Gathered) (p : Position)
    (cs tail : List Char) : Except SyntaxError Line → Except SyntaxError (α × Scanner) → Prop
  | error {e} : Takes put p cs tail (.error e) (.error e)
  | ok {l a front comment} (hadd : addLine l = put a) (hcs : cs = front ++ comment)
    (hcomment : ∀ c ∈ comment.head?, c = '#') :
    Takes put p cs tail (.ok l) (.ok (a, ⟨comment ++ tail, p.after front⟩))

theorem headerEnd_comment {gap comment : List Char} (hnewline : '\n' ∉ gap)
    (hgap : ∀ c ∈ gap, isBlank c) (hcomment : ∀ c ∈ comment.head?, c = '#')
    (htail : ∀ c ∈ tail.head?, c = '\n') (g : Gathered) (p : Position) :
    headerEnd g ⟨gap ++ comment ++ tail, p⟩ = .ok (g, ⟨comment ++ tail, p.after gap⟩) := by
  rw [headerEnd, skipInlineSpace_append hnewline hgap (comment_stop hcomment) htail]
  cases comment with
  | cons c comment =>
    obtain rfl := hcomment c rfl
    rfl
  | nil =>
    rcases eq_nil_or_newline htail with rfl | ⟨more, rfl⟩
    · rfl
    · rfl

theorem headerEnd_stray {gap rest : List Char} {d : Char} (hnewline : '\n' ∉ gap)
    (hgap : ∀ c ∈ gap, isBlank c) (hd : isBlank d = false) (hhash : d ≠ '#') (g : Gathered)
    (p : Position) :
    headerEnd g ⟨gap ++ d :: rest, p⟩ = .error ⟨.afterHeader d g.name, p.after gap⟩ := by
  have hskip := @skipInlineSpace_append (d :: rest) [] gap hnewline hgap (stop_cons hd rest)
    (fun _ h => nomatch h) p
  rw [List.append_nil, List.append_nil] at hskip
  have hne : d ≠ '\n' := by
    rintro rfl
    cases hd
  simp only [headerEnd, hskip]

theorem takes_header (hcs : '\n' ∉ cs) (htail : ∀ c ∈ tail.head?, c = '\n') :
    Takes (fun g found => found ++ [g]) p ('[' :: cs) tail (Line.readHeader p cs)
      (header ⟨'[' :: (cs ++ tail), p⟩) := by
  obtain ⟨name, rest, rfl, hname, hrest⟩ := exists_append_stop isSectionNamePart cs
  obtain ⟨htake, hdrop⟩ := Text.takeWhile_append_stop hname hrest
  have htaken : takeWhile isSectionNamePart ⟨name ++ rest ++ tail, p.next '['⟩ =
      (name, ⟨rest ++ tail, (p.next '[').after name⟩) := by
    rw [List.append_assoc, takeWhile_append_stop hname (stop_append (by decide) hrest htail)]
  simp only [Line.readHeader, header, bump, htake, hdrop, htaken]
  -- by the character that stops what is taken: of the text, of the name, of the blanks behind it
  cases hword : name ++ rest with
  | nil =>
    rcases eq_nil_or_newline htail with rfl | ⟨more, rfl⟩
    · exact .error
    · exact .error
  | cons c word =>
    have hc : c ≠ '\n' := fun heq => hcs (by rw [hword, heq]; exact List.mem_cons_self)
    simp only [List.cons_append, List.head?_cons]
    split
    · exact .error
    cases rest with
    | nil =>
      rcases eq_nil_or_newline htail with rfl | ⟨more, rfl⟩
      · exact .error
      · exact .error
    | cons d rest =>
      have hd : d ≠ '\n' := fun heq => hcs (by simp [heq])
      by_cases hbracket : d = ']'
      · subst hbracket
        obtain ⟨gap, rest, rfl, hgap, hstop⟩ := exists_append_stop isBlank rest
        have hgapLine : '\n' ∉ gap := fun hmem => hcs (by simp [hmem])
        have hplace : (((p.next '[').after name).next ']').after gap =
            p.after ('[' :: (name ++ ']' :: gap)) := by simp
        have hend := @headerEnd_comment tail gap rest hgapLine hgap
        have hline : '[' :: c :: word = '[' :: (name ++ ']' :: gap) ++ rest := by simp [← hword]
        simp only [List.cons_append, Text.takeWhile_append_stop hgap hstop]
        cases rest with
        | nil =>
          rw [hend (by simp) htail, hplace]
          exact .ok rfl hline (by simp)
        | cons d rest =>
          by_cases hhash : d = '#'
          · subst hhash
            rw [hend (by simp) htail, hplace]
            exact .ok rfl hline (by simp)
          · have hstray := @headerEnd_stray gap (rest ++ tail) d hgapLine hgap (hstop d rfl) hhash
            simp only [List.append_assoc, List.cons_append, hstray]
            exact .error
      · simp only [List.cons_append]
        exact .error

theorem takes_entry (hcs : '\n' ∉ cs) (htail : ∀ c ∈ tail.head?, c = '\n') :
    Takes addEntry p cs tail (Line.readEntry tail.isEmpty p cs) (entry ⟨cs ++ tail, p⟩) := by
  obtain ⟨key, rest, rfl, hkey, hrest⟩ := exists_append_stop isSymbolPart cs
  obtain ⟨gap, rest, rfl, hgap, hstop⟩ := exists_append_stop isBlank rest
  have hgapLine : '\n' ∉ gap := fun hmem => hcs (by simp [hmem])
  have htaken : takeWhile isSymbolPart ⟨key ++ (gap ++ rest) ++ tail, p⟩ =
      (key, ⟨gap ++ rest ++ tail, p.after key⟩) := by
    rw [List.append_assoc, takeWhile_append_stop hkey (stop_append (by decide) hrest htail)]
  simp only [Line.readEntry, entry, Text.takeWhile_append_stop hkey hrest,
    Text.takeWhile_append_stop hgap hstop, htaken,
    skipInlineSpace_append hgapLine hgap hstop htail]
  cases rest with
  | nil =>
    rcases eq_nil_or_newline htail with rfl | ⟨more, rfl⟩
    · exact .error
    · exact .error
  | cons c rest =>
    have hc : c ≠ '\n' := fun heq => hcs (by simp [heq])
    by_cases hhash : c = '#'
    · subst hhash
      exact .error
    have hhead : ((rest ++ tail).head? == some '=') = (rest.head? == some '=') := by
      cases rest with
      | cons => rfl
      | nil =>
        rcases eq_nil_or_newline htail with rfl | ⟨more, rfl⟩
        · rfl
        · rfl
    simp only [List.cons_append, hhead]
    split
    · exact .error
    split
    · exact .error
    · next hequals =>
      obtain rfl : c = '=' := by simpa using hequals
      obtain ⟨value, comment, rfl, hvalue, hcomment⟩ := exists_comment rest
      have hpass : ∀ d ∈ value, (d != '\n' && d != '#') = true := fun d hd => by
        have hline : d ≠ '\n' := fun heq => hcs (by simp [heq ▸ hd])
        have hhash : d ≠ '#' := fun heq => hvalue (heq ▸ hd)
        simp [hline, hhash]
      have hend : ∀ d ∈ (comment ++ tail).head?, (d != '\n' && d != '#') = false :=
        stop_append rfl (fun d hd => by simp [hcomment d hd]) htail
      have hplace : (((p.after key).after gap).next '=').after value =
          p.after (key ++ (gap ++ '=' :: value)) := by simp
      simp only [bump, List.append_assoc, takeWhile_append_stop hpass hend,
        takeWhile_comment hvalue hcomment, hplace]
      exact .ok rfl (by simp) hcomment

theorem run_nil : run ⟨[], p⟩ found = .ok found := by
  rw [run]

/-- What is taken next is known by its first character. -/
theorem run_cons (c : Char) (cs : List Char) (p : Position) (found : List Gathered) :
    run ⟨c :: cs, p⟩ found =
      if c = '#' then run (skipComment ⟨c :: cs, p⟩) found
      else if c = '[' then header ⟨c :: cs, p⟩ >>= fun (g, s) => run s (found ++ [g])
      else if isBlank c then run ⟨cs, p.next c⟩ found
      else if isSymbolStart c then entry ⟨c :: cs, p⟩ >>= fun (e, s) => run s (addEntry e found)
      else .error ⟨.strayCharacter c, p⟩ := by
  rw [run]
  dsimp only
  split
  · rfl
  split
  · split
    · next h => rw [h, Result.ok_bind]
    · next h => rw [h, Result.error_bind]
  split
  · rfl
  split
  · split
    · next h => rw [h, Result.ok_bind]
    · next h => rw [h, Result.error_bind]
  · rfl

theorem run_blanks {gap : List Char} (hgap : ∀ c ∈ gap, isBlank c) (cs : List Char) :
    run ⟨gap ++ cs, p⟩ found = run ⟨cs, p.after gap⟩ found := by
  induction gap generalizing p with
  | nil => rfl
  | cons c gap ih =>
    obtain ⟨hc, hgap⟩ := List.forall_mem_cons.mp hgap
    have hhash : c ≠ '#' := by
      rintro rfl
      cases hc
    have hbracket : c ≠ '[' := by
      rintro rfl
      cases hc
    rw [List.cons_append, run_cons, if_neg hhash, if_neg hbracket, if_pos hc, ih hgap]
    rfl

theorem run_comment {comment : List Char} (hnewline : '\n' ∉ comment)
    (hcomment : ∀ c ∈ comment.head?, c = '#') (htail : ∀ c ∈ tail.head?, c = '\n') :
    run ⟨comment ++ tail, p⟩ found = run ⟨tail, p.after comment⟩ found := by
  cases comment with
  | nil => rfl
  | cons c comment =>
    obtain rfl := hcomment c rfl
    rw [List.cons_append, run_cons, if_pos rfl, ← List.cons_append,
      skipComment_append hnewline htail]

/-- What is left over of a line that has been taken is skipped. -/
theorem run_of_takes {α : Type} {put : α → List Gathered → List Gathered}
    {read : Except SyntaxError Line} {take : Except SyntaxError (α × Scanner)}
    (h : Takes put p cs tail read take) (hcs : '\n' ∉ cs) (htail : ∀ c ∈ tail.head?, c = '\n') :
    (take >>= fun (a, s) => run s (put a found)) =
      read >>= fun l => run ⟨tail, p.after cs⟩ (addLine l found) := by
  cases h with
  | error => rfl
  | ok hadd hsplit hcomment =>
    subst hsplit
    have hnewline := fun hmem => hcs (List.mem_append_right _ hmem)
    rw [Result.ok_bind, Result.ok_bind, hadd, Position.after_append]
    exact run_comment hnewline hcomment htail

/-- A line is taken as it is read. -/
theorem run_line (hcs : '\n' ∉ cs) (htail : ∀ c ∈ tail.head?, c = '\n') :
    run ⟨cs ++ tail, p⟩ found = Line.read tail.isEmpty p cs >>= fun l =>
      run ⟨tail, p.after cs⟩ (addLine l found) := by
  obtain ⟨lead, rest, rfl, hlead, hrest⟩ := exists_append_stop isBlank cs
  have hline : '\n' ∉ rest := fun hmem => hcs (List.mem_append_right _ hmem)
  rw [List.append_assoc, run_blanks hlead, Position.after_append]
  by_cases hcomment : ∀ c ∈ rest.head?, c = '#'
  · rw [run_comment hline hcomment htail, Line.read_comment _ hlead hcomment]
    rfl
  cases rest with
  | nil => exact absurd (fun _ h => nomatch h) hcomment
  | cons c rest =>
  have hhash : c ≠ '#' := by simpa using hcomment
  have hblank := hrest c rfl
  rw [List.cons_append, run_cons, if_neg hhash]
  by_cases hbracket : c = '['
  · subst hbracket
    have htakes := @takes_header (p.after lead) rest tail (List.not_mem_of_not_mem_cons hline) htail
    rw [if_pos rfl, Line.read_bracket _ hlead, run_of_takes htakes hline htail]
  rw [if_neg hbracket, if_neg (by simp [hblank])]
  by_cases hsymbol : isSymbolStart c
  · have htakes := @takes_entry (p.after lead) (c :: rest) tail hline htail
    rw [if_pos hsymbol, Line.read_symbol _ hlead hsymbol]
    exact run_of_takes htakes hline htail
  · rw [if_neg hsymbol, Line.read_stray _ hlead hblank hhash hbracket (by simpa using hsymbol)]
    rfl

/-- All lines are taken as they are read. -/
theorem run_lines {css : List (List Char)} (hcss : ∀ cs ∈ css, '\n' ∉ cs) (hne : css ≠ [])
    (n : Nat) (found : List Gathered) : run ⟨['\n'].intercalate css, ⟨n, 1⟩⟩ found =
      Line.readAll n css >>= fun lines =>
        .ok (lines.foldl (fun found l => addLine l found) found) := by
  induction css generalizing n found with
  | nil => exact absurd rfl hne
  | cons cs css ih =>
    obtain ⟨hcs, hcss⟩ := List.forall_mem_cons.mp hcss
    cases css with
    | nil =>
      have hline := @run_line ⟨n, 1⟩ cs [] found hcs (fun _ h => nomatch h)
      rw [List.append_nil] at hline
      rw [List.intercalate_singleton, hline, Line.readAll, bind_assoc]
      refine bind_congr fun l => ?_
      rw [run_nil]
      rfl
    | cons next css =>
      have hline := @run_line ⟨n, 1⟩ cs ('\n' :: ['\n'].intercalate (next :: css)) found hcs
        (by simp)
      rw [List.intercalate_cons_cons, List.append_assoc, List.singleton_append, hline,
        Line.readAll, bind_assoc]
      refine bind_congr fun l => ?_
      have hnewline := @run_blanks ((⟨n, 1⟩ : Position).after cs) (addLine l found) ['\n']
        (List.forall_mem_singleton.mpr (by decide)) (['\n'].intercalate (next :: css))
      have hplace : ((⟨n, 1⟩ : Position).after cs).after ['\n'] = ⟨n + 1, 1⟩ := by
        rw [Position.after_line hcs, Position.after_cons, Position.next, if_pos rfl]
        rfl
      rw [hplace, List.singleton_append] at hnewline
      rw [hnewline, ih hcss (List.cons_ne_nil next css), bind_assoc]
      rfl

theorem addEntry_append (e : Entry) (found : List Gathered) (g : Gathered) :
    addEntry e (found ++ [g]) = found ++ [{ g with entries := g.entries ++ [e] }] := by
  induction found with
  | nil => rfl
  | cons g' found ih =>
    obtain ⟨next, rest, hrest⟩ := List.exists_cons_of_ne_nil
      (List.append_ne_nil_of_right_ne_nil found (List.cons_ne_nil g []))
    rw [List.cons_append, hrest, addEntry, ← hrest, ih, List.cons_append]

/-- Lines behind a section add their entries to it, up to the next header. -/
theorem foldl_addLine_append (lines : List Line) (found : List Gathered) (g : Gathered) :
    lines.foldl (fun found l => addLine l found) (found ++ [g]) =
      found ++ { g with entries := g.entries ++ (gather lines).1 } :: (gather lines).2 := by
  induction lines generalizing found g with
  | nil => simp [gather]
  | cons l lines ih =>
    cases l with
    | blank => exact ih found g
    | header name p =>
      rw [List.foldl_cons, addLine, ih]
      simp [gather]
    | entry e =>
      rw [List.foldl_cons, addLine, addEntry_append, ih]
      simp [gather]

theorem foldl_addLine (lines : List Line) :
    lines.foldl (fun found l => addLine l found) [] = gatherSections lines := by
  induction lines with
  | nil => rfl
  | cons l lines ih =>
    cases l with
    | blank => exact ih
    | header name p => exact foldl_addLine_append lines [] ⟨name, p, []⟩
    | entry e => exact foldl_addLine_append lines [] ⟨defaultSection, e.keyPosition, [e]⟩

end Scanner

/-- One pass over the characters comes to what the lines come to. -/
theorem Document.scan_eq_parse (text : String) : Document.scan text = Document.parse text := by
  have hlines := @Scanner.run_lines (text.toList.splitOn '\n')
    (fun _ hcs => Sequence.notMem_of_mem_splitOn hcs) (List.splitOn_ne_nil '\n' text.toList) 1 []
  rw [List.intercalate_splitOn] at hlines
  rw [Document.scan, Document.parse, Position.start, hlines, bind_assoc]
  refine bind_congr fun lines => ?_
  rw [Result.ok_bind, Scanner.foldl_addLine]

/-- A text is read as the sections that its bare lines list, if each of these lines spells
something and the sections are consistent. So it is by one pass over its characters, and so it is
line by line. -/
theorem scan_reads_grammar (text : String) (d : Document) :
    (Document.scan text = .ok d ↔ ∃ sts,
      List.Forall₂ Spells (bareLines (text.toList.splitOn '\n')) sts ∧ Lists sts d.sections ∧
        Consistent d.sections) ∧
    Document.scan text = Document.parse text := by
  refine ⟨?_, Document.scan_eq_parse text⟩
  rw [Document.scan_eq_parse]
  constructor
  · exact spells_of_parse
  · rintro ⟨sts, hspells, hlists, hconsistent⟩
    exact parse_of_spells hspells hlists hconsistent

/-- The `=` ends the key, and only a second one right behind it is an operator. -/
example : Document.scan "k= =v # w" = .ok ⟨[⟨"default", [("k", "=v")]⟩]⟩ := by cbv

end AccessControl.Config
