import AccessControl.Proofs.Config.Parsing
import AccessControl.Proofs.Sequence

namespace AccessControl.Config

open Text

/-- Not empty, on one line, without a comment, and with no blank at either end. -/
structure IsValue (cs : List Char) : Prop where
  nonempty : cs ≠ []
  head : ∀ c ∈ cs.head?, isBlank c = false
  last : ∀ c ∈ cs.getLast?, isBlank c = false
  newline : '\n' ∉ cs
  hash : '#' ∉ cs

/-- What a document needs in order to be written down. -/
structure Document.WellFormed (d : Document) : Prop where
  consistent : Consistent d.sections
  names : ∀ s ∈ d.sections, IsSectionName s.name.toList
  keys : ∀ s ∈ d.sections, ∀ e ∈ s.entries, isSymbol e.1.toList
  values : ∀ s ∈ d.sections, ∀ e ∈ s.entries, IsValue e.2.toList

/-- The rules for what is said, be it a name, a key or a value. -/
def Statement.WellFormed : Statement → Prop
  | .header name => IsSectionName name.toList
  | .entry e => isSymbol e.1.toList ∧ IsValue e.2.toList

theorem wellFormed_of_spells {cs : List Char} {st : Statement} (hnewline : '\n' ∉ cs)
    (hhash : '#' ∉ cs) (h : Spells cs st) : st.WellFormed := by
  cases h with
  | header hname => rwa [Statement.WellFormed, String.toList_ofList]
  | @entry key gap rest hkey _ _ hvalue =>
    have hmem {c : Char} (hc : c ∈ trim rest) : c ∈ key ++ (gap ++ '=' :: rest) := by
      simp [mem_of_mem_trim hc]
    have hisValue : IsValue (trim rest) :=
      ⟨hvalue, trim_head rest, trimRight_getLast _, mt hmem hnewline, mt hmem hhash⟩
    exact ⟨by simpa using hkey, by simpa using hisValue⟩

theorem newline_notMem_bare {cs : List Char} (h : '\n' ∉ cs) : '\n' ∉ bare cs :=
  fun hmem => h ((List.takeWhile_sublist _).subset (mem_of_mem_trim hmem))

theorem wellFormed_of_mem {cs : List Char} {sts : List Statement} {st : Statement}
    (h : List.Forall₂ Spells (bareLines (cs.splitOn '\n')) sts) (hst : st ∈ sts) :
    st.WellFormed := by
  obtain ⟨word, hword, hspells⟩ := exists_spells_of_mem h hst
  obtain ⟨line, hline, rfl⟩ := List.mem_map.mp (List.mem_filter.mp hword).1
  exact wellFormed_of_spells (newline_notMem_bare (Sequence.notMem_of_mem_splitOn hline))
    (hash_notMem_bare line) hspells

theorem name_of_lists {sts : List Statement} {ss : List Section} (h : Lists sts ss) :
    ∀ s ∈ ss, s.name = defaultSection ∨ .header s.name ∈ sts := by
  cases h with
  | headed => exact fun s hs => .inr (List.mem_flatMap.mpr ⟨s, hs, List.mem_cons_self⟩)
  | leading =>
    refine List.forall_mem_cons.mpr ⟨.inl rfl, fun s hs => .inr ?_⟩
    exact List.mem_append_right _ (List.mem_flatMap.mpr ⟨s, hs, List.mem_cons_self⟩)

theorem isSectionName_default : IsSectionName defaultSection.toList :=
  ⟨'d', "efault".toList, by decide, List.all_eq_true.mp (by decide), rfl⟩

theorem wellFormed_of_parse {text : String} {d : Document} (h : Document.parse text = .ok d) :
    d.WellFormed := by
  obtain ⟨sts, hspells, hlists, hconsistent⟩ := spells_of_parse h
  have hentry {s : Section} (hs : s ∈ d.sections) {e : String × String} (he : e ∈ s.entries) :=
    wellFormed_of_mem hspells ((mem_of_lists hlists).mpr ⟨s, hs, he⟩)
  refine ⟨hconsistent, fun s hs => ?_, fun s hs e he => (hentry hs he).1,
    fun s hs e he => (hentry hs he).2⟩
  rcases name_of_lists hlists s hs with hdefault | hheader
  · rw [hdefault]
    exact isSectionName_default
  · exact wellFormed_of_mem hspells hheader

section

variable {cs : List Char} {sts : List Statement}

theorem bareLines_newline (cs : List Char) :
    bareLines (List.splitOn '\n' ('\n' :: cs)) = bareLines (cs.splitOn '\n') := by
  have hsplit := List.splitOn_append_cons_self_of_not_mem (by simp : '\n' ∉ []) cs
  rw [List.nil_append] at hsplit
  rw [hsplit, bareLines_cons_of_nil rfl]

theorem spells_line {line : List Char} {st : Statement} (hnewline : '\n' ∉ line)
    (hline : Spells (bare line) st) (hcs : List.Forall₂ Spells (bareLines (cs.splitOn '\n')) sts) :
    List.Forall₂ Spells (bareLines (List.splitOn '\n' (line ++ '\n' :: cs))) (st :: sts) := by
  rw [List.splitOn_append_cons_self_of_not_mem hnewline, bareLines_cons (ne_nil_of_spells hline)]
  exact .cons hline hcs

/-- How a statement is written. -/
def Statement.line : Statement → List Char
  | .header name => '[' :: (name.toList ++ [']'])
  | .entry e => e.1.toList ++ ([' '] ++ '=' :: ' ' :: e.2.toList)

theorem newline_notMem_line {st : Statement} (h : st.WellFormed) : '\n' ∉ st.line := by
  cases st with
  | header name =>
    have hname := notMem_of_forall (isSectionNamePart_of_isSectionName h)
      (by decide : isSectionNamePart '\n' = false)
    simp [Statement.line, hname]
  | entry e =>
    have hkey := notMem_of_forall (isSymbolPart_of_isSymbol h.1)
      (by decide : isSymbolPart '\n' = false)
    simp [Statement.line, hkey, h.2.newline]

theorem spells_bare_line {st : Statement} (h : st.WellFormed) : Spells (bare st.line) st := by
  cases st with
  | header name =>
    have hbare := @bare_header [] name.toList [] [] (by simp) h (by simp) (by simp)
    have hspells := Spells.header h
    rw [String.ofList_toList, ← hbare] at hspells
    simpa [Statement.line] using hspells
  | entry e =>
    obtain ⟨key, value⟩ := e
    obtain ⟨hkey, hvalue⟩ := h
    have hspace := isBlank_of_mem_space
    have htrim : trim (' ' :: value.toList) = value.toList :=
      (trim_blank_append hspace value.toList).trans (trim_eq_self hvalue.head hvalue.last)
    have hright : trimRight (' ' :: value.toList) = ' ' :: value.toList := by
      apply trimRight_eq_self
      intro c hc
      rw [List.getLast?_cons_of_ne_nil hvalue.nonempty] at hc
      exact hvalue.last c hc
    have hhash : '#' ∉ ' ' :: value.toList := by simp [hvalue.hash]
    have hbare := @bare_entry [] key.toList [' '] _ [] (by simp) hkey hspace hhash (by simp)
    have hspells := @Spells.entry _ _ (' ' :: value.toList) hkey hspace (by simp)
      (htrim.symm ▸ hvalue.nonempty)
    rw [htrim, String.ofList_toList, String.ofList_toList, ← hright, ← hbare] at hspells
    simpa [Statement.line] using hspells

/-- The text of some statements. -/
def linesOf (sts : List Statement) : List Char :=
  sts.flatMap fun st => st.line ++ ['\n']

theorem spells_linesOf {sts' : List Statement} (h : ∀ st ∈ sts, st.WellFormed)
    (hcs : List.Forall₂ Spells (bareLines (cs.splitOn '\n')) sts') :
    List.Forall₂ Spells (bareLines (List.splitOn '\n' (linesOf sts ++ cs))) (sts ++ sts') := by
  induction sts with
  | nil => exact hcs
  | cons st sts ih =>
    obtain ⟨hst, hsts⟩ := List.forall_mem_cons.mp h
    have hline := spells_line (newline_notMem_line hst) (spells_bare_line hst) (ih hsts)
    simpa [linesOf] using hline

theorem renderEntries_toList (s : Section) :
    (Document.renderEntries s).toList = linesOf (s.entries.map .entry) := by
  have hentry (e : String × String) :
      (Document.renderEntry e).toList = Statement.line (.entry e) ++ ['\n'] := by
    simp only [Document.renderEntry, String.toList_append, Statement.line]
    change e.1.toList ++ [' ', '=', ' '] ++ e.2.toList ++ ['\n'] = _
    simp
  simp [Document.renderEntries, String.toList_join, linesOf, hentry, List.flatMap_map]

theorem renderSection_toList (s : Section) :
    (Document.renderSection s).toList = linesOf s.statements := by
  have hheader : (Document.renderSection s).toList =
      ['['] ++ (s.name.toList ++ [']', '\n']) ++ (Document.renderEntries s).toList := by
    simp only [Document.renderSection, String.toList_append]
    rfl
  rw [hheader, renderEntries_toList]
  simp [linesOf, Section.statements, Statement.line]

/-- The sections behind the first one. -/
def laterSections (sections : List Section) : String :=
  String.join (sections.map fun s => "\n" ++ Document.renderSection s)

theorem spells_laterSections {sections : List Section}
    (h : ∀ s ∈ sections, ∀ st ∈ s.statements, st.WellFormed) :
    List.Forall₂ Spells (bareLines (List.splitOn '\n' (laterSections sections).toList))
      (sections.flatMap Section.statements) := by
  induction sections with
  | nil => exact .nil
  | cons s sections ih =>
    obtain ⟨hs, hsections⟩ := List.forall_mem_cons.mp h
    have hlines := spells_linesOf hs (ih hsections)
    rw [← renderSection_toList, ← bareLines_newline] at hlines
    simpa [laterSections, String.toList_join] using hlines

end

namespace Document.WellFormed

variable {d : Document} {s : Section}

theorem entry (h : d.WellFormed) (hs : s ∈ d.sections) :
    ∀ st ∈ s.entries.map Statement.entry, st.WellFormed :=
  List.forall_mem_map.mpr fun e he => ⟨h.keys s hs e he, h.values s hs e he⟩

theorem statement (h : d.WellFormed) (hs : s ∈ d.sections) : ∀ st ∈ s.statements, st.WellFormed :=
  List.forall_mem_cons.mpr ⟨h.names s hs, h.entry hs⟩

end Document.WellFormed

theorem lists_of_default {s : Section} (sections : List Section) (hname : s.name = defaultSection)
    (hentries : s.entries ≠ []) :
    Lists (s.entries.map .entry ++ sections.flatMap Section.statements) (s :: sections) := by
  obtain ⟨name, entries⟩ := s
  obtain ⟨e, entries, rfl⟩ := List.exists_cons_of_ne_nil hentries
  cases hname
  exact .leading

theorem render_cons (s : Section) (sections : List Section) : Document.render ⟨s :: sections⟩ =
    (if s.name = defaultSection then Document.renderEntries s else Document.renderSection s) ++
      laterSections sections := rfl

theorem parse_render {d : Document} (h : d.WellFormed) : Document.parse d.render = .ok d := by
  obtain ⟨sections⟩ := d
  cases sections with
  | nil => exact @parse_of_spells "" ⟨[]⟩ [] .nil (@Lists.headed []) h.consistent
  | cons s sections =>
    have hs : s ∈ s :: sections := List.mem_cons_self
    have hrest := spells_laterSections fun s' hs' => h.statement (List.mem_cons_of_mem s hs')
    by_cases hdefault : s.name = defaultSection
    · have hlists := lists_of_default sections hdefault (h.consistent.entries s hs)
      have hlines := spells_linesOf (h.entry hs) hrest
      rw [← renderEntries_toList, ← String.toList_append] at hlines
      refine parse_of_spells ?_ hlists h.consistent
      rwa [render_cons, if_pos hdefault]
    · have hlines := spells_linesOf (h.statement hs) hrest
      rw [← renderSection_toList, ← String.toList_append] at hlines
      refine parse_of_spells ?_ (@Lists.headed (s :: sections)) h.consistent
      rwa [render_cons, if_neg hdefault]

/-- The documents that can be read are those that are well-formed, and no others are read back from
their renderings. -/
theorem render_round_trip (d : Document) :
    (d.WellFormed ↔ ∃ text, Document.parse text = .ok d) ∧
    (d.WellFormed ↔ Document.parse d.render = .ok d) :=
  ⟨⟨fun h => ⟨d.render, parse_render h⟩, fun ⟨_, h⟩ => wellFormed_of_parse h⟩,
    parse_render, wellFormed_of_parse⟩

/-- Only in first place does the default section go without its header. -/
example : Document.render ⟨[⟨"a", [("k", "[v] = w")]⟩, ⟨"default", [("k", "v")]⟩]⟩ =
    "[a]\nk = [v] = w\n\n[default]\nk = v\n" := rfl

end AccessControl.Config
