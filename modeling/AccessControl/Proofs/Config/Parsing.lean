import AccessControl.Config.Parser
import AccessControl.Proofs.Config.Line
import AccessControl.Proofs.Result
import Mathlib.Data.List.Forall2

namespace AccessControl.Config

open Text

theorem ne_nil_of_spells {cs : List Char} {st : Statement} (h : Spells cs st) : cs ≠ [] := by
  cases h <;> simp

def Line.statements (lines : List Line) : List Statement :=
  lines.filterMap Line.statement?

theorem readAll_of_spells {css : List (List Char)} {sts : List Statement}
    (h : List.Forall₂ Spells (bareLines css) sts) (n : Nat) :
    ∃ lines, Line.readAll n css = .ok lines ∧ Line.statements lines = sts := by
  induction css generalizing n sts with
  | nil =>
    cases h
    exact ⟨[], rfl, rfl⟩
  | cons cs css ih =>
    by_cases hbare : bare cs = []
    · have hread := @Line.read_of_bare_eq_nil ⟨n, 1⟩ cs css.isEmpty hbare
      rw [bareLines_cons_of_nil hbare] at h
      obtain ⟨lines, hlines, rfl⟩ := ih h (n + 1)
      exact ⟨.blank :: lines, by rw [Line.readAll, hread, hlines]; rfl, rfl⟩
    · rw [bareLines_cons hbare] at h
      cases h with
      | cons hline hrest =>
        obtain ⟨l, hread, hl⟩ := @Line.read_of_spells ⟨n, 1⟩ cs _ css.isEmpty hline
        obtain ⟨lines, hlines, rfl⟩ := ih hrest (n + 1)
        refine ⟨l :: lines, by rw [Line.readAll, hread, hlines]; rfl, ?_⟩
        rw [Line.statements, List.filterMap_cons, hl]
        rfl

/-- That no value is missing is checked only later, with the sections. -/
theorem spells_of_readAll {css : List (List Char)} {n : Nat} {lines : List Line}
    (h : Line.readAll n css = .ok lines)
    (hvalues : ∀ entry, .entry entry ∈ Line.statements lines → entry.2 ≠ "") :
    List.Forall₂ Spells (bareLines css) (Line.statements lines) := by
  induction css generalizing n lines with
  | nil =>
    cases h
    exact .nil
  | cons cs css ih =>
    obtain ⟨l, hread, h⟩ := Result.bind_eq_ok_iff.mp h
    obtain ⟨rest, hlines, h⟩ := Result.bind_eq_ok_iff.mp h
    cases h
    have hfits := Line.fits_of_read hread
    cases l with
    | blank =>
      have hrest := ih hlines hvalues
      rw [bareLines_cons_of_nil hfits]
      exact hrest
    | header name p =>
      have hrest := ih hlines fun e he => hvalues e (List.mem_cons_of_mem _ he)
      rw [bareLines_cons (ne_nil_of_spells hfits)]
      exact .cons hfits hrest
    | entry e =>
      have hrest := ih hlines fun e' he => hvalues e' (List.mem_cons_of_mem _ he)
      have hspells := hfits (hvalues _ List.mem_cons_self)
      rw [bareLines_cons (ne_nil_of_spells hspells)]
      exact .cons hspells hrest

/-- The entries before the first header, and the sections after it. -/
def regroup : List Statement → List (String × String) × List Section
  | [] => ([], [])
  | .entry e :: sts => (e :: (regroup sts).1, (regroup sts).2)
  | .header name :: sts => ([], ⟨name, (regroup sts).1⟩ :: (regroup sts).2)

theorem regroup_append (entries : List (String × String)) (sts : List Statement) :
    regroup (entries.map .entry ++ sts) = (entries ++ (regroup sts).1, (regroup sts).2) := by
  induction entries with
  | nil => rfl
  | cons e entries ih => rw [List.map_cons, List.cons_append, regroup, ih, List.cons_append]

theorem regroup_flatMap (sections : List Section) :
    regroup (sections.flatMap Section.statements) = ([], sections) := by
  induction sections with
  | nil => rfl
  | cons s sections ih =>
    rw [List.flatMap_cons, Section.statements, List.cons_append, regroup, regroup_append, ih,
      List.append_nil]

theorem statements_regroup (sts : List Statement) :
    (regroup sts).1.map .entry ++ (regroup sts).2.flatMap Section.statements = sts := by
  induction sts with
  | nil => rfl
  | cons st sts ih =>
    cases st with
    | header name =>
      rw [regroup, List.map_nil, List.nil_append, List.flatMap_cons, Section.statements,
        List.cons_append, ih]
    | entry e => rw [regroup, List.map_cons, List.cons_append, ih]

/-- The sections that statements make up. -/
def sectionsOf (sts : List Statement) : List Section :=
  match regroup sts with
  | ([], sections) => sections
  | (e :: entries, sections) => ⟨defaultSection, e :: entries⟩ :: sections

theorem lists_iff {sts : List Statement} {ss : List Section} :
    Lists sts ss ↔ sectionsOf sts = ss := by
  constructor
  · intro h
    cases h with
    | headed => rw [sectionsOf, regroup_flatMap]
    | leading => rw [sectionsOf, regroup_append, regroup_flatMap, List.append_nil]
  · rintro rfl
    have hsts := statements_regroup sts
    rw [sectionsOf]
    split
    · next sections h =>
      rw [h] at hsts
      exact hsts ▸ .headed
    · next e entries sections h =>
      rw [h] at hsts
      exact hsts ▸ .leading

theorem mem_of_lists {sts : List Statement} {ss : List Section} (h : Lists sts ss)
    {e : String × String} : .entry e ∈ sts ↔ ∃ s ∈ ss, e ∈ s.entries := by
  cases h with
  | headed => simp [Section.statements]
  | leading => simp [Section.statements, or_assoc]

def Entry.content (e : Entry) : String × String :=
  (e.key, e.value)

def Gathered.content (s : Gathered) : Section :=
  ⟨s.name, s.entries.map Entry.content⟩

theorem gather_content (lines : List Line) :
    ((gather lines).1.map Entry.content, (gather lines).2.map Gathered.content) =
      regroup (Line.statements lines) := by
  induction lines with
  | nil => rfl
  | cons l lines ih =>
    rw [Line.statements] at ih ⊢
    cases l with
    | blank => exact ih
    | header name p => simp [gather, Line.statement?, regroup, Gathered.content, ← ih]
    | entry e => simp [gather, Line.statement?, regroup, Entry.content, ← ih]

theorem lists_gatherSections (lines : List Line) :
    Lists (Line.statements lines) ((gatherSections lines).map Gathered.content) := by
  rw [lists_iff, sectionsOf, ← gather_content, gatherSections]
  obtain ⟨entries, sections⟩ := gather lines
  cases entries <;> rfl

/-- No name occurs twice, and none among those that have gone before. -/
def Fresh (seen names : List String) : Prop :=
  names.Nodup ∧ ∀ name ∈ names, name ∉ seen

@[simp] theorem fresh_nil (seen : List String) : Fresh seen [] :=
  ⟨.nil, fun _ h => nomatch h⟩

@[simp] theorem fresh_cons {seen names : List String} {name : String} :
    Fresh seen (name :: names) ↔ name ∉ seen ∧ Fresh (name :: seen) names := by
  simp only [Fresh, List.nodup_cons, List.mem_cons]
  grind

theorem fresh_iff_nodup {names : List String} : Fresh [] names ↔ names.Nodup := by
  simp [Fresh]

theorem checkEntries_eq_ok_iff {name : String} {seen : List String} {es : List Entry}
    {kvs : List (String × String)} : checkEntries name seen es = .ok kvs ↔
      es.map Entry.content = kvs ∧ Fresh seen (es.map Entry.key) ∧ ∀ e ∈ es, e.value ≠ "" := by
  induction es generalizing seen kvs with
  | nil => simp [checkEntries]
  | cons e es ih =>
    rw [checkEntries]
    by_cases hseen : e.key ∈ seen
    · simp [hseen]
    by_cases hvalue : e.value = ""
    · simp [hseen, hvalue]
    · simp [hseen, hvalue, Result.bind_eq_ok_iff, ih, Entry.content, and_comm]

/-- What is asked of a section for itself. -/
def Gathered.Passes (g : Gathered) : Prop :=
  g.entries ≠ [] ∧ Fresh [] (g.entries.map Entry.key) ∧ ∀ e ∈ g.entries, e.value ≠ ""

theorem checkSections_eq_ok_iff {seen : List String} {gs : List Gathered} {ss : List Section} :
    checkSections seen gs = .ok ss ↔ gs.map Gathered.content = ss ∧
      Fresh seen (gs.map Gathered.name) ∧ ∀ g ∈ gs, g.Passes := by
  induction gs generalizing seen ss with
  | nil => simp [checkSections]
  | cons g gs ih =>
    rw [checkSections]
    by_cases hseen : g.name ∈ seen
    · simp [hseen]
    by_cases hentries : g.entries = []
    · simp [hseen, hentries, Gathered.Passes]
    have hpasses : g.Passes ↔
        Fresh [] (g.entries.map Entry.key) ∧ ∀ e ∈ g.entries, e.value ≠ "" :=
      and_iff_right hentries
    simp [hseen, hentries, Result.bind_eq_ok_iff, ih, Gathered.content, checkEntries_eq_ok_iff,
      hpasses, and_comm, and_left_comm, and_assoc]

theorem exists_spells_of_mem {css : List (List Char)} {sts : List Statement} {st : Statement}
    (h : List.Forall₂ Spells css sts) (hst : st ∈ sts) : ∃ cs ∈ css, Spells cs st := by
  induction h with
  | nil => cases hst
  | @cons cs st' css sts hline _ ih =>
    rcases List.mem_cons.mp hst with rfl | hst
    · exact ⟨cs, List.mem_cons_self, hline⟩
    · obtain ⟨cs', hcs', hspells⟩ := ih hst
      exact ⟨cs', List.mem_cons_of_mem cs hcs', hspells⟩

theorem value_of_spells {cs : List Char} {e : String × String} (h : Spells cs (.entry e)) :
    e.2 ≠ "" := by
  cases h with
  | entry _ _ _ hvalue => exact fun hempty => hvalue (by simpa using hempty)

theorem passes_iff (g : Gathered) : g.Passes ↔ g.content.entries ≠ [] ∧
    (g.content.entries.map Prod.fst).Nodup ∧ ∀ e ∈ g.content.entries, e.2 ≠ "" := by
  simp [Gathered.Passes, Gathered.content, Entry.content, fresh_iff_nodup, Function.comp_def]

theorem checks_iff (gs : List Gathered) :
    (Fresh [] (gs.map Gathered.name) ∧ ∀ g ∈ gs, g.Passes) ↔
      Consistent (gs.map Gathered.content) ∧
      ∀ s ∈ gs.map Gathered.content, ∀ e ∈ s.entries, e.2 ≠ "" := by
  have hnames : gs.map Gathered.name = (gs.map Gathered.content).map Section.name := by
    simp [Gathered.content, Function.comp_def]
  simp only [fresh_iff_nodup, hnames, passes_iff, List.forall_mem_map]
  constructor
  · rintro ⟨hnodup, hpasses⟩
    refine ⟨⟨hnodup, ?_, ?_⟩, fun g hg => (hpasses g hg).2.2⟩
    · exact List.forall_mem_map.mpr fun g hg => (hpasses g hg).1
    · exact List.forall_mem_map.mpr fun g hg => (hpasses g hg).2.1
  · rintro ⟨⟨hnodup, hentries, hkeys⟩, hvalues⟩
    refine ⟨hnodup, fun g hg => ⟨?_, ?_, hvalues g hg⟩⟩
    · exact List.forall_mem_map.mp hentries g hg
    · exact List.forall_mem_map.mp hkeys g hg

section

variable {text : String} {d : Document}

theorem parse_eq_ok_iff : Document.parse text = .ok d ↔ ∃ lines,
    Line.readAll 1 (text.toList.splitOn '\n') = .ok lines ∧
    (gatherSections lines).map Gathered.content = d.sections ∧ Consistent d.sections ∧
    ∀ s ∈ d.sections, ∀ e ∈ s.entries, e.2 ≠ "" := by
  simp only [Document.parse, Result.bind_eq_ok_iff, checkSections_eq_ok_iff, checks_iff]
  constructor
  · rintro ⟨lines, hread, sections, ⟨rfl, hchecks⟩, hd⟩
    cases hd
    exact ⟨lines, hread, rfl, hchecks⟩
  · rintro ⟨lines, hread, hsections, hchecks⟩
    refine ⟨lines, hread, d.sections, ⟨hsections, ?_⟩, rfl⟩
    rwa [hsections]

theorem parse_of_spells {sts : List Statement}
    (hspells : List.Forall₂ Spells (bareLines (text.toList.splitOn '\n')) sts)
    (hlists : Lists sts d.sections) (h : Consistent d.sections) : Document.parse text = .ok d := by
  obtain ⟨lines, hread, rfl⟩ := readAll_of_spells hspells 1
  have hsections := (lists_iff.mp (lists_gatherSections lines)).symm.trans (lists_iff.mp hlists)
  refine parse_eq_ok_iff.mpr ⟨lines, hread, hsections, h, fun s hs e he => ?_⟩
  have hmem := (mem_of_lists hlists).mpr ⟨s, hs, he⟩
  obtain ⟨cs, -, hcs⟩ := exists_spells_of_mem hspells hmem
  exact value_of_spells hcs

theorem spells_of_parse (h : Document.parse text = .ok d) : ∃ sts,
    List.Forall₂ Spells (bareLines (text.toList.splitOn '\n')) sts ∧ Lists sts d.sections ∧
    Consistent d.sections := by
  obtain ⟨lines, hread, hsections, hconsistent, hvalues⟩ := parse_eq_ok_iff.mp h
  have hlists : Lists (Line.statements lines) d.sections := hsections ▸ lists_gatherSections lines
  have hspells := spells_of_readAll hread fun e he => by
    obtain ⟨s, hs, hmem⟩ := (mem_of_lists hlists).mp he
    exact hvalues s hs e hmem
  exact ⟨Line.statements lines, hspells, hlists, hconsistent⟩

end

end AccessControl.Config
