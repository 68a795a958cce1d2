import AccessControl.Config.Document
import AccessControl.Config.Line
import AccessControl.Proofs.Text.Blank
import AccessControl.Proofs.Text.Symbol

namespace AccessControl.Config

open Text

/-- A line without its comment and the blanks around it. -/
def bare (cs : List Char) : List Char :=
  trim (cs.takeWhile (· != '#'))

/-- What is left of lines once the empty ones are dropped. -/
def bareLines (lines : List (List Char)) : List (List Char) :=
  (lines.map bare).filter (· ≠ [])

theorem bareLines_cons_of_nil {cs : List Char} (h : bare cs = []) (lines : List (List Char)) :
    bareLines (cs :: lines) = bareLines lines := by
  rw [bareLines, List.map_cons, List.filter_cons_of_neg (by simpa using h)]
  rfl

theorem bareLines_cons {cs : List Char} (h : bare cs ≠ []) (lines : List (List Char)) :
    bareLines (cs :: lines) = bare cs :: bareLines lines := by
  rw [bareLines, List.map_cons, List.filter_cons_of_pos (by simpa using h)]
  rfl

theorem bareLines_append (lines lines' : List (List Char)) :
    bareLines (lines ++ lines') = bareLines lines ++ bareLines lines' := by
  rw [bareLines, List.map_append, List.filter_append]
  rfl

/-- What a line says. -/
inductive Statement
  | header (name : String)
  | entry (entry : String × String)
deriving DecidableEq

/-- A lowercase letter, then lowercase letters, digits and underscores. -/
def IsSectionName (word : List Char) : Prop :=
  ∃ c part, c.isLower ∧ (∀ d ∈ part, isSectionNamePart d) ∧ word = c :: part

theorem isSectionNamePart_of_isSectionName {word : List Char} (h : IsSectionName word) :
    ∀ c ∈ word, isSectionNamePart c := by
  obtain ⟨c, part, hc, hpart, rfl⟩ := h
  exact List.forall_mem_cons.mpr ⟨by simp [isSectionNamePart, hc], hpart⟩

/-- The `=` of an entry does not stand before another one, and something stands behind it. -/
inductive Spells : List Char → Statement → Prop
  | header {name} (hname : IsSectionName name) :
    Spells ('[' :: (name ++ [']'])) (.header (.ofList name))
  | entry {key gap rest} (hkey : isSymbol key) (hgap : ∀ c ∈ gap, isBlank c)
    (hrest : rest.head? ≠ some '=') (hvalue : trim rest ≠ []) :
    Spells (key ++ (gap ++ '=' :: rest)) (.entry (.ofList key, .ofList (trim rest)))

def Section.statements (s : Section) : List Statement :=
  .header s.name :: s.entries.map .entry

/-- Each header starts a section. Entries before all headers make up the default section. -/
inductive Lists : List Statement → List Section → Prop
  | headed {sections} : Lists (sections.flatMap Section.statements) sections
  | leading {e entries sections} :
    Lists ((e :: entries).map .entry ++ sections.flatMap Section.statements)
      (⟨defaultSection, e :: entries⟩ :: sections)

/-- No name occurs twice, be it of sections or of keys in a section, and no section is empty. -/
structure Consistent (sections : List Section) : Prop where
  names : (sections.map Section.name).Nodup
  entries : ∀ s ∈ sections, s.entries ≠ []
  keys : ∀ s ∈ sections, (s.entries.map Prod.fst).Nodup

theorem isBlank_hash : isBlank '#' = false := by decide

theorem comment_stop {comment : List Char} (h : ∀ c ∈ comment.head?, c = '#') :
    ∀ c ∈ comment.head?, isBlank c = false := by
  intro c hc
  rw [h c hc]
  exact isBlank_hash

/-- A comment starts at the first `#`. -/
theorem takeWhile_comment {body comment : List Char} (hbody : '#' ∉ body)
    (hcomment : ∀ c ∈ comment.head?, c = '#') :
    (body ++ comment).takeWhile (· != '#') = body := by
  refine (takeWhile_append_stop (fun c hc => ?_) fun c hc => ?_).1
  · simpa using fun h : c = '#' => hbody (h ▸ hc)
  · simpa using hcomment c hc

theorem exists_comment (cs : List Char) : ∃ body comment, cs = body ++ comment ∧ '#' ∉ body ∧
    ∀ c ∈ comment.head?, c = '#' := by
  obtain ⟨body, comment, rfl, hbody, hcomment⟩ := exists_append_stop (· != '#') cs
  refine ⟨body, comment, rfl, fun hmem => ?_, fun c hc => by simpa using hcomment c hc⟩
  simpa using hbody '#' hmem

theorem bare_eq_trim {cs : List Char} (h : '#' ∉ cs) : bare cs = trim cs := by
  have htake := @takeWhile_comment cs [] h (by simp)
  rw [List.append_nil] at htake
  rw [bare, htake]

theorem bare_eq {lead body comment : List Char} (hlead : ∀ c ∈ lead, isBlank c)
    (hhead : ∀ c ∈ body.head?, isBlank c = false) (hbody : '#' ∉ body)
    (hcomment : ∀ c ∈ comment.head?, c = '#') :
    bare (lead ++ (body ++ comment)) = trimRight body := by
  have hhash : '#' ∉ lead ++ body := by simp [notMem_of_forall hlead isBlank_hash, hbody]
  rw [bare, ← List.append_assoc, takeWhile_comment hhash hcomment, trim_blank_append hlead, trim,
    trimLeft_eq_self hhead]

theorem hash_notMem_bare (cs : List Char) : '#' ∉ bare cs := by
  obtain ⟨body, comment, rfl, hbody, hcomment⟩ := exists_comment cs
  obtain ⟨front, back, hsplit, -, -⟩ := exists_trim_append body
  rw [bare, takeWhile_comment hbody hcomment]
  intro hmem
  rw [hsplit] at hbody
  simp [hmem] at hbody

/-- A line is blanks, what is left of it when it is bare, more blanks and a comment. -/
theorem exists_bare (cs : List Char) : ∃ lead gap comment,
    cs = lead ++ (bare cs ++ (gap ++ comment)) ∧ (∀ c ∈ lead, isBlank c) ∧
    (∀ c ∈ gap, isBlank c) ∧ ∀ c ∈ comment.head?, c = '#' := by
  obtain ⟨body, comment, rfl, hbody, hcomment⟩ := exists_comment cs
  obtain ⟨lead, gap, hsplit, hlead, hgap⟩ := exists_trim_append body
  refine ⟨lead, gap, comment, ?_, hlead, hgap, hcomment⟩
  rw [bare, takeWhile_comment hbody hcomment]
  calc body ++ comment
    _ = lead ++ (trim body ++ gap) ++ comment := by rw [← hsplit]
    _ = lead ++ (trim body ++ (gap ++ comment)) := by simp

theorem bare_header {lead name gap comment : List Char} (hlead : ∀ c ∈ lead, isBlank c)
    (hname : IsSectionName name) (hgap : ∀ c ∈ gap, isBlank c)
    (hcomment : ∀ c ∈ comment.head?, c = '#') :
    bare (lead ++ '[' :: (name ++ ']' :: (gap ++ comment))) = '[' :: (name ++ [']']) := by
  have hhead := stop_cons (by decide : isBlank '[' = false) (name ++ ']' :: gap)
  have hbody : '#' ∉ '[' :: (name ++ ']' :: gap) := by
    simp [notMem_of_forall (isSectionNamePart_of_isSectionName hname)
      (by decide : isSectionNamePart '#' = false), notMem_of_forall hgap isBlank_hash]
  have hbare := bare_eq hlead hhead hbody hcomment
  have htrim := @trimRight_append_cons ']' (by decide) ('[' :: name) gap
  rw [trimRight_eq_nil hgap] at htrim
  simpa using hbare.trans htrim

theorem bare_entry {lead key gap value comment : List Char} (hlead : ∀ c ∈ lead, isBlank c)
    (hkey : isSymbol key) (hgap : ∀ c ∈ gap, isBlank c) (hvalue : '#' ∉ value)
    (hcomment : ∀ c ∈ comment.head?, c = '#') :
    bare (lead ++ (key ++ (gap ++ '=' :: (value ++ comment)))) =
      key ++ (gap ++ '=' :: trimRight value) := by
  have hparts := isSymbolPart_of_isSymbol hkey
  have hhead : ∀ c ∈ (key ++ (gap ++ '=' :: value)).head?, isBlank c = false := by
    cases key with
    | nil => cases hkey
    | cons d key =>
      exact stop_cons (isBlank_eq_false_of_isSymbolPart (hparts d List.mem_cons_self)) _
  have hbody : '#' ∉ key ++ (gap ++ '=' :: value) := by
    simp [notMem_of_forall hparts (by decide : isSymbolPart '#' = false),
      notMem_of_forall hgap isBlank_hash, hvalue]
  have hbare := bare_eq hlead hhead hbody hcomment
  have htrim := @trimRight_append_cons '=' (by decide) (key ++ gap) value
  rw [List.append_assoc, List.append_assoc] at htrim
  simpa using hbare.trans htrim

end AccessControl.Config
