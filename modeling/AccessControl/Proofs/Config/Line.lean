import AccessControl.Proofs.Config.Grammar

namespace AccessControl.Config

open Text

/-- What a line that has been read says, if it says something. -/
def Line.statement? : Line → Option Statement
  | .blank => none
  | .header name _ => some (.header name)
  | .entry e => some (.entry (e.key, e.value))

namespace Line

section

variable {p : Position} {l : Line}

theorem readHeader_of_split {name gap comment : List Char} (hname : IsSectionName name)
    (hgap : ∀ c ∈ gap, isBlank c) (hcomment : ∀ c ∈ comment.head?, c = '#') :
    readHeader p (name ++ ']' :: (gap ++ comment)) = .ok (.header (.ofList name) p) := by
  have hparts := isSectionNamePart_of_isSectionName hname
  obtain ⟨c, part, hc, -, rfl⟩ := hname
  have hstop := stop_cons (by decide : isSectionNamePart ']' = false) (gap ++ comment)
  obtain ⟨htake, hdrop⟩ := takeWhile_append_stop hparts hstop
  have hrest := (takeWhile_append_stop hgap (comment_stop hcomment)).2
  simp only [readHeader, htake, hdrop, hrest]
  simp only [List.cons_append, List.head?_cons, hc]
  cases comment with
  | nil => rfl
  | cons d comment =>
    cases hcomment d rfl
    rfl

theorem exists_split_of_readHeader {cs : List Char} (h : readHeader p cs = .ok l) :
    ∃ name gap comment, cs = name ++ ']' :: (gap ++ comment) ∧ IsSectionName name ∧
      (∀ c ∈ gap, isBlank c) ∧ (∀ c ∈ comment.head?, c = '#') := by
  obtain ⟨name, rest, rfl, hname, hrest⟩ := exists_append_stop isSectionNamePart cs
  obtain ⟨htake, hdrop⟩ := takeWhile_append_stop hname hrest
  simp only [readHeader, htake, hdrop] at h
  split at h
  · cases h
  next c hc =>
  split at h
  · cases h
  next hlower =>
  split at h
  · cases h
  · next rest =>
    obtain ⟨gap, comment, rfl, hgap, hcomment⟩ := exists_append_stop isBlank rest
    rw [(takeWhile_append_stop hgap hcomment).2] at h
    refine ⟨name, gap, comment, rfl, ?_, hgap, fun d hd => ?_⟩
    · cases name with
      | nil =>
        cases hc
        exact absurd rfl hlower
      | cons d part =>
        cases hc
        exact ⟨c, part, by simpa using hlower, (List.forall_mem_cons.mp hname).2, rfl⟩
    · split at h
      · cases hd
      · cases hd
        rfl
      · cases h
  · cases h

theorem readEntry_of_split {key gap rest : List Char} (isLast : Bool)
    (hkey : ∀ c ∈ key, isSymbolPart c) (hgap : ∀ c ∈ gap, isBlank c)
    (hrest : rest.head? ≠ some '=') :
    readEntry isLast p (key ++ (gap ++ '=' :: rest)) =
      .ok (.entry ⟨.ofList key, p, .ofList (trim (rest.takeWhile (· != '#'))),
        (p.after key).after gap⟩) := by
  have hequals := stop_cons (by decide : isBlank '=' = false) rest
  have hstop : ∀ c ∈ (gap ++ '=' :: rest).head?, isSymbolPart c = false := by
    cases gap with
    | nil => exact stop_cons (by decide) rest
    | cons d gap =>
      exact stop_cons (isSymbolPart_eq_false_of_isBlank (hgap d List.mem_cons_self)) _
  obtain ⟨htake, hdrop⟩ := takeWhile_append_stop hkey hstop
  obtain ⟨htakeGap, hdropGap⟩ := takeWhile_append_stop hgap hequals
  simp [readEntry, htake, hdrop, htakeGap, hdropGap, hrest]

theorem exists_split_of_readEntry {isLast : Bool} {cs : List Char}
    (h : readEntry isLast p cs = .ok l) : ∃ key gap rest, cs = key ++ (gap ++ '=' :: rest) ∧
      (∀ c ∈ key, isSymbolPart c) ∧ (∀ c ∈ gap, isBlank c) ∧ rest.head? ≠ some '=' := by
  obtain ⟨key, cs, rfl, hkey, hcs⟩ := exists_append_stop isSymbolPart cs
  obtain ⟨gap, cs, rfl, hgap, hstop⟩ := exists_append_stop isBlank cs
  simp only [readEntry, (takeWhile_append_stop hkey hcs).2, (takeWhile_append_stop hgap hstop).2]
    at h
  split at h
  · split at h <;> cases h
  · cases h
  · next c rest _ =>
    split at h
    · cases h
    · next hrelational =>
      split at h
      · cases h
      · next hc =>
        obtain rfl : c = '=' := by simpa using hc
        refine ⟨key, gap, rest, rfl, hkey, hgap, fun hhead => ?_⟩
        simp [isRelational, hhead] at hrelational

section

variable {lead cs : List Char} (isLast : Bool)

theorem read_comment {comment : List Char} (hlead : ∀ c ∈ lead, isBlank c)
    (hcomment : ∀ c ∈ comment.head?, c = '#') :
    read isLast p (lead ++ comment) = .ok .blank := by
  have hdrop := (takeWhile_append_stop hlead (comment_stop hcomment)).2
  cases comment with
  | nil => simp only [read, hdrop]
  | cons c comment =>
    cases hcomment c rfl
    simp only [read, hdrop]

theorem read_bracket (hlead : ∀ c ∈ lead, isBlank c) :
    read isLast p (lead ++ '[' :: cs) = readHeader (p.after lead) cs := by
  have hstop := stop_cons (by decide : isBlank '[' = false) cs
  obtain ⟨htake, hdrop⟩ := takeWhile_append_stop hlead hstop
  simp only [read, htake, hdrop]

theorem read_symbol {c : Char} (hlead : ∀ c ∈ lead, isBlank c) (hc : isSymbolStart c) :
    read isLast p (lead ++ c :: cs) = readEntry isLast (p.after lead) (c :: cs) := by
  have hblank := isBlank_eq_false_of_isSymbolPart (isSymbolPart_of_isSymbolStart hc)
  have hstop := stop_cons hblank cs
  obtain ⟨htake, hdrop⟩ := takeWhile_append_stop hlead hstop
  simp only [read, htake, hdrop]
  split
  · next h => cases h
  · next h =>
    cases h
    cases hc
  · next h =>
    cases h
    cases hc
  · next h =>
    cases h
    rw [if_pos hc]

/-- A line that starts otherwise cannot be read. -/
theorem read_stray {c : Char} (hlead : ∀ c ∈ lead, isBlank c) (hc : isBlank c = false)
    (hhash : c ≠ '#') (hbracket : c ≠ '[') (hsymbol : isSymbolStart c = false) :
    read isLast p (lead ++ c :: cs) = .error ⟨.strayCharacter c, p.after lead⟩ := by
  obtain ⟨htake, hdrop⟩ := takeWhile_append_stop hlead (stop_cons hc cs)
  simp only [read, htake, hdrop]
  simp [hsymbol]

end

/-- A key that a text starts with, up to the `=`, is a symbol if the text starts as one. -/
theorem isSymbol_of_split {c : Char} {cs key gap rest : List Char}
    (h : c :: cs = key ++ (gap ++ '=' :: rest)) (hc : isSymbolStart c)
    (hkey : ∀ d ∈ key, isSymbolPart d) (hgap : ∀ d ∈ gap, isBlank d) : isSymbol key := by
  cases key with
  | cons d key =>
    cases h
    simpa [isSymbol, hc] using (List.forall_mem_cons.mp hkey).2
  | nil =>
    cases gap with
    | nil =>
      cases h
      cases hc
    | cons d gap =>
      cases h
      have hpart := isSymbolPart_eq_false_of_isBlank (hgap c List.mem_cons_self)
      rw [isSymbolPart_of_isSymbolStart hc] at hpart
      cases hpart

/-- The well-formed lines, with the places of what they show when they start at `p`: a header is
placed at its `[`, an entry at the start of its key and at its `=`. -/
inductive Shows (p : Position) : List Char → Line → Prop
  | blank {lead comment} (hlead : ∀ c ∈ lead, isBlank c) (hcomment : ∀ c ∈ comment.head?, c = '#') :
    Shows p (lead ++ comment) .blank
  | header {lead name gap comment} (hlead : ∀ c ∈ lead, isBlank c) (hname : IsSectionName name)
    (hgap : ∀ c ∈ gap, isBlank c) (hcomment : ∀ c ∈ comment.head?, c = '#') :
    Shows p (lead ++ '[' :: (name ++ ']' :: (gap ++ comment)))
      (.header (.ofList name) (p.after lead))
  | entry {lead key gap value comment} (hlead : ∀ c ∈ lead, isBlank c) (hkey : isSymbol key)
    (hgap : ∀ c ∈ gap, isBlank c) (hequals : value.head? ≠ some '=') (hvalue : '#' ∉ value)
    (hcomment : ∀ c ∈ comment.head?, c = '#') :
    Shows p (lead ++ (key ++ (gap ++ '=' :: (value ++ comment))))
      (.entry ⟨.ofList key, p.after lead, .ofList (trim value), p.after (lead ++ (key ++ gap))⟩)

theorem read_of_shows {cs : List Char} (isLast : Bool) (h : Shows p cs l) :
    read isLast p cs = .ok l := by
  cases h with
  | blank hlead hcomment => exact read_comment isLast hlead hcomment
  | header hlead hname hgap hcomment =>
    rw [read_bracket isLast hlead, readHeader_of_split hname hgap hcomment]
  | @entry lead key gap value comment hlead hkey hgap hequals hvalue hcomment =>
    have hrest : (value ++ comment).head? ≠ some '=' := by
      cases value with
      | nil =>
        intro hhead
        cases hcomment '=' hhead
      | cons => exact hequals
    have hread := @readEntry_of_split (p.after lead) key gap (value ++ comment) isLast
      (isSymbolPart_of_isSymbol hkey) hgap hrest
    rw [takeWhile_comment hvalue hcomment] at hread
    cases key with
    | nil => cases hkey
    | cons c part =>
      have hc : isSymbolStart c := (Bool.and_eq_true_iff.mp hkey).1
      rw [List.cons_append, read_symbol isLast hlead hc, ← List.cons_append, hread,
        Position.after_append, Position.after_append]

theorem shows_of_readHeader {lead cs : List Char} (hlead : ∀ c ∈ lead, isBlank c)
    (h : readHeader (p.after lead) cs = .ok l) : Shows p (lead ++ '[' :: cs) l := by
  obtain ⟨name, gap, comment, rfl, hname, hgap, hcomment⟩ := exists_split_of_readHeader h
  rw [readHeader_of_split hname hgap hcomment] at h
  cases h
  exact .header hlead hname hgap hcomment

theorem shows_of_readEntry {isLast : Bool} {c : Char} {lead cs : List Char}
    (hlead : ∀ c ∈ lead, isBlank c) (hc : isSymbolStart c)
    (h : readEntry isLast (p.after lead) (c :: cs) = .ok l) : Shows p (lead ++ c :: cs) l := by
  obtain ⟨key, gap, rest, hsplit, hkey, hgap, hrest⟩ := exists_split_of_readEntry h
  have hsymbol := isSymbol_of_split hsplit hc hkey hgap
  rw [hsplit, readEntry_of_split isLast hkey hgap hrest] at h
  obtain ⟨value, comment, rfl, hhash, hcomment⟩ := exists_comment rest
  rw [takeWhile_comment hhash hcomment, ← Position.after_append, ← Position.after_append] at h
  cases h
  rw [hsplit]
  refine .entry hlead hsymbol hgap (fun hhead => hrest ?_) hhash hcomment
  obtain ⟨more, rfl⟩ := List.head?_eq_some_iff.mp hhead
  rfl

theorem shows_of_read {isLast : Bool} {cs : List Char} (h : read isLast p cs = .ok l) :
    Shows p cs l := by
  obtain ⟨lead, rest, rfl, hlead, hrest⟩ := exists_append_stop isBlank cs
  by_cases hcomment : ∀ c ∈ rest.head?, c = '#'
  · rw [read_comment isLast hlead hcomment] at h
    cases h
    exact .blank hlead hcomment
  obtain ⟨c, rest, rfl⟩ : ∃ c cs, rest = c :: cs := by
    cases rest with
    | nil => exact absurd (fun _ h => nomatch h) hcomment
    | cons c cs => exact ⟨c, cs, rfl⟩
  have hhash : c ≠ '#' := by simpa using hcomment
  by_cases hbracket : c = '['
  · subst hbracket
    rw [read_bracket isLast hlead] at h
    exact shows_of_readHeader hlead h
  by_cases hsymbol : isSymbolStart c
  · rw [read_symbol isLast hlead hsymbol] at h
    exact shows_of_readEntry hlead hsymbol h
  · rw [read_stray isLast hlead (hrest c rfl) hhash hbracket (by simpa using hsymbol)] at h
    cases h

theorem read_of_bare_eq_nil {cs : List Char} (isLast : Bool) (h : bare cs = []) :
    read isLast p cs = .ok .blank := by
  obtain ⟨lead, gap, comment, hcs, hlead, hgap, hcomment⟩ := exists_bare cs
  rw [h, List.nil_append, ← List.append_assoc] at hcs
  rw [hcs]
  exact read_comment isLast (List.forall_mem_append.mpr ⟨hlead, hgap⟩) hcomment

theorem read_of_spells {cs : List Char} {st : Statement} (isLast : Bool) (h : Spells (bare cs) st) :
    ∃ l, read isLast p cs = .ok l ∧ l.statement? = some st := by
  obtain ⟨lead, gap', comment, hcs, hlead, hgap', hcomment⟩ := exists_bare cs
  have hhash := hash_notMem_bare cs
  generalize bare cs = word at h hcs hhash
  subst hcs
  cases h with
  | @header name hname =>
    have hshows := @Shows.header p lead name gap' comment hlead hname hgap' hcomment
    rw [List.cons_append, List.append_assoc]
    exact ⟨_, read_of_shows isLast hshows, rfl⟩
  | @entry key gap rest hkey hgap hrest hvalue =>
    have hequals : (rest ++ gap').head? ≠ some '=' := by
      cases rest with
      | nil => exact absurd rfl hvalue
      | cons => exact hrest
    have hbody : '#' ∉ rest ++ gap' := by
      simp_all [notMem_of_forall hgap' isBlank_hash]
    have hshows := @Shows.entry p lead key gap (rest ++ gap') comment hlead hkey hgap hequals hbody
      hcomment
    rw [trim_append_blank hgap', List.append_assoc] at hshows
    rw [List.append_assoc, List.append_assoc, List.cons_append]
    exact ⟨_, read_of_shows isLast hshows, rfl⟩

/-- A line says one thing only. -/
theorem spells_unique {cs : List Char} {st st' : Statement} (h : Spells (bare cs) st)
    (h' : Spells (bare cs) st') : st = st' := by
  obtain ⟨l, hread, hl⟩ := @read_of_spells .start cs st true h
  obtain ⟨l', hread', hl'⟩ := @read_of_spells .start cs st' true h'
  rw [hread] at hread'
  cases hread'
  exact Option.some.inj (hl.symm.trans hl')

/-- What a line that has been read says of the bare line. The value of an entry may still be
missing. -/
def Fits (cs : List Char) : Line → Prop
  | .blank => bare cs = []
  | .header name _ => Spells (bare cs) (.header name)
  | .entry e => e.value ≠ "" → Spells (bare cs) (.entry (e.key, e.value))

theorem fits_of_read {isLast : Bool} {cs : List Char} (h : read isLast p cs = .ok l) :
    Fits cs l := by
  cases shows_of_read h with
  | @blank lead comment hlead hcomment =>
    exact @bare_eq lead [] comment hlead (fun _ h => nomatch h) (by simp) hcomment
  | header hlead hname hgap hcomment =>
    rw [Fits, bare_header hlead hname hgap hcomment]
    exact .header hname
  | @entry lead key gap value comment hlead hkey hgap hequals hhash hcomment =>
    rw [Fits, bare_entry hlead hkey hgap hhash hcomment, ← trim_trimRight]
    intro hvalue
    refine .entry hkey hgap (fun hhead => hequals ?_) fun hnil => hvalue (by rw [hnil])
    obtain ⟨back, hback, -⟩ := exists_trimRight_append value
    obtain ⟨more, hmore⟩ := List.head?_eq_some_iff.mp hhead
    rw [hback, hmore]
    rfl

end

end Line

end AccessControl.Config
