import AccessControl.Proofs.Config.Scanner
import AccessControl.Proofs.Sequence

namespace AccessControl.Config

open Text

/-- Every line, with the newline that ends it, leads to the start of the next one. -/
theorem after_lines {before : List (List Char)} (h : ∀ line ∈ before, '\n' ∉ line) (n : Nat) :
    (⟨n, 1⟩ : Position).after (before.flatMap (· ++ ['\n'])) = ⟨n + before.length, 1⟩ := by
  induction before generalizing n with
  | nil => rfl
  | cons line before ih =>
    obtain ⟨hline, hbefore⟩ := List.forall_mem_cons.mp h
    rw [List.flatMap_cons, Position.after_append, Position.after_append, Position.after_line hline,
      Position.after_cons, Position.next, if_pos rfl, Position.after_nil, ih hbefore,
      List.length_cons]
    simp only [Position.mk.injEq, and_true]
    omega

/-- The text in front of a line, and the line. -/
theorem exists_text_of_intercalate {sep : Char} (before : List (List Char)) (cs : List Char)
    (after : List (List Char)) : ∃ back,
      [sep].intercalate (before ++ cs :: after) = before.flatMap (· ++ [sep]) ++ (cs ++ back) := by
  rw [Sequence.intercalate_append (List.cons_ne_nil cs after)]
  cases after with
  | nil => exact ⟨[], by simp⟩
  | cons next after => exact ⟨sep :: [sep].intercalate (next :: after), by simp⟩

/-- A place in or behind one of the lines, of which the first has the number `n`. -/
def InLines (n : Nat) (css : List (List Char)) (p : Position) : Prop :=
  ∃ before cs after front back, css = before ++ cs :: after ∧ cs = front ++ back ∧
    p = (⟨n + before.length, 1⟩ : Position).after front

/-- The place of an offset of the text, its end included. -/
def InText (text : String) (p : Position) : Prop :=
  ∃ front back, text.toList = front ++ back ∧ p = Position.start.after front

theorem inText_of_inLines {text : String} {p : Position}
    (h : InLines 1 (text.toList.splitOn '\n') p) : InText text p := by
  obtain ⟨before, cs, after, front, back, hlines, rfl, rfl⟩ := h
  have hnewline : ∀ line ∈ before, '\n' ∉ line := fun line hline =>
    Sequence.notMem_of_mem_splitOn (hlines ▸ List.mem_append_left _ hline)
  obtain ⟨rest, hrest⟩ := @exists_text_of_intercalate '\n' before (front ++ back) after
  rw [← hlines, List.intercalate_splitOn] at hrest
  refine ⟨before.flatMap (· ++ ['\n']) ++ front, back ++ rest, ?_, ?_⟩
  · rw [hrest]
    simp
  · rw [Position.after_append, Position.start, after_lines hnewline]

namespace Line

section

variable {p : Position} {e : SyntaxError} {cs : List Char}

theorem readHeader_error (h : readHeader p cs = .error e) :
    ∃ front back, '[' :: cs = front ++ back ∧ e.position = p.after front := by
  obtain ⟨name, rest, rfl, hname, hrest⟩ := exists_append_stop isSectionNamePart cs
  obtain ⟨htake, hdrop⟩ := takeWhile_append_stop hname hrest
  have hinside : (p.after ['[']).after name = p.after ('[' :: name) := rfl
  simp only [readHeader, htake, hdrop] at h
  split at h
  · cases h
    exact ⟨['['], _, rfl, rfl⟩
  next c hc =>
  split at h
  · cases h
    exact ⟨['['], _, rfl, rfl⟩
  next hlower =>
  split at h
  · cases h
    exact ⟨'[' :: name, [], rfl, hinside⟩
  · next rest =>
    split at h
    · cases h
    · cases h
    · cases h
      refine ⟨'[' :: (name ++ ']' :: rest.takeWhile isBlank), rest.dropWhile isBlank, ?_, ?_⟩
      · simp
      · simp
  · next c rest _ =>
    cases h
    exact ⟨'[' :: name, c :: rest, rfl, hinside⟩

theorem readEntry_error {isLast : Bool} (h : readEntry isLast p cs = .error e) :
    ∃ front back, cs = front ++ back ∧ e.position = p.after front := by
  obtain ⟨key, rest, rfl, hkey, hrest⟩ := exists_append_stop isSymbolPart cs
  obtain ⟨gap, rest, rfl, hgap, hstop⟩ := exists_append_stop isBlank rest
  refine ⟨key ++ gap, rest, by simp, ?_⟩
  simp only [readEntry, takeWhile_append_stop hkey hrest, takeWhile_append_stop hgap hstop,
    ← Position.after_append] at h
  split at h
  · cases h
    rfl
  · cases h
    rfl
  split at h
  · cases h
    rfl
  split at h
  · cases h
    rfl
  · cases h

/-- What is wrong with a line is in or right behind it. -/
theorem read_error {isLast : Bool} (h : read isLast p cs = .error e) :
    ∃ front back, cs = front ++ back ∧ e.position = p.after front := by
  obtain ⟨lead, rest, rfl, hlead, hrest⟩ := exists_append_stop isBlank cs
  have hbehind {front back : List Char} (hsplit : rest = front ++ back)
      (hplace : e.position = (p.after lead).after front) :
      ∃ front back, lead ++ rest = front ++ back ∧ e.position = p.after front :=
    ⟨lead ++ front, back, by rw [hsplit, List.append_assoc], by rw [hplace, Position.after_append]⟩
  simp only [read, takeWhile_append_stop hlead hrest] at h
  split at h
  · cases h
  · cases h
  · obtain ⟨front, back, hsplit, hplace⟩ := readHeader_error h
    exact hbehind hsplit hplace
  split at h
  · obtain ⟨front, back, hsplit, hplace⟩ := readEntry_error h
    exact hbehind hsplit hplace
  · cases h
    exact @hbehind [] _ rfl rfl

end

theorem shows_at {p p' : Position} {cs : List Char} {l : Line} (h : Shows p cs l) :
    ∃ l', Shows p' cs l' := by
  cases h with
  | blank hlead hcomment => exact ⟨_, .blank hlead hcomment⟩
  | header hlead hname hgap hcomment => exact ⟨_, .header hlead hname hgap hcomment⟩
  | entry hlead hkey hgap hequals hvalue hcomment =>
    exact ⟨_, .entry hlead hkey hgap hequals hvalue hcomment⟩

/-- The places that a line has. -/
def places : Line → List Position
  | blank => []
  | header _ p => [p]
  | entry e => [e.keyPosition, e.separatorPosition]

theorem places_of_shows {p q : Position} {cs : List Char} {l : Line} (h : Shows p cs l)
    (hq : q ∈ l.places) : ∃ front back, cs = front ++ back ∧ q = p.after front := by
  cases h with
  | blank => cases hq
  | header =>
    obtain rfl := List.mem_singleton.mp hq
    exact ⟨_, _, rfl, rfl⟩
  | @entry lead key gap value comment =>
    rcases List.mem_cons.mp hq with rfl | hq
    · exact ⟨_, _, rfl, rfl⟩
    · obtain rfl := List.mem_singleton.mp hq
      exact ⟨lead ++ (key ++ gap), '=' :: (value ++ comment), by simp, rfl⟩

end Line

/-- A line that is neither blank nor a header nor an entry, wherever it stands. -/
def Malformed (cs : List Char) : Prop :=
  ∀ p l, ¬Line.Shows p cs l

theorem malformed_of_read {isLast : Bool} {p : Position} {cs : List Char} {e : SyntaxError}
    (h : Line.read isLast p cs = .error e) : Malformed cs := by
  intro p' l hshows
  obtain ⟨l', hl'⟩ := @Line.shows_at p' p cs l hshows
  exact nomatch (Line.read_of_shows isLast hl').symm.trans h

/-- Consecutive well-formed lines, of which the first has the number `n`. -/
inductive ShowsAll : Nat → List (List Char) → List Line → Prop
  | nil {n} : ShowsAll n [] []
  | cons {n cs l css lines} (h : Line.Shows ⟨n, 1⟩ cs l) (hrest : ShowsAll (n + 1) css lines) :
    ShowsAll n (cs :: css) (l :: lines)

theorem readAll_eq_ok_iff {n : Nat} {css : List (List Char)} {lines : List Line} :
    Line.readAll n css = .ok lines ↔ ShowsAll n css lines := by
  induction css generalizing n lines with
  | nil =>
    constructor
    · intro h
      cases h
      exact .nil
    · intro h
      cases h
      rfl
  | cons cs css ih =>
    rw [Line.readAll, Result.bind_eq_ok_iff]
    constructor
    · rintro ⟨l, hl, h⟩
      obtain ⟨rest, hrest, h⟩ := Result.bind_eq_ok_iff.mp h
      cases h
      exact .cons (Line.shows_of_read hl) (ih.mp hrest)
    · intro h
      cases h with
      | @cons _ _ l _ rest h hrest =>
        refine ⟨l, Line.read_of_shows _ h, ?_⟩
        rw [ih.mpr hrest]
        rfl

/-- Lines that cannot be read come to the error of the first malformed one. -/
theorem readAll_eq_error_iff {n : Nat} {css : List (List Char)} {e : SyntaxError} :
    Line.readAll n css = .error e ↔ ∃ before cs after, css = before ++ cs :: after ∧
      (∀ line ∈ before, ¬Malformed line) ∧
      Line.read after.isEmpty ⟨n + before.length, 1⟩ cs = .error e := by
  induction css generalizing n with
  | nil =>
    constructor
    · intro h
      cases h
    · rintro ⟨before, cs, after, h, -, -⟩
      simp at h
  | cons cs css ih =>
    rw [Line.readAll]
    cases hread : Line.read css.isEmpty ⟨n, 1⟩ cs with
    | error e' =>
      constructor
      · intro h
        cases h
        exact ⟨[], cs, css, rfl, by simp, hread⟩
      · rintro ⟨before, cs', after, hsplit, hbefore, h⟩
        cases before with
        | nil =>
          cases hsplit
          cases hread.symm.trans h
          rfl
        | cons line before =>
          cases hsplit
          exact absurd (malformed_of_read hread) (hbefore cs List.mem_cons_self)
    | ok l =>
      have hwellFormed : ¬Malformed cs := fun h => h _ _ (Line.shows_of_read hread)
      have htail : (Line.readAll (n + 1) css >>= fun lines => pure (l :: lines)) = .error e ↔
          Line.readAll (n + 1) css = .error e := by
        cases Line.readAll (n + 1) css <;> simp
      rw [Result.ok_bind, htail, ih]
      constructor
      · rintro ⟨before, cs', after, rfl, hbefore, h⟩
        refine ⟨cs :: before, cs', after, rfl,
          List.forall_mem_cons.mpr ⟨hwellFormed, hbefore⟩, ?_⟩
        rwa [List.length_cons, Nat.add_comm before.length, ← Nat.add_assoc]
      · rintro ⟨before, cs', after, hsplit, hbefore, h⟩
        cases before with
        | nil =>
          cases hsplit
          cases hread.symm.trans h
        | cons line before =>
          cases hsplit
          refine ⟨before, cs', after, rfl, (List.forall_mem_cons.mp hbefore).2, ?_⟩
          rwa [List.length_cons, Nat.add_comm before.length, ← Nat.add_assoc] at h

theorem inLines_of_showsAll {n : Nat} {css : List (List Char)} {lines : List Line}
    (h : ShowsAll n css lines) {l : Line} (hl : l ∈ lines) {p : Position} (hp : p ∈ l.places) :
    InLines n css p := by
  induction h with
  | nil => cases hl
  | @cons n cs l' css lines hshows _ ih =>
    rcases List.mem_cons.mp hl with rfl | hl
    · obtain ⟨front, back, hsplit, hplace⟩ := Line.places_of_shows hshows hp
      exact ⟨[], cs, css, front, back, rfl, hsplit, hplace⟩
    · obtain ⟨before, cs', after, front, back, rfl, hsplit, rfl⟩ := ih hl
      refine ⟨cs :: before, cs', after, front, back, rfl, hsplit, ?_⟩
      rw [List.length_cons, Nat.add_comm before.length, ← Nat.add_assoc]

theorem exists_showsAll {n : Nat} {css : List (List Char)} (h : ∀ cs ∈ css, ¬Malformed cs) :
    ∃ lines, ShowsAll n css lines := by
  cases hread : Line.readAll n css with
  | ok lines => exact ⟨lines, readAll_eq_ok_iff.mp hread⟩
  | error e =>
    obtain ⟨before, cs, after, rfl, -, hcs⟩ := readAll_eq_error_iff.mp hread
    exact absurd (malformed_of_read hcs) (h cs (by simp))

/-- The lines that say something. -/
def saying (lines : List Line) : List Line :=
  lines.filter (·.statement?.isSome)

def Gathered.lines (g : Gathered) : List Line :=
  .header g.name g.position :: g.entries.map .entry

/-- Each header starts a section, which stands where the header does. Entries before all headers
make up the default section, which stands where the first of them does. -/
inductive Groups : List Line → List Gathered → Prop
  | headed {gs} : Groups (gs.flatMap Gathered.lines) gs
  | leading {e entries gs} : Groups ((e :: entries).map .entry ++ gs.flatMap Gathered.lines)
      (⟨defaultSection, e.keyPosition, e :: entries⟩ :: gs)

theorem gather_lines (lines : List Line) :
    (gather lines).1.map .entry ++ (gather lines).2.flatMap Gathered.lines = saying lines := by
  induction lines with
  | nil => rfl
  | cons l lines ih =>
    cases l with
    | blank => exact ih
    | header name p =>
      have hcons : saying (.header name p :: lines) = .header name p :: saying lines := rfl
      rw [hcons, ← ih]
      rfl
    | entry e =>
      have hcons : saying (.entry e :: lines) = .entry e :: saying lines := rfl
      rw [hcons, ← ih]
      rfl

theorem groups_gatherSections (lines : List Line) :
    Groups (saying lines) (gatherSections lines) := by
  have hlines := gather_lines lines
  rw [gatherSections]
  split
  · next gs h =>
    rw [h] at hlines
    exact hlines ▸ .headed
  · next e entries gs h =>
    rw [h] at hlines
    exact hlines ▸ .leading

/-- Sections and entries stand where lines do. -/
theorem places_of_groups {lines : List Line} {gs : List Gathered} (h : Groups lines gs)
    {g : Gathered} (hg : g ∈ gs) : (∃ l ∈ lines, g.position ∈ l.places) ∧
      ∀ e ∈ g.entries, .entry e ∈ lines := by
  have hheaded {gs : List Gathered} (hg : g ∈ gs) :
      (∃ l ∈ gs.flatMap Gathered.lines, g.position ∈ l.places) ∧
        ∀ e ∈ g.entries, .entry e ∈ gs.flatMap Gathered.lines := by
    refine ⟨⟨.header g.name g.position, ?_, List.mem_cons_self⟩, fun e he => ?_⟩
    · exact List.mem_flatMap.mpr ⟨g, hg, List.mem_cons_self⟩
    · exact List.mem_flatMap.mpr ⟨g, hg, List.mem_cons_of_mem _ (List.mem_map_of_mem he)⟩
  cases h with
  | headed => exact hheaded hg
  | @leading e entries gs =>
    rcases List.mem_cons.mp hg with rfl | hg
    · refine ⟨⟨.entry e, by simp, List.mem_cons_self⟩, fun e' he' => ?_⟩
      exact List.mem_append_left _ (List.mem_map_of_mem he')
    · obtain ⟨⟨l, hl, hplace⟩, hentries⟩ := hheaded hg
      exact ⟨⟨l, List.mem_append_right _ hl, hplace⟩,
        fun e' he' => List.mem_append_right _ (hentries e' he')⟩

/-- The first thing wrong with the entries of the section `name`, taken in order. -/
inductive EntryFault (name : String) : List Entry → SyntaxError → Prop
  | duplicateKey {front e back} (hkeys : (front.map Entry.key).Nodup)
    (hvalues : ∀ e ∈ front, e.value ≠ "") (h : e.key ∈ front.map Entry.key) :
    EntryFault name (front ++ e :: back) ⟨.duplicateKey e.key name, e.keyPosition⟩
  | emptyValue {front e back} (hkeys : (front.map Entry.key).Nodup)
    (hvalues : ∀ e ∈ front, e.value ≠ "") (hnew : e.key ∉ front.map Entry.key) (h : e.value = "") :
    EntryFault name (front ++ e :: back) ⟨.emptyValue e.key, e.separatorPosition⟩

/-- The first thing wrong with sections, taken in order. -/
inductive FirstFault : List Gathered → SyntaxError → Prop
  | duplicateSection {front g back} (hnames : (front.map Gathered.name).Nodup)
    (hfront : ∀ g ∈ front, g.Passes) (h : g.name ∈ front.map Gathered.name) :
    FirstFault (front ++ g :: back) ⟨.duplicateSection g.name, g.position⟩
  | emptySection {front g back} (hnames : (front.map Gathered.name).Nodup)
    (hfront : ∀ g ∈ front, g.Passes) (hnew : g.name ∉ front.map Gathered.name)
    (h : g.entries = []) : FirstFault (front ++ g :: back) ⟨.emptySection g.name, g.position⟩
  | entry {front g back e} (hnames : (front.map Gathered.name).Nodup)
    (hfront : ∀ g ∈ front, g.Passes) (hnew : g.name ∉ front.map Gathered.name)
    (h : EntryFault g.name g.entries e) : FirstFault (front ++ g :: back) e

/-- What is checked in order, each element against the keys of those before it, comes to the error
of the first that fails. -/
theorem error_of_inOrder {α β : Type} {key : α → String}
    (one : List String → α → Except SyntaxError β)
    (all : List String → List α → Except SyntaxError (List β))
    (hnil : ∀ seen, all seen [] = .ok [])
    (hcons : ∀ seen a as, all seen (a :: as) = do
      let b ← one seen a
      let bs ← all (key a :: seen) as
      return b :: bs)
    {seen : List String} {as : List α} {e : SyntaxError} :
    all seen as = .error e ↔ ∃ front a back, as = front ++ a :: back ∧
      (∃ bs, all seen front = .ok bs) ∧ one ((front.map key).reverse ++ seen) a = .error e := by
  -- by induction on the elements, each of which adds its key to those that have gone before
  induction as generalizing seen with
  | nil => simp [hnil]
  | cons a as ih =>
    rw [hcons]
    cases ha : one seen a with
    | error e' =>
      constructor
      · intro h
        cases h
        exact ⟨[], a, as, rfl, ⟨[], hnil seen⟩, ha⟩
      · rintro ⟨front, a', back, hsplit, ⟨bs, hfront⟩, h⟩
        cases front with
        | nil =>
          cases hsplit
          cases ha.symm.trans h
          rfl
        | cons b front =>
          cases hsplit
          rw [hcons, ha] at hfront
          cases hfront
    | ok b =>
      have htail : (all (key a :: seen) as >>= fun bs => pure (b :: bs)) = .error e ↔
          all (key a :: seen) as = .error e := by
        cases all (key a :: seen) as <;> simp
      rw [Result.ok_bind, htail, ih]
      constructor
      · rintro ⟨front, a', back, rfl, ⟨bs, hfront⟩, h⟩
        refine ⟨a :: front, a', back, rfl, ⟨b :: bs, ?_⟩, by simpa using h⟩
        rw [hcons, ha, Result.ok_bind, hfront]
        rfl
      · rintro ⟨front, a', back, hsplit, ⟨bs, hfront⟩, h⟩
        cases front with
        | nil =>
          cases hsplit
          exact nomatch ha.symm.trans h
        | cons a'' front =>
          cases hsplit
          rw [hcons, ha, Result.ok_bind] at hfront
          obtain ⟨bs', hfront, -⟩ := Result.bind_eq_ok_iff.mp hfront
          exact ⟨front, a', back, rfl, ⟨bs', hfront⟩, by simpa using h⟩

/-- Checks one entry of the section `name`, of which the keys `seen` have gone before. -/
def Entry.check (name : String) (seen : List String) (e : Entry) :
    Except SyntaxError (String × String) :=
  if seen.contains e.key then .error ⟨.duplicateKey e.key name, e.keyPosition⟩
  else if e.value.isEmpty then .error ⟨.emptyValue e.key, e.separatorPosition⟩
  else .ok e.content

theorem checkEntries_cons (name : String) (seen : List String) (e : Entry) (es : List Entry) :
    checkEntries name seen (e :: es) = do
      let content ← e.check name seen
      let rest ← checkEntries name (e.key :: seen) es
      return content :: rest := by
  rw [checkEntries, Entry.check]
  split
  · rfl
  · split <;> rfl

theorem checkEntries_eq_error_iff {name : String} {es : List Entry} {err : SyntaxError} :
    checkEntries name [] es = .error err ↔ EntryFault name es err := by
  rw [error_of_inOrder (Entry.check name) (checkEntries name) (fun _ => rfl)
    (checkEntries_cons name)]
  simp only [checkEntries_eq_ok_iff, fresh_iff_nodup, Entry.check]
  constructor
  · rintro ⟨front, e, back, rfl, ⟨_, rfl, hkeys, hvalues⟩, h⟩
    split at h
    · next hseen =>
      cases h
      exact .duplicateKey hkeys hvalues (by simpa using hseen)
    · next hseen =>
      split at h
      · next hvalue =>
        cases h
        exact .emptyValue hkeys hvalues (by simpa using hseen) (by simpa using hvalue)
      · cases h
  · intro h
    cases h with
    | duplicateKey hkeys hvalues h =>
      exact ⟨_, _, _, rfl, ⟨_, rfl, hkeys, hvalues⟩, if_pos (by simpa using h)⟩
    | emptyValue hkeys hvalues hnew h =>
      exact ⟨_, _, _, rfl, ⟨_, rfl, hkeys, hvalues⟩,
        (if_neg (by simpa using hnew)).trans (if_pos (by simpa using h))⟩

/-- Checks one section, of which the names `seen` have gone before. -/
def Gathered.check (seen : List String) (g : Gathered) : Except SyntaxError Section :=
  if seen.contains g.name then .error ⟨.duplicateSection g.name, g.position⟩
  else if g.entries.isEmpty then .error ⟨.emptySection g.name, g.position⟩
  else do
    let entries ← checkEntries g.name [] g.entries
    return ⟨g.name, entries⟩

theorem checkSections_cons (seen : List String) (g : Gathered) (gs : List Gathered) :
    checkSections seen (g :: gs) = do
      let s ← g.check seen
      let rest ← checkSections (g.name :: seen) gs
      return s :: rest := by
  rw [checkSections, Gathered.check]
  split
  · rfl
  · split
    · rfl
    · rw [bind_assoc]
      rfl

theorem checkSections_eq_error_iff {gs : List Gathered} {err : SyntaxError} :
    checkSections [] gs = .error err ↔ FirstFault gs err := by
  rw [error_of_inOrder Gathered.check checkSections (fun _ => rfl) checkSections_cons]
  simp only [checkSections_eq_ok_iff, fresh_iff_nodup, Gathered.check]
  constructor
  · rintro ⟨front, g, back, rfl, ⟨_, rfl, hnames, hfront⟩, h⟩
    split at h
    · next hseen =>
      cases h
      exact .duplicateSection hnames hfront (by simpa using hseen)
    · next hseen =>
      have hnew : g.name ∉ front.map Gathered.name := by simpa using hseen
      split at h
      · next hempty =>
        cases h
        exact .emptySection hnames hfront hnew (by simpa using hempty)
      · cases hentries : checkEntries g.name [] g.entries with
        | error e =>
          rw [hentries] at h
          cases h
          exact .entry hnames hfront hnew (checkEntries_eq_error_iff.mp hentries)
        | ok entries =>
          rw [hentries] at h
          cases h
  · intro h
    cases h with
    | duplicateSection hnames hfront h =>
      exact ⟨_, _, _, rfl, ⟨_, rfl, hnames, hfront⟩, if_pos (by simpa using h)⟩
    | emptySection hnames hfront hnew h =>
      exact ⟨_, _, _, rfl, ⟨_, rfl, hnames, hfront⟩,
        (if_neg (by simpa using hnew)).trans (if_pos (by simpa using h))⟩
    | @entry front g back _ hnames hfront hnew h =>
      have hsome : ¬g.entries.isEmpty := by
        generalize g.entries = es at h ⊢
        cases h <;> simp
      refine ⟨_, _, _, rfl, ⟨_, rfl, hnames, hfront⟩, ?_⟩
      rw [if_neg (by simpa using hnew), if_neg hsome, checkEntries_eq_error_iff.mpr h]
      rfl

theorem exists_entry_of_fault {name : String} {es : List Entry} {err : SyntaxError}
    (h : EntryFault name es err) : ∃ e ∈ es, err.position ∈ (Line.entry e).places := by
  cases h with
  | @duplicateKey front e back =>
    exact ⟨e, List.mem_append_right _ List.mem_cons_self, List.mem_cons_self⟩
  | @emptyValue front e back =>
    exact ⟨e, List.mem_append_right _ List.mem_cons_self,
      List.mem_cons_of_mem _ List.mem_cons_self⟩

/-- What is wrong with sections is wrong at a place of some line. -/
theorem exists_line_of_fault {lines : List Line} {gs : List Gathered} {err : SyntaxError}
    (hgroups : Groups (saying lines) gs) (h : FirstFault gs err) :
    ∃ l ∈ lines, err.position ∈ l.places := by
  have hmem {l : Line} (hl : l ∈ saying lines) : l ∈ lines := List.mem_of_mem_filter hl
  cases h with
  | @duplicateSection front g back | @emptySection front g back =>
    obtain ⟨⟨l, hl, hplace⟩, -⟩ :=
      places_of_groups hgroups (List.mem_append_right front (List.mem_cons_self (a := g)))
    exact ⟨l, hmem hl, hplace⟩
  | @entry front g back _ _ _ _ h =>
    obtain ⟨e, he, hplace⟩ := exists_entry_of_fault h
    have hentries :=
      (places_of_groups hgroups (List.mem_append_right front (List.mem_cons_self (a := g)))).2
    exact ⟨.entry e, hmem (hentries e he), hplace⟩

section

variable {text : String} {e : SyntaxError}

theorem parse_of_showsAll {lines : List Line}
    (h : ShowsAll 1 (text.toList.splitOn '\n') lines) :
    Document.parse text = .error e ↔ FirstFault (gatherSections lines) e := by
  rw [Document.parse, readAll_eq_ok_iff.mpr h, Result.ok_bind, ← checkSections_eq_error_iff]
  cases checkSections [] (gatherSections lines) <;> simp

theorem inLines_of_parse (h : Document.parse text = .error e) :
    InLines 1 (text.toList.splitOn '\n') e.position := by
  cases hread : Line.readAll 1 (text.toList.splitOn '\n') with
  | error e' =>
    rw [Document.parse, hread] at h
    cases h
    obtain ⟨before, cs, after, hsplit, -, hcs⟩ := readAll_eq_error_iff.mp hread
    obtain ⟨front, back, hline, hplace⟩ := Line.read_error hcs
    exact ⟨before, cs, after, front, back, hsplit, hline, hplace⟩
  | ok lines =>
    have hshows := readAll_eq_ok_iff.mp hread
    obtain ⟨l, hl, hplace⟩ :=
      exists_line_of_fault (groups_gatherSections lines) ((parse_of_showsAll hshows).mp h)
    exact inLines_of_showsAll hshows hl hplace

end

/-- Where a text is refused, be it read line by line or in one pass. In any case it is at the place
of one of its characters or at its end. If some line is malformed, it is in or right behind the
first of these. If none is, it is at the first thing that is wrong with the sections that the lines
make up, taken in order. -/
theorem errors_are_located (text : String) :
    Document.scan text = Document.parse text ∧
    (∀ e, Document.parse text = .error e → InText text e.position) ∧
    (∀ before cs after, text.toList.splitOn '\n' = before ++ cs :: after →
      (∀ line ∈ before, ¬Malformed line) → Malformed cs →
      ∃ e, Document.parse text = .error e ∧ e.position.line = before.length + 1 ∧
        1 ≤ e.position.col ∧ e.position.col ≤ cs.length + 1) ∧
    ((∀ line ∈ text.toList.splitOn '\n', ¬Malformed line) →
      ∃ lines gs, ShowsAll 1 (text.toList.splitOn '\n') lines ∧ Groups (saying lines) gs ∧
        ∀ e, Document.parse text = .error e ↔ FirstFault gs e) := by
  refine ⟨Document.scan_eq_parse text, fun e h => inText_of_inLines (inLines_of_parse h),
    fun before cs after hsplit hbefore hcs => ?_, fun h => ?_⟩
  · cases hread : Line.read after.isEmpty ⟨1 + before.length, 1⟩ cs with
    | ok l => exact absurd (Line.shows_of_read hread) (hcs _ l)
    | error e =>
      have hmem : cs ∈ text.toList.splitOn '\n' := by simp [hsplit]
      have hnewline := Sequence.notMem_of_mem_splitOn hmem
      have hall := readAll_eq_error_iff.mpr ⟨before, cs, after, hsplit, hbefore, hread⟩
      obtain ⟨front, back, rfl, hplace⟩ := Line.read_error hread
      rw [Position.after_line fun hmem => hnewline (List.mem_append_left _ hmem)] at hplace
      refine ⟨e, by rw [Document.parse, hall]; rfl, ?_⟩
      rw [hplace, List.length_append]
      refine ⟨Nat.add_comm _ _, Nat.le_add_right _ _, ?_⟩
      change 1 + front.length ≤ front.length + back.length + 1
      omega
  · obtain ⟨lines, hshows⟩ := exists_showsAll h
    exact ⟨lines, _, hshows, groups_gatherSections lines, fun e => parse_of_showsAll hshows⟩

end AccessControl.Config
