import AccessControl.Proofs.Builtin.Glob

namespace AccessControl.Builtin.Glob

/-- A name that leads one step further. -/
def IsStep (name : List Char) : Prop :=
  name ≠ [] ∧ name ≠ ['.'] ∧ name ≠ ['.', '.'] ∧ '/' ∉ name

/-- A name that leads nowhere from the root. -/
def Stays (name : List Char) : Prop :=
  name = [] ∨ name = ['.'] ∨ name = ['.', '.']

/-- The same path with one detour at a slash. -/
inductive Detour : List Char → List Char → Prop
  | slash (front back : List Char) : Detour (front ++ '/' :: back) (front ++ '/' :: '/' :: back)
  | dot (front back : List Char) :
    Detour (front ++ '/' :: back) (front ++ '/' :: '.' :: '/' :: back)
  | step (front back : List Char) {name : List Char} (h : IsStep name) :
    Detour (front ++ '/' :: back) (front ++ '/' :: (name ++ '/' :: '.' :: '.' :: '/' :: back))

section

variable {path path' name : List Char} {way : List (List Char)}

theorem go_step (h : IsStep name) (way : List (List Char)) : go way name = name :: way := by
  obtain ⟨hempty, hdot, hdots, -⟩ := h
  simp [go, hempty, hdot, hdots]

/-- A path goes on from where its front leads. -/
theorem names_append (front back : List Char) : names (front ++ '/' :: back) =
    ((back.splitOn '/').foldl go (names front).reverse).reverse := by
  rw [names, names, List.splitOn_append_cons_self, List.foldl_append, List.reverse_reverse]

theorem names_detour (h : Detour path path') : names path' = names path := by
  cases h with
  | slash front back =>
    rw [names_append, names_append]
    rfl
  | dot front back =>
    rw [names_append, names_append]
    rfl
  | step front back h =>
    have hsplit : List.splitOn '/' ('.' :: '.' :: '/' :: back) = ['.', '.'] :: back.splitOn '/' :=
      List.splitOn_append_cons_self_of_not_mem (by decide : '/' ∉ ['.', '.']) back
    rw [names_append, names_append, List.splitOn_append_cons_self_of_not_mem h.2.2.2, hsplit,
      List.foldl_cons, List.foldl_cons, go_step h]
    rfl

theorem go_isStep (hway : ∀ n ∈ way, IsStep n) (hname : '/' ∉ name) :
    ∀ n ∈ go way name, IsStep n := by
  rw [go]
  split
  · exact hway
  · next hstay =>
    split
    · exact fun n hn => hway n (List.mem_of_mem_tail hn)
    · next hdots =>
      simp only [Bool.or_eq_true, decide_eq_true_eq, not_or] at hstay
      exact List.forall_mem_cons.mpr ⟨⟨hstay.1, hstay.2, hdots, hname⟩, hway⟩

theorem foldl_go_isStep {pieces : List (List Char)} (hway : ∀ n ∈ way, IsStep n)
    (hpieces : ∀ piece ∈ pieces, '/' ∉ piece) : ∀ n ∈ pieces.foldl go way, IsStep n := by
  induction pieces generalizing way with
  | nil => exact hway
  | cons piece pieces ih =>
    obtain ⟨hpiece, hrest⟩ := List.forall_mem_cons.mp hpieces
    exact ih (go_isStep hway hpiece) hrest

theorem names_isStep (path : List Char) : ∀ name ∈ names path, IsStep name := by
  have hsteps := @foldl_go_isStep [] (path.splitOn '/') (fun _ h => nomatch h)
    fun _ hpiece => Sequence.notMem_of_mem_splitOn hpiece
  exact fun name hname => hsteps name (List.mem_reverse.mp hname)

/-- Steps are taken one after another. -/
theorem foldl_go_steps {steps : List (List Char)} (h : ∀ name ∈ steps, IsStep name)
    (way : List (List Char)) : steps.foldl go way = steps.reverse ++ way := by
  induction steps generalizing way with
  | nil => rfl
  | cons name steps ih =>
    obtain ⟨hname, hsteps⟩ := List.forall_mem_cons.mp h
    rw [List.foldl_cons, go_step hname, ih hsteps, List.reverse_cons, List.append_assoc,
      List.singleton_append]

theorem names_intercalate {steps : List (List Char)} (h : ∀ name ∈ steps, IsStep name) :
    names (['/'].intercalate steps) = steps := by
  cases steps with
  | nil => rfl
  | cons name steps =>
    have hslash : ∀ n ∈ name :: steps, '/' ∉ n := fun n hn => (h n hn).2.2.2
    rw [names, List.splitOn_intercalate '/' hslash (List.cons_ne_nil name steps),
      foldl_go_steps h, List.append_nil, List.reverse_reverse]

theorem names_of_stays (h : Stays name) : names name = [] := by
  rcases h with rfl | rfl | rfl <;> rfl

theorem names_absorb (h : Stays name) (path : List Char) :
    names (name ++ '/' :: path) = names path := by
  rw [names_append, names_of_stays h]
  rfl

/-- From the root there is no way back. -/
theorem names_intercalate_stays {ups : List (List Char)} (h : ∀ name ∈ ups, Stays name)
    (rest : List (List Char)) :
    names (['/'].intercalate (ups ++ rest)) = names (['/'].intercalate rest) := by
  induction ups with
  | nil => rfl
  | cons name ups ih =>
    obtain ⟨hname, hups⟩ := List.forall_mem_cons.mp h
    rw [← ih hups, List.cons_append]
    cases ups ++ rest with
    | nil =>
      rw [List.intercalate_singleton]
      exact names_of_stays hname
    | cons next names =>
      rw [List.intercalate_cons_cons, List.append_assoc, List.singleton_append]
      exact names_absorb hname _

theorem takes_literal_iff {word : List Char} {run : List (List Char)} (h : '*' ∉ word) :
    Takes word run ↔ run = [word] := by
  have hstars : word ≠ ['*', '*'] := by
    rintro rfl
    simp at h
  constructor
  · rintro (hword | ⟨name, rfl, hname⟩)
    · exact absurd hword hstars
    · rw [(fits_word_iff h).mp hname]
  · rintro rfl
    exact .inr ⟨word, rfl, (fits_word_iff h).mpr rfl⟩

theorem covers_literals_iff {literals path : List (List Char)}
    (h : ∀ word ∈ literals, '*' ∉ word) : Covers literals path ↔ path = literals := by
  induction literals using List.reverseRecOn generalizing path with
  | nil => exact covers_nil_iff
  | append_singleton front word ih =>
    obtain ⟨hfront, hword⟩ := List.forall_mem_append.mp h
    simp only [covers_snoc_iff, ih hfront, takes_literal_iff (hword word List.mem_cons_self)]
    constructor
    · rintro ⟨_, _, rfl, rfl, rfl⟩
      rfl
    · rintro rfl
      exact ⟨front, [word], rfl, rfl, rfl⟩

/-- With `**` behind them, literal names cover what starts with them. -/
theorem covers_beneath_iff {literals path : List (List Char)} (h : ∀ word ∈ literals, '*' ∉ word) :
    Covers (literals ++ [['*', '*']]) path ↔ literals <+: path := by
  simp only [covers_snoc_iff, covers_literals_iff h]
  constructor
  · rintro ⟨_, run, rfl, rfl, -⟩
    exact List.prefix_append _ run
  · rintro ⟨run, rfl⟩
    exact ⟨literals, run, rfl, rfl, .inl rfl⟩

end

/-- A detour is invisible to patterns, on the side of the path as on that of the pattern. What
remains are proper names, written out again they lead along themselves, and the root is where steps
back end. Hence a pattern with `**` behind literal names accepts the paths beneath these names. -/
theorem traversal_is_resolved :
    (∀ path path', Detour path path' → names path' = names path ∧ ∀ other,
      accepts path' other = accepts path other ∧ accepts other path' = accepts other path) ∧
    (∀ path, (∀ name ∈ names path, IsStep name) ∧
      names (['/'].intercalate (names path)) = names path) ∧
    (∀ ups rest, (∀ name ∈ ups, Stays name) →
      names (['/'].intercalate (ups ++ rest)) = names (['/'].intercalate rest)) ∧
    ∀ literals path, (∀ word ∈ literals, IsStep word ∧ '*' ∉ word) →
      (accepts ('/' :: ['/'].intercalate (literals ++ [['*', '*']])) path = true ↔
        literals <+: names path) := by
  refine ⟨fun path path' h => ?_, fun path => ?_, fun ups rest h => names_intercalate_stays h rest,
    fun literals path h => ?_⟩
  · have hnames := names_detour h
    refine ⟨hnames, fun other => ⟨?_, ?_⟩⟩
    · rw [accepts, accepts, hnames]
    · rw [accepts, accepts, hnames]
  · exact ⟨names_isStep path, names_intercalate (names_isStep path)⟩
  · have hsteps : ∀ word ∈ literals ++ [['*', '*']], IsStep word := by
      refine List.forall_mem_append.mpr ⟨fun word hword => (h word hword).1, ?_⟩
      exact List.forall_mem_singleton.mpr (by unfold IsStep; decide)
    have hpattern :
        names ('/' :: ['/'].intercalate (literals ++ [['*', '*']])) = literals ++ [['*', '*']] :=
      (names_absorb (.inl rfl) _).trans (names_intercalate hsteps)
    have haccepts : accepts ('/' :: ['/'].intercalate (literals ++ [['*', '*']])) path = true ↔
        Covers (names ('/' :: ['/'].intercalate (literals ++ [['*', '*']]))) (names path) :=
      getLast?_of_charts (charts_foldl _ _)
    rw [haccepts, hpattern, covers_beneath_iff fun word hword => (h word hword).2]

/-- A path that leaves a directory again is not beneath it, whatever detour it takes before. -/
theorem traversal_is_resolved_private :
    Detour "/public/../private".toList "/public/../x/../private".toList ∧
    accepts "/public/**".toList "/public/../x/../private".toList = false ∧
    accepts "/private/**".toList "/public/../x/../private".toList = true := by
  have hdetour : Detour "/public/../private".toList "/public/../x/../private".toList :=
    @Detour.step "/public/..".toList "private".toList ['x'] (by unfold IsStep; decide)
  have hpublic : ∀ word ∈ ["public".toList], IsStep word ∧ '*' ∉ word := by
    unfold IsStep
    decide
  have hprivate : ∀ word ∈ ["private".toList], IsStep word ∧ '*' ∉ word := by
    unfold IsStep
    decide
  obtain ⟨hinvisible, -, -, hbeneath⟩ := traversal_is_resolved
  have hnames := (hinvisible _ _ hdetour).1
  refine ⟨hdetour, ?_, ?_⟩
  · refine Bool.eq_false_iff.mpr fun haccepts => ?_
    have hprefix := (hbeneath _ _ hpublic).mp haccepts
    rw [hnames] at hprefix
    exact absurd hprefix (by decide)
  · refine (hbeneath _ _ hprivate).mpr ?_
    rw [hnames]
    decide

end AccessControl.Builtin.Glob
