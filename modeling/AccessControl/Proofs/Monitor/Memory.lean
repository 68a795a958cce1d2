import AccessControl.Monitor.Setup
import AccessControl.Proofs.Monitor.Step

namespace AccessControl.Monitor

open Policy Matcher

/-- The same monitor, making every decision anew. -/
def forgetful (m : Monitor) : Monitor :=
  { m with recent := none }

/-- The same monitor with room to remember decisions. -/
def remembering (m : Monitor) (capacity : Nat) : Monitor :=
  { m with recent := some (.empty capacity) }

/-- The answer to an operation. -/
def reply (m : Monitor) (op : Operation) : Except Error Reply :=
  (m.perform op).result.map (·.1)

theorem reply_decide (m : Monitor) (request : List String) :
    m.reply (.decide request) = (m.decide request).result.map fun r => .flag r.1 := by
  rw [reply, perform, Traced.result_bind]
  cases (m.decide request).result <;> rfl

theorem reply_explain (m : Monitor) (request : List String) :
    m.reply (.explain request) = (m.explain request).result.map fun r => .explanation r.1 r.2 := by
  rw [reply, perform, Traced.result_bind]
  cases (m.explain request).result <;> rfl

/-- Every remembered decision is the one that would be made anew on the rows as they are. -/
def Faithful (m : Monitor) : Prop :=
  ∀ recent, m.recent = some recent → ∀ entry ∈ recent.entries,
    (m.decideAnew entry.1).result = .ok entry.2

theorem decide_forgetful (m : Monitor) (request : List String) :
    m.forgetful.decide request = (fun b => (b, m.forgetful)) <$> m.decideAnew request :=
  @decide_of_not_find m.forgetful request fun _ h => nomatch h

/-- Without memory every decision is made anew. -/
theorem decide_of_recent_none {m : Monitor} (hrecent : m.recent = none) (request : List String) :
    m.decide request = (fun granted => (granted, m)) <$> m.decideAnew request := by
  have hself : m.forgetful = m := by rw [forgetful, ← hrecent]
  have hdecide := decide_forgetful m request
  rwa [hself] at hdecide

/-- The outcome of an operation on a monitor that remembers nothing. -/
def withoutMemory {α : Type} (r : α × Monitor) : α × Monitor :=
  (r.1, r.2.forgetful)

theorem faithful_withRows (m : Monitor) (rows : List Row) : Faithful (m.withRows rows) := by
  intro recent hrecent entry hentry
  obtain ⟨old, -, rfl⟩ := Option.map_eq_some_iff.mp hrecent
  simp [RecentDecisions.clear] at hentry

theorem faithful_forget (m : Monitor) : Faithful m.forget :=
  faithful_withRows m m.rows

theorem faithful_update {m : Monitor} (h : Faithful m) (rows : Option (List Row)) :
    Faithful (m.update rows) := by
  cases rows with
  | none => exact h
  | some rows => exact faithful_withRows m rows

section

variable {α : Type} {f : Monitor → Except Error (α × Monitor)}

theorem EditsRows.forgetful (hf : EditsRows f) (m : Monitor) :
    f m.forgetful = (f m).map withoutMemory := by
  obtain ⟨answer, hanswer⟩ := hf m
  have hnone := hanswer none
  have hrecent := hanswer m.recent
  change f m.forgetful = _ at hnone
  change f m = _ at hrecent
  rw [hnone, hrecent]
  cases answer with
  | error e => rfl
  | ok r =>
    obtain ⟨a, rows⟩ := r
    cases rows <;> rfl

theorem EditsRows.faithful (hf : EditsRows f) {m m' : Monitor} {a : α} (h : Faithful m)
    (hm : f m = .ok (a, m')) : Faithful m' := by
  obtain ⟨rows, rfl⟩ := hf.eq_update hm
  exact faithful_update h rows

end

/-- A step that succeeds keeps memory faithful, and with or without memory it succeeds alike. -/
def Transparent {α : Type} (m : Monitor) (f : Monitor → Except Error (α × Monitor)) : Prop :=
  f m.forgetful = (f m).map withoutMemory ∧ ∀ a m', f m = .ok (a, m') → Faithful m'

theorem EditsRows.transparent {α : Type} {f : Monitor → Except Error (α × Monitor)}
    (hf : EditsRows f) {m : Monitor} (h : Faithful m) : Transparent m f :=
  ⟨hf.forgetful m, fun _ _ hm => hf.faithful h hm⟩

/-- What is answered in the end makes no difference. -/
theorem Transparent.map {α β : Type} {m : Monitor} {f : Monitor → Except Error (α × Monitor)}
    (hf : Transparent m f) (g : α → β) :
    Transparent m fun m => f m >>= fun r => .ok (g r.1, r.2) := by
  refine ⟨?_, fun b m' hm => ?_⟩
  · simp only [hf.1]
    cases f m <;> rfl
  · obtain ⟨⟨a, m''⟩, hstep, hm⟩ := Result.bind_eq_ok_iff.mp hm
    cases hm
    exact hf.2 a m'' hstep

/-- Looking at the model or the rows changes nothing. -/
theorem transparent_look {α : Type} {m : Monitor} (h : Faithful m) (look : Monitor → Except Error α)
    (hlook : look m.forgetful = look m) : Transparent m fun m => (look m).map fun a => (a, m) := by
  refine ⟨?_, fun a m' hm => ?_⟩
  · simp only [hlook]
    cases look m <;> rfl
  · simp only at hm
    cases hl : look m with
    | error e =>
      rw [hl] at hm
      cases hm
    | ok b =>
      rw [hl] at hm
      cases hm
      exact h

theorem transparent_decide {m : Monitor} (h : Faithful m) (request : List String) :
    Transparent m fun m => (m.decide request).result := by
  have hforgetful := decide_forgetful m request
  obtain ⟨recent, recent', b, hrecent, hfound⟩ | hfind := find_or_not m request
  · obtain ⟨hmem, hsub⟩ := RecentDecisions.mem_of_find hfound
    have hdecide := decide_of_find hrecent hfound
    have hanew : (m.decideAnew request).result = .ok b := h recent hrecent _ hmem
    obtain ⟨_, hcheck, -⟩ := Traced.result_bind_eq_ok_iff.mp hanew
    rw [Traced.result_ofExcept] at hcheck
    rw [hcheck, Traced.ok_bind] at hdecide
    refine ⟨?_, fun b' m' hm => ?_⟩
    · simp only [hforgetful, hdecide, Traced.result_map, hanew]
      rfl
    · simp only [hdecide] at hm
      cases hm
      intro _ hrecent' entry hentry
      cases hrecent'
      exact h recent hrecent entry (hsub entry hentry)
  · have hdecide := decide_of_not_find hfind
    refine ⟨?_, fun b m' hm => ?_⟩
    · simp only [hforgetful, hdecide, Traced.result_map]
      cases (m.decideAnew request).result <;> rfl
    · simp only [hdecide, Traced.result_map] at hm
      cases hb : (m.decideAnew request).result with
      | error e =>
        rw [hb] at hm
        cases hm
      | ok b' =>
        rw [hb] at hm
        cases hm
        intro recent' hrecent' entry hentry
        obtain ⟨recent, hrecent, rfl⟩ := Option.map_eq_some_iff.mp hrecent'
        rcases RecentDecisions.mem_insert hentry with rfl | hentry
        · exact hb
        · exact h recent hrecent entry hentry

theorem transparent_perform {m : Monitor} (h : Faithful m) (op : Operation) :
    Transparent m fun m => (m.perform op).result := by
  cases op with
  | decide request =>
    have hdecide := (transparent_decide h request).map Reply.flag
    simpa only [perform, Traced.result_bind, Traced.result_pure] using hdecide
  | explain request =>
    have hlook : (fun m => (perform m (.explain request)).result) = fun m =>
        ((m.explain request).result.map fun r => Reply.explanation r.1 r.2).map
          fun a => (a, m) := by
      funext m
      simp only [perform, Traced.result_bind]
      cases (m.explain request).result <;> rfl
    rw [hlook]
    exact transparent_look h _ rfl
  | add policy values => exact ((add_editsRows policy values).transparent h).map Reply.flag
  | addMany rows => exact ((addMany_editsRows rows).transparent h).map Reply.count
  | remove policy values => exact ((remove_editsRows policy values).transparent h).map Reply.flag
  | removeWhere policy index wanted =>
    exact ((removeWhere_editsRows policy index wanted).transparent h).map Reply.count
  | clear =>
    refine ⟨rfl, fun a m' hm => ?_⟩
    cases hm
    exact faithful_withRows m []
  | forget =>
    refine ⟨rfl, fun a m' hm => ?_⟩
    cases hm
    exact faithful_forget m
  | rows => exact transparent_look h (fun m => .ok (Reply.rows m.rows)) rfl
  | rowsOf policy =>
    exact transparent_look h (fun m => .ok (Reply.rows (m.rowsOf policy))) rfl
  | importJson text => exact ((importJson_editsRows text).transparent h).map Reply.count
  | importFile file =>
    cases file with
    | text contents => exact ((importJson_editsRows contents).transparent h).map Reply.count
    | unreadable => exact ⟨rfl, fun a m' hm => nomatch hm⟩
  | exportJson => exact transparent_look h (fun m => .ok (Reply.text m.exportJson)) rfl

theorem reply_forgetful {m : Monitor} (h : Faithful m) (op : Operation) :
    m.forgetful.reply op = m.reply op := by
  have hperform := (transparent_perform h op).1
  simp only at hperform
  rw [reply, reply, hperform]
  cases (m.perform op).result <;> rfl

theorem after_forgetful {m : Monitor} (h : Faithful m) (op : Operation) :
    m.forgetful.after op = (m.after op).forgetful := by
  have hperform := (transparent_perform h op).1
  simp only at hperform
  rw [after, after, hperform]
  cases (m.perform op).result <;> rfl

theorem faithful_after {m : Monitor} (h : Faithful m) (op : Operation) : Faithful (m.after op) := by
  have hperform := (transparent_perform h op).2
  unfold after
  split
  · next reply m' hm => exact hperform reply m' hm
  · exact h

theorem faithful_afterAll {m : Monitor} (h : Faithful m) (ops : List Operation) :
    Faithful (m.afterAll ops) ∧ m.forgetful.afterAll ops = (m.afterAll ops).forgetful := by
  induction ops generalizing m with
  | nil => exact ⟨h, rfl⟩
  | cons op ops ih =>
    have hafter := ih (faithful_after h op)
    rw [← after_forgetful h op] at hafter
    exact hafter

theorem faithful_remembering (m : Monitor) (capacity : Nat) :
    Faithful (m.remembering capacity) := by
  intro recent hrecent entry hentry
  cases hrecent
  simp [RecentDecisions.empty] at hentry

theorem reply_decide_of_mem {m : Monitor} (h : Faithful m) {recent : RecentDecisions}
    (hrecent : m.recent = some recent) {entry : List String × Bool}
    (hentry : entry ∈ recent.entries) :
    m.forgetful.reply (.decide entry.1) = .ok (.flag entry.2) := by
  have hanew := h recent hrecent entry hentry
  simp [reply, perform, decide_forgetful, hanew, Except.map]

/-- Memory only spares work. Built with it, a monitor is the one built without it but for an empty
memory; and whatever the history, the two give the same reply to every operation and hold the same
rows, and each decision in the memory is the one that is made without it. -/
theorem memory_transparent (setup : Setup) (capacity : Nat) :
    Setup.build { setup with recent := some capacity } =
      (Setup.build { setup with recent := none }).map (·.remembering capacity) ∧
    ∀ (m : Monitor) (ops : List Operation),
      let mindful := (m.remembering capacity).afterAll ops
      let plain := m.forgetful.afterAll ops
      (∀ op, mindful.reply op = plain.reply op) ∧ mindful.rows = plain.rows ∧
      ∀ recent, mindful.recent = some recent → ∀ entry ∈ recent.entries,
        mindful.forgetful.reply (.decide entry.1) = .ok (.flag entry.2) := by
  refine ⟨?_, fun m ops => ?_⟩
  · have hsource (recent : Option Nat) :
        Setup.modelSource { setup with recent } = setup.modelSource := rfl
    have hfunctions (recent : Option Nat) :
        Setup.bindFunctions { setup with recent } = setup.bindFunctions := rfl
    simp only [Setup.build, hsource, hfunctions, Result.map_bind]
    rfl
  · obtain ⟨hfaithful, hplain⟩ := faithful_afterAll (faithful_remembering m capacity) ops
    change m.forgetful.afterAll ops = _ at hplain
    intro mindful plain
    have hforgetful : plain = mindful.forgetful := hplain
    refine ⟨fun op => ?_, ?_, fun recent hrecent entry hentry => ?_⟩
    · rw [hforgetful]
      exact (reply_forgetful hfaithful op).symm
    · rw [hforgetful]
      rfl
    · exact reply_decide_of_mem hfaithful hrecent hentry

end AccessControl.Monitor
