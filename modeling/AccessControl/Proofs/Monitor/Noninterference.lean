import AccessControl.Proofs.Matcher.Truncation
import AccessControl.Proofs.Model.Matcher
import AccessControl.Proofs.Monitor.Simulation

namespace AccessControl.Monitor

open Policy Matcher

/-- The matcher asks for the attribute of the request, be it only to go on from there. -/
def Reads (m : Monitor) (attr : String) : Prop :=
  ∃ path, .fetchPath m.model.request.symbol (attr :: path) ∈ m.program.instructions

/-- The requests have the same value wherever the matcher reads one. -/
def AgreeOnRead (m : Monitor) (request request' : List String) : Prop :=
  ∀ attr, m.Reads attr → ∀ i : Nat, m.model.request.attrs[i]? = some attr →
    request'[i]? = request[i]?

/-- A path of a matcher goes to some attribute. -/
theorem Reachable.path_ne_nil {m : Monitor} (hm : Reachable m) {name : String} {path : List String}
    (h : .fetchPath name path ∈ m.program.instructions) : path ≠ [] := by
  obtain ⟨limit, hprogram⟩ := hm.exists_program
  obtain ⟨e, hparse, hcode⟩ := Model.compile_eq_ok_iff.mp (Result.mapError_eq_ok_iff.mp hprogram)
  obtain ⟨ks, -, hderives, -⟩ := derives_of_parse hparse
  rw [← hcode] at h
  exact path_ne_nil_of_mem_code (derives_proper hderives) h

section

variable {m : Monitor} {policy : Schema} {request request' : List String} {row : Row}

/-- What is not read of a request is not seen. -/
theorem field?_congr_of_reads {attr : String} (hlen : request'.length = request.length)
    (h : m.AgreeOnRead request request') (hattr : m.Reads attr) :
    (Value.record (m.model.request.attrs.zip (request'.map .string))).field? attr =
      (Value.record (m.model.request.attrs.zip (request.map .string))).field? attr := by
  rw [field?_record, field?_record]
  refine Sequence.lookup_zip_congr (by simpa using hlen) fun i hi => ?_
  rw [List.getElem?_map, List.getElem?_map, h attr hattr i hi]

/-- An instruction that takes no more of a request than one of its attributes cannot tell requests
apart that agree on what is read. -/
theorem rowScope_agreesOn (hm : Reachable m)
    (hbare : .fetch m.model.request.symbol ∉ m.program.instructions)
    (hlen : request'.length = request.length) (h : m.AgreeOnRead request request')
    {i : Instruction} (hi : i ∈ m.program.instructions) :
    i.AgreesOn (m.rowScope policy request row) (m.rowScope policy request' row) := by
  cases i with
  | push | unary | binary => trivial
  | fetch name =>
    have hname : name ≠ m.model.request.symbol := fun heq => hbare (heq ▸ hi)
    change (m.rowScope policy request' row).get? name = (m.rowScope policy request row).get? name
    rw [rowScope_get?, rowScope_get?, if_neg hname, if_neg hname]
  | fetchPath name path =>
    cases path with
    | nil => exact absurd rfl (hm.path_ne_nil hi)
    | cons attr path =>
      change Option.map _ ((m.rowScope policy request' row).get? name) =
        Option.map _ ((m.rowScope policy request row).get? name)
      rw [rowScope_get?, rowScope_get?]
      by_cases hpolicy : name = policy.symbol
      · rw [if_pos hpolicy, if_pos hpolicy]
      rw [if_neg hpolicy, if_neg hpolicy]
      by_cases hname : name = m.model.request.symbol
      · have hreads : m.Reads attr := ⟨path, hname ▸ hi⟩
        rw [if_pos hname, if_pos hname, Option.map_some, Option.map_some,
          field?_congr_of_reads hlen h hreads]
      · rw [if_neg hname, if_neg hname]
  | call name arity => rfl

/-- Requests that the matcher cannot tell apart are counterparts. -/
theorem counterpart_of_agreeOnRead (hm : Reachable m)
    (hbare : .fetch m.model.request.symbol ∉ m.program.instructions)
    (hlen : request'.length = request.length) (h : m.AgreeOnRead request request') :
    Counterpart id m m request request' where
  model := rfl
  length := hlen
  candidates := (List.map_id _).symm
  effect _ := rfl
  judge _ _ _ _ := judge_mirrors keepsTruth_id rfl fun _ hi =>
    mirrors_of_agreesOn (rowScope_agreesOn hm hbare hlen h hi)

/-- A monitor with other functions gives the same answers if the matcher calls none of those that
differ. -/
theorem counterpart_of_functions {functions : FunctionTable}
    (h : ∀ name arity, .call name arity ∈ m.program.instructions →
      functions.get? ⟨name, arity⟩ = m.functions.get? ⟨name, arity⟩) :
    Counterpart id m { m with functions } request request where
  model := rfl
  length := rfl
  candidates := (List.map_id _).symm
  effect _ := rfl
  judge policy _ row _ := by
    refine @judge_mirrors m { m with functions } policy request request id keepsTruth_id rfl row row
      fun i hi => mirrors_of_agreesOn ?_
    cases i with
    | call name arity => exact h name arity hi
    | fetchPath name path => cases path <;> rfl
    | fetch name => rfl
    | push | unary | binary => trivial

/-- What is bound to other signatures cannot be called. -/
theorem get?_of_added {functions : FunctionTable} {added : List (Signature × Binding)}
    {signature : Signature} (h : ∀ entry ∈ added, entry.1 ≠ signature) :
    (added.foldl (fun t (signature, b) => t.insert signature b) functions).get? signature =
      functions.get? signature := by
  rw [Table.get?_foldl_insert, List.lookup_eq_none_iff.mpr, Option.none_or]
  intro entry hentry
  simpa using fun heq : signature = entry.1 => h entry (List.mem_reverse.mp hentry) heq.symm

/-- Where no row is replaced, counterparts are decided and explained alike. -/
theorem same_of_counterpart {m' : Monitor} (hm : Reachable m)
    (h : Counterpart id m m' request request') :
    m'.decideAnew request' = m.decideAnew request ∧ m'.explain request' = m.explain request := by
  obtain ⟨policy, hpolicy, hsymbol⟩ := hm.exists_decidingPolicy
  have hexplain := explain_counterpart h hpolicy hsymbol
  simp only [List.map_id] at hexplain
  exact ⟨decideAnew_counterpart h hpolicy hsymbol, hexplain.trans (id_map _)⟩

end

/-- Attributes that the matcher never reads and functions that it never calls have no influence: two
requests that have the same values where the matcher reads them get the same answer, down to the
calls that are made and the error if there is one, and so does a request to a monitor that knows
other functions besides. -/
theorem unread_has_no_influence {m : Monitor} (hm : Reachable m) (hrecent : m.recent = none) :
    (.fetch m.model.request.symbol ∉ m.program.instructions →
      ∀ request request', request.length = m.model.request.attrs.length →
        request'.length = m.model.request.attrs.length → m.AgreeOnRead request request' →
        m.decide request' = m.decide request ∧ m.explain request' = m.explain request) ∧
    ∀ added : List (Signature × Binding),
      (∀ entry ∈ added, .call entry.1.name entry.1.arity ∉ m.program.instructions) →
      let functions := added.foldl (fun t (signature, b) => t.insert signature b) m.functions
      ∀ request,
        Prod.fst <$> decide { m with functions } request = Prod.fst <$> m.decide request ∧
        explain { m with functions } request = m.explain request := by
  constructor
  · intro hbare request request' hlen hlen' hagree
    have hcounterpart := counterpart_of_agreeOnRead hm hbare (hlen'.trans hlen.symm) hagree
    obtain ⟨hanew, hexplain⟩ := same_of_counterpart hm hcounterpart
    rw [decide_of_recent_none hrecent, decide_of_recent_none hrecent, hanew]
    exact ⟨rfl, hexplain⟩
  · intro added hadded functions request
    have hfunctions (name : String) (arity : Nat)
        (hcall : .call name arity ∈ m.program.instructions) :
        functions.get? ⟨name, arity⟩ = m.functions.get? ⟨name, arity⟩ := by
      refine get?_of_added fun entry hentry heq => hadded entry hentry ?_
      rwa [heq]
    obtain ⟨hanew, hexplain⟩ := same_of_counterpart hm (counterpart_of_functions hfunctions)
    have hdecide := @decide_of_recent_none { m with functions } hrecent request
    rw [hdecide, decide_of_recent_none hrecent, hanew, Functor.map_map, Functor.map_map]
    exact ⟨rfl, hexplain⟩

/-- Allows what a row of the policy allows, from wherever the request comes. -/
def locatedText : String :=
  "[request_definition]\nr = sub, via, obj\n[policy_definition]\np = sub\n" ++
  "[policy_effect]\ne = some(where (p.eft == allow))\n" ++
  "[matchers]\nm = r.sub == p.sub && open(r.obj)"

/-- Only the door is open. -/
def isOpen : HostFunction := fun args =>
  .ok (.bool (args.filterMap Value.string? == ["door"]))

def located : Monitor where
  model := ⟨⟨"r", ["sub", "via", "obj"]⟩, [⟨"p", ["sub"]⟩], [], ⟨.allowOverride, "p"⟩,
    "r.sub == p.sub && open(r.obj)"⟩
  program := ⟨"r.sub == p.sub && open(r.obj)",
    [.fetchPath "r" ["sub"], .fetchPath "p" ["sub"], .binary .eq, .fetchPath "r" ["obj"],
      .call "open" 1, .binary .and]⟩
  functions := [(⟨"open", 1⟩, .function isOpen)]
  rows := []
  recent := none

theorem build_located :
    Setup.build ⟨some locatedText, none, 8, none, false, [(⟨"open", 1⟩, isOpen)], []⟩ =
      .ok located :=
  build_eq_ok_iff.mpr ⟨_, rfl, Result.eq_ok_of_toOption (by decide +kernel),
    by with_unfolding_all rfl, rfl, rfl, rfl⟩

/-- The way in is not read, and neither is a function of that name for two arguments. -/
theorem unread_has_no_influence_located :
    let m := { located with rows := [⟨"p", ["alice"], .allow⟩] }
    let functions := m.functions.insert ⟨"open", 2⟩ (.role fun _ => false)
    Reachable m ∧ m.recent = none ∧ .fetch m.model.request.symbol ∉ m.program.instructions ∧
      m.AgreeOnRead ["alice", "gate", "door"] ["alice", "wall", "door"] ∧
      .call "open" 2 ∉ m.program.instructions ∧
      m.decide ["alice", "wall", "door"] = m.decide ["alice", "gate", "door"] ∧
      (m.decide ["alice", "gate", "door"]).result = .ok (true, m) ∧
      explain { m with functions } ["alice", "gate", "door"] =
        m.explain ["alice", "gate", "door"] := by
  intro m functions
  have hadded : located.after (.add "p" ["alice"]) = m := rfl
  have hm : Reachable m := hadded ▸ (Reachable.built build_located).after _
  have hbare : Instruction.fetch m.model.request.symbol ∉ m.program.instructions := by
    simp [m, located]
  have hagree : m.AgreeOnRead ["alice", "gate", "door"] ["alice", "wall", "door"] := by
    rintro attr ⟨path, hread⟩ i hi
    rcases i with _ | _ | _ | i
    · rfl
    · cases hi
      simp [m, located] at hread
    · rfl
    · rfl
  have hcall : Instruction.call "open" 2 ∉ m.program.instructions := by simp [m, located]
  have hunread := unread_has_no_influence hm rfl
  obtain ⟨hdecide, -⟩ := hunread.1 hbare ["alice", "gate", "door"] ["alice", "wall", "door"] rfl rfl
    hagree
  have hexplain := (hunread.2 [(⟨"open", 2⟩, .role fun _ => false)] (by simpa using hcall)
    ["alice", "gate", "door"]).2
  have hanew : (m.decideAnew ["alice", "gate", "door"]).result = .ok true :=
    Result.eq_ok_of_toOption (by decide +kernel)
  have hgranted : (m.decide ["alice", "gate", "door"]).result = .ok (true, m) := by
    rw [decide_of_recent_none rfl, Traced.result_map, hanew]
    rfl
  exact ⟨hm, rfl, hbare, hagree, hcall, hdecide, hgranted, hexplain⟩

end AccessControl.Monitor
