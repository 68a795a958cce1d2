import AccessControl.Proofs.Matcher.Renaming
import AccessControl.Proofs.Monitor.Simulation
import AccessControl.Proofs.Monitor.Transfer
import Mathlib.Logic.Equiv.Basic

namespace AccessControl

open Policy Matcher

/-- Policy and effect stay. -/
def Policy.Row.rename (f : String → String) (row : Row) : Row :=
  { row with values := row.values.map f }

namespace Monitor

/-- With the values of all rows replaced. -/
def rename (f : String → String) (m : Monitor) : Monitor :=
  { m with rows := m.rows.map (·.rename f) }

section

variable {f : String → String}

theorem rename_row_injective (hf : f.Injective) : (Row.rename f).Injective := by
  rintro ⟨policy, values, effect⟩ ⟨policy', values', effect'⟩ h
  obtain ⟨rfl, hvalues, rfl⟩ := Row.mk.inj h
  have hsame : values = values' := List.map_injective_iff.mpr hf hvalues
  rw [hsame]

/-- A replacement that leaves the names of effects is none of effects. -/
theorem conforms_rename (hallow : f Effect.allow.name = Effect.allow.name)
    (hdeny : f Effect.deny.name = Effect.deny.name) {m : Model} {row : Row}
    (h : Conforms m row) : Conforms m (row.rename f) := by
  obtain ⟨s, hs, hlen, heffect⟩ := h
  refine ⟨s, hs, (List.length_map f).trans hlen, fun i hi => ?_⟩
  obtain ⟨value, hvalue, hname⟩ := Option.bind_eq_some_iff.mp (heffect i hi)
  have hfixed : f value = value := by
    rw [Effect.ofName?_eq_some_iff.mp hname]
    cases row.effect with
    | allow => exact hallow
    | deny => exact hdeny
  have hrenamed : (row.rename f).values[i]? = some value := by
    simp [Row.rename, hvalue, hfixed]
  rw [hrenamed]
  exact hname

/-- All rows that differ and conform can be stored together. -/
theorem Reachable.with_rows {m : Monitor} (hm : Reachable m) (hrecent : m.recent = none)
    {rows : List Row} (hnodup : rows.Nodup) (hconforms : ∀ row ∈ rows, Conforms m.model row) :
    Reachable { m with rows } := by
  have hwith (rows : List Row) : m.withRows rows = { m with rows } := by
    simp [withRows, forget, hrecent]
  have hcleared : m.after .clear = { m with rows := [] } := hwith []
  have hinsert : insertNew [] rows = rows := insertNew_of_nodup hnodup
  have hadd : addMany { m with rows := [] } rows = .ok (inserted { m with rows := [] } rows) :=
    addMany_of_conforms hconforms
  have hinserted : (inserted { m with rows := [] } rows).2 = { m with rows } := by
    cases rows with
    | nil => rfl
    | cons row rows =>
      rw [inserted_of_some]
      · simp only [hinsert]
        exact hwith _
      · simp [inserted, hinsert]
  have hperform : (perform { m with rows := [] } (.addMany rows)).result =
      .ok (.count (inserted { m with rows := [] } rows).1, { m with rows }) := by
    rw [perform, hadd, ← hinserted]
    rfl
  rw [← after_of_perform hperform, ← hcleared]
  exact (hm.after _).after _

theorem reachable_rename {m : Monitor} (hm : Reachable m) (hrecent : m.recent = none)
    (hf : f.Injective) (hallow : f Effect.allow.name = Effect.allow.name)
    (hdeny : f Effect.deny.name = Effect.deny.name) : Reachable (m.rename f) := by
  refine hm.with_rows hrecent (hm.sound.nodup.map (rename_row_injective hf)) fun row hrow => ?_
  obtain ⟨held, hheld, rfl⟩ := List.mem_map.mp hrow
  exact conforms_rename hallow hdeny (hm.sound.conforms held hheld)

theorem candidates_rename (m : Monitor) :
    (m.rename f).candidates = m.candidates.map (·.rename f) := by
  rw [candidates, candidates, rename, List.filter_map]
  rfl

theorem rowScope_rename (m : Monitor) (policy : Schema) (request : List String) (row : Row)
    (name : String) : ((m.rename f).rowScope policy (request.map f) (row.rename f)).get? name =
      ((m.rowScope policy request row).get? name).map (·.rename f) := by
  rw [rowScope_get?, rowScope_get?]
  simp only [rename, Row.rename, ← Value.rename_record_strings]
  split
  · rfl
  · split <;> rfl

theorem counterpart_rename {m : Monitor} (hf : f.Injective)
    (hcompares : ∀ i ∈ m.program.instructions, i.ComparesOnly)
    (hfixed : ∀ s, .push (.string s) ∈ m.program.instructions → f s = s) (request : List String) :
    Counterpart (·.rename f) m (m.rename f) request (request.map f) where
  model := rfl
  length := List.length_map f
  candidates := candidates_rename m
  effect _ := rfl
  judge policy _ row _ := judge_mirrors Value.keepsTruth_rename rfl fun i hi =>
    mirrors_rename hf (rowScope_rename m policy request row) (hcompares i hi)
      fun s hs => hfixed s (hs ▸ hi)

end

/-- Values are data. Where the matcher neither calls a function nor compares by order, let strings
be replaced so that different ones stay different, and the effects' names and the strings of the
matcher stay as they are. If that is done to the values of a request and of all rows, the store is
again one that there can be; the decision is the same, or the error if there is one; and what
explains it are the replaced rows. -/
theorem values_are_data {m : Monitor} (hm : Reachable m) (hrecent : m.recent = none)
    (hcompares : ∀ i ∈ m.program.instructions, i.ComparesOnly) {f : String → String}
    (hf : f.Injective) (hallow : f "allow" = "allow") (hdeny : f "deny" = "deny")
    (hfixed : ∀ s, .push (.string s) ∈ m.program.instructions → f s = s) :
    Reachable (m.rename f) ∧ ∀ request,
      Prod.fst <$> (m.rename f).decide (request.map f) = Prod.fst <$> m.decide request ∧
      (m.rename f).explain (request.map f) =
        (fun (granted, rows) => (granted, rows.map (·.rename f))) <$> m.explain request := by
  refine ⟨reachable_rename hm hrecent hf hallow hdeny, fun request => ?_⟩
  have hcounterpart := counterpart_rename hf hcompares hfixed request
  obtain ⟨policy, hpolicy, hsymbol⟩ := hm.exists_decidingPolicy
  have hrecent' : (m.rename f).recent = none := hrecent
  constructor
  · rw [decide_of_recent_none hrecent, decide_of_recent_none hrecent',
      decideAnew_counterpart hcounterpart hpolicy hsymbol, Functor.map_map, Functor.map_map]
  · exact explain_counterpart hcounterpart hpolicy hsymbol

/-- Denies whom a row of the policy denies; the root is denied as soon as anyone is. -/
def ownedText : String :=
  "[request_definition]\nr = sub\n[policy_definition]\np = sub, eft\n" ++
  "[policy_effect]\ne = !some(where (p.eft == deny))\n" ++
  "[matchers]\nm = r.sub == p.sub || r.sub == \"root\""

def owned : Monitor where
  model := ⟨⟨"r", ["sub"]⟩, [⟨"p", ["sub", "eft"]⟩], [], ⟨.denyOverride, "p"⟩,
    "r.sub == p.sub || r.sub == \"root\""⟩
  program := ⟨"r.sub == p.sub || r.sub == \"root\"",
    [.fetchPath "r" ["sub"], .fetchPath "p" ["sub"], .binary .eq, .fetchPath "r" ["sub"],
      .push (.string "root"), .binary .eq, .binary .or]⟩
  functions := .empty
  rows := []
  recent := none

theorem build_owned : Setup.build ⟨some ownedText, none, 8, none, false, [], []⟩ = .ok owned :=
  build_eq_ok_iff.mpr ⟨_, rfl, Result.eq_ok_of_toOption (by decide +kernel),
    by with_unfolding_all rfl, rfl, rfl, rfl⟩

/-- A name is exchanged for a text that looks like a matcher. -/
theorem values_are_data_owned :
    let f := Equiv.swap "alice" "alice\" || \"root"
    let denial : Row := ⟨"p", ["alice", "deny"], .deny⟩
    let m := { owned with rows := [denial] }
    Reachable m ∧ m.recent = none ∧ (∀ i ∈ m.program.instructions, i.ComparesOnly) ∧
      f.toFun.Injective ∧ f "allow" = "allow" ∧ f "deny" = "deny" ∧ f "root" = "root" ∧
      Reachable (m.rename f) ∧
      Prod.fst <$> (m.rename f).decide [f "alice"] = ⟨.ok false, []⟩ ∧
      (m.rename f).explain [f "alice"] =
        ⟨.ok (false, [⟨"p", ["alice\" || \"root", "deny"], .deny⟩]), []⟩ := by
  intro f denial m
  have hadded : owned.after (.add "p" ["alice", "deny"]) = m := rfl
  have hm : Reachable m := hadded ▸ (Reachable.built build_owned).after _
  have hcompares : ∀ i ∈ m.program.instructions, i.ComparesOnly := by
    simp [m, owned, Instruction.ComparesOnly]
  have hfixed : ∀ s, .push (.string s) ∈ m.program.instructions → f s = s := by
    intro s hs
    obtain rfl : s = "root" := by simpa [m, owned] using hs
    decide
  obtain ⟨hreachable, hrenamed⟩ :=
    values_are_data hm rfl hcompares f.injective (by decide) (by decide) hfixed
  obtain ⟨hdecide, hexplain⟩ := hrenamed ["alice"]
  have hdecided : Prod.fst <$> m.decide ["alice"] = ⟨.ok false, []⟩ :=
    Traced.eq_ok_of_toOption (by decide +kernel) (by decide +kernel)
  have hexplained : m.explain ["alice"] = ⟨.ok (false, [denial]), []⟩ :=
    Traced.eq_ok_of_toOption (by decide +kernel) (by decide +kernel)
  have hreplaced : denial.rename f = ⟨"p", ["alice\" || \"root", "deny"], .deny⟩ := by decide
  rw [hdecided] at hdecide
  rw [hexplained] at hexplain
  refine ⟨hm, rfl, hcompares, f.injective, by decide, by decide, by decide, hreachable, hdecide,
    hexplain.trans ?_⟩
  rw [← hreplaced]
  rfl

end Monitor

end AccessControl
