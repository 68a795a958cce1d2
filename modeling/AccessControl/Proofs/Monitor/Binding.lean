import AccessControl.Monitor.Builder
import AccessControl.Proofs.Matcher.FunctionTable
import AccessControl.Proofs.Model.Acceptance

namespace AccessControl.Monitor

open Matcher

namespace Choice

/-- The symbol of a resolver that has no role to answer for. -/
def unknownRole? (m : Model) : Choice → Option String
  | .resolver symbol _ => if ∃ r ∈ m.roles, r.symbol = symbol then none else some symbol
  | _ => none

/-- A resolver answers for the role of its name, under the number of names that the model gives. -/
def roleFor? (m : Model) (s : Signature) : Choice → Option Binding
  | .resolver symbol linked =>
    if symbol = s.name ∧ ⟨s.name, s.arity⟩ ∈ m.roles then some (.role linked) else none
  | _ => none

def functionFor? (s : Signature) : Choice → Option Binding
  | .function signature f => if s = signature then some (.function f) else none
  | _ => none

def dropsBuiltins : Choice → Bool
  | .withoutBuiltins => true
  | _ => false

def function? : Choice → Option (Signature × HostFunction)
  | .function signature f => some (signature, f)
  | _ => none

def resolver? : Choice → Option (String × Links)
  | .resolver symbol linked => some (symbol, linked)
  | _ => none

end Choice

/-- What answers calls of a signature after the given choices. -/
def bindingFor? (m : Model) (cs : List Choice) (s : Signature) : Option Binding :=
  (cs.reverse.findSome? (·.roleFor? m s)).or
    ((cs.reverse.findSome? (·.functionFor? s)).or
      (if cs.any Choice.dropsBuiltins then none else FunctionTable.builtin? s))

namespace Setup

/-- A list that each choice can only add to holds in the end what was added to it. -/
theorem foldl_choose_append {α : Type} {part : Setup → List α} {pick : Choice → Option α}
    (h : ∀ s c, part (choose s c) = part s ++ (pick c).toList) (s : Setup) (cs : List Choice) :
    part (cs.foldl choose s) = part s ++ cs.filterMap pick := by
  induction cs generalizing s with
  | nil => exact (List.append_nil _).symm
  | cons c cs ih =>
    rw [List.foldl_cons, ih, h, List.append_assoc, List.filterMap_cons]
    cases pick c <;> rfl

theorem functions_ofChoices (cs : List Choice) :
    (ofChoices cs).functions = cs.filterMap Choice.function? := by
  refine foldl_choose_append (fun s c => ?_) initial cs
  cases c <;> simp [choose, Choice.function?]

theorem resolvers_ofChoices (cs : List Choice) :
    (ofChoices cs).resolvers = cs.filterMap Choice.resolver? := by
  refine foldl_choose_append (fun s c => ?_) initial cs
  cases c <;> simp [choose, Choice.resolver?]

theorem builtins_foldl_choose (s : Setup) (cs : List Choice) :
    (cs.foldl choose s).builtins = (s.builtins && !cs.any Choice.dropsBuiltins) := by
  induction cs generalizing s with
  | nil => simp
  | cons c cs ih =>
    rw [List.foldl_cons, ih]
    cases c <;> simp [choose, Choice.dropsBuiltins]

theorem foldl_choose_functions (s : Setup) (functions : List (Signature × HostFunction)) :
    (functions.map fun (signature, f) => Choice.function signature f).foldl choose s =
      { s with functions := s.functions ++ functions } := by
  induction functions generalizing s with
  | nil => simp
  | cons entry functions ih =>
    rw [List.map_cons, List.foldl_cons, ih]
    simp [choose]

theorem foldl_choose_resolvers (s : Setup) (resolvers : List (String × Links)) :
    (resolvers.map fun (symbol, linked) => Choice.resolver symbol linked).foldl choose s =
      { s with resolvers := s.resolvers ++ resolvers } := by
  induction resolvers generalizing s with
  | nil => simp
  | cons entry resolvers ih =>
    rw [List.map_cons, List.foldl_cons, ih]
    simp [choose]

/-- There is no setup but can be chosen. -/
theorem exists_choices (s : Setup) : ∃ cs, ofChoices cs = s := by
  obtain ⟨modelText, modelFile, maxDepth, recent, builtins, functions, resolvers⟩ := s
  refine ⟨(modelText.map Choice.modelText).toList ++ (modelFile.map Choice.modelFile).toList ++
    [Choice.maxDepth maxDepth] ++ (recent.map Choice.recent).toList ++
    (if builtins then [] else [Choice.withoutBuiltins]) ++
    (functions.map fun (signature, f) => Choice.function signature f) ++
    (resolvers.map fun (symbol, linked) => Choice.resolver symbol linked), ?_⟩
  rw [ofChoices, List.foldl_append, foldl_choose_resolvers, List.foldl_append,
    foldl_choose_functions]
  cases modelText <;> cases modelFile <;> cases recent <;> cases builtins <;> rfl

theorem bindFunctions_eq (s : Setup) : s.bindFunctions =
    (s.functions.map (Prod.map id Binding.function)).foldl (fun t (key, a) => t.insert key a)
      (if s.builtins then .builtins else .empty) := by
  rw [bindFunctions, List.foldl_map]
  rfl

theorem ascending_bindFunctions (s : Setup) : Table.Ascending s.bindFunctions := by
  rw [bindFunctions_eq]
  refine Table.Ascending.foldl_insert ?_ _
  split
  · exact FunctionTable.ascending_builtins
  · exact Table.ascending_nil

theorem get?_bindFunctions (cs : List Choice) (s : Signature) :
    (ofChoices cs).bindFunctions.get? s =
      (cs.reverse.findSome? (·.functionFor? s)).or
        (if cs.any Choice.dropsBuiltins then none else FunctionTable.builtin? s) := by
  have hbuiltins : (ofChoices cs).builtins = !cs.any Choice.dropsBuiltins :=
    builtins_foldl_choose initial cs
  have hentry : (fun c : Choice => (c.function?.map (Prod.map id Binding.function)).bind
      fun (key, a) => if s == key then some a else none) = (·.functionFor? s) := by
    funext c
    cases c <;> simp [Choice.function?, Choice.functionFor?]
  rw [bindFunctions_eq, functions_ofChoices, List.map_filterMap,
    Table.get?_foldl_insert_filterMap, hentry, hbuiltins]
  cases cs.any Choice.dropsBuiltins
  · rw [← FunctionTable.get?_builtins]
    rfl
  · rfl

section

variable {m : Model}

/-- What a resolver is bound to, and how. -/
def roleBinding? (m : Model) (resolver : String × Links) : Option (Signature × Binding) :=
  (m.role? resolver.1).map fun role => (⟨resolver.1, role.arity⟩, .role resolver.2)

theorem bindResolvers_eq_ok {resolvers : List (String × Links)}
    (h : ∀ r ∈ resolvers, (m.role? r.1).isSome) (t : FunctionTable) :
    bindResolvers m t resolvers =
      .ok ((resolvers.filterMap (roleBinding? m)).foldl (fun t (key, a) => t.insert key a) t) := by
  induction resolvers generalizing t with
  | nil => rfl
  | cons r resolvers ih =>
    obtain ⟨hr, hrest⟩ := List.forall_mem_cons.mp h
    obtain ⟨role, hrole⟩ := Option.isSome_iff_exists.mp hr
    have hentry : roleBinding? m r = some (⟨r.1, role.arity⟩, .role r.2) := by
      rw [roleBinding?, hrole]
      rfl
    rw [List.filterMap_cons_some hentry, List.foldl_cons, ← ih hrest, bindResolvers, hrole]

/-- The first resolver without a role is the one that is named. -/
theorem bindResolvers_eq_error {front back : List (String × Links)} {symbol : String}
    {linked : Links} (hfront : ∀ r ∈ front, (m.role? r.1).isSome) (h : m.role? symbol = none)
    (t : FunctionTable) :
    bindResolvers m t (front ++ (symbol, linked) :: back) = .error (.unknownRole symbol) := by
  induction front generalizing t with
  | nil => rw [List.nil_append, bindResolvers, h]
  | cons r front ih =>
    obtain ⟨hr, hfront⟩ := List.forall_mem_cons.mp hfront
    obtain ⟨role, hrole⟩ := Option.isSome_iff_exists.mp hr
    rw [List.cons_append, bindResolvers, hrole]
    exact ih hfront _

theorem isSome_role?_iff {symbol : String} :
    (m.role? symbol).isSome ↔ ∃ r ∈ m.roles, r.symbol = symbol := by
  simp [Model.role?, List.find?_isSome]

theorem isSome_role?_of_unknownRole?_eq_none {cs : List Choice}
    (h : ∀ c ∈ cs, c.unknownRole? m = none) :
    ∀ r ∈ cs.filterMap Choice.resolver?, (m.role? r.1).isSome := by
  intro r hr
  obtain ⟨c, hc, hresolver⟩ := List.mem_filterMap.mp hr
  have hknown := h c hc
  cases c <;> cases hresolver
  rw [isSome_role?_iff]
  simpa [Choice.unknownRole?] using hknown

theorem bind_roleBinding? (hroles : ∀ symbol r, m.role? symbol = some r ↔
      r ∈ m.roles ∧ r.symbol = symbol) (s : Signature) (c : Choice) :
    ((c.resolver?.bind (roleBinding? m)).bind fun (key, a) => if s == key then some a else none) =
      c.roleFor? m s := by
  cases c with
  | resolver symbol linked =>
    have hsame : (∃ r, m.role? symbol = some r ∧ s = ⟨symbol, r.arity⟩) ↔
        symbol = s.name ∧ ⟨s.name, s.arity⟩ ∈ m.roles := by
      simp only [hroles]
      constructor
      · rintro ⟨r, ⟨hr, rfl⟩, rfl⟩
        exact ⟨rfl, hr⟩
      · rintro ⟨rfl, hr⟩
        exact ⟨_, ⟨hr, rfl⟩, rfl⟩
    simp only [Choice.resolver?, Option.bind_some, roleBinding?, Choice.roleFor?, ← hsame]
    cases m.role? symbol <;> simp
  | _ => rfl

/-- The first resolver that has no role ends the binding. -/
theorem bindResolvers_ofChoices_eq_error {cs : List Choice} {symbol : String}
    (h : cs.findSome? (·.unknownRole? m) = some symbol) (t : FunctionTable) :
    bindResolvers m t (ofChoices cs).resolvers = .error (.unknownRole symbol) := by
  obtain ⟨front, c, back, rfl, hc, hfront⟩ := List.findSome?_eq_some_iff.mp h
  obtain ⟨linked, rfl, hnone⟩ : ∃ linked, c = .resolver symbol linked ∧ m.role? symbol = none := by
    cases c with
    | resolver symbol' linked =>
      obtain ⟨hunknown, rfl⟩ : ¬(∃ r ∈ m.roles, r.symbol = symbol') ∧ symbol' = symbol := by
        simpa [Choice.unknownRole?] using hc
      rw [← isSome_role?_iff, Option.not_isSome_iff_eq_none] at hunknown
      exact ⟨linked, rfl, hunknown⟩
    | _ => cases hc
  have hsome := isSome_role?_of_unknownRole?_eq_none hfront
  have hresolver : (Choice.resolver symbol linked).resolver? = some (symbol, linked) := rfl
  rw [resolvers_ofChoices, List.filterMap_append, List.filterMap_cons_some hresolver]
  exact bindResolvers_eq_error hsome hnone t

theorem exists_bindResolvers_ofChoices (hroles : ∀ symbol r, m.role? symbol = some r ↔
      r ∈ m.roles ∧ r.symbol = symbol) {cs : List Choice}
    (h : ∀ c ∈ cs, c.unknownRole? m = none) :
    ∃ t, bindResolvers m (ofChoices cs).bindFunctions (ofChoices cs).resolvers = .ok t ∧
      (∀ s, t.get? s = bindingFor? m cs s) ∧ Table.Ascending t := by
  rw [resolvers_ofChoices, bindResolvers_eq_ok (isSome_role?_of_unknownRole?_eq_none h)]
  refine ⟨_, rfl, fun s => ?_, (ascending_bindFunctions _).foldl_insert _⟩
  rw [List.filterMap_filterMap, Table.get?_foldl_insert_filterMap, get?_bindFunctions]
  simp only [bind_roleBinding? hroles]
  rfl

end

/-- A setup whose model and matcher are in order can fail for its resolvers only. -/
theorem build_eq {setup : Setup} {text : String} {model : Model} {program : Program}
    (hsource : setup.modelSource = .ok text) (hmodel : Model.ofText text = .ok model)
    (hprogram : model.program setup.maxDepth = .ok program) :
    setup.build = (bindResolvers model setup.bindFunctions setup.resolvers).map
      fun functions => ⟨model, program, functions, [], setup.recent.map .empty⟩ := by
  rw [build, hsource, Result.ok_bind, hmodel]
  change ((model.program setup.maxDepth).mapError Error.model >>= fun program => _) = _
  rw [hprogram]
  cases bindResolvers model setup.bindFunctions setup.resolvers <;> rfl

end Setup

/-- Resolvers go before functions and functions before built-in predicates, each by the last choice
of its kind, whatever the order of the choices. Only a resolver for a symbol that is no role is
refused, and of several the first one is named. -/
theorem binding_precedence {cs : List Choice} {text : String} {model : Model} {program : Program}
    (hsource : (Setup.ofChoices cs).modelSource = .ok text)
    (hmodel : Model.ofText text = .ok model)
    (hprogram : model.program (Setup.ofChoices cs).maxDepth = .ok program) :
    (∀ symbol, cs.findSome? (·.unknownRole? model) = some symbol →
      (Setup.ofChoices cs).build = .error (.unknownRole symbol)) ∧
    (cs.findSome? (·.unknownRole? model) = none →
      ∃ m, (Setup.ofChoices cs).build = .ok m ∧
        (∀ s, m.functions.get? s = bindingFor? model cs s) ∧
        m.functions.signatures.Pairwise Signature.Before ∧
        ∀ s, s ∈ m.functions.signatures ↔ (bindingFor? model cs s).isSome) := by
  rw [Setup.build_eq hsource hmodel hprogram]
  constructor
  · intro symbol hunknown
    rw [Setup.bindResolvers_ofChoices_eq_error hunknown]
    rfl
  · intro hknown
    obtain ⟨d, -, hdescribes⟩ := Model.ofText_eq_ok_iff.mp hmodel
    obtain ⟨functions, hfunctions, hget, hascending⟩ := Setup.exists_bindResolvers_ofChoices
      (fun symbol => (hdescribes.declared symbol).2) (List.findSome?_eq_none_iff.mp hknown)
    refine ⟨⟨model, program, functions, [], (Setup.ofChoices cs).recent.map .empty⟩, ?_, hget,
      FunctionTable.signatures_pairwise hascending, fun s => ?_⟩
    · rw [hfunctions]
      rfl
    · rw [FunctionTable.mem_signatures_iff, hget]

/-- Allows what a row of the policy allows to anyone the requester stands for. -/
def deputyText : String :=
  "[request_definition]\nr = sub, obj\n[policy_definition]\np = sub, obj\n" ++
  "[role_definition]\ng = _, _\n[policy_effect]\ne = some(where (p.eft == allow))\n" ++
  "[matchers]\nm = g(r.sub, p.sub) && r.obj == p.obj"

def deputyModel : Model :=
  ⟨⟨"r", ["sub", "obj"]⟩, [⟨"p", ["sub", "obj"]⟩], [⟨"g", 2⟩], ⟨.allowOverride, "p"⟩,
    "g(r.sub, p.sub) && r.obj == p.obj"⟩

/-- Everyone stands for everyone. -/
def anyone : Links := fun _ => true

def refuseAll : HostFunction := fun _ => .ok (.bool false)

/-- The role is taken twice, by a resolver and then by a function. -/
def deputyChoices : List Choice :=
  [.function ⟨"key_match?", 2⟩ refuseAll, .resolver "g" anyone, .modelText deputyText,
    .function ⟨"g", 2⟩ refuseAll, .function ⟨"g", 3⟩ refuseAll]

/-- The resolver keeps the role, and the built-in predicate gives way. -/
theorem binding_precedence_deputy :
    (∃ m, (Setup.ofChoices deputyChoices).build = .ok m ∧
      m.functions.get? ⟨"g", 2⟩ = some (.role anyone) ∧
      m.functions.get? ⟨"g", 3⟩ = some (.function refuseAll) ∧
      m.functions.get? ⟨"key_match?", 2⟩ = some (.function refuseAll) ∧
      m.functions.get? ⟨"glob_match?", 2⟩ = some (.predicate .globMatch)) ∧
    (Setup.ofChoices (deputyChoices ++ [.resolver "h" anyone])).build =
      .error (.unknownRole "h") := by
  have hmodel : Model.ofText deputyText = .ok deputyModel :=
    Result.eq_ok_of_toOption (by decide +kernel)
  have hprogram : deputyModel.program defaultDepth = .ok ⟨deputyModel.matcher,
      [.fetchPath "r" ["sub"], .fetchPath "p" ["sub"], .call "g" 2, .fetchPath "r" ["obj"],
        .fetchPath "p" ["obj"], .binary .eq, .binary .and]⟩ := by with_unfolding_all rfl
  constructor
  · have hbound := @binding_precedence deputyChoices _ _ _ rfl hmodel hprogram
    obtain ⟨m, hbuild, hget, -, -⟩ :=
      hbound.2 (by simp [deputyChoices, deputyModel, Choice.unknownRole?])
    refine ⟨m, hbuild, ?_⟩
    simp only [hget]
    exact ⟨rfl, rfl, rfl, rfl⟩
  · have hsource : (Setup.ofChoices (deputyChoices ++ [.resolver "h" anyone])).modelSource =
        .ok deputyText := rfl
    have hdepth : (Setup.ofChoices (deputyChoices ++ [.resolver "h" anyone])).maxDepth =
        defaultDepth := rfl
    have hbound := binding_precedence hsource hmodel (hdepth ▸ hprogram)
    exact hbound.1 "h" (by simp [deputyChoices, deputyModel, Choice.unknownRole?])

end AccessControl.Monitor
