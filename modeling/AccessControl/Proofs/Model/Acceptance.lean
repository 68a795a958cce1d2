import AccessControl.Proofs.Config.RoundTrip
import AccessControl.Proofs.Monitor.Memory
import AccessControl.Proofs.Monitor.Reachable
import AccessControl.Proofs.Policy.Clause
import AccessControl.Proofs.Sequence
import AccessControl.Proofs.Text.Enumeration

namespace AccessControl.Model

open Config Policy Text

/-- The entry has the symbol of the schema for its key and lists the attributes of the schema. -/
structure DeclaresSchema (entry : String × String) (s : Schema) : Prop where
  symbol : entry.1 = s.symbol
  attrs : Enumerates entry.2.toList s.attrs
  identifiers : ∀ attr ∈ s.attrs, isSymbol attr.toList
  distinct : s.attrs.Nodup

/-- The entry has the symbol of the role for its key and lists an underscore for each name. -/
structure DeclaresRole (entry : String × String) (r : Role) : Prop where
  symbol : entry.1 = r.symbol
  places : Enumerates entry.2.toList (List.replicate r.arity "_")
  arity : 2 ≤ r.arity

theorem attributeFault?_eq_none_iff {seen attrs : List String} :
    attributeFault? seen attrs = none ↔
      (∀ attr ∈ attrs, isSymbol attr.toList) ∧ Fresh seen attrs := by
  induction attrs generalizing seen with
  | nil => simp [attributeFault?]
  | cons attr attrs ih =>
    rw [attributeFault?, List.forall_mem_cons, fresh_cons]
    by_cases hsymbol : isSymbol attr.toList
    · by_cases hseen : attr ∈ seen
      · simp [hsymbol, hseen]
      · simp [hsymbol, hseen, ih]
    · simp [hsymbol]

theorem checkSymbol_eq_ok_iff {taken : List String} {name symbol : String} :
    checkSymbol taken name symbol = .ok () ↔ isSymbol symbol.toList ∧ symbol ∉ taken := by
  rw [checkSymbol]
  by_cases hsymbol : isSymbol symbol.toList
  · by_cases htaken : symbol ∈ taken <;> simp [hsymbol, htaken]
  · simp [hsymbol]

section

variable {taken : List String} {entry : String × String} (hkey : isSymbol entry.1.toList)
include hkey

theorem schemaOf_eq_ok_iff {name : String} {s : Schema} :
    schemaOf taken name entry = .ok s ↔ entry.1 ∉ taken ∧ DeclaresSchema entry s := by
  rw [schemaOf, Result.bind_eq_ok_iff]
  constructor
  · rintro ⟨_, hcheck, h⟩
    split at h
    · cases h
    · next hfault =>
      cases h
      obtain ⟨hsymbols, hfresh⟩ := attributeFault?_eq_none_iff.mp hfault
      exact ⟨(checkSymbol_eq_ok_iff.mp hcheck).2, rfl, (enumerates_iff hsymbols).mpr rfl, hsymbols,
        fresh_iff_nodup.mp hfresh⟩
  · rintro ⟨htaken, hs⟩
    have hparts : parts entry.2 = s.attrs := (enumerates_iff hs.identifiers).mp hs.attrs
    have hfault : attributeFault? [] s.attrs = none :=
      attributeFault?_eq_none_iff.mpr ⟨hs.identifiers, fresh_iff_nodup.mpr hs.distinct⟩
    refine ⟨(), checkSymbol_eq_ok_iff.mpr ⟨hkey, htaken⟩, ?_⟩
    rw [hparts, hs.symbol, hfault]
    rfl

theorem roleOf_eq_ok_iff {r : Role} :
    roleOf taken entry = .ok r ↔ entry.1 ∉ taken ∧ DeclaresRole entry r := by
  have hsymbols (n : Nat) : ∀ place ∈ List.replicate n "_", isSymbol place.toList := by
    intro place hplace
    rw [List.eq_of_mem_replicate hplace]
    decide
  rw [roleOf, Result.bind_eq_ok_iff]
  constructor
  · rintro ⟨_, hcheck, h⟩
    by_cases hany : (parts entry.2).any (· != "_")
    · simp [hany] at h
    by_cases hlength : (parts entry.2).length < 2
    · simp [hany, hlength] at h
    simp only [hany, hlength, if_false, Bool.false_eq_true] at h
    cases h
    have hplaces : parts entry.2 = List.replicate (parts entry.2).length "_" :=
      List.eq_replicate_of_mem (by simpa using hany)
    exact ⟨(checkSymbol_eq_ok_iff.mp hcheck).2, rfl, (enumerates_iff (hsymbols _)).mpr hplaces,
      Nat.le_of_not_lt hlength⟩
  · rintro ⟨htaken, hr⟩
    have hparts : parts entry.2 = List.replicate r.arity "_" :=
      (enumerates_iff (hsymbols _)).mp hr.places
    have hlength : ¬r.arity < 2 := Nat.not_lt_of_le hr.arity
    refine ⟨(), checkSymbol_eq_ok_iff.mpr ⟨hkey, htaken⟩, ?_⟩
    simp [hparts, hr.symbol, hlength]

end

/-- Definitions are declared one by one, each with a symbol that is new. -/
theorem definitions_eq_ok_iff {α : Type} {symbol : α → String}
    {Declares : String × String → α → Prop}
    (read : List String → String × String → Except Error α)
    (readAll : List String → List (String × String) → Except Error (List α))
    (hsymbol : ∀ entry a, Declares entry a → entry.1 = symbol a)
    (hread : ∀ taken entry a, isSymbol entry.1.toList →
      (read taken entry = .ok a ↔ entry.1 ∉ taken ∧ Declares entry a))
    (hnil : ∀ taken, readAll taken [] = .ok [])
    (hcons : ∀ taken entry all, readAll taken (entry :: all) = do
      let a ← read taken entry
      return a :: (← readAll (symbol a :: taken) all))
    {taken : List String} {all : List (String × String)} {as : List α}
    (hkeys : ∀ entry ∈ all, isSymbol entry.1.toList) :
    readAll taken all = .ok as ↔ Fresh taken (as.map symbol) ∧ List.Forall₂ Declares all as := by
  -- by induction on the entries, each of which adds its symbol to those that are taken
  induction all generalizing taken as with
  | nil =>
    rw [hnil, List.forall₂_nil_left_iff]
    constructor
    · intro h
      cases h
      exact ⟨fresh_nil taken, rfl⟩
    · rintro ⟨-, rfl⟩
      rfl
  | cons entry all ih =>
    obtain ⟨hkey, hkeys⟩ := List.forall_mem_cons.mp hkeys
    rw [hcons, Result.bind_eq_ok_iff]
    constructor
    · rintro ⟨a, ha, h⟩
      obtain ⟨as', has, h⟩ := Result.bind_eq_ok_iff.mp h
      cases h
      obtain ⟨htaken, hdeclares⟩ := (hread taken entry a hkey).mp ha
      obtain ⟨hfresh, hall⟩ := (ih hkeys).mp has
      rw [hsymbol entry a hdeclares] at htaken
      exact ⟨fresh_cons.mpr ⟨htaken, hfresh⟩, .cons hdeclares hall⟩
    · rintro ⟨hfresh, hall⟩
      cases hall with
      | @cons _ a _ as hdeclares hall =>
        obtain ⟨htaken, hfresh⟩ := fresh_cons.mp hfresh
        rw [← hsymbol entry a hdeclares] at htaken
        have has := (ih hkeys).mpr ⟨hfresh, hall⟩
        refine ⟨a, (hread taken entry a hkey).mpr ⟨htaken, hdeclares⟩, ?_⟩
        rw [has]
        rfl

section

variable {taken : List String} {all : List (String × String)}
  (hkeys : ∀ entry ∈ all, isSymbol entry.1.toList)
include hkeys

theorem schemasOf_eq_ok_iff {ss : List Schema} : schemasOf taken all = .ok ss ↔
    Fresh taken (ss.map (·.symbol)) ∧ List.Forall₂ DeclaresSchema all ss :=
  definitions_eq_ok_iff (schemaOf · policySection) schemasOf (fun _ _ h => h.symbol)
    (fun _ _ _ hkey => schemaOf_eq_ok_iff hkey) (fun _ => rfl) (fun _ _ _ => rfl) hkeys

theorem rolesOf_eq_ok_iff {rs : List Role} : rolesOf taken all = .ok rs ↔
    Fresh taken (rs.map (·.symbol)) ∧ List.Forall₂ DeclaresRole all rs :=
  definitions_eq_ok_iff roleOf rolesOf (fun _ _ h => h.symbol)
    (fun _ _ _ hkey => roleOf_eq_ok_iff hkey) (fun _ => rfl) (fun _ _ _ => rfl) hkeys

end

/-- The document has for each part of the model a section that declares it, and no two of the
symbols are the same. Only the section of the roles may be missing. -/
structure Describes (d : Document) (m : Model) : Prop where
  request : ∃ entry, ⟨requestSection, [entry]⟩ ∈ d.sections ∧ DeclaresSchema entry m.request
  policies : ∃ all, ⟨policySection, all⟩ ∈ d.sections ∧
    List.Forall₂ DeclaresSchema all m.policies
  roles : (∃ all, ⟨roleSection, all⟩ ∈ d.sections ∧ List.Forall₂ DeclaresRole all m.roles) ∨
    ((∀ s ∈ d.sections, s.name ≠ roleSection) ∧ m.roles = [])
  distinct : (m.request.symbol ::
    (m.policies.map (·.symbol) ++ m.roles.map (·.symbol))).Nodup
  clause : ∃ key value, ⟨clauseSection, [(key, value)]⟩ ∈ d.sections ∧
    value.toList.filter (fun c => !isBlank c) = m.clause.text.toList ∧
    ∃ s ∈ m.policies, s.symbol = m.clause.policy
  matcher : ∃ key, ⟨matcherSection, [(key, m.matcher)]⟩ ∈ d.sections

section

variable {d : Document} (h : d.WellFormed)
include h

theorem section?_eq_some_iff {name : String} {s : Section} :
    d.section? name = some s ↔ s ∈ d.sections ∧ s.name = name :=
  Sequence.find?_eq_some_iff_of_nodup h.consistent.names

theorem entries_eq_ok_iff_mem {name : String} {all : List (String × String)} :
    entries d name = .ok all ↔ ⟨name, all⟩ ∈ d.sections := by
  have hsection : (∃ s, d.section? name = some s ∧ s.entries = all) ↔
      ⟨name, all⟩ ∈ d.sections := by
    simp only [section?_eq_some_iff h]
    constructor
    · rintro ⟨s, ⟨hs, rfl⟩, rfl⟩
      exact hs
    · exact fun hs => ⟨_, ⟨hs, rfl⟩, rfl⟩
  rw [← hsection, entries]
  cases d.section? name <;> simp

theorem soleEntry_eq_ok_iff_mem {name : String} {entry : String × String} :
    soleEntry d name = .ok entry ↔ ⟨name, [entry]⟩ ∈ d.sections := by
  rw [← entries_eq_ok_iff_mem h, soleEntry_eq_ok_iff, entries]
  cases d.section? name <;> simp

/-- The keys of a document are symbols, and so are the policies declared there. -/
theorem isSymbol_of_declares {name : String} {all : List (String × String)} {ss : List Schema}
    (hall : ⟨name, all⟩ ∈ d.sections) (hss : List.Forall₂ DeclaresSchema all ss) :
    ∀ s ∈ ss, isSymbol s.symbol.toList := by
  have hkeys := h.keys _ hall
  clear hall
  induction hss with
  | nil => simp
  | cons hs _ ih =>
    obtain ⟨hkey, hkeys⟩ := List.forall_mem_cons.mp hkeys
    rw [hs.symbol] at hkey
    exact List.forall_mem_cons.mpr ⟨hkey, ih hkeys⟩

theorem request_declared_iff {s : Schema} :
    (∃ entry, soleEntry d requestSection = .ok entry ∧
      schemaOf [] requestSection entry = .ok s) ↔
    ∃ entry, ⟨requestSection, [entry]⟩ ∈ d.sections ∧ DeclaresSchema entry s := by
  refine exists_congr fun entry => ?_
  rw [soleEntry_eq_ok_iff_mem h]
  refine and_congr_right fun hentry => ?_
  have hkey := h.keys _ hentry entry List.mem_cons_self
  rw [schemaOf_eq_ok_iff hkey]
  exact and_iff_right (List.not_mem_nil)

theorem policies_declared_iff {taken : List String} {ss : List Schema} :
    (∃ all, entries d policySection = .ok all ∧ schemasOf taken all = .ok ss) ↔
    Fresh taken (ss.map (·.symbol)) ∧
      ∃ all, ⟨policySection, all⟩ ∈ d.sections ∧ List.Forall₂ DeclaresSchema all ss := by
  rw [← exists_and_left]
  refine exists_congr fun all => ?_
  rw [entries_eq_ok_iff_mem h, and_left_comm]
  exact and_congr_right fun hall => schemasOf_eq_ok_iff (h.keys _ hall)

theorem roles_declared_iff {taken : List String} {rs : List Role} :
    rolesOf taken (((d.section? roleSection).map (·.entries)).getD []) = .ok rs ↔
    Fresh taken (rs.map (·.symbol)) ∧
      ((∃ all, ⟨roleSection, all⟩ ∈ d.sections ∧ List.Forall₂ DeclaresRole all rs) ∨
        ((∀ s ∈ d.sections, s.name ≠ roleSection) ∧ rs = [])) := by
  cases hsection : d.section? roleSection with
  | none =>
    have hnone : ∀ s ∈ d.sections, s.name ≠ roleSection := by
      simpa [Document.section?] using hsection
    constructor
    · intro hroles
      cases hroles
      exact ⟨fresh_nil taken, .inr ⟨hnone, rfl⟩⟩
    · rintro ⟨-, ⟨all, hall, -⟩ | ⟨-, rfl⟩⟩
      · exact absurd rfl (hnone _ hall)
      · rfl
  | some s =>
    obtain ⟨hs, hname⟩ := (section?_eq_some_iff h).mp hsection
    rw [Option.map_some, Option.getD_some, rolesOf_eq_ok_iff (h.keys s hs)]
    refine and_congr_right fun _ => ⟨fun hroles => .inl ⟨s.entries, ?_, hroles⟩, ?_⟩
    · rwa [← hname]
    · rintro (⟨all, hall, hroles⟩ | ⟨hnone, -⟩)
      · cases hsection.symm.trans ((section?_eq_some_iff h).mpr ⟨hall, rfl⟩)
        exact hroles
      · exact absurd hname (hnone s hs)

theorem clause_declared_iff {ss : List Schema} {c : Clause}
    (hss : ∀ s ∈ ss, isSymbol s.symbol.toList) :
    (∃ entry, soleEntry d clauseSection = .ok entry ∧ clauseOf ss entry = .ok c) ↔
    ∃ key value, ⟨clauseSection, [(key, value)]⟩ ∈ d.sections ∧
      value.toList.filter (fun c => !isBlank c) = c.text.toList ∧
      ∃ s ∈ ss, s.symbol = c.policy := by
  simp only [Prod.exists, soleEntry_eq_ok_iff_mem h, clauseOf_eq_ok_iff, Clause.parse?_eq_some_iff]
  refine exists₂_congr fun key value => and_congr_right fun _ => ?_
  constructor
  · exact fun ⟨⟨htext, _⟩, hdeclared⟩ => ⟨htext, hdeclared⟩
  · -- that the policy is a symbol need not be asked of the value, since it is a declared one
    rintro ⟨htext, s, hs, hsymbol⟩
    have hpolicy := hss s hs
    rw [hsymbol] at hpolicy
    exact ⟨⟨htext, hpolicy⟩, s, hs, hsymbol⟩

omit h in
theorem fresh_iff_distinct {symbol : String} {policies roles : List String} :
    Fresh [symbol] policies ∧ Fresh (symbol :: policies) roles ↔
      (symbol :: (policies ++ roles)).Nodup := by
  simp only [Fresh, List.nodup_cons, List.nodup_append, List.mem_append, List.mem_cons]
  grind

theorem ofDocument_iff_describes {m : Model} : ofDocument d = .ok m ↔ Describes d m := by
  rw [ofDocument_eq_ok_iff, request_declared_iff h, policies_declared_iff h, roles_declared_iff h]
  constructor
  · rintro ⟨hrequest, ⟨hfresh, all, hall, hpolicies⟩, ⟨hfresh', hroles⟩, hclause, key, hmatcher⟩
    exact ⟨hrequest, ⟨all, hall, hpolicies⟩, hroles, fresh_iff_distinct.mp ⟨hfresh, hfresh'⟩,
      (clause_declared_iff h (isSymbol_of_declares h hall hpolicies)).mp hclause,
      key, (soleEntry_eq_ok_iff_mem h).mp hmatcher⟩
  · rintro ⟨hrequest, ⟨all, hall, hpolicies⟩, hroles, hdistinct, hclause, key, hmatcher⟩
    obtain ⟨hfresh, hfresh'⟩ := fresh_iff_distinct.mpr hdistinct
    exact ⟨hrequest, ⟨hfresh, all, hall, hpolicies⟩, ⟨hfresh', hroles⟩,
      (clause_declared_iff h (isSymbol_of_declares h hall hpolicies)).mpr hclause,
      key, (soleEntry_eq_ok_iff_mem h).mpr hmatcher⟩

end

/-- The sections that declare the parts of a model. -/
def partSections : List String :=
  [requestSection, policySection, roleSection, clauseSection, matcherSection]

/-- Neither the order of the sections nor those of other names make a difference. -/
theorem ofDocument_congr {d d' : Document} (h : d.WellFormed) (h' : d'.WellFormed)
    (hsame : ∀ s : Section, s.name ∈ partSections → (s ∈ d.sections ↔ s ∈ d'.sections)) :
    ofDocument d = ofDocument d' := by
  have hsection {name : String} (hname : name ∈ partSections) :
      d.section? name = d'.section? name := by
    refine Option.ext fun s => ?_
    rw [section?_eq_some_iff h, section?_eq_some_iff h']
    refine and_congr_left fun hs => hsame s ?_
    rwa [hs]
  have hrequest := soleEntry_congr (hsection (by decide : requestSection ∈ partSections))
  have hpolicies := entries_congr (hsection (by decide : policySection ∈ partSections))
  have hroles := hsection (by decide : roleSection ∈ partSections)
  have hclause := soleEntry_congr (hsection (by decide : clauseSection ∈ partSections))
  have hmatcher := soleEntry_congr (hsection (by decide : matcherSection ∈ partSections))
  rw [ofDocument, ofDocument, hrequest, hpolicies, hroles, hclause, hmatcher]

theorem ofText_eq_ok_iff {text : String} {m : Model} :
    ofText text = .ok m ↔ ∃ d, Document.parse text = .ok d ∧ Describes d m := by
  rw [ofText, Result.bind_eq_ok_iff]
  refine exists_congr fun d => ?_
  rw [Result.mapError_eq_ok_iff]
  exact and_congr_right fun hd => ofDocument_iff_describes (wellFormed_of_parse hd)

/-- A symbol has at most one meaning. -/
theorem Describes.declared {d : Document} {m : Model} (h : Describes d m) (symbol : String) :
    (∀ s, m.policy? symbol = some s ↔ s ∈ m.policies ∧ s.symbol = symbol) ∧
    ∀ r, m.role? symbol = some r ↔ r ∈ m.roles ∧ r.symbol = symbol := by
  have hdistinct := List.nodup_append.mp (List.nodup_cons.mp h.distinct).2
  exact ⟨fun s => Sequence.find?_eq_some_iff_of_nodup hdistinct.1,
    fun r => Sequence.find?_eq_some_iff_of_nodup hdistinct.2.1⟩

/-- The texts of models, exactly: those that are configurations and declare all parts of the model.
Nothing else in a text counts, all symbols of the model are unambiguous, and no request to a monitor
built from the text, whatever has been done to it, misses the policy that decides. -/
theorem acceptance_exact (text : String) :
    (∀ m, ofText text = .ok m ↔ ∃ d, Document.parse text = .ok d ∧ Describes d m) ∧
    (∀ text' d d', Document.parse text = .ok d → Document.parse text' = .ok d' →
      (∀ s : Section, s.name ∈ partSections → (s ∈ d.sections ↔ s ∈ d'.sections)) →
      ofText text = ofText text') ∧
    (∀ m, ofText text = .ok m → ∀ symbol,
      (∀ s, m.policy? symbol = some s ↔ s ∈ m.policies ∧ s.symbol = symbol) ∧
      ∀ r, m.role? symbol = some r ↔ r ∈ m.roles ∧ r.symbol = symbol) ∧
    ∀ (setup : Monitor.Setup) built ops request symbol,
      setup.modelSource = .ok text → setup.build = .ok built →
      (built.afterAll ops).reply (.decide request) ≠ .error (.unknownPolicy symbol) ∧
      (built.afterAll ops).reply (.explain request) ≠ .error (.unknownPolicy symbol) := by
  refine ⟨fun _ => ofText_eq_ok_iff, fun text' d d' hd hd' hsame => ?_, fun m hm => ?_,
    fun setup built ops request symbol _ hbuilt => ?_⟩
  · rw [ofText, ofText, hd, hd']
    exact ofDocument_congr (wellFormed_of_parse hd) (wellFormed_of_parse hd') hsame
  · obtain ⟨d, -, hdescribes⟩ := ofText_eq_ok_iff.mp hm
    exact hdescribes.declared
  · have hreachable := Monitor.reachable_afterAll (.built hbuilt) ops
    have hother {e : Monitor.Error}
        (h : ((built.afterAll ops).decideAnew request).result = .error e) :
        e ≠ .unknownPolicy symbol := by
      rintro rfl
      rcases hreachable.error_of_decideAnew h with ⟨_, _, h⟩ | ⟨_, h⟩ <;> cases h
    exact ⟨fun h => hother (Monitor.decideAnew_fails_of_decide h) rfl,
      fun h => hother (Monitor.decideAnew_fails_of_explain h) rfl⟩

/-- The sections stand in another order than usual, with one among them that models know nothing
of, and without one for roles. -/
example : (ofText ("[matchers]\nm = r.sub == p.sub\n[extra]\nx = 1\n[policy_effect]\n" ++
    "e = some(where (p.eft == allow))\n[policy_definition]\np = sub , eft\n" ++
    "[request_definition]\nr = sub")).toOption = some ⟨⟨"r", ["sub"]⟩, [⟨"p", ["sub", "eft"]⟩], [],
      ⟨.allowOverride, "p"⟩, "r.sub == p.sub"⟩ := by
  decide +kernel

end AccessControl.Model
