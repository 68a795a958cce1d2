import AccessControl.Proofs.Matcher.Parsing
import AccessControl.Proofs.Matcher.Placement
import Mathlib.Data.List.Perm.Basic

namespace AccessControl.Matcher

open Lexeme (Kind scan)

/-- Parentheses and commas say how operands are grouped and become no tokens. -/
def Lexeme.Kind.carries : Kind → Bool
  | openParen | closeParen | comma => false
  | _ => true

/-- The kind of lexeme that a token comes from. Between operands too, `+` and `-` are signs. -/
def Token.Kind.origin : Token.Kind → Lexeme.Kind
  | literal l => .literal l
  | name s => .name s
  | dot => .dot
  | unary op => .sign op
  | binary .add => .sign .pos
  | binary .sub => .sign .neg
  | binary op => .operator op
  | call s _ => .callHead s

def Token.origin (t : Token) : Lexeme :=
  ⟨t.kind.origin, t.text, t.position⟩

def Opener.origin : Opener → Lexeme
  | paren p => ⟨.openParen, "(", p⟩
  | call name p _ => ⟨.callHead name, name, p⟩

def Group.origins (g : Group) : List Lexeme :=
  g.opener.origin :: g.waiting.map Token.origin

/-- The lexemes of the tokens put out, of those that wait and of the groups that are open. -/
def Postfix.origins (s : Postfix) : List Lexeme :=
  s.emitted.map Token.origin ++ (s.waiting.map Token.origin ++ s.groups.flatMap Group.origins)

theorem carries_origin (t : Token) : t.origin.kind.carries = true := by
  obtain ⟨kind, text, position⟩ := t
  cases kind with
  | binary op => cases op <;> rfl
  | _ => rfl

/-- How errors cite a lexeme: a call head with its parenthesis or, once the call is complete, with
what stands for its arguments, and any other lexeme by its text. -/
def Lexeme.CitedAs (x : Lexeme) (token : String) : Prop :=
  match x.kind with
  | .callHead name => token = name ++ "(" ∨ token = name ++ "(...)"
  | _ => token = x.text

theorem citedAs_citation (t : Token) : t.origin.CitedAs t.citation := by
  obtain ⟨kind, text, position⟩ := t
  cases kind with
  | binary op => cases op <;> rfl
  | call name arity => exact .inr rfl
  | _ => rfl

section

variable {x : Lexeme} {word : List Char}

theorem text_of_symbol? {text : String} (hx : x.Shows word) (h : x.kind.symbol? = some text) :
    x.text = text := by
  obtain ⟨hspelt, htext⟩ := hx
  rw [htext]
  generalize x.kind = kind at h hspelt
  cases hspelt with
  | symbol hsymbol =>
    cases h.symm.trans hsymbol
    cases kind with
    | callHead name => cases h
    | _ => exact String.ofList_toList
  | number | string | name | callHead => cases h

theorem text_of_callHead {name : String} (hx : x.Shows word) (h : x.kind = .callHead name) :
    x.text = name := by
  rw [hx.text, h]
  rfl

theorem origin_of_binary? {op : BinaryOp} (hx : x.Shows word) (h : x.kind.binary? = some op) :
    Token.Kind.origin (.binary op) = x.kind := by
  obtain ⟨kind, text, position⟩ := x
  cases kind with
  | operator op' =>
    cases h
    obtain ⟨hspelt, -⟩ := hx
    cases hspelt with
    | symbol hsymbol => cases op <;> first | rfl | cases hsymbol
  | sign op' => cases op' <;> cases h <;> rfl
  | _ => cases h

theorem text_of_binary? {op : BinaryOp} (hx : x.Shows word) (h : x.kind.binary? = some op) :
    x.text = op.symbol := by
  have hkind := origin_of_binary? hx h
  apply text_of_symbol? hx
  rw [← hkind]
  cases op <;> rfl

end

/-- What a step does with a lexeme, whichever way it ends. -/
inductive Acts (s : Postfix) (x : Lexeme) : Except SyntaxError Postfix → Prop
  | operand {t} (ht : t.origin = x) : Acts s x (s.operand t)
  | unary {t} (ht : t.origin = x) : Acts s x (.ok (s.unary t))
  | binary {t} (ht : t.origin = x) : Acts s x (s.binary t)
  | openGroup {opener text} (hopener : opener.origin = x) (htext : x.CitedAs text) :
    Acts s x (s.openGroup opener text x.position)
  | closeGroup (hx : x.kind = .closeParen) (htext : x.text = ")") :
    Acts s x (s.closeGroup x.position)
  | comma (hx : x.kind = .comma) (htext : x.text = ",") : Acts s x (s.comma x.position)
  | refuse {op reason} (hx : x.kind = .sign op) :
    Acts s x (.error (.unexpectedToken x.text x.position reason))

theorem step_acts {s : Postfix} {x : Lexeme} {word : List Char} (hx : x.Shows word) :
    Acts s x (s.step x) := by
  have hsymbol {text : String} (hs : x.kind.symbol? = some text) := text_of_symbol? hx hs
  have hbinary {op : BinaryOp} (hop : x.kind.binary? = some op) := origin_of_binary? hx hop
  have hcall {name : String} (hname : x.kind = .callHead name) := text_of_callHead hx hname
  obtain ⟨kind, text, position⟩ := x
  have horigin {tk : Token.Kind} (htk : tk.origin = kind) :
      Token.origin ⟨tk, text, position⟩ = ⟨kind, text, position⟩ := by
    rw [← htk]
    rfl
  cases kind with
  | literal l => exact .operand rfl
  | name name => exact .operand rfl
  | callHead name =>
    obtain rfl : text = name := hcall rfl
    exact @Acts.openGroup s _ (.call text position 0) (text ++ "(") rfl (.inl rfl)
  | openParen =>
    obtain rfl : text = "(" := hsymbol rfl
    exact @Acts.openGroup s _ (.paren position) "(" rfl rfl
  | closeParen => exact .closeGroup rfl (hsymbol rfl)
  | comma => exact .comma rfl (hsymbol rfl)
  | dot => exact .binary rfl
  | operator op => exact .binary (horigin (hbinary rfl))
  | sign op =>
    simp only [Postfix.step]
    by_cases hs : s.awaiting = .operator
    · rw [if_neg (by simp [hs])]
      cases hop : op.binary? with
      | none => exact .refuse rfl
      | some op' => exact .binary (horigin (hbinary hop))
    · rw [if_pos (by simpa using hs)]
      exact .unary rfl

/-- After a step the lexeme is at hand with those from before, but for what has done its work. -/
def Retains (s : Postfix) (x : Lexeme) (s' : Postfix) : Prop :=
  ∃ done : List Lexeme, (∀ y ∈ done, y.kind.carries = false) ∧
    (s'.origins ++ done).Perm (x :: s.origins)

section

variable {s s' : Postfix} {x : Lexeme} {t : Token} {p : Text.Position}

theorem retains_of_perm (h : s'.origins.Perm (x :: s.origins)) : Retains s x s' :=
  ⟨[], fun _ hy => (nomatch hy), by rwa [List.append_nil]⟩

theorem retains_of_done {done : List Lexeme} (hx : x.kind.carries = false)
    (hdone : ∀ y ∈ done, y.kind.carries = false) (h : (s'.origins ++ done).Perm s.origins) :
    Retains s x s' :=
  ⟨x :: done, List.forall_mem_cons.mpr ⟨hx, hdone⟩, List.perm_middle.trans (h.cons x)⟩

theorem retains_of_done_nil (hx : x.kind.carries = false) (h : s'.origins.Perm s.origins) :
    Retains s x s' :=
  @retains_of_done s s' x [] hx (fun _ hy => nomatch hy) (by rwa [List.append_nil])

/-- Operators that have waited are put out. -/
theorem perm_flush (held emitted rest : List Lexeme) :
    (held.reverse ++ emitted ++ rest).Perm (emitted ++ (held ++ rest)) := by
  have hmoved := ((List.reverse_perm held).append_right emitted).trans List.perm_append_comm
  have hrest := hmoved.append_right rest
  rwa [List.append_assoc emitted] at hrest

/-- Behind them goes what has stood outside. -/
theorem perm_flush_cons (y : Lexeme) (held emitted rest : List Lexeme) :
    (y :: (held.reverse ++ emitted ++ rest)).Perm (emitted ++ (held ++ y :: rest)) := by
  have hmiddle := @List.perm_middle Lexeme y (emitted ++ held) rest
  rw [List.append_assoc, List.append_assoc] at hmiddle
  exact ((perm_flush held emitted rest).cons y).trans hmiddle.symm

theorem operand_retains (ht : t.origin = x) (h : s.operand t = .ok s') : Retains s x s' := by
  unfold Postfix.operand at h
  split at h
  · cases h
  · cases h
    subst ht
    exact retains_of_perm (List.Perm.refl _)

theorem unary_retains (ht : t.origin = x) : Retains s x (s.unary t) := by
  subst ht
  exact retains_of_perm List.perm_middle

theorem binary_retains (ht : t.origin = x) (h : s.binary t = .ok s') : Retains s x s' := by
  unfold Postfix.binary at h
  split at h
  · cases h
    subst ht
    let yields (u : Token) : Bool := decide (t.kind.precedence ≤ u.kind.precedence)
    have hwaiting : s.waiting.takeWhile yields ++ s.waiting.dropWhile yields = s.waiting :=
      List.takeWhile_append_dropWhile
    have hflush := perm_flush ((s.waiting.takeWhile yields).map Token.origin)
      (s.emitted.map Token.origin)
      ((s.waiting.dropWhile yields).map Token.origin ++ s.groups.flatMap Group.origins)
    rw [← List.append_assoc (List.map _ _) (List.map _ _) (List.flatMap _ _), ← List.map_append,
      hwaiting, ← List.map_reverse, ← List.map_append] at hflush
    exact retains_of_perm (List.perm_middle.trans (hflush.cons _))
  · cases h

theorem openGroup_retains {opener : Opener} {text : String} (hx : opener.origin = x)
    (h : s.openGroup opener text p = .ok s') : Retains s x s' := by
  unfold Postfix.openGroup at h
  split at h
  · cases h
  · cases h
    subst hx
    exact retains_of_perm List.perm_middle

theorem closeGroup_retains (hx : x.kind.carries = false) (h : s.closeGroup p = .ok s') :
    Retains s x s' := by
  obtain ⟨emitted, waiting, groups, awaiting⟩ := s
  rcases groups with _ | ⟨⟨opener, waiting'⟩, groups⟩
  · cases awaiting <;> cases h
  have hflush := perm_flush_cons opener.origin (waiting.map Token.origin)
    (emitted.map Token.origin) (waiting'.map Token.origin ++ groups.flatMap Group.origins)
  rw [← List.map_reverse, ← List.map_append] at hflush
  cases opener with
  | paren q =>
    cases awaiting with
    | operand | operandOrClose => cases h
    | operator =>
      cases h
      have hopener : ∀ y ∈ [(Opener.paren q).origin], y.kind.carries = false :=
        List.forall_mem_singleton.mpr rfl
      exact retains_of_done hx hopener ((List.perm_append_singleton _ _).trans hflush)
  | call name q commas =>
    cases awaiting with
    | operand => cases h
    | operandOrClose | operator =>
      cases h
      exact retains_of_done_nil hx hflush

theorem comma_retains (hx : x.kind.carries = false) (h : s.comma p = .ok s') : Retains s x s' := by
  obtain ⟨emitted, waiting, groups, awaiting⟩ := s
  cases awaiting with
  | operand | operandOrClose => cases h
  | operator =>
    rcases groups with _ | ⟨⟨_ | ⟨name, q, commas⟩, waiting'⟩, groups⟩
    · cases h
    · cases h
    · cases h
      have hflush := perm_flush (waiting.map Token.origin) (emitted.map Token.origin)
        ((⟨.call name q commas, waiting'⟩ :: groups).flatMap Group.origins)
      rw [← List.map_reverse, ← List.map_append] at hflush
      exact retains_of_done_nil hx hflush

theorem step_retains {word : List Char} (hx : x.Shows word) (h : s.step x = .ok s') :
    Retains s x s' := by
  have hacts := @step_acts s x word hx
  rw [h] at hacts
  generalize hresult : Except.ok s' = result at hacts
  cases hacts with
  | operand ht => exact operand_retains ht hresult.symm
  | unary ht =>
    cases hresult
    exact unary_retains ht
  | binary ht => exact binary_retains ht hresult.symm
  | openGroup hopener => exact openGroup_retains hopener hresult.symm
  | closeGroup hx => exact closeGroup_retains (by rw [hx]; rfl) hresult.symm
  | comma hx => exact comma_retains (by rw [hx]; rfl) hresult.symm
  | refuse => cases hresult

/-- The lexemes of a whole run are at hand after it, but for parentheses and commas. -/
theorem run_retains {xs : List Lexeme} (hxs : ∀ x ∈ xs, ∃ word, x.Shows word)
    (h : xs.foldlM Postfix.step s = .ok s') : ∃ done : List Lexeme,
      (∀ y ∈ done, y.kind.carries = false) ∧ (s'.origins ++ done).Perm (xs ++ s.origins) := by
  induction xs generalizing s with
  | nil =>
    cases h
    exact ⟨[], fun _ hy => (nomatch hy), by simp⟩
  | cons x xs ih =>
    obtain ⟨⟨word, hx⟩, hxs⟩ := List.forall_mem_cons.mp hxs
    rw [List.foldlM_cons] at h
    obtain ⟨s₁, hstep, h⟩ := Result.bind_eq_ok_iff.mp h
    obtain ⟨done₁, hdone₁, hperm₁⟩ := step_retains hx hstep
    obtain ⟨done, hdone, hperm⟩ := ih hxs h
    refine ⟨done ++ done₁, List.forall_mem_append.mpr ⟨hdone, hdone₁⟩, ?_⟩
    have hboth := (hperm.append_right done₁).trans
      (.trans (.of_eq (List.append_assoc ..)) (hperm₁.append_left xs))
    rw [List.append_assoc] at hboth
    exact hboth.trans List.perm_middle

end

/-- At the end nothing is at hand but tokens. -/
theorem origins_of_finish {s : Postfix} {ts : List Token} (h : s.finish = .ok ts) :
    s.origins.Perm (ts.map Token.origin) := by
  obtain ⟨emitted, waiting, groups, awaiting⟩ := s
  rcases groups with _ | ⟨⟨_ | _, _⟩, _⟩
  · cases h
    simp only [Postfix.origins, List.flatMap_nil, List.append_nil, List.reverse_append,
      List.reverse_reverse, List.map_append, List.map_reverse]
    exact (List.reverse_perm _).symm.append_right _
  · cases h
  · cases h

/-- The tokens of a source come from its lexemes, each of these being the origin of one. -/
theorem ofSource_origins {source : String} {ts : List Token} (h : Token.ofSource source = .ok ts) :
    ∃ xs, scan .start source.toList = (xs, none) ∧
      (ts.map Token.origin).Perm (xs.filter fun x => x.kind.carries) := by
  obtain ⟨xs, s, hscan, hrun, hfinish⟩ := ofSource_eq_ok_iff.mp h
  obtain ⟨_, _, -, hplaces, -⟩ := places_of_scan hscan
  obtain ⟨done, hdone, hperm⟩ := run_retains (shows_of_places hplaces) hrun
  have htokens : (ts.map Token.origin).filter (fun x => x.kind.carries) = ts.map Token.origin := by
    rw [List.filter_eq_self]
    intro x hx
    obtain ⟨t, -, rfl⟩ := List.mem_map.mp hx
    exact carries_origin t
  have hnone : done.filter (fun x => x.kind.carries) = [] := by
    rw [List.filter_eq_nil_iff]
    intro y hy
    simp [hdone y hy]
  have hfilter := ((((origins_of_finish hfinish).symm.append_right done).trans hperm).filter
    fun x => x.kind.carries)
  rw [List.filter_append, htokens, hnone, List.append_nil] at hfilter
  exact ⟨xs, hscan, hfilter.trans (.of_eq (congrArg _ (List.append_nil xs)))⟩

end AccessControl.Matcher
