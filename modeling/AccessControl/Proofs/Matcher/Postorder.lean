import AccessControl.Matcher.Expr
import AccessControl.Proofs.Result

namespace AccessControl.Matcher.Expr

mutual

/-- An attribute access counts as one node, however long its path is. -/
def height : Expr → Nat
  | .literal _ => 1
  | .var _ => 1
  | .attr _ _ => 1
  | .unary _ e => e.height + 1
  | .binary _ a b => max a.height b.height + 1
  | .call _ args => heightAll args + 1

def heightAll : List Expr → Nat
  | [] => 0
  | e :: es => max e.height (heightAll es)

end

mutual

/-- The kinds of its tokens. -/
def postorder : Expr → List Token.Kind
  | .literal l => [.literal l]
  | .var name => [.name name]
  | .attr key path => .name key :: path.flatMap fun attr => [.name attr, .dot]
  | .unary op e => e.postorder ++ [.unary op]
  | .binary op a b => a.postorder ++ b.postorder ++ [.binary op]
  | .call name args => postorderAll args ++ [.call name args.length]

def postorderAll : List Expr → List Token.Kind
  | [] => []
  | e :: es => e.postorder ++ postorderAll es

end

mutual

/-- No access is without an attribute. -/
def Proper : Expr → Prop
  | .literal _ => True
  | .var _ => True
  | .attr _ path => path ≠ []
  | .unary _ e => e.Proper
  | .binary _ a b => a.Proper ∧ b.Proper
  | .call _ args => ProperAll args

def ProperAll : List Expr → Prop
  | [] => True
  | e :: es => e.Proper ∧ ProperAll es

end

theorem properAll_iff {es : List Expr} : ProperAll es ↔ ∀ e ∈ es, e.Proper := by
  induction es with
  | nil => simp [ProperAll]
  | cons e es ih => rw [ProperAll, ih, List.forall_mem_cons]

theorem postorderAll_append (es es' : List Expr) :
    postorderAll (es ++ es') = postorderAll es ++ postorderAll es' := by
  induction es with
  | nil => rfl
  | cons e es ih => rw [List.cons_append, postorderAll, postorderAll, ih, List.append_assoc]

theorem access_eq_ok_iff {owner attr e : Expr} : access owner attr = .ok e ↔
    ∃ a, attr = .var a ∧ ((∃ key, owner = .var key ∧ e = .attr key [a]) ∨
      ∃ key path, owner = .attr key path ∧ e = .attr key (path ++ [a])) := by
  constructor
  · intro h
    unfold access at h
    split at h
    · next key a =>
      cases h
      exact ⟨a, rfl, .inl ⟨key, rfl, rfl⟩⟩
    · next key path a =>
      cases h
      exact ⟨a, rfl, .inr ⟨key, path, rfl, rfl⟩⟩
    · cases h
    · cases h
  · rintro ⟨a, rfl, ⟨key, rfl, rfl⟩ | ⟨key, path, rfl, rfl⟩⟩ <;> rfl

theorem postorder_access {owner attr e : Expr} (h : access owner attr = .ok e) :
    e.postorder = owner.postorder ++ attr.postorder ++ [.dot] := by
  obtain ⟨a, rfl, ⟨key, rfl, rfl⟩ | ⟨key, path, rfl, rfl⟩⟩ := access_eq_ok_iff.mp h
  · simp [postorder]
  · simp [postorder]

theorem height_access {owner attr e : Expr} (h : access owner attr = .ok e) : e.height = 1 := by
  obtain ⟨a, rfl, ⟨key, rfl, rfl⟩ | ⟨key, path, rfl, rfl⟩⟩ := access_eq_ok_iff.mp h <;> rfl

/-- A token takes its operands from a stack, the last from its top, and makes `e` of them; the rest
of the stack stays as it is. -/
inductive Takes : Token.Kind → List Expr → Expr → List Expr → Prop
  | literal {l stack} : Takes (.literal l) stack (.literal l) stack
  | name {name stack} : Takes (.name name) stack (.var name) stack
  | dot {a b e stack} (h : access a b = .ok e) : Takes .dot (b :: a :: stack) e stack
  | unary {op a stack} : Takes (.unary op) (a :: stack) (.unary op a) stack
  | binary {op a b stack} : Takes (.binary op) (b :: a :: stack) (.binary op a b) stack
  | call {name arity stack} (h : arity ≤ stack.length) :
    Takes (.call name arity) stack (.call name (stack.take arity).reverse) (stack.drop arity)

/-- Tokens lead from one stack to another without making anything higher than `limit`. -/
inductive Builds (limit : Nat) : List Token.Kind → List Expr → List Expr → Prop
  | nil {stack} : Builds limit [] stack stack
  | cons {k ks stack e rest stack'} (h : Takes k stack e rest) (hlimit : e.height ≤ limit)
    (hrest : Builds limit ks (e :: rest) stack') : Builds limit (k :: ks) stack stack'

section

variable {limit : Nat}

theorem builds_append_iff {ks ls : List Token.Kind} {stack stack'' : List Expr} :
    Builds limit (ks ++ ls) stack stack'' ↔
      ∃ stack', Builds limit ks stack stack' ∧ Builds limit ls stack' stack'' := by
  induction ks generalizing stack with
  | nil =>
    constructor
    · intro h
      exact ⟨stack, .nil, h⟩
    · rintro ⟨stack', h, h'⟩
      cases h
      exact h'
  | cons k ks ih =>
    constructor
    · intro h
      cases h with
      | cons htakes hlimit hrest =>
        obtain ⟨stack', hks, hls⟩ := ih.mp hrest
        exact ⟨stack', .cons htakes hlimit hks, hls⟩
    · rintro ⟨stack', h, hls⟩
      cases h with
      | cons htakes hlimit hks => exact .cons htakes hlimit (ih.mpr ⟨stack', hks, hls⟩)

theorem builds_singleton {k : Token.Kind} {stack rest : List Expr} {e : Expr}
    (h : Takes k stack e rest) (hlimit : e.height ≤ limit) :
    Builds limit [k] stack (e :: rest) :=
  .cons h hlimit .nil

theorem takes_mem {k : Token.Kind} {stack rest : List Expr} {e e' : Expr}
    (h : Takes k stack e rest) (he' : e' ∈ rest) : e' ∈ stack := by
  cases h with
  | literal | name => exact he'
  | unary => exact List.mem_cons_of_mem _ he'
  | dot | binary => exact List.mem_cons_of_mem _ (List.mem_cons_of_mem _ he')
  | call => exact List.mem_of_mem_drop he'

theorem builds_height_le {ks : List Token.Kind} {stack stack' : List Expr}
    (h : Builds limit ks stack stack') (hstack : ∀ e ∈ stack, e.height ≤ limit) :
    ∀ e ∈ stack', e.height ≤ limit := by
  induction h with
  | nil => exact hstack
  | @cons k ks stack e rest stack' htakes hlimit _ ih =>
    apply ih
    intro e' he'
    rcases List.mem_cons.mp he' with rfl | he'
    · exact hlimit
    · exact hstack e' (takes_mem htakes he')

/-- How many operands a token takes. -/
def operands : Token.Kind → Nat
  | .literal _ => 0
  | .name _ => 0
  | .dot => 2
  | .unary _ => 1
  | .binary _ => 2
  | .call _ arity => arity

def operandsAll : List Token.Kind → Nat
  | [] => 0
  | k :: ks => operands k + operandsAll ks

theorem takes_length {k : Token.Kind} {stack rest : List Expr} {e : Expr}
    (h : Takes k stack e rest) : rest.length + operands k = stack.length := by
  cases h with
  | call h => simp [operands, Nat.sub_add_cancel h]
  | _ => rfl

/-- Every token leaves one expression in the place of its operands. -/
theorem builds_length {ks : List Token.Kind} {stack stack' : List Expr}
    (h : Builds limit ks stack stack') :
    stack'.length + operandsAll ks = stack.length + ks.length := by
  induction h with
  | nil => rfl
  | @cons k ks stack e rest stack' htakes _ _ ih =>
    have hlen := takes_length htakes
    simp only [List.length_cons, operandsAll] at ih ⊢
    omega

end

/-- The expression with its height. -/
def sized (e : Expr) : Node :=
  ⟨e, e.height⟩

theorem foldl_max_height (es : List Expr) (n : Nat) :
    (es.map height).foldl max n = max n (heightAll es) := by
  induction es generalizing n with
  | nil => simp [heightAll]
  | cons e es ih => rw [List.map_cons, List.foldl_cons, ih, heightAll, Nat.max_assoc]

theorem map_height_sized (es : List Expr) : (es.map sized).map Node.height = es.map height := by
  simp [sized, Function.comp_def]

theorem map_expr_sized (es : List Expr) : (es.map sized).map Node.expr = es := by
  simp [sized, Function.comp_def]

theorem node_of_takes {t : Token} {stack rest : List Expr} {e : Expr}
    (h : Takes t.kind stack e rest) : node t (stack.map sized) = .ok (sized e, rest.map sized) := by
  obtain ⟨kind, text, position⟩ := t
  cases h with
  | literal => rfl
  | name => rfl
  | dot haccess => simp [node, sized, haccess, height_access haccess]
  | unary => rfl
  | binary => rfl
  | @call name arity _ harity =>
    have hlen : ¬(stack.map sized).length < arity := by simpa using harity
    simp only [node, if_neg hlen, ← List.map_take, ← List.map_drop, ← List.map_reverse,
      map_height_sized, map_expr_sized, foldl_max_height, Nat.zero_max]
    rfl

theorem takes_of_node {t : Token} {stack : List Expr} {n : Node} {nodes : List Node}
    (h : node t (stack.map sized) = .ok (n, nodes)) :
    ∃ e rest, n = sized e ∧ nodes = rest.map sized ∧ Takes t.kind stack e rest := by
  obtain ⟨kind, text, position⟩ := t
  have hnode {e : Expr} {rest : List Expr} (htakes : Takes kind stack e rest) :
      ∃ e rest, n = sized e ∧ nodes = rest.map sized ∧ Takes kind stack e rest := by
    rw [@node_of_takes ⟨kind, text, position⟩ _ _ _ htakes] at h
    cases h
    exact ⟨e, rest, rfl, rfl, htakes⟩
  cases kind with
  | literal l => exact hnode .literal
  | name name => exact hnode .name
  | dot =>
    rcases stack with _ | ⟨b, _ | ⟨a, stack⟩⟩
    · cases h
    · cases h
    · cases haccess : access a b with
      | ok e => exact hnode (.dot haccess)
      | error reason => simp [node, sized, haccess] at h
  | unary op =>
    rcases stack with _ | ⟨a, stack⟩
    · cases h
    · exact hnode .unary
  | binary op =>
    rcases stack with _ | ⟨b, _ | ⟨a, stack⟩⟩
    · cases h
    · cases h
    · exact hnode .binary
  | call name arity =>
    by_cases harity : arity ≤ stack.length
    · exact hnode (.call harity)
    · have hlen : (stack.map sized).length < arity := by simpa using harity
      simp only [node, if_pos hlen] at h
      cases h

theorem push_eq_ok_iff {limit : Nat} {t : Token} {stack : List Expr} {nodes : List Node} :
    push limit (stack.map sized) t = .ok nodes ↔ ∃ e rest, nodes = (e :: rest).map sized ∧
      Takes t.kind stack e rest ∧ e.height ≤ limit := by
  constructor
  · intro h
    obtain ⟨⟨n, rest'⟩, hnode, h⟩ := Result.bind_eq_ok_iff.mp h
    obtain ⟨e, rest, rfl, rfl, htakes⟩ := takes_of_node hnode
    by_cases hlimit : limit < (sized e).height
    · simp [hlimit] at h
    · simp only [hlimit, if_false] at h
      cases h
      exact ⟨e, rest, rfl, htakes, Nat.le_of_not_lt hlimit⟩
  · rintro ⟨e, rest, rfl, htakes, hlimit⟩
    have hnot : ¬limit < (sized e).height := Nat.not_lt_of_le hlimit
    rw [push, node_of_takes htakes, Result.ok_bind]
    simp [hnot]

theorem foldlM_push_eq_ok_iff {limit : Nat} {ts : List Token} {stack : List Expr}
    {nodes : List Node} : ts.foldlM (push limit) (stack.map sized) = .ok nodes ↔
      ∃ stack', nodes = stack'.map sized ∧ Builds limit (ts.map Token.kind) stack stack' := by
  induction ts generalizing stack with
  | nil =>
    constructor
    · intro h
      cases h
      exact ⟨stack, rfl, .nil⟩
    · rintro ⟨stack', rfl, h⟩
      cases h
      rfl
  | cons t ts ih =>
    rw [List.foldlM_cons, Result.bind_eq_ok_iff]
    constructor
    · rintro ⟨_, hpush, hrest⟩
      obtain ⟨e, rest, rfl, htakes, hlimit⟩ := push_eq_ok_iff.mp hpush
      obtain ⟨stack', rfl, hbuilds⟩ := ih.mp hrest
      exact ⟨stack', rfl, .cons htakes hlimit hbuilds⟩
    · rintro ⟨stack', rfl, h⟩
      cases h with
      | @cons _ _ _ e rest _ htakes hlimit hrest =>
        exact ⟨_, push_eq_ok_iff.mpr ⟨e, rest, rfl, htakes, hlimit⟩, ih.mpr ⟨stack', rfl, hrest⟩⟩

/-- Tokens are read as an expression if they leave just this on the stack. -/
theorem ofPostfix_eq_ok_iff {limit : Nat} {ts : List Token} {e : Expr} :
    ofPostfix limit ts = .ok e ↔ Builds limit (ts.map Token.kind) [] [e] := by
  rw [ofPostfix, Result.bind_eq_ok_iff]
  constructor
  · rintro ⟨nodes, hfold, h⟩
    obtain ⟨stack', rfl, hbuilds⟩ := (@foldlM_push_eq_ok_iff limit ts [] nodes).mp hfold
    split at h
    · next n hn =>
      obtain ⟨e', rfl⟩ : ∃ e', stack' = [e'] := by
        cases stack' with
        | nil => cases hn
        | cons e' rest =>
          cases rest with
          | nil => exact ⟨e', rfl⟩
          | cons => cases hn
      cases hn
      cases h
      exact hbuilds
    · cases h
    · cases h
  · intro hbuilds
    exact ⟨[sized e], (@foldlM_push_eq_ok_iff limit ts [] _).mpr ⟨[e], rfl, hbuilds⟩, rfl⟩

section

variable {limit : Nat}

/-- Every attribute of a path finds its owner on the stack. -/
theorem builds_path (key : String) (walked path : List String) (stack : List Expr)
    (hlimit : 1 ≤ limit) (hpath : walked ++ path ≠ []) (owner : Expr)
    (howner : owner = if walked = [] then .var key else .attr key walked) :
    Builds limit (path.flatMap fun attr => [.name attr, .dot]) (owner :: stack)
      (.attr key (walked ++ path) :: stack) := by
  induction path generalizing walked owner with
  | nil =>
    rw [List.append_nil] at hpath ⊢
    rw [howner, if_neg hpath]
    exact .nil
  | cons attr path ih =>
    have haccess : access owner (.var attr) = .ok (.attr key (walked ++ [attr])) := by
      rw [howner]
      by_cases hwalked : walked = []
      · rw [if_pos hwalked, hwalked]
        rfl
      · rw [if_neg hwalked]
        rfl
    have hne : walked ++ [attr] ≠ [] := List.append_ne_nil_of_right_ne_nil _ (List.cons_ne_nil _ _)
    have hrest := ih (walked ++ [attr]) (by simp) (.attr key (walked ++ [attr])) (if_neg hne).symm
    rw [List.append_assoc, List.singleton_append] at hrest
    exact .cons .name hlimit (.cons (.dot haccess) hlimit hrest)

mutual

theorem builds_postorder (e : Expr) (stack : List Expr) (hproper : e.Proper)
    (hlimit : e.height ≤ limit) : Builds limit e.postorder stack (e :: stack) := by
  cases e with
  | literal l => exact builds_singleton .literal hlimit
  | var name => exact builds_singleton .name hlimit
  | attr key path =>
    exact .cons .name hlimit (builds_path key [] path stack hlimit hproper (.var key) rfl)
  | unary op a =>
    have ha := builds_postorder a stack hproper (Nat.le_of_succ_le hlimit)
    exact builds_append_iff.mpr ⟨_, ha, builds_singleton .unary hlimit⟩
  | binary op a b =>
    have hheight : max a.height b.height ≤ limit := Nat.le_of_succ_le hlimit
    have ha := builds_postorder a stack hproper.1 (Nat.le_trans (Nat.le_max_left _ _) hheight)
    have hb := builds_postorder b (a :: stack) hproper.2
      (Nat.le_trans (Nat.le_max_right _ _) hheight)
    have hab := builds_append_iff.mpr ⟨_, ha, hb⟩
    exact builds_append_iff.mpr ⟨_, hab, builds_singleton .binary hlimit⟩
  | call name args =>
    have hargs := builds_postorderAll args stack hproper (Nat.le_of_succ_le hlimit)
    have hlen : args.length ≤ (args.reverse ++ stack).length := by simp
    have htakes := @Takes.call name args.length (args.reverse ++ stack) hlen
    rw [← List.length_reverse, List.take_left, List.drop_left, List.reverse_reverse,
      List.length_reverse] at htakes
    exact builds_append_iff.mpr ⟨_, hargs, builds_singleton htakes hlimit⟩

theorem builds_postorderAll (es : List Expr) (stack : List Expr) (hproper : ProperAll es)
    (hlimit : heightAll es ≤ limit) :
    Builds limit (postorderAll es) stack (es.reverse ++ stack) := by
  cases es with
  | nil => exact .nil
  | cons e es =>
    have he := builds_postorder e stack hproper.1 (Nat.le_trans (Nat.le_max_left _ _) hlimit)
    have hes := builds_postorderAll es (e :: stack) hproper.2
      (Nat.le_trans (Nat.le_max_right _ _) hlimit)
    rw [List.reverse_cons, List.append_assoc, List.singleton_append]
    exact builds_append_iff.mpr ⟨_, he, hes⟩

end

end

section

variable {limit : Nat} {k : Token.Kind} {ks : List Token.Kind} {stack stack' rest : List Expr}
  {e : Expr}

/-- In the place of its operands a token leaves an expression with their tokens and its own. -/
theorem takes_postorder (h : Takes k stack e rest) :
    postorderAll (rest.reverse ++ [e]) = postorderAll stack.reverse ++ [k] := by
  rw [postorderAll_append]
  cases h with
  | literal => rfl
  | name => rfl
  | dot haccess => simp [postorderAll_append, postorderAll, postorder_access haccess]
  | unary => simp [postorderAll_append, postorderAll, postorder]
  | binary => simp [postorderAll_append, postorderAll, postorder]
  | @call name arity stack harity =>
    have hlen : (stack.take arity).reverse.length = arity := by
      rw [List.length_reverse, List.length_take, Nat.min_eq_left harity]
    have hstack : stack.reverse = (stack.drop arity).reverse ++ (stack.take arity).reverse := by
      rw [← List.reverse_append, List.take_append_drop]
    simp only [postorderAll, postorder, hlen, hstack, postorderAll_append, List.append_nil,
      List.append_assoc]

/-- What is on the stack in the end has the tokens of what was there, and those read since. -/
theorem builds_postorderAll_eq (h : Builds limit ks stack stack') :
    postorderAll stack'.reverse = postorderAll stack.reverse ++ ks := by
  induction h with
  | nil => exact (List.append_nil _).symm
  | cons htakes _ _ ih =>
    rw [ih, List.reverse_cons, takes_postorder htakes, List.append_assoc, List.singleton_append]

theorem takes_proper (h : Takes k stack e rest) (hstack : ∀ a ∈ stack, a.Proper) : e.Proper := by
  cases h with
  | literal | name => trivial
  | dot haccess =>
    obtain ⟨a, -, ⟨key, -, rfl⟩ | ⟨key, path, -, rfl⟩⟩ := access_eq_ok_iff.mp haccess
    · exact List.cons_ne_nil _ _
    · exact List.append_ne_nil_of_right_ne_nil _ (List.cons_ne_nil _ _)
  | unary => exact (List.forall_mem_cons.mp hstack).1
  | binary =>
    obtain ⟨hright, hrest⟩ := List.forall_mem_cons.mp hstack
    exact ⟨hrest _ List.mem_cons_self, hright⟩
  | call =>
    refine properAll_iff.mpr fun a ha => hstack a ?_
    exact List.mem_of_mem_take (List.mem_reverse.mp ha)

theorem builds_proper (h : Builds limit ks stack stack') (hstack : ∀ a ∈ stack, a.Proper) :
    ∀ a ∈ stack', a.Proper := by
  induction h with
  | nil => exact hstack
  | cons htakes _ _ ih =>
    refine ih (List.forall_mem_cons.mpr ⟨takes_proper htakes hstack, fun a ha => ?_⟩)
    exact hstack a (takes_mem htakes ha)

/-- Tokens are read as an expression within the limit if they are its own tokens in postfix order,
whatever their texts and positions are. -/
theorem ofPostfix_inverts_postorder (limit : Nat) (ts : List Token) (e : Expr) :
    ofPostfix limit ts = .ok e ↔
      e.Proper ∧ ts.map Token.kind = e.postorder ∧ e.height ≤ limit := by
  rw [ofPostfix_eq_ok_iff]
  constructor
  · intro h
    have hkinds := builds_postorderAll_eq h
    have hproper := builds_proper h (fun _ h => nomatch h) e List.mem_cons_self
    have hheight := builds_height_le h (fun _ h => nomatch h) e List.mem_cons_self
    simp only [List.reverse_singleton, List.reverse_nil, postorderAll, List.append_nil,
      List.nil_append] at hkinds
    exact ⟨hproper, hkinds.symm, hheight⟩
  · rintro ⟨hproper, hkinds, hheight⟩
    rw [hkinds]
    exact builds_postorder e [] hproper hheight

end

/-- A call takes as many operands as it says, and without any it is an operand itself. -/
example : ofPostfix 2 [⟨.call "now" 0, "now", .start⟩, ⟨.name "a", "a", .start⟩,
    ⟨.name "b", "b", .start⟩, ⟨.dot, ".", .start⟩, ⟨.call "f" 2, "f", .start⟩] =
    .ok (.call "f" [.call "now" [], .attr "a" ["b"]]) := rfl

end AccessControl.Matcher.Expr
