namespace AccessControl.Text

/-- Lines and columns count from one; a column is one character. -/
structure Position where
  line : Nat
  col : Nat
deriving DecidableEq

namespace Position

def start : Position := ⟨1, 1⟩

/-- Only a newline starts a line. -/
def next (p : Position) (c : Char) : Position :=
  if c = '\n' then ⟨p.line + 1, 1⟩ else ⟨p.line, p.col + 1⟩

/-- The place behind a text that starts at `p`. -/
def after (p : Position) (cs : List Char) : Position :=
  cs.foldl next p

@[simp] theorem after_nil (p : Position) : p.after [] = p := rfl

@[simp] theorem after_cons (p : Position) (c : Char) (cs : List Char) :
    p.after (c :: cs) = (p.next c).after cs := rfl

@[simp] theorem after_append (p : Position) (xs ys : List Char) :
    p.after (xs ++ ys) = (p.after xs).after ys := by
  simp [after]

/-- Within a line places differ by their columns only. -/
theorem after_line {cs : List Char} (h : '\n' ∉ cs) (n k : Nat) :
    (mk n k).after cs = ⟨n, k + cs.length⟩ := by
  induction cs generalizing k with
  | nil => rfl
  | cons c cs ih =>
    have hc : c ≠ '\n' := Ne.symm (List.ne_of_not_mem_cons h)
    rw [after_cons, next, if_neg hc, ih (List.not_mem_of_not_mem_cons h),
      List.length_cons, Nat.add_right_comm, Nat.add_assoc]

instance : ToString Position where
  toString p := s!"{p.line}:{p.col}"

end Position

end AccessControl.Text
