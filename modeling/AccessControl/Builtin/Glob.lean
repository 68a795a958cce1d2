
namespace AccessControl.Builtin.Glob

/-- Goes one name further: an empty one and a dot stay, two dots step back unless at the root. The
way so far has its latest name first. -/
def go (way : List (List Char)) (name : List Char) : List (List Char) :=
  if name = [] || name = ['.'] then way
  else if name = ['.', '.'] then way.tail
  else name :: way

/-- The names along a path once its detours are gone. -/
def names (path : List Char) : List (List Char) :=
  ((path.splitOn '/').foldl go []).reverse

/-- What follows the first occurrence of `word`. -/
def afterFirst? (word : List Char) : List Char → Option (List Char)
  | [] => if word.isEmpty then some [] else none
  | c :: cs =>
    if word.isPrefixOf (c :: cs) then some ((c :: cs).drop word.length) else afterFirst? word cs

/-- Whether the words occur one after another, the last of them at the end; each but the last is
taken where it occurs first. -/
def inOrder : List (List Char) → List Char → Bool
  | [], cs => cs.isEmpty
  | [last], cs => last.isSuffixOf cs
  | word :: words, cs => match afterFirst? word cs with
    | some rest => inOrder words rest
    | none => false

/-- Whether a name fits one of a pattern, whose stars stand for any runs of characters. -/
def nameFits (pattern name : List Char) : Bool :=
  match pattern.splitOn '*' with
  | [] => false
  | [word] => word == name
  | first :: words => first.isPrefixOf name && inOrder words (name.drop first.length)

/-- Whether the entry or an earlier one holds. -/
def spread (seen : Bool) : List Bool → List Bool
  | [] => []
  | b :: bs => (seen || b) :: spread (seen || b) bs

/-- From whether a pattern accepts the first 0, 1, 2, … names of the path, the same for the pattern
with one more name. -/
def extend (path : List (List Char)) (accepted : List Bool) (name : List Char) : List Bool :=
  if name = ['*', '*'] then spread false accepted
  else false :: List.zipWith (fun b next => b && nameFits name next) accepted path

/-- Whether a pattern accepts a path as a whole. -/
def accepts (pattern path : List Char) : Bool :=
  let path := names path
  let start := true :: path.map fun _ => false
  ((names pattern).foldl (extend path) start).getLast?.getD false

end AccessControl.Builtin.Glob
