namespace AccessControl.Matcher

inductive UnaryOp
  | not
  | pos
  | neg
deriving DecidableEq

inductive BinaryOp
  | mul
  | div
  | add
  | sub
  | lt
  | le
  | gt
  | ge
  | eq
  | ne
  | and
  | or
deriving DecidableEq

def UnaryOp.symbol : UnaryOp → String
  | not => "!"
  | pos => "+"
  | neg => "-"

/-- The operator that the same symbol denotes between two operands. -/
def UnaryOp.binary? : UnaryOp → Option BinaryOp
  | not => none
  | pos => some .add
  | neg => some .sub

def BinaryOp.symbol : BinaryOp → String
  | mul => "*"
  | div => "/"
  | add => "+"
  | sub => "-"
  | lt => "<"
  | le => "<="
  | gt => ">"
  | ge => ">="
  | eq => "=="
  | ne => "!="
  | and => "&&"
  | or => "||"

def BinaryOp.precedence : BinaryOp → Nat
  | or => 1
  | and => 2
  | lt | le | gt | ge | eq | ne => 3
  | add | sub => 4
  | mul | div => 5

/-- Unary operators bind tighter than all binary ones. -/
def unaryPrecedence : Nat := 6

/-- Attribute access binds tighter still. -/
def dotPrecedence : Nat := 7

def UnaryOp.all : List UnaryOp := [not, pos, neg]

def BinaryOp.all : List BinaryOp := [mul, div, add, sub, lt, le, gt, ge, eq, ne, and, or]

def UnaryOp.ofSymbol? (s : String) : Option UnaryOp :=
  all.find? (·.symbol == s)

def BinaryOp.ofSymbol? (s : String) : Option BinaryOp :=
  all.find? (·.symbol == s)

end AccessControl.Matcher
