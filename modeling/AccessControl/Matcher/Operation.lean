import AccessControl.Matcher.Failure
import AccessControl.Matcher.Operator

namespace AccessControl.Matcher

def UnaryOp.apply : UnaryOp → Value → Except Failure Value
  | not, .bool b => .ok (.bool !b)
  | pos, .number x => .ok (.number x)
  | neg, .number x => .ok (.number (-x))
  | op, v => .error (.typeMismatch op.symbol (.operand v.type))

/-- Nothing compares with NaN but by `!=`; strings compare by code points. -/
def BinaryOp.apply : BinaryOp → Value → Value → Except Failure Value
  | mul, .number x, .number y => .ok (.number (x * y))
  | div, .number x, .number y => if y == 0 then .error .divisionByZero else .ok (.number (x / y))
  | add, .number x, .number y => .ok (.number (x + y))
  | sub, .number x, .number y => .ok (.number (x - y))
  | lt, .number x, .number y => .ok (.bool (x < y))
  | le, .number x, .number y => .ok (.bool (x ≤ y))
  | gt, .number x, .number y => .ok (.bool (y < x))
  | ge, .number x, .number y => .ok (.bool (y ≤ x))
  | lt, .string s, .string t => .ok (.bool (s < t))
  | le, .string s, .string t => .ok (.bool (s ≤ t))
  | gt, .string s, .string t => .ok (.bool (t < s))
  | ge, .string s, .string t => .ok (.bool (t ≤ s))
  | eq, .number x, .number y => .ok (.bool (x == y))
  | eq, .string s, .string t => .ok (.bool (s == t))
  | eq, .bool a, .bool b => .ok (.bool (a == b))
  | ne, .number x, .number y => .ok (.bool (x != y))
  | ne, .string s, .string t => .ok (.bool (s != t))
  | ne, .bool a, .bool b => .ok (.bool (a != b))
  | and, .bool a, .bool b => .ok (.bool (a && b))
  | or, .bool a, .bool b => .ok (.bool (a || b))
  | op, u, v => .error (.typeMismatch op.symbol (.operands u.type v.type))

end AccessControl.Matcher
