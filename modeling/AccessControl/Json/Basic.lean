namespace AccessControl

/-- The value of a number is not kept. A string is `none` if one of its escapes stands for half a
character. Objects keep repeated members. -/
inductive Json
  | null
  | bool (b : Bool)
  | number
  | string (s : Option String)
  | array (items : List Json)
  | object (members : List (Option String × Json))

end AccessControl
