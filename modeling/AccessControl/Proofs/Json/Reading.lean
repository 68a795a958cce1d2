import AccessControl.Json.Reader
import Mathlib.Data.List.Forall2

namespace AccessControl.Json

/-- Parts with commas between them. -/
def separated : List (List Token) → List Token
  | [] => []
  | ts :: tss => ts ++ tss.flatMap (.comma :: ·)

mutual

/-- The tokens that a value is written with. -/
def tokens : Json → List Token
  | .array items => .openArray :: separated (itemTokens items) ++ [.closeArray]
  | .object members => .openObject :: separated (memberTokens members) ++ [.closeObject]
  | .null => [.scalar .null]
  | .bool b => [.scalar (.bool b)]
  | .number => [.scalar .number]
  | .string s => [.scalar (.string s)]

def itemTokens : List Json → List (List Token)
  | [] => []
  | j :: items => j.tokens :: itemTokens items

def memberToken : Option String × Json → List Token
  | (name, j) => .scalar (.string name) :: .colon :: j.tokens

def memberTokens : List (Option String × Json) → List (List Token)
  | [] => []
  | m :: members => memberToken m :: memberTokens members

end

theorem itemTokens_eq_map (items : List Json) : itemTokens items = items.map tokens := by
  induction items with
  | nil => rfl
  | cons j items ih => rw [itemTokens, ih, List.map_cons]

theorem memberTokens_eq_map (members : List (Option String × Json)) :
    memberTokens members = members.map memberToken := by
  induction members with
  | nil => rfl
  | cons m members ih => rw [memberTokens, ih, List.map_cons]

/-- Wherever a value is awaited, the tokens are read as this one. -/
def Reads (ts : List Token) (j : Json) : Prop :=
  ∀ a outer, a = .value ∨ a = .valueOrClose →
    ts.foldlM Reader.step? ⟨a, outer, .null⟩ = some (Reader.place j outer)

/-- What arrays and objects have in common. The container `build parts` holds the parts read so
far, the latest one first; `first` and `later` are what it awaits of a first and of a later part. -/
structure Kind (β : Type) where
  build : List β → Container
  value : List β → Json
  first : Awaiting
  later : Awaiting
  opening : Token
  closing : Token
  opens (a : Awaiting) (outer : List Container) (ha : a = .value ∨ a = .valueOrClose) :
    Reader.step? ⟨a, outer, .null⟩ opening = some ⟨first, build [] :: outer, .null⟩
  parts (parts : List β) (outer : List Container) :
    Reader.step? ⟨.commaOrClose, build parts :: outer, .null⟩ .comma =
      some ⟨later, build parts :: outer, .null⟩
  closes (a : Awaiting) (parts : List β) (outer : List Container)
    (ha : a = first ∨ a = .commaOrClose) :
    Reader.step? ⟨a, build parts :: outer, .null⟩ closing =
      some (Reader.place (value parts.reverse) outer)

namespace Kind

def array : Kind Json where
  build := .array
  value := .array
  first := .valueOrClose
  later := .value
  opening := .openArray
  closing := .closeArray
  opens a outer ha := by rcases ha with rfl | rfl <;> rfl
  parts _ _ := rfl
  closes a parts outer ha := by rcases ha with rfl | rfl <;> rfl

def object : Kind (Option String × Json) where
  build members := .object members none
  value := .object
  first := .nameOrClose
  later := .name
  opening := .openObject
  closing := .closeObject
  opens a outer ha := by rcases ha with rfl | rfl <;> rfl
  parts _ _ := rfl
  closes a parts outer ha := by rcases ha with rfl | rfl <;> rfl

variable {β : Type} (k : Kind β)

/-- Wherever a part is awaited, the tokens are read as this one. -/
def Extends (ts : List Token) (part : β) : Prop :=
  ∀ a parts outer, a = k.first ∨ a = k.later →
    ts.foldlM Reader.step? ⟨a, k.build parts :: outer, .null⟩ =
      some ⟨.commaOrClose, k.build (part :: parts) :: outer, .null⟩

variable {k}

theorem foldlM_later {tss : List (List Token)} {later : List β}
    (h : List.Forall₂ k.Extends tss later) (parts : List β) (outer : List Container) :
    (tss.flatMap (.comma :: ·)).foldlM Reader.step?
        ⟨.commaOrClose, k.build parts :: outer, .null⟩ =
      some ⟨.commaOrClose, k.build (later.reverse ++ parts) :: outer, .null⟩ := by
  induction h generalizing parts with
  | nil => rfl
  | @cons ts part tss later hpart _ ih =>
    have hread := hpart k.later parts outer (.inr rfl)
    simp only [List.flatMap_cons, List.cons_append, List.foldlM_cons, List.foldlM_append, k.parts,
      Option.bind_eq_bind, Option.bind_some, hread, ih, List.reverse_cons, List.append_assoc,
      List.nil_append]

/-- The parts are read in order, as the value that they make up. -/
theorem reads {tss : List (List Token)} {parts : List β} (h : List.Forall₂ k.Extends tss parts) :
    Reads (k.opening :: separated tss ++ [k.closing]) (k.value parts) := by
  intro a outer ha
  have hopen := k.opens a outer ha
  cases h with
  | nil =>
    have hclose := k.closes k.first [] outer (.inl rfl)
    simp only [separated, List.cons_append, List.nil_append, List.foldlM_cons, List.foldlM_nil,
      hopen, hclose, Option.bind_eq_bind, Option.bind_some, List.reverse_nil, Option.pure_def]
  | @cons ts part tss parts hpart hparts =>
    have hfirst := hpart k.first [] outer (.inl rfl)
    have hlater := foldlM_later hparts [part] outer
    have hclose := k.closes .commaOrClose (part :: parts).reverse outer (.inr rfl)
    rw [← List.reverse_cons] at hlater
    simp only [separated, List.cons_append, List.foldlM_cons, List.foldlM_nil, List.foldlM_append,
      hopen, hfirst, hlater, hclose, Option.bind_eq_bind, Option.bind_some, List.reverse_reverse,
      Option.pure_def]

end Kind

theorem reads_scalar (j : Json) : Reads [.scalar j] j := by
  intro a outer ha
  rcases ha with rfl | rfl <;> rfl

theorem extends_item {ts : List Token} {j : Json} (h : Reads ts j) : Kind.array.Extends ts j := by
  intro a items outer ha
  exact h a (.array items :: outer) ha.symm

theorem extends_member {ts : List Token} {j : Json} (name : Option String) (h : Reads ts j) :
    Kind.object.Extends (.scalar (.string name) :: .colon :: ts) (name, j) := by
  intro a members outer ha
  have hread := h .value (.object members name :: outer) (.inl rfl)
  rcases ha with rfl | rfl <;> exact hread

mutual

/-- Every value is read from its tokens. -/
theorem reads_tokens : ∀ j : Json, Reads j.tokens j
  | .array items => Kind.array.reads (extends_items items)
  | .object members => Kind.object.reads (extends_members members)
  | .null => reads_scalar .null
  | .bool b => reads_scalar (.bool b)
  | .number => reads_scalar .number
  | .string s => reads_scalar (.string s)

theorem extends_items : ∀ items : List Json,
    List.Forall₂ Kind.array.Extends (itemTokens items) items
  | [] => .nil
  | j :: items => .cons (extends_item (reads_tokens j)) (extends_items items)

theorem extends_memberToken : ∀ m : Option String × Json,
    Kind.object.Extends (memberToken m) m
  | (name, j) => extends_member name (reads_tokens j)

theorem extends_members : ∀ members : List (Option String × Json),
    List.Forall₂ Kind.object.Extends (memberTokens members) members
  | [] => .nil
  | m :: members => .cons (extends_memberToken m) (extends_members members)

end

end AccessControl.Json
