namespace AccessControl

/-- Pairs in ascending order of their keys. -/
abbrev Table (κ α : Type) := List (κ × α)

namespace Table

variable {κ α : Type}

def get? [BEq κ] (t : Table κ α) (key : κ) : Option α :=
  t.lookup key

/-- Keeps the order of keys; an earlier binding of the key is replaced. -/
def insert [Ord κ] (key : κ) (a : α) : Table κ α → Table κ α
  | [] => [(key, a)]
  | (k, b) :: rest => match compare key k with
    | .lt => (key, a) :: (k, b) :: rest
    | .eq => (key, a) :: rest
    | .gt => (k, b) :: insert key a rest

/-- What was bound to a key is of no account when the key is bound again. -/
theorem insert_insert [Ord κ] [Std.ReflOrd κ] (key : κ) (a b : α) (t : Table κ α) :
    insert key a (insert key b t) = insert key a t := by
  induction t with
  | nil => simp [insert]
  | cons entry rest ih =>
    obtain ⟨k, c⟩ := entry
    cases h : compare key k with
    | lt => simp [insert, h]
    | eq => simp [insert, h]
    | gt => simp [insert, h, ih]

/-- Of several pairs with one key the last one counts. -/
def ofList [Ord κ] (pairs : List (κ × α)) : Table κ α :=
  pairs.foldl (fun t (key, a) => t.insert key a) []

variable {β : Type}

theorem map_insert [Ord κ] (g : α → β) (key : κ) (a : α) (t : Table κ α) :
    (t.insert key a).map (Prod.map id g) = insert key (g a) (t.map (Prod.map id g)) := by
  induction t with
  | nil => rfl
  | cons entry rest ih =>
    obtain ⟨k, b⟩ := entry
    cases h : compare key k <;> simp [insert, h, ih]

theorem map_foldl_insert [Ord κ] (g : α → β) (pairs : List (κ × α)) (t : Table κ α) :
    (pairs.foldl (fun t (key, a) => t.insert key a) t).map (Prod.map id g) =
      (pairs.map (Prod.map id g)).foldl (fun t (key, b) => insert key b t)
        (t.map (Prod.map id g)) := by
  induction pairs generalizing t with
  | nil => rfl
  | cons pair pairs ih =>
    rw [List.foldl_cons, ih, map_insert]
    rfl

theorem map_ofList [Ord κ] (g : α → β) (pairs : List (κ × α)) :
    (ofList pairs).map (Prod.map id g) = ofList (pairs.map (Prod.map id g)) :=
  map_foldl_insert g pairs []

theorem get?_map [BEq κ] (g : α → β) (t : Table κ α) (k : κ) :
    get? (t.map (Prod.map id g)) k = (t.get? k).map g := by
  induction t with
  | nil => rfl
  | cons entry rest ih =>
    obtain ⟨key, a⟩ := entry
    simp only [get?, List.map_cons, Prod.map_apply, id_eq, List.lookup_cons] at ih ⊢
    cases k == key with
    | true => rfl
    | false => exact ih

section

variable [BEq κ] [LawfulBEq κ] [Ord κ] [Std.LawfulEqOrd κ]

theorem get?_insert (key k : κ) (a : α) (t : Table κ α) :
    (t.insert key a).get? k = if k == key then some a else t.get? k := by
  induction t with
  | nil => cases h : k == key <;> simp [insert, get?, List.lookup_cons, h]
  | cons entry rest ih =>
    obtain ⟨k', b⟩ := entry
    simp only [get?] at ih ⊢
    cases hcompare : compare key k' with
    | lt => cases h : k == key <;> simp [insert, hcompare, List.lookup_cons, h]
    | eq =>
      obtain rfl := Std.LawfulEqOrd.eq_of_compare hcompare
      cases h : k == key <;> simp [insert, List.lookup_cons, h]
    | gt =>
      have hne : key ≠ k' := by
        rintro rfl
        simp at hcompare
      cases h : k == k' with
      | false => simp [insert, hcompare, List.lookup_cons, h, ih]
      | true =>
        have hk : k ≠ key := by
          rintro rfl
          exact hne (eq_of_beq h)
        simp [insert, hcompare, List.lookup_cons, h, hk]

/-- What is bound later hides what was bound before. -/
theorem get?_foldl_insert (pairs : List (κ × α)) (t : Table κ α) (k : κ) :
    (pairs.foldl (fun t (key, a) => t.insert key a) t).get? k =
      (pairs.reverse.lookup k).or (t.get? k) := by
  induction pairs generalizing t with
  | nil => rfl
  | cons pair pairs ih =>
    obtain ⟨key, a⟩ := pair
    rw [List.foldl_cons, ih, get?_insert, List.reverse_cons, List.lookup_append, Option.or_assoc]
    cases h : k == key <;> simp [List.lookup_cons, h]

/-- Of those that bind a key the last one counts. -/
theorem get?_foldl_insert_filterMap {γ : Type} (pick? : γ → Option (κ × α)) (cs : List γ)
    (t : Table κ α) (k : κ) :
    ((cs.filterMap pick?).foldl (fun t (key, a) => t.insert key a) t).get? k =
      (cs.reverse.findSome? fun c => (pick? c).bind fun (key, a) =>
        if k == key then some a else none).or (t.get? k) := by
  rw [get?_foldl_insert, ← List.filterMap_reverse, List.lookup_eq_findSome?,
    ← List.head?_filterMap, List.filterMap_filterMap, List.head?_filterMap]

theorem get?_ofList (pairs : List (κ × α)) (k : κ) :
    (ofList pairs).get? k = pairs.reverse.lookup k := by
  rw [ofList, get?_foldl_insert]
  exact Option.or_none

end

def keys (t : Table κ α) : List κ :=
  t.map (·.1)

theorem isSome_get?_iff [BEq κ] [LawfulBEq κ] {t : Table κ α} {k : κ} :
    (t.get? k).isSome ↔ k ∈ t.keys := by
  rw [get?, List.lookup_isSome_iff, keys, List.mem_map]
  exact exists_congr fun entry => and_congr_right fun _ => beq_iff_eq.trans eq_comm

theorem mem_keys_insert [Ord κ] [Std.LawfulEqOrd κ] {key k : κ} {a : α} {t : Table κ α} :
    k ∈ (t.insert key a).keys ↔ k = key ∨ k ∈ t.keys := by
  simp only [keys]
  induction t with
  | nil => simp [insert]
  | cons entry rest ih =>
    obtain ⟨k', b⟩ := entry
    cases h : compare key k' with
    | lt => simp [insert, h]
    | eq =>
      obtain rfl := Std.LawfulEqOrd.eq_of_compare h
      simp [insert]
    | gt =>
      simp only [insert, h, List.map_cons, List.mem_cons, ih]
      exact or_left_comm

/-- Each key but once, and in order. -/
def Ascending [Ord κ] (t : Table κ α) : Prop :=
  t.keys.Pairwise fun k k' => compare k k' = .lt

theorem ascending_nil [Ord κ] : Ascending ([] : Table κ α) :=
  List.Pairwise.nil

section

variable [Ord κ] [Std.LawfulEqOrd κ] [Std.TransOrd κ]

theorem Ascending.insert {t : Table κ α} (h : t.Ascending) (key : κ) (a : α) :
    (t.insert key a).Ascending := by
  induction t with
  | nil => exact List.pairwise_singleton _ _
  | cons entry rest ih =>
    obtain ⟨k, b⟩ := entry
    obtain ⟨hhead, hrest⟩ := List.pairwise_cons.mp h
    cases hcompare : compare key k with
    | lt =>
      have hbefore : ∀ k' ∈ k :: keys rest, compare key k' = .lt := fun k' hk' => by
        rcases List.mem_cons.mp hk' with rfl | hk'
        · exact hcompare
        · exact Std.TransCmp.lt_trans hcompare (hhead k' hk')
      rw [Table.insert, hcompare]
      exact List.pairwise_cons.mpr ⟨hbefore, h⟩
    | eq =>
      obtain rfl := Std.LawfulEqOrd.eq_of_compare hcompare
      rw [Table.insert, hcompare]
      exact List.pairwise_cons.mpr ⟨hhead, hrest⟩
    | gt =>
      have hbefore : ∀ k' ∈ keys (Table.insert key a rest), compare k k' = .lt := fun k' hk' => by
        rcases mem_keys_insert.mp hk' with rfl | hk'
        · exact Std.OrientedCmp.gt_iff_lt.mp hcompare
        · exact hhead k' hk'
      rw [Table.insert, hcompare]
      exact List.pairwise_cons.mpr ⟨hbefore, ih hrest⟩

theorem Ascending.foldl_insert {t : Table κ α} (h : t.Ascending) (pairs : List (κ × α)) :
    (pairs.foldl (fun t (key, a) => t.insert key a) t).Ascending := by
  induction pairs generalizing t with
  | nil => exact h
  | cons pair pairs ih => exact ih (h.insert pair.1 pair.2)

theorem ascending_ofList (pairs : List (κ × α)) : (ofList pairs).Ascending :=
  ascending_nil.foldl_insert pairs

end

end Table

end AccessControl
