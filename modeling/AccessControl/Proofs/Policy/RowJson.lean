import AccessControl.Policy.RowJson
import AccessControl.Proofs.Json.Spelling

namespace AccessControl.Policy.Row

open Json

/-- A row as a value. -/
def toJson (r : Row) : Json :=
  .object [
    (some "key", .string (some r.policy)),
    (some "values", .array (r.values.map fun v => .string (some v))),
    (some "effect", .string (some r.effect.name))]

theorem scans_memberText {cs : List Char} {j : Json} (name : String) (h : Spells cs j) :
    Scans (memberText name cs) (memberToken (some name, j)) := by
  have hspace : Scans [' '] [] := scans_blank (List.forall_mem_singleton.mpr rfl)
  have hcolon : Scans [':', ' '] [.colon] :=
    scans_append (scans_singleton rfl fun _ => rfl) hspace
  exact scans_append (scans_quote name) (scans_append hcolon h)

theorem spells_values (values : List String) (level : Nat) :
    Spells (enclose '[' ']' level (values.map quote))
      (.array (values.map fun v => .string (some v))) := by
  apply spells_array
  rw [List.forall₂_map_left_iff, List.forall₂_map_right_iff, List.forall₂_same]
  exact fun v _ => spells_quote v

theorem spells_json (r : Row) : Spells r.json r.toJson := by
  have hkey := scans_memberText "key" (spells_quote r.policy)
  have hvalues := scans_memberText "values" (spells_values r.values 2)
  have heffect := scans_memberText "effect" (spells_quote r.effect.name)
  exact spells_object (.cons hkey (.cons hvalues (.cons heffect .nil))) 1

theorem mapM_map_eq_some {α β : Type} {f : β → Option α} {g : α → β} (h : ∀ a, f (g a) = some a)
    (l : List α) : (l.map g).mapM f = some l := by
  induction l with
  | nil => rfl
  | cons a l ih => rw [List.map_cons, List.mapM_cons, h, ih]; rfl

theorem stringsOfJson?_strings (values : List String) :
    stringsOfJson? (.array (values.map fun v => .string (some v))) = some values := by
  have hstring (v : String) : stringOfJson? (.string (some v)) = some v := rfl
  exact mapM_map_eq_some hstring values

theorem ofJson?_name (e : Effect) : Effect.ofJson? (.string (some e.name)) = some e :=
  Effect.ofName?_eq_some_iff.mpr rfl

theorem ofJson?_toJson (r : Row) : ofJson? r.toJson = some r := by
  have hkey : stringOfJson? (.string (some r.policy)) = some r.policy := rfl
  simp [toJson, ofJson?, ofMembers?, member?, hkey, stringsOfJson?_strings, ofJson?_name]

/-- The text of rows is the text of one array that has an object for each of them. -/
theorem parse?_listToJson (rows : List Row) :
    Json.parse? (listToJson rows) = some (.array (rows.map toJson)) := by
  have hrows : List.Forall₂ Spells (rows.map json) (rows.map toJson) := by
    rw [List.forall₂_map_left_iff, List.forall₂_map_right_iff, List.forall₂_same]
    exact fun r _ => spells_json r
  exact parse?_of_spells (spells_array hrows 0)

/-- Rows that are written are read back, in order and each with its effect. -/
theorem listOfJson?_listToJson (rows : List Row) : listOfJson? (listToJson rows) = some rows := by
  have hread := mapM_map_eq_some ofJson?_toJson rows
  simp [listOfJson?, parse?_listToJson, hread]

/-- The text of rows says all there is to say of them: it is read back to the same rows, and no
other rows have it. -/
theorem rows_survive_json (rows : List Row) :
    Json.parse? (listToJson rows) = some (.array (rows.map toJson)) ∧
      listOfJson? (listToJson rows) = some rows ∧
      ∀ rows', listToJson rows' = listToJson rows ↔ rows' = rows := by
  refine ⟨parse?_listToJson rows, listOfJson?_listToJson rows, fun rows' => ⟨fun h => ?_, ?_⟩⟩
  · have hread := listOfJson?_listToJson rows'
    rw [h, listOfJson?_listToJson rows] at hread
    exact (Option.some.inj hread).symm
  · rintro rfl
    rfl

end AccessControl.Policy.Row
