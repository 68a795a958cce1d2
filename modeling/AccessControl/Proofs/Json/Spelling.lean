import AccessControl.Json.Printer
import AccessControl.Proofs.Json.Quoted
import AccessControl.Proofs.Json.Reading

namespace AccessControl.Json

/-- The tokens of a text, whatever comes behind it. -/
def Scans (cs : List Char) (ts : List Token) : Prop :=
  ∀ rest, scan? (cs ++ rest) = (scan? rest).map (ts ++ ·)

theorem scans_append {cs cs' : List Char} {ts ts' : List Token} (h : Scans cs ts)
    (h' : Scans cs' ts') : Scans (cs ++ cs') (ts ++ ts') := by
  intro rest
  rw [List.append_assoc, h, h', Option.map_map]
  congr 1
  funext ts''
  exact (List.append_assoc ts ts' ts'').symm

theorem scan?_cons {c : Char} {t : Token} {n : Nat} {cs : List Char} (hblank : isBlank c = false)
    (h : munch? c cs = some (t, n)) : scan? (c :: cs) = (scan? (cs.drop n)).map (t :: ·) := by
  rw [scan?, if_neg (by simp [hblank]), h]
  cases hscan : scan? (cs.drop n) <;> simp [hscan]

/-- A character that is a token by itself. -/
theorem scans_singleton {c : Char} {t : Token} (hblank : isBlank c = false)
    (h : ∀ cs, munch? c cs = some (t, 0)) : Scans [c] [t] := by
  intro rest
  exact scan?_cons hblank (h rest)

theorem scans_blank {cs : List Char} (h : ∀ c ∈ cs, isBlank c = true) : Scans cs [] := by
  intro rest
  induction cs with
  | nil => simp
  | cons c cs ih =>
    obtain ⟨hc, hcs⟩ := List.forall_mem_cons.mp h
    rw [List.cons_append, scan?, if_pos hc]
    exact ih hcs

theorem scans_newline (level : Nat) : Scans (newline level) [] := by
  apply scans_blank
  intro c hc
  rcases List.mem_cons.mp hc with rfl | hc
  · rfl
  · rw [List.eq_of_mem_replicate hc]
    rfl

theorem scans_quote (s : String) : Scans (quote s) [.scalar (.string (some s))] := by
  intro rest
  obtain ⟨ps, hread, hps⟩ := pieces?_quote s rest
  have hmunch : munch? '"' (s.toList.flatMap escapeChar ++ '"' :: rest) =
      some (.scalar (.string (some s)), (s.toList.flatMap escapeChar ++ ['"']).length) := by
    simp [munch?, hread, hps]
  have hscan := scan?_cons rfl hmunch
  rw [List.append_cons, List.drop_left] at hscan
  simpa [quote] using hscan

theorem scans_comma_newline (level : Nat) : Scans (',' :: newline level) [.comma] :=
  scans_append (scans_singleton rfl fun _ => rfl) (scans_newline level)

/-- Between its brackets a container has the tokens of its parts, with commas between them. -/
theorem scans_enclose {left right : Char} {opening closing : Token} {parts : List (List Char)}
    {tss : List (List Token)} (hleft : Scans [left] [opening]) (hright : Scans [right] [closing])
    (h : List.Forall₂ Scans parts tss) (level : Nat) :
    Scans (enclose left right level parts) (opening :: separated tss ++ [closing]) := by
  cases h with
  | nil => exact scans_append hleft hright
  | @cons p ts ps tss hp hps =>
    have hlater : Scans (ps.flatMap fun q => ',' :: newline (level + 1) ++ q)
        (tss.flatMap (.comma :: ·)) := by
      induction hps with
      | nil => exact scans_blank fun c hc => nomatch hc
      | cons hq _ ih => exact scans_append (scans_append (scans_comma_newline _) hq) ih
    have hopen := scans_append hleft (scans_newline (level + 1))
    have hclose := scans_append (scans_newline level) hright
    have hall := scans_append (scans_append (scans_append hopen hp) hlater) hclose
    simpa [enclose, separated] using hall

/-- The text is the value, written in some way that whatever follows leaves alone. -/
def Spells (cs : List Char) (j : Json) : Prop :=
  Scans cs j.tokens

theorem spells_quote (s : String) : Spells (quote s) (.string (some s)) :=
  scans_quote s

theorem spells_array {parts : List (List Char)} {items : List Json}
    (h : List.Forall₂ Spells parts items) (level : Nat) :
    Spells (enclose '[' ']' level parts) (.array items) := by
  have hleft : Scans ['['] [.openArray] := scans_singleton rfl fun _ => rfl
  have hright : Scans [']'] [.closeArray] := scans_singleton rfl fun _ => rfl
  have hparts : List.Forall₂ Scans parts (itemTokens items) := by
    rw [itemTokens_eq_map]
    exact List.forall₂_map_right_iff.mpr h
  exact scans_enclose hleft hright hparts level

theorem spells_object {parts : List (List Char)} {members : List (Option String × Json)}
    (h : List.Forall₂ (fun part m => Scans part (memberToken m)) parts members) (level : Nat) :
    Spells (enclose '\x7b' '\x7d' level parts) (.object members) := by
  have hleft : Scans ['\x7b'] [.openObject] := scans_singleton rfl fun _ => rfl
  have hright : Scans ['\x7d'] [.closeObject] := scans_singleton rfl fun _ => rfl
  have hparts : List.Forall₂ Scans parts (memberTokens members) := by
    rw [memberTokens_eq_map]
    exact List.forall₂_map_right_iff.mpr h
  exact scans_enclose hleft hright hparts level

/-- A text that spells a value is read as it. -/
theorem parse?_of_spells {cs : List Char} {j : Json} (h : Spells cs j) :
    parse? (.ofList cs) = some j := by
  have hscan : scan? cs = some j.tokens := by
    have hnil := h []
    simpa [scan?] using hnil
  have hread : j.tokens.foldlM Reader.step? .start = some ⟨.nothing, [], j⟩ :=
    reads_tokens j .value [] (.inl rfl)
  simp [parse?, hscan, hread]

end AccessControl.Json
