import AccessControl.Proofs.Monitor.Decision
import AccessControl.Proofs.Monitor.Rows
import AccessControl.Proofs.Policy.RowJson
import Mathlib.Data.List.Nodup

namespace AccessControl.Monitor

open Policy

theorem insertNew_of_nodup {stored rows : List Row} (h : (stored ++ rows).Nodup) :
    insertNew stored rows = stored ++ rows := by
  induction rows generalizing stored with
  | nil => simp [insertNew]
  | cons r rows ih =>
    have hr : r ∉ stored := by
      intro hmem
      exact List.disjoint_of_nodup_append h hmem List.mem_cons_self
    rw [List.append_cons] at h
    have hstep : insertNew stored (r :: rows) = insertNew (stored ++ [r]) rows := by
      simp [insertNew, hr]
    rw [hstep, ih h, ← List.append_cons]

theorem insertNew_of_subset {stored rows : List Row} (h : ∀ row ∈ rows, row ∈ stored) :
    insertNew stored rows = stored := by
  obtain ⟨added, heq, hnew, -⟩ := insertNew_eq_append stored rows
  have hnil : added = [] := by
    refine List.eq_nil_iff_forall_not_mem.mpr fun row hrow => hnew row hrow ?_
    have hmem : row ∈ insertNew stored rows := by
      rw [heq]
      exact List.mem_append_right _ hrow
    rcases mem_insertNew.mp hmem with hstored | hgiven
    · exact hstored
    · exact h row hgiven
  rw [heq, hnil, List.append_nil]

section

variable {m : Monitor} {rows : List Row}

theorem mapM_asStored (h : ∀ row ∈ rows, Conforms m.model row) :
    rows.mapM m.asStored = .ok rows := by
  induction rows with
  | nil => rfl
  | cons row rows ih =>
    obtain ⟨hrow, hrows⟩ := List.forall_mem_cons.mp h
    rw [List.mapM_cons, asStored_of_conforms hrow, ih hrows]
    rfl

theorem addMany_of_conforms (h : ∀ row ∈ rows, Conforms m.model row) :
    m.addMany rows = .ok (m.inserted rows) :=
  addMany_of_mapM (mapM_asStored h)

theorem importJson_exportJson (m m' : Monitor) :
    m'.importJson m.exportJson = m'.addMany m.rows := by
  rw [importJson, exportJson, Row.listOfJson?_listToJson]

end

/-- A new monitor reads all rows that are written by one of the same model. -/
theorem importJson_of_empty {m fresh : Monitor} (hm : Sound m) (hmodel : fresh.model = m.model)
    (hempty : fresh.rows = []) : ∃ loaded,
      fresh.importJson m.exportJson = .ok (m.rows.length, loaded) ∧ Keeps fresh loaded ∧
      loaded.rows = m.rows := by
  have hinsert : insertNew fresh.rows m.rows = m.rows := by
    rw [hempty]
    exact insertNew_of_nodup hm.nodup
  have hconforms : ∀ row ∈ m.rows, Conforms fresh.model row := by
    rw [hmodel]
    exact hm.conforms
  have hrows := rows_inserted fresh m.rows
  have hlen := length_inserted fresh m.rows
  rw [hinsert] at hrows hlen
  rw [hempty, List.length_nil, Nat.zero_add] at hlen
  refine ⟨(fresh.inserted m.rows).2, ?_, keeps_inserted fresh m.rows, hrows⟩
  rw [importJson_exportJson, addMany_of_conforms hconforms, hlen]

/-- A monitor that reads what it has written itself is as it was. -/
theorem importJson_self {m : Monitor} (hm : Sound m) : m.importJson m.exportJson = .ok (0, m) := by
  have hinsert : insertNew m.rows m.rows = m.rows := insertNew_of_subset fun _ => id
  rw [importJson_exportJson, addMany_of_conforms hm.conforms]
  simp [inserted, hinsert]

/-- All rows that a monitor writes are read by a new one of the same model, which then holds the
same rows, and where the functions are the same it gives the same reply to every operation. Read
back by the monitor itself they change nothing. -/
theorem export_reproduces_monitor {m fresh : Monitor} {setup : Setup} (hm : Reachable m)
    (hfresh : setup.build = .ok fresh) (hmodel : fresh.model = m.model) :
    (∃ loaded, fresh.importJson m.exportJson = .ok (m.rows.length, loaded) ∧
      loaded.rows = m.rows ∧
      (fresh.functions = m.functions → ∀ op, loaded.reply op = m.reply op)) ∧
    m.importJson m.exportJson = .ok (0, m) := by
  refine ⟨?_, importJson_self hm.sound⟩
  have hreachable : Reachable fresh := .built hfresh
  obtain ⟨loaded, himport, hkeeps, hrows⟩ :=
    importJson_of_empty hm.sound hmodel (build_rows hfresh)
  refine ⟨loaded, himport, hrows, fun hfunctions op => ?_⟩
  have hprogram := hm.program_eq hreachable hmodel
  have hloaded : Reachable loaded := by
    have hperform : (fresh.perform (.importJson m.exportJson)).result =
        .ok (.count m.rows.length, loaded) := by
      rw [perform, himport]
      rfl
    exact after_of_perform hperform ▸ hreachable.after _
  have hforgetful : loaded.forgetful = m.forgetful := by
    obtain ⟨rows, recent, rfl⟩ := hkeeps
    simp only [forgetful, hmodel, hprogram, hfunctions] at hrows ⊢
    rw [hrows]
  rw [← reply_forgetful hloaded.faithful, ← reply_forgetful hm.faithful, hforgetful]

/-- With a denial that no value tells of, and characters that have to be escaped, read by a monitor
with memory. -/
theorem export_reproduces_monitor_watched :
    let barred : Row := ⟨"q", ["\"a\\\n\x01é"], .deny⟩
    let denial : Row := ⟨"p", ["", "deny"], .deny⟩
    let m := watched.after (.addMany [barred, denial])
    let fresh := { watched with recent := some (.empty 2) }
    Reachable m ∧ Setup.build ⟨some watchedText, none, 8, some 2, false, [], []⟩ = .ok fresh ∧
    fresh.model = m.model ∧ fresh.functions = m.functions ∧ m.rows = [barred, denial] ∧
    (∃ loaded, fresh.importJson m.exportJson = .ok (2, loaded) ∧ loaded.rows = [barred, denial] ∧
      loaded.reply (.decide [""]) = m.reply (.decide [""])) ∧
    m.importJson m.exportJson = .ok (0, m) := by
  intro barred denial m fresh
  have hm : Reachable m := (Reachable.built build_watched).after _
  have hfresh := build_watched_with (some 2)
  have hmodel : fresh.model = m.model := rfl
  have hfunctions : fresh.functions = m.functions := rfl
  have hrows : m.rows = [barred, denial] := rfl
  obtain ⟨⟨loaded, himport, hloaded, hreply⟩, hself⟩ := export_reproduces_monitor hm hfresh hmodel
  rw [hrows] at himport hloaded
  exact ⟨hm, hfresh, hmodel, hfunctions, hrows,
    ⟨loaded, himport, hloaded, hreply hfunctions _⟩, hself⟩

end AccessControl.Monitor
