import Mathlib.Logic.Function.Basic
import TreeMatch.Proofs.Composing

/-!
# Reports and what was recorded in them

Every change of a register records outcomes in a report: a single one, those of another report, or
the failures of one in a new report. A `Chronicle` is registers with everything that was recorded in
the report of each of them, in order. One change writes down just the recordings that it makes
(`Registers.get_update`), so that after any changes every report is the replay of what was recorded
in it (`Chronicle.isFaithful_run`). What such a report holds can be read off the recordings: the
texts in the order in which they first came, and under each of them the outcome that came last
(`reflects_replay`). What it says of itself is consistent because every outcome stands under the
text of its path (`Coherent.isConsistent`). The main statement has both for all registers after any
changes (`run_reflects_recordings`).
-/

namespace TreeMatch.Report

/-! ## Reports that reflect recordings -/

/-- What was recorded last under a text. -/
def lastUnder (text : String) (trace : List (Path × Outcome)) : Option (Path × Outcome) :=
  trace.findRev? (·.1.render == text)

/-- The report is what a sequence of recordings makes of an empty one. -/
structure Reflects (r : Report) (trace : List (Path × Outcome)) : Prop extends r.Coherent where
  /-- The texts stand in the order in which they were first recorded. -/
  order : r.paths = (trace.map (·.1.render)).eraseDups
  /-- Under every text stands the outcome that was last recorded there, with the path it was
  recorded at in place of its own. -/
  last : ∀ text, r.get? text = (lastUnder text trace).map fun e => { e.2 with path := e.1 }

/-- A recording is the last one under its own text, and no matter for any other one. -/
theorem lastUnder_concat (text : String) (trace : List (Path × Outcome)) (e : Path × Outcome) :
    lastUnder text (trace ++ [e]) = if text = e.1.render then some e else lastUnder text trace := by
  rw [lastUnder, lastUnder, List.findRev?_eq_find?_reverse, List.findRev?_eq_find?_reverse,
    List.reverse_concat, List.find?_cons]
  by_cases h : text = e.1.render
  · rw [if_pos h, h, beq_self_eq_true]
  · rw [if_neg h, beq_false_of_ne (Ne.symm h)]

/-- Under every text a replay has the outcome that was last recorded there. -/
theorem get?_replay (text : String) (trace : List (Path × Outcome)) :
    (replay trace).get? text =
      (lastUnder text trace).map fun e => { e.2 with path := e.1 } := by
  induction trace using List.reverseRecOn with
  | nil => rfl
  | append_singleton trace e ih =>
    have hlast : replay (trace ++ [e]) = (replay trace).record e.1 e.2 := replay_append trace [e]
    rw [hlast, get?_record, lastUnder_concat, ih]
    split
    · rfl
    · rfl

/-- A replay reflects the recordings that it replays. -/
theorem reflects_replay (trace : List (Path × Outcome)) : (replay trace).Reflects trace where
  toCoherent := coherent_replay trace
  order := paths_recordAll_empty trace
  last text := get?_replay text trace

/-! ## What a report says of itself -/

/-- All that a report says of itself agrees with its entries. -/
structure IsConsistent (r : Report) : Prop where
  /-- It counts its texts. -/
  size_eq : r.size = r.paths.length
  /-- As a whole it shows its entries. -/
  fields_eq : r.overview.fields = r.entries
  /-- As a whole it counts as many texts. -/
  checked_eq : r.overview.checked = r.size
  /-- As a whole it counts its failures. -/
  failed_eq : r.overview.failed = r.failures.length
  /-- As a whole it is valid if it succeeded. -/
  valid_eq : r.overview.valid = r.succeeded
  /-- It succeeded exactly if it has no failures. -/
  succeeded_iff : r.succeeded = true ↔ r.failures = []
  /-- The report of its failures has the entries that failed, in their order. -/
  errors_eq : r.detailedErrors.entries = r.entries.filter (!·.2.valid)
  /-- There are as many of these as failures. -/
  size_errors : r.detailedErrors.size = r.failures.length
  /-- To merge the report of its failures into it changes nothing. -/
  merge_errors : r.merge r.detailedErrors = r

/-- The failures are the outcomes of the entries that failed. -/
theorem failures_eq_map (r : Report) :
    r.failures = (r.entries.filter (!·.2.valid)).map (·.2) := by
  rw [failures, outcomes, List.filter_map]
  rfl

/-- A report succeeded if it has no failures. -/
theorem succeeded_iff_failures_eq_nil (r : Report) : r.succeeded = true ↔ r.failures = [] := by
  rw [succeeded, failures, List.all_eq_true, List.filter_eq_nil_iff]
  exact forall₂_congr fun o _ => by rw [Bool.not_eq_true', Bool.not_eq_false]

/-- To list the failures is to replay them at their paths. -/
theorem detailedErrors_eq_replay (r : Report) :
    r.detailedErrors = replay (r.failures.map fun o => (o.path, o)) := by
  rw [detailedErrors, replay, recordAll, List.foldl_map]

/-- The report of the failures has the entries that failed, in their order. -/
theorem Coherent.entries_detailedErrors {r : Report} (h : r.Coherent) :
    r.detailedErrors.entries = r.entries.filter (!·.2.valid) := by
  -- Each outcome stands under the text of its path, so the failures have those of their entries.
  have htexts : (r.failures.map fun o => (o.path, o)).map (·.1.render) =
      (r.entries.filter (!·.2.valid)).map (·.1) := by
    rw [failures_eq_map, List.map_map, List.map_map]
    exact List.map_congr_left fun e he => (h.aligned e (List.mem_of_mem_filter he)).symm
  have hnodup : ((r.failures.map fun o => (o.path, o)).map (·.1.render)).Nodup := by
    rw [htexts]
    exact h.distinct.sublist (List.filter_sublist.map _)
  have hsame : ∀ e ∈ r.entries.filter (!·.2.valid), (e.2.path.render, e.2) = e := fun e he =>
    Prod.ext (h.aligned e (List.mem_of_mem_filter he)).symm rfl
  rw [detailedErrors_eq_replay, replay,
    entries_recordAll_of_nodup (fun _ _ => List.not_mem_nil) hnodup, failures_eq_map, List.map_map,
    List.map_map]
  exact (List.map_congr_left hsame).trans (List.map_id _)

/-- A report in which every outcome stands under the text of its path is consistent. -/
theorem Coherent.isConsistent {r : Report} (h : r.Coherent) : r.IsConsistent where
  size_eq := by rw [size, paths, List.length_map]
  fields_eq := rfl
  checked_eq := rfl
  failed_eq := rfl
  valid_eq := rfl
  succeeded_iff := r.succeeded_iff_failures_eq_nil
  errors_eq := h.entries_detailedErrors
  size_errors := by
    rw [size, h.entries_detailedErrors, failures_eq_map, List.length_map]
  merge_errors := by
    have herrors : r.detailedErrors.Coherent := r.detailedErrors_eq_replay ▸ coherent_replay _
    rw [herrors.merge_eq, h.entries_detailedErrors,
      Assoc.setAll_of_subset h.distinct (List.filter_subset_self _)]

/-! ## Changes and what they record -/

namespace Update

/-- The register that a change writes. -/
def target : Update → String
  | .record register _ _ | .merge register _ | .detailedErrors register _ => register

/-- What a change goes on from: what its register holds, or something new if it makes a report of
failures. -/
def base {β : Type} (held : String → β) (new : β) : Update → β
  | .record register _ _ | .merge register _ => held register
  | .detailedErrors _ _ => new

/-- The outcomes that a change records in its register, in order. -/
def recordings (rs : Registers) : Update → List (Path × Outcome)
  | .record _ path outcome => [(path, outcome)]
  | .merge _ source => (rs.get source).eachResult
  | .detailedErrors _ source => (rs.get source).failures.map fun o => (o.path, o)

/-- What a change goes on from may be computed before or after it is chosen. -/
theorem apply_base {β γ : Type} (f : β → γ) (held : String → β) (new : β) (u : Update) :
    f (u.base held new) = u.base (fun name => f (held name)) (f new) := by
  cases u with
  | record _ _ _ | merge _ _ | detailedErrors _ _ => rfl

end Update

/-- A change records its outcomes in the report that it goes on from, and leaves every register but
its own alone. -/
theorem Registers.get_update (rs : Registers) (u : Update) (name : String) :
    (rs.update u).get name =
      if name = u.target then (u.base rs.get Report.empty).recordAll (u.recordings rs)
      else rs.get name := by
  cases u with
  | record register path outcome => exact get_set _ _ _ _
  | merge register source => exact get_set _ _ _ _
  | detailedErrors register source =>
    rw [update, get_set, detailedErrors_eq_replay]
    rfl

/-- Registers with everything that was recorded in the report of each of them since it was new. -/
structure Chronicle where
  /-- The registers. -/
  registers : Registers
  /-- The recordings in the report of a register, in order. -/
  trace : String → List (Path × Outcome)

namespace Chronicle

/-- Registers that were never written. -/
def empty : Chronicle := ⟨Registers.empty, fun _ => []⟩

/-- Applies one change, and writes down the recordings that it makes. -/
def update (c : Chronicle) (u : Update) : Chronicle where
  registers := c.registers.update u
  trace := Function.update c.trace u.target (u.base c.trace [] ++ u.recordings c.registers)

/-- Applies changes in order, beginning with registers that were never written. -/
def run (us : List Update) : Chronicle := us.foldl update empty

/-- Every report is what the recordings in it make of an empty one. -/
def IsFaithful (c : Chronicle) : Prop :=
  ∀ name, c.registers.get name = replay (c.trace name)

/-- A change keeps a chronicle faithful. -/
theorem IsFaithful.update {c : Chronicle} (h : c.IsFaithful) (u : Update) :
    (c.update u).IsFaithful := by
  intro name
  show (c.registers.update u).get name = replay (Function.update c.trace u.target _ name)
  rw [Registers.get_update, Function.update_apply]
  by_cases hname : name = u.target
  · have hbase : u.base c.registers.get Report.empty = replay (u.base c.trace []) := by
      rw [Update.apply_base replay, ← funext h]
      rfl
    rw [if_pos hname, if_pos hname, replay_append, hbase]
  · rw [if_neg hname, if_neg hname, h name]

/-- A chronicle is faithful after any changes. -/
theorem isFaithful_run (us : List Update) : (run us).IsFaithful := by
  induction us using List.reverseRecOn with
  | nil => exact fun _ => rfl
  | append_singleton us u ih =>
    rw [run, List.foldl_append]
    exact ih.update u

/-- Writing down the recordings does not change what happens to the registers. -/
theorem registers_run (us : List Update) : (run us).registers = Registers.run us := by
  induction us using List.reverseRecOn with
  | nil => rfl
  | append_singleton us u ih =>
    rw [run, Registers.run, List.foldl_append, List.foldl_append, ← run, ← Registers.run, ← ih]
    rfl

end Chronicle

/-- After any changes, let `trace` be everything that was recorded in the report of a register since
it was new. Then the keys of this report are distinct and each the text of the path of its outcome;
they stand in the order in which they were first recorded, each with the outcome that was recorded
last, at the path where it was recorded. The report counts its outcomes and failures as they are; it
succeeded exactly if it has no failures; and the report of its failures has the entries that failed
in their order, so that to merge it into the report changes nothing. -/
theorem run_reflects_recordings (us : List Update) (name : String) :
    (Chronicle.run us).registers = Registers.run us ∧
    ((Registers.run us).get name).Reflects ((Chronicle.run us).trace name) ∧
    ((Registers.run us).get name).IsConsistent := by
  have hreplay : (Registers.run us).get name = replay ((Chronicle.run us).trace name) := by
    rw [← Chronicle.registers_run]
    exact Chronicle.isFaithful_run us name
  rw [hreplay]
  exact ⟨Chronicle.registers_run us, reflects_replay _, (coherent_replay _).isConsistent⟩

end TreeMatch.Report
