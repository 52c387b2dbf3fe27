import TreeMatch.Report.Basic

/-!
# Named reports

Several reports under names, changed step by step. A name that was never written holds the empty
report.
-/

namespace TreeMatch.Report

/-- Reports under names. -/
structure Registers where
  /-- The names with their reports. -/
  entries : List (String × Report)

/-- A change of one register. -/
inductive Update where
  /-- Records an outcome in a register. -/
  | record (register : String) (path : Path) (outcome : Outcome)
  /-- Merges one register into another; the two may be the same. -/
  | merge (register source : String)
  /-- Stores the failures of one register in another; the two may be the same. -/
  | detailedErrors (register source : String)

namespace Registers

/-- Registers that were never written. -/
def empty : Registers := ⟨[]⟩

/-- The report in a register. -/
def get (rs : Registers) (name : String) : Report :=
  (Assoc.get? (· == ·) name rs.entries).getD Report.empty

/-- Replaces the report in a register. -/
def set (rs : Registers) (name : String) (r : Report) : Registers :=
  ⟨Assoc.set (· == ·) name r rs.entries⟩

/-- Applies one change. -/
def update (rs : Registers) : Update → Registers
  | .record register path outcome => rs.set register ((rs.get register).record path outcome)
  | .merge register source => rs.set register ((rs.get register).merge (rs.get source))
  | .detailedErrors register source => rs.set register (rs.get source).detailedErrors

/-- Applies changes in order, beginning with registers that were never written. -/
def run (updates : List Update) : Registers := updates.foldl update empty

end Registers

end TreeMatch.Report
