import Mathlib.Data.List.Basic
import TreeMatch.Log.Session

/-!
# What a history of setups leaves of a session

A setup of a session ends in one of three ways (`setup_cases`): it returns, with the level and the
handlers that it was asked for; its file cannot be opened, and nothing has changed; or there is no
level of the given name, and then the handlers there were are gone and no new ones have come. What
happens between setups, records that are logged and files that change, concerns neither the level
nor the handlers. So after any history (`setup_history`) the level is that of the last setup that
returned. The handlers are those of this setup as well, unless a later one asked for a level that
there is not; then there are none until a setup returns again.
-/

namespace TreeMatch

/-- What a setup is asked for. -/
structure SetupCall where
  /-- The name of the level. -/
  level : String
  /-- The format of the lines. -/
  format : LineFormat
  /-- The file to write to as well. -/
  file : Option String

namespace SetupCall

/-- The level that is asked for, if there is one of this name in any case. -/
def number? (c : SetupCall) : Option Int := LogSession.levelsByName.lookup (Text.upper c.level)

/-- Where the handlers that are asked for write: to the output, and to the file if it has a name. -/
def targets (c : SetupCall) : List LogTarget :=
  match c.file with
  | none | some "" => [.output]
  | some path => [.output, .file (Disk.normalNames (.ofText path))]

/-- The handlers that are asked for. -/
def handlers (c : SetupCall) : List LogHandler := c.targets.map (⟨·, c.format⟩)

end SetupCall

/-- Whether a setup failed because there is no level of the name. -/
def SetupFault.isUnknownLevel : SetupFault → Bool
  | .unknownLevel _ => true
  | _ => false

/-- A setup with how it ended. -/
structure SetupResult where
  /-- What was asked for. -/
  call : SetupCall
  /-- Why it failed, if it did. -/
  fault : Option SetupFault

namespace SetupResult

/-- Whether the setup returned. -/
def returned (r : SetupResult) : Bool := r.fault.isNone

/-- Whether the setup got as far as to remove the handlers there were: its file could be opened. -/
def opened (r : SetupResult) : Bool := r.fault.all (·.isUnknownLevel)

/-- The handlers after a setup that got so far. -/
def handlers (r : SetupResult) : List LogHandler := if r.returned then r.call.handlers else []

end SetupResult

/-- What happens to a session. -/
inductive LogEvent where
  /-- It is set up. -/
  | setup (c : SetupCall)
  /-- A record is logged. -/
  | record (time : String) (r : LogRecord)
  /-- The files are changed by someone else. -/
  | files (disk : Disk)

namespace LogSession

/-- Sets the session up as a call asks for. -/
def call (s : LogSession) (c : SetupCall) : LogSession × Option SetupFault :=
  s.setup c.level c.format c.file

/-- The session after an event. -/
def after (s : LogSession) : LogEvent → LogSession
  | .setup c => (s.call c).1
  | .record time r => s.log time r
  | .files disk => { s with disk }

/-- The session after a history of events. -/
def run (s : LogSession) (es : List LogEvent) : LogSession := es.foldl after s

/-- The setups of a history with how they ended, in order. -/
def results (s : LogSession) : List LogEvent → List SetupResult
  | [] => []
  | .setup c :: es => ⟨c, (s.call c).2⟩ :: (s.after (.setup c)).results es
  | e :: es => (s.after e).results es

/-! ## One event -/

/-- To open the file of a setup changes nothing but the files, and the targets are then those that
are asked for. -/
theorem openFile_ok {s s' : LogSession} {c : SetupCall} {targets : List LogTarget}
    (h : s.openFile c.file = .ok (s', targets)) :
    s' = { s with disk := s'.disk } ∧ .output :: targets = c.targets := by
  unfold openFile at h
  split at h
  · rename_i hfile
    obtain ⟨rfl, rfl⟩ := Prod.mk.inj (Except.ok.inj h)
    exact ⟨rfl, by simp only [SetupCall.targets, hfile]⟩
  · rename_i hfile
    obtain ⟨rfl, rfl⟩ := Prod.mk.inj (Except.ok.inj h)
    exact ⟨rfl, by simp only [SetupCall.targets, hfile]⟩
  · rename_i path hname hfile
    split at h
    · cases h
    · dsimp only at h
      split at h
      · cases h
      · obtain ⟨rfl, rfl⟩ := Prod.mk.inj (Except.ok.inj h)
        refine ⟨rfl, ?_⟩
        unfold SetupCall.targets
        rw [hfile]
        split
        · rename_i hnone
          cases hnone
        · rename_i hempty
          exact absurd (Option.some.inj hempty) hname
        · rename_i hpath
          rw [Option.some.inj hpath]

/-- That a file cannot be opened says nothing of a level. -/
theorem isUnknownLevel_of_openFile {s : LogSession} {file : Option String} {f : SetupFault}
    (h : s.openFile file = .error f) : f.isUnknownLevel = false := by
  unfold openFile at h
  split at h
  · exact nomatch h
  · exact nomatch h
  · split at h
    · obtain rfl := Except.error.inj h
      rfl
    · dsimp only at h
      split at h
      · obtain rfl := Except.error.inj h
        rfl
      · exact nomatch h

/-- A setup returns, with the level and the handlers that it was asked for; or its file cannot be
opened, and the session is as it was; or there is no level of the name, and then no handlers are
left. -/
theorem setup_cases (s : LogSession) (c : SetupCall) :
    (∃ n disk, c.number? = some n ∧ (s.openFile c.file).isOk = true ∧
      s.call c = ({ s with level := n, handlers := c.handlers, disk }, none)) ∨
    (∃ f, (s.openFile c.file).isOk = false ∧ f.isUnknownLevel = false ∧ s.call c = (s, some f)) ∨
    ∃ disk, c.number? = none ∧
      s.call c = ({ s with handlers := [], disk }, some (.unknownLevel (Text.upper c.level))) := by
  unfold call setup
  cases hopen : s.openFile c.file with
  | error f => exact .inr (.inl ⟨f, rfl, isUnknownLevel_of_openFile hopen, rfl⟩)
  | ok opened =>
    obtain ⟨s', targets⟩ := opened
    obtain ⟨hs, htargets⟩ := openFile_ok hopen
    rw [hs]
    dsimp only
    have hnumber : levelsByName.lookup (Text.upper c.level) = c.number? := rfl
    rw [hnumber]
    cases c.number? with
    | none => exact .inr (.inr ⟨s'.disk, rfl, rfl⟩)
    | some n =>
      refine .inl ⟨n, s'.disk, rfl, rfl, ?_⟩
      rw [htargets]
      rfl

/-- A record that is logged changes neither the level nor the handlers. -/
theorem log_keeps (s : LogSession) (time : String) (r : LogRecord) :
    (s.log time r).level = s.level ∧ (s.log time r).handlers = s.handlers := by
  have hwrite (s : LogSession) (h : LogHandler) :
      (write time r s h).level = s.level ∧ (write time r s h).handlers = s.handlers := by
    unfold write
    split
    · exact ⟨rfl, rfl⟩
    · dsimp only
      split
      · exact ⟨rfl, rfl⟩
      · exact ⟨rfl, rfl⟩
  unfold log
  split
  · refine List.foldlRecOn s.handlers (write time r)
      (motive := fun s' => s'.level = s.level ∧ s'.handlers = s.handlers) ⟨rfl, rfl⟩ ?_
    intro s' hs' h _
    exact ⟨(hwrite s' h).1.trans hs'.1, (hwrite s' h).2.trans hs'.2⟩
  · exact ⟨rfl, rfl⟩

/-- What happens between setups changes neither the level nor the handlers. -/
theorem after_keeps (s : LogSession) {e : LogEvent} (h : ∀ c, e ≠ .setup c) :
    (s.after e).level = s.level ∧ (s.after e).handlers = s.handlers := by
  cases e with
  | setup c => exact absurd rfl (h c)
  | record time r => exact log_keeps s time r
  | files disk => exact ⟨rfl, rfl⟩

/-- A setup returns if there is a level of the name and its file can be opened. -/
theorem call_returns_iff (s : LogSession) (c : SetupCall) :
    (s.call c).2 = none ↔ c.number?.isSome = true ∧ (s.openFile c.file).isOk = true := by
  rcases setup_cases s c with ⟨n, disk, hn, hopen, hcall⟩ | ⟨f, hopen, -, hcall⟩ | ⟨disk, hn, hcall⟩
  · simp [hcall, hn, hopen]
  · simp [hcall, hopen]
  · simp [hcall, hn]

/-- The level after a setup is the one that was asked for if it returned, else the one before. -/
theorem level_call (s : LogSession) (c : SetupCall) :
    some (s.call c).1.level =
      if (SetupResult.mk c (s.call c).2).returned then c.number? else some s.level := by
  rcases setup_cases s c with ⟨n, disk, hn, -, hcall⟩ | ⟨f, -, -, hcall⟩ | ⟨disk, -, hcall⟩
  · rw [hcall, hn]
    rfl
  · rw [hcall]
    rfl
  · rw [hcall]
    rfl

/-- The handlers after a setup are the ones before if its file could not be opened. -/
theorem handlers_call (s : LogSession) (c : SetupCall) :
    (s.call c).1.handlers =
      if (SetupResult.mk c (s.call c).2).opened then (SetupResult.mk c (s.call c).2).handlers
      else s.handlers := by
  rcases setup_cases s c with ⟨n, disk, -, -, hcall⟩ | ⟨f, -, hf, hcall⟩ | ⟨disk, -, hcall⟩
  · rw [hcall]
    rfl
  · have hnot : (SetupResult.mk c (some f)).opened = false := hf
    rw [hcall, hnot]
    rfl
  · rw [hcall]
    rfl

/-! ## A history -/

/-- What the last member of a class decides, if a list begins with `a`. -/
theorem elim_getLast?_filter_cons {α β : Type} (p : α → Bool) (v : α → β) (start : β) (a : α)
    (l : List α) :
    ((a :: l).filter p).getLast?.elim start v =
      (l.filter p).getLast?.elim (if p a then v a else start) v := by
  cases h : p a with
  | false => simp [h]
  | true =>
    rw [List.filter_cons, if_pos h, List.getLast?_cons]
    cases (l.filter p).getLast? with
    | none => rfl
    | some b => rfl

/-- A quantity that every setup of a class sets, and nothing else changes, is after a history what
the last setup of that class has set it to. -/
theorem run_eq_last {β : Type} (view : LogSession → β) (p : SetupResult → Bool)
    (v : SetupResult → β)
    (hsetup : ∀ s c, view (s.call c).1 =
      if p ⟨c, (s.call c).2⟩ then v ⟨c, (s.call c).2⟩ else view s)
    (hother : ∀ (s : LogSession) e, (∀ c, e ≠ LogEvent.setup c) → view (s.after e) = view s)
    (s : LogSession) (es : List LogEvent) :
    view (s.run es) = ((s.results es).filter p).getLast?.elim (view s) v := by
  induction es generalizing s with
  | nil => rfl
  | cons e es ih =>
    have hrun : s.run (e :: es) = (s.after e).run es := rfl
    rw [hrun, ih]
    cases e with
    | setup c =>
      have hresults : s.results (.setup c :: es) =
          ⟨c, (s.call c).2⟩ :: (s.after (.setup c)).results es := rfl
      rw [hresults, elim_getLast?_filter_cons, ← hsetup s c]
      rfl
    | record time r =>
      rw [hother s (.record time r) fun _ h => nomatch h]
      rfl
    | files disk =>
      rw [hother s (.files disk) fun _ h => nomatch h]
      rfl

/-- The setups that returned are among those that could open their file. -/
theorem filter_returned (rs : List SetupResult) :
    rs.filter (·.returned) = (rs.filter (·.opened)).filter (·.returned) := by
  have hopened : ∀ r : SetupResult, (r.returned && r.opened) = r.returned := by
    rintro ⟨c, _ | f⟩
    · rfl
    · rfl
  rw [List.filter_filter]
  exact List.filter_congr fun r _ => (hopened r).symm

/-- If the last setup that could open its file returned, it is the last one that returned. -/
theorem getLast?_returned {rs : List SetupResult} {r : SetupResult}
    (h : (rs.filter (·.opened)).getLast? = some r) (hr : r.returned = true) :
    (rs.filter (·.returned)).getLast? = some r := by
  obtain ⟨init, hinit⟩ := List.getLast?_eq_some_iff.1 h
  rw [filter_returned, hinit, List.filter_append, List.filter_singleton, hr, cond_true,
    List.getLast?_concat]

/-- A setup asks for at least one handler. -/
theorem handlers_ne_nil (c : SetupCall) : c.handlers ≠ [] := by
  unfold SetupCall.handlers SetupCall.targets
  split
  · exact List.cons_ne_nil _ _
  · exact List.cons_ne_nil _ _
  · exact List.cons_ne_nil _ _

/-- What the last setup that could open its file has left is what the last setup that returned was
asked for exactly if the two are one, or if there is nothing that could be lost. -/
theorem handlers_of_returned_iff (rs : List SetupResult) (start : List LogHandler) :
    (rs.filter (·.opened)).getLast?.elim start (·.handlers) =
        (rs.filter (·.returned)).getLast?.elim start (·.call.handlers) ↔
      (rs.filter (·.opened)).getLast?.all (·.returned) = true ∨
      rs.filter (·.returned) = [] ∧ start = [] := by
  cases hlast : (rs.filter (·.opened)).getLast? with
  | none =>
    have hnone : rs.filter (·.returned) = [] := by
      rw [filter_returned, List.getLast?_eq_none_iff.1 hlast, List.filter_nil]
    rw [hnone]
    exact ⟨fun _ => .inl rfl, fun _ => rfl⟩
  | some r =>
    cases hr : r.returned with
    | true =>
      have hsame : r.handlers = r.call.handlers := if_pos hr
      rw [getLast?_returned hlast hr]
      exact ⟨fun _ => .inl hr, fun _ => hsame⟩
    | false =>
      -- The last one did not know the level, so there are no handlers now.
      have hnil : r.handlers = [] := if_neg (by rw [hr]; exact Bool.false_ne_true)
      have hnot : ¬ (some r).all (·.returned) = true := by
        rw [Option.all_some, hr]
        exact Bool.false_ne_true
      rw [Option.elim_some, hnil]
      rcases List.eq_nil_or_concat (rs.filter (·.returned)) with h | ⟨qs, q, h⟩
      · rw [h]
        exact ⟨fun hs => .inr ⟨rfl, hs.symm⟩, fun hs => (hs.resolve_left hnot).2.symm⟩
      · rw [h, List.concat_eq_append, List.getLast?_concat]
        exact ⟨fun hq => absurd hq.symm (handlers_ne_nil q.call),
          fun hs => absurd (hs.resolve_left hnot).1 (by simp)⟩

/-- A setup returns exactly if there is a level of the name that it is given, in any case, and the
file that it is given, if any, can be opened. After any history of setups, records and changes of
files, the level of a session is the one that the last setup asked for that returned. Its handlers
are those of the last setup that could open its file: the ones that were asked for if that setup
returned, and none if it did not know the level. So they are those of the last setup that returned
exactly if no setup with an unknown level has come after it, or if there were no handlers to lose:
none at first, and no setup that returned. -/
theorem setup_history (s : LogSession) (es : List LogEvent) :
    (∀ c, (s.call c).2 = none ↔ c.number?.isSome = true ∧ (s.openFile c.file).isOk = true) ∧
    some (s.run es).level =
      ((s.results es).filter (·.returned)).getLast?.elim (some s.level) (·.call.number?) ∧
    (s.run es).handlers =
      ((s.results es).filter (·.opened)).getLast?.elim s.handlers
        (fun r => if r.returned then r.call.handlers else []) ∧
    ((s.run es).handlers =
        ((s.results es).filter (·.returned)).getLast?.elim s.handlers (·.call.handlers) ↔
      ((s.results es).filter (·.opened)).getLast?.all (·.returned) = true ∨
      (s.results es).filter (·.returned) = [] ∧ s.handlers = []) := by
  have hhandlers := run_eq_last handlers (·.opened) (·.handlers) handlers_call
    (fun s e h => (after_keeps s h).2) s es
  refine ⟨call_returns_iff s, ?_, hhandlers, ?_⟩
  · exact run_eq_last (some ·.level) (·.returned) (·.call.number?) level_call
      (fun s e h => congrArg some (after_keeps s h).1) s es
  · rw [hhandlers]
    exact handlers_of_returned_iff (s.results es) s.handlers

/-- A setup that returns, and one that asks for a level that there is not. -/
def misspeltHistory : List LogEvent :=
  [.setup ⟨"info", .console, none⟩, .setup ⟨"loud", .json, none⟩]

/-- The second setup fails, and takes the handler of the first one away. -/
theorem misspeltHistory_loses_handlers :
    ((initial.results misspeltHistory).map (·.fault) = [none, some (.unknownLevel "LOUD")] ∧
      (initial.run misspeltHistory).level = 20 ∧ (initial.run misspeltHistory).handlers = [] ∧
      ((initial.results misspeltHistory).filter (·.returned)).getLast?.map (·.call.handlers) =
        some [⟨.output, .console⟩]) ∧
    ¬ ∀ (s : LogSession) (es : List LogEvent), (s.run es).handlers =
        ((s.results es).filter (·.returned)).getLast?.elim s.handlers (·.call.handlers) := by
  constructor
  · decide +kernel
  · intro h
    have hkept : (initial.run misspeltHistory).handlers = [⟨.output, .console⟩] :=
      (h initial misspeltHistory).trans (by decide +kernel)
    exact absurd hkept (by decide +kernel)

end LogSession

end TreeMatch
