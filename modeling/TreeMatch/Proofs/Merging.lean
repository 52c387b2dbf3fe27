import TreeMatch.Proofs.Recording
import TreeMatch.Report.Registers

/-!
# Merging is replaying

A merge takes the outcomes of another report without the texts they stand under, and records each of
them at its own path. Nothing is lost by this in a report that was built by recording, because there
every outcome has been moved to the path it was recorded at (`Coherent`). The lemma that carries the
module says that a merge goes on where the other report goes on: to merge a report that has recorded
one outcome more is to merge the report and then to record the outcome (`merge_record`). An outcome
that replaces an earlier one is no exception, since a text that has its place keeps it whatever is
set in between (`Assoc.set_setAll`). The main statement is that a merge gives the report that all
the outcomes of both would give in one sequence (`merge_replays`).
-/

namespace TreeMatch

/-! ## Setting the pairs of a list -/

namespace Assoc

variable {β : Type u}

/-- Sets the pairs of a list, in order. -/
def setAll (es ps : List (String × β)) : List (String × β) :=
  ps.foldl (fun es p => set (· == ·) p.1 p.2 es) es

/-- The value under a text after one is set. -/
theorem get?_set (k l : String) (b : β) (es : List (String × β)) :
    get? (· == ·) l (set (· == ·) k b es) = if l = k then some b else get? (· == ·) l es := by
  induction es with
  | nil => by_cases h : l = k <;> simp [set, get?, h]
  | cons e es ih =>
    by_cases hk : k = e.1
    · subst hk
      by_cases hl : l = e.1
      · simp [set, get?, hl]
      · simp [set, get?, hl]
    · have hset : set (· == ·) k b (e :: es) = e :: set (· == ·) k b es := by simp [set, hk]
      rw [hset, get?, get?, ih]
      by_cases hl : l = e.1
      · have hlk : l ≠ k := fun h => hk (h ▸ hl)
        simp [hl, Ne.symm hk]
      · simp [hl]

/-- The value under a text is the one that is looked up in any list of pairs. -/
theorem get?_eq_lookup (k : String) (es : List (String × β)) :
    get? (· == ·) k es = es.lookup k := by
  induction es with
  | nil => rfl
  | cons e es ih =>
    rw [get?, List.lookup_cons, ih]
    cases k == e.1 with
    | true => rfl
    | false => rfl

/-- A text that is set is a key. -/
theorem mem_keys_set (k : String) (b : β) (es : List (String × β)) :
    k ∈ keys (set (· == ·) k b es) := by
  rw [keys_set]
  split
  · rename_i h
    obtain ⟨l, hl, hkl⟩ := List.any_eq_true.1 h
    exact beq_iff_eq.1 hkl ▸ hl
  · exact List.mem_append_right _ List.mem_cons_self

/-- Keys stay when another text is set. -/
theorem mem_keys_set_of_mem {l : String} {es : List (String × β)} (h : l ∈ keys es) (k : String)
    (b : β) : l ∈ keys (set (· == ·) k b es) := by
  rw [keys_set]
  split
  · exact h
  · exact List.mem_append_left _ h

/-- Of two values that are set under one text the later one stays. -/
theorem set_set (k : String) (b c : β) (es : List (String × β)) :
    set (· == ·) k c (set (· == ·) k b es) = set (· == ·) k c es := by
  induction es with
  | nil => simp [set]
  | cons e es ih =>
    by_cases hk : k = e.1
    · simp [set, hk]
    · simp [set, hk, ih]

/-- A key may be set before or after another text. -/
theorem set_comm {k l : String} (hne : k ≠ l) {es : List (String × β)} (hk : k ∈ keys es)
    (b c : β) :
    set (· == ·) k b (set (· == ·) l c es) = set (· == ·) l c (set (· == ·) k b es) := by
  induction es with
  | nil =>
    -- Without a place the two texts would be added in different orders.
    exact nomatch hk
  | cons e es ih =>
    by_cases hke : k = e.1
    · have hle : l ≠ e.1 := fun h => hne (hke.trans h.symm)
      simp [set, hke, hle]
    · have hrest : k ∈ keys es := (List.mem_cons.1 hk).resolve_left hke
      by_cases hle : l = e.1
      · simp [set, hke, hle]
      · simp [set, hke, hle, ih hrest]

/-- A key may be set before or after pairs that do not set it. -/
theorem set_setAll {k : String} {ps : List (String × β)} (hps : k ∉ keys ps)
    {es : List (String × β)} (hk : k ∈ keys es) (b : β) :
    set (· == ·) k b (setAll es ps) = setAll (set (· == ·) k b es) ps := by
  induction ps generalizing es with
  | nil => rfl
  | cons p ps ih =>
    have hne : k ≠ p.1 := fun h => hps (h ▸ List.mem_cons_self)
    have hrest : k ∉ keys ps := fun h => hps (List.mem_cons_of_mem _ h)
    calc set (· == ·) k b (setAll (set (· == ·) p.1 p.2 es) ps)
        = setAll (set (· == ·) k b (set (· == ·) p.1 p.2 es)) ps :=
          ih hrest (mem_keys_set_of_mem hk _ _)
      _ = setAll (set (· == ·) p.1 p.2 (set (· == ·) k b es)) ps := by rw [set_comm hne hk]

/-- To set the pairs of a list in which a text has been set is to set the pairs, then the text. -/
theorem setAll_set {ps : List (String × β)} (hd : (keys ps).Nodup) (k : String) (b : β)
    (es : List (String × β)) :
    setAll es (set (· == ·) k b ps) = set (· == ·) k b (setAll es ps) := by
  induction ps generalizing es with
  | nil => rfl
  | cons p ps ih =>
    obtain ⟨hnot, hrest⟩ := List.nodup_cons.1 hd
    by_cases hk : k = p.1
    · -- The text keeps the place of its first pair, which no later pair sets.
      subst hk
      have hset : set (· == ·) p.1 b (p :: ps) = (p.1, b) :: ps := by simp [set]
      calc setAll es (set (· == ·) p.1 b (p :: ps))
          = setAll (set (· == ·) p.1 b es) ps := by rw [hset]; rfl
        _ = setAll (set (· == ·) p.1 b (set (· == ·) p.1 p.2 es)) ps := by rw [set_set]
        _ = set (· == ·) p.1 b (setAll (set (· == ·) p.1 p.2 es) ps) :=
          (set_setAll hnot (mem_keys_set _ _ _) b).symm
    · have hset : set (· == ·) k b (p :: ps) = p :: set (· == ·) k b ps := by simp [set, hk]
      rw [hset]
      exact ih hrest _

/-- After the pairs of a list are set, a text has the value that it has in the list, or else the one
that it had before. -/
theorem get?_setAll {ps : List (String × β)} (hd : (keys ps).Nodup) (k : String)
    (es : List (String × β)) :
    get? (· == ·) k (setAll es ps) = (get? (· == ·) k ps).or (get? (· == ·) k es) := by
  induction ps generalizing es with
  | nil => rfl
  | cons p ps ih =>
    obtain ⟨hnot, hrest⟩ := List.nodup_cons.1 hd
    show get? (· == ·) k (setAll (set (· == ·) p.1 p.2 es) ps) = _
    rw [ih hrest, get?_set, get?]
    simp only [beq_iff_eq]
    by_cases hk : k = p.1
    · -- No later pair has this text, so its value is the one that is set here.
      have hlater : get? (· == ·) k ps = none := by
        rw [get?_eq_lookup, List.lookup_eq_none_iff]
        exact fun q hq => bne_iff_ne.2 fun heq => hnot (List.mem_map.2 ⟨q, hq, heq.symm.trans hk⟩)
      rw [hlater, if_pos hk, if_pos hk, Option.none_or, Option.some_or]
    · rw [if_neg hk, if_neg hk]

/-- Setting what a text has already changes nothing. -/
theorem set_of_mem {es : List (String × β)} (hd : (keys es).Nodup) {e : String × β}
    (he : e ∈ es) : set (· == ·) e.1 e.2 es = es := by
  induction es with
  | nil => exact nomatch he
  | cons e' es ih =>
    obtain ⟨hnot, hrest⟩ := List.nodup_cons.1 hd
    rcases List.mem_cons.1 he with rfl | he
    · simp [set]
    · have hne : e.1 ≠ e'.1 := fun h => hnot (List.mem_map.2 ⟨e, he, h⟩)
      simp [set, hne, ih hrest he]

/-- Setting pairs that are there already changes nothing. -/
theorem setAll_of_subset {es ps : List (String × β)} (hd : (keys es).Nodup) (h : ps ⊆ es) :
    setAll es ps = es := by
  induction ps with
  | nil => rfl
  | cons p ps ih =>
    obtain ⟨hp, hrest⟩ := List.cons_subset.1 h
    show setAll (set (· == ·) p.1 p.2 es) ps = es
    rw [set_of_mem hd hp]
    exact ih hrest

end Assoc

/-! ## Merging reports -/

namespace Report

/-- Every outcome stands under the text of its path, and no text has two. -/
structure Coherent (r : Report) : Prop where
  /-- No text has two entries. -/
  distinct : r.Distinct
  /-- The text of an entry is that of the path of its outcome. -/
  aligned : ∀ e ∈ r.entries, e.1 = e.2.path.render

/-- The report that a sequence of records builds. -/
def replay (trace : List (Path × Outcome)) : Report := empty.recordAll trace

/-- The empty report is coherent. -/
theorem coherent_empty : empty.Coherent := ⟨distinct_empty, fun _ he => nomatch he⟩

/-- Recording keeps a report coherent, because it moves the outcome. -/
theorem Coherent.record {r : Report} (h : r.Coherent) (p : Path) (o : Outcome) :
    (r.record p o).Coherent := by
  refine ⟨h.distinct.record p o, fun e he => ?_⟩
  rcases (mem_entries_record h.distinct).1 he with rfl | ⟨he, -⟩
  · rfl
  · exact h.aligned e he

/-- Recording outcomes keeps a report coherent. -/
theorem Coherent.recordAll {r : Report} (h : r.Coherent) (os : List (Path × Outcome)) :
    (r.recordAll os).Coherent := by
  induction os generalizing r with
  | nil => exact h
  | cons e os ih => exact ih (h.record e.1 e.2)

/-- To merge a coherent report is to set its entries. -/
theorem Coherent.merge_eq {r' : Report} (h : r'.Coherent) (r : Report) :
    r.merge r' = ⟨Assoc.setAll r.entries r'.entries⟩ := by
  obtain ⟨es⟩ := r'
  have haligned := h.aligned
  -- The induction is on the entries alone, as a part of them need not be known to be distinct.
  clear h
  induction es generalizing r with
  | nil => rfl
  | cons e es ih =>
    obtain ⟨htext, hrest⟩ := List.forall_mem_cons.1 haligned
    have hrecord : (r.record e.2.path e.2).entries = Assoc.set (· == ·) e.1 e.2 r.entries := by
      rw [htext]
      rfl
    show (r.record e.2.path e.2).merge ⟨es⟩ = _
    rw [ih _ hrest, hrecord]
    rfl

/-- To merge a report that has recorded one outcome more is to merge the report and then to record
the outcome. -/
theorem Coherent.merge_record {r' : Report} (h : r'.Coherent) (r : Report) (p : Path)
    (o : Outcome) : r.merge (r'.record p o) = (r.merge r').record p o := by
  rw [(h.record p o).merge_eq, h.merge_eq]
  have hset := Assoc.setAll_set h.distinct p.render { o with path := p } r.entries
  exact congrArg Report.mk hset

/-- To merge a report that has recorded more outcomes is to merge the report and then to record
these. -/
theorem Coherent.merge_recordAll {r' : Report} (h : r'.Coherent) (r : Report)
    (os : List (Path × Outcome)) : r.merge (r'.recordAll os) = (r.merge r').recordAll os := by
  induction os generalizing r' with
  | nil => rfl
  | cons e os ih =>
    show r.merge ((r'.record e.1 e.2).recordAll os) = _
    rw [ih (h.record e.1 e.2), h.merge_record]
    rfl

/-- What one sequence of records builds after another, the two build as one sequence. -/
theorem replay_append (t₁ t₂ : List (Path × Outcome)) :
    replay (t₁ ++ t₂) = (replay t₁).recordAll t₂ :=
  List.foldl_append

/-- To merge a report that was built by recording is to record what built it. -/
theorem merge_replay (r : Report) (trace : List (Path × Outcome)) :
    r.merge (replay trace) = r.recordAll trace :=
  coherent_empty.merge_recordAll r trace

/-- Merging is associative if the report in the middle is coherent. -/
theorem Coherent.merge_assoc {r₂ : Report} (h : r₂.Coherent) (r₁ r₃ : Report) :
    (r₁.merge r₂).merge r₃ = r₁.merge (r₂.merge r₃) :=
  (h.merge_recordAll r₁ r₃.eachResult).symm

/-- Merging a coherent report into itself changes nothing. -/
theorem Coherent.merge_self {r : Report} (h : r.Coherent) : r.merge r = r := by
  rw [h.merge_eq, Assoc.setAll_of_subset h.distinct (List.Subset.refl _)]

/-- A report that was built by recording is coherent. -/
theorem coherent_replay (trace : List (Path × Outcome)) : (replay trace).Coherent :=
  coherent_empty.recordAll trace

/-! ## Registers -/

namespace Registers

/-- A register that was written holds what was written, and the others are as before. -/
theorem get_set (rs : Registers) (a c : String) (r : Report) :
    (rs.set a r).get c = if c = a then r else rs.get c := by
  rw [set, get, get, Assoc.get?_set]
  split
  · rfl
  · rfl

/-- A merge changes no register but the one it merges into. -/
theorem get_update_merge (rs : Registers) (a b c : String) :
    (rs.update (.merge a b)).get c =
      if c = a then (rs.get a).merge (rs.get b) else rs.get c :=
  get_set _ _ _ _

/-- Every change keeps all registers coherent. -/
theorem coherent_update {rs : Registers} (h : ∀ a, (rs.get a).Coherent) (u : Update) (c : String) :
    ((rs.update u).get c).Coherent := by
  have hset : ∀ a r, r.Coherent → ((rs.set a r).get c).Coherent := by
    intro a r hr
    rw [get_set]
    split
    · exact hr
    · exact h c
  cases u with
  | record a p o => exact hset a _ ((h a).record p o)
  | merge a b => exact hset a _ ((h a).recordAll _)
  | detailedErrors a b =>
    -- The errors are a report of their own, which records them at their paths.
    refine hset a _ ?_
    rw [detailedErrors, ← List.foldl_map (f := fun o : Outcome => (o.path, o))
      (g := fun (r : Report) e => r.record e.1 e.2)]
    exact coherent_replay _

/-- All registers are coherent after any changes. -/
theorem coherent_run (us : List Update) (c : String) : ((run us).get c).Coherent := by
  suffices h : ∀ rs : Registers, (∀ a, (rs.get a).Coherent) →
      ∀ a, ((us.foldl update rs).get a).Coherent from h empty (fun _ => coherent_empty) c
  induction us with
  | nil => exact fun _ h => h
  | cons u us ih => exact fun rs h => ih _ (coherent_update h u)

end Registers

/-- A report that is built by one sequence of records and then merged with one that is built by
another is the report that both sequences build, one after the other. So merging is associative, and
the empty report changes nothing. The report that is merged is as it was, and no report changes when
it is merged into itself. -/
theorem merge_replays (t₁ t₂ t₃ : List (Path × Outcome)) :
    (replay t₁).merge (replay t₂) = replay (t₁ ++ t₂) ∧
    ((replay t₁).merge (replay t₂)).merge (replay t₃) =
      (replay t₁).merge ((replay t₂).merge (replay t₃)) ∧
    empty.merge (replay t₁) = replay t₁ ∧ (replay t₁).merge empty = replay t₁ ∧
    (∀ (rs : Registers) (a b : String), rs.get a = replay t₁ → rs.get b = replay t₂ →
      (rs.update (.merge a b)).get a = replay (t₁ ++ t₂) ∧
        ∀ c, c ≠ a → (rs.update (.merge a b)).get c = rs.get c) ∧
    (∀ (us : List Update) (a c : String),
      ((Registers.run us).update (.merge a a)).get c = (Registers.run us).get c) := by
  have hreplay : (replay t₁).merge (replay t₂) = replay (t₁ ++ t₂) := by
    rw [merge_replay, replay, replay, recordAll, recordAll, recordAll, List.foldl_append]
  refine ⟨hreplay, (coherent_replay t₂).merge_assoc _ _, merge_replay _ _, rfl, ?_, ?_⟩
  · intro rs a b ha hb
    refine ⟨?_, fun c hc => ?_⟩
    · rw [Registers.get_update_merge, if_pos rfl, ha, hb, hreplay]
    · rw [Registers.get_update_merge, if_neg hc]
  · intro us a c
    rw [Registers.get_update_merge]
    split
    · rename_i hc
      rw [hc, (Registers.coherent_run us a).merge_self]
    · rfl

/-- A failure below `a`, and a check that passed, recorded where it does not belong. -/
def firstTrace : List (Path × Outcome) :=
  [([.key "a", .key "b"], .failed [.key "a", .key "b"] "old"), ([.key "c"], .passed [.key "d"])]

/-- Two outcomes at one path, which has the text of the way to the failure. -/
def secondTrace : List (Path × Outcome) :=
  [([.key "a.b"], .failed [] "new"), ([.key "a.b"], .passed [.key "e"])]

/-- The failure is replaced where it stands, with the path of the last outcome, in the register that
is merged into and in no other one. -/
theorem merge_collidingTraces :
    let rs := Registers.run [.record "r" [.key "a", .key "b"] (.failed [.key "a", .key "b"] "old"),
      .record "r" [.key "c"] (.passed [.key "d"]), .record "s" [.key "a.b"] (.failed [] "new"),
      .record "s" [.key "a.b"] (.passed [.key "e"])]
    ((rs.update (.merge "r" "s")).get "r").entries =
        [("a.b", .passed [.key "a.b"]), ("c", .passed [.key "c"])] ∧
      ((rs.update (.merge "r" "s")).get "s").entries = [("a.b", .passed [.key "a.b"])] := by
  intro rs
  have hr : rs.get "r" = replay firstTrace := by decide +kernel
  have hs : rs.get "s" = replay secondTrace := by decide +kernel
  have hlaw := (merge_replays firstTrace secondTrace []).2.2.2.2.1 rs "r" "s" hr hs
  refine ⟨?_, ?_⟩
  · rw [hlaw.1]
    decide +kernel
  · rw [hlaw.2 "s" (by decide), hs]
    decide +kernel

end Report

end TreeMatch
