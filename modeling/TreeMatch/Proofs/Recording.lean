import Mathlib.Data.List.Forall2
import Mathlib.Data.List.Nodup
import TreeMatch.Validator

/-!
# Recording outcomes in order

A run of checks, a merge and a strict pass all record a list of outcomes one by one
(`Report.recordAll`). The report that results has an entry for every text that was recorded at, in
the order of first recording (`paths_recordAll`), and of several outcomes at one text it keeps the
last (`mem_entries_recordAll`). So it succeeds when the outcomes that no later one replaced are
valid (`succeeded_recordAll_iff`); the replaced ones do not count. Outcomes at texts that the report
did not have leave its entries alone (`recordAll_append`), and where no two texts are the same
nothing is replaced at all (`entries_recordAll_of_nodup`).
-/

namespace TreeMatch

/-- A result that is computed from another one comes from it. -/
theorem exists_of_map_eq_ok {ε : Type u} {β : Type v} {γ : Type w} {x : Except ε β} {f : β → γ}
    {y : γ} (h : x.map f = .ok y) : ∃ b, x = .ok b ∧ f b = y := by
  cases x with
  | error e => exact nomatch h
  | ok b => exact ⟨b, rfl, Except.ok.inj h⟩

/-! ## Association lists under texts -/

namespace Assoc

variable {β : Type u}

/-- Setting a text that has no entry in a first part is setting it in the rest. -/
theorem set_append_of_notMem {k : String} {es : List (String × β)} (h : k ∉ keys es) (b : β)
    (fs : List (String × β)) : set (· == ·) k b (es ++ fs) = es ++ set (· == ·) k b fs := by
  induction es with
  | nil => rfl
  | cons e es ih =>
    have hne : (k == e.1) = false := by
      rw [beq_eq_false_iff_ne]
      exact fun he => h (he ▸ List.mem_cons_self)
    rw [List.cons_append, set, hne, ih fun hk => h (List.mem_cons_of_mem _ hk)]
    rfl

/-- After a text is set, its entry has the new value and all other entries are as before. -/
theorem mem_set_iff {k : String} {b : β} {es : List (String × β)} (hd : (keys es).Nodup)
    {e : String × β} : e ∈ set (· == ·) k b es ↔ e = (k, b) ∨ (e ∈ es ∧ e.1 ≠ k) := by
  induction es with
  | nil => simp [set]
  | cons e' es ih =>
    obtain ⟨hnot, hrest⟩ := List.nodup_cons.1 hd
    by_cases hk : k = e'.1
    · subst hk
      -- The key has no second entry, so setting it leaves the others alone.
      have hother : ∀ d ∈ es, d.1 ≠ e'.1 := fun d hd heq =>
        hnot (List.mem_map.2 ⟨d, hd, heq⟩)
      rw [set, if_pos (beq_self_eq_true _), List.mem_cons, List.mem_cons]
      constructor
      · rintro (rfl | he)
        · exact .inl rfl
        · exact .inr ⟨.inr he, hother e he⟩
      · rintro (rfl | ⟨rfl | he, hne⟩)
        · exact .inl rfl
        · exact absurd rfl hne
        · exact .inr he
    · rw [set, if_neg (by simpa using hk), List.mem_cons, List.mem_cons, ih hrest]
      constructor
      · rintro (rfl | rfl | ⟨he, hne⟩)
        · exact .inr ⟨.inl rfl, fun heq => hk heq.symm⟩
        · exact .inl rfl
        · exact .inr ⟨.inr he, hne⟩
      · rintro (rfl | ⟨rfl | he, hne⟩)
        · exact .inr (.inl rfl)
        · exact .inl rfl
        · exact .inr (.inr ⟨he, hne⟩)

/-- A value that is set is there afterwards. -/
theorem exists_mem_set (k : String) (b : β) (es : List (String × β)) :
    ∃ e ∈ set (· == ·) k b es, e.2 = b := by
  induction es with
  | nil => exact ⟨(k, b), List.mem_singleton.2 rfl, rfl⟩
  | cons e es ih =>
    unfold set
    split
    · exact ⟨_, List.mem_cons_self, rfl⟩
    · obtain ⟨d, hd, rfl⟩ := ih
      exact ⟨d, List.mem_cons_of_mem _ hd, rfl⟩

end Assoc

/-! ## Outcomes recorded one after the other -/

/-- The members of a list after which no other one has the same text. -/
def standing {β : Type u} (text : β → String) : List β → List β
  | [] => []
  | x :: xs => if text x ∈ xs.map text then standing text xs else x :: standing text xs

/-- Where all texts differ, every member stands. -/
theorem standing_of_nodup {β : Type u} {text : β → String} {xs : List β}
    (h : (xs.map text).Nodup) : standing text xs = xs := by
  induction xs with
  | nil => rfl
  | cons x xs ih =>
    obtain ⟨hnot, hrest⟩ := List.nodup_cons.1 h
    rw [standing, if_neg hnot, ih hrest]

/-- A member stands if no later one has the same text. -/
theorem mem_standing_iff {β : Type u} {text : β → String} {xs : List β} {x : β} :
    x ∈ standing text xs ↔
      ∃ before after, xs = before ++ x :: after ∧ text x ∉ after.map text := by
  induction xs with
  | nil => simp [standing]
  | cons y xs ih =>
    constructor
    · intro h
      unfold standing at h
      split at h
      · obtain ⟨before, after, rfl, hx⟩ := ih.1 h
        exact ⟨y :: before, after, rfl, hx⟩
      · rename_i hy
        rcases List.mem_cons.1 h with rfl | h
        · exact ⟨[], xs, rfl, hy⟩
        · obtain ⟨before, after, rfl, hx⟩ := ih.1 h
          exact ⟨y :: before, after, rfl, hx⟩
    · rintro ⟨before, after, heq, hx⟩
      cases before with
      | nil =>
        obtain ⟨rfl, rfl⟩ := List.cons.inj heq
        rw [standing, if_neg hx]
        exact List.mem_cons_self
      | cons z before =>
        obtain ⟨rfl, rfl⟩ := List.cons.inj heq
        have hmem := ih.2 ⟨before, after, rfl, hx⟩
        unfold standing
        split
        · exact hmem
        · exact List.mem_cons_of_mem _ hmem

/-- The members that stand are members. -/
theorem standing_subset {β : Type u} (text : β → String) (xs : List β) :
    standing text xs ⊆ xs := by
  intro x hx
  obtain ⟨before, after, hsplit, -⟩ := mem_standing_iff.1 hx
  rw [hsplit]
  exact List.mem_append_right _ List.mem_cons_self

/-- The members of a list of images that stand are the images of those that stand by the text of
their image. -/
theorem standing_map {β : Type u} {γ : Type v} (text : γ → String) (f : β → γ) (xs : List β) :
    standing text (xs.map f) = (standing (fun x => text (f x)) xs).map f := by
  induction xs with
  | nil => rfl
  | cons x xs ih =>
    rw [List.map_cons, standing, standing, ih, List.map_map]
    by_cases hx : text (f x) ∈ xs.map fun y => text (f y)
    · rw [if_pos hx]
      exact if_pos hx
    · rw [if_neg hx]
      exact if_neg hx

namespace Report

/-- Records outcomes at their paths, in order. -/
def recordAll (r : Report) (os : List (Path × Outcome)) : Report :=
  os.foldl (fun r e => r.record e.1 e.2) r

/-- No text has two entries. -/
def Distinct (r : Report) : Prop := r.paths.Nodup

/-- Nothing is recorded in the empty report. -/
theorem distinct_empty : empty.Distinct := List.nodup_nil

/-- A text of the report leads to an outcome that is recorded under it. -/
theorem exists_get?_of_mem_paths {r : Report} {t : String} (h : t ∈ r.paths) :
    ∃ o, r.get? t = some o ∧ (t, o) ∈ r.entries := by
  obtain ⟨e, he, rfl⟩ := List.mem_map.1 h
  have hfound : (r.entries.lookup e.1).isSome = true :=
    List.lookup_isSome_iff.2 ⟨e, he, beq_self_eq_true _⟩
  obtain ⟨o, ho⟩ := Option.isSome_iff_exists.1 hfound
  obtain ⟨before, after, hsplit, -⟩ := List.lookup_eq_some_iff.1 ho
  refine ⟨o, ho, ?_⟩
  rw [hsplit]
  exact List.mem_append_right _ List.mem_cons_self

/-- Nothing is found under a text that the report does not have. -/
theorem get?_eq_none_iff {r : Report} {t : String} : r.get? t = none ↔ t ∉ r.paths := by
  rw [get?, List.lookup_eq_none_iff, paths, List.mem_map]
  constructor
  · rintro h ⟨e, he, rfl⟩
    exact bne_iff_ne.1 (h e he) rfl
  · exact fun h e he => bne_iff_ne.2 fun heq => h ⟨e, he, heq.symm⟩

/-- Where no text has two entries, the entries are what is found. -/
theorem Distinct.get?_eq_some_iff {r : Report} (h : r.Distinct) {t : String} {o : Outcome} :
    r.get? t = some o ↔ (t, o) ∈ r.entries := by
  constructor
  · intro hfound
    obtain ⟨before, after, hsplit, -⟩ := List.lookup_eq_some_iff.1 hfound
    rw [hsplit]
    exact List.mem_append_right _ List.mem_cons_self
  · intro hentry
    obtain ⟨o', hfound, hentry'⟩ := exists_get?_of_mem_paths (List.mem_map_of_mem hentry)
    have hsame : (t, o') = (t, o) := List.inj_on_of_nodup_map h hentry' hentry rfl
    rw [hfound, (Prod.mk.inj hsame).2]

/-- Recording adds the text of the path at the end, if it is new. -/
theorem paths_record (r : Report) (p : Path) (o : Outcome) :
    (r.record p o).paths = if p.render ∈ r.paths then r.paths else r.paths ++ [p.render] := by
  have h := Assoc.keys_set (· == ·) p.render { o with path := p } r.entries
  have hany : (Assoc.keys r.entries).any (p.render == ·) = true ↔ p.render ∈ r.paths := by
    rw [List.any_beq]
    exact List.elem_iff
  rw [record, paths, ← Assoc.keys, h]
  exact if_congr hany rfl rfl

/-- Recording keeps the texts distinct. -/
theorem Distinct.record {r : Report} (h : r.Distinct) (p : Path) (o : Outcome) :
    (r.record p o).Distinct := by
  rw [Distinct, paths_record]
  split
  · exact h
  · rename_i hnew
    exact List.nodup_append.2 ⟨h, List.nodup_singleton _, fun t ht u hu heq =>
      hnew (by rw [← List.mem_singleton.1 hu, ← heq]; exact ht)⟩

/-- The texts of a report after recording outcomes are the old ones and then the new ones among
those of the paths, in the order of their first occurrence. -/
theorem paths_recordAll (r : Report) (os : List (Path × Outcome)) :
    (r.recordAll os).paths =
      r.paths ++ ((os.map (·.1.render)).removeAll r.paths).eraseDups := by
  induction os generalizing r with
  | nil => simp [recordAll]
  | cons e os ih =>
    show ((r.record e.1 e.2).recordAll os).paths = _
    rw [ih, paths_record, List.map_cons, List.cons_removeAll]
    by_cases hold : e.1.render ∈ r.paths
    · rw [if_pos hold, if_neg (by simpa using hold)]
    · rw [if_neg hold, if_pos (by simpa using hold), List.eraseDups_cons, List.append_assoc,
        List.singleton_append]
      -- What is left of the other texts is without the one that has just been recorded.
      have hrest : (os.map (·.1.render)).removeAll (r.paths ++ [e.1.render]) =
          ((os.map (·.1.render)).removeAll r.paths).filter (!· == e.1.render) := by
        rw [List.removeAll, List.removeAll, List.filter_filter]
        refine List.filter_congr fun t _ => ?_
        simp [Bool.and_comm, Bool.beq_eq_decide_eq]
      rw [hrest]

/-- A report that is built by recording has the texts of the paths, in the order of their first
occurrence. -/
theorem paths_recordAll_empty (os : List (Path × Outcome)) :
    (empty.recordAll os).paths = (os.map (·.1.render)).eraseDups := by
  have hnone : empty.paths = [] := rfl
  rw [paths_recordAll, hnone, List.removeAll_nil, List.nil_append]

/-- The texts of a report after recording outcomes are the old ones and those of the paths. -/
theorem mem_paths_recordAll {r : Report} {os : List (Path × Outcome)} {t : String} :
    t ∈ (r.recordAll os).paths ↔ t ∈ r.paths ∨ t ∈ os.map (·.1.render) := by
  rw [paths_recordAll, List.mem_append, List.mem_eraseDups, List.removeAll, List.mem_filter]
  by_cases hold : t ∈ r.paths
  · simp [hold]
  · simp [hold]

/-- A report succeeds if all its entries are valid. -/
theorem succeeded_iff {r : Report} :
    r.succeeded = true ↔ ∀ e ∈ r.entries, e.2.valid = true := by
  rw [succeeded, outcomes, List.all_map, List.all_eq_true]
  rfl

/-- A report succeeds if whatever is found in it is valid. -/
theorem Distinct.succeeded_iff_get? {r : Report} (h : r.Distinct) :
    r.succeeded = true ↔ ∀ t o, r.get? t = some o → o.valid = true := by
  simp only [succeeded_iff, h.get?_eq_some_iff, Prod.forall]

/-- A report that has just recorded a failure does not succeed. -/
theorem succeeded_record_of_invalid (r : Report) (p : Path) {o : Outcome} (h : o.valid = false) :
    (r.record p o).succeeded = false := by
  rw [Bool.eq_false_iff, ne_eq, succeeded_iff]
  intro hall
  obtain ⟨e, he, hv⟩ := Assoc.exists_mem_set p.render { o with path := p } r.entries
  have hvalid : o.valid = true := by
    have := hall e he
    rwa [hv] at this
  rw [h] at hvalid
  exact nomatch hvalid

/-- After recording, the entry of the path has the outcome, moved to the path, and all other entries
are as before. -/
theorem mem_entries_record {r : Report} (h : r.Distinct) {p : Path} {o : Outcome}
    {e : String × Outcome} : e ∈ (r.record p o).entries ↔
      e = (p.render, { o with path := p }) ∨ (e ∈ r.entries ∧ e.1 ≠ p.render) :=
  Assoc.mem_set_iff h

/-- After recording outcomes, the entries are the earlier ones that none replaced and those of the
outcomes that no later one replaced, each moved to its path. -/
theorem mem_entries_recordAll {r : Report} (hd : r.Distinct) {os : List (Path × Outcome)}
    {e : String × Outcome} : e ∈ (r.recordAll os).entries ↔
      (e ∈ r.entries ∧ e.1 ∉ os.map (·.1.render)) ∨
        ∃ d ∈ standing (·.1.render) os, e = (d.1.render, { d.2 with path := d.1 }) := by
  induction os generalizing r with
  | nil => simp [recordAll, standing]
  | cons o os ih =>
    show e ∈ ((r.record o.1 o.2).recordAll os).entries ↔ _
    rw [ih (hd.record _ _), mem_entries_record hd, List.map_cons, List.mem_cons, not_or]
    by_cases hlater : o.1.render ∈ os.map (·.1.render)
    · -- A later outcome takes over the entry that this one made.
      rw [standing, if_pos hlater]
      refine or_congr_left ⟨?_, ?_⟩
      · rintro ⟨rfl | ⟨he, hne⟩, hnot⟩
        · exact absurd hlater hnot
        · exact ⟨he, hne, hnot⟩
      · rintro ⟨he, hne, hnot⟩
        exact ⟨.inr ⟨he, hne⟩, hnot⟩
    · -- The entry that this outcome made stays.
      rw [standing, if_neg hlater]
      simp only [List.mem_cons, exists_eq_or_imp]
      constructor
      · rintro (⟨rfl | ⟨he, hne⟩, hnot⟩ | hlast)
        · exact .inr (.inl rfl)
        · exact .inl ⟨he, hne, hnot⟩
        · exact .inr (.inr hlast)
      · rintro (⟨he, hne, hnot⟩ | rfl | hlast)
        · exact .inl ⟨.inr ⟨he, hne⟩, hnot⟩
        · exact .inl ⟨.inl rfl, hlater⟩
        · exact .inr hlast

/-- A report succeeds after recording outcomes if the outcomes that no later one replaced are valid,
and so are its earlier entries that none replaced. -/
theorem succeeded_recordAll_iff {r : Report} (hd : r.Distinct) {os : List (Path × Outcome)} :
    (r.recordAll os).succeeded = true ↔
      (∀ e ∈ r.entries, e.1 ∉ os.map (·.1.render) → e.2.valid = true) ∧
        ∀ e ∈ standing (·.1.render) os, e.2.valid = true := by
  rw [succeeded_iff]
  simp only [mem_entries_recordAll hd]
  constructor
  · intro h
    exact ⟨fun e he hnot => h e (.inl ⟨he, hnot⟩), fun d hd' => h _ (.inr ⟨d, hd', rfl⟩)⟩
  · rintro ⟨hearlier, hlast⟩ e (⟨he, hnot⟩ | ⟨d, hd', rfl⟩)
    · exact hearlier e he hnot
    · exact hlast d hd'

/-- Outcomes at new texts leave the entries as they are, and are recorded behind them as in an empty
report. -/
theorem recordAll_append {es : List (String × Outcome)} (r : Report) {os : List (Path × Outcome)}
    (hnew : ∀ e ∈ os, e.1.render ∉ Assoc.keys es) :
    recordAll ⟨es ++ r.entries⟩ os = ⟨es ++ (r.recordAll os).entries⟩ := by
  induction os generalizing r with
  | nil => rfl
  | cons e os ih =>
    have hrecord : record ⟨es ++ r.entries⟩ e.1 e.2 = ⟨es ++ (r.record e.1 e.2).entries⟩ :=
      congrArg mk (Assoc.set_append_of_notMem (hnew e List.mem_cons_self) _ _)
    show recordAll (record ⟨es ++ r.entries⟩ e.1 e.2) os = _
    rw [hrecord]
    exact ih _ fun d hd => hnew d (List.mem_cons_of_mem _ hd)

/-- Outcomes at new texts that all differ are added at the end, each moved to its path. -/
theorem entries_recordAll_of_nodup {r : Report} {os : List (Path × Outcome)}
    (hnew : ∀ e ∈ os, e.1.render ∉ r.paths) (hd : (os.map (·.1.render)).Nodup) :
    (r.recordAll os).entries =
      r.entries ++ os.map fun e => (e.1.render, { e.2 with path := e.1 }) := by
  induction os generalizing r with
  | nil => simp [recordAll]
  | cons e os ih =>
    obtain ⟨hnot, hrest⟩ := List.nodup_cons.1 hd
    have hentries : (r.record e.1 e.2).entries =
        r.entries ++ [(e.1.render, { e.2 with path := e.1 })] := by
      have hset := Assoc.set_append_of_notMem (hnew e List.mem_cons_self)
        { e.2 with path := e.1 } []
      rw [List.append_nil] at hset
      exact hset
    have hstill : ∀ d ∈ os, d.1.render ∉ (r.record e.1 e.2).paths := by
      intro d hdos hmem
      rw [paths, hentries, List.map_append, List.mem_append] at hmem
      rcases hmem with hmem | hmem
      · exact hnew d (List.mem_cons_of_mem _ hdos) hmem
      · exact hnot (List.mem_map.2 ⟨d, hdos, List.mem_singleton.1 hmem⟩)
    show ((r.record e.1 e.2).recordAll os).entries = _
    rw [ih hstill hrest, hentries, List.append_assoc]
    rfl

end Report

end TreeMatch
