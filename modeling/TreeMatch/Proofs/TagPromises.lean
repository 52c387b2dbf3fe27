import Mathlib
import TreeMatch.Proofs.Keeping
import TreeMatch.Yaml.Value

/-!
# Why a YAML graph has no value

Merging mappings moves entries about, and makes texts of the scalars `=` that are keys; it changes
no scalar and no other tag (`MergesInto`). So where no value is made of a graph, the graph is
malformed, or it had from the beginning a tag with a promise that the text of a scalar does not
keep, or a mapping tagged as a scalar (`TagFault`), or else as many merge keys as there is room for
merged mappings (`ValueFault`).

Whatever is made of a graph, the keys of each map in it come from setting one after the other, so
they differ (`Making.Of`).
-/

namespace TreeMatch.Yaml

open Std.Do

set_option mvcgen.warning false

/-! ## What merging changes -/

/-- A node may become another one where mappings are merged: a mapping may get other entries, and
the tag of `=` may become that of a text. -/
structure Node.MergesInto (m n : Node) : Prop where
  /-- What the node holds is the same, or a mapping still. -/
  content : n.content = m.content ∨ ∃ es fs, m.content = .mapping es ∧ n.content = .mapping fs
  /-- The tag is the same, or that of a text instead of that of `=`. -/
  tag : n.tag = m.tag ∨ (m.tag = coreTag "value" ∧ n.tag = coreTag "str")

namespace Node.MergesInto

/-- A node may stay as it is. -/
theorem refl (n : Node) : n.MergesInto n := ⟨.inl rfl, .inl rfl⟩

/-- A node may change more than once. -/
theorem trans {m n o : Node} (hmn : m.MergesInto n) (hno : n.MergesInto o) : m.MergesInto o where
  content := by
    rcases hno.content with hno | ⟨es, fs, hn, ho⟩
    · rw [hno]
      exact hmn.content
    · rcases hmn.content with hmn | ⟨ds, _, hm, -⟩
      · exact .inr ⟨es, fs, hmn ▸ hn, ho⟩
      · exact .inr ⟨ds, fs, hm, ho⟩
  tag := by
    rcases hno.tag with hno | ⟨hn, ho⟩
    · rw [hno]
      exact hmn.tag
    · rcases hmn.tag with hmn | ⟨-, hstr⟩
      · exact .inr ⟨hmn ▸ hn, ho⟩
      · exact absurd (hn.symm.trans hstr) (by decide)

end Node.MergesInto

namespace Graph

/-- Every node of a graph may become that of another one at the same place. -/
def MergesInto (g h : Graph) : Prop := ∀ i, (g.node i).MergesInto (h.node i)

/-- A graph may stay as it is. -/
theorem MergesInto.refl (g : Graph) : g.MergesInto g := fun i => .refl (g.node i)

/-- A graph may change more than once. -/
theorem MergesInto.trans {g h k : Graph} (hgh : g.MergesInto h) (hhk : h.MergesInto k) :
    g.MergesInto k :=
  fun i => (hgh i).trans (hhk i)

/-- A tag is the same, or that of a text instead of that of `=`. -/
theorem MergesInto.tag {g h : Graph} (hgh : g.MergesInto h) (i : Nat) :
    h.tag i = g.tag i ∨ (g.tag i = coreTag "value" ∧ h.tag i = coreTag "str") :=
  (hgh i).tag

/-- A key `=` was one from the beginning. -/
theorem MergesInto.isValueKey {g h : Graph} (hgh : g.MergesInto h) {i : Nat}
    (hi : h.isValueKey i = true) : g.isValueKey i = true := by
  rcases hgh.tag i with heq | ⟨hvalue, -⟩
  · exact beq_iff_eq.2 (heq ▸ beq_iff_eq.1 hi)
  · exact beq_iff_eq.2 hvalue

/-- A mapping is told by what it holds. -/
theorem isMapping_iff {g : Graph} {i : Nat} :
    g.isMapping i = true ↔ ∃ es, (g.node i).content = .mapping es := by
  unfold isMapping
  split
  · rename_i es hes
    exact ⟨fun _ => ⟨es, hes⟩, fun _ => rfl⟩
  · rename_i hes
    exact ⟨Bool.noConfusion, fun ⟨es, h⟩ => (hes es h).elim⟩

/-- Mappings remain where they are. -/
theorem MergesInto.isMapping_iff {g h : Graph} (hgh : g.MergesInto h) (i : Nat) :
    h.isMapping i = true ↔ g.isMapping i = true := by
  rw [Graph.isMapping_iff, Graph.isMapping_iff]
  rcases (hgh i).content with heq | ⟨es, fs, hg, hh⟩
  · rw [heq]
  · exact ⟨fun _ => ⟨es, hg⟩, fun _ => ⟨fs, hh⟩⟩

/-- Where one node is changed into one that it may become, the graph may become the new one. -/
theorem mergesInto_modify {g : Graph} {i : Nat} {change : Node → Node}
    (h : (g.node i).MergesInto (change (g.node i))) :
    g.MergesInto { g with nodes := g.nodes.modify i change } := by
  intro j
  unfold node at h ⊢
  rw [Array.getD_eq_getD_getElem?, Array.getD_eq_getD_getElem?] at *
  rw [Array.getElem?_modify]
  split
  · rename_i hij
    subst hij
    cases hi : g.nodes[i]? with
    | none => exact .refl _
    | some n =>
      rw [hi] at h
      exact h
  · exact .refl _

/-- A mapping may get other entries. -/
theorem mergesInto_setContent {g : Graph} {i : Nat} (hi : g.isMapping i = true)
    (es : List (Nat × Nat)) : g.MergesInto (g.setContent i (.mapping es)) := by
  obtain ⟨ds, hds⟩ := isMapping_iff.1 hi
  exact mergesInto_modify ⟨.inr ⟨ds, es, hds, rfl⟩, .inl rfl⟩

/-- The scalar `=` may become a text. -/
theorem mergesInto_setTag {g : Graph} {i : Nat} (hi : g.isValueKey i = true) :
    g.MergesInto (g.setTag i (coreTag "str")) :=
  mergesInto_modify ⟨.inl rfl, .inr ⟨beq_iff_eq.1 hi, rfl⟩⟩

/-- So may the scalars `=` among some keys. -/
theorem mergesInto_plainKeys (g : Graph) (es : List (Nat × Nat)) :
    g.MergesInto (g.plainKeys es) := by
  unfold plainKeys
  induction es generalizing g with
  | nil => exact .refl g
  | cons e es ih =>
    rw [List.foldl_cons]
    split
    · exact (mergesInto_setTag ‹_›).trans (ih _)
    · exact ih g

/-- What every step leaves alone, several steps leave alone. -/
theorem mergesInto_of_foldlM {α β : Type} {items : List α}
    {bring : Graph × β → α → Except Fault (Graph × β)} {s t : Graph × β}
    (hbring : ∀ s item t, bring s item = .ok t → s.1.MergesInto t.1)
    (h : items.foldlM bring s = .ok t) : s.1.MergesInto t.1 := by
  induction items generalizing s with
  | nil =>
    obtain rfl := Except.ok.inj h
    exact .refl _
  | cons item items ih =>
    rw [List.foldlM_cons] at h
    obtain ⟨u, hu, ht⟩ := exists_of_bind_eq_ok h
    exact (hbring s item u hu).trans (ih ht)

/-- Every mapping on the way is merged where it is. -/
theorem mergesInto_of_mergeFrom {fuel room i : Nat} {brought : List (Nat × Nat)} {g h : Graph}
    (hi : g.isMapping i = true) (hmerge : mergeFrom brought i fuel room g = .ok h) :
    g.MergesInto h := by
  -- A merged value is a mapping, or a sequence of mappings: each of these is merged itself before
  -- its entries are brought in, and the node in question is then gone on with.
  induction fuel generalizing brought i room g h with
  | zero => cases hmerge
  | succ fuel ih =>
    cases room with
    | zero => cases hmerge
    | succ room =>
      unfold mergeFrom at hmerge
      split at hmerge
      · obtain rfl := Except.ok.inj hmerge
        exact (mergesInto_setContent hi _).trans (mergesInto_plainKeys _ _)
      · rename_i own _ v rest _
        have hset := mergesInto_setContent hi (own ++ rest)
        dsimp only at hmerge
        split at hmerge
        · cases hmerge
        · rename_i es hv
          obtain ⟨k, hk, hmerge⟩ := exists_of_bind_eq_ok hmerge
          have hgk := hset.trans (ih (isMapping_iff.2 ⟨es, hv⟩) hk)
          exact hgk.trans (ih ((hgk.isMapping_iff i).2 hi) hmerge)
        · rename_i items hv
          obtain ⟨⟨k, found⟩, hk, hmerge⟩ := exists_of_bind_eq_ok hmerge
          have hgk : g.MergesInto k := by
            refine hset.trans (mergesInto_of_foldlM (fun s item t hbring => ?_) hk)
            split at hbring
            · cases hbring
            · rename_i hitem
              obtain ⟨u, hu, hbring⟩ := exists_of_bind_eq_ok hbring
              obtain rfl := Except.ok.inj hbring
              exact ih (by simpa using hitem) hu
          exact hgk.trans (ih ((hgk.isMapping_iff i).2 hi) hmerge)

/-- So is the mapping that is asked for. -/
theorem mergesInto_of_merge {count room i : Nat} {g h : Graph}
    (hmerge : g.merge count room i = .ok h) : g.MergesInto h := by
  unfold merge at hmerge
  split at hmerge
  · rename_i hi
    exact mergesInto_of_mergeFrom hi hmerge
  · cases hmerge

/-- Where several steps fail, one of them does. -/
theorem exists_of_foldlM_eq_error {α β : Type} {items : List α} {bring : β → α → Except Fault β}
    {s : β} {f : Fault} (h : items.foldlM bring s = .error f) :
    ∃ t item, bring t item = .error f := by
  induction items generalizing s with
  | nil => cases h
  | cons item items ih =>
    rw [List.foldlM_cons] at h
    rcases exists_of_bind_eq_error h with h | ⟨t, h⟩
    · exact ⟨s, item, h⟩
    · exact ih h

/-- Merging fails because the graph is malformed, or because there is less room than fuel. -/
theorem fault_of_mergeFrom {fuel room i : Nat} {brought : List (Nat × Nat)} {g : Graph} {f : Fault}
    (h : mergeFrom brought i fuel room g = .error f) :
    f = .malformed ∨ f = .tooDeep ∧ room < fuel := by
  -- A mapping on the way takes one unit of both, and going on takes one of fuel alone.
  induction fuel generalizing brought i room g with
  | zero => exact .inl (Except.error.inj h).symm
  | succ fuel ih =>
    cases room with
    | zero => exact .inr ⟨(Except.error.inj h).symm, Nat.succ_pos fuel⟩
    | succ room =>
      have hway {v : Nat} {k : Graph} (hk : mergeFrom [] v fuel room k = .error f) :
          f = .malformed ∨ f = .tooDeep ∧ room + 1 < fuel + 1 :=
        (ih hk).imp_right fun hdeep => ⟨hdeep.1, Nat.succ_lt_succ hdeep.2⟩
      have hrest {es : List (Nat × Nat)} {k : Graph}
          (hk : mergeFrom es i fuel (room + 1) k = .error f) :
          f = .malformed ∨ f = .tooDeep ∧ room + 1 < fuel + 1 :=
        (ih hk).imp_right fun hdeep => ⟨hdeep.1, Nat.lt_succ_of_lt hdeep.2⟩
      unfold mergeFrom at h
      split at h
      · cases h
      · dsimp only at h
        split at h
        · exact .inl (Except.error.inj h).symm
        · rcases exists_of_bind_eq_error h with h | ⟨k, h⟩
          · exact hway h
          · exact hrest h
        · rcases exists_of_bind_eq_error h with h | ⟨k, h⟩
          · obtain ⟨t, item, h⟩ := exists_of_foldlM_eq_error h
            split at h
            · exact .inl (Except.error.inj h).symm
            · rcases exists_of_bind_eq_error h with h | ⟨u, h⟩
              · exact hway h
              · cases h
          · exact hrest h

/-- So merging a mapping in a graph fails for lack of room only if there are as many merge keys as
there is room for mappings. -/
theorem fault_of_merge {count room i : Nat} {g : Graph} {f : Fault}
    (h : g.merge count room i = .error f) : f = .malformed ∨ f = .tooDeep ∧ room ≤ count := by
  unfold merge at h
  split at h
  · exact (fault_of_mergeFrom h).imp_right fun hdeep => ⟨hdeep.1, Nat.le_of_lt_succ hdeep.2⟩
  · exact .inl (Except.error.inj h).symm

/-- A text that stands for a node is that of a scalar somewhere in the graph. -/
theorem exists_of_text?_eq_ok {g : Graph} {room i : Nat} {text : String}
    (h : g.text? room i = .ok (some text)) : ∃ j, (g.node j).content = .scalar text := by
  fun_induction g.text? room i with
  | case1 room i own hi =>
    obtain rfl := Option.some.inj (Except.ok.inj h)
    exact ⟨i, hi⟩
  | case2 => cases h
  | case3 => cases h
  | case4 => cases h
  | case5 i es hes e room hfind ih => exact ih h

/-- Where there is no room for what stands for a text, a mapping was to stand for it by its value
under a key `=`. -/
theorem of_text?_eq_error {g : Graph} {room i : Nat} {f : Fault} (h : g.text? room i = .error f) :
    f = .tooDeep ∧ g.isMapping i = true ∧ ∃ j, g.isValueKey j = true := by
  fun_induction g.text? room i with
  | case1 => cases h
  | case2 => cases h
  | case3 => cases h
  | case4 i es hes e hfind =>
    obtain rfl := Except.error.inj h
    have he : g.isValueKey e.1 = true := by simpa using List.find?_some hfind
    exact ⟨rfl, isMapping_iff.2 ⟨es, hes⟩, e.1, he⟩
  | case5 i es hes e room hfind ih =>
    have he : g.isValueKey e.1 = true := by simpa using List.find?_some hfind
    exact ⟨(ih h).1, isMapping_iff.2 ⟨es, hes⟩, e.1, he⟩

end Graph

/-! ## Promises of tags -/

/-- A fault that may be found in a graph: the tag of a node promises what no text there writes, or
is that of a scalar where there is a mapping. -/
inductive TagFault (g : Graph) : Fault → Prop
  /-- No value can be made of the graph. -/
  | malformed : TagFault g .malformed
  /-- The text of a scalar does not write what a tag promises. -/
  | scalar {i j : Nat} {text : String} {f : Fault}
      {read : String → Except Fault TreeMatch.Scalar}
      (htext : (g.node j).content = .scalar text) (htag : Scalar.reader? (g.tag i) = some read)
      (h : read text = .error f) : TagFault g f
  /-- A point in time is a mapping. -/
  | notText {i : Nat} (htag : g.tag i = coreTag "timestamp") (hi : g.isMapping i = true) :
      TagFault g .notText
  /-- A mapping that is tagged as a scalar stands for the value under a key `=`, which may be such a
  mapping again. -/
  | depth {i j : Nat} (htag : (Scalar.reader? (g.tag i)).isSome ∨ g.tag i = coreTag "value")
      (hi : g.isMapping i = true) (hj : g.isValueKey j = true) : TagFault g .tooDeep

/-- What may be found in a graph after merging may be found before it. -/
theorem TagFault.of_mergesInto {g h : Graph} {f : Fault} (hgh : g.MergesInto h)
    (hf : TagFault h f) : TagFault g f := by
  cases hf with
  | malformed => exact .malformed
  | @scalar i j text _ read htext htag hread =>
    have htext : (g.node j).content = .scalar text := by
      rcases (hgh j).content with heq | ⟨_, _, -, hmapping⟩
      · exact heq ▸ htext
      · cases htext.symm.trans hmapping
    rcases hgh.tag i with heq | ⟨-, hstr⟩
    · exact .scalar htext (heq ▸ htag) hread
    -- The tag of a text promises nothing.
    · rw [hstr] at htag
      obtain rfl : _ = read := Option.some.inj htag
      cases hread
  | @notText i htag hi =>
    rcases hgh.tag i with heq | ⟨-, hstr⟩
    · exact .notText (heq ▸ htag) ((hgh.isMapping_iff i).1 hi)
    · exact absurd (htag.symm.trans hstr) (by decide)
  | @depth i j htag hi hj =>
    refine .depth ?_ ((hgh.isMapping_iff i).1 hi) (hgh.isValueKey hj)
    rcases hgh.tag i with heq | ⟨hvalue, -⟩
    · exact heq ▸ htag
    · exact .inr hvalue

/-- A fault that may be met where a value is made of a graph. -/
inductive ValueFault (room : Room) (g : Graph) : Fault → Prop
  /-- It may be found in the graph. -/
  | tag {f : Fault} (h : TagFault g f) : ValueFault room g f
  /-- There are as many merge keys as there is room for mappings, and each of these may be on the
  way of another one. -/
  | merges (h : room.merges ≤ g.mergeCount) : ValueFault room g .tooDeep

/-- The keys of a map that was made differ from one another. -/
def Part.HasDistinctKeys : Part → Prop
  | .map es => Assoc.Distinct SourcedScalar.same es
  | _ => True

/-- What is made of a graph goes on from it by merging only, and no map has a key twice. -/
structure Making.Of (room : Room) (g : Graph) (m : Making) : Prop where
  /-- The graph comes from the first one. -/
  graph : g.MergesInto m.graph
  /-- The merge keys of that one are counted. -/
  mergeCount : m.mergeCount = g.mergeCount
  /-- There is as much room as at first. -/
  room : m.room = room
  /-- The keys of every map differ. -/
  parts : ∀ p, some p ∈ m.parts → p.HasDistinctKeys

namespace Make

/-- Work on a graph goes on from it, and fails only with what may be found there. -/
abbrev Keeps {α : Type} (room : Room) (g : Graph) (x : Make α) : Prop :=
  Yaml.Keeps (Making.Of room g) (ValueFault room g) x

/-- Besides, the keys of the entries that it gives differ. -/
abbrev YieldsDistinct {β : Type} (room : Room) (g : Graph)
    (x : Make (List (SourcedScalar × β))) : Prop :=
  Yields (Making.Of room g) (ValueFault room g) (Assoc.Distinct SourcedScalar.same) x

variable (room : Room) (g : Graph)

/-- That no value can be made may be said anywhere. -/
@[spec]
theorem fail_keeps {α : Type} : Keeps room g (fail : Make α) := throw_keeps (.tag .malformed)

/-- Nothing is made then. -/
theorem fail_stops {α : Type} :
    ⦃⌜True⌝⦄ (fail : Make α) ⦃post⟨fun _ _ => ⌜False⌝, fun f => ⌜ValueFault room g f⌝⟩⦄ :=
  throw_stops (.tag .malformed)

/-- It does not matter whether what was made is needed. -/
@[spec]
theorem discard_keeps {α : Type} {x : Make α} (h : Keeps room g x) : Keeps room g (discard x) :=
  h.discard

/-- Elements are made one after the other. -/
@[spec]
theorem forM_keeps {α : Type} {f : α → Make PUnit} (h : ∀ a, Keeps room g (f a)) (l : List α) :
    Keeps room g (l.forM f) :=
  .forM h l

/-- So are elements of a list. -/
@[spec]
theorem mapM_keeps {α β : Type} {f : α → Make β} (h : ∀ a, Keeps room g (f a)) (l : List α) :
    Keeps room g (l.mapM f) :=
  .mapM h l

/-- A part may be noted if it has no key twice. -/
@[spec]
theorem note_keeps (i : Nat) (p : Part) (hp : p.HasDistinctKeys) : Keeps room g (note i p) := by
  mvcgen [note]
  rename_i m h _
  refine ⟨h.graph, h.mergeCount, h.room, fun q hq => ?_⟩
  rcases Array.mem_or_eq_of_mem_setIfInBounds hq with hq | hq
  · exact h.parts q hq
  · obtain rfl := Option.some.inj hq
    exact hp

/-- What is wrong with a scalar is wrong with a tag and a text of the graph. -/
theorem tagFault_of_read {m : Making} {i : Nat} {text : String} {f : Fault}
    {read : String → Except Fault TreeMatch.Scalar} (h : m.Of room g)
    (htag : Scalar.reader? (m.graph.tag i) = some read)
    (htext : m.graph.text? m.room.texts i = .ok (some text)) (hread : read text = .error f) :
    TagFault g f := by
  obtain ⟨j, hj⟩ := Graph.exists_of_text?_eq_ok htext
  exact .of_mergesInto h.graph (.scalar hj htag hread)

/-- So is it if there is no room for what stands for the text. -/
theorem tagFault_of_text? {m : Making} {i : Nat} {f : Fault}
    {read : String → Except Fault TreeMatch.Scalar} (h : m.Of room g)
    (htag : Scalar.reader? (m.graph.tag i) = some read)
    (htext : m.graph.text? m.room.texts i = .error f) : TagFault g f := by
  obtain ⟨rfl, hi, j, hj⟩ := Graph.of_text?_eq_error htext
  exact .of_mergesInto h.graph (.depth (.inl (htag ▸ rfl)) hi hj)

/-- A scalar is made of a text that keeps what the tag promises. -/
@[spec]
theorem scalar_keeps (i : Nat) : Keeps room g (scalar i) := by
  mvcgen [scalar, throw_stops, -Spec.throw_MonadExcept] with
    try (intros; contradiction)
  · exact .tag (tagFault_of_text? room g ‹_› ‹_› ‹_›)
  · rename_i m h _ read htag text htext _ htime
    rw [Bool.and_eq_true, beq_iff_eq] at htime
    exact .tag (.of_mergesInto h.graph (.notText htime.1 htime.2))
  · exact .tag (tagFault_of_read room g ‹_› ‹_› ‹_› ‹_›)

/-- A node that is met is made, or was made before. -/
@[spec]
theorem meet_keeps (i : Nat) : Keeps room g (meet i) := by
  mvcgen [meet]
  rename_i m h _ _ _ _ _
  exact ⟨h.graph, h.mergeCount, h.room, h.parts⟩

/-- An entry that is added is set. -/
theorem addEntry_yields (es : List (SourcedScalar × Nat)) (e : Nat × Nat)
    (hes : Assoc.Distinct SourcedScalar.same es) : YieldsDistinct room g (addEntry es e) := by
  mvcgen [addEntry, fail_stops, -fail_keeps] with try exact False.elim
  exact ⟨‹_›, hes.set _ _⟩

/-- Merging fails because the graph is malformed, or for lack of room. -/
theorem valueFault_of_merge {m : Making} {i : Nat} {f : Fault} (h : m.Of room g)
    (hmerge : m.graph.merge m.mergeCount m.room.merges i = .error f) : ValueFault room g f := by
  rcases Graph.fault_of_merge hmerge with rfl | ⟨rfl, hle⟩
  · exact .tag .malformed
  · rw [h.room, h.mergeCount] at hle
    exact .merges hle

/-- The entries of a mapping are added one by one. -/
@[spec]
theorem mapEntries_yields (i : Nat) : YieldsDistinct room g (mapEntries i) := by
  have hentries := fun es : List (Nat × Nat) =>
    Yields.foldlM (addEntry_yields room g) es (b := []) List.Pairwise.nil
  mvcgen [mapEntries, hentries, throw_stops, -Spec.throw_MonadExcept, -Spec.foldlM_list] with
    try exact False.elim
  · exact valueFault_of_merge room g ‹_› ‹_›
  · rename_i m h graph hmerge
    exact ⟨h.graph.trans (Graph.mergesInto_of_merge hmerge), h.mergeCount, h.room, h.parts⟩

/-- The elements of a sequence are given as they are. -/
@[spec]
theorem sequenceItems_keeps (i : Nat) : Keeps room g (sequenceItems i) := by
  mvcgen [sequenceItems]

/-- A pair is met part by part. -/
@[spec]
theorem pair_keeps (i : Nat) : Keeps room g (pair i) := by
  mvcgen [pair]

/-- What fills a collection is noted. -/
@[spec]
theorem fill_keeps (i : Nat) : Keeps room g (fill i) := by
  mvcgen [fill] with
    first
    | exact And.left ‹_ ∧ _›
    | exact fun _ _ h => h
    -- Other parts than maps have no keys to differ.
    | (intros; trivial)

/-- Collections are filled level by level. -/
@[spec]
theorem fillAll_keeps (fuel : Nat) : Keeps room g (fillAll fuel) := by
  induction fuel with
  | zero => mvcgen [fillAll]
  | succ fuel ih =>
    mvcgen [fillAll, ih]
    rename_i m h _ _ _
    exact ⟨h.graph, h.mergeCount, h.room, h.parts⟩

end Make

namespace Graph

/-- Nothing is made of a graph at first. -/
theorem start_of (room : Room) (g : Graph) :
    Making.Of room g ⟨g, g.mergeCount, room, Array.replicate g.nodes.size none, []⟩ := by
  refine ⟨.refl g, rfl, rfl, fun p hp => ?_⟩
  cases (Array.mem_replicate.1 hp).2

/-- The root is met, and then all collections are filled. -/
theorem make_keeps (room : Room) (g : Graph) : Make.Keeps room g (do
    discard (Make.meet g.root)
    Make.fillAll (g.nodes.size + 2)) :=
  (Make.meet_keeps room g g.root).discard.bind fun _ => Make.fillAll_keeps room g _

/-- A value of a graph is put together from what was made of the graph. -/
theorem exists_of_toValue {g : Graph} {room : Room} {shape t : DocumentTree}
    (h : g.toValue room shape = .ok t) :
    ∃ m : Making, m.Of room g ∧ t = m.valueAlong shape.depth shape (.node g.root) := by
  unfold toValue at h
  obtain ⟨⟨_, m⟩, hrun, ht⟩ := exists_of_bind_eq_ok h
  exact ⟨m, ((make_keeps room g).run (start_of room g)).1 _ m hrun, (Except.ok.inj ht).symm⟩

end Graph

end TreeMatch.Yaml
