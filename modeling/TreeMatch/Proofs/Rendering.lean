import TreeMatch.Path.Basic

/-!
# What the text of a path says about the path

The text of a path is cut at its dots into segments. A path whose steps are written without dots has
one segment for each step (`IsDotFree.segments_render`), so that its text gives back the texts of
its steps, and one text begins another one followed by a dot exactly if its segments begin those of
the other (`segments_prefix_iff`). The steps themselves come back where no key is written as an
index (`prefix_of_texts_prefix`), and the index that a path out of a sequence begins with comes back
in any case (`head?_eq_of_segments_prefix`). The root has the same text as the path to the empty
key, and as no other.
-/

namespace TreeMatch

/-- The parts of a text between its dots. -/
def segments (text : String) : List (List Char) := text.toList.splitOn '.'

/-- A segment has no dot. -/
theorem dot_notMem_of_mem_segments {text : String} {segment : List Char}
    (h : segment ∈ segments text) : '.' ∉ segment := by
  rw [segments] at h
  generalize text.toList = cs at h
  induction cs generalizing segment with
  | nil =>
    rw [List.splitOn_nil] at h
    obtain rfl := List.mem_singleton.1 h
    exact List.not_mem_nil
  | cons c cs ih =>
    obtain ⟨first, others, hrest⟩ := List.exists_cons_of_ne_nil (List.splitOn_ne_nil '.' cs)
    rw [hrest] at ih
    rw [List.splitOn_cons_eq_if_modifyHead, hrest] at h
    by_cases hc : (c == '.') = true
    · rw [if_pos hc] at h
      rcases List.mem_cons.1 h with rfl | h
      · exact List.not_mem_nil
      · exact ih h
    · rw [if_neg hc, List.modifyHead_cons] at h
      rcases List.mem_cons.1 h with rfl | h
      · rw [List.mem_cons, not_or]
        exact ⟨fun hdot => hc (beq_iff_eq.2 hdot.symm), ih List.mem_cons_self⟩
      · exact ih (List.mem_cons_of_mem _ h)

/-- Two lists that are joined one after the other have a separator between them. -/
theorem intercalate_append_cons {sep : List Char} {xs ys : List (List Char)} {y : List Char}
    (h : xs ≠ []) :
    sep.intercalate (xs ++ y :: ys) = sep.intercalate xs ++ (sep ++ sep.intercalate (y :: ys)) := by
  induction xs with
  | nil => exact absurd rfl h
  | cons x xs ih =>
    rw [List.cons_append, List.intercalate_cons_of_ne_nil (by simp)]
    cases xs with
    | nil => simp
    | cons x' xs =>
      rw [ih (List.cons_ne_nil _ _), List.intercalate_cons_cons]
      simp

/-- The segments of one text begin those of another one if the texts are the same, or the other text
goes on with a dot. -/
theorem segments_prefix_iff {s t : String} :
    segments s <+: segments t ↔ t = s ∨ (s ++ ".").toList <+: t.toList := by
  rw [String.toList_append]
  constructor
  · rintro ⟨rest, h⟩
    -- The text `t` is the segments of `s` and the remaining ones, joined.
    have ht : t.toList = ['.'].intercalate (segments s ++ rest) := by
      rw [h, segments, List.intercalate_splitOn]
    cases rest with
    | nil =>
      left
      rw [List.append_nil, segments, List.intercalate_splitOn] at ht
      exact String.toList_injective ht
    | cons x rest =>
      right
      refine ⟨['.'].intercalate (x :: rest), ?_⟩
      rw [ht, segments, intercalate_append_cons (List.splitOn_ne_nil _ _),
        List.intercalate_splitOn, List.append_assoc]
      rfl
  · rintro (rfl | ⟨rest, h⟩)
    · exact List.prefix_rfl
    · refine ⟨rest.splitOn '.', ?_⟩
      have hsplit : t.toList = s.toList ++ '.' :: rest := by rw [← h]; simp
      rw [segments, segments, hsplit, List.splitOn_append_cons_self]

namespace Path

/-- The texts of the steps, as lists of characters. -/
def texts (p : Path) : List (List Char) := p.map (·.text.toList)

/-- The text of a path joins the texts of its steps with dots. -/
theorem toList_render (p : Path) : p.render.toList = ['.'].intercalate p.texts := by
  rw [render, String.toList_intercalate, List.map_map]
  rfl

/-- A path whose steps have texts without dots. -/
def IsDotFree (p : Path) : Prop := ∀ s ∈ p, '.' ∉ s.text.toList

/-- A dot-free path that is not the root has the texts of its steps as segments. -/
theorem IsDotFree.segments_render {p : Path} (h : p.IsDotFree) (hne : p ≠ []) :
    segments p.render = p.texts := by
  rw [segments, toList_render, List.splitOn_intercalate]
  · intro w hw
    obtain ⟨s, hs, rfl⟩ := List.mem_map.1 hw
    exact h s hs
  · exact fun hnil => hne (List.map_eq_nil_iff.1 hnil)

end Path

namespace Step

/-- The text of an index is its digits in brackets. -/
theorem toList_text_index (i : Nat) :
    (Step.index i).text.toList = '[' :: (Nat.toDigits 10 i ++ [']']) := by
  rw [text, String.toList_append, String.toList_append]
  simp

/-- Steps into the same kind of container are told apart by their texts. -/
theorem eq_of_text_eq {s t : Step} (hk : s.kind = t.kind) (h : s.text = t.text) : s = t := by
  cases s with
  | key a =>
    cases t with
    | key b => exact congrArg Step.key h
    | index j => exact nomatch hk
  | index i =>
    cases t with
    | key b => exact nomatch hk
    | index j =>
      have hl := congrArg String.toList h
      rw [toList_text_index, toList_text_index] at hl
      -- The digits between the brackets are the same, and they give the index back.
      have hdigits : Nat.toDigits 10 i = Nat.toDigits 10 j :=
        List.append_cancel_right (List.cons.inj hl).2
      rw [← Nat.ofDigitChars_ten_toDigits (n := i), hdigits, Nat.ofDigitChars_ten_toDigits]

/-- The text of an index has no dot. -/
theorem dot_notMem_text_index (i : Nat) : '.' ∉ (Step.index i).text.toList := by
  rw [toList_text_index]
  intro h
  have hd : '.' ∈ Nat.toDigits 10 i := by simpa using h
  exact absurd (Nat.isDigit_of_mem_toDigits (by omega) (by omega) hd) (by decide)

/-- A step whose text cannot be taken for anything else: a key without a dot that is not written as
an index, or an index. -/
def IsPlain : Step → Prop
  | .key name => '.' ∉ name.toList ∧ ∀ i, name ≠ (Step.index i).text
  | .index _ => True

/-- A key without a dot is plain if it does not begin with a bracket. -/
theorem isPlain_key {name : String} (hdot : '.' ∉ name.toList)
    (hhead : name.toList.head? ≠ some '[') : (Step.key name).IsPlain := by
  refine ⟨hdot, fun i hi => hhead ?_⟩
  rw [hi, toList_text_index]
  rfl

/-- The text of a plain step has no dot. -/
theorem IsPlain.dot_notMem {s : Step} (h : s.IsPlain) : '.' ∉ s.text.toList := by
  cases s with
  | key name => exact h.1
  | index i => exact dot_notMem_text_index i

/-- Plain steps are told apart by their texts. -/
theorem IsPlain.eq_of_text_eq {s t : Step} (hs : s.IsPlain) (ht : t.IsPlain)
    (h : s.text = t.text) : s = t := by
  refine Step.eq_of_text_eq ?_ h
  cases s with
  | key a =>
    cases t with
    | key b => rfl
    | index j => exact absurd h (hs.2 j)
  | index i =>
    cases t with
    | key b => exact absurd h.symm (ht.2 i)
    | index j => rfl

end Step

namespace Path

/-- A path of plain steps. -/
def IsPlain (p : Path) : Prop := ∀ s ∈ p, s.IsPlain

/-- Where the steps are plain, the texts of one path begin those of another one only if the path
itself begins the other. -/
theorem prefix_of_texts_prefix {p q : Path} (hp : p.IsPlain) (hq : q.IsPlain)
    (h : p.texts <+: q.texts) : p <+: q := by
  induction p generalizing q with
  | nil => exact List.nil_prefix
  | cons s p ih =>
    cases q with
    | nil => exact nomatch List.prefix_nil.1 h
    | cons t q =>
      obtain ⟨htext, hrest⟩ := List.cons_prefix_cons.1 h
      have hst : s = t := (hp s List.mem_cons_self).eq_of_text_eq (hq t List.mem_cons_self)
        (String.toList_injective htext)
      have hpq : p <+: q := ih (fun u hu => hp u (List.mem_cons_of_mem _ hu))
        (fun u hu => hq u (List.mem_cons_of_mem _ hu)) hrest
      exact List.cons_prefix_cons.2 ⟨hst, hpq⟩

/-- The first segment of a path is the first one of the text of its first step. -/
theorem head?_segments_render_cons (s : Step) (p : Path) :
    (segments (render (s :: p))).head? = (segments s.text).head? := by
  rw [segments, segments, toList_render, texts, List.map_cons]
  cases p with
  | nil => rw [List.map_nil, List.intercalate_singleton]
  | cons t p =>
    obtain ⟨first, others, hsplit⟩ :=
      List.exists_cons_of_ne_nil (List.splitOn_ne_nil '.' s.text.toList)
    rw [List.map_cons, List.intercalate_cons_cons, List.append_assoc, List.singleton_append,
      List.splitOn_append_cons_self, hsplit]
    rfl

/-- A first step without a dot is the first segment of the text of the path. -/
theorem head?_segments_render {s : Step} (h : '.' ∉ s.text.toList) (p : Path) :
    (segments (render (s :: p))).head? = some s.text.toList := by
  rw [head?_segments_render_cons, segments, List.splitOn_eq_singleton h, List.head?_cons]

/-- If the segments of a path that begins with an index begin those of another path out of a
sequence, this begins with the same index. -/
theorem head?_eq_of_segments_prefix {p q : Path} {i : Nat} (hp : p.head? = some (.index i))
    (hq : ∀ s, q.head? = some s → s.kind = .sequence)
    (h : segments p.render <+: segments q.render) : q.head? = some (.index i) := by
  obtain ⟨p, rfl⟩ := List.head?_eq_some_iff.1 hp
  obtain ⟨rest, hrest⟩ := h
  have hfirst : (segments (render q)).head? = some (Step.index i).text.toList := by
    rw [← hrest, List.head?_append,
      head?_segments_render (Step.dot_notMem_text_index i), Option.some_or]
  cases q with
  | nil =>
    -- The root has one empty segment, and the text of an index is not empty.
    have hempty : [] = (Step.index i).text.toList := Option.some.inj hfirst
    rw [Step.toList_text_index] at hempty
    exact nomatch hempty
  | cons s q =>
    cases s with
    | key name => exact nomatch hq _ rfl
    | index j =>
      rw [head?_segments_render (Step.dot_notMem_text_index j)] at hfirst
      have htext := String.toList_injective (Option.some.inj hfirst)
      exact congrArg some (Step.eq_of_text_eq rfl htext)

/-- A plain path is dot-free. -/
theorem IsPlain.isDotFree {p : Path} (h : p.IsPlain) : p.IsDotFree := fun s hs =>
  (h s hs).dot_notMem

end Path

end TreeMatch
