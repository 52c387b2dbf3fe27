import Mathlib.Data.List.Perm.Subperm
import TreeMatch.Proofs.TextKeys
import TreeMatch.Tree.Equality

/-!
# Deep equality by the children

`Tree.deepEqual` compares maps by their length and by the values under the expected keys, and
sequences element by element. In terms of children both say the same: every child of the expected
tree has an equal one at its step, and there are no other steps (`deepEqual_iff_children`). The
number of children settles the second part (`Corresponds`), since steps that differ and are all
among as many other ones are those other ones.
-/

namespace TreeMatch.Tree

variable {α : Type u}

/-! ## The clauses of the comparison -/

/-- Sequences are equal if they are equally long and equal at every place of the expected one. -/
theorem itemsEqual_iff {as xs : List (Tree α)} :
    itemsEqual as xs = true ↔ as.length = xs.length ∧
      ∀ (i : Nat) (x : Tree α), xs[i]? = some x → ∃ v, as[i]? = some v ∧ v.deepEqual x = true := by
  induction xs generalizing as with
  | nil =>
    cases as with
    | nil => simp [itemsEqual]
    | cons a as => simp [itemsEqual]
  | cons x xs ih =>
    cases as with
    | nil => simp [itemsEqual]
    | cons a as =>
      rw [itemsEqual, Bool.and_eq_true, ih, List.length_cons, List.length_cons,
        Nat.add_right_cancel_iff]
      constructor
      · rintro ⟨hhead, hlength, hrest⟩
        refine ⟨hlength, fun i y hy => ?_⟩
        cases i with
        | zero =>
          obtain rfl := Option.some.inj hy
          exact ⟨a, rfl, hhead⟩
        | succ i => exact hrest i y hy
      · rintro ⟨hlength, h⟩
        obtain ⟨v, hv, hhead⟩ := h 0 x rfl
        obtain rfl := Option.some.inj hv
        exact ⟨hhead, hlength, fun i y hy => h (i + 1) y hy⟩

/-- Every expected entry has an equal one if this holds of them one by one. -/
theorem entriesEqual_iff {as es : List (Key × Tree α)} :
    entriesEqual as es = true ↔
      ∀ e ∈ es, ∃ v, Assoc.get? Key.same e.1 as = some v ∧ v.deepEqual e.2 = true := by
  induction es with
  | nil => simp [entriesEqual]
  | cons e es ih =>
    obtain ⟨k, x⟩ := e
    rw [entriesEqual, Bool.and_eq_true, ih, List.forall_mem_cons]
    refine and_congr_left fun _ => ?_
    cases Assoc.get? Key.same k as with
    | none => simp
    | some v => simp

/-- A text among keys that are texts is found by its name. -/
theorem get?_eq_entry? {as : List (Key × Tree α)} (h : ∀ e ∈ as, ∃ t, e.1 = .scalar (.str t))
    (s : String) : Assoc.get? Key.same (.scalar (.str s)) as = entry? as s := by
  induction as with
  | nil => rfl
  | cons e as ih =>
    obtain ⟨t, ht⟩ := h e List.mem_cons_self
    have hrest := ih fun d hd => h d (List.mem_cons_of_mem _ hd)
    obtain ⟨k, x⟩ := e
    obtain rfl : k = .scalar (.str t) := ht
    have hstr : (Key.scalar (.str t)).str? = some t := rfl
    rw [Assoc.get?, Key.same_str, hrest, entry?, entry?, List.find?_cons, List.find?_cons, hstr]
    by_cases hst : s = t
    · simp [hst]
    · have hts : (t == s) = false := by simpa using Ne.symm hst
      simp [hst, hts]

/-! ## The comparison as a whole -/

/-- A tree that is equal to one without children has none either. -/
theorem children_eq_nil_of_deepEqual {a s : Tree α} (h : a.deepEqual s = true)
    (hs : s.children = []) : a.children = [] := by
  have hempty : ∀ as : List (Tree α), itemsEqual as [] = true → as = [] := fun as has =>
    List.eq_nil_of_length_eq_zero (itemsEqual_iff.1 has).1
  cases s with
  | list xs | tuple xs =>
    obtain rfl : xs = [] := by simpa [children] using hs
    cases a with
    | list as | tuple as =>
      obtain rfl := hempty as h
      rfl
    | scalar _ | set _ | map _ | check _ => exact absurd h Bool.false_ne_true
  | map es =>
    obtain rfl : es = [] := by simpa [children] using hs
    cases a with
    | map as =>
      obtain ⟨hlength, -⟩ := Bool.and_eq_true_iff.1 h
      obtain rfl : as = [] := by simpa using hlength
      rfl
    | scalar _ | set _ | list _ | tuple _ | check _ => exact absurd h Bool.false_ne_true
  | scalar _ | set _ | check _ =>
    cases a with
    | scalar _ | set _ | check _ => rfl
    | list _ | tuple _ | map _ => exact absurd h Bool.false_ne_true

/-- The children of two trees correspond: there are as many of them, and every child of the second
tree has an equal one at its step. -/
def Corresponds (a s : Tree α) : Prop :=
  a.children.length = s.children.length ∧
    ∀ c ∈ s.children, ∃ v, a.child? c.1 = some v ∧ v.deepEqual c.2 = true

/-- Sequences, lists or tuples, are equal if their children correspond. -/
theorem itemsEqual_iff_corresponds {a s : Tree α} {as xs : List (Tree α)}
    (ha : a.children = (Tree.list as).children) (hchild : ∀ i, a.child? (.index i) = as[i]?)
    (hs : s.children = (Tree.list xs).children) :
    itemsEqual as xs = true ↔ a.Corresponds s := by
  rw [itemsEqual_iff, Corresponds, ha, hs, children, children, List.length_map, List.length_map,
    List.length_zipIdx, List.length_zipIdx]
  refine and_congr_right fun _ => ?_
  constructor
  · intro h c hc
    obtain ⟨i, hx, hi⟩ := mem_children_list_iff.1 hc
    rw [hi, hchild]
    exact h i c.2 hx
  · intro h i x hx
    rw [← hchild]
    exact h (.index i, x) (mem_children_list_iff.2 ⟨i, hx, rfl⟩)

/-- Maps with text keys are equal if their children correspond. -/
theorem map_deepEqual_iff_corresponds {as es : List (Key × Tree α)}
    (ha : (Tree.map as).HasTextKeys) (hs : (Tree.map es).HasTextKeys) :
    (Tree.map as).deepEqual (.map es) = true ↔ (Tree.map as).Corresponds (.map es) := by
  have htexts : ∀ e ∈ as, ∃ t, e.1 = .scalar (.str t) := fun e he =>
    (ha.exists_key he).imp fun t ht => ht.1
  rw [deepEqual, Bool.and_eq_true, beq_iff_eq, entriesEqual_iff, Corresponds, children, children,
    List.length_map, List.length_map, List.forall_mem_map]
  refine and_congr_right fun _ => forall₂_congr fun e he => ?_
  obtain ⟨s, hks, -⟩ := hs.exists_key he
  rw [hks, get?_eq_entry? htexts]
  rfl

/-- A tree is equal to one with children if the children correspond. -/
theorem deepEqual_iff_corresponds {a s : Tree α} (ha : a.HasTextKeys) (hs : s.HasTextKeys)
    (hne : s.children ≠ []) : a.deepEqual s = true ↔ a.Corresponds s := by
  obtain ⟨c, hc⟩ := List.exists_mem_of_ne_nil _ hne
  cases s with
  | list xs | tuple xs =>
    cases a with
    | list as | tuple as => exact itemsEqual_iff_corresponds rfl (fun _ => rfl) rfl
    | scalar _ | set _ | map _ | check _ =>
      refine iff_of_false (fun h => nomatch h) fun h => ?_
      obtain ⟨v, hv, -⟩ := h.2 c hc
      obtain ⟨e, -, rfl⟩ := List.mem_map.1 hc
      exact nomatch hv
  | map es =>
    cases a with
    | map as => exact map_deepEqual_iff_corresponds ha hs
    | scalar _ | set _ | list _ | tuple _ | check _ =>
      refine iff_of_false (fun h => nomatch h) fun h => ?_
      obtain ⟨v, hv, -⟩ := h.2 c hc
      obtain ⟨e, -, rfl⟩ := List.mem_map.1 hc
      exact nomatch hv
  | scalar _ | set _ | check _ => exact absurd rfl hne

/-- A tree is equal to one with children if every child of the latter has an equal one at its step,
and there are no other steps. -/
theorem deepEqual_iff_children {a s : Tree α} (ha : a.HasTextKeys) (hs : s.HasTextKeys)
    (hne : s.children ≠ []) : a.deepEqual s = true ↔
      (∀ c ∈ s.children, ∃ v, a.child? c.1 = some v ∧ v.deepEqual c.2 = true) ∧
        ∀ d ∈ a.children, ∃ c ∈ s.children, c.1 = d.1 := by
  rw [deepEqual_iff_corresponds ha hs hne, Corresponds, and_comm]
  refine and_congr_right fun h => ?_
  have hsteps : s.children.map (·.1) ⊆ a.children.map (·.1) := by
    intro u hu
    obtain ⟨c, hc, rfl⟩ := List.mem_map.1 hu
    obtain ⟨v, hv, -⟩ := h c hc
    exact List.mem_map.2 ⟨_, mem_children_of_child? hv, rfl⟩
  have hsub := List.subperm_of_subset hs.nodup_steps hsteps
  constructor
  · -- The steps of `s` are steps of `a`, and there are as many of both.
    intro hlength d hd
    have hperm := hsub.perm_of_length_le
      (by rw [List.length_map, List.length_map]; exact Nat.le_of_eq hlength)
    exact List.mem_map.1 (hperm.mem_iff.2 (List.mem_map_of_mem hd))
  · intro hothers
    have hback : a.children.map (·.1) ⊆ s.children.map (·.1) := by
      intro u hu
      obtain ⟨d, hd, rfl⟩ := List.mem_map.1 hu
      exact List.mem_map.2 (hothers d hd)
    have hperm := hsub.antisymm (List.subperm_of_subset ha.nodup_steps hback)
    have hlength := hperm.length_eq
    rw [List.length_map, List.length_map] at hlength
    exact hlength.symm

end TreeMatch.Tree
