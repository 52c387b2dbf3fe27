import TreeMatch.Proofs.Equivalence

/-!
# Truth values and numbers

Deep equality tells a truth value from a number, but a map takes the two for one key if they have
the same value. Two nodes of a pair of trees face each other (`Tree.Faces`) if they are found by the
same indices and, from map to map, under keys that are the same. Whatever faces each other in trees
that are deeply equal is deeply equal itself (`Faces.deepEqual`), so no value that is a number faces
a truth value. Keys that face each other are only the same: one of them can be a truth value and the
other one its number, and the keys of the expected tree can be exchanged for any that are the same
(`Rekeys.deepEqual`). The main statement (`deepEqual_tells_truth_values`) has both.
-/

namespace TreeMatch

/-! ## Clashes -/

namespace Scalar

/-- Whether a scalar is a number. A truth value is none. -/
def isNumber : Scalar → Bool
  | .int _ | .float _ => true
  | _ => false

/-- One of two scalars is a truth value, the other one a number. -/
def Clashes (r s : Scalar) : Prop :=
  (r.isBool = true ∧ s.isNumber = true) ∨ (r.isNumber = true ∧ s.isBool = true)

instance (r s : Scalar) : Decidable (r.Clashes s) := inferInstanceAs (Decidable (_ ∨ _))

/-- A truth value is one of two. -/
theorem exists_eq_bool {r : Scalar} (h : r.isBool = true) : ∃ b, r = .bool b := by
  cases r with
  | bool b => exact ⟨b, rfl⟩
  | null | int _ | float _ | str _ | bytes _ | moment _ => exact nomatch h

/-- A number is no truth value. -/
theorem isBool_of_isNumber {r : Scalar} (h : r.isNumber = true) : r.isBool = false := by
  cases r with
  | int _ | float _ => rfl
  | null | bool _ | str _ | bytes _ | moment _ => exact nomatch h

/-- Scalars that are equal as leaves do not clash. -/
theorem not_clashes_of_equal {r s : Scalar} (h : r.equal s = true) : ¬ r.Clashes s := by
  have hbool : r.isBool = s.isBool := beq_iff_eq.1 (Bool.and_eq_true_iff.1 h).1
  rintro (⟨hr, hs⟩ | ⟨hr, hs⟩)
  · exact Bool.false_ne_true ((isBool_of_isNumber hs).symm.trans (hbool.symm.trans hr))
  · exact Bool.false_ne_true ((isBool_of_isNumber hr).symm.trans (hbool.trans hs))

/-- The number of a truth value. -/
def ofTruth (b : Bool) : Scalar := .int (if b then 1 else 0)

end Scalar

namespace Key

/-- One of two keys is a truth value, the other one a number. -/
def Clashes (k l : Key) : Prop := ∃ r s, k = .scalar r ∧ l = .scalar s ∧ r.Clashes s

/-- Keys that clash although they are the same are a truth value and its number. -/
theorem exists_of_clashes_of_same {k l : Key} (hclash : k.Clashes l) (hsame : l.same k = true) :
    ∃ b n, n.isNumber = true ∧ n.same (.ofTruth b) = true ∧
      ((k = .scalar (.bool b) ∧ l = .scalar n) ∨ (k = .scalar n ∧ l = .scalar (.bool b))) := by
  obtain ⟨r, s, rfl, rfl, ⟨hr, hs⟩ | ⟨hr, hs⟩⟩ := hclash
  · obtain ⟨b, rfl⟩ := Scalar.exists_eq_bool hr
    exact ⟨b, s, hs, hsame, .inl ⟨rfl, rfl⟩⟩
  · obtain ⟨b, rfl⟩ := Scalar.exists_eq_bool hs
    have hsame' : r.same (.bool b) = true :=
      (Scalar.partialEquivalence_same.comm _ _).trans hsame
    exact ⟨b, r, hr, hsame', .inr ⟨rfl, rfl⟩⟩

end Key

namespace Tree

variable {α : Type u} {a e x y : Tree α}

/-! ## Facing nodes -/

/-- A node of the first tree and one of the second tree that deep equality compares. -/
inductive Faces (a e : Tree α) : Tree α → Tree α → Prop where
  /-- The trees themselves. -/
  | root : Faces a e a e
  /-- Elements of facing sequences at the same index. -/
  | element {x y x' y' : Tree α} {xs ys : List (Tree α)} {i : Nat} (above : Faces a e x y)
      (hx : x.items? = some xs) (hy : y.items? = some ys) (hx' : xs[i]? = some x')
      (hy' : ys[i]? = some y') : Faces a e x' y'
  /-- Values of facing maps under keys that are the same. -/
  | entry {es ds : List (Key × Tree α)} {k l : Key} {x y : Tree α}
      (above : Faces a e (.map es) (.map ds)) (hx : (k, x) ∈ es) (hy : (l, y) ∈ ds)
      (same : l.same k = true) : Faces a e x y

/-- Two keys of facing maps that are the same. -/
def FacingKeys (a e : Tree α) (k l : Key) : Prop :=
  ∃ es ds, Faces a e (.map es) (.map ds) ∧ k ∈ Assoc.keys es ∧ l ∈ Assoc.keys ds ∧
    l.same k = true

/-- In trees with distinct keys that are deeply equal, facing nodes are so as well. -/
theorem Faces.deepEqual (hxy : Faces a e x y) (ha : a.DistinctKeys) (he : e.DistinctKeys)
    (h : a.deepEqual e = true) :
    x.DistinctKeys ∧ y.DistinctKeys ∧ x.deepEqual y = true := by
  induction hxy with
  | root => exact ⟨ha, he, h⟩
  | element _ hx hy hx' hy' ih =>
    obtain ⟨hkx, hky, hequal⟩ := ih
    obtain ⟨zs, hzs, hitems⟩ := (deepEqual_items_iff hy).1 hequal
    obtain rfl := Option.some.inj (hx.symm.trans hzs)
    obtain ⟨v, hv, hequal'⟩ := (itemsEqual_iff.1 hitems).2 _ _ hy'
    obtain rfl := Option.some.inj (hx'.symm.trans hv)
    exact ⟨hkx.child (mem_children_of_getElem? hx hx'),
      hky.child (mem_children_of_getElem? hy hy'), hequal'⟩
  | @entry es ds k l x y _ hx hy same ih =>
    obtain ⟨hkx, hky, hequal⟩ := ih
    obtain ⟨_, hes, -, hentries⟩ := deepEqual_map_iff.1 hequal
    obtain rfl := Tree.map.inj hes
    -- The expected key finds the value under the only key that is the same.
    obtain ⟨v, hv, hequal'⟩ := entriesEqual_iff.1 hentries _ hy
    have hfound := hkx.1.get?_of_mem Key.partialEquivalence_same hx same
    obtain rfl : x = v := Option.some.inj (hfound.symm.trans hv)
    exact ⟨hkx.child (List.mem_map_of_mem hx), hky.child (List.mem_map_of_mem hy), hequal'⟩

/-- In maps that are deeply equal, every expected key has one that is the same. -/
theorem exists_same_of_deepEqual {es ds : List (Key × Tree α)}
    (h : (Tree.map es).deepEqual (.map ds) = true) {l : Key} (hl : l ∈ Assoc.keys ds) :
    ∃ k ∈ Assoc.keys es, l.same k = true := by
  obtain ⟨_, hes, -, hentries⟩ := deepEqual_map_iff.1 h
  obtain rfl := Tree.map.inj hes
  obtain ⟨d, hd, rfl⟩ := List.mem_map.1 hl
  obtain ⟨e, he, hsame⟩ := exists_same_of_entriesEqual hentries d hd
  exact ⟨e.1, List.mem_map_of_mem he, hsame⟩

/-! ## Exchanged keys -/

/-- The first tree comes from the second one by exchanging keys of maps for ones that are the same,
and lists and tuples for one another. -/
inductive Rekeys : Tree α → Tree α → Prop where
  /-- A scalar stays as it is. -/
  | scalar (s : Scalar) : Rekeys (.scalar s) (.scalar s)
  /-- A set stays as it is. -/
  | set (ms : List Member) : Rekeys (.set ms) (.set ms)
  /-- A check stays as it is. -/
  | check (c : α) : Rekeys (.check c) (.check c)
  /-- The keys are exchanged in each element of a sequence. -/
  | sequence {t u : Tree α} {xs ys : List (Tree α)} (ht : t.items? = some xs)
      (hu : u.items? = some ys) (length : xs.length = ys.length)
      (elements : ∀ p ∈ xs.zip ys, Rekeys p.1 p.2) : Rekeys t u
  /-- The keys of a map are exchanged, and those in its values. -/
  | map {ds es : List (Key × Tree α)} (length : ds.length = es.length)
      (keys : ∀ p ∈ ds.zip es, p.1.1.same p.2.1 = true)
      (values : ∀ p ∈ ds.zip es, Rekeys p.1.2 p.2.2) : Rekeys (.map ds) (.map es)

/-- Exchanging keys of the expected tree for the same ones goes unnoticed. -/
theorem Rekeys.deepEqual {e' : Tree α} (hkeys : e'.Rekeys e) (h : a.deepEqual e = true) :
    a.deepEqual e' = true := by
  induction hkeys generalizing a with
  | scalar _ | set _ | check _ => exact h
  | @sequence t u xs ys ht hu length _ ih =>
    obtain ⟨zs, hzs, hequal⟩ := (deepEqual_items_iff hu).1 h
    obtain ⟨hlength, hitems⟩ := itemsEqual_iff.1 hequal
    refine (deepEqual_items_iff ht).2 ⟨zs, hzs, itemsEqual_iff.2
      ⟨hlength.trans length.symm, fun i x hx => ?_⟩⟩
    obtain ⟨hi, -⟩ := List.getElem?_eq_some_iff.1 hx
    have hy : ys[i]? = some ys[i] := List.getElem?_eq_getElem (length ▸ hi)
    have hpair : (x, ys[i]) ∈ xs.zip ys :=
      List.mem_of_getElem? (List.getElem?_zip_eq_some.2 ⟨hx, hy⟩)
    obtain ⟨v, hv, hequal'⟩ := hitems i _ hy
    exact ⟨v, hv, ih _ hpair hequal'⟩
  | @map ds es length keys _ ih =>
    obtain ⟨as, rfl, hlength, hentries⟩ := deepEqual_map_iff.1 h
    refine deepEqual_map_iff.2 ⟨as, rfl, hlength.trans length.symm,
      entriesEqual_iff.2 fun d hd => ?_⟩
    have hzip : d ∈ (ds.zip es).map Prod.fst := by
      rwa [List.map_fst_zip (Nat.le_of_eq length)]
    obtain ⟨p, hp, rfl⟩ := List.mem_map.1 hzip
    obtain ⟨v, hv, hequal⟩ := entriesEqual_iff.1 hentries p.2 (List.of_mem_zip hp).2
    -- The two keys are the same, so they find the same value.
    rw [← Assoc.get?_congr Key.partialEquivalence_same (keys p hp)] at hv
    exact ⟨v, hv, ih p hp hequal⟩

end Tree

/-- Where a tree is deeply equal to an expected one, no value in it that is a truth value faces a
number, or the other way round. Every key of two facing maps faces one that is the same. If one of
these two is a truth value and the other one a number, the number is 1 for true and 0 for false; and
such a difference goes unnoticed, since each key of the expected tree may be exchanged for one that
is the same. -/
theorem deepEqual_tells_truth_values {α : Type u} (a e : Tree α) (ha : a.DistinctKeys)
    (he : e.DistinctKeys) (h : a.deepEqual e = true) :
    (∀ r s, Tree.Faces a e (.scalar r) (.scalar s) → ¬ r.Clashes s) ∧
    (∀ es ds, Tree.Faces a e (.map es) (.map ds) →
      (∀ k ∈ Assoc.keys es, ∃ l ∈ Assoc.keys ds, l.same k = true) ∧
      ∀ l ∈ Assoc.keys ds, ∃ k ∈ Assoc.keys es, l.same k = true) ∧
    (∀ k l, Tree.FacingKeys a e k l → k.Clashes l →
      ∃ b n, n.isNumber = true ∧ n.same (.ofTruth b) = true ∧
        ((k = .scalar (.bool b) ∧ l = .scalar n) ∨ (k = .scalar n ∧ l = .scalar (.bool b)))) ∧
    ∀ e', Tree.Rekeys e' e → a.deepEqual e' = true := by
  refine ⟨fun r s hfaces => ?_, fun es ds hfaces => ?_,
    fun k l ⟨_, _, _, _, _, hsame⟩ hclash => Key.exists_of_clashes_of_same hclash hsame,
    fun e' hkeys => hkeys.deepEqual h⟩
  · obtain ⟨r', hr', hequal⟩ := Tree.deepEqual_scalar_iff.1 (hfaces.deepEqual ha he h).2.2
    obtain rfl := Tree.scalar.inj hr'
    exact Scalar.not_clashes_of_equal hequal
  · obtain ⟨hes, hds, hequal⟩ := hfaces.deepEqual ha he h
    refine ⟨fun k hk => ?_, fun l hl => Tree.exists_same_of_deepEqual hequal hl⟩
    -- Either of the two maps may be the expected one.
    have hequal' := Tree.deepEqual_symm hes hds hequal
    obtain ⟨l, hl, hsame⟩ := Tree.exists_same_of_deepEqual hequal' hk
    exact ⟨l, hl, Key.same_comm k l ▸ hsame⟩

/-- A switch under a whole number, with what it is set to. -/
def switches : PlainTree := .map [(.scalar (.int 1), .list [.bool true, .int 0])]

/-- The same switch under a floating point number, with other numbers in a tuple. -/
def floatSwitches : PlainTree :=
  .map [(.scalar (.float (.ofInt 1)), .tuple [.bool true, .scalar (.float (.ofInt 0))])]

/-- The latter under a truth value. -/
def truthSwitches : PlainTree :=
  .map [(.scalar (.bool true), .tuple [.bool true, .scalar (.float (.ofInt 0))])]

/-- The truth value that the switch is set to faces itself and no number. The number of the switch
may be a truth value. -/
theorem switches_tell_truth_values :
    Tree.Faces switches floatSwitches (.bool true) (.bool true) ∧
    (∀ s, Tree.Faces switches floatSwitches (.bool true) (.scalar s) → s.isNumber = false) ∧
    switches.deepEqual truthSwitches = true := by
  have hnumbers : (Key.scalar (.float (.ofInt 1))).same (.scalar (.int 1)) = true := by
    decide +kernel
  have hfaces : Tree.Faces switches floatSwitches (.bool true) (.bool true) :=
    .element (.entry .root List.mem_cons_self List.mem_cons_self hnumbers) rfl rfl
      List.getElem?_cons_zero List.getElem?_cons_zero
  have hexchanged : truthSwitches.Rekeys floatSwitches := by
    refine .map rfl (List.forall_mem_singleton.2 (by decide +kernel))
      (List.forall_mem_singleton.2 (.sequence rfl rfl rfl fun p hp => ?_))
    simp only [List.zip_cons_cons, List.zip_nil_left, List.mem_cons, List.not_mem_nil,
      or_false] at hp
    rcases hp with rfl | rfl
    · exact .scalar _
    · exact .scalar _
  obtain ⟨hvalues, -, -, hkeys⟩ := deepEqual_tells_truth_values switches floatSwitches
    ⟨by decide, ⟨trivial, trivial, trivial⟩, trivial⟩
    ⟨by decide, ⟨trivial, trivial, trivial⟩, trivial⟩ (by decide +kernel)
  refine ⟨hfaces, fun s hs => ?_, hkeys _ hexchanged⟩
  exact Bool.eq_false_iff.2 fun hnumber => hvalues _ s hs (.inl ⟨rfl, hnumber⟩)

/-- One entry under a whole number. -/
def numberedEntry : PlainTree := .map [(.scalar (.int 1), .str "x")]

/-- The same entry under a truth value. -/
def truthEntry : PlainTree := .map [(.scalar (.bool true), .str "x")]

/-- A truth value may face a number as a key: not in all trees that are deeply equal are keys told
apart as values are. -/
theorem truthEntry_clashes_numberedEntry :
    ¬ ∀ a e : PlainTree, a.DistinctKeys → e.DistinctKeys → a.deepEqual e = true →
      (∀ r s, Tree.Faces a e (.scalar r) (.scalar s) → ¬ r.Clashes s) ∧
      ∀ k l, Tree.FacingKeys a e k l → ¬ k.Clashes l := by
  intro h
  obtain ⟨-, hkeys⟩ := h numberedEntry truthEntry ⟨by decide, trivial, trivial⟩
    ⟨by decide, trivial, trivial⟩ (by decide +kernel)
  refine hkeys (.scalar (.int 1)) (.scalar (.bool true)) ?_ ⟨_, _, rfl, rfl, by decide⟩
  exact ⟨_, _, .root, List.mem_cons_self, List.mem_cons_self, by decide⟩

end TreeMatch
