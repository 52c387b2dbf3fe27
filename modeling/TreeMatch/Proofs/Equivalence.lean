import TreeMatch.Proofs.Rearranging
import TreeMatch.Proofs.SameKeys

/-!
# Deep equality is an equivalence

`Tree.deepEqual` looks up the keys of the expected tree only. Where the keys of each map are
distinct, it makes no difference which of two trees is the expected one (`deepEqual_symm`): each key
of the expected map has its own in the other one, which has as many. Keys that are the same as a
third one find the same value, so that deep equality is transitive as well (`deepEqual_trans`). A
tree without NaN is equal to all its rearrangements, itself among them (`Rearranges.deepEqual`). The
main statement (`deepEqual_equivalence`) has all three.
-/

namespace TreeMatch

namespace Tree

variable {α : Type u}

/-! ## What is equal to a tree of some shape -/

/-- Only scalars are equal to a scalar. -/
theorem deepEqual_scalar_iff {a : Tree α} {s : Scalar} :
    a.deepEqual (.scalar s) = true ↔ ∃ r, a = .scalar r ∧ r.equal s = true := by
  constructor
  · intro h
    cases a with
    | scalar r => exact ⟨r, rfl, h⟩
    | set _ | list _ | tuple _ | map _ | check _ => exact nomatch h
  · rintro ⟨r, rfl, h⟩
    exact h

/-- Only sets are equal to a set. -/
theorem deepEqual_set_iff {a : Tree α} {ms : List Member} :
    a.deepEqual (.set ms) = true ↔ ∃ ns, a = .set ns ∧ Member.sameAll ns ms = true := by
  constructor
  · intro h
    cases a with
    | set ns => exact ⟨ns, rfl, h⟩
    | scalar _ | list _ | tuple _ | map _ | check _ => exact nomatch h
  · rintro ⟨ns, rfl, h⟩
    exact h

/-- Only sequences are equal to a sequence. -/
theorem deepEqual_items_iff {a b : Tree α} {ys : List (Tree α)} (hb : b.items? = some ys) :
    a.deepEqual b = true ↔ ∃ xs, a.items? = some xs ∧ itemsEqual xs ys = true := by
  cases b with
  | list zs | tuple zs =>
    obtain rfl := Option.some.inj hb
    constructor
    · intro h
      cases a with
      | list xs | tuple xs => exact ⟨xs, rfl, h⟩
      | scalar _ | set _ | map _ | check _ => exact nomatch h
    · rintro ⟨xs, hxs, h⟩
      cases a with
      | list ws | tuple ws =>
        obtain rfl := Option.some.inj hxs
        exact h
      | scalar _ | set _ | map _ | check _ => exact nomatch hxs
  | scalar _ | set _ | map _ | check _ => exact nomatch hb

/-- Only maps are equal to a map, those with as many entries. -/
theorem deepEqual_map_iff {a : Tree α} {ds : List (Key × Tree α)} :
    a.deepEqual (.map ds) = true ↔
      ∃ es, a = .map es ∧ es.length = ds.length ∧ entriesEqual es ds = true := by
  constructor
  · intro h
    cases a with
    | map es =>
      obtain ⟨hlength, hentries⟩ := Bool.and_eq_true_iff.1 h
      exact ⟨es, rfl, beq_iff_eq.1 hlength, hentries⟩
    | scalar _ | set _ | list _ | tuple _ | check _ => exact nomatch h
  · rintro ⟨es, rfl, hlength, hentries⟩
    exact Bool.and_eq_true_iff.2 ⟨beq_iff_eq.2 hlength, hentries⟩

/-- Nothing is equal to a check. -/
theorem deepEqual_check (a : Tree α) (c : α) : a.deepEqual (.check c) = false := by
  cases a with
  | scalar _ | set _ | list _ | tuple _ | map _ | check _ => rfl

/-! ## Symmetry -/

/-- An element of a sequence is a child under its index. -/
theorem mem_children_of_getElem? {t : Tree α} {xs : List (Tree α)} (h : t.items? = some xs)
    {i : Nat} {x : Tree α} (hx : xs[i]? = some x) : (Step.index i, x) ∈ t.children :=
  (mem_children_of_items? h).2 ⟨i, hx, rfl⟩

/-- If every element is equal to its counterpart, this holds the other way round, provided that it
does so for each two of them. -/
theorem itemsEqual_symm {xs ys : List (Tree α)} (h : itemsEqual xs ys = true)
    (hsymm : ∀ (i : Nat) (x y : Tree α), xs[i]? = some x → ys[i]? = some y →
      x.deepEqual y = true → y.deepEqual x = true) : itemsEqual ys xs = true := by
  obtain ⟨hlength, hitems⟩ := itemsEqual_iff.1 h
  refine itemsEqual_iff.2 ⟨hlength.symm, fun i x hx => ?_⟩
  obtain ⟨hi, -⟩ := List.getElem?_eq_some_iff.1 hx
  have hy : ys[i]? = some ys[i] := List.getElem?_eq_getElem (hlength ▸ hi)
  obtain ⟨x', hx', hequal⟩ := hitems i _ hy
  obtain rfl : x = x' := Option.some.inj (hx.symm.trans hx')
  exact ⟨_, hy, hsymm i x _ hx hy hequal⟩

/-- If a map has equal values for the entries of another one, it has their keys. -/
theorem exists_same_of_entriesEqual {es ds : List (Key × Tree α)} (h : entriesEqual es ds = true) :
    ∀ d ∈ ds, ∃ e ∈ es, d.1.same e.1 = true := by
  intro d hd
  obtain ⟨v, hv, -⟩ := entriesEqual_iff.1 h d hd
  obtain ⟨e, he, hsame, -⟩ := Assoc.exists_of_get?_eq_some hv
  exact ⟨e, he, hsame⟩

/-- If a map has equal values for the entries of another one, both with distinct keys and the first
not with more of them, this holds the other way round, provided that it does so for each two values.
-/
theorem entriesEqual_symm {es ds : List (Key × Tree α)} (hes : Assoc.Distinct Key.same es)
    (hds : Assoc.Distinct Key.same ds) (hlength : es.length ≤ ds.length)
    (h : entriesEqual es ds = true)
    (hsymm : ∀ e ∈ es, ∀ d ∈ ds, e.2.deepEqual d.2 = true → d.2.deepEqual e.2 = true) :
    entriesEqual ds es = true := by
  have hentries := entriesEqual_iff.1 h
  refine entriesEqual_iff.2 fun e he => ?_
  -- As the other map has not more keys, each of them is the partner of one.
  obtain ⟨d, hd, hsame⟩ := Assoc.exists_same_of_length_le Key.partialEquivalence_same hds
    (exists_same_of_entriesEqual h) hlength e he
  obtain ⟨v, hv, hequal⟩ := hentries d hd
  have hfound := hes.get?_of_mem Key.partialEquivalence_same he hsame
  obtain rfl : e.2 = v := Option.some.inj (hfound.symm.trans hv)
  have hback := hds.get?_of_mem Key.partialEquivalence_same hd (Key.same_comm d.1 e.1 ▸ hsame)
  exact ⟨d.2, hback, hsymm e he d hd hequal⟩

/-- With distinct keys, a tree that is equal to an expected one may as well be the expected one. -/
theorem deepEqual_symm {a b : Tree α} (ha : a.DistinctKeys) (hb : b.DistinctKeys)
    (h : a.deepEqual b = true) : b.deepEqual a = true := by
  induction b using byChildren generalizing a with
  | node b ih =>
    cases b with
    | scalar s =>
      obtain ⟨r, rfl, hrs⟩ := deepEqual_scalar_iff.1 h
      exact deepEqual_scalar_iff.2 ⟨s, rfl, Scalar.partialEquivalence_equal.comm r s ▸ hrs⟩
    | set ms =>
      obtain ⟨ns, rfl, hnm⟩ := deepEqual_set_iff.1 h
      exact deepEqual_set_iff.2 ⟨ms, rfl, Member.partialEquivalence_sameAll.comm ns ms ▸ hnm⟩
    | check c => exact absurd ((deepEqual_check a c).symm.trans h) Bool.false_ne_true
    | list ys | tuple ys =>
      obtain ⟨xs, hxs, hequal⟩ := (deepEqual_items_iff rfl).1 h
      refine (deepEqual_items_iff hxs).2 ⟨ys, rfl, itemsEqual_symm hequal fun i x y hx hy => ?_⟩
      exact ih _ (mem_children_of_getElem? rfl hy) (ha.child (mem_children_of_getElem? hxs hx))
        (hb.child (mem_children_of_getElem? rfl hy))
    | map ds =>
      obtain ⟨es, rfl, hlength, hentries⟩ := deepEqual_map_iff.1 h
      refine deepEqual_map_iff.2 ⟨ds, rfl, hlength.symm, ?_⟩
      refine entriesEqual_symm ha.1 hb.1 (Nat.le_of_eq hlength) hentries fun e he d hd => ?_
      exact ih _ (List.mem_map_of_mem hd) (ha.child (List.mem_map_of_mem he))
        (hb.child (List.mem_map_of_mem hd))

/-! ## Transitivity -/

/-- Two lists that are equal to a third one element by element are equal element by element,
provided that this holds for each three of their elements. -/
theorem itemsEqual_trans {xs ys zs : List (Tree α)} (hxy : itemsEqual xs ys = true)
    (hyz : itemsEqual ys zs = true)
    (htrans : ∀ (i : Nat) (x y z : Tree α), zs[i]? = some z →
      x.deepEqual y = true → y.deepEqual z = true → x.deepEqual z = true) :
    itemsEqual xs zs = true := by
  obtain ⟨hlength, hitems⟩ := itemsEqual_iff.1 hxy
  obtain ⟨hlength', hitems'⟩ := itemsEqual_iff.1 hyz
  refine itemsEqual_iff.2 ⟨hlength.trans hlength', fun i z hz => ?_⟩
  obtain ⟨y, hy, hequal'⟩ := hitems' i z hz
  obtain ⟨x, hx, hequal⟩ := hitems i y hy
  exact ⟨x, hx, htrans i x y z hz hequal hequal'⟩

/-- If a map has equal values for the entries of a second one, and this has them for a third one,
the first one has them for the third one, provided that this holds for each three values. -/
theorem entriesEqual_trans {es ds fs : List (Key × Tree α)} (hed : entriesEqual es ds = true)
    (hdf : entriesEqual ds fs = true)
    (htrans : ∀ x y : Tree α, ∀ f ∈ fs, x.deepEqual y = true → y.deepEqual f.2 = true →
      x.deepEqual f.2 = true) : entriesEqual es fs = true := by
  refine entriesEqual_iff.2 fun f hf => ?_
  obtain ⟨w, hw, hequal'⟩ := entriesEqual_iff.1 hdf f hf
  obtain ⟨d, hd, hsame, rfl⟩ := Assoc.exists_of_get?_eq_some hw
  obtain ⟨v, hv, hequal⟩ := entriesEqual_iff.1 hed d hd
  -- The keys of the two entries are the same, so they find the same value.
  rw [← Assoc.get?_congr Key.partialEquivalence_same hsame] at hv
  exact ⟨v, hv, htrans v d.2 f hf hequal hequal'⟩

/-- What is equal to a tree that is equal to another one is equal to the latter. -/
theorem deepEqual_trans {a b c : Tree α} (hab : a.deepEqual b = true)
    (hbc : b.deepEqual c = true) : a.deepEqual c = true := by
  induction c using byChildren generalizing a b with
  | node c ih =>
    cases c with
    | scalar s =>
      obtain ⟨r, rfl, hrs⟩ := deepEqual_scalar_iff.1 hbc
      obtain ⟨q, rfl, hqr⟩ := deepEqual_scalar_iff.1 hab
      exact Scalar.partialEquivalence_equal.trans hqr hrs
    | set ms =>
      obtain ⟨ns, rfl, hnm⟩ := deepEqual_set_iff.1 hbc
      obtain ⟨ps, rfl, hpn⟩ := deepEqual_set_iff.1 hab
      exact Member.partialEquivalence_sameAll.trans hpn hnm
    | check d => exact absurd ((deepEqual_check b d).symm.trans hbc) Bool.false_ne_true
    | list zs | tuple zs =>
      obtain ⟨ys, hys, hyz⟩ := (deepEqual_items_iff rfl).1 hbc
      obtain ⟨xs, hxs, hxy⟩ := (deepEqual_items_iff hys).1 hab
      refine (deepEqual_items_iff rfl).2 ⟨xs, hxs, itemsEqual_trans hxy hyz fun i x y z hz => ?_⟩
      exact ih _ (mem_children_of_getElem? rfl hz)
    | map fs =>
      obtain ⟨ds, rfl, hlength', hentries'⟩ := deepEqual_map_iff.1 hbc
      obtain ⟨es, rfl, hlength, hentries⟩ := deepEqual_map_iff.1 hab
      refine deepEqual_map_iff.2 ⟨es, rfl, hlength.trans hlength', ?_⟩
      exact entriesEqual_trans hentries hentries' fun x y f hf => ih _ (List.mem_map_of_mem hf)

/-! ## Rearranged trees -/

/-- Whether no key and no value of the tree is NaN. -/
def isNaNFree (t : Tree α) : Bool := t.all Key.isNaNFree fun s => !s.isNaN

/-- Lists of entries with the same keys one by one have the same keys. -/
theorem keys_eq_of_zip {ds fs : List (Key × Tree α)} (length : ds.length = fs.length)
    (keys : ∀ p ∈ ds.zip fs, p.1.1 = p.2.1) : Assoc.keys ds = Assoc.keys fs := by
  calc Assoc.keys ds = ((ds.zip fs).map Prod.fst).map Prod.fst := by
        rw [List.map_fst_zip (Nat.le_of_eq length), Assoc.keys]
    _ = ((ds.zip fs).map Prod.snd).map Prod.fst := by
        rw [List.map_map, List.map_map]
        exact List.map_congr_left keys
    _ = Assoc.keys fs := by
        rw [List.map_snd_zip (Nat.le_of_eq length.symm), Assoc.keys]

/-- A rearrangement of a tree without NaN is equal to the tree, if the keys are distinct. -/
theorem Rearranges.deepEqual {v' v : PlainTree} (h : v'.Rearranges v) (hkeys : v.DistinctKeys)
    (hnan : v.isNaNFree = true) : v'.deepEqual v = true := by
  induction h with
  | scalar s => exact Scalar.equal_self (Bool.not_eq_true' _ ▸ hnan)
  | set ms =>
    refine Member.sameAll_self fun m hm => ?_
    have hvalue : m.value.isNaN = false := by simpa using List.all_eq_true.1 hnan m hm
    cases m with
    | scalar s => exact hvalue
    | nan => rfl
  | check c => exact c.elim
  | @sequence t u xs ys ht hu length _ ih =>
    refine (deepEqual_items_iff hu).2 ⟨xs, ht, itemsEqual_iff.2 ⟨length, fun i y hy => ?_⟩⟩
    obtain ⟨hi, -⟩ := List.getElem?_eq_some_iff.1 hy
    have hx : xs[i]? = some xs[i] := List.getElem?_eq_getElem (length ▸ hi)
    have hpair : (xs[i], y) ∈ xs.zip ys :=
      List.mem_of_getElem? (List.getElem?_zip_eq_some.2 ⟨hx, hy⟩)
    have hchild := mem_children_of_getElem? hu hy
    exact ⟨_, hx, ih _ hpair (hkeys.child hchild) (all_child hnan hchild)⟩
  | @map es ds fs order length keys _ ih =>
    have hlength := order.length_eq.trans length
    refine deepEqual_map_iff.2 ⟨es, rfl, hlength, entriesEqual_iff.2 fun f hf => ?_⟩
    have hdistinct : Assoc.Distinct Key.same ds := by
      rw [Assoc.Distinct, keys_eq_of_zip length keys]
      exact hkeys.1
    -- The counterpart of the entry has the same key and is among the entries in the other order.
    have hzip : f ∈ (ds.zip fs).map Prod.snd := by
      rwa [List.map_snd_zip (Nat.le_of_eq length.symm)]
    obtain ⟨p, hp, rfl⟩ := List.mem_map.1 hzip
    have hmem : p.1 ∈ es := order.mem_iff.2 (List.of_mem_zip hp).1
    have hself : p.2.1.same p.1.1 = true := by
      rw [keys p hp]
      exact Key.same_self (allEntries_iff.1 hnan p.2 hf).1
    refine ⟨p.1.2, ?_, ih p hp (hkeys.child (List.mem_map_of_mem hf))
      (all_child hnan (List.mem_map_of_mem hf))⟩
    exact (hdistinct.perm Key.partialEquivalence_same order).get?_of_mem
      Key.partialEquivalence_same hmem hself

end Tree

/-- Deep equality of trees whose maps have distinct keys does not depend on which of the two is the
expected one. It is transitive, and a tree without NaN is deeply equal to every tree that comes from
it by putting the entries of maps in another order and exchanging lists and tuples. -/
theorem deepEqual_equivalence :
    (∀ a b : PlainTree, a.DistinctKeys → b.DistinctKeys → a.deepEqual b = b.deepEqual a) ∧
    (∀ a b c : PlainTree, a.deepEqual b = true → b.deepEqual c = true → a.deepEqual c = true) ∧
    ∀ v v' : PlainTree, v.DistinctKeys → v.isNaNFree = true → v'.Rearranges v →
      v'.deepEqual v = true := by
  refine ⟨fun a b ha hb => ?_, fun _ _ _ => Tree.deepEqual_trans, fun _ _ hkeys hnan h =>
    h.deepEqual hkeys hnan⟩
  rw [Bool.eq_iff_iff]
  exact ⟨Tree.deepEqual_symm ha hb, Tree.deepEqual_symm hb ha⟩

/-- A map under whole numbers, one of them in a tuple. -/
def wholeKeys : PlainTree :=
  .map [(.scalar (.int 1), .list [.int 2, .map []]), (.tuple [.scalar (.int 0)], .null)]

/-- The same map with floating point numbers. -/
def floatKeys : PlainTree :=
  .map [(.tuple [.scalar (.float (.ofInt 0))], .null),
    (.scalar (.float (.ofInt 1)), .tuple [.scalar (.float (.ofInt 2)), .map []])]

/-- The same map under truth values. -/
def boolKeys : PlainTree :=
  .map [(.scalar (.bool true), .list [.int 2, .map []]), (.tuple [.scalar (.bool false)], .null)]

/-- The first map with its entries in another order and a tuple in place of the list. -/
def turnedKeys : PlainTree :=
  .map [(.tuple [.scalar (.int 0)], .null), (.scalar (.int 1), .tuple [.int 2, .map []])]

/-- The last map is a rearrangement of the first one. -/
theorem turnedKeys_rearranges : turnedKeys.Rearranges wholeKeys := by
  have hsequence : (Tree.tuple [.int 2, .map []] : PlainTree).Rearranges
      (.list [.int 2, .map []]) := by
    refine .sequence rfl rfl rfl ?_
    simp only [List.zip_cons_cons, List.zip_nil_left, List.forall_mem_cons]
    exact ⟨.refl _, .refl _, fun _ h => nomatch h⟩
  refine .map (List.Perm.swap _ _ _) rfl ?_ ?_
  · simp only [List.zip_cons_cons, List.zip_nil_left, List.forall_mem_cons]
    exact ⟨trivial, trivial, fun _ h => nomatch h⟩
  · simp only [List.zip_cons_cons, List.zip_nil_left, List.forall_mem_cons]
    exact ⟨hsequence, .refl _, fun _ h => nomatch h⟩

/-- All these maps are deeply equal, whichever is the expected one. -/
theorem deepEqual_wholeKeys : floatKeys.deepEqual wholeKeys = wholeKeys.deepEqual floatKeys ∧
    wholeKeys.deepEqual boolKeys = true ∧ turnedKeys.deepEqual wholeKeys = true := by
  obtain ⟨hsymm, htrans, hturned⟩ := deepEqual_equivalence
  have hwhole : wholeKeys.DistinctKeys :=
    ⟨by decide, ⟨trivial, ⟨List.Pairwise.nil, trivial⟩, trivial⟩, trivial, trivial⟩
  have hfloat : floatKeys.DistinctKeys :=
    ⟨by decide, trivial, ⟨trivial, ⟨List.Pairwise.nil, trivial⟩, trivial⟩, trivial⟩
  have hnan : wholeKeys.isNaNFree = true := by decide
  have hequal : wholeKeys.deepEqual floatKeys = true := by decide +kernel
  have hequal' : floatKeys.deepEqual boolKeys = true := by decide +kernel
  exact ⟨hsymm _ _ hfloat hwhole, htrans _ _ _ hequal hequal',
    hturned _ _ hwhole hnan turnedKeys_rearranges⟩

end TreeMatch
