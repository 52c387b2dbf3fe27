import TreeMatch.Proofs.SelfMatch

/-!
# Keys that are the same

Scalars, keys and members of sets are compared by relations under which NaN is not the same as
itself, but which are symmetric and transitive (`PartialEquivalence`). That is enough for looking up
a key: keys that are the same find the same value (`Assoc.get?_congr`), and where keys are distinct,
each of them finds its own value (`Assoc.Distinct.get?_of_mem`). If each of the entries of a list
with distinct keys has one with the same key in another list, which is not longer, then this other
list has no more keys (`Assoc.exists_same_of_length_le`).
-/

namespace TreeMatch

/-- The relation is symmetric and transitive. -/
structure PartialEquivalence {κ : Type u} (same : κ → κ → Bool) : Prop where
  /-- The order of the two does not matter. -/
  comm : ∀ k l, same k l = same l k
  /-- Two that are the same as a third one are the same. -/
  trans : ∀ {k l m}, same k l = true → same l m = true → same k m = true

/-! ## Scalars -/

/-- Scalars are the same if they are compared by the same form. -/
theorem Scalar.same_iff {a b : Scalar} :
    a.same b = true ↔ ∃ f, a.form? = some f ∧ b.form? = some f := by
  rw [same, Bool.and_eq_true, beq_iff_eq, Option.isSome_iff_exists]
  constructor
  · rintro ⟨⟨f, hf⟩, hab⟩
    exact ⟨f, hf, hab ▸ hf⟩
  · rintro ⟨f, ha, hb⟩
    exact ⟨⟨f, ha⟩, ha.trans hb.symm⟩

/-- Being the same value is a partial equivalence of scalars. -/
theorem Scalar.partialEquivalence_same : PartialEquivalence Scalar.same where
  comm a b := by
    rw [Bool.eq_iff_iff, same_iff, same_iff]
    exact exists_congr fun f => and_comm
  trans := by
    intro a b c hab hbc
    obtain ⟨f, ha, hb⟩ := same_iff.1 hab
    obtain ⟨g, hb', hc⟩ := same_iff.1 hbc
    obtain rfl : f = g := Option.some.inj (hb.symm.trans hb')
    exact same_iff.2 ⟨f, ha, hc⟩

/-- Being equal as leaves is a partial equivalence of scalars. -/
theorem Scalar.partialEquivalence_equal : PartialEquivalence Scalar.equal where
  comm a b := by rw [equal, equal, partialEquivalence_same.comm, Bool.beq_comm]
  trans := by
    intro a b c hab hbc
    simp only [equal, Bool.and_eq_true, beq_iff_eq] at hab hbc ⊢
    exact ⟨hab.1.trans hbc.1, partialEquivalence_same.trans hab.2 hbc.2⟩

/-! ## Keys -/

namespace Key

mutual

/-- The order of two keys does not matter. -/
theorem same_comm (k l : Key) : k.same l = l.same k := by
  cases k with
  | scalar a =>
    cases l with
    | scalar b => exact Scalar.partialEquivalence_same.comm a b
    | tuple _ => rfl
  | tuple xs =>
    cases l with
    | scalar _ => rfl
    | tuple ys => exact sameItems_comm xs ys

/-- The same for the items of tuples. -/
theorem sameItems_comm (ks ls : List Key) : sameItems ks ls = sameItems ls ks := by
  cases ks with
  | nil => cases ls <;> rfl
  | cons k ks =>
    cases ls with
    | nil => rfl
    | cons l ls => rw [sameItems, sameItems, same_comm k l, sameItems_comm ks ls]

end

mutual

/-- Two keys that are the same as a third one are the same. -/
theorem same_trans {k l m : Key} (hkl : k.same l = true) (hlm : l.same m = true) :
    k.same m = true := by
  cases k with
  | scalar a =>
    cases l with
    | scalar b =>
      cases m with
      | scalar c => exact Scalar.partialEquivalence_same.trans hkl hlm
      | tuple _ => exact nomatch hlm
    | tuple _ => exact nomatch hkl
  | tuple xs =>
    cases l with
    | scalar _ => exact nomatch hkl
    | tuple ys =>
      cases m with
      | scalar _ => exact nomatch hlm
      | tuple zs => exact sameItems_trans hkl hlm

/-- The same for the items of tuples. -/
theorem sameItems_trans {ks ls ms : List Key} (hkl : sameItems ks ls = true)
    (hlm : sameItems ls ms = true) : sameItems ks ms = true := by
  cases ks with
  | nil =>
    cases ls with
    | nil => exact hlm
    | cons _ _ => exact nomatch hkl
  | cons k ks =>
    cases ls with
    | nil => exact nomatch hkl
    | cons l ls =>
      cases ms with
      | nil => exact nomatch hlm
      | cons m ms =>
        obtain ⟨hkl, hrest⟩ := Bool.and_eq_true_iff.1 hkl
        obtain ⟨hlm, hrest'⟩ := Bool.and_eq_true_iff.1 hlm
        exact Bool.and_eq_true_iff.2 ⟨same_trans hkl hlm, sameItems_trans hrest hrest'⟩

end

/-- Being one key of a map is a partial equivalence of keys. -/
theorem partialEquivalence_same : PartialEquivalence Key.same := ⟨same_comm, same_trans⟩

mutual

/-- Whether no part of the key is NaN. -/
def isNaNFree : Key → Bool
  | .scalar s => !s.isNaN
  | .tuple items => areNaNFree items
termination_by structural k => k

/-- Whether no part of the keys is NaN. -/
def areNaNFree : List Key → Bool
  | [] => true
  | k :: ks => isNaNFree k && areNaNFree ks
termination_by structural ks => ks

end

mutual

/-- A key without NaN is the same as itself. -/
theorem same_self {k : Key} (h : k.isNaNFree = true) : k.same k = true := by
  cases k with
  | scalar s => exact Scalar.same_self (Bool.not_eq_true' _ ▸ h)
  | tuple xs => exact sameItems_self h

/-- The same for the items of tuples. -/
theorem sameItems_self {ks : List Key} (h : areNaNFree ks = true) : sameItems ks ks = true := by
  cases ks with
  | nil => rfl
  | cons k ks =>
    obtain ⟨hk, hks⟩ := Bool.and_eq_true_iff.1 h
    exact Bool.and_eq_true_iff.2 ⟨same_self hk, sameItems_self hks⟩

end

end Key

/-! ## Members of sets -/

namespace Member

/-- Two members that are the same as a third one are the same. -/
theorem same_trans {m n p : Member} (hmn : m.same n = true) (hnp : n.same p = true) :
    m.same p = true := by
  cases m with
  | scalar a =>
    cases n with
    | scalar b =>
      cases p with
      | scalar c => exact Scalar.partialEquivalence_same.trans hmn hnp
      | nan => exact nomatch hnp
    | nan => exact nomatch hmn
  | nan =>
    cases n with
    | scalar _ => exact nomatch hmn
    | nan => exact hnp

/-- Two sets have the same members if every member of each of them is one of the other. -/
theorem sameAll_iff {ms ns : List Member} : sameAll ms ns = true ↔
    (∀ m ∈ ms, ∃ n ∈ ns, m.same n = true) ∧ ∀ n ∈ ns, ∃ m ∈ ms, n.same m = true := by
  simp only [sameAll, Bool.and_eq_true, List.all_eq_true, List.any_eq_true]

/-- Having the same members is a partial equivalence of sets. -/
theorem partialEquivalence_sameAll : PartialEquivalence sameAll where
  comm _ _ := Bool.and_comm _ _
  trans := by
    intro ms ns ps hmn hnp
    obtain ⟨hms, hns⟩ := sameAll_iff.1 hmn
    obtain ⟨hns', hps⟩ := sameAll_iff.1 hnp
    refine sameAll_iff.2 ⟨fun m hm => ?_, fun p hp => ?_⟩
    · obtain ⟨n, hn, hmn⟩ := hms m hm
      obtain ⟨p, hp, hnp⟩ := hns' n hn
      exact ⟨p, hp, same_trans hmn hnp⟩
    · obtain ⟨n, hn, hpn⟩ := hps p hp
      obtain ⟨m, hm, hnm⟩ := hns n hn
      exact ⟨m, hm, same_trans hpn hnm⟩

end Member

/-! ## Looking up a key -/

/-- Of two lists, let everything in the first have a partner in the second, and no two the same
one. If the second list is not longer, then everything in it is a partner. -/
theorem exists_partner_of_length_le {κ : Type u} {μ : Type v} {R : κ → μ → Prop} {xs : List κ}
    {ys : List μ} (hpartner : ∀ x ∈ xs, ∃ y ∈ ys, R x y)
    (honly : xs.Pairwise fun x x' => ∀ y, R x y → ¬ R x' y) (hlength : ys.length ≤ xs.length) :
    ∀ y ∈ ys, ∃ x ∈ xs, R x y := by
  induction xs generalizing ys with
  | nil =>
    obtain rfl : ys = [] := List.eq_nil_of_length_eq_zero (Nat.le_zero.1 hlength)
    exact fun _ h => nomatch h
  | cons x xs ih =>
    -- Without the partner of the head, the second list still has those of the others.
    obtain ⟨hhead, hrest⟩ := List.pairwise_cons.1 honly
    obtain ⟨y, hy, hxy⟩ := hpartner x List.mem_cons_self
    obtain ⟨before, after, rfl⟩ := List.append_of_mem hy
    have hothers : ∀ x' ∈ xs, ∃ z ∈ before ++ after, R x' z := by
      intro x' hx'
      obtain ⟨z, hz, hxz⟩ := hpartner x' (List.mem_cons_of_mem _ hx')
      rcases List.mem_cons.1 (List.perm_middle.mem_iff.1 hz) with rfl | hz
      · exact absurd hxz (hhead x' hx' z hxy)
      · exact ⟨z, hz, hxz⟩
    have hshorter : (before ++ after).length ≤ xs.length := by
      have hmiddle : (before ++ y :: after).length = (before ++ after).length + 1 :=
        List.perm_middle.length_eq
      rw [List.length_cons] at hlength
      omega
    intro z hz
    rcases List.mem_cons.1 (List.perm_middle.mem_iff.1 hz) with rfl | hz
    · exact ⟨x, List.mem_cons_self, hxy⟩
    · obtain ⟨x', hx', hxz⟩ := ih hothers hrest hshorter z hz
      exact ⟨x', List.mem_cons_of_mem _ hx', hxz⟩

namespace Assoc

variable {κ : Type u} {β : Type v} {same : κ → κ → Bool} {es ds : List (κ × β)}

/-- What is found under a key is the value of an entry with the same key. -/
theorem exists_of_get?_eq_some {k : κ} {b : β} (h : get? same k es = some b) :
    ∃ e ∈ es, same k e.1 = true ∧ e.2 = b := by
  induction es with
  | nil => exact nomatch h
  | cons e es ih =>
    rw [get?] at h
    split at h
    · rename_i hsame
      exact ⟨e, List.mem_cons_self, hsame, Option.some.inj h⟩
    · obtain ⟨d, hd, hfound⟩ := ih h
      exact ⟨d, List.mem_cons_of_mem _ hd, hfound⟩

/-- Keys that are the same find the same value. -/
theorem get?_congr (hsame : PartialEquivalence same) {k l : κ} (hkl : same k l = true) :
    get? same k es = get? same l es := by
  induction es with
  | nil => rfl
  | cons e es ih =>
    have hlk : same l k = true := hsame.comm k l ▸ hkl
    have hhead : same k e.1 = same l e.1 :=
      Bool.eq_iff_iff.2 ⟨hsame.trans hlk, hsame.trans hkl⟩
    rw [get?, get?, hhead, ih]

/-- Where the keys are distinct, a key finds the value of every entry with the same key. -/
theorem Distinct.get?_of_mem (hsame : PartialEquivalence same) (hd : Distinct same es)
    {e : κ × β} (he : e ∈ es) {k : κ} (hk : same k e.1 = true) : get? same k es = some e.2 := by
  induction es with
  | nil => exact nomatch he
  | cons d es ih =>
    obtain ⟨hhead, hrest⟩ := List.pairwise_cons.1 hd
    rw [get?]
    rcases List.mem_cons.1 he with rfl | he
    · rw [if_pos hk]
    · -- The first entry has another key, or the entry that is sought would have the same one.
      have hother : ¬ same k d.1 = true := by
        intro hkd
        have hed := hsame.trans (hsame.comm k e.1 ▸ hk) hkd
        exact Bool.false_ne_true ((hhead e.1 (List.mem_map_of_mem he)).symm.trans hed)
      rw [if_neg hother]
      exact ih hrest he

/-- Distinct keys stay distinct in another order. -/
theorem Distinct.perm (hsame : PartialEquivalence same) (hd : Distinct same ds)
    (hperm : es.Perm ds) : Distinct same es :=
  (hperm.map Prod.fst).symm.pairwise hd fun {k l} h => by rwa [hsame.comm]

/-- Let every entry of a list with distinct keys have one with the same key in another list. If the
other list is not longer, then this holds the other way round. -/
theorem exists_same_of_length_le (hsame : PartialEquivalence same) (hd : Distinct same es)
    (hkeys : ∀ e ∈ es, ∃ d ∈ ds, same e.1 d.1 = true) (hlength : ds.length ≤ es.length) :
    ∀ d ∈ ds, ∃ e ∈ es, same e.1 d.1 = true := by
  have hdistinct : es.Pairwise fun e e' => same e'.1 e.1 = false := List.pairwise_map.1 hd
  refine exists_partner_of_length_le hkeys (hdistinct.imp fun {e e'} hne d he he' => ?_) hlength
  -- Two entries with a partner in common would have the same key.
  have hsame' := hsame.trans he' (hsame.comm e.1 d.1 ▸ he)
  exact Bool.false_ne_true (hne.symm.trans hsame')

end Assoc

end TreeMatch
