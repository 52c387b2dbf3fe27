import TreeMatch.Proofs.Trailing

/-!
# What no check addresses

A list of checks looks its paths up and nothing else, so a value may change wherever none of them
leads. `Tree.replaceAt` puts another node where a path leads to: the path then leads to this node
(`lookup?_replaceAt_self`), and the old one in its own place changes nothing (`replaceAt_self`). A
second path that does not end above the place leads to the same node as before if it turns away from
the first one, and also if it goes on below it by a step that the new node answers like the old one
(`lookup?_replaceAt`). A new entry of a map is found under its own name only (`entry?_insert`), and
new elements at the end of a sequence under their own indices only, so the report on the checks is
the same (`checks_ignore_unaddressed`).

A search for a name writes the keys that it passes, which fails for a whole number that is too long.
With a new key that can be written a path can be followed if it could before
(`canFollow_replaceAt`). With one that cannot, there may be no report any more, but never another
one.
-/

namespace TreeMatch

namespace Tree

variable {α : Type u}

/-! ## Replacing a node -/

/-- The index of the key that a name leads to: an exact text key first, then the first other key
with this name. -/
def keyIndex? (keys : List Key) (name : String) : Option Nat :=
  match keys.findIdx? (·.str? == some name) with
  | some i => some i
  | none => keys.findIdx? fun k => k.str?.isNone && k.text == name

/-- The node with another child in place of the one that a step leads to. -/
def setChild : Tree α → Step → Tree α → Tree α
  | .map es, .key name, x =>
    match keyIndex? (es.map (·.1)) name with
    | some i => .map (es.modify i fun e => (e.1, x))
    | none => .map es
  | .list xs, .index i, x => .list (xs.set i x)
  | .tuple xs, .index i, x => .tuple (xs.set i x)
  | t, _, _ => t

/-- The tree with another node in place of the one that a path leads to. -/
def replaceAt (t : Tree α) : Path → Tree α → Tree α
  | [], n => n
  | s :: p, n =>
    match t.child? s with
    | some x => t.setChild s (x.replaceAt p n)
    | none => t

/-- A name leads to the entry at the index of its key. -/
theorem entry?_eq (es : List (Key × Tree α)) (name : String) :
    entry? es name = (keyIndex? (es.map (·.1)) name).bind fun i => es[i]?.map (·.2) := by
  have hfind (p : Key → Bool) :
      es.find? (fun e => p e.1) = ((es.map (·.1)).findIdx? p).bind (es[·]?) := by
    rw [List.findIdx?_map]
    exact List.find?_eq_bind_findIdx?_getElem?
  -- Both look for an exact text first, and for another key only if there is none.
  unfold entry? keyIndex?
  rw [hfind (·.str? == some name), hfind fun k => k.str?.isNone && k.text == name]
  cases hi : (es.map (·.1)).findIdx? (·.str? == some name) with
  | some i =>
    obtain ⟨hlt, -, -⟩ := List.findIdx?_eq_some_iff_getElem.1 hi
    rw [List.length_map] at hlt
    rw [Option.bind_some, Option.bind_some, List.getElem?_eq_getElem hlt]
    rfl
  | none => exact Option.map_bind

/-- The key at the index of a name has this name. -/
theorem text_of_keyIndex? {keys : List Key} {name : String} {i : Nat}
    (h : keyIndex? keys name = some i) : ∃ k, keys[i]? = some k ∧ k.text = name := by
  unfold keyIndex? at h
  split at h
  · obtain rfl := Option.some.inj h
    rename_i hi
    obtain ⟨hlt, hk, -⟩ := List.findIdx?_eq_some_iff_getElem.1 hi
    exact ⟨_, List.getElem?_eq_getElem hlt, Key.text_eq_of_str? (by simpa using hk)⟩
  · obtain ⟨hlt, hk, -⟩ := List.findIdx?_eq_some_iff_getElem.1 h
    exact ⟨_, List.getElem?_eq_getElem hlt, beq_iff_eq.1 (Bool.and_eq_true_iff.1 hk).2⟩

/-- To give an entry another value changes no key. -/
theorem keys_modify (es : List (Key × Tree α)) (i : Nat) (x : Tree α) :
    (es.modify i fun e => (e.1, x)).map (·.1) = es.map (·.1) := by
  refine List.ext_getElem? fun j => ?_
  rw [List.getElem?_map, List.getElem?_map, List.getElem?_modify]
  cases es[j]? with
  | none => rfl
  | some e =>
    by_cases hij : i = j
    · simp [hij]
    · simp [hij]

/-- Two names do not lead to one key. -/
theorem keyIndex?_ne {keys : List Key} {name other : String} {i j : Nat}
    (hi : keyIndex? keys name = some i) (hj : keyIndex? keys other = some j)
    (h : other ≠ name) : i ≠ j := by
  rintro rfl
  obtain ⟨k, hk, rfl⟩ := text_of_keyIndex? hi
  obtain ⟨l, hl, rfl⟩ := text_of_keyIndex? hj
  rw [hk] at hl
  exact h (congrArg Key.text (Option.some.inj hl)).symm

/-- A step leads to a child by a name from a map, or by an index from a sequence. -/
theorem child?_cases {t x : Tree α} {s : Step} (h : t.child? s = some x) :
    (∃ es name i k, t = .map es ∧ s = .key name ∧ keyIndex? (es.map (·.1)) name = some i ∧
      es[i]? = some (k, x)) ∨
    ∃ xs i, (t = .list xs ∨ t = .tuple xs) ∧ s = .index i ∧ xs[i]? = some x := by
  cases t with
  | map es =>
    cases s with
    | key name =>
      have hentry : entry? es name = some x := h
      rw [entry?_eq] at hentry
      obtain ⟨i, hi, he⟩ := Option.bind_eq_some_iff.1 hentry
      obtain ⟨e, hk, rfl⟩ := Option.map_eq_some_iff.1 he
      exact .inl ⟨es, name, i, e.1, rfl, rfl, hi, hk⟩
    | index _ => exact nomatch h
  | list xs =>
    cases s with
    | key _ => exact nomatch h
    | index i => exact .inr ⟨xs, i, .inl rfl, rfl, h⟩
  | tuple xs =>
    cases s with
    | key _ => exact nomatch h
    | index i => exact .inr ⟨xs, i, .inr rfl, rfl, h⟩
  | scalar _ | set _ | check _ => exact nomatch h

/-- In a map the value of the entry is set whose key the name leads to. -/
theorem setChild_map {es : List (Key × Tree α)} {name : String} {i : Nat}
    (h : keyIndex? (es.map (·.1)) name = some i) (x : Tree α) :
    (Tree.map es).setChild (.key name) x = .map (es.modify i fun e => (e.1, x)) := by
  rw [setChild, h]

/-- The step to a replaced child leads to the new one. -/
theorem child?_setChild_self {t x : Tree α} {s : Step} (h : t.child? s = some x) (y : Tree α) :
    (t.setChild s y).child? s = some y := by
  obtain ⟨es, name, i, k, rfl, rfl, hi, he⟩ | ⟨xs, i, rfl | rfl, rfl, hx⟩ := child?_cases h
  · rw [setChild_map hi, child?, entry?_eq, keys_modify, hi, Option.bind_some,
      List.getElem?_modify_eq, he]
    rfl
  · exact List.getElem?_set_self (List.getElem?_eq_some_iff.1 hx).1
  · exact List.getElem?_set_self (List.getElem?_eq_some_iff.1 hx).1

/-- Any other step leads to the same child as before. -/
theorem child?_setChild_of_ne {s s' : Step} (h : s' ≠ s) (t y : Tree α) :
    (t.setChild s y).child? s' = t.child? s' := by
  cases t with
  | map es =>
    cases s with
    | index _ => rfl
    | key name =>
      cases hi : keyIndex? (es.map (·.1)) name with
      | none => rw [setChild, hi]
      | some i =>
        rw [setChild_map hi]
        cases s' with
        | index _ => rfl
        | key other =>
          rw [child?, child?, entry?_eq, entry?_eq, keys_modify]
          refine Option.bind_congr fun j hj => ?_
          have hij : i ≠ j := keyIndex?_ne hi hj fun hname => h (congrArg Step.key hname)
          rw [List.getElem?_modify_ne _ _ hij]
  | list xs | tuple xs =>
    cases s with
    | key _ => rfl
    | index i =>
      cases s' with
      | key _ => rfl
      | index j => exact List.getElem?_set_ne fun hij => h (congrArg Step.index hij.symm)
  | scalar _ | set _ | check _ => rfl

/-- To set a child to itself changes nothing. -/
theorem setChild_self {t x : Tree α} {s : Step} (h : t.child? s = some x) :
    t.setChild s x = t := by
  obtain ⟨es, name, i, k, rfl, rfl, hi, he⟩ | ⟨xs, i, rfl | rfl, rfl, hx⟩ := child?_cases h
  · rw [setChild_map hi]
    refine congrArg Tree.map (List.ext_getElem? fun j => ?_)
    rw [List.getElem?_modify]
    by_cases hij : i = j
    · simp [← hij, he]
    · simp [hij]
  · obtain ⟨hlt, rfl⟩ := List.getElem?_eq_some_iff.1 hx
    exact congrArg Tree.list (List.set_getElem_self hlt)
  · obtain ⟨hlt, rfl⟩ := List.getElem?_eq_some_iff.1 hx
    exact congrArg Tree.tuple (List.set_getElem_self hlt)

/-- A path leads to the node that was put at its end. -/
theorem lookup?_replaceAt_self {t n : Tree α} {q : Path} (h : t.lookup? q = some n) (n' : Tree α) :
    (t.replaceAt q n').lookup? q = some n' := by
  induction q generalizing t with
  | nil => rfl
  | cons s q ih =>
    obtain ⟨x, hx, hn⟩ := Option.bind_eq_some_iff.1 h
    simp only [replaceAt, hx]
    rw [lookup?, child?_setChild_self hx, Option.bind_some, ih hn]

/-- To replace a node by itself changes nothing. -/
theorem replaceAt_self {t n : Tree α} {q : Path} (h : t.lookup? q = some n) :
    t.replaceAt q n = t := by
  induction q generalizing t with
  | nil => exact (Option.some.inj h).symm
  | cons s q ih =>
    obtain ⟨x, hx, hn⟩ := Option.bind_eq_some_iff.1 h
    simp only [replaceAt, hx]
    rw [ih hn, setChild_self hx]

/-- Induction on how a second path leaves the way to a replaced node, above which it does not end:
it goes on below the node, turns away, or takes the same step further up. -/
theorem replaceAt_induction {motive : Tree α → Tree α → Path → Prop} {t n n' : Tree α} {q p : Path}
    (hq : t.lookup? q = some n) (hp : ¬ p <+: q)
    (below : ∀ s r, p = q ++ s :: r → motive n n' (s :: r))
    (turn : ∀ t y s s' r, s' ≠ s → motive t (t.setChild s y) (s' :: r))
    (through : ∀ t x y s r, t.child? s = some x → motive x y r →
      motive t (t.setChild s y) (s :: r)) :
    motive t (t.replaceAt q n') p := by
  induction q generalizing t p with
  | nil =>
    obtain rfl := Option.some.inj hq
    cases p with
    | nil => exact absurd List.prefix_rfl hp
    | cons s r => exact below s r rfl
  | cons s q ih =>
    obtain ⟨x, hx, hn⟩ := Option.bind_eq_some_iff.1 hq
    simp only [replaceAt, hx]
    cases p with
    | nil => exact absurd List.nil_prefix hp
    | cons s' p =>
      by_cases hs : s' = s
      · -- One step further down the same is left to show, of the rest of both paths.
        subst hs
        refine through _ _ _ _ _ hx (ih hn (fun h => hp ?_) fun s r h => below s r ?_)
        · exact List.cons_prefix_cons.2 ⟨rfl, h⟩
        · exact congrArg (s' :: ·) h
      · exact turn _ _ _ _ _ hs

/-- A path that does not end above a replaced node leads to the same node as before, if it goes on
below only by a step to the same child. -/
theorem lookup?_replaceAt {t n n' : Tree α} {q p : Path} (hq : t.lookup? q = some n)
    (hp : ¬ p <+: q) (hchild : ∀ s r, p = q ++ s :: r → n'.child? s = n.child? s) :
    (t.replaceAt q n').lookup? p = t.lookup? p := by
  refine replaceAt_induction (motive := fun t u p => u.lookup? p = t.lookup? p) hq hp
    (fun s r h => ?_) (fun t y s s' r hs => ?_) fun t x y s r hx ih => ?_
  · rw [lookup?, lookup?, hchild s r h]
  · rw [lookup?, lookup?, child?_setChild_of_ne hs]
  · rw [lookup?, lookup?, child?_setChild_self hx, hx, Option.bind_some, Option.bind_some, ih]

/-! ## Following a path -/

/-- The search for a name looks at the keys only. -/
theorem canEnter_congr {es ds : List (Key × Tree α)} (h : es.map (·.1) = ds.map (·.1))
    (name : String) : canEnter es name = canEnter ds name := by
  -- Each part of the search is one in the list of keys.
  have hkeys (es : List (Key × Tree α)) : canEnter es name =
      ((es.map (·.1)).any (·.str? == some name) ||
        (((es.map (·.1)).filter (·.str?.isNone)).find? fun k =>
          !k.isWritable || k.text == name).all (·.isWritable)) := by
    rw [List.any_map, List.filter_map, List.find?_map, Option.all_map]
    rfl
  rw [hkeys, hkeys, h]

/-- To replace a child changes nothing about which steps can be tried. -/
theorem canTry_setChild (t : Tree α) (s s' : Step) (y : Tree α) :
    (t.setChild s y).canTry s' = t.canTry s' := by
  cases t with
  | map es =>
    cases s with
    | index _ => rfl
    | key name =>
      cases hi : keyIndex? (es.map (·.1)) name with
      | none => rw [setChild, hi]
      | some i =>
        rw [setChild_map hi]
        cases s' with
        | index _ => rfl
        | key other => exact canEnter_congr (keys_modify es i y) other
  | list _ | tuple _ =>
    cases s with
    | key _ | index _ => rfl
  | scalar _ | set _ | check _ => rfl

/-- A path that does not end above a replaced node can be followed if it could before, if it goes on
below only by a step to the same child that can be tried as before. -/
theorem canFollow_replaceAt {t n n' : Tree α} {q p : Path} (hq : t.lookup? q = some n)
    (hp : ¬ p <+: q) (hchild : ∀ s r, p = q ++ s :: r → n'.child? s = n.child? s)
    (htry : ∀ s r, p = q ++ s :: r → n'.canTry s = n.canTry s) :
    (t.replaceAt q n').canFollow p = t.canFollow p := by
  refine replaceAt_induction (motive := fun t u p => u.canFollow p = t.canFollow p) hq hp
    (fun s r h => ?_) (fun t y s s' r hs => ?_) fun t x y s r hx ih => ?_
  · rw [canFollow, canFollow, hchild s r h, htry s r h]
  · rw [canFollow, canFollow, canTry_setChild, child?_setChild_of_ne hs]
  · rw [canFollow, canFollow, canTry_setChild, child?_setChild_self hx, hx,
      Option.all_some, Option.all_some, ih]

/-- If the new node can be left by fewer steps only, fewer paths can be followed. -/
theorem canFollow_of_canFollow_replaceAt {t n n' : Tree α} {q p : Path}
    (hq : t.lookup? q = some n) (hp : ¬ p <+: q)
    (hchild : ∀ s r, p = q ++ s :: r → n'.child? s = n.child? s)
    (htry : ∀ s r, p = q ++ s :: r → n'.canTry s = true → n.canTry s = true)
    (h : (t.replaceAt q n').canFollow p = true) : t.canFollow p = true := by
  revert h
  refine replaceAt_induction
    (motive := fun t u p => u.canFollow p = true → t.canFollow p = true) hq hp
    (fun s r h => ?_) (fun t y s s' r hs => ?_) fun t x y s r hx ih => ?_
  · rw [canFollow, canFollow, hchild s r h, Bool.and_eq_true, Bool.and_eq_true]
    exact And.imp_left (htry s r h)
  · rw [canFollow, canFollow, canTry_setChild, child?_setChild_of_ne hs]
    exact id
  · rw [canFollow, canFollow, canTry_setChild, child?_setChild_self hx, hx, Option.all_some,
      Option.all_some, Bool.and_eq_true, Bool.and_eq_true]
    exact And.imp_right ih

/-! ## More entries and more elements -/

section Insert

variable {before after : List (Key × Tree α)} {k : Key} {x : Tree α} {name : String}

/-- A search by key passes an entry whose key is not looked for. -/
theorem find?_insert (p : Key → Bool) (h : p k = false) (before after : List (Key × Tree α)) :
    (before ++ (k, x) :: after).find? (fun e => p e.1) =
      (before ++ after).find? fun e => p e.1 := by
  rw [List.find?_append, List.find?_append, List.find?_cons, h]

/-- A key that has not the name is not the text of that name. -/
theorem str?_ne_of_text_ne (h : name ≠ k.text) : (k.str? == some name) = false :=
  beq_false_of_ne fun hk => h (Key.text_eq_of_str? hk).symm

/-- A new entry changes nothing about other names. -/
theorem entry?_insert (h : name ≠ k.text) :
    entry? (before ++ (k, x) :: after) name = entry? (before ++ after) name := by
  have hother : (k.str?.isNone && k.text == name) = false := by
    rw [beq_false_of_ne h.symm, Bool.and_false]
  unfold entry?
  rw [find?_insert (·.str? == some name) (str?_ne_of_text_ne h),
    find?_insert (fun k => k.str?.isNone && k.text == name) hother]

/-- A search for another name writes a new key, and goes on if that has a written form. -/
theorem canEnter_insert (hk : k.isWritable = true) (h : name ≠ k.text) :
    canEnter (before ++ (k, x) :: after) name = canEnter (before ++ after) name := by
  have hnext : (!k.isWritable || k.text == name) = false := by
    rw [hk, beq_false_of_ne h.symm]
    rfl
  unfold canEnter
  rw [List.any_append, List.any_append, List.any_cons, str?_ne_of_text_ne h, Bool.false_or,
    List.filter_append, List.filter_append, List.filter_cons]
  -- The new key is written only if it is no text.
  split
  · rw [find?_insert (fun k => !k.isWritable || k.text == name) hnext]
  · rfl

/-- A search that passes a new key could be made without it. -/
theorem canEnter_of_canEnter_insert (h : name ≠ k.text)
    (hfuller : canEnter (before ++ (k, x) :: after) name = true) :
    canEnter (before ++ after) name = true := by
  by_cases hk : k.isWritable = true
  · rwa [canEnter_insert hk h] at hfuller
  · have hstr : k.str?.isNone = true := by
      by_contra hstr
      have htext : k.isText = true := by
        simpa [Key.isText, Option.isSome_iff_ne_none] using hstr
      obtain ⟨s, rfl⟩ := Key.exists_of_isText htext
      exact hk rfl
    have hstop : (!k.isWritable || k.text == name) = true := by simp [hk]
    unfold canEnter at hfuller ⊢
    rw [List.any_append, List.any_cons, str?_ne_of_text_ne h, Bool.false_or, ← List.any_append,
      List.filter_append, List.filter_cons, if_pos hstr, List.find?_append, List.find?_cons,
      hstop] at hfuller
    rw [List.filter_append, List.find?_append]
    -- The search ends before the new key, as that cannot be written.
    cases hbefore : (before.filter (·.1.str?.isNone)).find?
        fun e => !e.1.isWritable || e.1.text == name with
    | some e => rwa [hbefore] at hfuller
    | none =>
      rw [hbefore] at hfuller
      have hany : (before ++ after).any (·.1.str? == some name) = true := by
        simpa [hk] using hfuller
      rw [hany, Bool.true_or]

end Insert

/-- The sequence with more elements at its end. -/
def appendItems : Tree α → List (Tree α) → Tree α
  | .list xs, more => .list (xs ++ more)
  | .tuple xs, more => .tuple (xs ++ more)
  | t, _ => t

/-- New elements at the end of a sequence change nothing about the steps to the others. -/
theorem child?_appendItems {t : Tree α} {xs : List (Tree α)} (h : t.items? = some xs)
    (more : List (Tree α)) {s : Step} (hs : ∀ i, s = .index i → i < xs.length) :
    (t.appendItems more).child? s = t.child? s := by
  cases t with
  | list ys | tuple ys =>
    obtain rfl := Option.some.inj h
    cases s with
    | key _ => rfl
    | index i => exact List.getElem?_append_left (hs i rfl)
  | map _ | scalar _ | set _ | check _ => exact nomatch h

/-- In a sequence all steps can be tried, with more elements or without. -/
theorem canTry_appendItems {t : Tree α} {xs : List (Tree α)} (h : t.items? = some xs)
    (more : List (Tree α)) (s : Step) : (t.appendItems more).canTry s = t.canTry s := by
  cases t with
  | list _ | tuple _ => rfl
  | map _ | scalar _ | set _ | check _ => exact nomatch h

end Tree

/-! ## Checks of both values -/

/-- A check gives the same on two values in which its path leads to the same node, and can be
followed in one if it can in the other. -/
theorem PathCheck.run_congr {a b : Value} {c : PathCheck}
    (hfollow : a.canFollow c.path = b.canFollow c.path)
    (hlookup : a.lookup? c.path = b.lookup? c.path) : c.run a = c.run b := by
  rw [run, run, Tree.lookup_eq, Tree.lookup_eq, hfollow, hlookup]

/-- Checks each of which gives the same on two values make the same report on both, or give up with
the same fault. -/
theorem Report.addChecks_congr {a b : Value} {cs : List PathCheck}
    (h : ∀ c ∈ cs, c.run a = c.run b) (r : Report) : r.addChecks a cs = r.addChecks b cs := by
  induction cs generalizing r with
  | nil => rfl
  | cons c cs ih =>
    unfold addChecks
    rw [h c List.mem_cons_self]
    cases c.run b with
    | error fault => rfl
    | ok o => exact ih (fun d hd => h d (List.mem_cons_of_mem _ hd)) _

/-- If some of them give up with a fault on the first value, either this does not matter, since
another check gives up before, or evaluation stops at the fault. -/
theorem Report.addChecks_eq_or_fault {a b : Value} {cs : List PathCheck} {fault : CheckFault}
    (h : ∀ c ∈ cs, c.run a = c.run b ∨ c.run a = .error fault) (r : Report) :
    r.addChecks a cs = r.addChecks b cs ∨ r.addChecks a cs = .error fault := by
  induction cs generalizing r with
  | nil => exact .inl rfl
  | cons c cs ih =>
    obtain ⟨hfirst, hrest⟩ := List.forall_mem_cons.1 h
    unfold addChecks
    rcases hfirst with hsame | hfault
    · rw [hsame]
      cases c.run b with
      | error fault => exact .inl rfl
      | ok o => exact ih hrest _
    · rw [hfault]
      exact .inr rfl

/-- Let no check be at the end of a path or above it. If the path leads to a map, let the value get
one more entry in this map, wherever it stands there and whatever its key and value are, unless a
check is under the name of the key. If the key can be written, evaluating the checks gives the same
as before, be it a report or a fault; if it cannot, it gives the same as before or fails at this. If
the path leads to a sequence, evaluation gives the same with any more elements at its end, unless a
check is under the index of one of these. -/
theorem checks_ignore_unaddressed (checks : List PathCheck) (actual : Value) (q : Path)
    (habove : ∀ c ∈ checks, ¬ c.path <+: q) :
    (∀ before after k x, actual.lookup q = .ok (some (.map (before ++ after))) →
      (∀ c ∈ checks, ¬ q.extend (.key k.text) <+: c.path) →
      let fuller := actual.replaceAt q (.map (before ++ (k, x) :: after))
      (k.isWritable = true →
        (Validator.checks checks).evaluate fuller = (Validator.checks checks).evaluate actual) ∧
      (k.isWritable = false →
        (Validator.checks checks).evaluate fuller = (Validator.checks checks).evaluate actual ∨
        (Validator.checks checks).evaluate fuller = .error (.unwritable .tooManyDigits))) ∧
    (∀ n items more, actual.lookup q = .ok (some n) → n.items? = some items →
      (∀ c ∈ checks, ∀ i ≥ items.length, ¬ q.extend (.index i) <+: c.path) →
      (Validator.checks checks).evaluate (actual.replaceAt q (n.appendItems more)) =
        (Validator.checks checks).evaluate actual) := by
  have hbelow {p : Path} {s : Step} {r : Path} (h : p = q ++ s :: r) : q.extend s <+: p :=
    ⟨r, by rw [h, Path.extend, List.append_assoc]; rfl⟩
  -- Below the place every path of a check goes on by a step that leads to the same child as before.
  constructor
  · intro before after k x hlookup hk fuller
    obtain ⟨-, hq⟩ := Tree.lookup_eq_ok_iff.1 hlookup
    have hname : ∀ c ∈ checks, ∀ s r, c.path = q ++ s :: r → ∀ name, s = .key name →
        name ≠ k.text := by
      rintro c hc s r hp name rfl rfl
      exact hk c hc (hbelow hp)
    have hchild : ∀ c ∈ checks, ∀ s r, c.path = q ++ s :: r →
        (Tree.map (before ++ (k, x) :: after)).child? s =
          (Tree.map (before ++ after)).child? s := by
      intro c hc s r hp
      cases s with
      | key name => exact Tree.entry?_insert (hname c hc _ r hp name rfl)
      | index _ => rfl
    have hsame : ∀ c ∈ checks, fuller.lookup? c.path = actual.lookup? c.path := fun c hc =>
      Tree.lookup?_replaceAt hq (habove c hc) (hchild c hc)
    refine ⟨fun hwritable => ?_, fun hwritable => ?_⟩
    · refine Report.addChecks_congr (fun c hc => PathCheck.run_congr ?_ (hsame c hc)) _
      refine Tree.canFollow_replaceAt hq (habove c hc) (hchild c hc) fun s r hp => ?_
      cases s with
      | key name => exact Tree.canEnter_insert hwritable (hname c hc _ r hp name rfl)
      | index _ => rfl
    · refine Report.addChecks_eq_or_fault (fun c hc => ?_) _
      cases hfollow : fuller.canFollow c.path with
      | false =>
        refine .inr ?_
        rw [PathCheck.run_eq, hfollow]
        rfl
      | true =>
        refine .inl (PathCheck.run_congr (hfollow.trans (Eq.symm ?_)) (hsame c hc))
        refine Tree.canFollow_of_canFollow_replaceAt hq (habove c hc) (hchild c hc)
          (fun s r hp => ?_) hfollow
        cases s with
        | key name => exact Tree.canEnter_of_canEnter_insert (hname c hc _ r hp name rfl)
        | index _ => exact id
  · intro n items more hlookup hn hi
    obtain ⟨-, hq⟩ := Tree.lookup_eq_ok_iff.1 hlookup
    have hchild : ∀ c ∈ checks, ∀ s r, c.path = q ++ s :: r →
        (n.appendItems more).child? s = n.child? s := by
      intro c hc s r hp
      refine Tree.child?_appendItems hn more fun i hs => Nat.lt_of_not_le fun hle => ?_
      exact hi c hc i hle (hs ▸ hbelow hp)
    refine Report.addChecks_congr (fun c hc => PathCheck.run_congr ?_ ?_) _
    · exact Tree.canFollow_replaceAt hq (habove c hc) (hchild c hc) fun s _ _ =>
        Tree.canTry_appendItems hn more s
    · exact Tree.lookup?_replaceAt hq (habove c hc) (hchild c hc)

/-- A map under a whole number, an empty map, and a tuple of one row. -/
def storedValue : Value :=
  .map [(.scalar (.str "config"),
      .map [(.scalar (.int 1), .str "one"), (.scalar (.str "extra"), .map [])]),
    (.scalar (.str "rows"), .tuple [.map [(.scalar (.str "id"), .int 7)]])]

/-- Checks of the entry under the whole number, of one that may be missing from the empty map, and
of the row. -/
def storedChecks : List PathCheck :=
  [⟨[.key "config", .key "1"], .comparison (.str "one")⟩,
    ⟨[.key "config", .key "extra", .key "gone"], .absent⟩,
    ⟨[.key "rows", .index 0, .key "id"], .comparison (.int 7)⟩]

/-- The value with an entry in front whose key looks like the whole number, another entry in the
empty map, and two more rows. -/
def fullerValue : Value :=
  .map [(.scalar (.str "config"),
      .map [(.scalar (.str "1.0"), .str "two"), (.scalar (.int 1), .str "one"),
        (.scalar (.str "extra"), .map [(.scalar .null, .list [])])]),
    (.scalar (.str "rows"), .tuple [.map [(.scalar (.str "id"), .int 7)],
      .map [(.scalar (.str "id"), .int 8)], .null])]

/-- The checks succeed on either value with the same report. -/
theorem storedChecks_ignore_fullerValue :
    (Validator.checks storedChecks).evaluate fullerValue =
      (Validator.checks storedChecks).evaluate storedValue ∧
    ((Validator.checks storedChecks).evaluate storedValue).map (·.succeeded) = .ok true := by
  have hrow : ∀ c ∈ storedChecks, ∀ i ≥ 1, ¬ Path.extend [.key "rows"] (.index i) <+: c.path := by
    simp [storedChecks, Path.extend, Nat.one_le_iff_ne_zero]
  have hentry := ((checks_ignore_unaddressed storedChecks storedValue [.key "config"]
    (by decide)).1 [] _ (.scalar (.str "1.0")) (.str "two") rfl (by decide)).1 rfl
  have hempty := (((checks_ignore_unaddressed storedChecks _ [.key "config", .key "extra"]
    (by decide)).1 [] [] (.scalar .null) (.list []) rfl (by decide)).1 rfl).trans hentry
  have hrows := ((checks_ignore_unaddressed storedChecks _ [.key "rows"] (by decide)).2 _
    [.map [(.scalar (.str "id"), .int 7)]] [.map [(.scalar (.str "id"), .int 8)], .null]
    rfl rfl hrow).trans hempty
  exact ⟨hrows, by decide +kernel⟩

/-- A check of an entry that may be missing. -/
def missingChecks : List PathCheck := [⟨[.key "z"], .absent⟩]

/-- The text of a whole number is not that of the entry. -/
theorem text_ne_of_int (n : Nat) : (Key.scalar (.int n)).text ≠ "z" := by
  intro h
  have hdigits : Nat.toDigits 10 n = ['z'] := by
    have hlist := congrArg String.toList h
    have htext : (Key.scalar (.int n)).text = String.ofList (Nat.toDigits 10 n) := rfl
    rw [htext, String.toList_ofList] at hlist
    exact hlist
  have hz : 'z'.isDigit = true := by
    have hmem : 'z' ∈ Nat.toDigits 10 n := hdigits ▸ List.mem_singleton.2 rfl
    exact Nat.isDigit_of_mem_toDigits (by decide) (by decide) hmem
  exact absurd hz (by decide)

/-- The check passes on an empty map, but there is no report once the map has an entry under a key
that cannot be written: the search for the missing entry comes to it. -/
theorem missingChecks_notice_longKey :
    (∀ c ∈ missingChecks, ¬ c.path <+: Path.root) ∧
    (∀ c ∈ missingChecks, ¬ Path.root.extend (.key longKey.text) <+: c.path) ∧
    (Tree.map [] : Value).lookup Path.root = .ok (some (.map [])) ∧
    ((Validator.checks missingChecks).evaluate (.map [])).map (·.succeeded) = .ok true ∧
    (Validator.checks missingChecks).evaluate
      ((Tree.map []).replaceAt Path.root (.map [(longKey, .int 1)])) =
        .error (.unwritable .tooManyDigits) := by
  refine ⟨by decide, fun c hc => ?_, rfl, by decide +kernel, by decide +kernel⟩
  obtain rfl := List.mem_singleton.1 hc
  rintro h
  obtain ⟨hstep, -⟩ := List.cons_prefix_cons.1 h
  exact text_ne_of_int _ (Step.key.inj hstep)

end TreeMatch
