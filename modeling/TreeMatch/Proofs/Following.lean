import TreeMatch.Proofs.TextKeys

/-!
# What following a path may fail at

`Tree.lookup` writes the keys that it passes, and a whole number that is too long is not written. So
a path can be followed if no such key is in the way (`Tree.canFollow`); lookup then finds what
`Tree.lookup?` says, and fails otherwise (`lookup_eq`). Where all keys can be written, every path
can be followed.
-/

namespace TreeMatch

namespace Tree

variable {α : Type u} {β : Type v} {onKey : Key → Bool} {onScalar : Scalar → Bool}

/-! ## All keys and scalars -/

/-- What holds of all keys and scalars of a tree holds of those below a path. -/
theorem all_lookup? {t x : Tree α} (h : t.all onKey onScalar = true) {p : Path}
    (hx : t.lookup? p = some x) : x.all onKey onScalar = true := by
  induction p generalizing t with
  | nil =>
    obtain rfl := Option.some.inj hx
    exact h
  | cons s p ih =>
    obtain ⟨y, hy, hx⟩ := Option.bind_eq_some_iff.1 hx
    exact ih (all_child h (mem_children_of_child? hy)) hx

mutual

/-- Replacing checks changes neither keys nor scalars. -/
theorem all_mapChecks (f : α → β) (t : Tree α) :
    (t.mapChecks f).all onKey onScalar = t.all onKey onScalar := by
  cases t with
  | scalar _ | set _ | check _ => rfl
  | list xs | tuple xs => rw [mapChecks, all, all, allItems_mapItems]
  | map es => rw [mapChecks, all, all, allEntries_mapEntries]

/-- The same for the elements of a sequence. -/
theorem allItems_mapItems (f : α → β) (xs : List (Tree α)) :
    allItems onKey onScalar (mapItems f xs) = allItems onKey onScalar xs := by
  cases xs with
  | nil => rfl
  | cons x xs => rw [mapItems, allItems, allItems, all_mapChecks, allItems_mapItems]

/-- The same for the entries of a map. -/
theorem allEntries_mapEntries (f : α → β) (es : List (Key × Tree α)) :
    allEntries onKey onScalar (mapEntries f es) = allEntries onKey onScalar es := by
  cases es with
  | nil => rfl
  | cons e es =>
    rw [mapEntries, allEntries, allEntries, all_mapChecks, allEntries_mapEntries]

end

/-- What holds of all keys and scalars goes over to what follows from it. -/
theorem all_mono {onKey' : Key → Bool} {onScalar' : Scalar → Bool}
    (hkey : ∀ k, onKey k = true → onKey' k = true)
    (hscalar : ∀ s, onScalar s = true → onScalar' s = true) {t : Tree α}
    (h : t.all onKey onScalar = true) : t.all onKey' onScalar' = true := by
  induction t using byChildren with
  | node t ih =>
    have hbelow : ∀ c ∈ t.children, c.2.all onKey' onScalar' = true := fun c hc =>
      ih c hc (all_child h hc)
    cases t with
    | list xs | tuple xs =>
      refine allItems_iff.2 fun x hx => ?_
      obtain ⟨s, hs⟩ := exists_mem_children_of_mem hx
      exact hbelow (s, x) hs
    | map es =>
      refine allEntries_iff.2 fun e he => ⟨hkey e.1 (allEntries_iff.1 h e he).1, ?_⟩
      exact hbelow _ (List.mem_map_of_mem he)
    | set ms => exact List.all_eq_true.2 fun m hm => hscalar _ (List.all_eq_true.1 h m hm)
    | scalar s => exact hscalar s h
    | check _ => rfl

/-- The absent value can be written. -/
theorem isWritable_null : (null : Tree α).isWritable = true := rfl

/-- A tree that can be written has keys that can be written. -/
theorem hasWritableKeys_of_isWritable {t : Tree α} (h : t.isWritable = true) :
    t.hasWritableKeys = true :=
  all_mono (fun _ hk => hk) (fun _ _ => rfl) h

/-- So has a tree without children. -/
theorem hasWritableKeys_of_children_eq_nil {t : Tree α} (h : t.children = []) :
    t.hasWritableKeys = true := by
  cases t with
  | list xs | tuple xs | map xs =>
    obtain rfl : xs = [] := by simpa [children] using h
    rfl
  | set ms => exact List.all_eq_true.2 fun _ _ => rfl
  | scalar _ | check _ => rfl

/-- So has a tree whose keys are texts. -/
theorem hasWritableKeys_of_texts {t : Tree α} (h : t.all Key.isText (fun _ => true) = true) :
    t.hasWritableKeys = true := by
  refine all_mono (fun k hk => ?_) (fun _ _ => rfl) h
  obtain ⟨s, rfl⟩ := Key.exists_of_isText hk
  rfl

/-- In particular if these texts are free of dots. -/
theorem HasTextKeys.hasWritableKeys {t : Tree α} (h : t.HasTextKeys) :
    t.hasWritableKeys = true :=
  hasWritableKeys_of_texts
    (all_mono (fun _ => Key.isText_of_isDotFreeText) (fun _ _ => rfl) h.texts)

/-! ## Keys in the way of a step -/

/-- Whether the search for a name meets no key that cannot be written. A text of that name is found
at once; otherwise the other keys are written one by one until one has the name. -/
def canEnter (entries : List (Key × Tree α)) (name : String) : Bool :=
  entries.any (·.1.str? == some name) ||
    ((entries.filter (·.1.str?.isNone)).find? fun e =>
      !e.1.isWritable || e.1.text == name).all (·.1.isWritable)

/-- Whether a step can be tried without writing a key that cannot be written. -/
def canTry : Tree α → Step → Bool
  | .map es, .key name => canEnter es name
  | _, _ => true

/-- The search among the keys that are no texts ends at the first that has the name, or that cannot
be written. -/
theorem otherEntry_eq (name : String) (es : List (Key × Tree α)) :
    otherEntry name es =
      if ((es.filter (·.1.str?.isNone)).find? fun e =>
          !e.1.isWritable || e.1.text == name).all (·.1.isWritable) then
        .ok ((es.find? fun e => e.1.str?.isNone && e.1.text == name).map (·.2))
      else .error .tooManyDigits := by
  induction es with
  | nil => rfl
  | cons e es ih =>
    obtain ⟨k, x⟩ := e
    rw [otherEntry, List.filter_cons, List.find?_cons]
    cases hk : k.str? with
    | some s => simpa using ih
    | none =>
      by_cases hwritable : k.isWritable = true
      · by_cases hname : k.text = name
        · simp [Key.name, hwritable, hname]
        · simp [Key.name, hwritable, beq_false_of_ne hname, ih]
      · simp [Key.name, hwritable]

/-- The search for a name fails if it meets a key that cannot be written. -/
theorem entry_eq (es : List (Key × Tree α)) (name : String) :
    entry es name = if canEnter es name then .ok <| entry? es name else .error .tooManyDigits := by
  unfold entry entry? canEnter
  cases h : es.find? fun e => e.1.str? == some name with
  | some e =>
    have hany : es.any (·.1.str? == some name) = true :=
      List.any_eq_true.2 (List.find?_isSome.1 (Option.isSome_of_eq_some h))
    rw [hany]
    rfl
  | none =>
    have hany : es.any (·.1.str? == some name) = false :=
      List.any_eq_false.2 fun e he => List.find?_eq_none.1 h e he
    rw [hany, Bool.false_or]
    exact otherEntry_eq name es

/-- So does a step. -/
theorem child_eq (t : Tree α) (s : Step) :
    t.child s = if t.canTry s then .ok (t.child? s) else .error .tooManyDigits := by
  cases t with
  | map es =>
    cases s with
    | key name => exact entry_eq es name
    | index _ => rfl
  | list _ | tuple _ | scalar _ | set _ | check _ =>
    cases s with
    | key _ | index _ => rfl

/-! ## Keys in the way of a path -/

/-- Whether a path can be followed without writing a key that cannot be written. -/
def canFollow (t : Tree α) : Path → Bool
  | [] => true
  | s :: p => t.canTry s && (t.child? s).all (·.canFollow p)

/-- Lookup finds the node that a path leads to, if the path can be followed. -/
theorem lookup_eq (t : Tree α) (p : Path) :
    t.lookup p = if t.canFollow p then .ok (t.lookup? p) else .error .tooManyDigits := by
  induction p generalizing t with
  | nil => rfl
  | cons s p ih =>
    rw [lookup, lookup?, canFollow, child_eq]
    cases t.canTry s with
    | false => rfl
    | true =>
      cases hx : t.child? s with
      | none => rfl
      | some x => exact ih x

/-- What lookup finds is where the path leads. -/
theorem lookup_eq_ok_iff {t : Tree α} {p : Path} {found : Option (Tree α)} :
    t.lookup p = .ok found ↔ t.canFollow p = true ∧ t.lookup? p = found := by
  rw [lookup_eq]
  cases t.canFollow p with
  | true => simp
  | false => simp

/-- A path that can be followed leads to what lookup finds. -/
theorem lookup_of_canFollow {t : Tree α} {p : Path} (h : t.canFollow p = true) :
    t.lookup p = .ok (t.lookup? p) :=
  lookup_eq_ok_iff.2 ⟨h, rfl⟩

/-- Where all keys of a map can be written, the search for a name meets no other key. -/
theorem canEnter_of_forall {es : List (Key × Tree α)} (h : ∀ e ∈ es, e.1.isWritable = true)
    (name : String) : canEnter es name = true := by
  -- The key at which the search ends is one of the map.
  refine Bool.or_eq_true_iff.2 (.inr ((Option.all_eq_true _ _).2 fun e he => ?_))
  exact h e (List.mem_filter.1 (List.mem_of_find?_eq_some he)).1

/-- Where all keys can be written, every path can be followed. -/
theorem canFollow_of_hasWritableKeys {t : Tree α} (h : t.hasWritableKeys = true) (p : Path) :
    t.canFollow p = true := by
  induction p generalizing t with
  | nil => rfl
  | cons s p ih =>
    have hbelow : (t.child? s).all (·.canFollow p) = true :=
      (Option.all_eq_true _ _).2 fun x hx => ih (all_child h (mem_children_of_child? hx))
    refine Bool.and_eq_true_iff.2 ⟨?_, hbelow⟩
    cases t with
    | map es =>
      cases s with
      | key name => exact canEnter_of_forall (fun e he => (allEntries_iff.1 h e he).1) name
      | index _ => rfl
    | list _ | tuple _ | scalar _ | set _ | check _ => rfl

/-- So lookup does not fail there. -/
theorem lookup_of_hasWritableKeys {t : Tree α} (h : t.hasWritableKeys = true) (p : Path) :
    t.lookup p = .ok (t.lookup? p) :=
  lookup_of_canFollow (canFollow_of_hasWritableKeys h p)

/-- A path can be followed if its first part can, and its second part from where that leads, if it
leads anywhere. -/
theorem canFollow_append (t : Tree α) (p q : Path) :
    t.canFollow (p ++ q) = (t.canFollow p && (t.lookup? p).all (·.canFollow q)) := by
  induction p generalizing t with
  | nil => rfl
  | cons s p ih =>
    rw [List.cons_append, canFollow, canFollow, lookup?]
    cases t.child? s with
    | none => simp
    | some x => simp only [Option.all_some, Option.bind_some, ih x, Bool.and_assoc]

end Tree

/-- A whole number of more than `digitLimit` digits as a key. -/
def longKey : Key := .scalar (.int (Nat.pow 16 4000 : Nat))

/-- It cannot be written. -/
theorem longKey_isWritable : longKey.isWritable = false := by decide +kernel

end TreeMatch
