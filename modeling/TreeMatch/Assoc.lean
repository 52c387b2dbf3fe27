/-!
# Association lists in insertion order

Lists of keys and values in which a key keeps the place of its first entry and takes the value of
its last one. Two keys are compared by a Boolean relation `same`, which need not be equality: map
keys compare numbers by value, and a key may even differ from itself.

`keys_set` says what setting a key does to the keys; it follows that a list that is filled pair by
pair has distinct keys (`distinct_ofPairs`), and `mem_ofPairs` that it holds nothing but what it was
filled with. Pairs with distinct keys fill a list with just these pairs (`ofPairs_of_distinct`).
-/

namespace TreeMatch.Assoc

variable {κ : Type u} {β : Type v}

/-- The value of the first entry whose key is the same as `k`. -/
def get? (same : κ → κ → Bool) (k : κ) : List (κ × β) → Option β
  | [] => none
  | (k', b) :: rest => if same k k' then some b else get? same k rest

/-- Gives `k` the value `b`: an entry with the same key keeps its key and its place, and a key
without an entry is added at the end. -/
def set (same : κ → κ → Bool) (k : κ) (b : β) : List (κ × β) → List (κ × β)
  | [] => [(k, b)]
  | (k', b') :: rest => if same k k' then (k', b) :: rest else (k', b') :: set same k b rest

/-- Fills an empty list pair by pair. -/
def ofPairs (same : κ → κ → Bool) (pairs : List (κ × β)) : List (κ × β) :=
  pairs.foldl (fun es e => set same e.1 e.2 es) []

/-- The keys, in order. -/
def keys (entries : List (κ × β)) : List κ := entries.map (·.1)

/-- No key is the same as an earlier one. -/
def Distinct (same : κ → κ → Bool) (entries : List (κ × β)) : Prop :=
  (keys entries).Pairwise fun earlier later => same later earlier = false

instance (same : κ → κ → Bool) (entries : List (κ × β)) : Decidable (Distinct same entries) :=
  inferInstanceAs (Decidable (List.Pairwise _ _))

/-- Setting a key leaves the keys as they are if one of them is the same, and adds it at the end
otherwise. -/
theorem keys_set (same : κ → κ → Bool) (k : κ) (b : β) (entries : List (κ × β)) :
    keys (set same k b entries) =
      if (keys entries).any (same k) then keys entries else keys entries ++ [k] := by
  induction entries with
  | nil => rfl
  | cons e rest ih =>
    by_cases h : same k e.1
    · simp [set, keys, h]
    · have step : keys (set same k b (e :: rest)) = e.1 :: keys (set same k b rest) := by
        simp [set, keys, h]
      have any : (keys (e :: rest)).any (same k) = (keys rest).any (same k) := by
        simp [keys, h]
      rw [step, ih, any]
      split <;> rfl

/-- Setting a key keeps the keys distinct. -/
theorem Distinct.set {same : κ → κ → Bool} {entries : List (κ × β)} (h : Distinct same entries)
    (k : κ) (b : β) : Distinct same (Assoc.set same k b entries) := by
  unfold Distinct at h ⊢
  rw [keys_set]
  split
  · exact h
  · rename_i hk
    refine List.pairwise_append.2 ⟨h, List.pairwise_singleton _ _, fun earlier he later hl => ?_⟩
    obtain rfl := List.mem_singleton.1 hl
    exact Bool.eq_false_iff.2 fun hs => hk (List.any_eq_true.2 ⟨earlier, he, hs⟩)

/-- An entry after setting a key was there before, or has the value that was set. -/
theorem mem_set {same : κ → κ → Bool} {k : κ} {b : β} {entries : List (κ × β)} {e : κ × β}
    (h : e ∈ Assoc.set same k b entries) : e ∈ entries ∨ e.2 = b := by
  induction entries with
  | nil => exact .inr (by rw [List.mem_singleton.1 h])
  | cons e' rest ih =>
    unfold Assoc.set at h
    split at h
    · rcases List.mem_cons.1 h with rfl | h
      · exact .inr rfl
      · exact .inl (List.mem_cons_of_mem _ h)
    · rcases List.mem_cons.1 h with rfl | h
      · exact .inl List.mem_cons_self
      · exact (ih h).imp_left (List.mem_cons_of_mem _)

/-- A property that setting a key keeps holds of a list that is filled pair by pair. -/
theorem ofPairs_induction {same : κ → κ → Bool} (P : List (κ × β) → Prop) (pairs : List (κ × β))
    (empty : P []) (step : ∀ entries, ∀ p ∈ pairs, P entries → P (set same p.1 p.2 entries)) :
    P (ofPairs same pairs) := by
  suffices ∀ start, P start → P (pairs.foldl (fun es e => set same e.1 e.2 es) start) from
    this [] empty
  clear empty
  induction pairs with
  | nil => exact fun _ h => h
  | cons p rest ih =>
    intro start h
    exact ih (fun entries q hq => step entries q (List.mem_cons_of_mem _ hq)) _
      (step start p List.mem_cons_self h)

/-- A list that is filled pair by pair has distinct keys. -/
theorem distinct_ofPairs (same : κ → κ → Bool) (pairs : List (κ × β)) :
    Distinct same (ofPairs same pairs) :=
  ofPairs_induction _ pairs List.Pairwise.nil fun _ p _ h => h.set p.1 p.2

/-- A list that is filled pair by pair has only values of the pairs. -/
theorem mem_ofPairs {same : κ → κ → Bool} {pairs : List (κ × β)} {e : κ × β}
    (h : e ∈ ofPairs same pairs) : ∃ p ∈ pairs, e.2 = p.2 := by
  let Known (entries : List (κ × β)) : Prop := ∀ e ∈ entries, ∃ p ∈ pairs, e.2 = p.2
  have known : Known (ofPairs same pairs) :=
    ofPairs_induction Known pairs (fun _ h => nomatch h) fun _ p hp ih e he =>
      (mem_set he).elim (ih e) fun hb => ⟨p, hp, hb⟩
  exact known e h

/-- Setting a key that no entry has adds it at the end. -/
theorem set_of_forall_not {same : κ → κ → Bool} {k : κ} {entries : List (κ × β)}
    (h : ∀ e ∈ entries, same k e.1 = false) (b : β) :
    set same k b entries = entries ++ [(k, b)] := by
  induction entries with
  | nil => rfl
  | cons e rest ih =>
    obtain ⟨hhead, hrest⟩ := List.forall_mem_cons.1 h
    rw [set, hhead, ih hrest]
    rfl

/-- Pairs with distinct keys are the list that they fill. -/
theorem ofPairs_of_distinct {same : κ → κ → Bool} {pairs : List (κ × β)}
    (h : Distinct same pairs) : ofPairs same pairs = pairs := by
  suffices ∀ start, Distinct same (start ++ pairs) →
      pairs.foldl (fun es e => set same e.1 e.2 es) start = start ++ pairs from this [] h
  clear h
  induction pairs with
  | nil => exact fun start _ => (List.append_nil start).symm
  | cons p rest ih =>
    intro start hd
    have hpairs : (start ++ p :: rest).Pairwise fun d e => same e.1 d.1 = false :=
      List.pairwise_map.1 hd
    have hnew : ∀ e ∈ start, same p.1 e.1 = false := fun e he =>
      (List.pairwise_append.1 hpairs).2.2 e he p List.mem_cons_self
    have hnext := ih (start ++ [p]) (by rwa [List.append_assoc, List.singleton_append])
    rw [List.append_assoc, List.singleton_append] at hnext
    rw [List.foldl_cons, set_of_forall_not hnew]
    exact hnext

end TreeMatch.Assoc
