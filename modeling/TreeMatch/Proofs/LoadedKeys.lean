import Mathlib
import TreeMatch.Document.Load
import TreeMatch.Proofs.JsonReading
import TreeMatch.Proofs.TagPromises
import TreeMatch.Proofs.TextKeys

/-!
# The keys of a document that is loaded

In a document that is loaded the keys of every map differ (`distinctKeys_of_load`). JSON fills its
maps pair by pair. YAML sets the keys of a map one after the other; they differ as scalars with
their sources, and so they differ as keys. Putting values together changes no keys, wherever a
container that holds itself is cut.
-/

namespace TreeMatch

namespace Tree

variable {α : Type u} {β : Type v}

/-- A map has distinct keys if those of some list are distinct, and each value has distinct keys. -/
theorem distinctKeys_map {γ : Type w} {es : List (Key × γ)} {value : Key × γ → Tree α}
    (hes : Assoc.Distinct Key.same es) (h : ∀ e ∈ es, (value e).DistinctKeys) :
    (Tree.map (es.map fun e => (e.1, value e))).DistinctKeys := by
  have hkeys : Assoc.keys (es.map fun e => (e.1, value e)) = Assoc.keys es := by
    rw [Assoc.keys, List.map_map]
    rfl
  refine ⟨?_, entriesDistinctKeys_iff.2 (List.forall_mem_map.2 h)⟩
  rw [Assoc.Distinct, hkeys]
  exact hes

mutual

/-- Replacing checks keeps keys distinct. -/
theorem DistinctKeys.mapChecks {t : Tree α} (f : α → β) (h : t.DistinctKeys) :
    (t.mapChecks f).DistinctKeys := by
  cases t with
  | scalar _ | set _ | check _ => trivial
  | list xs | tuple xs => exact ItemsDistinctKeys.mapItems f h
  | map es =>
    rw [Tree.mapChecks, mapEntries_eq_map]
    exact distinctKeys_map h.1 (EntriesDistinctKeys.mapChecks f h.2)

/-- So it does in the elements of a sequence. -/
theorem ItemsDistinctKeys.mapItems {xs : List (Tree α)} (f : α → β) (h : ItemsDistinctKeys xs) :
    ItemsDistinctKeys (mapItems f xs) := by
  cases xs with
  | nil => trivial
  | cons x xs => exact ⟨DistinctKeys.mapChecks f h.1, ItemsDistinctKeys.mapItems f h.2⟩

/-- So it does in the values of a map. -/
theorem EntriesDistinctKeys.mapChecks {es : List (Key × Tree α)} (f : α → β)
    (h : EntriesDistinctKeys es) : ∀ e ∈ es, (e.2.mapChecks f).DistinctKeys := by
  cases es with
  | nil => exact List.forall_mem_nil _
  | cons e es =>
    exact List.forall_mem_cons.2 ⟨DistinctKeys.mapChecks f h.1, EntriesDistinctKeys.mapChecks f h.2⟩

end

end Tree

namespace Yaml

/-- The keys of one layer of a value, given that no map has a key twice. -/
def Layer.HasDistinctKeys : Layer → Prop
  | .leaf t => t.DistinctKeys
  | .list _ | .tuple _ => True
  | .map es => Assoc.Distinct Key.same es

/-- Keys that differ with their sources differ. -/
theorem distinct_toKey {β γ : Type} {es : List (SourcedScalar × β)} {value : SourcedScalar × β → γ}
    (h : Assoc.Distinct SourcedScalar.same es) :
    Assoc.Distinct Key.same (es.map fun e => (e.1.toKey, value e)) := by
  rw [Assoc.Distinct, Assoc.keys, List.map_map, List.pairwise_map]
  refine (List.pairwise_map.1 h).imp fun {a b} hab => ?_
  exact (Bool.or_eq_false_iff.1 hab).1

namespace Making.Of

variable {room : Room} {g : Graph} {m : Making}

/-- What was made of a node is one of the parts. -/
theorem hasDistinctKeys_part (h : m.Of room g) {i : Nat} {p : Part}
    (hp : m.parts.getD i none = some p) : p.HasDistinctKeys := by
  rw [Array.getD_eq_getD_getElem?] at hp
  cases hget : m.parts[i]? with
  | none =>
    rw [hget] at hp
    cases hp
  | some part =>
    rw [hget] at hp
    obtain rfl : part = some p := hp
    exact h.parts p (Array.mem_of_getElem? hget)

/-- Every layer has distinct keys. -/
theorem hasDistinctKeys_layer (h : m.Of room g) (origin : Origin) :
    (m.layer origin).HasDistinctKeys := by
  cases origin with
  | pair i n =>
    unfold layer
    dsimp only
    split <;> trivial
  | node i =>
    unfold layer
    dsimp only
    split
    case h_7 es hes =>
      have hmap := h.hasDistinctKeys_part hes
      exact distinct_toKey hmap
    all_goals trivial

/-- A value has distinct keys, wherever it is cut. -/
theorem distinctKeys_valueWithin (h : m.Of room g) (fuel : Nat) (outer : List Origin)
    (origin : Origin) : (m.valueWithin fuel outer origin).DistinctKeys := by
  induction fuel generalizing outer origin with
  | zero => trivial
  | succ fuel ih =>
    have hlayer := h.hasDistinctKeys_layer origin
    unfold valueWithin
    dsimp only
    split
    · rename_i heq
      rw [heq] at hlayer
      exact hlayer
    · exact Tree.itemsDistinctKeys_iff.2 (List.forall_mem_map.2 fun part _ => ih _ part)
    · trivial
    · exact Tree.itemsDistinctKeys_iff.2 (List.forall_mem_map.2 fun part _ => ih _ part)
    · trivial
    · rename_i heq _
      rw [heq] at hlayer
      exact Tree.distinctKeys_map hlayer fun e _ => ih _ e.2
    · trivial

/-- So has one that is cut nowhere on the paths of another tree. -/
theorem distinctKeys_valueAlong (h : m.Of room g) (fuel : Nat) (shape : DocumentTree)
    (origin : Origin) : (m.valueAlong fuel shape origin).DistinctKeys := by
  induction fuel generalizing shape origin with
  | zero => exact h.distinctKeys_valueWithin _ [] origin
  | succ fuel ih =>
    have hlayer := h.hasDistinctKeys_layer origin
    have hrest (part : Origin) : (m.value [origin] part).DistinctKeys :=
      h.distinctKeys_valueWithin _ [origin] part
    unfold valueAlong
    dsimp only
    split
    · rename_i heq
      rw [heq] at hlayer
      exact hlayer
    -- What is within goes on along the other tree as far as that reaches.
    · refine Tree.itemsDistinctKeys_iff.2 fun t ht => ?_
      obtain ⟨n, _, rfl⟩ := List.mem_mapIdx.1 ht
      split
      · exact ih _ _
      · exact hrest _
    · refine Tree.itemsDistinctKeys_iff.2 fun t ht => ?_
      obtain ⟨n, _, rfl⟩ := List.mem_mapIdx.1 ht
      split
      · exact ih _ _
      · exact hrest _
    · rename_i heq
      rw [heq] at hlayer
      refine Tree.distinctKeys_map hlayer fun e _ => ?_
      split
      · exact ih _ _
      · exact hrest _

end Making.Of

/-- In a value of a YAML text the keys of every map differ. -/
theorem distinctKeys_of_readAlong {room : Room} {shape t : DocumentTree} {cs : List Char}
    (h : readAlong room shape cs = .ok t) : t.DistinctKeys := by
  unfold readAlong at h
  obtain ⟨g?, -, h⟩ := exists_of_bind_eq_ok h
  cases g? with
  | none =>
    obtain rfl := Except.ok.inj h
    trivial
  | some g =>
    obtain ⟨m, hm, rfl⟩ := Graph.exists_of_toValue h
    exact hm.distinctKeys_valueAlong _ shape _

end Yaml

namespace Document

/-- In the value of a text the keys of every map differ, whatever its kind is. -/
theorem distinctKeys_of_decode {room : Room} {shape t : DocumentTree} {kind : DocumentKind}
    {l : Location} {text : List Char} (h : decode room shape kind l text = .ok t) :
    t.DistinctKeys := by
  unfold decode at h
  cases kind with
  | json =>
    dsimp only at h
    split at h
    · rename_i v hread
      obtain rfl := Except.ok.inj h
      exact (Json.distinctKeys_of_read hread).mapChecks _
    all_goals cases h
  | yaml =>
    dsimp only at h
    split at h
    · rename_i v hread
      obtain rfl := Except.ok.inj h
      exact Yaml.distinctKeys_of_readAlong hread
    all_goals cases h

/-- In a document that is loaded the keys of every map differ. -/
theorem distinctKeys_of_load {room : Room} {shape t : DocumentTree} {disk : Disk} {path : String}
    (h : loadAlong room shape disk path = .ok t) : t.DistinctKeys := by
  unfold loadAlong at h
  dsimp only at h
  split at h
  · cases h
  split at h
  · cases h
  split at h
  · cases h
  split at h
  · cases h
  exact distinctKeys_of_decode h

end Document

end TreeMatch
