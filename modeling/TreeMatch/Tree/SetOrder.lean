import TreeMatch.Tree.Basic

/-!
# The order of a set

A set has no order of its own, but is written in one. Members that are not all numbers are written
in the order in which they came. Numbers are written in the order of their places in a table: each
of them in turn takes the first free place that its residue leads to. `Member.arrange` gives the
order, and `arrange_perm` says that no member is lost or added.
-/

namespace TreeMatch

namespace Number

/-- The modulus of residues, a prime for which the powers of two repeat after 61 steps. -/
def residueModulus : Nat := Nat.pow 2 61 - 1

/-- The residue of a number, with the sign of the number; -1 counts as -2. Equal numbers have equal
residues, whatever their type. -/
def residue : Number → Int
  | .infinite negative => Binary64.signed negative 314159
  | .finite .zero => 0
  | .finite (.ofOdd n k _) =>
    let power := Nat.pow 2 (-k % 61).toNat
    let r := Binary64.signed (n < 0) (n.natAbs * power % residueModulus)
    if r = -1 then -2 else r

end Number

namespace Member

/-- The number that a member stands for, if it stands for one. -/
def number? : Member → Option Number
  | .scalar s =>
    match s.form? with
    | some (.number n) => some n
    | _ => none
  | .nan => none

/-- The members with their numbers, if all of them are numbers. -/
def numbered? : List Member → Option (List (Member × Number))
  | [] => some []
  | m :: ms => m.number?.bind fun n => (numbered? ms).map ((m, n) :: ·)

/-- The size of the table for a number of members. -/
def tableSize (count : Nat) : Nat := if count < 5 then 8 else Nat.pow 2 ((2 * count).log2 + 1)

/-- The places that are tried in one go: ten in a row, or a single one close to the end. -/
def placesFrom (size start : Nat) : List Nat :=
  if start + 10 ≤ size then List.range' start 10 else [start]

/-- The first free place from `start` on. Where a go finds none, the next one starts elsewhere,
which depends on what is left of the residue. Nothing is left of it after 13 goes, and from then on
`size` goes start at all places in turn, which bounds the fuel. -/
def freePlace (size : Nat) (isFree : Nat → Bool) : Nat → Nat → Nat → Nat
  | 0, start, _ => start
  | fuel + 1, start, left =>
    match (placesFrom size start).find? isFree with
    | some place => place
    | none =>
      let left := left / 32
      freePlace size isFree fuel ((5 * start + 1 + left) % size) left

/-- The table after a number has led a member to its place; a table lists its places in order. -/
def enter (size : Nat) (table : List (Nat × Member)) (m : Member) (n : Number) :
    List (Nat × Member) :=
  let residue := (n.residue % Nat.pow 2 64).toNat
  let isFree (i : Nat) : Bool := !table.any (·.1 == i)
  let place := freePlace size isFree (size + 13) (residue % size) residue
  table.takeWhile (·.1 < place) ++ (place, m) :: table.dropWhile (·.1 < place)

/-- The table after members have entered it in turn. -/
def enterAll (size : Nat) (table : List (Nat × Member)) :
    List (Member × Number) → List (Nat × Member)
  | [] => table
  | (m, n) :: rest => enterAll size (enter size table m n) rest

/-- The members of a set in the order in which they are written. -/
def arrange (members : List Member) : List Member :=
  match numbered? members with
  | none => members
  | some numbered => (enterAll (tableSize members.length) [] numbered).map (·.2)

/-- Numbering the members keeps them as they are. -/
theorem map_fst_numbered {members : List Member} {numbered : List (Member × Number)}
    (h : numbered? members = some numbered) : numbered.map (·.1) = members := by
  induction members generalizing numbered with
  | nil => simp_all [numbered?]
  | cons m ms ih =>
    obtain ⟨n, -, hn⟩ := Option.bind_eq_some_iff.1 h
    obtain ⟨rest, hr, rfl⟩ := Option.map_eq_some_iff.1 hn
    simp [ih hr]

/-- A table has one member more after one has entered it. -/
theorem enter_perm (size : Nat) (table : List (Nat × Member)) (m : Member) (n : Number) :
    ((enter size table m n).map (·.2)).Perm (m :: table.map (·.2)) := by
  rw [enter, List.map_append, List.map_cons]
  refine List.perm_middle.trans ?_
  rw [← List.map_append, List.takeWhile_append_dropWhile]

/-- A table has the members that it had and those that have entered it. -/
theorem enterAll_perm (size : Nat) (table : List (Nat × Member)) (rest : List (Member × Number)) :
    ((enterAll size table rest).map (·.2)).Perm (rest.map (·.1) ++ table.map (·.2)) := by
  induction rest generalizing table with
  | nil => exact .refl _
  | cons e rest ih =>
    exact (ih _).trans (((enter_perm size table e.1 e.2).append_left _).trans List.perm_middle)

/-- The order of a set has all its members, each as often as before. -/
theorem arrange_perm (members : List Member) : (arrange members).Perm members := by
  unfold arrange
  split
  · exact .refl _
  · rename_i numbered h
    refine (enterAll_perm _ _ _).trans ?_
    rw [map_fst_numbered h, List.map_nil, List.append_nil]

example : (arrange [.scalar (.int 3), .scalar (.int 8), .scalar (.int 1)]).map Member.value =
    [Scalar.int 8, .int 1, .int 3] := by decide +kernel

end Member

end TreeMatch
