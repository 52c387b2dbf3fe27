/-!
# Hexadecimal digits

ASCII digits and letters of either case, as escapes in documents use them.
-/

namespace TreeMatch

/-- The value of a hexadecimal digit. -/
def hexDigit? (c : Char) : Option Nat :=
  if '0' ≤ c ∧ c ≤ '9' then some (c.toNat - '0'.toNat)
  else if 'a' ≤ c ∧ c ≤ 'f' then some (c.toNat - 'a'.toNat + 10)
  else if 'A' ≤ c ∧ c ≤ 'F' then some (c.toNat - 'A'.toNat + 10)
  else none

/-- The number that hexadecimal digits write, if all the characters are such digits. -/
def hexValue? (cs : List Char) : Option Nat :=
  (cs.mapM hexDigit?).map fun ds => ds.foldl (fun n d => 16 * n + d) 0

example : hexValue? ['0', '0', 'e', '9'] = some 0xE9 := by decide

end TreeMatch
