import Mathlib.Data.List.Basic
import TreeMatch.Text.Utf8

/-!
# Which bytes are UTF-8

`Utf8.decode` is told by its bounds on lead bytes and second bytes, and says where bytes stop being
text. Whether they are text at all has nothing to do with bounds: bytes are UTF-8 if they are the
encodings of some characters one after the other. The two agree (`decode_eq_ok_iff`), so that
decoding fails just where there is no text that the bytes encode (`exists_fault_iff`).
-/

namespace TreeMatch.Utf8

/-- The bytes of a text. -/
def encode (text : List Char) : List UInt8 := text.flatMap String.utf8EncodeChar

/-! ## Reading one character -/

/-- What a byte means as the first of a character, by its number. -/
theorem lead?_eq (b : UInt8) :
    lead? b =
      if b.toNat < 0x80 then some ⟨b.toNat, 0, 0x80, 0xBF⟩
      else if 0xC2 ≤ b.toNat ∧ b.toNat ≤ 0xDF then some ⟨b.toNat - 0xC0, 1, 0x80, 0xBF⟩
      else if 0xE0 ≤ b.toNat ∧ b.toNat ≤ 0xEF then
        some ⟨b.toNat - 0xE0, 2, if b.toNat = 0xE0 then 0xA0 else 0x80,
          if b.toNat = 0xED then 0x9F else 0xBF⟩
      else if 0xF0 ≤ b.toNat ∧ b.toNat ≤ 0xF4 then
        some ⟨b.toNat - 0xF0, 3, if b.toNat = 0xF0 then 0x90 else 0x80,
          if b.toNat = 0xF4 then 0x8F else 0xBF⟩
      else none := by
  simp only [lead?, UInt8.lt_iff_toNat_lt, UInt8.le_iff_toNat_le, ← UInt8.toNat_inj]
  rfl

/-- What it means to be no less than one of two bytes. -/
theorem ite_le_iff {p : Prop} [Decidable p] {x y : UInt8} {k : Nat} :
    (if p then x else y).toNat ≤ k ↔ p ∧ x.toNat ≤ k ∨ ¬ p ∧ y.toNat ≤ k := by
  split <;> simp [*]

/-- What it means to be no greater than one of two bytes. -/
theorem le_ite_iff {p : Prop} [Decidable p] {x y : UInt8} {k : Nat} :
    k ≤ (if p then x else y).toNat ↔ p ∧ k ≤ x.toNat ∨ ¬ p ∧ k ≤ y.toNat := by
  split <;> simp [*]

/-- A byte within the bounds is taken. -/
theorem continuation_cons {least greatest b : UInt8} (hl : least.toNat ≤ b.toNat)
    (hg : b.toNat ≤ greatest.toNat) (count : Nat) (bs : List UInt8) :
    continuation least greatest (count + 1) (b :: bs) =
      b :: continuation 0x80 0xBF count bs := by
  rw [continuation, if_pos ⟨UInt8.le_iff_toNat_le.2 hl, UInt8.le_iff_toNat_le.2 hg⟩]

/-- If as many bytes are taken as were asked for, the first one is within the bounds and those after
it go on. -/
theorem exists_of_length_continuation {least greatest : UInt8} {count : Nat} {bs : List UInt8}
    (h : (continuation least greatest (count + 1) bs).length = count + 1) :
    ∃ b rest, bs = b :: rest ∧ least.toNat ≤ b.toNat ∧ b.toNat ≤ greatest.toNat ∧
      (continuation 0x80 0xBF count rest).length = count := by
  cases bs with
  | nil => exact nomatch h
  | cons b rest =>
    rw [continuation] at h
    split at h
    · rename_i hb
      exact ⟨b, rest, rfl, UInt8.le_iff_toNat_le.1 hb.1, UInt8.le_iff_toNat_le.1 hb.2,
        Nat.succ.inj h⟩
    · exact nomatch h

/-- The bytes of the character of a code point. -/
theorem utf8EncodeChar_ofNat {n : Nat} (h : n.isValidChar) :
    String.utf8EncodeChar (Char.ofNat n) =
      if n ≤ 0x7F then [UInt8.ofNat n]
      else if n ≤ 0x7FF then [UInt8.ofNat (n / 64 % 32 + 192), UInt8.ofNat (n % 64 + 128)]
      else if n ≤ 0xFFFF then [UInt8.ofNat (n / 4096 % 16 + 224),
        UInt8.ofNat (n / 64 % 64 + 128), UInt8.ofNat (n % 64 + 128)]
      else [UInt8.ofNat (n / 262144 % 8 + 240), UInt8.ofNat (n / 4096 % 64 + 128),
        UInt8.ofNat (n / 64 % 64 + 128), UInt8.ofNat (n % 64 + 128)] := by
  have hn : (Char.ofNat n).val.toNat = n := by
    rw [Char.ofNat, dif_pos h]
    rfl
  unfold String.utf8EncodeChar
  rw [hn]

/-- A byte is known by its number. -/
theorem ofNat_eq {n : Nat} {b : UInt8} (h : n = b.toNat) : UInt8.ofNat n = b := by
  rw [h, UInt8.ofNat_toNat]

/-- A character is read if as many bytes are taken as its first one asks for. -/
theorem first_eq_ok_iff {b : UInt8} {bs : List UInt8} {c : Char} {n : Nat} :
    first b bs = .ok (c, n) ↔ ∃ bits least greatest, lead? b = some ⟨bits, n, least, greatest⟩ ∧
      (continuation least greatest n bs).length = n ∧
      c = Char.ofNat ((continuation least greatest n bs).foldl
        (fun k x => 64 * k + (x.toNat - 0x80)) bits) := by
  unfold first
  cases lead? b with
  | none =>
    constructor
    · intro h
      exact nomatch h
    · rintro ⟨_, _, _, h, -⟩
      exact nomatch h
  | some l =>
    obtain ⟨bits, count, least, greatest⟩ := l
    dsimp only
    by_cases hlength : (continuation least greatest count bs).length = count
    · rw [if_pos hlength]
      constructor
      · intro h
        obtain ⟨rfl, rfl⟩ := Prod.mk.inj (Except.ok.inj h)
        exact ⟨bits, least, greatest, rfl, hlength, rfl⟩
      · rintro ⟨_, _, _, h, -, rfl⟩
        obtain ⟨rfl, rfl, rfl, rfl⟩ := Lead.mk.inj (Option.some.inj h)
        rfl
    · rw [if_neg hlength]
      constructor
      · intro h
        split at h
        · exact nomatch h
        · exact nomatch h
      · rintro ⟨_, _, _, h, h', -⟩
        obtain ⟨rfl, rfl, rfl, rfl⟩ := Lead.mk.inj (Option.some.inj h)
        exact absurd h' hlength

/-- What is read as the first character is encoded by the bytes that were read. -/
theorem utf8EncodeChar_of_first {b : UInt8} {bs : List UInt8} {c : Char} {n : Nat}
    (h : first b bs = .ok (c, n)) : ∃ tail rest, bs = tail ++ rest ∧ n = tail.length ∧
      String.utf8EncodeChar c = b :: tail := by
  have hleast : (0x80 : UInt8).toNat = 0x80 := rfl
  have hgreatest : (0xBF : UInt8).toNat = 0xBF := rfl
  obtain ⟨bits, least, greatest, hl, hlength, rfl⟩ := first_eq_ok_iff.1 h
  rw [lead?_eq] at hl
  -- The bounds on the first two bytes are what makes the shortest encoding that of these bytes, and
  -- what keeps out the surrogates and what is beyond the last code point.
  split at hl
  -- One byte.
  · obtain ⟨rfl, rfl, rfl, rfl⟩ := Lead.mk.inj (Option.some.inj hl)
    refine ⟨[], bs, rfl, rfl, ?_⟩
    show String.utf8EncodeChar (Char.ofNat b.toNat) = _
    rw [utf8EncodeChar_ofNat (.inl (by omega)), if_pos (by omega), UInt8.ofNat_toNat]
  split at hl
  -- Two bytes.
  · obtain ⟨rfl, rfl, rfl, rfl⟩ := Lead.mk.inj (Option.some.inj hl)
    obtain ⟨x, rest, rfl, hx, hx', -⟩ := exists_of_length_continuation hlength
    refine ⟨[x], rest, rfl, rfl, ?_⟩
    rw [continuation_cons hx hx']
    show String.utf8EncodeChar (Char.ofNat (64 * (b.toNat - 0xC0) + (x.toNat - 0x80))) = _
    rw [utf8EncodeChar_ofNat (.inl (by omega)), if_neg (by omega), if_pos (by omega)]
    rw [ofNat_eq (b := b) (by omega), ofNat_eq (b := x) (by omega)]
  split at hl
  -- Three bytes.
  · obtain ⟨rfl, rfl, rfl, rfl⟩ := Lead.mk.inj (Option.some.inj hl)
    obtain ⟨x, xs, rfl, hx, hx', hxs⟩ := exists_of_length_continuation hlength
    obtain ⟨y, rest, rfl, hy, hy', -⟩ := exists_of_length_continuation hxs
    refine ⟨[x, y], rest, rfl, rfl, ?_⟩
    rw [continuation_cons hx hx', continuation_cons hy hy']
    rw [ite_le_iff] at hx
    rw [le_ite_iff] at hx'
    have hA0 : (0xA0 : UInt8).toNat = 0xA0 := rfl
    have h9F : (0x9F : UInt8).toNat = 0x9F := rfl
    show String.utf8EncodeChar (Char.ofNat
      (64 * (64 * (b.toNat - 0xE0) + (x.toNat - 0x80)) + (y.toNat - 0x80))) = _
    rw [utf8EncodeChar_ofNat (by unfold Nat.isValidChar; omega), if_neg (by omega),
      if_neg (by omega), if_pos (by omega)]
    rw [ofNat_eq (b := b) (by omega), ofNat_eq (b := x) (by omega), ofNat_eq (b := y) (by omega)]
  split at hl
  -- Four bytes.
  · obtain ⟨rfl, rfl, rfl, rfl⟩ := Lead.mk.inj (Option.some.inj hl)
    obtain ⟨x, xs, rfl, hx, hx', hxs⟩ := exists_of_length_continuation hlength
    obtain ⟨y, ys, rfl, hy, hy', hys⟩ := exists_of_length_continuation hxs
    obtain ⟨z, rest, rfl, hz, hz', -⟩ := exists_of_length_continuation hys
    refine ⟨[x, y, z], rest, rfl, rfl, ?_⟩
    rw [continuation_cons hx hx', continuation_cons hy hy', continuation_cons hz hz']
    rw [ite_le_iff] at hx
    rw [le_ite_iff] at hx'
    have h90 : (0x90 : UInt8).toNat = 0x90 := rfl
    have h8F : (0x8F : UInt8).toNat = 0x8F := rfl
    show String.utf8EncodeChar (Char.ofNat (64 * (64 * (64 * (b.toNat - 0xF0) + (x.toNat - 0x80)) +
      (y.toNat - 0x80)) + (z.toNat - 0x80))) = _
    rw [utf8EncodeChar_ofNat (by unfold Nat.isValidChar; omega), if_neg (by omega),
      if_neg (by omega), if_neg (by omega)]
    rw [ofNat_eq (b := b) (by omega), ofNat_eq (b := x) (by omega),
      ofNat_eq (b := y) (by omega), ofNat_eq (b := z) (by omega)]
  · exact nomatch hl

/-- Bytes within their bounds are taken, all of them. -/
theorem continuation_of_bounds {least greatest x : UInt8} {tail : List UInt8}
    (hl : least.toNat ≤ x.toNat) (hg : x.toNat ≤ greatest.toNat)
    (htail : ∀ y ∈ tail, 0x80 ≤ y.toNat ∧ y.toNat ≤ 0xBF) (rest : List UInt8) :
    continuation least greatest (tail.length + 1) (x :: tail ++ rest) = x :: tail := by
  -- Only the first byte has bounds of its own; those after it have the usual ones.
  induction tail generalizing least greatest x with
  | nil => exact continuation_cons hl hg 0 rest
  | cons y tail ih =>
    obtain ⟨⟨hy, hy'⟩, htail⟩ := List.forall_mem_cons.1 htail
    have hrest : continuation 0x80 0xBF (tail.length + 1) (y :: tail ++ rest) = y :: tail :=
      ih hy hy' htail
    rw [List.cons_append, List.length_cons, continuation_cons hl hg, hrest]

/-- The character of a first byte and of those after it, if they are within their bounds. -/
theorem first_of_bounds {b x least greatest : UInt8} {tail : List UInt8} {bits n : Nat}
    (hlead : lead? b = some ⟨bits, tail.length + 1, least, greatest⟩)
    (hl : least.toNat ≤ x.toNat) (hg : x.toNat ≤ greatest.toNat)
    (htail : ∀ y ∈ tail, 0x80 ≤ y.toNat ∧ y.toNat ≤ 0xBF)
    (hn : (x :: tail).foldl (fun k y => 64 * k + (y.toNat - 0x80)) bits = n) (rest : List UInt8) :
    first b (x :: tail ++ rest) = .ok (Char.ofNat n, tail.length + 1) := by
  have htaken := continuation_of_bounds hl hg htail rest
  refine first_eq_ok_iff.2 ⟨bits, least, greatest, hlead, ?_, ?_⟩
  · rw [htaken, List.length_cons]
  · rw [htaken, hn]

/-- The number of a byte that is written below 256. -/
theorem toNat_ofNat_of_lt {n : Nat} (h : n < 256) : (UInt8.ofNat n).toNat = n := by
  rw [UInt8.toNat_ofNat', Nat.mod_eq_of_lt h]

/-- A byte that goes on with a character holds six bits of it. -/
theorem toNat_ofNat_tail (n : Nat) : (UInt8.ofNat (n % 64 + 128)).toNat = n % 64 + 128 :=
  toNat_ofNat_of_lt (by omega)

/-- The bytes of a character are read as this character, whatever follows them. -/
theorem first_utf8EncodeChar (c : Char) (rest : List UInt8) :
    ∃ b tail, String.utf8EncodeChar c = b :: tail ∧
      first b (tail ++ rest) = .ok (c, tail.length) := by
  obtain ⟨n, hvalid, rfl⟩ : ∃ n, n.isValidChar ∧ c = Char.ofNat n :=
    ⟨c.toNat, c.valid, c.ofNat_toNat.symm⟩
  rw [utf8EncodeChar_ofNat hvalid]
  unfold Nat.isValidChar at hvalid
  have h0 := toNat_ofNat_tail n
  have h1 := toNat_ofNat_tail (n / 64)
  have h2 := toNat_ofNat_tail (n / 4096)
  have h80 : (0x80 : UInt8).toNat = 0x80 := rfl
  have hBF : (0xBF : UInt8).toNat = 0xBF := rfl
  -- The four lengths, each with its lead byte and the bounds on the byte after it.
  split_ifs
  · have hb : (UInt8.ofNat n).toNat = n := toNat_ofNat_of_lt (by omega)
    refine ⟨_, [], rfl, first_eq_ok_iff.2 ⟨n, 0x80, 0xBF, ?_, rfl, rfl⟩⟩
    rw [lead?_eq, hb, if_pos (by omega)]
    rfl
  · have hb := toNat_ofNat_of_lt (n := n / 64 % 32 + 192) (by omega)
    have hlead : lead? (UInt8.ofNat (n / 64 % 32 + 192)) = some ⟨n / 64 % 32, 1, 0x80, 0xBF⟩ := by
      rw [lead?_eq, hb, if_neg (by omega), if_pos (by omega), Nat.add_sub_cancel]
    refine ⟨_, [_], rfl, first_of_bounds hlead (by omega) (by omega) (by simp) ?_ rest⟩
    simp only [List.foldl_cons, List.foldl_nil]
    omega
  · have hb := toNat_ofNat_of_lt (n := n / 4096 % 16 + 224) (by omega)
    have hlead := lead?_eq (UInt8.ofNat (n / 4096 % 16 + 224))
    rw [hb, if_neg (by omega), if_neg (by omega), if_pos (by omega), Nat.add_sub_cancel] at hlead
    have hA0 : (0xA0 : UInt8).toNat = 0xA0 := rfl
    have h9F : (0x9F : UInt8).toNat = 0x9F := rfl
    refine ⟨_, [_, _], rfl, first_of_bounds hlead (ite_le_iff.2 (by omega))
      (le_ite_iff.2 (by omega)) (List.forall_mem_singleton.2 (by omega)) ?_ rest⟩
    simp only [List.foldl_cons, List.foldl_nil]
    omega
  · have hb := toNat_ofNat_of_lt (n := n / 262144 % 8 + 240) (by omega)
    have hlead := lead?_eq (UInt8.ofNat (n / 262144 % 8 + 240))
    rw [hb, if_neg (by omega), if_neg (by omega), if_neg (by omega), if_pos (by omega),
      Nat.add_sub_cancel] at hlead
    have h90 : (0x90 : UInt8).toNat = 0x90 := rfl
    have h8F : (0x8F : UInt8).toNat = 0x8F := rfl
    refine ⟨_, [_, _, _], rfl, first_of_bounds hlead (ite_le_iff.2 (by omega))
      (le_ite_iff.2 (by omega))
      (List.forall_mem_cons.2 ⟨by omega, List.forall_mem_singleton.2 (by omega)⟩) ?_ rest⟩
    simp only [List.foldl_cons, List.foldl_nil]
    omega

/-! ## The whole text -/

/-- A text is decoded from its bytes, wherever they stand. -/
theorem decodeFrom_encode (text : List Char) (position : Nat) :
    decodeFrom position (encode text) = .ok text := by
  induction text generalizing position with
  | nil => rw [encode, List.flatMap_nil, decodeFrom]
  | cons c text ih =>
    obtain ⟨b, tail, hc, hfirst⟩ := first_utf8EncodeChar c (encode text)
    have hencode : encode (c :: text) = b :: (tail ++ encode text) := by
      rw [encode, List.flatMap_cons, hc]
      rfl
    rw [hencode, decodeFrom, hfirst]
    dsimp only
    rw [List.drop_left, ih]
    rfl

/-- Bytes that are decoded as a text are the bytes of it. -/
theorem eq_encode_of_decodeFrom {position : Nat} {bytes : List UInt8} {text : List Char}
    (h : decodeFrom position bytes = .ok text) : bytes = encode text := by
  induction position, bytes using decodeFrom.induct generalizing text with
  | case1 position =>
    rw [decodeFrom] at h
    obtain rfl := Except.ok.inj h
    rfl
  | case2 position b bs taken reason hfirst =>
    rw [decodeFrom, hfirst] at h
    exact nomatch h
  | case3 position b bs c n hfirst ih =>
    rw [decodeFrom, hfirst] at h
    obtain ⟨tail, rest, rfl, rfl, hc⟩ := utf8EncodeChar_of_first hfirst
    dsimp only at h
    rw [List.drop_left] at h ih
    cases hrest : decodeFrom (position + tail.length + 1) rest with
    | error f =>
      rw [hrest] at h
      exact nomatch h
    | ok more =>
      rw [hrest] at h
      obtain rfl := Except.ok.inj h
      rw [ih hrest, encode, encode, List.flatMap_cons, hc]
      rfl

/-- Bytes are decoded as a text exactly if they are its encoding. -/
theorem decode_eq_ok_iff {bytes : List UInt8} {text : List Char} :
    decode bytes = .ok text ↔ bytes = encode text := by
  constructor
  · exact eq_encode_of_decodeFrom
  · rintro rfl
    exact decodeFrom_encode text 0

/-- Decoding fails exactly if there is no text that the bytes encode. -/
theorem exists_fault_iff {bytes : List UInt8} :
    (∃ f, decode bytes = .error f) ↔ ∀ text, bytes ≠ encode text := by
  simp only [ne_eq, ← decode_eq_ok_iff]
  cases decode bytes with
  | error f => simp
  | ok text => simp

end TreeMatch.Utf8
