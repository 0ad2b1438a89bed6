import Mathlib.Tactic.Common
import VirtualClock.Text.Utf8

/-!
Decoding is the inverse of encoding: bytes decode to a text just if they are what the text is
encoded as, and to nothing if no text is. Between the two stands the grammar of well-formed
encodings of one character.
-/

namespace VirtualClock.Text

/-- The bytes of a text in UTF-8. -/
def encode (s : List Char) : List UInt8 := s.flatMap String.utf8EncodeChar

/-- A byte that goes on with an encoding. -/
structure IsTail (b : UInt8) : Prop where
  low : 0x80 ≤ b.toNat
  high : b.toNat ≤ 0xBF

/-- The well-formed encodings, each with the code that it stands for. The bounds on the second byte
keep out encodings that are too long, surrogates, and codes past the last one. -/
inductive Encodes : List UInt8 → Nat → Prop where
  | one {a} : a.toNat < 0x80 → Encodes [a] a.toNat
  | two {a b} : 0xC2 ≤ a.toNat → a.toNat ≤ 0xDF → IsTail b →
      Encodes [a, b] ((a.toNat - 0xC0) * 64 + (b.toNat - 0x80))
  | three {a b c} : 0xE0 ≤ a.toNat → a.toNat ≤ 0xEF → IsTail b → IsTail c →
      (a.toNat = 0xE0 → 0xA0 ≤ b.toNat) → (a.toNat = 0xED → b.toNat ≤ 0x9F) →
      Encodes [a, b, c] (((a.toNat - 0xE0) * 64 + (b.toNat - 0x80)) * 64 + (c.toNat - 0x80))
  | four {a b c d} : 0xF0 ≤ a.toNat → a.toNat ≤ 0xF4 → IsTail b → IsTail c → IsTail d →
      (a.toNat = 0xF0 → 0x90 ≤ b.toNat) → (a.toNat = 0xF4 → b.toNat ≤ 0x8F) →
      Encodes [a, b, c, d] ((((a.toNat - 0xF0) * 64 + (b.toNat - 0x80)) * 64 +
        (c.toNat - 0x80)) * 64 + (d.toNat - 0x80))

theorem Opening.of?_eq (b : UInt8) :
    Opening.of? b =
      if 0xC2 ≤ b.toNat ∧ b.toNat ≤ 0xDF then some ⟨[b], b.toNat - 0xC0, 1, 0x80, 0xBF⟩
      else if 0xE0 ≤ b.toNat ∧ b.toNat ≤ 0xEF then
        some ⟨[b], b.toNat - 0xE0, 2, if b.toNat = 0xE0 then 0xA0 else 0x80,
          if b.toNat = 0xED then 0x9F else 0xBF⟩
      else if 0xF0 ≤ b.toNat ∧ b.toNat ≤ 0xF4 then
        some ⟨[b], b.toNat - 0xF0, 3, if b.toNat = 0xF0 then 0x90 else 0x80,
          if b.toNat = 0xF4 then 0x8F else 0xBF⟩
      else none := by
  grind [Opening.of?]

variable {bytes rest read : List UInt8} {code missing low high : Nat} {b : UInt8}

theorem piecesFrom_last (above : low ≤ b.toNat) (below : b.toNat ≤ high) :
    piecesFrom (some ⟨read, code, 1, low, high⟩) (b :: rest) =
      .char (Char.ofNat (code * 64 + (b.toNat - 0x80))) :: piecesFrom none rest := by
  rw [piecesFrom, if_pos (by simp [above, below])]
  rfl

theorem piecesFrom_more (above : low ≤ b.toNat) (below : b.toNat ≤ high) :
    piecesFrom (some ⟨read, code, missing + 2, low, high⟩) (b :: rest) =
      piecesFrom (some ⟨read ++ [b], code * 64 + (b.toNat - 0x80), missing + 1, 0x80, 0xBF⟩)
        rest := by
  rw [piecesFrom, if_pos (by simp [above, below])]
  exact if_neg (by change ¬missing + 2 ≤ 1; omega)

theorem piecesFrom_of_opening {o : Opening} (large : 0x80 ≤ b.toNat)
    (opening : Opening.of? b = some o) :
    piecesFrom none (b :: rest) = piecesFrom (some o) rest := by
  rw [piecesFrom, startByte, if_neg (Nat.not_lt.mpr large), opening]
  rfl

theorem Encodes.piecesFrom_append (encodes : Encodes bytes code) :
    piecesFrom none (bytes ++ rest) = .char (Char.ofNat code) :: piecesFrom none rest := by
  cases encodes with
  | @one a small =>
    rw [List.cons_append, piecesFrom, startByte, if_pos small]
    rfl
  | @two a b low high tail =>
    have opening := Opening.of?_eq a
    rw [if_pos ⟨low, high⟩] at opening
    calc piecesFrom none (a :: b :: rest)
      _ = piecesFrom (some _) (b :: rest) := piecesFrom_of_opening (by omega) opening
      _ = _ := piecesFrom_last tail.low tail.high
  | @three a b c low high tail tail' long surrogate =>
    have opening := Opening.of?_eq a
    rw [if_neg (by omega), if_pos ⟨low, high⟩] at opening
    calc piecesFrom none (a :: b :: c :: rest)
      _ = piecesFrom (some _) (b :: c :: rest) := piecesFrom_of_opening (by omega) opening
      _ = piecesFrom (some _) (c :: rest) :=
        piecesFrom_more (by grind [IsTail]) (by grind [IsTail])
      _ = _ := piecesFrom_last tail'.low tail'.high
  | @four a b c d low high tail tail' tail'' long past =>
    have opening := Opening.of?_eq a
    rw [if_neg (by omega), if_neg (by omega), if_pos ⟨low, high⟩] at opening
    calc piecesFrom none (a :: b :: c :: d :: rest)
      _ = piecesFrom (some _) (b :: c :: d :: rest) := piecesFrom_of_opening (by omega) opening
      _ = piecesFrom (some _) (c :: d :: rest) :=
        piecesFrom_more (by grind [IsTail]) (by grind [IsTail])
      _ = piecesFrom (some _) (d :: rest) := piecesFrom_more tail'.low tail'.high
      _ = _ := piecesFrom_last tail''.low tail''.high

theorem isTail_ofNat (n : Nat) : IsTail (UInt8.ofNat (n % 64 + 128)) := by
  have value := UInt8.toNat_ofNat_of_lt' (n := n % 64 + 128) (by change _ < 256; omega)
  exact ⟨by omega, by omega⟩

theorem encodes_char (c : Char) : Encodes (String.utf8EncodeChar c) c.toNat := by
  have valid : c.val.toNat < 0xD800 ∨ 0xDFFF < c.val.toNat ∧ c.val.toNat < 0x110000 := c.valid
  have value {n : Nat} (small : n < 256) : (UInt8.ofNat n).toNat = n :=
    UInt8.toNat_ofNat_of_lt' small
  change Encodes (String.utf8EncodeChar c) c.val.toNat
  unfold String.utf8EncodeChar
  generalize c.val.toNat = v at valid ⊢
  dsimp only
  split_ifs with one two three
  · have a := value (n := v) (by omega)
    have encodes := Encodes.one (a := UInt8.ofNat v) (by omega)
    rwa [a] at encodes
  · have a := value (n := v / 64 % 32 + 192) (by omega)
    have b := value (n := v % 64 + 128) (by omega)
    have encodes := Encodes.two (a := UInt8.ofNat (v / 64 % 32 + 192)) (by omega) (by omega)
      (isTail_ofNat v)
    rw [a, b] at encodes
    convert encodes using 1
    omega
  · have a := value (n := v / 4096 % 16 + 224) (by omega)
    have b := value (n := v / 64 % 64 + 128) (by omega)
    have c := value (n := v % 64 + 128) (by omega)
    have encodes := Encodes.three (a := UInt8.ofNat (v / 4096 % 16 + 224)) (by omega) (by omega)
      (isTail_ofNat (v / 64)) (isTail_ofNat v) (by omega) (by omega)
    rw [a, b, c] at encodes
    convert encodes using 1
    omega
  · have a := value (n := v / 262144 % 8 + 240) (by omega)
    have b := value (n := v / 4096 % 64 + 128) (by omega)
    have c := value (n := v / 64 % 64 + 128) (by omega)
    have d := value (n := v % 64 + 128) (by omega)
    have encodes := Encodes.four (a := UInt8.ofNat (v / 262144 % 8 + 240)) (by omega) (by omega)
      (isTail_ofNat (v / 4096)) (isTail_ofNat (v / 64)) (isTail_ofNat v) (by omega) (by omega)
    rw [a, b, c, d] at encodes
    convert encodes using 1
    omega

theorem Encodes.isValidChar (encodes : Encodes bytes code) : code.isValidChar := by
  cases encodes with
  | one | two => exact .inl (by grind [IsTail])
  | three low high tail tail' long surrogate =>
    obtain ⟨_, _⟩ := tail
    obtain ⟨_, _⟩ := tail'
    unfold Nat.isValidChar
    omega
  | four low high tail tail' tail'' long past =>
    obtain ⟨_, _⟩ := tail
    obtain ⟨_, _⟩ := tail'
    obtain ⟨_, _⟩ := tail''
    unfold Nat.isValidChar
    omega

theorem ofNat_eq {n : Nat} (same : n = b.toNat) : UInt8.ofNat n = b := by
  rw [same, UInt8.ofNat_toNat]

/-- A character has no other well-formed encoding. -/
theorem Encodes.eq_utf8EncodeChar (encodes : Encodes bytes code) :
    bytes = String.utf8EncodeChar (Char.ofNat code) := by
  have value : (Char.ofNat code).val.toNat = code := by
    rw [Char.ofNat, dif_pos encodes.isValidChar]
    rfl
  unfold String.utf8EncodeChar
  rw [value]
  dsimp only
  cases encodes with
  | one small => rw [if_pos (by omega), UInt8.ofNat_toNat]
  | @two a b low high tail =>
    obtain ⟨_, _⟩ := tail
    rw [if_neg (by omega), if_pos (by omega), ofNat_eq (b := a) (by omega),
      ofNat_eq (b := b) (by omega)]
  | @three a b c low high tail tail' long surrogate =>
    obtain ⟨_, _⟩ := tail
    obtain ⟨_, _⟩ := tail'
    rw [if_neg (by omega), if_neg (by omega), if_pos (by omega), ofNat_eq (b := a) (by omega),
      ofNat_eq (b := b) (by omega), ofNat_eq (b := c) (by omega)]
  | @four a b c d low high tail tail' tail'' long past =>
    obtain ⟨_, _⟩ := tail
    obtain ⟨_, _⟩ := tail'
    obtain ⟨_, _⟩ := tail''
    rw [if_neg (by omega), if_neg (by omega), if_neg (by omega), ofNat_eq (b := a) (by omega),
      ofNat_eq (b := b) (by omega), ofNat_eq (b := c) (by omega), ofNat_eq (b := d) (by omega)]

/-- Characters only. -/
def Whole (pieces : List Piece) : Prop := ∀ p ∈ pieces, ∃ c, p = .char c

theorem Whole.not_broken {pieces : List Piece} (whole : Whole pieces) :
    .broken bytes ∉ pieces := by
  intro member
  obtain ⟨c, same⟩ := whole _ member
  cases same

theorem Whole.exists_next
    (whole : Whole (piecesFrom (some ⟨read, code, missing, low, high⟩) rest)) :
    ∃ b rest', rest = b :: rest' ∧ low ≤ b.toNat ∧ b.toNat ≤ high := by
  cases rest with
  | nil => exact absurd List.mem_cons_self whole.not_broken
  | cons b rest =>
    by_cases inside : low ≤ b.toNat ∧ b.toNat ≤ high
    · exact ⟨b, rest, rfl, inside⟩
    · rw [piecesFrom, if_neg (by simpa using inside)] at whole
      exact absurd List.mem_cons_self whole.not_broken

/-- Where nothing is broken the first byte belongs to a well-formed encoding. -/
theorem Whole.exists_encodes (whole : Whole (piecesFrom none (b :: rest))) :
    ∃ bytes code rest', Encodes bytes code ∧ b :: rest = bytes ++ rest' := by
  by_cases small : b.toNat < 0x80
  · exact ⟨[b], _, rest, .one small, rfl⟩
  have opening := Opening.of?_eq b
  by_cases two : 0xC2 ≤ b.toNat ∧ b.toNat ≤ 0xDF
  · rw [if_pos two] at opening
    rw [piecesFrom_of_opening (by omega) opening] at whole
    obtain ⟨c, rest, rfl, tail⟩ := whole.exists_next
    exact ⟨[b, c], _, rest, .two two.1 two.2 ⟨tail.1, tail.2⟩, rfl⟩
  rw [if_neg two] at opening
  by_cases three : 0xE0 ≤ b.toNat ∧ b.toNat ≤ 0xEF
  · rw [if_pos three] at opening
    rw [piecesFrom_of_opening (by omega) opening] at whole
    obtain ⟨c, rest, rfl, above, below⟩ := whole.exists_next
    rw [piecesFrom_more above below] at whole
    obtain ⟨d, rest, rfl, tail⟩ := whole.exists_next
    exact ⟨[b, c, d], _, rest, .three three.1 three.2 ⟨by grind, by grind⟩ ⟨tail.1, tail.2⟩
      (by grind) (by grind), rfl⟩
  rw [if_neg three] at opening
  by_cases four : 0xF0 ≤ b.toNat ∧ b.toNat ≤ 0xF4
  · rw [if_pos four] at opening
    rw [piecesFrom_of_opening (by omega) opening] at whole
    obtain ⟨c, rest, rfl, above, below⟩ := whole.exists_next
    rw [piecesFrom_more above below] at whole
    obtain ⟨d, rest, rfl, tail⟩ := whole.exists_next
    rw [piecesFrom_more tail.1 tail.2] at whole
    obtain ⟨e, rest, rfl, tail'⟩ := whole.exists_next
    exact ⟨[b, c, d, e], _, rest, .four four.1 four.2 ⟨by grind, by grind⟩ ⟨tail.1, tail.2⟩
      ⟨tail'.1, tail'.2⟩ (by grind) (by grind), rfl⟩
  rw [if_neg four] at opening
  rw [piecesFrom, startByte, if_neg small, opening] at whole
  exact absurd List.mem_cons_self whole.not_broken

theorem Whole.exists_char (whole : Whole (pieces (b :: rest))) :
    ∃ c rest', b :: rest = String.utf8EncodeChar c ++ rest' ∧
      pieces (b :: rest) = .char c :: pieces rest' := by
  obtain ⟨bytes, code, rest', encodes, same⟩ := whole.exists_encodes
  refine ⟨Char.ofNat code, rest', ?_, ?_⟩
  · rw [← encodes.eq_utf8EncodeChar, same]
  · rw [same]
    exact encodes.piecesFrom_append

theorem mapM_char?_map (s : List Char) : (s.map .char).mapM Piece.char? = some s := by
  induction s with
  | nil => rfl
  | cons c s ih =>
    rw [List.map_cons, List.mapM_cons, ih]
    rfl

theorem eq_map_of_mapM_char? {pieces : List Piece} {s : List Char}
    (chars : pieces.mapM Piece.char? = some s) : pieces = s.map .char := by
  induction pieces generalizing s with
  | nil =>
    cases chars
    rfl
  | cons p pieces ih =>
    rw [List.mapM_cons] at chars
    cases p with
    | broken bytes => cases chars
    | char c =>
      change (pieces.mapM Piece.char?).bind (fun others => some (c :: others)) = some s at chars
      obtain ⟨others, read, same⟩ := Option.bind_eq_some_iff.mp chars
      cases same
      rw [ih read]
      rfl

theorem pieces_encode (s : List Char) : pieces (encode s) = s.map .char := by
  induction s with
  | nil => rfl
  | cons c s ih =>
    have first : piecesFrom none (String.utf8EncodeChar c ++ encode s) = _ :=
      (encodes_char c).piecesFrom_append
    rw [Char.ofNat_toNat] at first
    rw [encode, List.flatMap_cons, pieces, List.map_cons, ← ih]
    exact first

theorem whole_map_char (s : List Char) : Whole (s.map .char) := by
  intro p member
  obtain ⟨c, -, rfl⟩ := List.mem_map.mp member
  exact ⟨c, rfl⟩

theorem eq_encode_of_pieces {s : List Char} (read : pieces bytes = s.map .char) :
    bytes = encode s := by
  have whole : Whole (pieces bytes) := by
    rw [read]
    exact whole_map_char s
  induction s generalizing bytes with
  | nil =>
    cases bytes with
    | nil => rfl
    | cons b rest =>
      obtain ⟨c, rest', -, first⟩ := whole.exists_char
      rw [first] at read
      cases read
  | cons c s ih =>
    cases bytes with
    | nil => cases read
    | cons b rest =>
      obtain ⟨d, rest', same, first⟩ := whole.exists_char
      rw [first, List.map_cons, List.cons.injEq] at read
      obtain ⟨first', others⟩ := read
      cases first'
      have whole' : Whole (pieces rest') := by
        rw [others]
        exact whole_map_char s
      rw [same, ih others whole']
      rfl

theorem decode?_eq_some_iff {s : String} : decode? bytes = some s ↔ bytes = encode s.toList := by
  rw [decode?, Option.map_eq_some_iff]
  constructor
  · rintro ⟨chars, read, rfl⟩
    rw [String.toList_ofList]
    exact eq_encode_of_pieces (eq_map_of_mapM_char? read)
  · rintro rfl
    rw [pieces_encode]
    exact ⟨s.toList, mapM_char?_map s.toList, String.ofList_toList⟩

theorem loop_toList (bytes : ByteArray) (i : Nat) (read : List UInt8) :
    ByteArray.toList.loop bytes i read = read.reverse ++ bytes.data.toList.drop i := by
  fun_induction ByteArray.toList.loop bytes i read with
  | case1 i read inside ih =>
    have inside' : i < bytes.data.toList.length := inside
    have next : bytes.get! i = bytes.data.toList[i] := by
      change bytes.data[i]! = bytes.data.toList[i]
      rw [getElem!_pos bytes.data i inside, Array.getElem_toList]
    rw [ih, List.drop_eq_getElem_cons inside', next, List.reverse_cons, List.append_assoc]
    rfl
  | case2 i read outside =>
    have past : bytes.data.toList.length ≤ i := Nat.le_of_not_lt outside
    rw [List.drop_eq_nil_of_le past, List.append_nil]

theorem toList_toUTF8 (s : String) : s.toUTF8.toList = encode s.toList := by
  rw [ByteArray.toList, loop_toList, String.toUTF8_eq_toByteArray, ← String.ofList_toList (s := s),
    String.toByteArray_ofList, String.toList_ofList, List.utf8Encode, List.data_toByteArray]
  rfl

end VirtualClock.Text
