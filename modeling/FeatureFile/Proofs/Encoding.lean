import FeatureFile.Proofs.Reading
import FeatureFile.Text.Utf8
import Mathlib.Tactic.IntervalCases

set_option autoImplicit false

/-! # Texts survive their encoding

A text that is written to a file and read again is the same text: `Utf8.decode_encode`. The bytes of
a character are followed through the decoder one at a time, a lead byte first, and what the decoder
has gathered at the last of them is the code point that they came from. Nothing else is decoded:
the ranges of the second byte leave out the sequences that no character is encoded to, so bytes that
are decoded are the encoding of the text (`Utf8.decode_eq_ok_iff`). -/

namespace FeatureFile.Utf8

/-- The bytes of a text are those of its characters. -/
theorem encode_eq (s : String) : encode s = s.toList.flatMap String.utf8EncodeChar := by
  have h : s.toUTF8 = (s.toList.flatMap String.utf8EncodeChar).toByteArray := by
    rw [String.toUTF8_eq_toByteArray, ← String.ofList_toList (s := s), String.toByteArray_ofList,
      String.toList_ofList]
    rfl
  rw [encode, h, List.data_toByteArray]

/-! ## One byte -/

section Bytes

variable {position n : Nat} {rest seen : List UInt8} {code more : Nat} {low high : UInt8}

theorem decodeFrom_ascii (h : n < 0x80) :
    decodeFrom .ready position (UInt8.ofNat n :: rest) =
      (decodeFrom .ready (position + 1) rest).map (Char.ofNat n :: ·) := by
  have hnat : (UInt8.ofNat n).toNat = n := UInt8.toNat_ofNat_of_lt' (Nat.lt_trans h (by decide))
  have hlt : UInt8.ofNat n < 0x80 := by
    rw [UInt8.lt_iff_toNat_lt, hnat]
    exact h
  rw [decodeFrom, if_pos hlt, hnat]

/-- The first byte of several opens a sequence. -/
theorem decodeFrom_lead (hlead : lead? (UInt8.ofNat n) = some (low, high, more))
    (hn : 0x80 ≤ n) (hbyte : n < 256) :
    decodeFrom .ready position (UInt8.ofNat n :: rest) =
      decodeFrom (.inside [UInt8.ofNat n] (started (UInt8.ofNat n) more) low high more)
        (position + 1) rest := by
  have hge : ¬UInt8.ofNat n < 0x80 := by
    rw [UInt8.lt_iff_toNat_lt, UInt8.toNat_ofNat_of_lt' hbyte]
    exact Nat.not_lt.2 hn
  rw [decodeFrom, if_neg hge, hlead]

/-- The bits of a byte inside a sequence. -/
theorem continued_ofNat (hn : n < 256) :
    continued code (UInt8.ofNat n) = code * 64 + (n - 0x80) := by
  have hnat : (UInt8.ofNat n).toNat = n := UInt8.toNat_ofNat_of_lt' hn
  unfold continued
  rw [hnat]

theorem ofNat_mem_range (hlow : low.toNat ≤ n) (hhigh : n ≤ high.toNat) (hn : n < 256) :
    low ≤ UInt8.ofNat n ∧ UInt8.ofNat n ≤ high := by
  rw [UInt8.le_iff_toNat_le, UInt8.le_iff_toNat_le, UInt8.toNat_ofNat_of_lt' hn]
  exact ⟨hlow, hhigh⟩

/-- A byte in range that is not the last of its sequence. -/
theorem decodeFrom_more (hlow : low.toNat ≤ n) (hhigh : n ≤ high.toNat) :
    decodeFrom (.inside seen code low high (more + 1)) position (UInt8.ofNat n :: rest) =
      decodeFrom (.inside (seen ++ [UInt8.ofNat n]) (code * 64 + (n - 0x80)) 0x80 0xBF more)
        (position + 1) rest := by
  have hn : n < 256 := Nat.lt_of_le_of_lt hhigh high.toNat_lt
  rw [decodeFrom, if_pos (ofNat_mem_range hlow hhigh hn), ← continued_ofNat hn]

/-- The last byte of a sequence gives its character. -/
theorem decodeFrom_last (hlow : low.toNat ≤ n) (hhigh : n ≤ high.toNat) :
    decodeFrom (.inside seen code low high 0) position (UInt8.ofNat n :: rest) =
      (decodeFrom .ready (position + 1) rest).map (Char.ofNat (code * 64 + (n - 0x80)) :: ·) := by
  have hn : n < 256 := Nat.lt_of_le_of_lt hhigh high.toNat_lt
  rw [decodeFrom, if_pos (ofNat_mem_range hlow hhigh hn), ← continued_ofNat hn]

/-- A byte that starts no sequence of several. -/
theorem lead?_low (h : n < 0xC2) : lead? (UInt8.ofNat n) = none := by
  have hlt : UInt8.ofNat n < 0xC2 := by
    rw [UInt8.lt_iff_toNat_lt, UInt8.toNat_ofNat_of_lt' (Nat.lt_trans h (by decide))]
    exact h
  rw [lead?, if_pos hlt]

theorem lead?_high (hlow : 0xF4 < n) (hhigh : n < 256) : lead? (UInt8.ofNat n) = none := by
  interval_cases n <;> rfl

/-- A first byte of a sequence of two. -/
theorem lead?_two (hlow : 0xC2 ≤ n) (hhigh : n < 0xE0) :
    lead? (UInt8.ofNat n) = some (0x80, 0xBF, 0) := by
  interval_cases n <;> rfl

/-- A first byte of a sequence of three. The second byte is kept from spelling a shorter sequence
    and from the surrogates. -/
theorem lead?_three (hlow : 0xE0 ≤ n) (hhigh : n < 0xF0) :
    lead? (UInt8.ofNat n) =
      some (if n = 0xE0 then 0xA0 else 0x80, if n = 0xED then 0x9F else 0xBF, 1) := by
  interval_cases n <;> rfl

/-- A first byte of a sequence of four. The second byte is kept from spelling a shorter sequence and
    from what is above the last code point. -/
theorem lead?_four (hlow : 0xF0 ≤ n) (hhigh : n ≤ 0xF4) :
    lead? (UInt8.ofNat n) =
      some (if n = 0xF0 then 0x90 else 0x80, if n = 0xF4 then 0x8F else 0xBF, 2) := by
  interval_cases n <;> rfl

theorem started_two (hn : n < 256) : started (UInt8.ofNat n) 0 = n - 0xC0 :=
  congrArg (· - 0xC0) (UInt8.toNat_ofNat_of_lt' hn)

theorem started_three (hn : n < 256) : started (UInt8.ofNat n) 1 = n - 0xE0 :=
  congrArg (· - 0xE0) (UInt8.toNat_ofNat_of_lt' hn)

theorem started_four (hn : n < 256) : started (UInt8.ofNat n) 2 = n - 0xF0 :=
  congrArg (· - 0xF0) (UInt8.toNat_ofNat_of_lt' hn)

end Bytes

/-! ## One character -/

/-- The bytes of a character are decoded to it. -/
theorem decodeFrom_utf8EncodeChar (c : Char) (position : Nat) (rest : List UInt8) :
    ∃ next, decodeFrom .ready position (String.utf8EncodeChar c ++ rest) =
      (decodeFrom .ready next rest).map (c :: ·) := by
  have hvalid : c.val.toNat < 0xD800 ∨ 0xDFFF < c.val.toNat ∧ c.val.toNat < 0x110000 := c.valid
  have hc : Char.ofNat c.val.toNat = c := Char.ofNat_toNat c
  rw [String.utf8EncodeChar.eq_1]
  generalize c.val.toNat = v at hvalid hc ⊢
  split
  · exact ⟨position + 1, by rw [List.singleton_append, decodeFrom_ascii (by omega), hc]⟩
  split
  · have hcode : (v / 64 % 32 + 192 - 0xC0) * 64 + (v % 64 + 128 - 0x80) = v := by omega
    refine ⟨position + 1 + 1, ?_⟩
    rw [List.cons_append, List.singleton_append,
      decodeFrom_lead (lead?_two (by omega) (by omega)) (by omega) (by omega),
      decodeFrom_last (by simp) (by simp; omega), started_two (by omega), hcode, hc]
  split
  · have hcode : ((v / 4096 % 16 + 224 - 0xE0) * 64 + (v / 64 % 64 + 128 - 0x80)) * 64 +
        (v % 64 + 128 - 0x80) = v := by omega
    refine ⟨position + 1 + 1 + 1, ?_⟩
    rw [List.cons_append, List.cons_append, List.singleton_append,
      decodeFrom_lead (lead?_three (by omega) (by omega)) (by omega) (by omega),
      decodeFrom_more (by split <;> simp; omega) (by split <;> simp <;> omega),
      decodeFrom_last (by simp) (by simp; omega), started_three (by omega), hcode, hc]
  · have hcode : (((v / 262144 % 8 + 240 - 0xF0) * 64 + (v / 4096 % 64 + 128 - 0x80)) * 64 +
        (v / 64 % 64 + 128 - 0x80)) * 64 + (v % 64 + 128 - 0x80) = v := by omega
    refine ⟨position + 1 + 1 + 1 + 1, ?_⟩
    rw [List.cons_append, List.cons_append, List.cons_append, List.singleton_append,
      decodeFrom_lead (lead?_four (by omega) (by omega)) (by omega) (by omega),
      decodeFrom_more (by split <;> simp; omega) (by split <;> simp <;> omega),
      decodeFrom_more (by simp) (by simp; omega),
      decodeFrom_last (by simp) (by simp; omega), started_four (by omega), hcode, hc]

/-! ## Whole texts -/

theorem decodeFrom_flatMap (cs : List Char) (position : Nat) :
    decodeFrom .ready position (cs.flatMap String.utf8EncodeChar) = .ok cs := by
  induction cs generalizing position with
  | nil => simp [decodeFrom]
  | cons c cs ih =>
    obtain ⟨next, hc⟩ :=
      decodeFrom_utf8EncodeChar c position (cs.flatMap String.utf8EncodeChar)
    rw [List.flatMap_cons, hc, ih]
    rfl

/-- A text that is encoded and decoded again is the same text. -/
theorem decode_encode (s : String) : decode (encode s) = .ok s := by
  rw [decode, encode_eq, decodeFrom_flatMap]
  exact congrArg Except.ok String.ofList_toList

/-! ## What can be decoded -/

section Inversion

variable {position : Nat} {byte : UInt8} {bytes rest seen : List UInt8} {cs : List Char}
  {code more : Nat} {low high : UInt8}

theorem decodeFrom_ready_cons (h : decodeFrom .ready position (byte :: rest) = .ok cs) :
    (byte.toNat < 0x80 ∧ ∃ tail, decodeFrom .ready (position + 1) rest = .ok tail ∧
      cs = Char.ofNat byte.toNat :: tail) ∨
    ∃ low high more, lead? byte = some (low, high, more) ∧
      decodeFrom (.inside [byte] (started byte more) low high more) (position + 1) rest =
        .ok cs := by
  rw [decodeFrom] at h
  split at h
  · next hlt =>
    obtain ⟨tail, htail, rfl⟩ := except_map_eq_ok_iff.1 h
    exact .inl ⟨UInt8.lt_iff_toNat_lt.1 hlt, tail, htail, rfl⟩
  · split at h
    · simp at h
    · next low high more hlead => exact .inr ⟨low, high, more, hlead, h⟩

theorem decodeFrom_inside_succ
    (h : decodeFrom (.inside seen code low high (more + 1)) position bytes = .ok cs) :
    ∃ byte rest, bytes = byte :: rest ∧ low.toNat ≤ byte.toNat ∧ byte.toNat ≤ high.toNat ∧
      decodeFrom (.inside (seen ++ [byte]) (continued code byte) 0x80 0xBF more) (position + 1)
        rest = .ok cs := by
  cases bytes with
  | nil => simp [decodeFrom] at h
  | cons byte rest =>
    rw [decodeFrom] at h
    split at h
    · next hrange => exact ⟨byte, rest, rfl, hrange.1, hrange.2, h⟩
    · simp at h

theorem decodeFrom_inside_zero
    (h : decodeFrom (.inside seen code low high 0) position bytes = .ok cs) :
    ∃ byte rest tail, bytes = byte :: rest ∧ low.toNat ≤ byte.toNat ∧ byte.toNat ≤ high.toNat ∧
      decodeFrom .ready (position + 1) rest = .ok tail ∧
      cs = Char.ofNat (continued code byte) :: tail := by
  cases bytes with
  | nil => simp [decodeFrom] at h
  | cons byte rest =>
    rw [decodeFrom] at h
    split at h
    · next hrange =>
      obtain ⟨tail, htail, rfl⟩ := except_map_eq_ok_iff.1 h
      exact ⟨byte, rest, tail, rfl, hrange.1, hrange.2, htail, rfl⟩
    · simp at h

end Inversion

/-- The first bytes of sequences, and what they say about the second byte. -/
theorem lead?_cases {byte low high : UInt8} {more : Nat} (h : lead? byte = some (low, high, more)) :
    0x80 ≤ low.toNat ∧ high.toNat ≤ 0xBF ∧
    ((0xC2 ≤ byte.toNat ∧ byte.toNat < 0xE0 ∧ more = 0) ∨
    (0xE0 ≤ byte.toNat ∧ byte.toNat < 0xF0 ∧ (byte.toNat = 0xE0 → 0xA0 ≤ low.toNat) ∧
      (byte.toNat = 0xED → high.toNat ≤ 0x9F) ∧ more = 1) ∨
    (0xF0 ≤ byte.toNat ∧ byte.toNat ≤ 0xF4 ∧ (byte.toNat = 0xF0 → 0x90 ≤ low.toNat) ∧
      (byte.toNat = 0xF4 → high.toNat ≤ 0x8F) ∧ more = 2)) := by
  have hbyte : UInt8.ofNat byte.toNat = byte := UInt8.ofNat_toNat
  have hlt := byte.toNat_lt
  rw [← hbyte] at h
  generalize byte.toNat = n at h hlt ⊢
  obtain hn | hn | hn | hn | hn : n < 0xC2 ∨ (0xC2 ≤ n ∧ n < 0xE0) ∨ (0xE0 ≤ n ∧ n < 0xF0) ∨
      (0xF0 ≤ n ∧ n ≤ 0xF4) ∨ 0xF4 < n := by omega
  · rw [lead?_low hn] at h
    exact absurd h (by simp)
  · rw [lead?_two hn.1 hn.2] at h
    cases h
    exact ⟨by decide, by decide, .inl ⟨hn.1, hn.2, rfl⟩⟩
  · rw [lead?_three hn.1 hn.2] at h
    cases h
    refine ⟨by split <;> decide, by split <;> decide, .inr (.inl ⟨hn.1, hn.2, ?_, ?_, rfl⟩)⟩
    · intro hfirst
      simp [hfirst]
    · intro hfirst
      simp [hfirst]
  · rw [lead?_four hn.1 hn.2] at h
    cases h
    refine ⟨by split <;> decide, by split <;> decide, .inr (.inr ⟨hn.1, hn.2, ?_, ?_, rfl⟩)⟩
    · intro hfirst
      simp [hfirst]
    · intro hfirst
      simp [hfirst]
  · rw [lead?_high hn hlt] at h
    exact absurd h (by simp)

section Characters

variable {a b c d : UInt8}

theorem val_ofNat (v : Nat) (h : v < 0xD800 ∨ 0xDFFF < v ∧ v < 0x110000) :
    (Char.ofNat v).val.toNat = v := by
  rw [Char.ofNat, dif_pos h]
  rfl

theorem ofNat_eq_of_eq (a : UInt8) {n : Nat} (h : n = a.toNat) : UInt8.ofNat n = a := by
  rw [h, UInt8.ofNat_toNat]

theorem utf8EncodeChar_one (ha : a.toNat < 0x80) :
    String.utf8EncodeChar (Char.ofNat a.toNat) = [a] := by
  have hv := val_ofNat a.toNat (by omega)
  rw [String.utf8EncodeChar.eq_1, hv, if_pos (by omega), UInt8.ofNat_toNat]

theorem utf8EncodeChar_two (ha : 0xC2 ≤ a.toNat ∧ a.toNat < 0xE0)
    (hb : 0x80 ≤ b.toNat ∧ b.toNat ≤ 0xBF) :
    String.utf8EncodeChar (Char.ofNat (continued (started a 0) b)) = [a, b] := by
  have hcode : continued (started a 0) b = (a.toNat - 0xC0) * 64 + (b.toNat - 0x80) := rfl
  have hv := val_ofNat (continued (started a 0) b) (by omega)
  rw [String.utf8EncodeChar.eq_1, hv, if_neg (by omega), if_pos (by omega),
    ofNat_eq_of_eq a (by omega), ofNat_eq_of_eq b (by omega)]

/-- The ranges of the second byte keep out what two bytes can spell, and the surrogates. -/
theorem utf8EncodeChar_three (ha : 0xE0 ≤ a.toNat ∧ a.toNat < 0xF0)
    (hb : 0x80 ≤ b.toNat ∧ b.toNat ≤ 0xBF) (hc : 0x80 ≤ c.toNat ∧ c.toNat ≤ 0xBF)
    (hshort : a.toNat = 0xE0 → 0xA0 ≤ b.toNat) (hsurrogate : a.toNat = 0xED → b.toNat ≤ 0x9F) :
    String.utf8EncodeChar (Char.ofNat (continued (continued (started a 1) b) c)) = [a, b, c] := by
  have hcode : continued (continued (started a 1) b) c =
      ((a.toNat - 0xE0) * 64 + (b.toNat - 0x80)) * 64 + (c.toNat - 0x80) := rfl
  have hv := val_ofNat (continued (continued (started a 1) b) c) (by omega)
  rw [String.utf8EncodeChar.eq_1, hv, if_neg (by omega), if_neg (by omega), if_pos (by omega),
    ofNat_eq_of_eq a (by omega), ofNat_eq_of_eq b (by omega), ofNat_eq_of_eq c (by omega)]

/-- The ranges of the second byte keep out what three bytes can spell, and what is above the last
    code point. -/
theorem utf8EncodeChar_four (ha : 0xF0 ≤ a.toNat ∧ a.toNat ≤ 0xF4)
    (hb : 0x80 ≤ b.toNat ∧ b.toNat ≤ 0xBF) (hc : 0x80 ≤ c.toNat ∧ c.toNat ≤ 0xBF)
    (hd : 0x80 ≤ d.toNat ∧ d.toNat ≤ 0xBF)
    (hshort : a.toNat = 0xF0 → 0x90 ≤ b.toNat) (hlast : a.toNat = 0xF4 → b.toNat ≤ 0x8F) :
    String.utf8EncodeChar (Char.ofNat (continued (continued (continued (started a 2) b) c) d)) =
      [a, b, c, d] := by
  have hcode : continued (continued (continued (started a 2) b) c) d =
      (((a.toNat - 0xF0) * 64 + (b.toNat - 0x80)) * 64 + (c.toNat - 0x80)) * 64 +
        (d.toNat - 0x80) := rfl
  have hv := val_ofNat (continued (continued (continued (started a 2) b) c) d) (by omega)
  rw [String.utf8EncodeChar.eq_1, hv, if_neg (by omega), if_neg (by omega), if_neg (by omega),
    ofNat_eq_of_eq a (by omega), ofNat_eq_of_eq b (by omega), ofNat_eq_of_eq c (by omega),
    ofNat_eq_of_eq d (by omega)]

end Characters

/-- What is decoded first is a character, and its bytes are cut off. -/
theorem exists_char_of_decodeFrom {position : Nat} {byte : UInt8} {rest : List UInt8}
    {cs : List Char} (h : decodeFrom .ready position (byte :: rest) = .ok cs) :
    ∃ c tail next more, cs = c :: tail ∧ byte :: rest = String.utf8EncodeChar c ++ more ∧
      decodeFrom .ready next more = .ok tail := by
  obtain ⟨ha, tail, htail, rfl⟩ | ⟨low, high, more, hlead, h⟩ := decodeFrom_ready_cons h
  · exact ⟨_, tail, _, rest, rfl, by rw [utf8EncodeChar_one ha]; rfl, htail⟩
  obtain ⟨hlow, hhigh, ⟨hstart, hend, rfl⟩ | ⟨hstart, hend, hshort, hmost, rfl⟩ |
    ⟨hstart, hend, hshort, hmost, rfl⟩⟩ := lead?_cases hlead
  · obtain ⟨b, rest, tail, rfl, hb, hb', htail, rfl⟩ := decodeFrom_inside_zero h
    refine ⟨_, tail, _, rest, rfl, ?_, htail⟩
    rw [utf8EncodeChar_two ⟨hstart, hend⟩ (by omega)]
    rfl
  · obtain ⟨b, rest, rfl, hb, hb', h⟩ := decodeFrom_inside_succ h
    obtain ⟨c, rest, tail, rfl, hc, hc', htail, rfl⟩ := decodeFrom_inside_zero h
    refine ⟨_, tail, _, rest, rfl, ?_, htail⟩
    rw [utf8EncodeChar_three ⟨hstart, hend⟩ (by omega) ⟨hc, hc'⟩ (by omega) (by omega)]
    rfl
  · obtain ⟨b, rest, rfl, hb, hb', h⟩ := decodeFrom_inside_succ h
    obtain ⟨c, rest, rfl, hc, hc', h⟩ := decodeFrom_inside_succ h
    obtain ⟨d, rest, tail, rfl, hd, hd', htail, rfl⟩ := decodeFrom_inside_zero h
    refine ⟨_, tail, _, rest, rfl, ?_, htail⟩
    rw [utf8EncodeChar_four ⟨hstart, hend⟩ (by omega) ⟨hc, hc'⟩ ⟨hd, hd'⟩ (by omega) (by omega)]
    rfl

/-- Bytes that are decoded are those of the characters. -/
theorem flatMap_of_decodeFrom {position : Nat} {bytes : List UInt8} {cs : List Char}
    (h : decodeFrom .ready position bytes = .ok cs) :
    bytes = cs.flatMap String.utf8EncodeChar := by
  induction cs generalizing position bytes with
  | nil =>
    cases bytes with
    | nil => rfl
    | cons byte rest =>
      obtain ⟨c, tail, next, more, hcs, -⟩ := exists_char_of_decodeFrom h
      exact absurd hcs (by simp)
  | cons c cs ih =>
    cases bytes with
    | nil => simp [decodeFrom] at h
    | cons byte rest =>
      obtain ⟨c', tail, next, more, hcs, hbytes, hmore⟩ := exists_char_of_decodeFrom h
      obtain ⟨rfl, rfl⟩ := List.cons.inj hcs
      rw [hbytes, List.flatMap_cons, ← ih hmore]

/-- Bytes are decoded to a text exactly when they are its encoding. -/
theorem decode_eq_ok_iff {bytes : List UInt8} {s : String} :
    decode bytes = .ok s ↔ bytes = encode s := by
  constructor
  · intro h
    obtain ⟨cs, hcs, rfl⟩ := except_map_eq_ok_iff.1 h
    rw [encode_eq, String.toList_ofList]
    exact flatMap_of_decodeFrom hcs
  · rintro rfl
    exact decode_encode s

end FeatureFile.Utf8
