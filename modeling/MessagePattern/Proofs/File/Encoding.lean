import MessagePattern.File.Text

/-!
# Texts in bytes

The bytes of a character are read as that character (`readHead_encodeChar`), and a part of them
is read as one that is broken off (`readHead_of_prefix`). So a text that was encoded is decoded
again, as a whole (`decode_encoded`) and in pieces, wherever these break off its characters
(`decodePieces_encoded`).
-/

namespace MessagePattern.Utf8

/-! ## One character -/

theorem toNat_ofNat_of_lt {n : Nat} (h : n < 256) : (UInt8.ofNat n).toNat = n := by
  rw [UInt8.toNat_ofNat']
  exact Nat.mod_eq_of_lt h

theorem ofByte?_eq {n : Nat} (h : n < 256) :
    Lead.ofByte? (UInt8.ofNat n) =
      if n ≤ 0x7F then some ⟨n, []⟩
      else if 0xC2 ≤ n ∧ n ≤ 0xDF then some ⟨n - 0xC0, [continuation]⟩
      else if n = 0xE0 then some ⟨0, [⟨0xA0, 0xBF⟩, continuation]⟩
      else if n = 0xED then some ⟨0xD, [⟨0x80, 0x9F⟩, continuation]⟩
      else if 0xE1 ≤ n ∧ n ≤ 0xEF then some ⟨n - 0xE0, [continuation, continuation]⟩
      else if n = 0xF0 then some ⟨0, [⟨0x90, 0xBF⟩, continuation, continuation]⟩
      else if 0xF1 ≤ n ∧ n ≤ 0xF3 then some ⟨n - 0xF0, [continuation, continuation, continuation]⟩
      else if n = 0xF4 then some ⟨4, [⟨0x80, 0x8F⟩, continuation, continuation]⟩
      else none := by
  rw [Lead.ofByte?, toNat_ofNat_of_lt h]

theorem readFollow_cons {n code width : Nat} {b : Bounds} (hbyte : n < 256)
    (hlow : b.low ≤ n) (hhigh : n ≤ b.high) (follow : List Bounds) (rest : List UInt8) :
    readFollow code width (b :: follow) (UInt8.ofNat n :: rest) =
      readFollow (64 * code + (n - 0x80)) (width + 1) follow rest := by
  rw [readFollow, if_pos]
  · rw [toNat_ofNat_of_lt hbyte]
  · rw [Bounds.holds, toNat_ofNat_of_lt hbyte]
    simp [hlow, hhigh]

theorem readFollow_continuation {n code width : Nat} (hlow : 0x80 ≤ n) (hhigh : n ≤ 0xBF)
    (follow : List Bounds) (rest : List UInt8) :
    readFollow code width (continuation :: follow) (UInt8.ofNat n :: rest) =
      readFollow (64 * code + (n - 0x80)) (width + 1) follow rest :=
  readFollow_cons (by omega) hlow hhigh follow rest

section Widths

variable {v : Nat} (rest : List UInt8)

theorem readHead_one (h : v ≤ 0x7F) :
    readHead (UInt8.ofNat v) rest = .char (Char.ofNat v) 1 := by
  rw [readHead, ofByte?_eq (by omega), if_pos h]
  rfl

theorem readHead_two (hlow : 0x80 ≤ v) (hhigh : v ≤ 0x7FF) :
    readHead (UInt8.ofNat (v / 64 % 32 + 192)) (UInt8.ofNat (v % 64 + 128) :: rest) =
      .char (Char.ofNat v) 2 := by
  have hcode : 64 * (v / 64 % 32 + 192 - 0xC0) + (v % 64 + 128 - 0x80) = v := by omega
  rw [readHead, ofByte?_eq (by omega), if_neg (by omega), if_pos (by omega)]
  simp only
  rw [readFollow_continuation (by omega) (by omega), hcode, readFollow]

/-- The lead byte of three is one of four sorts, two of which have narrower bounds. -/
theorem readHead_three (hlow : 0x800 ≤ v) (hhigh : v ≤ 0xFFFF)
    (hvalid : v < 0xD800 ∨ 0xDFFF < v) :
    readHead (UInt8.ofNat (v / 4096 % 16 + 224))
        (UInt8.ofNat (v / 64 % 64 + 128) :: UInt8.ofNat (v % 64 + 128) :: rest) =
      .char (Char.ofNat v) 3 := by
  have hcode : 64 * (64 * (v / 4096) + (v / 64 % 64 + 128 - 0x80)) + (v % 64 + 128 - 0x80) = v := by
    omega
  have hend : ∀ {b : Bounds}, b.low ≤ v / 64 % 64 + 128 → v / 64 % 64 + 128 ≤ b.high →
      readFollow (v / 4096) 1 [b, continuation]
        (UInt8.ofNat (v / 64 % 64 + 128) :: UInt8.ofNat (v % 64 + 128) :: rest) =
          .char (Char.ofNat v) 3 := by
    intro b hblow hbhigh
    rw [readFollow_cons (by omega) hblow hbhigh, readFollow_continuation (by omega) (by omega),
      hcode, readFollow]
  rw [readHead, ofByte?_eq (by omega), if_neg (by omega), if_neg (by omega)]
  by_cases hfirst : v / 4096 = 0
  · rw [if_pos (by omega)]
    simp only [← hfirst]
    exact hend (by show 0xA0 ≤ _; omega) (by show _ ≤ 0xBF; omega)
  · rw [if_neg (by omega)]
    by_cases hsurrogate : v / 4096 = 0xD
    · rw [if_pos (by omega)]
      simp only [← hsurrogate]
      exact hend (by show 0x80 ≤ _; omega) (by show _ ≤ 0x9F; omega)
    · have hshare : v / 4096 % 16 + 224 - 0xE0 = v / 4096 := by omega
      rw [if_neg (by omega), if_pos (by omega), hshare]
      exact hend (by show 0x80 ≤ _; omega) (by show _ ≤ 0xBF; omega)

/-- The lead byte of four is one of three sorts, two of which have narrower bounds. -/
theorem readHead_four (hlow : 0x10000 ≤ v) (hhigh : v < 0x110000) :
    readHead (UInt8.ofNat (v / 262144 % 8 + 240))
        (UInt8.ofNat (v / 4096 % 64 + 128) :: UInt8.ofNat (v / 64 % 64 + 128) ::
          UInt8.ofNat (v % 64 + 128) :: rest) =
      .char (Char.ofNat v) 4 := by
  have hcode : 64 * (64 * (64 * (v / 262144) + (v / 4096 % 64 + 128 - 0x80)) +
      (v / 64 % 64 + 128 - 0x80)) + (v % 64 + 128 - 0x80) = v := by
    omega
  have hend : ∀ {b : Bounds}, b.low ≤ v / 4096 % 64 + 128 → v / 4096 % 64 + 128 ≤ b.high →
      readFollow (v / 262144) 1 [b, continuation, continuation]
        (UInt8.ofNat (v / 4096 % 64 + 128) :: UInt8.ofNat (v / 64 % 64 + 128) ::
          UInt8.ofNat (v % 64 + 128) :: rest) = .char (Char.ofNat v) 4 := by
    intro b hblow hbhigh
    rw [readFollow_cons (by omega) hblow hbhigh, readFollow_continuation (by omega) (by omega),
      readFollow_continuation (by omega) (by omega), hcode, readFollow]
  rw [readHead, ofByte?_eq (by omega), if_neg (by omega), if_neg (by omega), if_neg (by omega),
    if_neg (by omega), if_neg (by omega)]
  by_cases hfirst : v / 262144 = 0
  · rw [if_pos (by omega)]
    simp only [← hfirst]
    exact hend (by show 0x90 ≤ _; omega) (by show _ ≤ 0xBF; omega)
  · rw [if_neg (by omega)]
    by_cases hlast : v / 262144 = 4
    · rw [if_neg (by omega), if_pos (by omega)]
      have hread := hend (b := ⟨0x80, 0x8F⟩) (by show 0x80 ≤ _; omega) (by show _ ≤ 0x8F; omega)
      rw [hlast] at hread
      exact hread
    · have hshare : v / 262144 % 8 + 240 - 0xF0 = v / 262144 := by omega
      rw [if_pos (by omega), hshare]
      exact hend (by show 0x80 ≤ _; omega) (by show _ ≤ 0xBF; omega)

end Widths

/-- The bytes of a character are read as the character, whatever follows. -/
theorem readHead_encodeChar (c : Char) :
    ∃ byte more, String.utf8EncodeChar c = byte :: more ∧
      ∀ rest, readHead byte (more ++ rest) = .char c (more.length + 1) := by
  have hvalid : c.val.toNat < 0xD800 ∨ 0xDFFF < c.val.toNat ∧ c.val.toNat < 0x110000 := c.valid
  have hc : Char.ofNat c.val.toNat = c := Char.ofNat_toNat c
  unfold String.utf8EncodeChar
  simp only
  split
  · rename_i hone
    refine ⟨_, _, rfl, fun rest => ?_⟩
    rw [List.nil_append, readHead_one rest hone, hc]
    rfl
  · split
    · rename_i hone htwo
      refine ⟨_, _, rfl, fun rest => ?_⟩
      exact (readHead_two rest (by omega) htwo).trans (by rw [hc]; rfl)
    · split
      · rename_i hone htwo hthree
        refine ⟨_, _, rfl, fun rest => ?_⟩
        exact (readHead_three rest (by omega) hthree (by omega)).trans (by rw [hc]; rfl)
      · rename_i hone htwo hthree
        refine ⟨_, _, rfl, fun rest => ?_⟩
        exact (readHead_four rest (by omega) (by omega)).trans (by rw [hc]; rfl)

/-! ## Characters that are broken off -/

/-- If more bytes are read than there are, the character is broken off. -/
theorem readFollow_of_prefix {code width w : Nat} {follow : List Bounds} {bytes rest : List UInt8}
    {c : Char} (h : readFollow code width follow (bytes ++ rest) = .char c w)
    (hwidth : width + bytes.length < w) : readFollow code width follow bytes = .broken := by
  induction follow generalizing code width bytes with
  | nil =>
      cases h
      omega
  | cons b follow ih =>
      cases bytes with
      | nil => rfl
      | cons byte bytes =>
          rw [List.length_cons] at hwidth
          rw [List.cons_append, readFollow] at h
          rw [readFollow]
          split at h
          · rename_i hbyte
            rw [if_pos hbyte]
            exact ih h (by omega)
          · cases h

theorem readHead_of_prefix {byte : UInt8} {bytes rest : List UInt8} {c : Char} {w : Nat}
    (h : readHead byte (bytes ++ rest) = .char c w) (hwidth : bytes.length + 1 < w) :
    readHead byte bytes = .broken := by
  unfold readHead at h ⊢
  cases hlead : Lead.ofByte? byte with
  | none =>
      rw [hlead] at h
      cases h
  | some lead =>
      rw [hlead] at h
      exact readFollow_of_prefix h (by omega)

/-! ## Runs -/

/-- The bytes of some characters. -/
def encodeChars (cs : List Char) : List UInt8 :=
  cs.flatMap String.utf8EncodeChar

/-- Bytes are listed from some place on behind those that were listed before. -/
theorem toList_loop (bytes : ByteArray) (place : Nat) (listed : List UInt8) :
    ByteArray.toList.loop bytes place listed = listed.reverse ++ bytes.data.toList.drop place := by
  induction place, listed using ByteArray.toList.loop.induct bytes with
  | case1 place listed hlt ih =>
      have hplace : place < bytes.data.toList.length := hlt
      have hbyte : bytes.get! place = bytes.data.toList[place] := by
        show bytes.data[place]! = _
        rw [getElem!_pos bytes.data place hlt]
        rfl
      rw [ByteArray.toList.loop, if_pos hlt, ih, List.reverse_cons, List.append_assoc,
        List.drop_eq_getElem_cons hplace, hbyte]
      rfl
  | case2 place listed hge =>
      have hplace : bytes.data.toList.length ≤ place := Nat.le_of_not_lt hge
      rw [ByteArray.toList.loop, if_neg hge, List.drop_eq_nil_of_le hplace, List.append_nil]

theorem encode_eq (text : String) : encode text = encodeChars text.toList := by
  have hbytes : text.toUTF8 = (encodeChars text.toList).toByteArray := by
    conv => lhs; rw [← String.ofList_toList (s := text)]
    exact String.toByteArray_ofList
  rw [encode, hbytes, ByteArray.toList, toList_loop, List.toList_data_toByteArray]
  rfl

theorem decode_of_char {last : Bool} {position width : Nat} {byte : UInt8} {rest : List UInt8}
    {c : Char} (h : readHead byte rest = .char c width) :
    decode last position (byte :: rest) =
      { decode last (position + width) (rest.drop (width - 1)) with
        chars := c :: (decode last (position + width) (rest.drop (width - 1))).chars } := by
  rw [decode]
  split
  · rename_i c' width' h'
    rw [h] at h'
    cases h'
    rfl
  · rename_i h'
    rw [h] at h'
    cases h'
  · rename_i h'
    rw [h] at h'
    cases h'

/-- A character that is broken off waits, unless the run ends with it. -/
theorem decode_of_broken {position : Nat} {byte : UInt8} {rest : List UInt8}
    (h : readHead byte rest = .broken) :
    decode false position (byte :: rest) = ⟨[], byte :: rest, none⟩ := by
  rw [decode]
  split
  · rename_i h'
    rw [h] at h'
    cases h'
  · rfl
  · rename_i h'
    rw [h] at h'
    cases h'

theorem decode_encodeChar_append (last : Bool) (position : Nat) (c : Char) (rest : List UInt8) :
    ∃ position', decode last position (String.utf8EncodeChar c ++ rest) =
      { decode last position' rest with chars := c :: (decode last position' rest).chars } := by
  obtain ⟨byte, more, hbytes, hread⟩ := readHead_encodeChar c
  refine ⟨position + (more.length + 1), ?_⟩
  rw [hbytes, List.cons_append, decode_of_char (hread rest), Nat.add_sub_cancel, List.drop_left]

/-- A whole run is decoded to the characters that it was made of. -/
theorem decode_encoded (position : Nat) (cs : List Char) :
    decode true position (encodeChars cs) = ⟨cs, [], none⟩ := by
  induction cs generalizing position with
  | nil =>
      show decode true position [] = _
      rw [decode]
  | cons c cs ih =>
      obtain ⟨position', hdecode⟩ := decode_encodeChar_append true position c (encodeChars cs)
      rw [ih position'] at hdecode
      exact hdecode

/-! ## Pieces -/

/-- The start of a run is decoded to the characters that are in it as a whole; those that it breaks
off wait, and with what follows are the bytes of the other characters. -/
theorem decode_of_prefix (position : Nat) {cs : List Char} {start rest : List UInt8}
    (h : start ++ rest = encodeChars cs) :
    ∃ done todo waiting, decode false position start = ⟨done, waiting, none⟩ ∧
      cs = done ++ todo ∧ waiting ++ rest = encodeChars todo := by
  induction cs generalizing position start with
  | nil =>
      obtain ⟨rfl, rfl⟩ := List.append_eq_nil_iff.mp h
      exact ⟨[], [], [], by rw [decode], rfl, rfl⟩
  | cons c cs ih =>
      obtain ⟨byte, more, hbytes, hread⟩ := readHead_encodeChar c
      have hcons : encodeChars (c :: cs) = String.utf8EncodeChar c ++ encodeChars cs := rfl
      rw [hcons] at h
      rcases List.append_eq_append_iff.mp h with ⟨missing, hchar, hrest⟩ | ⟨behind, hstart, hcs⟩
      · -- The start is no longer than the bytes of the first character.
        cases start with
        | nil => exact ⟨[], c :: cs, [], by rw [decode], rfl, h⟩
        | cons first start =>
            cases missing with
            | nil =>
                obtain ⟨position', hdecode⟩ := decode_encodeChar_append false position c []
                rw [List.append_nil] at hchar hdecode
                rw [← hchar, hdecode]
                exact ⟨[c], cs, [], by rw [decode], rfl, hrest⟩
            | cons next missing =>
                rw [hbytes, List.cons_append] at hchar
                obtain ⟨rfl, hmore⟩ := List.cons.inj hchar
                have hbroken : readHead byte start = .broken := by
                  refine readHead_of_prefix (hmore ▸ List.append_nil more ▸ hread []) ?_
                  simp only [List.length_append, List.length_cons]
                  omega
                exact ⟨[], c :: cs, _, decode_of_broken hbroken, rfl, h⟩
      · obtain ⟨position', hdecode⟩ := decode_encodeChar_append false position c behind
        obtain ⟨done, todo, waiting, hbehind, rfl, hwaiting⟩ := ih position' hcs.symm
        rw [hbehind] at hdecode
        exact ⟨c :: done, todo, waiting, by rw [hstart, hdecode], rfl, hwaiting⟩

/-- A run is decoded to the characters that it was made of, whatever its pieces are. -/
theorem decodePieces_encoded {waiting : List UInt8} {pieces : List (List UInt8)} {cs : List Char}
    (h : waiting ++ pieces.flatten = encodeChars cs) :
    decodePieces waiting pieces = (cs, none) := by
  induction pieces generalizing waiting cs with
  | nil =>
      rw [List.flatten_nil, List.append_nil] at h
      rw [decodePieces, h, decode_encoded]
  | cons piece pieces ih =>
      rw [List.flatten_cons, ← List.append_assoc] at h
      obtain ⟨done, todo, waiting', hdecode, rfl, hwaiting⟩ := decode_of_prefix 0 h
      rw [decodePieces, hdecode]
      simp only [ih hwaiting]

end MessagePattern.Utf8

namespace MessagePattern.File

open Utf8 (encodeChars)

theorem flatten_pieces (bytes : List UInt8) : (pieces bytes).flatten = bytes := by
  induction bytes using pieces.induct with
  | case1 => rw [pieces, if_pos rfl, List.flatten_nil]
  | case2 bytes hne ih => rw [pieces, if_neg hne, List.flatten_cons, ih, List.take_append_drop]

/-- A text that was written is read again, with its line ends made alike. -/
theorem readText_encode (text : String) :
    readText (Utf8.encode text) = .ok (unifyLineEnds text.toList) := by
  rw [readText, Utf8.encode_eq, Utf8.decode_encoded]

/-- The lines of a text: those that end in a line feed, and what is left if that is not empty. -/
def linesOf (cs : List Char) : List (List Char) :=
  (splitLines cs).1 ++ if (splitLines cs).2.isEmpty then [] else [(splitLines cs).2]

theorem readLines_encode (text : String) :
    readLines (Utf8.encode text) = ⟨linesOf (unifyLineEnds text.toList), none⟩ := by
  have hdecode : Utf8.decodePieces [] (pieces (Utf8.encode text)) = (text.toList, none) := by
    apply Utf8.decodePieces_encoded
    rw [List.nil_append, flatten_pieces, Utf8.encode_eq]
  rw [readLines, hdecode, linesOf]
  simp only
  split <;> simp_all

end MessagePattern.File
