import RobotConsole.Form.Encoding

/-!
# Reading back a form body

A byte is written by characters that read back as that byte alone, whatever follows them; so a key
or a value reads back as its UTF-8 form, and that as the text it came from.  None of the characters
that bytes are written with is `&` or `=`, so a body falls apart again exactly where its pairs were
joined, and a piece at the sign between key and value.  Forms with one body therefore have the same
pairs, and a body is made of plain ASCII characters only.
-/

set_option autoImplicit false

namespace RobotConsole.Form

/-! ## Single bytes -/

def isWrittenChar (c : Char) : Bool :=
  c.isAlphanum || c == '*' || c == '-' || c == '.' || c == '_' || c == '+' || c == '%'

theorem upperHexDigit_reads_back : ∀ value < 16,
    Text.isHexDigit (upperHexDigit value) = true ∧ Text.hexValue (upperHexDigit value) = value := by
  decide

theorem upperHexDigit_isWrittenChar : ∀ value < 16, isWrittenChar (upperHexDigit value) = true := by
  decide

theorem isWrittenChar_of_plain (byte : UInt8) (plain : isPlainByte byte = true) :
    isWrittenChar (Char.ofNat byte.toNat) = true := by
  simp only [isPlainByte, Bool.and_eq_true] at plain
  simp only [isWrittenChar, plain.2, Bool.true_or]

theorem isWrittenChar_of_mem_encodeByte (byte : UInt8) (c : Char) (member : c ∈ encodeByte byte) :
    isWrittenChar c = true := by
  have bound : byte.toNat < 256 := byte.toNat_lt
  unfold encodeByte at member
  split at member
  · rename_i plain
    rw [List.mem_singleton.mp member]
    exact isWrittenChar_of_plain byte plain
  · split at member
    · rw [List.mem_singleton.mp member]
      decide
    · simp only [List.mem_cons, List.not_mem_nil, or_false] at member
      rcases member with rfl | rfl | rfl
      · decide
      · exact upperHexDigit_isWrittenChar _ (by omega)
      · exact upperHexDigit_isWrittenChar _ (by omega)

theorem toNat_ofNat_of_ascii (value : Nat) (ascii : value < 128) :
    (Char.ofNat value).val.toNat = value := by
  have valid : value.isValidChar := Or.inl (by omega)
  rw [Char.ofNat, dif_pos valid]
  rfl

theorem utf8EncodeChar_of_plain (byte : UInt8) (plain : isPlainByte byte = true) :
    String.utf8EncodeChar (Char.ofNat byte.toNat) = [byte] := by
  have ascii : byte.toNat < 128 := by
    simp only [isPlainByte, Bool.and_eq_true, decide_eq_true_eq] at plain
    exact UInt8.lt_iff_toNat_lt.mp plain.1
  have value := toNat_ofNat_of_ascii byte.toNat ascii
  have small : byte.toNat ≤ 127 := by omega
  simp [String.utf8EncodeChar, value, small]

/-! ## Reading bytes back -/

theorem decodeBytes_cons_of_bare (c : Char) (rest : List Char) (notPercent : c ≠ '%')
    (notPlus : c ≠ '+') :
    decodeBytes (c :: rest) = String.utf8EncodeChar c ++ decodeBytes rest := by
  rw [decodeBytes]
  · rw [if_neg notPlus]
  · intro high low after percent
    exact absurd percent notPercent

theorem decodeBytes_plus (rest : List Char) :
    decodeBytes ('+' :: rest) = 0x20 :: decodeBytes rest := by
  rw [decodeBytes]
  · rw [if_pos rfl]
  · intro high low after percent
    exact absurd percent (by decide)

theorem decodeBytes_percent (high low : Char) (rest : List Char)
    (highHex : Text.isHexDigit high = true) (lowHex : Text.isHexDigit low = true) :
    decodeBytes ('%' :: high :: low :: rest) =
      UInt8.ofNat (16 * Text.hexValue high + Text.hexValue low) :: decodeBytes rest := by
  rw [decodeBytes, highHex, lowHex, Bool.and_self, if_pos rfl]

/-- A written byte reads back as that byte, whatever follows it. -/
theorem decodeBytes_encodeByte (byte : UInt8) (rest : List Char) :
    decodeBytes (encodeByte byte ++ rest) = byte :: decodeBytes rest := by
  have bound : byte.toNat < 256 := byte.toNat_lt
  unfold encodeByte
  split
  · rename_i plain
    have notPercent : Char.ofNat byte.toNat ≠ '%' := by
      intro percent
      rw [isPlainByte, percent] at plain
      simp at plain
    have notPlus : Char.ofNat byte.toNat ≠ '+' := by
      intro plus
      rw [isPlainByte, plus] at plain
      simp at plain
    rw [List.singleton_append, decodeBytes_cons_of_bare _ _ notPercent notPlus,
      utf8EncodeChar_of_plain byte plain, List.singleton_append]
  · split
    · rename_i space
      rw [List.singleton_append, decodeBytes_plus, space]
    · obtain ⟨highHex, highValue⟩ := upperHexDigit_reads_back (byte.toNat / 16) (by omega)
      obtain ⟨lowHex, lowValue⟩ := upperHexDigit_reads_back (byte.toNat % 16) (by omega)
      have whole : 16 * (byte.toNat / 16) + byte.toNat % 16 = byte.toNat := by omega
      simp only [List.cons_append, List.nil_append]
      rw [decodeBytes_percent _ _ rest highHex lowHex, highValue, lowValue, whole,
        UInt8.ofNat_toNat]

theorem decodeBytes_encodeBytes (bytes : List UInt8) (rest : List Char) :
    decodeBytes (bytes.flatMap encodeByte ++ rest) = bytes ++ decodeBytes rest := by
  induction bytes with
  | nil => rfl
  | cons byte bytes ih =>
      rw [List.flatMap_cons, List.append_assoc, decodeBytes_encodeByte, ih, List.cons_append]

theorem encodeChars_eq_flatMap (cs : List Char) :
    encodeChars cs = (cs.flatMap String.utf8EncodeChar).flatMap encodeByte := by
  rw [encodeChars, List.flatMap_assoc]

theorem fromUTF8?_toByteArray (text : String) : String.fromUTF8? text.toByteArray = some text := by
  rw [String.fromUTF8?, dif_pos text.isValidUTF8]
  rfl

/-- A written key or value reads back as the text it came from. -/
theorem decodeText?_encodeChars (text : String) :
    decodeText? (encodeChars text.toList) = some text := by
  have bytes : decodeBytes (encodeChars text.toList) =
      text.toList.flatMap String.utf8EncodeChar := by
    have read := decodeBytes_encodeBytes (text.toList.flatMap String.utf8EncodeChar) []
    rw [List.append_nil, show decodeBytes [] = [] from rfl, List.append_nil] at read
    rw [encodeChars_eq_flatMap, read]
  have encoded : (text.toList.flatMap String.utf8EncodeChar).toByteArray = text.toByteArray :=
    String.utf8Encode_toList
  rw [decodeText?, bytes, encoded, fromUTF8?_toByteArray]

/-! ## Pieces and bodies -/

theorem isWrittenChar_of_mem_encodeChars (cs : List Char) (c : Char) (member : c ∈ encodeChars cs) :
    isWrittenChar c = true := by
  rw [encodeChars_eq_flatMap] at member
  obtain ⟨byte, -, written⟩ := List.mem_flatMap.mp member
  exact isWrittenChar_of_mem_encodeByte byte c written

theorem equals_not_mem_encodeChars (cs : List Char) : '=' ∉ encodeChars cs := by
  intro member
  have written := isWrittenChar_of_mem_encodeChars cs '=' member
  exact absurd written (by decide)

theorem mem_encodePair (pair : String × String) (c : Char) (member : c ∈ encodePair pair) :
    isWrittenChar c = true ∨ c = '=' := by
  rcases List.mem_append.mp member with key | value
  · exact Or.inl (isWrittenChar_of_mem_encodeChars _ c key)
  · rcases List.mem_cons.mp value with equals | value
    · exact Or.inr equals
    · exact Or.inl (isWrittenChar_of_mem_encodeChars _ c value)

theorem ampersand_not_mem_encodePair (pair : String × String) : '&' ∉ encodePair pair := by
  intro member
  rcases mem_encodePair pair '&' member with written | equals
  · exact absurd written (by decide)
  · exact absurd equals (by decide)

theorem encodePair_ne_nil (pair : String × String) : encodePair pair ≠ [] := by
  simp [encodePair]

/-- A piece of a body is cut at the sign that was put between key and value. -/
theorem decodePiece?_encodePair (pair : String × String) :
    decodePiece? (encodePair pair) = some pair := by
  obtain ⟨key, value⟩ := pair
  have keyBare : ∀ c ∈ encodeChars key.toList, (c != '=') = true := by
    intro c member
    apply bne_iff_ne.mpr
    intro equals
    exact equals_not_mem_encodeChars key.toList (equals ▸ member)
  have front : (encodePair (key, value)).takeWhile (· != '=') = encodeChars key.toList := by
    rw [encodePair, List.takeWhile_append_of_pos keyBare, List.takeWhile_cons_of_neg (by simp),
      List.append_nil]
  have back : ((encodePair (key, value)).dropWhile (· != '=')).drop 1 =
      encodeChars value.toList := by
    rw [encodePair, List.dropWhile_append_of_pos keyBare, List.dropWhile_cons_of_neg (by simp),
      List.drop_one, List.tail_cons]
  simp only [decodePiece?, front, back, decodeText?_encodeChars]

theorem splitOn_encodePairs (pair : String × String) (rest : List (String × String)) :
    (encodePair pair ++ encodeRest rest).splitOn '&' = encodePair pair :: rest.map encodePair := by
  induction rest generalizing pair with
  | nil =>
      rw [encodeRest, List.append_nil,
        List.splitOn_eq_singleton (ampersand_not_mem_encodePair pair), List.map_nil]
  | cons next rest ih =>
      rw [encodeRest, List.cons_append,
        List.splitOn_append_cons_self_of_not_mem (ampersand_not_mem_encodePair pair),
        ih next, List.map_cons]

/-- The pieces of a body are the written pairs, one for one. -/
theorem pieces_encodePairs (pairs : List (String × String)) :
    ((encodePairs pairs).splitOn '&').filter (fun piece => !piece.isEmpty) =
      pairs.map encodePair := by
  cases pairs with
  | nil => rfl
  | cons pair rest =>
      rw [encodePairs, splitOn_encodePairs, ← List.map_cons, List.filter_eq_self]
      intro piece member
      obtain ⟨source, -, rfl⟩ := List.mem_map.mp member
      simp [encodePair_ne_nil]

theorem mapM_decodePiece?_map_encodePair (pairs : List (String × String)) :
    (pairs.map encodePair).mapM decodePiece? = some pairs := by
  induction pairs with
  | nil => rfl
  | cons pair rest ih =>
      rw [List.map_cons, List.mapM_cons, decodePiece?_encodePair, ih]
      rfl

/-- A body carries exactly the pairs of the form that it was made from. -/
theorem decode?_encode (form : Form) : decode? form.encode = some form.pairs := by
  rw [decode?, encode, String.toList_ofList, pieces_encodePairs, mapM_decodePiece?_map_encodePair]

/-! ## The characters of a body -/

theorem mem_encodeRest (pairs : List (String × String)) (c : Char) (member : c ∈ encodeRest pairs) :
    isWrittenChar c = true ∨ c = '=' ∨ c = '&' := by
  induction pairs with
  | nil => cases member
  | cons pair rest ih =>
      rcases List.mem_cons.mp member with ampersand | member
      · exact Or.inr (Or.inr ampersand)
      · rcases List.mem_append.mp member with own | later
        · exact (mem_encodePair pair c own).imp_right Or.inl
        · exact ih later

theorem mem_encodePairs (pairs : List (String × String)) (c : Char)
    (member : c ∈ encodePairs pairs) :
    isWrittenChar c = true ∨ c = '=' ∨ c = '&' := by
  cases pairs with
  | nil => cases member
  | cons pair rest =>
      rcases List.mem_append.mp member with own | later
      · exact (mem_encodePair pair c own).imp_right Or.inl
      · exact mem_encodeRest rest c later

/-- Whatever keys and values a form has: its body reads back as its pairs in their order, has no
other characters than ASCII letters, digits and a few signs, and is the body of no form with other
pairs. -/
theorem body_reads_back (form : Form) :
    decode? form.encode = some form.pairs ∧
    (∀ c ∈ form.encode.toList, c.isAlphanum = true ∨ c ∈ ['*', '-', '.', '_', '+', '%', '=', '&']) ∧
    ∀ other : Form, other.encode = form.encode → other.pairs = form.pairs := by
  refine ⟨decode?_encode form, ?_, ?_⟩
  · intro c member
    rw [encode, String.toList_ofList] at member
    have written := mem_encodePairs form.pairs c member
    simpa only [isWrittenChar, Bool.or_eq_true, beq_iff_eq, or_assoc, List.mem_cons,
      List.not_mem_nil, or_false] using written
  · intro other same
    have read := decode?_encode other
    rw [same, decode?_encode form] at read
    exact (Option.some.inj read).symm

/-! Keys and values that are empty or hold the signs of the encoding, and two ways to hold the same
pairs. -/

def unusual : Form :=
  ⟨[("a&b=c", ["", "+ %41", "é😀\x00"]), ("", ["=", "&"]), ("nothing", [])]⟩

def unusualApart : Form :=
  ⟨[("a&b=c", [""]), ("a&b=c", ["+ %41", "é😀\x00"]), ("", ["="]), ("", ["&"])]⟩

theorem body_reads_back_unusual :
    decode? unusual.encode =
      some [("a&b=c", ""), ("a&b=c", "+ %41"), ("a&b=c", "é😀\x00"), ("", "="), ("", "&")] ∧
    ('%'.isAlphanum = true ∨ '%' ∈ ['*', '-', '.', '_', '+', '%', '=', '&']) ∧
    unusualApart.pairs = unusual.pairs := by
  obtain ⟨read, plain, alone⟩ := body_reads_back unusual
  exact ⟨read, plain '%' (by decide +kernel), alone unusualApart (by decide +kernel)⟩

end RobotConsole.Form
