import LivePreview.Text.Percent

namespace LivePreview.Text.Percent

def isCode (c : Char) : Bool :=
  c.isAlphanum || ['-', '_', '.', '~', '%'].contains c

section Bytes

variable {byte : UInt8} {n : Nat} {rest : List Char}

theorem hexValue?_hexDigit : ∀ n < 16, hexValue? (hexDigit n) = some n := by
  decide

theorem isCode_hexDigit : ∀ n < 16, isCode (hexDigit n) := by
  decide

theorem escaped?_escape (byte : UInt8) (rest : List Char) :
    escaped? ((escape byte).drop 1 ++ rest) = some byte := by
  have hbyte := byte.toNat_lt
  have hhigh := hexValue?_hexDigit (byte.toNat / 16) (by omega)
  have hlow := hexValue?_hexDigit (byte.toNat % 16) (by omega)
  simp only [escape, List.drop_succ_cons, List.drop_zero, List.cons_append, escaped?, hhigh, hlow,
    Option.pure_def, Option.bind_eq_bind, Option.bind_some, Nat.div_add_mod, UInt8.ofNat_toNat]

theorem decodeBytes_escape (byte : UInt8) (rest : List Char) :
    decodeBytes (escape byte ++ rest) = byte :: decodeBytes rest := by
  have hescape : escape byte ++ rest = '%' :: ((escape byte).drop 1 ++ rest) := rfl
  rw [hescape, decodeBytes, escaped?_escape]
  rfl

theorem bytes_singleton_of_lt (h : n < 128) :
    bytes (.singleton (.ofNat n)) = [.ofNat n] := by
  have hvalid : n.isValidChar := .inl (by omega)
  have hchar : (Char.ofNat n).val.toNat = n := by
    rw [Char.ofNat, dif_pos hvalid]
    rfl
  have hcode : String.utf8EncodeChar (.ofNat n) = [.ofNat n] := by
    rw [String.utf8EncodeChar, hchar]
    exact if_pos (by omega)
  rw [bytes, String.toUTF8_eq_toByteArray, String.toByteArray_singleton,
    List.utf8Encode_singleton, List.toList_data_toByteArray, hcode]

theorem lt_of_isPlain (h : isPlain byte) : byte.toNat < 128 := by
  simp only [isPlain, Bool.and_eq_true, decide_eq_true_eq] at h
  exact h.1

theorem isCode_of_isPlain (h : isPlain byte) : isCode (.ofNat byte.toNat) := by
  simp only [isPlain, Bool.and_eq_true] at h
  simpa [isCode, or_assoc] using Or.inl h.2

theorem decodeBytes_plain (h : isPlain byte) :
    decodeBytes (.ofNat byte.toNat :: rest) = byte :: decodeBytes rest := by
  have hpercent : Char.ofNat byte.toNat ≠ '%' := fun heq => by
    rw [isPlain, heq] at h
    simp at h
  rw [decodeBytes, bytes_singleton_of_lt (lt_of_isPlain h), UInt8.ofNat_toNat]
  · rfl
  · exact hpercent

theorem decodeBytes_encodeByte (byte : UInt8) (rest : List Char) :
    decodeBytes (encodeByte byte ++ rest) = byte :: decodeBytes rest := by
  rw [encodeByte]
  split
  case isTrue hplain => exact decodeBytes_plain hplain
  case isFalse => exact decodeBytes_escape byte rest

theorem decodeBytes_encoded (written : List UInt8) :
    decodeBytes (written.flatMap encodeByte) = written := by
  induction written with
  | nil => rw [List.flatMap_nil, decodeBytes]
  | cons byte written ih => rw [List.flatMap_cons, decodeBytes_encodeByte, ih]

theorem isCode_of_mem_encodeByte {c : Char} (h : c ∈ encodeByte byte) : isCode c := by
  have hbyte := byte.toNat_lt
  rw [encodeByte] at h
  split at h
  case isTrue hplain =>
    obtain rfl := List.mem_singleton.1 h
    exact isCode_of_isPlain hplain
  case isFalse =>
    simp only [escape, List.mem_cons, List.not_mem_nil, or_false] at h
    rcases h with rfl | rfl | rfl
    · rfl
    · exact isCode_hexDigit _ (by omega)
    · exact isCode_hexDigit _ (by omega)

end Bytes

theorem decode?_encode (text : String) : decode? (encode text) = some text := by
  rw [decode?, encode, String.toList_ofList, decodeBytes_encoded]
  exact dif_pos text.isValidUTF8

theorem isCode_of_mem_encode {text : String} {c : Char} (h : c ∈ (encode text).toList) :
    isCode c := by
  rw [encode, String.toList_ofList] at h
  obtain ⟨byte, -, hbyte⟩ := List.mem_flatMap.1 h
  exact isCode_of_mem_encodeByte hbyte

end LivePreview.Text.Percent
