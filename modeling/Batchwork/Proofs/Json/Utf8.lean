import Batchwork.Json.Cursor

/-!
# Bytes of characters

What the scanners of JSON texts need to know of UTF-8: a byte below 128 stands for itself alone, no
encoding begins inside another one, and none is the beginning of another one.
-/

namespace Batchwork.Json

theorem ofNat_ne_ofNat {n m : Nat} (ascii : n < 128) (bound : m < 256) (other : m ≠ n) :
    UInt8.ofNat m ≠ UInt8.ofNat n := by
  intro same
  have eq := congrArg UInt8.toNat same
  rw [UInt8.toNat_ofNat_of_lt' bound,
    UInt8.toNat_ofNat_of_lt' (Nat.lt_trans ascii (by decide))] at eq
  exact other eq

/-- The byte of an ASCII character is in no encoding but its own. -/
theorem ne_of_mem_utf8EncodeChar {c : Char} {byte : UInt8}
    (member : byte ∈ String.utf8EncodeChar c) {n : Nat} (ascii : n < 128) (other : c.toNat ≠ n) :
    byte ≠ UInt8.ofNat n := by
  have other : c.val.toNat ≠ n := other
  simp only [String.utf8EncodeChar] at member
  split at member
  · cases List.mem_singleton.mp member
    exact ofNat_ne_ofNat ascii (by omega) other
  · -- The bytes of a longer encoding are 128 and above.
    split at member
    · simp only [List.mem_cons, List.not_mem_nil, or_false] at member
      rcases member with rfl | rfl <;> exact ofNat_ne_ofNat ascii (by omega) (by omega)
    · split at member
      · simp only [List.mem_cons, List.not_mem_nil, or_false] at member
        rcases member with rfl | rfl | rfl <;> exact ofNat_ne_ofNat ascii (by omega) (by omega)
      · simp only [List.mem_cons, List.not_mem_nil, or_false] at member
        rcases member with rfl | rfl | rfl | rfl <;>
          exact ofNat_ne_ofNat ascii (by omega) (by omega)

/-- A character that is spelled as itself has neither quote nor backslash in it. -/
theorem plain_of_mem {c : Char} (noQuote : c ≠ '"') (noBackslash : c ≠ '\\') {byte : UInt8}
    (member : byte ∈ String.utf8EncodeChar c) : byte ≠ 34 ∧ byte ≠ 92 :=
  ⟨ne_of_mem_utf8EncodeChar member (by decide : 34 < 128) fun same =>
      noQuote (Char.toNat_inj.mp same),
    ne_of_mem_utf8EncodeChar member (by decide : 92 < 128) fun same =>
      noBackslash (Char.toNat_inj.mp same)⟩

theorem utf8EncodeChar_ascii {c : Char} (ascii : c.toNat < 128) :
    String.utf8EncodeChar c = [UInt8.ofNat c.toNat] :=
  if_pos (Nat.le_of_lt_succ ascii)

theorem utf8EncodeChar_append_inj {c d : Char} {first second : List UInt8}
    (same : String.utf8EncodeChar c ++ first = String.utf8EncodeChar d ++ second) :
    c = d ∧ first = second := by
  have decoded := congrArg (fun bytes => bytes.toByteArray.utf8DecodeChar? 0) same
  simp only [List.toByteArray_append] at decoded
  rw [ByteArray.utf8DecodeChar?_utf8EncodeChar_append,
    ByteArray.utf8DecodeChar?_utf8EncodeChar_append] at decoded
  obtain rfl := Option.some.inj decoded
  exact ⟨rfl, List.append_cancel_left same⟩

/-- Only the first byte of an encoding can begin one. -/
theorem utf8EncodeChar_eq_cons (c : Char) :
    ∃ first later, String.utf8EncodeChar c = first :: later ∧ first.IsUTF8FirstByte ∧
      ∀ byte ∈ later, ¬byte.IsUTF8FirstByte := by
  have begins := @UInt8.isUTF8FirstByte_getElem_utf8EncodeChar c
  cases eq : String.utf8EncodeChar c with
  | nil => exact absurd eq String.utf8EncodeChar_ne_nil
  | cons first rest =>
    have leading := @begins 0 (by simp [eq])
    refine ⟨first, rest, rfl, by simpa [eq] using leading, fun byte member => ?_⟩
    obtain ⟨i, bound, rfl⟩ := List.getElem_of_mem member
    have behind := @begins (i + 1) (by simpa [eq] using bound)
    simpa [eq] using behind

/-! ## Strings -/

/-- The bytes of an array as a list. -/
theorem toList_byteArray (array : ByteArray) : array.toList = array.data.toList := by
  have ahead (i : Nat) (gathered : List UInt8) :
      ByteArray.toList.loop array i gathered = gathered.reverse ++ array.data.toList.drop i := by
    fun_induction ByteArray.toList.loop array i gathered with
    | case1 i gathered bound ih =>
      have bound : i < array.data.toList.length := bound
      have here : array.get! i = array.data.toList[i] := getElem!_pos array.data i bound
      rw [ih, List.drop_eq_getElem_cons bound]
      simp [here]
    | case2 i gathered bound =>
      have bound : array.data.toList.length ≤ i := Nat.le_of_not_lt bound
      rw [List.drop_eq_nil_of_le bound, List.append_nil]
  rw [ByteArray.toList, ahead]
  rfl

theorem utf8_singleton (c : Char) :
    (String.singleton c).toUTF8.toList = String.utf8EncodeChar c := by
  rw [toList_byteArray, String.toUTF8, String.toByteArray_singleton, List.utf8Encode_singleton,
    List.toList_data_toByteArray]

/-- The bytes of characters make up the string of these. -/
theorem fromUTF8_characters (characters : List Char) :
    String.fromUTF8? ⟨(characters.flatMap String.utf8EncodeChar).toArray⟩ =
      some (String.ofList characters) := by
  have same : (⟨(characters.flatMap String.utf8EncodeChar).toArray⟩ : ByteArray) =
      (String.ofList characters).toByteArray := by
    rw [String.toByteArray_ofList]
    apply ByteArray.ext
    simp [List.utf8Encode]
  rw [same, String.fromUTF8?, dif_pos (String.ofList characters).isValidUTF8]
  rfl

/-- Bytes that make up a string are those of its characters. -/
theorem exists_characters {bytes : List UInt8} {text : String}
    (valid : String.fromUTF8? ⟨bytes.toArray⟩ = some text) :
    ∃ characters : List Char, bytes = characters.flatMap String.utf8EncodeChar ∧
      text = String.ofList characters := by
  have whole := valid
  unfold String.fromUTF8? at valid
  split at valid
  next encoded =>
    obtain ⟨characters, same⟩ := encoded
    have data := congrArg (fun array => array.data.toList) same
    obtain rfl : bytes = characters.flatMap String.utf8EncodeChar := by
      simpa [List.utf8Encode] using data
    rw [fromUTF8_characters] at whole
    exact ⟨characters, rfl, (Option.some.inj whole).symm⟩
  · cases valid

end Batchwork.Json
