import Mathlib.Data.List.Basic
import LayoutGuard.Text.Reading
import LayoutGuard.Text.Utf8

/-!
ASCII bytes stand for themselves. A text of ASCII characters is decoded from as many bytes,
and in the bytes of any text an ASCII byte is a character and no part of another one.
-/

namespace LayoutGuard.Text.Utf8

def asciiBytes (cs : List Char) : List UInt8 :=
  cs.map fun c => UInt8.ofNat c.toNat

theorem head_ascii {c : Char} (hc : c.toNat < 128) (bs : List UInt8) :
    head (UInt8.ofNat c.toNat) bs = .scalar c 0 := by
  have hbyte : (UInt8.ofNat c.toNat).toNat = c.toNat := by
    rw [UInt8.toNat_ofNat']
    omega
  have hlow : UInt8.ofNat c.toNat < 0x80 := by
    rw [UInt8.lt_iff_toNat_lt, hbyte]
    exact hc
  rw [head, trailing?, if_pos hlow, hbyte, Char.ofNat_toNat]

theorem strictFrom_ascii (offset : Nat) {cs : List Char} (hcs : ∀ c ∈ cs, c.toNat < 128) :
    strictFrom offset (asciiBytes cs) = .ok cs := by
  induction cs generalizing offset with
  | nil => rw [asciiBytes, List.map_nil, strictFrom]
  | cons c cs ih =>
    have hrest := ih (offset + 1) fun d hd => hcs d (List.mem_cons_of_mem c hd)
    rw [asciiBytes] at hrest ⊢
    rw [List.map_cons, strictFrom, head_ascii (hcs c List.mem_cons_self)]
    simp only [Nat.add_zero, List.drop_zero, hrest, Except.map]

/-- ASCII texts are read back from their bytes. -/
theorem strict_ascii {cs : List Char} (hcs : ∀ c ∈ cs, c.toNat < 128) :
    strict (asciiBytes cs) = .ok cs :=
  strictFrom_ascii 0 hcs

/-! Encoding -/

def encode (cs : List Char) : List UInt8 :=
  cs.flatMap String.utf8EncodeChar

theorem encode_cons (c : Char) (cs : List Char) :
    encode (c :: cs) = String.utf8EncodeChar c ++ encode cs :=
  List.flatMap_cons

theorem encode_append (cs ds : List Char) : encode (cs ++ ds) = encode cs ++ encode ds :=
  List.flatMap_append

/-- The length of a text in bytes is the number of its bytes. -/
theorem length_encode (cs : List Char) : (encode cs).length = byteLength cs := by
  have hfrom : ∀ (n : Nat) (cs : List Char),
      cs.foldl (fun n c => n + c.utf8Size) n = n + (encode cs).length := by
    intro n cs
    induction cs generalizing n with
    | nil => rfl
    | cons c cs ih =>
      rw [List.foldl_cons, ih, encode_cons, List.length_append, String.length_utf8EncodeChar,
        Nat.add_assoc]
  rw [byteLength, hfrom, Nat.zero_add]

theorem encodeChar_ascii {c : Char} (hc : c.toNat < 128) :
    String.utf8EncodeChar c = [UInt8.ofNat c.toNat] := by
  rw [String.utf8EncodeChar]
  exact if_pos (Nat.le_of_lt_succ hc)

/-- No byte of another character is an ASCII byte. -/
theorem high_of_mem_encodeChar {c : Char} (hc : ¬c.toNat < 128) {b : UInt8}
    (hb : b ∈ String.utf8EncodeChar c) : 128 ≤ b.toNat := by
  have hcode : ¬c.val.toNat ≤ 127 := fun h => hc (Nat.lt_succ_of_le h)
  have hbyte : ∀ n < 128, 128 ≤ (UInt8.ofNat (n + 128)).toNat := by
    intro n hn
    rw [UInt8.toNat_ofNat']
    omega
  simp only [String.utf8EncodeChar, if_neg hcode] at hb
  split at hb
  · rcases List.mem_pair.mp hb with rfl | rfl
    · exact hbyte (c.val.toNat / 64 % 32 + 64) (by omega)
    · exact hbyte (c.val.toNat % 64) (by omega)
  · split at hb
    · simp only [List.mem_cons, List.not_mem_nil, or_false] at hb
      rcases hb with rfl | rfl | rfl
      · exact hbyte (c.val.toNat / 4096 % 16 + 96) (by omega)
      · exact hbyte (c.val.toNat / 64 % 64) (by omega)
      · exact hbyte (c.val.toNat % 64) (by omega)
    · simp only [List.mem_cons, List.not_mem_nil, or_false] at hb
      rcases hb with rfl | rfl | rfl | rfl
      · exact hbyte (c.val.toNat / 262144 % 8 + 112) (by omega)
      · exact hbyte (c.val.toNat / 4096 % 64) (by omega)
      · exact hbyte (c.val.toNat / 64 % 64) (by omega)
      · exact hbyte (c.val.toNat % 64) (by omega)

/-- A byte that encodes an ASCII character stands for that character. -/
theorem ascii_mem_encodeChar {c d : Char} (hd : d.toNat < 128)
    (h : UInt8.ofNat d.toNat ∈ String.utf8EncodeChar c) : c = d := by
  have hbyte : (UInt8.ofNat d.toNat).toNat = d.toNat := by
    rw [UInt8.toNat_ofNat']
    omega
  by_cases hc : c.toNat < 128
  · rw [encodeChar_ascii hc, List.mem_singleton, ← UInt8.toNat_inj, hbyte, UInt8.toNat_ofNat'] at h
    rw [← Char.toNat_inj]
    omega
  · have hhigh := high_of_mem_encodeChar hc h
    omega

/-- The place of an ASCII byte is the place of its character. -/
theorem exists_split_of_ascii {cs : List Char} {n : Nat} {d : Char} (hd : d.toNat < 128)
    (h : (encode cs)[n]? = some (UInt8.ofNat d.toNat)) :
    ∃ before after, cs = before ++ d :: after ∧ (encode before).length = n := by
  induction cs generalizing n with
  | nil => simp [encode] at h
  | cons c cs ih =>
    rw [encode_cons] at h
    by_cases hn : n < (String.utf8EncodeChar c).length
    · rw [List.getElem?_append_left hn] at h
      obtain rfl := ascii_mem_encodeChar hd (List.mem_of_getElem? h)
      rw [encodeChar_ascii hd, List.length_singleton] at hn
      exact ⟨[], cs, rfl, (Nat.lt_one_iff.mp hn).symm⟩
    · rw [List.getElem?_append_right (Nat.le_of_not_lt hn)] at h
      obtain ⟨before, after, rfl, hlength⟩ := ih h
      refine ⟨c :: before, after, rfl, ?_⟩
      rw [encode_cons, List.length_append, hlength]
      omega

end LayoutGuard.Text.Utf8
