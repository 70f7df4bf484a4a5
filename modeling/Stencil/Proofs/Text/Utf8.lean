import Mathlib.Data.List.Basic
import Stencil.Proofs.Text.Cut
import Stencil.Text.Utf8

/-!
# What bytes spell

The bytes of a text are read as that text, and they are cut where the text is.  What bytes are read
as has no character that they do not spell, apart from the replacement character.
-/

namespace Stencil.Text

variable {c : Char} {bytes : List UInt8}

theorem utf8_eq (s : String) : utf8 s = s.toList.flatMap String.utf8EncodeChar := by
  rw [utf8, String.toUTF8_eq_toByteArray, ← String.utf8Encode_toList, List.utf8Encode,
    List.toList_data_toByteArray]

theorem exists_utf8EncodeChar (c : Char) : ∃ b rest, String.utf8EncodeChar c = b :: rest ∧
    rest.length = c.utf8Size - 1 := by
  have hlength := String.length_utf8EncodeChar c
  have hpos := c.utf8Size_pos
  cases hbytes : String.utf8EncodeChar c with
  | nil => simp [hbytes] at hlength; omega
  | cons b rest =>
      refine ⟨b, rest, rfl, ?_⟩
      rw [hbytes, List.length_cons] at hlength
      omega

/-- A small byte is the whole of a character. -/
theorem mem_utf8EncodeChar {b : UInt8} (hb : b < 0x80) :
    b ∈ String.utf8EncodeChar c ↔ c.toNat = b.toNat := by
  have hb : b.toNat < 128 := UInt8.lt_iff_toNat_lt.mp hb
  unfold String.utf8EncodeChar
  simp only [Char.toNat_val]
  split_ifs <;> simp only [List.mem_cons, List.not_mem_nil, or_false, ← UInt8.toNat_inj,
    UInt8.toNat_ofNat'] <;> omega

/-! ## Reading the bytes of a text -/

/-- Bytes that belong to what was read before are passed over. -/
theorem decode_eq_drop (n : Nat) (bytes : List UInt8) : decode n bytes = decode 0 (bytes.drop n) := by
  induction bytes generalizing n with
  | nil => cases n <;> rfl
  | cons b rest ih =>
      cases n with
      | zero => rfl
      | succ n => exact ih n

theorem decode_encode (c : Char) (rest : List UInt8) :
    decode 0 (String.utf8EncodeChar c ++ rest) = some c :: decode 0 rest := by
  obtain ⟨b, tail, hbytes, hlength⟩ := exists_utf8EncodeChar c
  have hread : (b :: (tail ++ rest)).toByteArray.utf8DecodeChar? 0 = some c := by
    rw [← List.cons_append, ← hbytes, List.toByteArray_append,
      ByteArray.utf8DecodeChar?_utf8EncodeChar_append]
  rw [hbytes, List.cons_append, decode, hread]
  simp only
  rw [← hlength, decode_eq_drop, List.drop_left]

/-- The bytes of a text are read as that text. -/
theorem ofBytes_utf8 (s : String) : ofBytes (utf8 s) = s := by
  have hdecode : ∀ cs : List Char, decode 0 (cs.flatMap String.utf8EncodeChar) = cs.map some := by
    intro cs
    induction cs with
    | nil => rfl
    | cons c cs ih => rw [List.flatMap_cons, decode_encode, ih, List.map_cons]
  rw [ofBytes, utf8_eq, hdecode, List.map_map]
  simp [Function.comp_def]

theorem utf8_injective : Function.Injective utf8 :=
  Function.LeftInverse.injective ofBytes_utf8

/-- A small byte is in the bytes of a text if the character that it spells is in the text. -/
theorem mem_utf8 {b : UInt8} {s : String} (hb : b < 0x80) (hc : c.toNat = b.toNat) :
    b ∈ utf8 s ↔ c ∈ s.toList := by
  rw [utf8_eq, List.mem_flatMap]
  constructor
  · rintro ⟨d, hd, hmem⟩
    have hsame : d = c := Char.toNat_inj.mp (((mem_utf8EncodeChar hb).mp hmem).trans hc.symm)
    exact hsame ▸ hd
  · exact fun h => ⟨c, h, (mem_utf8EncodeChar hb).mpr hc⟩

/-- The bytes of a text are cut where the text is. -/
theorem cutLastList_utf8 (s : String) :
    cutLastList 0x2E (utf8 s) = (cutLast '.' s).map fun (a, b) => (utf8 a, utf8 b) := by
  cases hcut : cutLast '.' s with
  | none =>
      rw [Option.map_none, cutLastList_eq_none,
        mem_utf8 (c := '.') (by decide) rfl]
      exact cutLast_eq_none.mp hcut
  | some parts =>
      obtain ⟨a, b⟩ := parts
      obtain ⟨hlist, hb⟩ := cutLast_eq_some.mp hcut
      have hbytes : utf8 s = utf8 a ++ 0x2E :: utf8 b := by
        rw [utf8_eq, utf8_eq, utf8_eq, hlist, List.flatMap_append, List.flatMap_cons]
        rfl
      rw [hbytes, Option.map_some]
      exact cutLastList_append ((mem_utf8 (c := '.') (by decide) rfl).not.mpr hb)

/-! ## Reading any bytes -/

/-- What is no character is read as one replacement character, as far as it could have been the
beginning of one. -/
theorem decode_broken {b : UInt8} {rest : List UInt8}
    (h : (b :: rest).toByteArray.utf8DecodeChar? 0 = none) :
    decode 0 (b :: rest) = none :: decode 0 (rest.drop (begun (b :: rest))) := by
  rw [decode, h]
  simp only
  rw [decode_eq_drop]

-- two bytes that begin a character of three, and later one that begins none
example : ofBytes [0xE2, 0x82, 0x61, 0x80] = "\uFFFDa\uFFFD" := by decide

/-- A character that is read is spelled by the bytes. -/
theorem spelled_of_mem_decode {n : Nat} (h : some c ∈ decode n bytes) :
    String.utf8EncodeChar c ⊆ bytes := by
  induction bytes generalizing n with
  | nil => cases n <;> cases h
  | cons b rest ih =>
      cases n with
      | succ n => exact List.subset_cons_of_subset b (ih h)
      | zero =>
          rw [decode] at h
          split at h
          · rename_i d hread
            rcases List.mem_cons.mp h with heq | hrest
            · cases heq
              obtain ⟨back, hback⟩ := ByteArray.exists_of_utf8DecodeChar?_eq_some hread
              have hlist : b :: rest = String.utf8EncodeChar c ++ back.data.toList := by
                have h := congrArg (fun a : ByteArray => a.data.toList) hback
                simpa using h
              rw [hlist]
              exact List.subset_append_left _ _
            · exact List.subset_cons_of_subset b (ih hrest)
          · refine List.subset_cons_of_subset b (ih (List.mem_of_ne_of_mem ?_ h))
            simp

theorem spelled_of_mem_ofBytes (hc : c ≠ replacement) (h : c ∈ (ofBytes bytes).toList) :
    String.utf8EncodeChar c ⊆ bytes := by
  rw [ofBytes, String.toList_ofList, List.mem_map] at h
  obtain ⟨unit, hunit, heq⟩ := h
  cases unit with
  | none => exact absurd heq.symm hc
  | some d =>
      cases heq
      exact spelled_of_mem_decode hunit

theorem ofBytes_ne_empty (h : bytes ≠ []) : ofBytes bytes ≠ "" := by
  obtain ⟨b, rest, rfl⟩ := List.exists_cons_of_ne_nil h
  intro hempty
  have hlist : (ofBytes (b :: rest)).toList = [] := by rw [hempty]; rfl
  rw [ofBytes, String.toList_ofList, List.map_eq_nil_iff, decode] at hlist
  split at hlist <;> cases hlist

end Stencil.Text
