import Mathlib.Data.List.Lex

/-!
# The order of bytes

Texts are compared here character by character, by code point. Other programs compare their UTF-8
bytes, and where the keys of a document or the types of a factory are listed in order it matters
that this is the same (`lt_iff_bytes_lt`).

The reason is in the encoding. The first byte says how many there are, and longer encodings, which
are those of larger code points, have larger first bytes; and within one length the bytes are the
digits of the code point to the base 64, the highest first.
-/

set_option autoImplicit false

namespace ViewTree.Text

open String (utf8EncodeChar)

/-- The UTF-8 bytes of a text. -/
def bytes (s : String) : List UInt8 := s.toUTF8.data.toList

theorem bytes_eq (s : String) : bytes s = s.toList.flatMap utf8EncodeChar := by
  have hbytes : s.toUTF8 = s.toList.utf8Encode := by
    rw [String.toUTF8_eq_toByteArray, ← String.toByteArray_ofList, String.ofList_toList]
  rw [bytes, hbytes, List.utf8Encode, List.data_toByteArray]

/-! ## Digits -/

theorem digit_lt {m n : Nat} (h : m < n) :
    m / 64 < n / 64 ∨ m / 64 = n / 64 ∧ m % 64 < n % 64 := by omega

/-- Numbers are compared by their digits to the base 64, the highest first. -/
theorem digits_lt {m n : Nat} (h : m < n) :
    m / 262144 < n / 262144 ∨ m / 262144 = n / 262144 ∧
      (m / 4096 % 64 < n / 4096 % 64 ∨ m / 4096 % 64 = n / 4096 % 64 ∧
        (m / 64 % 64 < n / 64 % 64 ∨ m / 64 % 64 = n / 64 % 64 ∧ m % 64 < n % 64)) := by
  have hpowers : ∀ k, k / 4096 = k / 64 / 64 ∧ k / 262144 = k / 64 / 64 / 64 := fun k => by
    simp only [Nat.div_div_eq_div_mul, and_self]
  rw [(hpowers m).1, (hpowers m).2, (hpowers n).1, (hpowers n).2]
  rcases digit_lt h with h | ⟨h₀, hlast⟩
  · rcases digit_lt h with h | ⟨h₁, hlast⟩
    · rcases digit_lt h with h | ⟨h₂, hlast⟩
      · exact .inl h
      · exact .inr ⟨h₂, .inl hlast⟩
    · exact .inr ⟨by rw [h₁], .inr ⟨by rw [h₁], .inl hlast⟩⟩
  · exact .inr ⟨by rw [h₀], .inr ⟨by rw [h₀], .inr ⟨by rw [h₀], hlast⟩⟩⟩

/-! ## Encodings -/

/-- The first byte decides unless it is the same. -/
theorem ofNat_cons_lt_cons {m n : Nat} (hm : m < 256) (hn : n < 256) {xs ys : List UInt8} :
    UInt8.ofNat m :: xs < UInt8.ofNat n :: ys ↔ m < n ∨ m = n ∧ xs < ys := by
  rw [List.cons_lt_cons_iff, UInt8.lt_iff_toNat_lt, ← UInt8.toNat_inj, UInt8.toNat_ofNat',
    UInt8.toNat_ofNat', Nat.mod_eq_of_lt hm, Nat.mod_eq_of_lt hn]

/-- A smaller character has the smaller encoding, whatever follows. -/
theorem encode_append_lt {c d : Char} (h : c < d) (xs ys : List UInt8) :
    utf8EncodeChar c ++ xs < utf8EncodeChar d ++ ys := by
  have hlt : c.val.toNat < d.val.toNat := h
  have hvalid : d.val.toNat < 0x110000 := by
    rcases d.valid with h | h
    · exact Nat.lt_trans h (by decide)
    · exact h.2
  have hdigits := digits_lt hlt
  have hlead : c.val.toNat / 262144 < 8 ∧ d.val.toNat / 262144 < 8 := by omega
  rw [← Nat.mod_eq_of_lt hlead.1, ← Nat.mod_eq_of_lt hlead.2] at hdigits
  unfold utf8EncodeChar
  generalize c.val.toNat = m at hlt hdigits hlead
  generalize d.val.toNat = n at hlt hdigits hlead hvalid
  -- one case for the lengths of both encodings: the first bytes differ unless the lengths agree
  dsimp only
  split_ifs <;> simp (disch := omega) only [List.cons_append, ofNat_cons_lt_cons] <;> omega

theorem flatMap_encode_lt {cs ds : List Char} (h : cs < ds) :
    cs.flatMap utf8EncodeChar < ds.flatMap utf8EncodeChar := by
  induction cs generalizing ds with
  | nil =>
    cases ds with
    | nil => exact absurd h (List.lt_irrefl _)
    | cons d ds =>
      obtain ⟨b, bs, hbs⟩ := List.exists_cons_of_ne_nil (String.utf8EncodeChar_ne_nil (c := d))
      rw [List.flatMap_cons, hbs]
      exact List.nil_lt_cons _ _
  | cons c cs ih =>
    cases ds with
    | nil => exact absurd h (List.not_lt_nil _)
    | cons d ds =>
      rw [List.flatMap_cons, List.flatMap_cons]
      rcases List.cons_lt_cons_iff.mp h with hlt | ⟨rfl, hrest⟩
      · exact encode_append_lt hlt _ _
      · exact List.append_left_lt (ih hrest)

/-- **The order of texts is the order of their bytes.** -/
theorem lt_iff_bytes_lt {s t : String} : s < t ↔ bytes s < bytes t := by
  have hlt : ∀ {s t : String}, s < t → bytes s < bytes t := by
    intro s t h
    rw [bytes_eq, bytes_eq]
    exact flatMap_encode_lt (String.lt_iff.mp h)
  refine ⟨hlt, fun h => ?_⟩
  rcases Std.lt_trichotomy s t with hst | rfl | hts
  · exact hst
  · exact absurd h (List.lt_irrefl _)
  · exact absurd (List.lt_trans h (hlt hts)) (List.lt_irrefl _)

end ViewTree.Text
