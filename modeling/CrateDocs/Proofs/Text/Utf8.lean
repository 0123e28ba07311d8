import CrateDocs.Text.Utf8

namespace CrateDocs.Utf8

theorem toNat_ofNat_of_lt {n : Nat} (h : n < 256) : (UInt8.ofNat n).toNat = n := by
  rw [UInt8.toNat_ofNat']
  omega

theorem ofNat_le_ofNat {m n : Nat} (hm : m < 256) (hn : n < 256) :
    UInt8.ofNat m ≤ UInt8.ofNat n ↔ m ≤ n := by
  rw [UInt8.le_iff_toNat_le, toNat_ofNat_of_lt hm, toNat_ofNat_of_lt hn]

-- Lead bytes by the bits they carry, with the bounds for the byte after them.

theorem tail?_two : ∀ n < 32, 2 ≤ n →
    tail? (UInt8.ofNat (n + 0xC0)) = some (1, UInt8.ofNat 0x80, UInt8.ofNat 0xBF) := by
  decide

theorem tail?_three : ∀ n < 16,
    tail? (UInt8.ofNat (n + 0xE0)) =
      some (2, UInt8.ofNat (if n = 0 then 0xA0 else 0x80), UInt8.ofNat (if n = 13 then 0x9F else 0xBF)) := by
  decide

theorem tail?_four : ∀ n < 5,
    tail? (UInt8.ofNat (n + 0xF0)) =
      some (3, UInt8.ofNat (if n = 0 then 0x90 else 0x80), UInt8.ofNat (if n = 4 then 0x8F else 0xBF)) := by
  decide

theorem not_ascii {n : Nat} (hn : n < 256) (hlow : 0x80 ≤ n) : ¬UInt8.ofNat n < 0x80 := by
  rw [UInt8.lt_iff_toNat_lt, toNat_ofNat_of_lt hn]
  exact Nat.not_lt.mpr hlow

theorem isContinuation_ofNat : ∀ n < 64, isContinuation (UInt8.ofNat (n + 0x80)) = true := by
  decide

theorem payload_ofNat : ∀ n < 64, payload (UInt8.ofNat (n + 0x80)) = n := by
  decide

-- The glyph at the start of bytes that encode a character by one, two, three or four bytes. The
-- arguments are the bits of the character's number, in the groups that the bytes carry.

theorem glyphs_one {n : Nat} (hn : n < 0x80) (rest : List UInt8) :
    glyphs (UInt8.ofNat n :: rest) = ⟨some (Char.ofNat n), 1⟩ :: glyphs rest := by
  have hlt : UInt8.ofNat n < 0x80 := by
    rw [UInt8.lt_iff_toNat_lt, toNat_ofNat_of_lt (by omega)]
    exact hn
  rw [glyphs, if_pos hlt, toNat_ofNat_of_lt (by omega)]

theorem glyphs_two {a b : Nat} (ha : a < 32) (ha' : 2 ≤ a) (hb : b < 64) (rest : List UInt8) :
    glyphs (UInt8.ofNat (a + 0xC0) :: UInt8.ofNat (b + 0x80) :: rest) =
      ⟨some (Char.ofNat (a * 64 + b)), 2⟩ :: glyphs rest := by
  have hlow : UInt8.ofNat 0x80 ≤ UInt8.ofNat (b + 0x80) :=
    (ofNat_le_ofNat (by omega) (by omega)).mpr (by omega)
  have hhigh : UInt8.ofNat (b + 0x80) ≤ UInt8.ofNat 0xBF :=
    (ofNat_le_ofNat (by omega) (by omega)).mpr (by omega)
  rw [glyphs, if_neg (not_ascii (by omega) (by omega))]
  simp only [tail?_two a ha ha', hlow, hhigh, decide_true, Bool.and_self, if_true, beq_self_eq_true,
    payload_ofNat b hb]
  rw [toNat_ofNat_of_lt (by omega), show (a + 0xC0) % 32 = a by omega]

theorem glyphs_three {a b c : Nat} (ha : a < 16) (hb : b < 64) (hc : c < 64)
    (hlow : a = 0 → 32 ≤ b) (hhigh : a = 13 → b < 32) (rest : List UInt8) :
    glyphs (UInt8.ofNat (a + 0xE0) :: UInt8.ofNat (b + 0x80) :: UInt8.ofNat (c + 0x80) :: rest) =
      ⟨some (Char.ofNat (a * 4096 + b * 64 + c)), 3⟩ :: glyphs rest := by
  have hlow : UInt8.ofNat (if a = 0 then 0xA0 else 0x80) ≤ UInt8.ofNat (b + 0x80) :=
    (ofNat_le_ofNat (by split <;> omega) (by omega)).mpr (by split <;> omega)
  have hhigh : UInt8.ofNat (b + 0x80) ≤ UInt8.ofNat (if a = 13 then 0x9F else 0xBF) :=
    (ofNat_le_ofNat (by omega) (by split <;> omega)).mpr (by split <;> omega)
  rw [glyphs, if_neg (not_ascii (by omega) (by omega))]
  simp only [tail?_three a ha, hlow, hhigh, decide_true, Bool.and_self, if_true,
    isContinuation_ofNat c hc, payload_ofNat b hb, payload_ofNat c hc, beq_self_eq_true]
  rw [toNat_ofNat_of_lt (by omega), show (a + 0xE0) % 16 = a by omega]
  rfl

theorem glyphs_four {a b c d : Nat} (ha : a < 5) (hb : b < 64) (hc : c < 64) (hd : d < 64)
    (hlow : a = 0 → 16 ≤ b) (hhigh : a = 4 → b < 16) (rest : List UInt8) :
    glyphs (UInt8.ofNat (a + 0xF0) :: UInt8.ofNat (b + 0x80) :: UInt8.ofNat (c + 0x80) ::
        UInt8.ofNat (d + 0x80) :: rest) =
      ⟨some (Char.ofNat (a * 262144 + b * 4096 + c * 64 + d)), 4⟩ :: glyphs rest := by
  have hlow : UInt8.ofNat (if a = 0 then 0x90 else 0x80) ≤ UInt8.ofNat (b + 0x80) :=
    (ofNat_le_ofNat (by split <;> omega) (by omega)).mpr (by split <;> omega)
  have hhigh : UInt8.ofNat (b + 0x80) ≤ UInt8.ofNat (if a = 4 then 0x8F else 0xBF) :=
    (ofNat_le_ofNat (by omega) (by split <;> omega)).mpr (by split <;> omega)
  rw [glyphs, if_neg (not_ascii (by omega) (by omega))]
  simp only [tail?_four a ha, hlow, hhigh, decide_true, Bool.and_self, if_true,
    isContinuation_ofNat c hc, isContinuation_ofNat d hd, payload_ofNat b hb, payload_ofNat c hc,
    payload_ofNat d hd]
  rw [toNat_ofNat_of_lt (by omega), show (a + 0xF0) % 8 = a by omega]
  rfl

-- A character is the first glyph of its own encoding.
theorem glyphs_encodeChar (c : Char) (rest : List UInt8) :
    glyphs (String.utf8EncodeChar c ++ rest) =
      ⟨some c, (String.utf8EncodeChar c).length⟩ :: glyphs rest := by
  have hvalid : c.toNat < 0xD800 ∨ 0xDFFF < c.toNat ∧ c.toNat < 0x110000 := c.valid
  have hc : Char.ofNat c.toNat = c := Char.ofNat_toNat c
  have hv : c.val.toNat = c.toNat := rfl
  generalize hn : c.toNat = n at hvalid hc hv
  unfold String.utf8EncodeChar
  simp only [hv]
  split
  · simp only [List.cons_append, List.nil_append, List.length_singleton]
    rw [glyphs_one (by omega), hc]
  · split
    · simp only [List.cons_append, List.nil_append, List.length_cons, List.length_nil]
      rw [glyphs_two (by omega) (by omega) (by omega),
        show n / 64 % 32 * 64 + n % 64 = n by omega, hc]
    · split
      · simp only [List.cons_append, List.nil_append, List.length_cons, List.length_nil]
        rw [glyphs_three (by omega) (by omega) (by omega) (by omega) (by omega),
          show n / 4096 % 16 * 4096 + n / 64 % 64 * 64 + n % 64 = n by omega, hc]
      · simp only [List.cons_append, List.nil_append, List.length_cons, List.length_nil]
        rw [glyphs_four (by omega) (by omega) (by omega) (by omega) (by omega) (by omega),
          show n / 262144 % 8 * 262144 + n / 4096 % 64 * 4096 + n / 64 % 64 * 64 + n % 64 = n by omega,
          hc]

theorem glyphs_flatMap (cs : List Char) :
    (glyphs (cs.flatMap String.utf8EncodeChar)).map (·.char?) = cs.map some := by
  induction cs with
  | nil => simp [glyphs]
  | cons c cs ih => rw [List.flatMap_cons, glyphs_encodeChar, List.map_cons, List.map_cons, ih]

theorem mapM_char?_of_map_eq {gs : List Glyph} {cs : List Char} (h : gs.map (·.char?) = cs.map some) :
    gs.mapM Glyph.char? = some cs := by
  induction gs generalizing cs with
  | nil =>
      obtain rfl : cs = [] := by simpa using h.symm
      rfl
  | cons g gs ih =>
      cases cs with
      | nil => simp at h
      | cons c cs =>
          simp only [List.map_cons, List.cons.injEq] at h
          rw [List.mapM_cons, h.1, ih h.2]
          rfl

-- Texts come back from their bytes, whether or not other bytes would be let through.

theorem decode?_encode (s : String) : decode? (encode s) = some s := by
  rw [decode?, encode, mapM_char?_of_map_eq (glyphs_flatMap s.toList), Option.map_some,
    String.ofList_toList]

theorem decodeLossy_encode (s : String) : decodeLossy (encode s) = s := by
  have h : (glyphs (encode s)).map (fun glyph => glyph.char?.getD '\uFFFD') = s.toList := by
    have hg := congrArg (List.map fun c? : Option Char => c?.getD '\uFFFD') (glyphs_flatMap s.toList)
    simpa [List.map_map, Function.comp_def, encode] using hg
  rw [decodeLossy, h, String.ofList_toList]

end CrateDocs.Utf8
