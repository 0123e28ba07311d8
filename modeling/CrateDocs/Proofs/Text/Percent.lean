import CrateDocs.Proofs.Text.Utf8
import CrateDocs.Text.Percent
import CrateDocs.Text.Pieces

namespace CrateDocs.Percent

theorem hexValue?_hexDigit : ∀ n < 16, hexValue? (hexDigit n) = some n := by
  decide

theorem lt_of_isUnreserved {b : UInt8} (h : isUnreserved b = true) : b.toNat < 0x80 ∧ b.toNat ≠ 0x25 := by
  simp only [isUnreserved, Bool.or_eq_true, Bool.and_eq_true, decide_eq_true_eq, beq_iff_eq,
    UInt8.le_iff_toNat_le, ← UInt8.toNat_inj] at h
  simp only [UInt8.toNat_ofNat] at h
  omega

theorem toNat_ofNat_byte (b : UInt8) : (Char.ofNat b.toNat).toNat = b.toNat := by
  have hlt : b.toNat < 256 := b.toNat_lt
  rw [Char.ofNat, dif_pos (Or.inl (by omega))]
  rfl

-- A code for bytes that reads back, whatever comes after it.
def ReadsBack (code : UInt8 → List Char) : Prop :=
  ∀ b rest, decodeBytes (code b ++ rest) = b :: decodeBytes rest

theorem decodeBytes_plain {c : Char} (hc : c ≠ '%') (rest : List Char) :
    decodeBytes (c :: rest) = String.utf8EncodeChar c ++ decodeBytes rest := by
  rw [decodeBytes]
  intro h l tail heq
  exact absurd heq hc

theorem decodeBytes_triplet (b : UInt8) (rest : List Char) :
    decodeBytes ('%' :: hexDigit (b.toNat / 16) :: hexDigit (b.toNat % 16) :: rest) =
      b :: decodeBytes rest := by
  have hlt : b.toNat < 256 := b.toNat_lt
  rw [decodeBytes]
  simp only [hexValue?_hexDigit _ (show b.toNat / 16 < 16 by omega),
    hexValue?_hexDigit _ (show b.toNat % 16 < 16 by omega)]
  rw [show 16 * (b.toNat / 16) + b.toNat % 16 = b.toNat by omega, UInt8.ofNat_toNat]

theorem readsBack_encodeByte : ReadsBack encodeByte := by
  intro b rest
  rw [encodeByte]
  split
  · rename_i h
    obtain ⟨hlt, hne⟩ := lt_of_isUnreserved h
    have hnat := toNat_ofNat_byte b
    have hpercent : Char.ofNat b.toNat ≠ '%' := by
      intro heq
      rw [heq] at hnat
      exact hne hnat.symm
    have hencode : String.utf8EncodeChar (Char.ofNat b.toNat) = [b] := by
      have hval : (Char.ofNat b.toNat).val.toNat = b.toNat := hnat
      rw [String.utf8EncodeChar]
      simp only [hval, show b.toNat ≤ 0x7f by omega, if_true, UInt8.ofNat_toNat]
    rw [List.singleton_append, decodeBytes_plain hpercent, hencode, List.singleton_append]
  · exact decodeBytes_triplet b rest

theorem decodeBytes_flatMap {code : UInt8 → List Char} (h : ReadsBack code) (bytes : List UInt8) :
    decodeBytes (bytes.flatMap code) = bytes := by
  induction bytes with
  | nil => rfl
  | cons b bytes ih => rw [List.flatMap_cons, h, ih]

theorem decode_flatMap {code : UInt8 → List Char} (h : ReadsBack code) (s : String) :
    decode (String.ofList ((Utf8.encode s).flatMap code)) = s := by
  rw [decode, String.toList_ofList, decodeBytes_flatMap h, Utf8.decodeLossy_encode]

-- The code that also writes `-` as a triplet.
def encodeDash (b : UInt8) : List Char :=
  (encodeByte b).flatMap fun c => if c == '-' then "%2D".toList else [c]

theorem replaceChar_encode (s : String) :
    Text.replaceChar '-' "%2D" (encode s) = String.ofList ((Utf8.encode s).flatMap encodeDash) := by
  have hencode : (encode s).toList = (Utf8.encode s).flatMap encodeByte := String.toList_ofList
  rw [Text.replaceChar, hencode, List.flatMap_assoc]
  rfl

-- The characters that a code is made of: an unreserved one for itself, or a `%` and two digits.
def isCodeChar (c : Char) : Bool :=
  c == '%' || (c.toNat < 0x80 && isUnreserved (UInt8.ofNat c.toNat))

theorem hexDigit_code : ∀ n < 16, isCodeChar (hexDigit n) = true ∧ hexDigit n ≠ '-' := by
  decide

theorem mem_encodeByte {b : UInt8} {c : Char} (hc : c ∈ encodeByte b) :
    isCodeChar c = true ∧ (c = '-' → b = 0x2D) := by
  have hlt : b.toNat < 256 := b.toNat_lt
  rw [encodeByte] at hc
  split at hc
  · rename_i hb
    have hnat := toNat_ofNat_byte b
    obtain rfl := List.mem_singleton.mp hc
    constructor
    · simp [isCodeChar, hnat, hb, (lt_of_isUnreserved hb).1]
    · intro heq
      rw [heq] at hnat
      exact UInt8.toNat_inj.mp hnat.symm
  · simp only [List.mem_cons, List.not_mem_nil, or_false] at hc
    rcases hc with rfl | rfl | rfl
    · exact ⟨rfl, fun heq => absurd heq (by decide)⟩
    · exact (hexDigit_code _ (by omega)).imp_right fun hne heq => absurd heq hne
    · exact (hexDigit_code _ (by omega)).imp_right fun hne heq => absurd heq hne

theorem encodeDash_of_ne {b : UInt8} (hb : b ≠ 0x2D) : encodeDash b = encodeByte b := by
  have hkeep : ∀ c ∈ encodeByte b, c ≠ '-' := fun c hc heq => hb ((mem_encodeByte hc).2 heq)
  rw [encodeDash]
  generalize encodeByte b = cs at hkeep
  induction cs with
  | nil => rfl
  | cons c cs ih =>
      rw [List.flatMap_cons, ih fun d hd => hkeep d (List.mem_cons_of_mem c hd)]
      simp [hkeep c List.mem_cons_self]

theorem mem_encodeDash {b : UInt8} {c : Char} (hc : c ∈ encodeDash b) :
    isCodeChar c = true ∧ c ≠ '-' := by
  by_cases hb : b = 0x2D
  · subst hb
    have hcode : encodeDash 0x2D = ['%', '2', 'D'] := rfl
    rw [hcode] at hc
    simp only [List.mem_cons, List.not_mem_nil, or_false] at hc
    rcases hc with rfl | rfl | rfl <;> decide
  · rw [encodeDash_of_ne hb] at hc
    exact (mem_encodeByte hc).imp_right fun himp heq => hb (himp heq)

theorem readsBack_encodeDash : ReadsBack encodeDash := by
  intro b rest
  by_cases hb : b = 0x2D
  · subst hb
    exact decodeBytes_triplet 0x2D rest
  · rw [encodeDash_of_ne hb]
    exact readsBack_encodeByte b rest

theorem decode_encode (s : String) : decode (encode s) = s :=
  decode_flatMap readsBack_encodeByte s

theorem decode_encodeDash (s : String) : decode (Text.replaceChar '-' "%2D" (encode s)) = s := by
  rw [replaceChar_encode]
  exact decode_flatMap readsBack_encodeDash s

end CrateDocs.Percent
