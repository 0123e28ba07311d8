import Mathlib.Data.List.Induction

namespace CrateDocs

-- Semantic versions, as their grammar makes them, and the precedence between them.

namespace SemVer

-- A number in decimal digits, without zeros in front.
structure Numeral where
  digits : List Char
  ne_nil : digits ≠ []
  isDigit : ∀ c ∈ digits, c.isDigit = true
  noZeros : digits.head? = some '0' → digits = ['0']

def Numeral.value (n : Numeral) : Nat :=
  Nat.ofDigitChars 10 n.digits 0

-- The characters of identifiers.
def isAllowed (c : Char) : Bool :=
  c.isAlphanum || c == '-'

-- An identifier that is no number: some character of it is no digit.
structure Word where
  chars : List Char
  allowed : ∀ c ∈ chars, isAllowed c = true
  notNumber : ∃ c ∈ chars, c.isDigit = false

-- The identifiers of a pre-release.
inductive Identifier
  | number (n : Numeral)
  | word (w : Word)

-- The identifiers of a build. Their numbers may start with zeros.
structure Label where
  chars : List Char
  ne_nil : chars ≠ []
  allowed : ∀ c ∈ chars, isAllowed c = true

end SemVer

-- A version of the grammar. It is a release if it has no identifiers of a pre-release.
structure SemVer where
  major : SemVer.Numeral
  minor : SemVer.Numeral
  patch : SemVer.Numeral
  pre : List SemVer.Identifier
  build : List SemVer.Label

namespace SemVer

def Identifier.chars : Identifier → List Char
  | number n => n.digits
  | word w => w.chars

-- Pieces with dots between them, after a mark; nothing if there are none.
def marked (mark : Char) (pieces : List (List Char)) : List Char :=
  if pieces = [] then [] else mark :: ['.'].intercalate pieces

def coreText (v : SemVer) : List Char :=
  ['.'].intercalate [v.major.digits, v.minor.digits, v.patch.digits]

-- A version as it is written.
def text (v : SemVer) : String :=
  String.ofList (v.coreText ++ marked '-' (v.pre.map Identifier.chars) ++ marked '+' (v.build.map Label.chars))

def core (v : SemVer) : List Nat :=
  [v.major.value, v.minor.value, v.patch.value]

-- Numbers come by value and before words, words by code points.
inductive Identifier.Lower : Identifier → Identifier → Prop
  | numbers {m n : Numeral} (h : m.value < n.value) : Lower (.number m) (.number n)
  | mixed (n : Numeral) (w : Word) : Lower (.number n) (.word w)
  | words {v w : Word} (h : v.chars < w.chars) : Lower (.word v) (.word w)

-- Lower precedence. The core decides first, then that a pre-release comes before its release, then the first
-- identifier that differs; fewer identifiers come before more. The build does not count.
def Precedes (v w : SemVer) : Prop :=
  List.Lex (· < ·) v.core w.core ∨
    v.core = w.core ∧ v.pre ≠ [] ∧ (w.pre = [] ∨ List.Lex Identifier.Lower v.pre w.pre)

def SamePrecedence (v w : SemVer) : Prop :=
  v.core = w.core ∧ v.pre = w.pre

-- Versions whose numbers can be read, and whose words in a pre-release hold no digit.
structure Plain (v : SemVer) : Prop where
  core : ∀ n ∈ [v.major, v.minor, v.patch], n.digits.length ≤ 4300
  numbers : ∀ n, .number n ∈ v.pre → n.digits.length ≤ 4300
  words : ∀ w, .word w ∈ v.pre → ∀ c ∈ w.chars, c.isDigit = false

-- A number is written in one way only.

theorem digitChar_sub {c : Char} (h : c.isDigit = true) : (c.toNat - '0'.toNat).digitChar = c := by
  have hdigits : ∀ n < 58, 48 ≤ n → ((Char.ofNat n).toNat - '0'.toNat).digitChar = Char.ofNat n := by decide
  obtain ⟨hlow, hhigh⟩ := Char.isDigit_iff_toNat.mp h
  have hc := hdigits c.toNat (Nat.lt_succ_of_le hhigh) hlow
  rwa [Char.ofNat_toNat] at hc

theorem digit_lt_ten {c : Char} (h : c.isDigit = true) : c.toNat - '0'.toNat < 10 := by
  obtain ⟨hlow, hhigh⟩ := Char.isDigit_iff_toNat.mp h
  have hzero : '0'.toNat = 48 := rfl
  have hnine : '9'.toNat = 57 := rfl
  omega

theorem digit_pos {c : Char} (h : c.isDigit = true) (hc : c ≠ '0') : 0 < c.toNat - '0'.toNat := by
  obtain ⟨hlow, _⟩ := Char.isDigit_iff_toNat.mp h
  have hne : c.toNat ≠ '0'.toNat := fun heq => hc (Char.toNat_inj.mp heq)
  omega

theorem ofDigitChars_pos {c : Char} (h : c.isDigit = true) (hc : c ≠ '0') (cs : List Char) :
    0 < Nat.ofDigitChars 10 (c :: cs) 0 := by
  have hmono : ∀ (cs : List Char) (n : Nat), 0 < n → 0 < Nat.ofDigitChars 10 cs n := by
    intro cs
    induction cs with
    | nil => exact fun n hn => hn
    | cons d cs ih =>
        intro n hn
        rw [Nat.ofDigitChars_cons]
        apply ih
        omega
  rw [Nat.ofDigitChars_cons]
  apply hmono
  have hpos := digit_pos h hc
  omega

theorem Numeral.toDigits_value (n : Numeral) : Nat.toDigits 10 n.value = n.digits := by
  obtain ⟨digits, hne, hdigits, hzeros⟩ := n
  dsimp only [Numeral.value]
  -- The last digit is what is left over by ten, and the digits before it are again a number.
  induction digits using List.reverseRecOn with
  | nil => exact absurd rfl hne
  | append_singleton front c ih =>
      have hc : c.isDigit = true := hdigits c (by simp)
      rw [Nat.ofDigitChars_append, Nat.ofDigitChars_cons, Nat.ofDigitChars_nil]
      cases front with
      | nil =>
          rw [Nat.ofDigitChars_nil, Nat.mul_zero, Nat.zero_add, Nat.toDigits_of_lt_base (digit_lt_ten hc),
            digitChar_sub hc, List.nil_append]
      | cons d front =>
          have hd : d ≠ '0' := by
            rintro rfl
            simpa using hzeros rfl
          have hfront : ∀ c ∈ d :: front, c.isDigit = true := by
            intro c hc
            exact hdigits c (List.mem_append_left _ hc)
          have hrest := ih (List.cons_ne_nil d front) hfront (by simp [hd])
          have hpos := ofDigitChars_pos (hfront d List.mem_cons_self) hd front
          rw [← Nat.toDigits_append_toDigits (by omega) hpos (digit_lt_ten hc), hrest,
            Nat.toDigits_of_lt_base (digit_lt_ten hc), digitChar_sub hc]

theorem Numeral.value_injective {m n : Numeral} (h : m.value = n.value) : m = n := by
  have hdigits : m.digits = n.digits := by rw [← m.toDigits_value, h, n.toDigits_value]
  cases m
  cases n
  cases hdigits
  rfl

theorem Word.chars_injective {v w : Word} (h : v.chars = w.chars) : v = w := by
  cases v
  cases w
  cases h
  rfl

end SemVer

end CrateDocs
