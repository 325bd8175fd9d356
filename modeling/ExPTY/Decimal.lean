import Mathlib.Data.List.TakeWhile

/-! Decimal numbers as byte texts: `std::to_string` writes one, `std::stoi` reads one back
as far as its digits go, and the two agree on every number in range. -/

namespace ExPTY.Decimal

def format (value : Int) : List UInt8 := (toString value).toList.map Char.toUInt8

def isspace (byte : UInt8) : Bool := byte = 0x20 || 0x09 ≤ byte && byte ≤ 0x0D

def isdigit (byte : UInt8) : Bool := 0x30 ≤ byte && byte ≤ 0x39

def unsigned (digits : List UInt8) : Nat := digits.foldl (fun value digit => 10 * value + (digit.toNat - 0x30)) 0

/-- The sign of a number, and what comes after it. -/
def sign : List UInt8 → Int × List UInt8
  | 0x2D :: digits => (-1, digits)
  | 0x2B :: digits => (1, digits)
  | digits => (1, digits)

/-- `std::stoi`, for a type with these numbers. It throws when there is no digit or the
number is out of range. -/
def stoi (range : Int → Bool) (text : List UInt8) : Option Int :=
  let (sign, rest) := sign (text.dropWhile isspace)
  let digits := rest.takeWhile isdigit
  let value := sign * unsigned digits
  if digits ≠ [] ∧ range value then some value else none

def decimal (n : Nat) : List UInt8 := (Nat.toDigits 10 n).map Char.toUInt8

section Digits

variable {n : Nat}

private theorem digit_byte {c : Char} (digit : c ∈ Nat.toDigits 10 n) :
    c.toUInt8.toNat = c.toNat ∧ 48 ≤ c.toNat ∧ c.toNat ≤ 57 := by
  have digit := Nat.isDigit_of_mem_toDigits (by omega) (by omega) digit
  obtain ⟨least, most⟩ : 48 ≤ c.toNat ∧ c.toNat ≤ 57 := Char.isDigit_iff_toNat.mp digit
  have small : c.toNat < 256 := by omega
  exact ⟨Nat.mod_eq_of_lt small, least, most⟩

private theorem mem_decimal {byte : UInt8} (member : byte ∈ decimal n) : 48 ≤ byte.toNat ∧ byte.toNat ≤ 57 := by
  obtain ⟨c, digit, rfl⟩ := List.mem_map.mp member
  obtain ⟨same, bounds⟩ := digit_byte digit
  rw [same]
  exact bounds

theorem unsigned_decimal (n : Nat) : unsigned (decimal n) = n := by
  have bytes (digits : List Char) (small : ∀ c ∈ digits, c.toUInt8.toNat = c.toNat) (value : Nat) :
      (digits.map Char.toUInt8).foldl (fun value digit => 10 * value + (digit.toNat - 0x30)) value =
        Nat.ofDigitChars 10 digits value := by
    induction digits generalizing value with
    | nil => rfl
    | cons c digits ih =>
      obtain ⟨head, tail⟩ := List.forall_mem_cons.mp small
      rw [List.map_cons, List.foldl_cons, head]
      exact ih tail _
  rw [unsigned, decimal, bytes _ (fun _ digit => (digit_byte digit).1) 0]
  exact Nat.ofDigitChars_ten_toDigits

theorem digits_decimal (n : Nat) : (decimal n).takeWhile isdigit = decimal n := by
  apply List.takeWhile_eq_self_iff.mpr
  intro byte member
  obtain ⟨least, most⟩ := mem_decimal member
  simp only [isdigit, Bool.and_eq_true, decide_eq_true_eq, UInt8.le_iff_toNat_le]
  exact ⟨least, most⟩

theorem decimal_ne_nil (n : Nat) : decimal n ≠ [] := List.map_eq_nil_iff.not.mpr Nat.toDigits_ne_nil

/-- A number without a sign starts with a digit, where neither blanks nor a sign are skipped. -/
theorem sign_decimal (n : Nat) : sign ((decimal n).dropWhile isspace) = (1, decimal n) := by
  cases shape : decimal n with
  | nil => exact absurd shape (decimal_ne_nil n)
  | cons byte rest =>
    have first : byte ∈ decimal n := shape ▸ List.Mem.head rest
    obtain ⟨least, most⟩ := mem_decimal first
    have plain : isspace byte = false := by
      simp only [isspace, Bool.or_eq_false_iff, Bool.and_eq_false_iff, decide_eq_false_iff_not, UInt8.le_iff_toNat_le]
      refine ⟨?_, .inr ?_⟩
      · intro blank
        rw [blank] at least
        exact absurd least (by decide)
      · intro small
        exact absurd (Nat.le_trans least small) (by decide)
    rw [List.dropWhile_cons_of_neg (by simp [plain])]
    unfold sign
    split
    · next same =>
      cases same
      exact absurd least (by decide)
    · next same =>
      cases same
      exact absurd least (by decide)
    · rfl

end Digits

theorem format_natCast (n : Nat) : format n = decimal n := by
  rw [format, decimal]
  exact congrArg (List.map Char.toUInt8) Nat.toList_repr

theorem format_negSucc (n : Nat) : format (.negSucc n) = 0x2D :: decimal (n + 1) := by
  have text : (toString (Int.negSucc n)).toList = '-' :: Nat.toDigits 10 (n + 1) := by
    rw [← Nat.toList_repr]
    exact String.toList_append
  rw [format, text]
  rfl

/-- No number has a NUL byte in its text. -/
theorem zero_not_mem_format (value : Int) : 0 ∉ format value := by
  intro member
  cases value with
  | ofNat n =>
    rw [Int.ofNat_eq_natCast, format_natCast] at member
    exact absurd (mem_decimal member).1 (by decide)
  | negSucc n =>
    rw [format_negSucc] at member
    cases member with
    | tail _ member => exact absurd (mem_decimal member).1 (by decide)

/-- What is written is read back. -/
theorem stoi_format {range : Int → Bool} {value : Int} (within : range value) : stoi range (format value) = some value := by
  cases value with
  | ofNat n =>
    rw [Int.ofNat_eq_natCast] at within ⊢
    rw [format_natCast, stoi]
    simp only [sign_decimal, digits_decimal, unsigned_decimal, Int.one_mul, if_pos (And.intro (decimal_ne_nil n) within)]
  | negSucc n =>
    have minus : sign ((format (.negSucc n)).dropWhile isspace) = (-1, decimal (n + 1)) := by
      rw [format_negSucc, List.dropWhile_cons_of_neg (by decide)]
      rfl
    have negative : -1 * ((n + 1 : Nat) : Int) = .negSucc n := by
      rw [Int.negSucc_eq]
      omega
    rw [stoi]
    simp only [minus, digits_decimal, unsigned_decimal, negative, if_pos (And.intro (decimal_ne_nil (n + 1)) within)]

end ExPTY.Decimal
