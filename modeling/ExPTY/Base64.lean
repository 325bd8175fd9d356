/-! Base64 with padding: three bytes are four sextets, and each sextet is a digit. -/

namespace ExPTY.Base64

def digits : List Char :=
  ['A', 'B', 'C', 'D', 'E', 'F', 'G', 'H', 'I', 'J', 'K', 'L', 'M', 'N', 'O', 'P',
   'Q', 'R', 'S', 'T', 'U', 'V', 'W', 'X', 'Y', 'Z', 'a', 'b', 'c', 'd', 'e', 'f',
   'g', 'h', 'i', 'j', 'k', 'l', 'm', 'n', 'o', 'p', 'q', 'r', 's', 't', 'u', 'v',
   'w', 'x', 'y', 'z', '0', '1', '2', '3', '4', '5', '6', '7', '8', '9', '+', '/']

def digit (sextet : Nat) : Char := digits.getD sextet 'A'

def value (digit : Char) : Option Nat := digits.idxOf? digit

def encode : List UInt8 → List Char
  | [] => []
  | [a] => [digit (a.toNat / 4), digit (a.toNat % 4 * 16), '=', '=']
  | [a, b] => [digit (a.toNat / 4), digit (a.toNat % 4 * 16 + b.toNat / 16), digit (b.toNat % 16 * 4), '=']
  | a :: b :: c :: rest =>
    digit (a.toNat / 4) :: digit (a.toNat % 4 * 16 + b.toNat / 16) :: digit (b.toNat % 16 * 4 + c.toNat / 64) ::
      digit (c.toNat % 64) :: encode rest

def decode_first (p q : Char) : Option UInt8 := do
  let a ← value p
  let b ← value q
  return .ofNat (a * 4 + b / 16)

def decode_second (q r : Char) : Option UInt8 := do
  let a ← value q
  let b ← value r
  return .ofNat (a % 16 * 16 + b / 4)

def decode_third (r s : Char) : Option UInt8 := do
  let a ← value r
  let b ← value s
  return .ofNat (a % 4 * 64 + b)

/-- Padding ends the text, and nothing else than four digits stands before it. -/
def decode : List Char → Option (List UInt8)
  | [] => some []
  | p :: q :: r :: s :: rest =>
    if s = '=' then
      if rest ≠ [] then none
      else if r = '=' then do return [← decode_first p q]
      else do return [← decode_first p q, ← decode_second q r]
    else do return (← decode_first p q) :: (← decode_second q r) :: (← decode_third r s) :: (← decode rest)
  | _ => none

theorem value_digit {sextet : Nat} (bound : sextet < 64) : value (digit sextet) = some sextet := by
  have all : ∀ sextet : Fin 64, value (digit sextet) = some sextet.val := by decide +kernel
  exact all ⟨sextet, bound⟩

theorem digit_ne_pad {sextet : Nat} (bound : sextet < 64) : digit sextet ≠ '=' := by
  intro same
  have valued := value_digit bound
  rw [same] at valued
  cases valued

section Bytes
variable (a b c : UInt8)

theorem first_encoded {low : Nat} (bound : low < 16) :
    decode_first (digit (a.toNat / 4)) (digit (a.toNat % 4 * 16 + low)) = some a := by
  have small := a.toNat_lt
  simp only [decode_first, value_digit (show a.toNat / 4 < 64 by omega),
    value_digit (show a.toNat % 4 * 16 + low < 64 by omega)]
  have whole : a.toNat / 4 * 4 + (a.toNat % 4 * 16 + low) / 16 = a.toNat := by omega
  exact (congrArg (some <| UInt8.ofNat ·) whole).trans (congrArg some UInt8.ofNat_toNat)

theorem second_encoded {high low : Nat} (above : high < 4) (below : low < 4) :
    decode_second (digit (high * 16 + b.toNat / 16)) (digit (b.toNat % 16 * 4 + low)) = some b := by
  have small := b.toNat_lt
  simp only [decode_second, value_digit (show high * 16 + b.toNat / 16 < 64 by omega),
    value_digit (show b.toNat % 16 * 4 + low < 64 by omega)]
  have whole : (high * 16 + b.toNat / 16) % 16 * 16 + (b.toNat % 16 * 4 + low) / 4 = b.toNat := by omega
  exact (congrArg (some <| UInt8.ofNat ·) whole).trans (congrArg some UInt8.ofNat_toNat)

theorem third_encoded {high : Nat} (above : high < 16) :
    decode_third (digit (high * 4 + c.toNat / 64)) (digit (c.toNat % 64)) = some c := by
  have small := c.toNat_lt
  simp only [decode_third, value_digit (show high * 4 + c.toNat / 64 < 64 by omega),
    value_digit (show c.toNat % 64 < 64 by omega)]
  have whole : (high * 4 + c.toNat / 64) % 4 * 64 + c.toNat % 64 = c.toNat := by omega
  exact (congrArg (some <| UInt8.ofNat ·) whole).trans (congrArg some UInt8.ofNat_toNat)

end Bytes

theorem decode_encode (bytes : List UInt8) : decode (encode bytes) = some bytes := by
  induction bytes using encode.induct with
  | case1 => rfl
  | case2 a =>
    have first := first_encoded a (show 0 < 16 by omega)
    simp only [Nat.add_zero] at first
    simp [encode, decode, first]
  | case3 a b =>
    have small := b.toNat_lt
    have padded : digit (b.toNat % 16 * 4) ≠ '=' := digit_ne_pad (by omega)
    have first := first_encoded a (show b.toNat / 16 < 16 by omega)
    have second := second_encoded b (Nat.mod_lt a.toNat (by omega)) (show 0 < 4 by omega)
    simp only [Nat.add_zero] at second
    simp [encode, decode, padded, first, second]
  | case4 a b c rest ih =>
    have smallB := b.toNat_lt
    have smallC := c.toNat_lt
    have unpadded : digit (c.toNat % 64) ≠ '=' := digit_ne_pad (by omega)
    have first := first_encoded a (show b.toNat / 16 < 16 by omega)
    have second := second_encoded b (Nat.mod_lt a.toNat (by omega)) (show c.toNat / 64 < 4 by omega)
    have third := third_encoded c (Nat.mod_lt b.toNat (show 0 < 16 by omega))
    simp [encode, decode, unpadded, first, second, third, ih]

end ExPTY.Base64
