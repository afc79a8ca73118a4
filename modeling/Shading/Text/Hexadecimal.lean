/-!
Natural numbers in base sixteen: written in lower case without leading zeros, read in either case.
-/

namespace Shading.Text

def hexDigit? (c : Char) : Option Nat :=
  if c.isDigit then some (c.toNat - '0'.toNat)
  else if 'a' ≤ c ∧ c ≤ 'f' then some (c.toNat - 'a'.toNat + 10)
  else if 'A' ≤ c ∧ c ≤ 'F' then some (c.toNat - 'A'.toNat + 10)
  else none

-- The number whose digits follow those of `high`.
def hexValue? (high : Nat) (digits : List Char) : Option Nat :=
  digits.foldlM (fun n c => (hexDigit? c).map (16 * n + ·)) high

def hexNumber? (text : List Char) : Option Nat :=
  match if text.head? = some '+' then text.tail else text with
  | []     => none
  | digits => hexValue? 0 digits

def hexDigits (n : Nat) : List Char := Nat.toDigits 16 n

theorem hexDigit?_digitChar (d : Fin 16) : hexDigit? d.val.digitChar = some d.val := by
  revert d
  decide

theorem hexValue?_append (high : Nat) (ds es : List Char) :
    hexValue? high (ds ++ es) = (hexValue? high ds).bind (hexValue? · es) := by
  simp [hexValue?, List.foldlM_append]

theorem hexValue?_hexDigits (n : Nat) : hexValue? 0 (hexDigits n) = some n := by
  induction n using Nat.strongRecOn with
  | ind n ih =>
    have digit (d : Nat) (h : d < 16) : hexDigit? d.digitChar = some d := hexDigit?_digitChar ⟨d, h⟩
    rw [hexDigits, Nat.toDigits_eq_if (by decide)]
    split
    case isTrue h  => simp [hexValue?, digit n h]
    case isFalse h =>
      have last := ih (n / 16) (by omega)
      rw [hexDigits] at last
      rw [hexValue?_append, last]
      simp [hexValue?, digit (n % 16) (by omega)]
      omega

-- A written number has a first digit, which is no sign.
theorem hexNumber?_hexDigits (n : Nat) : hexNumber? (hexDigits n) = some n := by
  have value := hexValue?_hexDigits n
  cases shape : hexDigits n with
  | nil =>
    have := Nat.length_toDigits_pos (b := 16) (n := n)
    simp [← hexDigits.eq_1, shape] at this
  | cons c digits =>
    rw [shape] at value
    have : c ≠ '+' := by
      intro h
      simp [h, hexValue?, hexDigit?, Char.isDigit] at value
    simp [hexNumber?, this, value]

end Shading.Text
