namespace Jack.Text.Digits

/-- What a digit stands for in the bases up to sixteen. -/
def digit? (c : Char) : Option Nat :=
  if c.isDigit then some (c.toNat - '0'.toNat)
  else if 'a' ≤ c ∧ c ≤ 'f' then some (c.toNat - 'a'.toNat + 10)
  else if 'A' ≤ c ∧ c ≤ 'F' then some (c.toNat - 'A'.toNat + 10)
  else none

/-- The largest number of 64 bits. -/
def maxWord : Nat := UInt64.size - 1

/-- The number of at most 64 bits that digits in some base stand for. There has to be a digit. -/
def word? (base : Nat) (digits : List Char) : Option Nat :=
  if digits = [] then none
  else
    digits.foldlM
      (fun value c => do
        let digit ← digit? c
        let value := value * base + digit
        if digit < base ∧ value ≤ maxWord then return value else none)
      0

end Jack.Text.Digits
