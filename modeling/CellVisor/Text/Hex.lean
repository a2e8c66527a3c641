/-!
# CellVisor.Text.Hex

Hexadecimal text of numbers: lower-case digits, with or without the `0x` mark, and filled up with
zeros to a fixed count of digits.
-/

namespace CellVisor
namespace Hex

/-- The lower-case digits of `n`, without a mark; zero has one digit. -/
def digits (n : Nat) : List Char := Nat.toDigits 16 n

/-- At least `width` digits, filled up with zeros on the left. -/
def padded (width n : Nat) : String := String.ofList ((digits n).leftpad width '0')

/-- The digits after the mark `0x`. -/
def marked (n : Nat) : String := "0x" ++ padded 1 n

/-- The mark `0x` and at least `width` digits. -/
def markedPadded (width n : Nat) : String := "0x" ++ padded width n

end Hex
end CellVisor
