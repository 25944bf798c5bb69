
namespace PeerLink.Text.Numeral

/-- The value of further digits after a numeral of value `n`, if all are digits and the value stays
within the bound. -/
def digits? (greatest : Nat) : Nat → List Char → Option Nat
  | n, [] => some n
  | n, c :: cs =>
    if c.isDigit then
      let m := 10 * n + (c.toNat - '0'.toNat)
      if m ≤ greatest then digits? greatest m cs else none
    else none

def read? (greatest : Nat) (cs : List Char) : Option Nat :=
  match cs with
  | '+' :: c :: rest => digits? greatest 0 (c :: rest)
  | '+' :: [] => none
  | [] => none
  | c :: rest => digits? greatest 0 (c :: rest)

end PeerLink.Text.Numeral
