/-! Bytes in the standard base64 alphabet, with padding. -/

namespace Warrant.Base64

/-- The character of a value below 64. -/
def digit (value : Nat) : Char :=
  if value < 26 then .ofNat (value + 65)
  else if value < 52 then .ofNat (value + 71)
  else if value < 62 then .ofNat (value - 4)
  else if value = 62 then '+'
  else '/'

/-- The value of a character of the alphabet. -/
def value? (c : Char) : Option Nat :=
  if 'A' ≤ c ∧ c ≤ 'Z' then some (c.toNat - 65)
  else if 'a' ≤ c ∧ c ≤ 'z' then some (c.toNat - 71)
  else if '0' ≤ c ∧ c ≤ '9' then some (c.toNat + 4)
  else if c = '+' then some 62
  else if c = '/' then some 63
  else none

/-- Four characters for every three bytes; a shorter last group is filled up with padding. -/
def write : List UInt8 → List Char
  | a :: b :: c :: rest =>
    let group := (a.toNat * 256 + b.toNat) * 256 + c.toNat
    digit (group / 262144) :: digit (group / 4096 % 64) :: digit (group / 64 % 64) ::
      digit (group % 64) :: write rest
  -- Two bytes are two bits short of three characters.
  | [a, b] =>
    let group := (a.toNat * 256 + b.toNat) * 4
    [digit (group / 4096), digit (group / 64 % 64), digit (group % 64), '=']
  -- A single byte is four bits short of two characters.
  | [a] => [digit (a.toNat / 4), digit (a.toNat % 4 * 16), '=', '=']
  | [] => []

/-- The bytes of a padded text. Bits of a last group that belong to no byte have to be zero, so that
every list of bytes is read from one text only. -/
def read? : List Char → Option (List UInt8)
  | [] => some []
  | [a, b, '=', '='] => do
    let group := (← value? a) * 64 + (← value? b)
    -- The four bits behind the byte have to be zero.
    if group % 16 = 0 then some [.ofNat (group / 16)] else none
  | [a, b, c, '='] => do
    let group := ((← value? a) * 64 + (← value? b)) * 64 + (← value? c)
    -- Here two bits are left.
    if group % 4 = 0 then some [.ofNat (group / 1024), .ofNat (group / 4 % 256)] else none
  | a :: b :: c :: d :: rest => do
    let group := (((← value? a) * 64 + (← value? b)) * 64 + (← value? c)) * 64 + (← value? d)
    let bytes ← read? rest
    return .ofNat (group / 65536) :: .ofNat (group / 256 % 256) :: .ofNat (group % 256) :: bytes
  | _ => none

end Warrant.Base64
