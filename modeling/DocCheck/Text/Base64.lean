/-!
# Bytes in base 64

Four characters of an alphabet of 64 stand for three bytes. Other characters
are passed over; an equals sign that completes four characters ends the text.
-/
namespace DocCheck.Text.Base64

/-- The value of a character of the alphabet. -/
def valueOf? (c : Char) : Option Nat :=
  if 'A' ≤ c && c ≤ 'Z' then some (c.toNat - 0x41)
  else if 'a' ≤ c && c ≤ 'z' then some (c.toNat - 0x47)
  else if '0' ≤ c && c ≤ '9' then some (c.toNat + 4)
  else if c == '+' then some 62
  else if c == '/' then some 63
  else none

/-- The bytes of a text. `done` characters of a group were read, whose last one left some bits
that are not part of a byte yet; `pads` equals signs came behind them. -/
def decodeFrom (done left pads : Nat) : List Char → Option (List UInt8)
  | [] => if done = 0 then some [] else none
  | c :: r =>
    if c == '=' then
      if 2 ≤ done then
        if 4 ≤ done + pads + 1 then some [] else decodeFrom done left (pads + 1) r
      else decodeFrom done left pads r
    else
      match valueOf? c with
      | none => decodeFrom done left pads r
      | some v =>
        match done with
        | 0 => decodeFrom 1 v 0 r
        | 1 => (decodeFrom 2 (v % 16) 0 r).map (UInt8.ofNat (left * 4 + v / 16) :: ·)
        | 2 => (decodeFrom 3 (v % 4) 0 r).map (UInt8.ofNat (left * 16 + v / 4) :: ·)
        | _ => (decodeFrom 0 0 0 r).map (UInt8.ofNat (left * 64 + v) :: ·)

/-- The bytes of a text; none if its last group is not complete. -/
def decode (cs : List Char) : Option (List UInt8) := decodeFrom 0 0 0 cs

end DocCheck.Text.Base64
