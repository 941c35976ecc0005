/-!
# Bytes as text

Six bits are written as one of sixty-four characters, so that four characters make three bytes. A
last group of two or three characters is filled up with padding, and what follows that is not read;
characters of no meaning are skipped everywhere.
-/

namespace DalSchema.Yaml.Base64

def bits? (c : Char) : Option Nat :=
  if 'A' ≤ c && c ≤ 'Z' then some (c.toNat - 'A'.toNat)
  else if 'a' ≤ c && c ≤ 'z' then some (c.toNat - 'a'.toNat + 26)
  else if '0' ≤ c && c ≤ '9' then some (c.toNat - '0'.toNat + 52)
  else if c == '+' then some 62
  else if c == '/' then some 63
  else none

def groupBytes : List Nat → List UInt8
  | [a, b] => [UInt8.ofNat (a * 4 + b / 16)]
  | [a, b, c] => [UInt8.ofNat (a * 4 + b / 16), UInt8.ofNat (b % 16 * 16 + c / 4)]
  | [a, b, c, d] =>
    [UInt8.ofNat (a * 4 + b / 16), UInt8.ofNat (b % 16 * 16 + c / 4),
      UInt8.ofNat (c % 4 * 64 + d)]
  | _ => []

/-- Reads on in a group of which some characters have been read, and after them some padding. -/
def decodeFrom (group : List Nat) (padding : Nat) : List Char → Option (List UInt8)
  | [] => if group.isEmpty then some [] else none
  | c :: rest =>
    if c == '=' then
      if 2 ≤ group.length then
        if 4 ≤ group.length + padding + 1 then some (groupBytes group)
        else decodeFrom group (padding + 1) rest
      else decodeFrom group padding rest
    else
      match bits? c with
      | none => decodeFrom group padding rest
      | some n =>
        let group := group ++ [n]
        if group.length == 4 then (decodeFrom [] 0 rest).map (groupBytes group ++ ·)
        else decodeFrom group 0 rest

def decode (cs : List Char) : Option (List UInt8) := decodeFrom [] 0 cs

end DalSchema.Yaml.Base64
