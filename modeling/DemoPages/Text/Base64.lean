/-!
# Bytes as text

Four characters stand for three bytes, six bits each. Characters of no value are passed over. A
group that is cut short ends the bytes, if marks of padding fill it up.
-/

namespace DemoPages.Text.Base64

/-- The six bits that a character stands for. -/
def value? (c : Char) : Option Nat :=
  if 'A' ≤ c ∧ c ≤ 'Z' then some (c.toNat - 0x41)
  else if 'a' ≤ c ∧ c ≤ 'z' then some (c.toNat - 0x61 + 26)
  else if '0' ≤ c ∧ c ≤ '9' then some (c.toNat - 0x30 + 52)
  else if c = '+' then some 62
  else if c = '/' then some 63
  else none

/-- The whole bytes of a group of at most four values. -/
def bytesOf : List Nat → List UInt8
  | a :: b :: rest =>
    .ofNat (4 * a + b / 16) ::
      match rest with
      | [] => []
      | c :: rest => .ofNat (16 * (b % 16) + c / 4) ::
        match rest with
        | [] => []
        | d :: _ => [.ofNat (64 * (c % 4) + d)]
  | _ => []

/-- Reads on inside a group that began with some values, behind which stand `pads` marks. -/
def decodeFrom (group : List Nat) (pads : Nat) : List Char → Option (List UInt8)
  | [] => if group = [] then some [] else none
  | '=' :: s =>
    if group.length < 2 then decodeFrom group pads s
    else if 4 ≤ group.length + pads + 1 then some (bytesOf group)
    else decodeFrom group (pads + 1) s
  | c :: s =>
    match value? c with
    | none => decodeFrom group pads s
    | some v =>
      if group.length < 3 then decodeFrom (group ++ [v]) 0 s
      else (decodeFrom [] 0 s).map (bytesOf (group ++ [v]) ++ ·)

/-- The bytes that a text of ASCII characters stands for. -/
def decode (s : List Char) : Option (List UInt8) :=
  if s.all fun c => c.toNat < 0x80 then decodeFrom [] 0 s else none

example : decode "dn\nVl_IQ==".toList = some [0x76, 0x75, 0x65, 0x21] := by decide

end DemoPages.Text.Base64
