import DemoPages.Text.Quoted

/-!
# Reading UTF-8

Bytes are read one at a time; between two bytes of one character the reader remembers what it
waits for. The first byte that fits nowhere makes a `Fault`, which names the bytes read for the
unfinished character.
-/

namespace DemoPages.Text.Utf8

/-- Why bytes are no text. -/
inductive Flaw where
  /-- No character begins with this byte. -/
  | badStart
  /-- The character begun before does not go on with the next byte. -/
  | badContinuation
  /-- The bytes end inside a character. -/
  | cut
  deriving DecidableEq, Repr

/-- A flaw, with the place and number of the bytes that show it and the first of them. -/
structure Fault where
  position : Nat
  count : Nat
  byte : UInt8
  flaw : Flaw
  deriving DecidableEq, Repr

/-- The words for a flaw. -/
def Flaw.message : Flaw → String
  | .badStart => "invalid start byte"
  | .badContinuation => "invalid continuation byte"
  | .cut => "unexpected end of data"

/-- The words for a fault. -/
def Fault.message (f : Fault) : String :=
  "'utf-8' codec can't decode " ++
    (if f.count = 1 then
      "byte 0x" ++ String.ofList (hex 2 f.byte.toNat) ++ " in position " ++ Nat.repr f.position
    else
      "bytes in position " ++ Nat.repr f.position ++ "-" ++ Nat.repr (f.position + f.count - 1)) ++
    ": " ++ f.flaw.message

/-- A character begun but not finished: where and with which byte it began, how many bytes were
read and how many are missing, the number so far, and between which bounds the next byte lies. -/
structure Pending where
  position : Nat
  byte : UInt8
  seen : Nat
  missing : Nat
  value : Nat
  least : UInt8 := 0x80
  greatest : UInt8 := 0xBF

/-- What the first byte of a character says: the character, or what has to follow. -/
def start (position : Nat) (b : UInt8) : Option (Char ⊕ Pending) :=
  let n := b.toNat
  if n < 0x80 then some (.inl (Char.ofNat n))
  else if n < 0xC2 then none
  else if n < 0xE0 then some (.inr { position, byte := b, seen := 1, missing := 1, value := n % 32 })
  else if n < 0xF0 then
    some (.inr
      { position, byte := b, seen := 1, missing := 2, value := n % 16
        least := if n = 0xE0 then 0xA0 else 0x80
        greatest := if n = 0xED then 0x9F else 0xBF })
  else if n < 0xF5 then
    some (.inr
      { position, byte := b, seen := 1, missing := 3, value := n % 8
        least := if n = 0xF0 then 0x90 else 0x80
        greatest := if n = 0xF4 then 0x8F else 0xBF })
  else none

/-- Reads on from `position`, inside the character `pending` if there is one. -/
def decodeFrom (position : Nat) : Option Pending → List UInt8 → Except Fault (List Char)
  | none, [] => .ok []
  | some p, [] => .error ⟨p.position, p.seen, p.byte, .cut⟩
  | none, b :: bs =>
    match start position b with
    | none => .error ⟨position, 1, b, .badStart⟩
    | some (.inl c) => (decodeFrom (position + 1) none bs).map (c :: ·)
    | some (.inr p) => decodeFrom (position + 1) (some p) bs
  | some p, b :: bs =>
    if p.least ≤ b ∧ b ≤ p.greatest then
      let value := p.value * 64 + b.toNat % 64
      if p.missing ≤ 1 then (decodeFrom (position + 1) none bs).map (Char.ofNat value :: ·)
      else
        decodeFrom (position + 1)
          (some { p with
            seen := p.seen + 1, missing := p.missing - 1, value
            least := 0x80, greatest := 0xBF }) bs
    else .error ⟨p.position, p.seen, p.byte, .badContinuation⟩

/-- The text of some bytes. -/
def decode (bytes : List UInt8) : Except Fault String :=
  (decodeFrom 0 none bytes).map String.ofList

end DemoPages.Text.Utf8
