import Mathlib.Data.List.Basic
import DemoPages.Text.Percent
import DemoPages.Text.Utf8

/-!
# Percent encoding loses nothing

A text is encoded character by character: an unreserved one stands for itself, every other one for
the bytes it has in UTF-8, each written as a triplet (`toList_encode`). What is written so can be
read in one way: `decode?` gives the bytes of the text (`decode?_encode`), and the reader of UTF-8
the text itself (`Utf8.decode_utf8`). For the latter, the bytes of one character lead the reader
from the end of a character to the end of the next one (`Utf8.decodeFrom_utf8EncodeChar`).
-/

namespace DemoPages.Text

theorem toNat_ofNat_byte {n : Nat} (h : n < 256) : (UInt8.ofNat n).toNat = n :=
  UInt8.toNat_ofNat_of_lt' h

/-! ### Reading UTF-8 -/

namespace Utf8

variable {position n : Nat} {p : Pending} {bs : List UInt8}

/-- The bytes that a character may go on with, by what they tell of it. -/
theorem fits_byte (hn : n < 64) (least : p.least.toNat ≤ n + 128)
    (greatest : n + 128 ≤ p.greatest.toNat) :
    p.least ≤ UInt8.ofNat (n + 128) ∧ UInt8.ofNat (n + 128) ≤ p.greatest := by
  rw [UInt8.le_iff_toNat_le, UInt8.le_iff_toNat_le, toNat_ofNat_byte (by omega)]
  exact ⟨least, greatest⟩

/-- A byte that goes on with a character, but does not end it. -/
theorem decodeFrom_inner (hn : n < 64) (least : p.least.toNat ≤ n + 128)
    (greatest : n + 128 ≤ p.greatest.toNat) (more : 1 < p.missing) :
    decodeFrom position (some p) (UInt8.ofNat (n + 128) :: bs) =
      decodeFrom (position + 1)
        (some { p with
          seen := p.seen + 1, missing := p.missing - 1, value := p.value * 64 + n
          least := 0x80, greatest := 0xBF }) bs := by
  have hbyte : (UInt8.ofNat (n + 128)).toNat = n + 128 := toNat_ofNat_byte (by omega)
  have hvalue : (n + 128) % 64 = n := by omega
  simp only [decodeFrom, if_pos (fits_byte hn least greatest), if_neg (Nat.not_le.2 more), hbyte,
    hvalue]

/-- A byte that ends a character. -/
theorem decodeFrom_last (hn : n < 64) (least : p.least.toNat ≤ n + 128)
    (greatest : n + 128 ≤ p.greatest.toNat) (last : p.missing = 1) :
    decodeFrom position (some p) (UInt8.ofNat (n + 128) :: bs) =
      (decodeFrom (position + 1) none bs).map (Char.ofNat (p.value * 64 + n) :: ·) := by
  have hbyte : (UInt8.ofNat (n + 128)).toNat = n + 128 := toNat_ofNat_byte (by omega)
  have hvalue : (n + 128) % 64 = n := by omega
  simp only [decodeFrom, if_pos (fits_byte hn least greatest), if_pos (Nat.le_of_eq last), hbyte,
    hvalue]

/-! What the first byte of a character says, by how many bytes the character has. -/

theorem start_of_two (least : 2 ≤ n) (greatest : n < 32) :
    start position (UInt8.ofNat (n + 192)) =
      some (.inr
        { position, byte := UInt8.ofNat (n + 192), seen := 1, missing := 1, value := n }) := by
  have hbyte : (UInt8.ofNat (n + 192)).toNat = n + 192 := toNat_ofNat_byte (by omega)
  have hvalue : (n + 192) % 32 = n := by omega
  simp only [start, hbyte]
  rw [if_neg (by omega), if_neg (by omega), if_pos (by omega), hvalue]

theorem start_of_three (h : n < 16) :
    start position (UInt8.ofNat (n + 224)) =
      some (.inr
        { position, byte := UInt8.ofNat (n + 224), seen := 1, missing := 2, value := n
          least := if n = 0 then 0xA0 else 0x80
          greatest := if n = 13 then 0x9F else 0xBF }) := by
  have hbyte : (UInt8.ofNat (n + 224)).toNat = n + 224 := toNat_ofNat_byte (by omega)
  have hvalue : (n + 224) % 16 = n := by omega
  have hleast : n + 224 = 0xE0 ↔ n = 0 := by omega
  have hgreatest : n + 224 = 0xED ↔ n = 13 := by omega
  simp only [start, hbyte]
  rw [if_neg (by omega), if_neg (by omega), if_neg (by omega), if_pos (by omega), hvalue]
  simp only [hleast, hgreatest]

theorem start_of_four (h : n < 5) :
    start position (UInt8.ofNat (n + 240)) =
      some (.inr
        { position, byte := UInt8.ofNat (n + 240), seen := 1, missing := 3, value := n
          least := if n = 0 then 0x90 else 0x80
          greatest := if n = 4 then 0x8F else 0xBF }) := by
  have hbyte : (UInt8.ofNat (n + 240)).toNat = n + 240 := toNat_ofNat_byte (by omega)
  have hvalue : (n + 240) % 8 = n := by omega
  have hleast : n + 240 = 0xF0 ↔ n = 0 := by omega
  have hgreatest : n + 240 = 0xF4 ↔ n = 4 := by omega
  simp only [start, hbyte]
  rw [if_neg (by omega), if_neg (by omega), if_neg (by omega), if_neg (by omega),
    if_pos (by omega), hvalue]
  simp only [hleast, hgreatest]

/-- **The bytes of a character are read as this character**, whatever follows. -/
theorem decodeFrom_utf8EncodeChar (c : Char) :
    decodeFrom position none (String.utf8EncodeChar c ++ bs) =
      (decodeFrom (position + (String.utf8EncodeChar c).length) none bs).map (c :: ·) := by
  obtain ⟨v, hv⟩ : ∃ v, c.val.toNat = v := ⟨_, rfl⟩
  have hback : Char.ofNat v = c := hv ▸ Char.ofNat_toNat c
  -- The tighter bounds of the second byte leave out what has shorter forms, and the surrogates.
  have hvalid : v < 0xD800 ∨ 0xDFFF < v ∧ v < 0x110000 := hv ▸ c.valid
  simp only [String.utf8EncodeChar, hv]
  split
  case isTrue h1 =>
    have hbyte : (UInt8.ofNat v).toNat = v := toNat_ofNat_byte (by omega)
    simp only [List.cons_append, List.nil_append, decodeFrom, start, hbyte, hback,
      if_pos (show v < 0x80 by omega)]
    rfl
  case isFalse h1 =>
  split
  case isTrue h2 =>
    have hfirst : v / 64 % 32 = v / 64 := by omega
    have hwhole : v / 64 * 64 + v % 64 = v := by omega
    rw [hfirst, List.cons_append, decodeFrom, start_of_two (by omega) (by omega)]
    simp only [List.cons_append, List.nil_append]
    rw [decodeFrom_last (by omega) (by simp) (by simp; omega) rfl, hwhole, hback]
    rfl
  case isFalse h2 =>
  split
  case isTrue h3 =>
    have hfirst : v / 4096 % 16 = v / 4096 := by omega
    have hwhole : (v / 4096 * 64 + v / 64 % 64) * 64 + v % 64 = v := by omega
    rw [hfirst, List.cons_append, decodeFrom, start_of_three (by omega)]
    simp only [List.cons_append, List.nil_append]
    rw [decodeFrom_inner (by omega) ?least ?greatest (by simp),
      decodeFrom_last (by omega) (by simp) (by simp; omega) rfl]
    case least =>
      dsimp only
      split <;> simp
      omega
    case greatest =>
      dsimp only
      split <;> simp <;> omega
    simp only [hwhole, hback]
    rfl
  case isFalse h3 =>
    have hfirst : v / 262144 % 8 = v / 262144 := by omega
    have hwhole : ((v / 262144 * 64 + v / 4096 % 64) * 64 + v / 64 % 64) * 64 + v % 64 = v := by
      omega
    rw [hfirst, List.cons_append, decodeFrom, start_of_four (by omega)]
    simp only [List.cons_append, List.nil_append]
    rw [decodeFrom_inner (by omega) ?least ?greatest (by simp),
      decodeFrom_inner (by omega) (by simp) (by simp; omega) (by simp),
      decodeFrom_last (by omega) (by simp) (by simp; omega) rfl]
    case least =>
      dsimp only
      split <;> simp
      omega
    case greatest =>
      dsimp only
      split <;> simp <;> omega
    simp only [hwhole, hback]
    rfl

/-- **A text is read from its bytes.** -/
theorem decode_utf8 (s : String) : decode (Percent.utf8 s.toList) = .ok s := by
  have hfrom (cs : List Char) (position : Nat) :
      decodeFrom position none (Percent.utf8 cs) = .ok cs := by
    induction cs generalizing position with
    | nil => rfl
    | cons c cs ih =>
      rw [Percent.utf8, List.flatMap_cons, decodeFrom_utf8EncodeChar, ← Percent.utf8, ih]
      rfl
  rw [decode, hfrom]
  exact congrArg _ (String.ofList_toList)

end Utf8

/-! ### Percent encoding -/

namespace Percent

/-- A character that is written as it is: a letter or digit of ASCII, or one of nine signs. -/
def IsUnreserved (c : Char) : Prop := c.isAlphanum = true ∨ c ∈ "-_.!~*'()".toList

instance : DecidablePred IsUnreserved := fun _ => inferInstanceAs (Decidable (_ ∨ _))

/-- A hexadecimal digit in upper case. -/
def IsUpperHex (c : Char) : Prop := c ∈ "0123456789ABCDEF".toList

instance : DecidablePred IsUpperHex := fun _ => inferInstanceAs (Decidable (_ ∈ _))

/-- A text of unreserved characters and triplets. -/
inductive Escaped : List Char → Prop
  | nil : Escaped []
  | unreserved {c : Char} {s : List Char} : IsUnreserved c → Escaped s → Escaped (c :: s)
  | triplet {a b : Char} {s : List Char} :
      IsUpperHex a → IsUpperHex b → Escaped s → Escaped ('%' :: a :: b :: s)

/-- The triplet of a byte. -/
def triplet (b : UInt8) : List Char := ['%', hexDigit (b.toNat / 16), hexDigit (b.toNat % 16)]

/-- A character, encoded. -/
def encodeChar (c : Char) : List Char :=
  if IsUnreserved c then [c] else (String.utf8EncodeChar c).flatMap triplet

/-- The number of a hexadecimal digit, in either case. -/
def hexValue? (c : Char) : Option Nat :=
  if '0' ≤ c ∧ c ≤ '9' then some (c.toNat - 0x30)
  else if 'A' ≤ c ∧ c ≤ 'F' then some (c.toNat - 0x41 + 10)
  else if 'a' ≤ c ∧ c ≤ 'f' then some (c.toNat - 0x61 + 10)
  else none

/-- The bytes that a text stands for, where a triplet is one byte and every other character its
bytes in UTF-8. A percent sign that begins no triplet is refused. -/
def decode? : List Char → Option (List UInt8)
  | [] => some []
  | '%' :: a :: b :: s =>
    match hexValue? a, hexValue? b with
    | some high, some low => (decode? s).map (UInt8.ofNat (16 * high + low) :: ·)
    | _, _ => none
  | c :: s => if c = '%' then none else (decode? s).map (String.utf8EncodeChar c ++ ·)

theorem isUnreserved_of_isUpperHex {c : Char} (h : IsUpperHex c) : IsUnreserved c := by
  have hdigits : "0123456789ABCDEF".toList.all (IsUnreserved ·) = true := by decide
  exact of_decide_eq_true (List.all_eq_true.1 hdigits c h)

theorem mem_of_escaped {c : Char} {s : List Char} (h : Escaped s) (hc : c ∈ s) :
    IsUnreserved c ∨ c = '%' := by
  induction h with
  | nil => cases hc
  | unreserved hkept _ ih =>
    rcases List.mem_cons.1 hc with rfl | hc
    · exact Or.inl hkept
    · exact ih hc
  | triplet ha hb _ ih =>
    simp only [List.mem_cons] at hc
    rcases hc with rfl | rfl | rfl | hc
    · exact Or.inr rfl
    · exact Or.inl (isUnreserved_of_isUpperHex ha)
    · exact Or.inl (isUnreserved_of_isUpperHex hb)
    · exact ih hc

/-! What holds of the 256 bytes, and of the 16 digits. -/

theorem forall_byte {P : UInt8 → Prop} (h : ∀ n < 256, P (UInt8.ofNat n)) (b : UInt8) : P b := by
  have hb := h b.toNat b.toNat_lt
  rwa [UInt8.ofNat_toNat] at hb

theorem isKept_iff : ∀ b : UInt8,
    isKept b = true ↔ b.toNat < 128 ∧ IsUnreserved (Char.ofNat b.toNat) :=
  forall_byte (by decide +kernel)

theorem isUpperHex_hexDigit : ∀ n < 16, IsUpperHex (hexDigit n) := by decide

theorem hexValue?_hexDigit : ∀ n < 16, hexValue? (hexDigit n) = some n := by decide

theorem escaped_triplet (b : UInt8) {s : List Char} (h : Escaped s) : Escaped (triplet b ++ s) :=
  .triplet (isUpperHex_hexDigit _ (by have := b.toNat_lt; omega))
    (isUpperHex_hexDigit _ (Nat.mod_lt _ (by decide))) h

theorem decode?_triplet (b : UInt8) (s : List Char) :
    decode? (triplet b ++ s) = (decode? s).map (b :: ·) := by
  have hb := b.toNat_lt
  have hhigh := hexValue?_hexDigit (b.toNat / 16) (by omega)
  have hlow := hexValue?_hexDigit (b.toNat % 16) (Nat.mod_lt _ (by decide))
  have hwhole : 16 * (b.toNat / 16) + b.toNat % 16 = b.toNat := Nat.div_add_mod _ _
  simp only [triplet, List.cons_append, List.nil_append, decode?, hhigh, hlow, hwhole,
    UInt8.ofNat_toNat]

/-! The bytes of a character are kept if it is unreserved, and written as triplets otherwise. -/

theorem utf8EncodeChar_of_lt {c : Char} (h : c.toNat < 128) :
    String.utf8EncodeChar c = [UInt8.ofNat c.toNat] :=
  if_pos (Nat.le_of_lt_succ h)

theorem le_of_mem_utf8EncodeChar {c : Char} (h : 128 ≤ c.toNat) {b : UInt8}
    (hb : b ∈ String.utf8EncodeChar c) : 128 ≤ b.toNat := by
  have hv : ¬ c.val.toNat ≤ 127 := Nat.not_le.2 h
  have hlarge (n m : Nat) (hm : 128 ≤ m) (hn : n + m < 256) :
      128 ≤ (UInt8.ofNat (n + m)).toNat := by
    rw [toNat_ofNat_byte hn]
    omega
  simp only [String.utf8EncodeChar, if_neg hv] at hb
  split at hb
  · simp only [List.mem_cons, List.not_mem_nil, or_false] at hb
    rcases hb with rfl | rfl
    · exact hlarge _ 192 (by omega) (by omega)
    · exact hlarge _ 128 (by omega) (by omega)
  · split at hb
    · simp only [List.mem_cons, List.not_mem_nil, or_false] at hb
      rcases hb with rfl | rfl | rfl
      · exact hlarge _ 224 (by omega) (by omega)
      · exact hlarge _ 128 (by omega) (by omega)
      · exact hlarge _ 128 (by omega) (by omega)
    · simp only [List.mem_cons, List.not_mem_nil, or_false] at hb
      rcases hb with rfl | rfl | rfl | rfl
      · exact hlarge _ 240 (by omega) (by omega)
      · exact hlarge _ 128 (by omega) (by omega)
      · exact hlarge _ 128 (by omega) (by omega)
      · exact hlarge _ 128 (by omega) (by omega)

theorem toNat_lt_of_isUnreserved {c : Char} (h : IsUnreserved c) : c.toNat < 128 := by
  have hbelow (high : Char) (hhigh : high.toNat < 128) (hle : c.val ≤ high.val) : c.toNat < 128 :=
    Nat.lt_of_le_of_lt (UInt32.le_iff_toNat_le.1 hle) hhigh
  rcases h with halphanum | hsign
  · rcases Bool.or_eq_true_iff.1 halphanum with halpha | hdigit
    · rcases Bool.or_eq_true_iff.1 halpha with hupper | hlower
      · exact hbelow 'Z' (by decide) (of_decide_eq_true hupper).2
      · exact hbelow 'z' (by decide) (of_decide_eq_true (Bool.and_eq_true_iff.1 hlower).2)
    · exact hbelow '9' (by decide) (of_decide_eq_true (Bool.and_eq_true_iff.1 hdigit).2)
  · have hsigns : "-_.!~*'()".toList.all (·.toNat < 128) = true := by decide
    exact of_decide_eq_true (List.all_eq_true.1 hsigns c hsign)

theorem encodeByte_of_isUnreserved {c : Char} (h : IsUnreserved c) :
    (String.utf8EncodeChar c).flatMap encodeByte = [c] := by
  have hc := toNat_lt_of_isUnreserved h
  have hbyte : (UInt8.ofNat c.toNat).toNat = c.toNat := toNat_ofNat_byte (by omega)
  have hkept : isKept (UInt8.ofNat c.toNat) = true := by
    rw [isKept_iff, hbyte, Char.ofNat_toNat]
    exact ⟨hc, h⟩
  rw [utf8EncodeChar_of_lt hc, List.flatMap_singleton, encodeByte, if_pos hkept, hbyte,
    Char.ofNat_toNat]

theorem encodeByte_of_not_isUnreserved {c : Char} (h : ¬ IsUnreserved c) {b : UInt8}
    (hb : b ∈ String.utf8EncodeChar c) : encodeByte b = triplet b := by
  refine if_neg fun hkept => ?_
  obtain ⟨hlt, hunreserved⟩ := (isKept_iff b).1 hkept
  by_cases hc : c.toNat < 128
  · rw [utf8EncodeChar_of_lt hc, List.mem_singleton] at hb
    rw [hb, toNat_ofNat_byte (by omega), Char.ofNat_toNat] at hunreserved
    exact h hunreserved
  · have hle := le_of_mem_utf8EncodeChar (by omega) hb
    omega

theorem flatMap_encodeByte (c : Char) :
    (String.utf8EncodeChar c).flatMap encodeByte = encodeChar c := by
  by_cases h : IsUnreserved c
  · rw [encodeByte_of_isUnreserved h, encodeChar, if_pos h]
  · rw [encodeChar, if_neg h]
    exact List.flatMap_congr fun b hb => encodeByte_of_not_isUnreserved h hb

/-- **A text is encoded character by character.** -/
theorem toList_encode (s : String) : (encode s).toList = s.toList.flatMap encodeChar := by
  rw [encode, String.toList_ofList, utf8, List.flatMap_assoc]
  exact List.flatMap_congr fun c _ => flatMap_encodeByte c

/-! What is written for a character is escaped, and stands for its bytes. -/

theorem escaped_encodeChar (c : Char) {s : List Char} (h : Escaped s) :
    Escaped (encodeChar c ++ s) := by
  unfold encodeChar
  split
  case isTrue hc => exact .unreserved hc h
  case isFalse hc =>
    induction String.utf8EncodeChar c with
    | nil => exact h
    | cons b bs ih =>
      rw [List.flatMap_cons, List.append_assoc]
      exact escaped_triplet b ih

theorem decode?_encodeChar (c : Char) (s : List Char) :
    decode? (encodeChar c ++ s) = (decode? s).map (String.utf8EncodeChar c ++ ·) := by
  unfold encodeChar
  split
  case isTrue hc =>
    have hpercent : c ≠ '%' := by
      rintro rfl
      exact absurd hc (by decide)
    rw [List.singleton_append, decode?.eq_3 c s fun _ _ _ h _ => hpercent h, if_neg hpercent]
  case isFalse hc =>
    induction String.utf8EncodeChar c with
    | nil => simp
    | cons b bs ih =>
      rw [List.flatMap_cons, List.append_assoc, decode?_triplet, ih, Option.map_map]
      rfl

theorem escaped_encode (s : String) : Escaped (encode s).toList := by
  rw [toList_encode]
  induction s.toList with
  | nil => exact .nil
  | cons c cs ih =>
    rw [List.flatMap_cons]
    exact escaped_encodeChar c ih

/-- **The bytes of a text are read off its encoding.** -/
theorem decode?_encode (s : String) : decode? (encode s).toList = some (utf8 s.toList) := by
  rw [toList_encode]
  induction s.toList with
  | nil => rfl
  | cons c cs ih =>
    rw [List.flatMap_cons, decode?_encodeChar, ih]
    rfl

theorem encode_injective : Function.Injective encode := by
  intro s s' h
  have hbytes := decode?_encode s
  rw [h, decode?_encode s', Option.some_inj] at hbytes
  have hread := Utf8.decode_utf8 s'
  rw [hbytes, Utf8.decode_utf8 s] at hread
  exact Except.ok.inj hread

end Percent

end DemoPages.Text
