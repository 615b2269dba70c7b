import DemoPages.Fault
import DemoPages.Text.Base64
import DemoPages.Text.Blank
import DemoPages.Text.Pieces

/-!
# Values of configuration files

A value is a text, another scalar, a sequence, a mapping or a set. Of the other scalars only those
things are kept that a program can ask before it uses them: which kind they are of, the bytes of
one that is bytes, and whether they count as nothing.

A scalar without quotes has the type that `typeOf` tells from its words; `ofScalar` reads the words
as a value of their type, whether they look like one or the type was written in front of them.
-/

namespace DemoPages

/-- A scalar that is no text. -/
inductive Yaml.Scalar where
  | null
  | truth (value : Bool)
  | number (isZero : Bool)
  | date
  | bytes (value : List UInt8)
  /-- A string that is no text, since it has half a character in it. -/
  | broken
  /-- The key that merges another mapping in. -/
  | merge
  /-- The key that names the value of a mapping. It is no value itself. -/
  | own (words : String)
  deriving DecidableEq, Repr

/-- A value of a configuration file. -/
inductive Yaml where
  | text (value : String)
  | scalar (value : Yaml.Scalar)
  | sequence (items : List Yaml)
  | mapping (entries : List (Yaml × Yaml))
  /-- A set; only the keys of its entries count. -/
  | members (entries : List (Yaml × Yaml))
  deriving Repr, Inhabited

namespace Yaml

/-- Why a text is no value. -/
inductive Fault where
  | malformed
  /-- A date that is not in the calendar, in words. -/
  | noDate (words : String)
  /-- What should be a date and does not look like one. -/
  | noMoment
  /-- What should be yes or no and is neither. -/
  | noTruth (words : String)
  /-- What should be a number and is none, in words. -/
  | noNumber (words : String)
  /-- What should be a number and has no digit at all. -/
  | emptyNumber
  /-- A number with too many digits. -/
  | tooManyDigits (count : Nat)
  /-- The number of no character. -/
  | noCharacter
  /-- A number beyond those that are asked for a character. -/
  | hugeCharacter
  /-- Too many sixtieths in front of a fraction. -/
  | hugeFraction
  deriving DecidableEq, Repr

/-- The words for a fault. -/
def Fault.message : Fault → String
  | .malformed => "the text is malformed"
  | .noDate words => words
  | .noMoment => "this is no date"
  | .noTruth words => Text.quoted words
  | .noNumber words => words
  | .emptyNumber => "string index out of range"
  | .tooManyDigits count => (DemoPages.Fault.tooManyDigits count).message
  | .noCharacter => "chr() arg not in range(0x110000)"
  | .hugeCharacter => "signed integer is greater than maximum"
  | .hugeFraction => "int too large to convert to float"

/-- Is a fault a bad value, rather than one that the reader runs into unprepared? -/
def Fault.isBadValue : Fault → Bool
  | .noMoment => false
  | .noTruth _ => false
  | .emptyNumber => false
  | .hugeCharacter => false
  | .hugeFraction => false
  | _ => true

/-- Does a value count as nothing? -/
def isNothing : Yaml → Bool
  | .text s => s = ""
  | .scalar .null => true
  | .scalar (.truth b) => !b
  | .scalar (.number z) => z
  | .scalar (.bytes bs) => bs.isEmpty
  | .scalar _ => false
  | .sequence items => items.isEmpty
  | .mapping entries => entries.isEmpty
  | .members entries => entries.isEmpty

/-- The text of a value that is one. -/
def text? : Yaml → Option String
  | .text s => some s
  | _ => none

/-- Is this the key that merges another mapping in? -/
def isMerge : Yaml → Bool
  | .scalar .merge => true
  | _ => false

/-- Can this stand where a value is wanted? Two keys cannot. -/
def isValue : Yaml → Bool
  | .scalar .merge => false
  | .scalar (.own _) => false
  | _ => true

/-- Is this a sequence, a mapping or a set? -/
def isCollection : Yaml → Bool
  | .sequence _ => true
  | .mapping _ => true
  | .members _ => true
  | _ => false

/-! ## Plain scalars -/

/-- A decimal digit of ASCII. -/
def isDigit (c : Char) : Bool := '0' ≤ c && c ≤ '9'

/-- A decimal digit or a low line. -/
def isSpacedDigit (c : Char) : Bool := isDigit c || c == '_'

/-- A number without its sign. -/
def unsigned : List Char → List Char
  | '+' :: s => s
  | '-' :: s => s
  | s => s

/-- Sixtieths: a colon and one or two digits, at most 59, once or more. -/
def isSixtieths (s : List Char) : Bool :=
  match Text.split ':' s with
  | [] :: p :: ps =>
    (p :: ps).all fun q =>
      match q with
      | [a] => isDigit a
      | [a, b] => '0' ≤ a && a ≤ '5' && isDigit b
      | _ => false
  | _ => false

/-- Is this the exponent of a number, or nothing? -/
def isExponent : List Char → Bool
  | [] => true
  | e :: sign :: d :: ds =>
    (e == 'e' || e == 'E') && (sign == '+' || sign == '-') && (d :: ds).all isDigit
  | _ => false

/-- Does a numeral hold a digit first, and then only digits and low lines? -/
def isNumeral : List Char → Bool
  | d :: ds => isDigit d && ds.all isSpacedDigit
  | [] => false

/-- Does this look like a number with a fraction? -/
def isFraction (s : List Char) : Bool :=
  let u := unsigned s
  let whole := u.takeWhile (· ≠ '.')
  match u.dropWhile (· ≠ '.') with
  | '.' :: rest =>
    let digits := rest.takeWhile isSpacedDigit
    let exponent := rest.dropWhile isSpacedDigit
    if [".inf", ".Inf", ".INF"].any fun w => w.toList = u then true
    else if [".nan", ".NaN", ".NAN"].any fun w => w.toList = s then true
    else if whole = [] then u = s && isNumeral digits && isExponent exponent
    else if isNumeral whole ∧ isExponent exponent then true
    else
      let first := whole.takeWhile (· ≠ ':')
      isNumeral first && isSixtieths (whole.dropWhile (· ≠ ':')) && exponent.isEmpty
  | _ => false

/-- Does this look like a whole number in one of four notations? -/
def isWhole (s : List Char) : Bool :=
  let isIn (digits : String) (r : List Char) : Bool := r ≠ [] && r.all fun c => digits.toList.contains c
  match unsigned s with
  | '0' :: 'b' :: r => isIn "01_" r
  | '0' :: 'x' :: r => isIn "0123456789abcdefABCDEF_" r
  | '0' :: r => r = [] || isIn "01234567_" r
  | d :: r =>
    let rest := r.dropWhile isSpacedDigit
    isDigit d && (rest = [] || isSixtieths rest)
  | [] => false

/-! ## Numbers -/

/-- The value of a digit: one of any script, or a letter. -/
def digit? (c : Char) : Option Nat :=
  let letter := c.toLower
  if 'a' ≤ letter ∧ letter ≤ 'z' then some (letter.toNat - 0x61 + 10) else Text.digit? c

/-- The letters that mark a base behind a zero. -/
def baseMarks : List (Nat × Char) := [(2, 'b'), (8, 'o'), (16, 'x')]

/-- The digits of a numeral, without blanks, sign and the mark of its base. -/
def digitsOf (base : Nat) (s : List Char) : List Char :=
  let u := unsigned (Text.trim s)
  match u with
  | '0' :: mark :: r => if baseMarks.lookup base = some mark.toLower then r else u
  | _ => u

/-- The whole number of a numeral. -/
def wholeIn (base : Nat) (s : List Char) : Except Fault Int :=
  let ds := digitsOf base s
  let value? := ds.foldlM (fun (n : Nat) c => ((digit? c).filter (· < base)).map (base * n + ·)) 0
  match ds, value? with
  | _ :: _, some n =>
    if base = 10 ∧ Text.maxDigits < ds.length then .error (.tooManyDigits ds.length)
    else .ok (if (Text.trim s).head? = some '-' then -n else n)
  | _, _ =>
    .error (.noNumber ("invalid literal for int() with base " ++ Nat.repr base ++ ": " ++
      Text.quoted (String.ofList s)))

/-- The whole number of a scalar, but for its sign: low lines do not count, and colons part
sixtieths. -/
def wholeValue (s : List Char) : Except Fault Int :=
  match unsigned (s.filter (· ≠ '_')) with
  | [] => .error .emptyNumber
  | '0' :: 'b' :: r => wholeIn 2 r
  | '0' :: 'x' :: r => wholeIn 16 r
  | '0' :: r => wholeIn 8 ('0' :: r)
  | v => (Text.split ':' v).foldlM (fun n part => (wholeIn 10 part).map (60 * n + ·)) 0

/-- Is a number with a fraction zero? No answer if this is no such number. -/
def isZeroFraction? (s : List Char) : Option Bool :=
  let u := unsigned (Text.trim s)
  let whole := u.takeWhile Text.isDigit
  let (part, rest) := match u.dropWhile Text.isDigit with
    | '.' :: r => (r.takeWhile Text.isDigit, r.dropWhile Text.isDigit)
    | r => ([], r)
  let isEnd := match rest with
    | [] => true
    | 'e' :: r => !(unsigned r).isEmpty && (unsigned r).all Text.isDigit
    | _ => false
  if ["inf", "infinity", "nan"].any fun w => w.toList = u then some false
  else if whole ++ part ≠ [] ∧ isEnd then
    some ((whole ++ part).all fun c => Text.digit? c = some 0)
  else none

/-- The largest number of sixtieths that a number with a fraction may have. -/
def maxSixtieths : Nat := 174

/-- Is the number with a fraction that a scalar holds zero? Colons part sixtieths. -/
def isZeroValue (s : List Char) : Except Fault Bool :=
  match s.filter (· ≠ '_') with
  | [] => .error .emptyNumber
  | v =>
    let v := (unsigned v).map Char.toLower
    if [".inf", ".nan"].any fun w => w.toList = v then .ok false
    else do
      let parts := Text.split ':' v
      let isZero ← parts.foldlM (fun z part =>
        match isZeroFraction? part with
        | some z' => .ok (z && z')
        | none => .error (.noNumber ("could not convert string to float: " ++
            Text.quoted (String.ofList part)))) true
      if maxSixtieths < parts.length then .error .hugeFraction else .ok isZero

/-! ## Dates -/

/-- A run of digits, at least `least` and at most `most`, and the text behind it. -/
def digits? (least most : Nat) (s : List Char) : Option (Nat × List Char) :=
  let ds := (s.take most).takeWhile isDigit
  if ds.length < least then none else some (Text.numeralValue ds, s.drop ds.length)

/-- The text behind a character. -/
def behind? (c : Char) : List Char → Option (List Char)
  | d :: s => if c = d then some s else none
  | [] => none

/-- The minutes of the offset of a clock, if this is one or nothing. -/
def offset? (s : List Char) : Option Int :=
  match s.dropWhile fun c => c = ' ' ∨ c = '\t' with
  | ['Z'] => some 0
  | sign :: r =>
    if sign = '+' ∨ sign = '-' then do
      let (h, r) ← digits? 1 2 r
      let (m, r) ← match r with
        | ':' :: r => digits? 2 2 r
        | r => some (0, r)
      if r = [] then
        let minutes : Int := 60 * h + m
        some (if sign = '-' then -minutes else minutes)
      else none
    else none
  | [] => if s = [] then some 0 else none

/-- A time of a day: hours, minutes and seconds, and the offset of the clock. -/
structure Time where
  hour : Nat
  minute : Nat
  second : Nat
  offset : Int
  deriving DecidableEq, Repr

/-- A date, perhaps with a time. -/
structure Date where
  year : Nat
  month : Nat
  day : Nat
  time : Option Time := none
  deriving DecidableEq, Repr

/-- A time of a day. -/
def time? (s : List Char) : Option Time := do
  let (hour, s) ← digits? 1 2 s
  let s ← behind? ':' s
  let (minute, s) ← digits? 2 2 s
  let s ← behind? ':' s
  let (second, s) ← digits? 2 2 s
  let s := match s with
    | '.' :: r => r.dropWhile isDigit
    | r => r
  return { hour, minute, second, offset := ← offset? s }

/-- A date, perhaps with a time. -/
def date? (s : List Char) : Option Date := do
  let (year, r) ← digits? 4 4 s
  let r ← behind? '-' r
  let (month, r) ← digits? 1 2 r
  let r ← behind? '-' r
  let (day, r) ← digits? 1 2 r
  match r with
  | [] => return { year, month, day }
  | c :: t =>
    if c = 'T' ∨ c = 't' then return { year, month, day, time := some (← time? t) }
    else if c = ' ' ∨ c = '\t' then
      return { year, month, day, time := some (← time? (t.dropWhile fun c => c = ' ' ∨ c = '\t')) }
    else none

/-- Does this look like a date? Without a time, month and day have two digits. -/
def isDate (s : List Char) : Bool :=
  match date? s with
  | none => false
  | some d => d.time.isSome || s.length = 10

/-- The number of days of a month. -/
def daysIn (year month : Nat) : Nat :=
  if month = 2 then
    if year % 4 = 0 ∧ (year % 100 ≠ 0 ∨ year % 400 = 0) then 29 else 28
  else if month = 4 ∨ month = 6 ∨ month = 9 ∨ month = 11 then 30
  else 31

/-- The words for an offset of a day or more. -/
def offsetWords (minutes : Int) : String :=
  let days := (60 * minutes) / 86400
  let seconds := (60 * minutes) % 86400
  "offset must be a timedelta strictly between -timedelta(hours=24) and timedelta(hours=24), " ++
    "not datetime.timedelta(days=" ++ Int.repr days ++
    (if seconds = 0 then "" else ", seconds=" ++ Int.repr seconds) ++ ")."

/-- What is wrong with a date, if something is. -/
def dateFault? (d : Date) : Option String :=
  let time : Time := d.time.getD ⟨0, 0, 0, 0⟩
  if 1440 ≤ time.offset.natAbs then some (offsetWords time.offset)
  else if d.year = 0 then some "year 0 is out of range"
  else if d.month = 0 ∨ 12 < d.month then some "month must be in 1..12"
  else if d.day = 0 ∨ daysIn d.year d.month < d.day then some "day is out of range for month"
  else if 23 < time.hour then some "hour must be in 0..23"
  else if 59 < time.minute then some "minute must be in 0..59"
  else if 59 < time.second then some "second must be in 0..59"
  else none

/-! ## What a scalar means -/

/-- The words for yes. -/
def yesWords : List String :=
  ["yes", "Yes", "YES", "true", "True", "TRUE", "on", "On", "ON"]

/-- The words for no. -/
def noWords : List String :=
  ["no", "No", "NO", "false", "False", "FALSE", "off", "Off", "OFF"]

/-- The words for no value. -/
def nullWords : List String := ["", "~", "null", "Null", "NULL"]

/-- A text without a line feed at its end, unless that is all. Words are looked for in it. -/
def words (s : String) : String :=
  match s.toList with
  | [_] => s
  | cs => if cs.getLast? = some '\n' then String.ofList cs.dropLast else s

/-- The type of a scalar without quotes. -/
def typeOf (s : String) : String :=
  if yesWords.contains s ∨ noWords.contains s then "!!bool"
  else if isFraction s.toList then "!!float"
  else if isWhole s.toList then "!!int"
  else if s = "<<" then "!!merge"
  else if nullWords.contains s then "!!null"
  else if isDate s.toList then "!!timestamp"
  else if s = "=" then "!!value"
  else "!!str"

/-- The value of a scalar of a type. -/
def ofScalar (type s : String) : Except Fault Yaml :=
  match type with
  | "!!str" => .ok (.text s)
  | "!!null" => .ok (.scalar .null)
  | "!!bool" =>
    let lower := String.ofList (s.toList.map Char.toLower)
    if yesWords.contains lower then .ok (.scalar (.truth true))
    else if noWords.contains lower then .ok (.scalar (.truth false))
    else .error (.noTruth lower)
  | "!!int" => (wholeValue s.toList).map fun n => .scalar (.number (n = 0))
  | "!!float" => (isZeroValue s.toList).map fun z => .scalar (.number z)
  | "!!timestamp" =>
    match date? (words s).toList with
    | none => .error .noMoment
    | some d =>
      match dateFault? d with
      | some words => .error (.noDate words)
      | none => .ok (.scalar .date)
  | "!!binary" =>
    match Text.Base64.decode s.toList with
    | some bytes => .ok (.scalar (.bytes bytes))
    | none => .error .malformed
  | "!!merge" => .ok (.scalar .merge)
  | "!!value" => .ok (.scalar (.own s))
  | _ => .error .malformed

end Yaml

end DemoPages
