import Mathlib.Data.List.Basic

/-!
# JSON values and their text

`Json.stringify` and `Json.parse` on strings of Unicode characters. A string literal is read as
UTF-16 code units, as ECMAScript reads it, and then decoded (`decodeUtf16`); a lone surrogate, which
no Unicode text can hold, becomes U+FFFD. An object is the list of its members as written; a
repeated name means its last value (`member`). Numbers are exact decimals, printed as mantissa and
exponent.
-/

structure Decimal where
  mantissa : Int
  exponent : Int
deriving DecidableEq, Repr

inductive Json where
  | null
  | bool (b : Bool)
  | num (n : Decimal)
  | str (s : String)
  | arr (elements : List Json)
  | obj (members : List (String × Json))

namespace Json

def utf16 (c : Char) : List Nat :=
  if c.toNat < 0x10000 then [c.toNat]
  else [0xD800 + (c.toNat - 0x10000) / 0x400, 0xDC00 + (c.toNat - 0x10000) % 0x400]

def isHigh (u : Nat) : Bool := 0xD800 ≤ u && u < 0xDC00

def isLow (u : Nat) : Bool := 0xDC00 ≤ u && u < 0xE000

/-- The character of a code unit that is not half of a pair. -/
def unitChar (u : Nat) : Char := if isHigh u || isLow u then '\uFFFD' else Char.ofNat u

def pairChar (h l : Nat) : Char := Char.ofNat (0x10000 + (h - 0xD800) * 0x400 + (l - 0xDC00))

def decodeUtf16 : List Nat → List Char
  | [] => []
  | [u] => [unitChar u]
  | u :: l :: rest =>
    if isHigh u && isLow l then pairChar u l :: decodeUtf16 rest
    else unitChar u :: decodeUtf16 (l :: rest)

def hexDigit (n : Nat) : Char := if n < 10 then Char.ofNat (48 + n) else Char.ofNat (87 + n)

def escapeChar (c : Char) : List Char :=
  if c = '"' then ['\\', '"']
  else if c = '\\' then ['\\', '\\']
  else if c.toNat = 8 then ['\\', 'b']
  else if c.toNat = 9 then ['\\', 't']
  else if c.toNat = 10 then ['\\', 'n']
  else if c.toNat = 12 then ['\\', 'f']
  else if c.toNat = 13 then ['\\', 'r']
  else if c.toNat < 0x20 then ['\\', 'u', '0', '0', hexDigit (c.toNat / 16), hexDigit (c.toNat % 16)]
  else [c]

def quoteChars (cs : List Char) : List Char := '"' :: cs.flatMap escapeChar ++ ['"']

def quote (s : String) : List Char := quoteChars s.toList

def intText : Int → List Char
  | .ofNat n => Nat.toDigits 10 n
  | .negSucc n => '-' :: Nat.toDigits 10 (n + 1)

def numText (d : Decimal) : List Char :=
  intText d.mantissa ++ if d.exponent = 0 then [] else 'e' :: intText d.exponent

mutual
def text : Json → List Char
  | .null => ['n', 'u', 'l', 'l']
  | .bool true => ['t', 'r', 'u', 'e']
  | .bool false => ['f', 'a', 'l', 's', 'e']
  | .num n => numText n
  | .str s => quote s
  | .arr [] => ['[', ']']
  | .arr (v :: vs) => '[' :: (text v ++ moreElements vs)
  | .obj [] => ['{', '}']
  | .obj ((k, v) :: ms) => '{' :: (quote k ++ ':' :: (text v ++ moreMembers ms))

def moreElements : List Json → List Char
  | [] => [']']
  | v :: vs => ',' :: (text v ++ moreElements vs)

def moreMembers : List (String × Json) → List Char
  | [] => ['}']
  | (k, v) :: ms => ',' :: (quote k ++ ':' :: (text v ++ moreMembers ms))
end

def stringify (v : Json) : String := String.ofList v.text

def isSpace (c : Char) : Bool := c = ' ' || c = '\n' || c = '\r' || c = '\t'

def skipSpace (cs : List Char) : List Char := cs.dropWhile isSpace

def hexValue (c : Char) : Option Nat :=
  if c.isDigit then some (c.toNat - 48)
  else if 'a' ≤ c ∧ c ≤ 'f' then some (c.toNat - 87)
  else if 'A' ≤ c ∧ c ≤ 'F' then some (c.toNat - 55)
  else none

def escapeUnit (c : Char) : Option Nat :=
  if c = '"' ∨ c = '\\' ∨ c = '/' then some c.toNat
  else if c = 'b' then some 8
  else if c = 't' then some 9
  else if c = 'n' then some 10
  else if c = 'f' then some 12
  else if c = 'r' then some 13
  else none

/-- The code units of a string literal whose opening quote has been read. -/
def stringUnits : List Char → Option (List Nat × List Char)
  | [] => none
  | c :: rest =>
    if c = '"' then some ([], rest)
    else if c = '\\' then
      match rest with
      | 'u' :: h₃ :: h₂ :: h₁ :: h₀ :: rest => do
        let u := 4096 * (← hexValue h₃) + 256 * (← hexValue h₂) + 16 * (← hexValue h₁) + (← hexValue h₀)
        let (us, rest) ← stringUnits rest
        return (u :: us, rest)
      | e :: rest => do
        let u ← escapeUnit e
        let (us, rest) ← stringUnits rest
        return (u :: us, rest)
      | [] => none
    else if c.toNat < 0x20 then none
    else do
      let (us, rest) ← stringUnits rest
      return (utf16 c ++ us, rest)

def parseString (cs : List Char) : Option (String × List Char) := do
  let (us, rest) ← stringUnits cs
  return (String.ofList (decodeUtf16 us), rest)

def digitsValue (ds : List Char) : Nat := ds.foldl (fun n c => 10 * n + (c.toNat - 48)) 0

def parseSign : List Char → Bool × List Char
  | '-' :: cs => (true, cs)
  | cs => (false, cs)

def signed (neg : Bool) (n : Nat) : Int := if neg then -n else n

def parseFraction : List Char → Option (List Char × List Char)
  | '.' :: cs =>
    let (ds, rest) := cs.span Char.isDigit
    if ds = [] then none else some (ds, rest)
  | cs => some ([], cs)

def parseExponentSign : List Char → Bool × List Char
  | '+' :: cs => (false, cs)
  | cs => parseSign cs

def parseExponent : List Char → Option (Int × List Char)
  | c :: cs =>
    if c = 'e' ∨ c = 'E' then
      let (neg, cs) := parseExponentSign cs
      let (ds, rest) := cs.span Char.isDigit
      if ds = [] then none else some (signed neg (digitsValue ds), rest)
    else some (0, c :: cs)
  | [] => some (0, [])

def parseNumber (cs : List Char) : Option (Decimal × List Char) := do
  let (neg, cs) := parseSign cs
  let (int, cs) := cs.span Char.isDigit
  -- no digits, or a leading zero
  if int = [] ∨ (int.head? = some '0' ∧ int.length ≠ 1) then none
  let (frac, cs) ← parseFraction cs
  let (exp, rest) ← parseExponent cs
  return (⟨signed neg (digitsValue (int ++ frac)), exp - frac.length⟩, rest)

mutual
/-- `fuel` bounds the nesting; the length of the text is enough (`parse_stringify`). -/
def parseValue : Nat → List Char → Option (Json × List Char)
  | 0, _ => none
  | fuel + 1, cs =>
    match skipSpace cs with
    | [] => none
    | c :: rest =>
      if c = '-' ∨ c.isDigit then do
        let (n, rest) ← parseNumber (c :: rest)
        return (.num n, rest)
      else match c, rest with
      | 'n', 'u' :: 'l' :: 'l' :: rest => some (.null, rest)
      | 't', 'r' :: 'u' :: 'e' :: rest => some (.bool true, rest)
      | 'f', 'a' :: 'l' :: 's' :: 'e' :: rest => some (.bool false, rest)
      | '"', rest => do
        let (s, rest) ← parseString rest
        return (.str s, rest)
      | '[', rest =>
        match skipSpace rest with
        | ']' :: rest => some (.arr [], rest)
        | rest => do
          let (v, rest) ← parseValue fuel rest
          let (vs, rest) ← parseMoreElements fuel rest
          return (.arr (v :: vs), rest)
      | '{', rest =>
        match skipSpace rest with
        | '}' :: rest => some (.obj [], rest)
        | rest => do
          let (m, rest) ← parseMember fuel rest
          let (ms, rest) ← parseMoreMembers fuel rest
          return (.obj (m :: ms), rest)
      | _, _ => none

def parseMoreElements : Nat → List Char → Option (List Json × List Char)
  | 0, _ => none
  | fuel + 1, cs =>
    match skipSpace cs with
    | ']' :: rest => some ([], rest)
    | ',' :: rest => do
      let (v, rest) ← parseValue fuel rest
      let (vs, rest) ← parseMoreElements fuel rest
      return (v :: vs, rest)
    | _ => none

def parseMember : Nat → List Char → Option ((String × Json) × List Char)
  | 0, _ => none
  | fuel + 1, cs =>
    match skipSpace cs with
    | '"' :: rest => do
      let (k, rest) ← parseString rest
      match skipSpace rest with
      | ':' :: rest => do
        let (v, rest) ← parseValue fuel rest
        return ((k, v), rest)
      | _ => none
    | _ => none

def parseMoreMembers : Nat → List Char → Option (List (String × Json) × List Char)
  | 0, _ => none
  | fuel + 1, cs =>
    match skipSpace cs with
    | '}' :: rest => some ([], rest)
    | ',' :: rest => do
      let (m, rest) ← parseMember fuel rest
      let (ms, rest) ← parseMoreMembers fuel rest
      return (m :: ms, rest)
    | _ => none
end

def parse (s : String) : Option Json :=
  match parseValue (s.toList.length + 1) s.toList with
  | some (v, rest) => if skipSpace rest = [] then some v else none
  | none => none

/-- The value of the member `k`: the last one written. -/
def lookup (k : String) : List (String × Json) → Option Json
  | [] => none
  | (k', v) :: rest => (lookup k rest).or (if k' = k then some v else none)

def member (k : String) : Json → Option Json
  | .obj ms => lookup k ms
  | _ => none

end Json
