import FullStack.Lib.JsonRoundTrip
import FullStack.Lib.Proc

/-!
# JavaScript values as the handlers and the components use them

A value is a JSON value or `undefined`. What matters of an exception is its kind: the handlers catch
none, and the components none either.
-/

namespace FullStack

inductive JsError where
  | syntaxError
  | typeError
  /-- What React throws. -/
  | invariantViolation
deriving DecidableEq

theorem bind_eq_ok {ε α β : Type} {x : Except ε α} {f : α → Except ε β} {b : β} :
    (x >>= f) = .ok b ↔ ∃ a, x = .ok a ∧ f a = .ok b := by
  cases x with
  | error e => exact iff_of_false nofun fun ⟨_, h, _⟩ => nomatch h
  | ok a => exact ⟨fun h => ⟨a, rfl, h⟩, fun ⟨_, h, hb⟩ => Except.ok.inj h ▸ hb⟩

theorem ok_bind {ε α β : Type} (a : α) (f : α → Except ε β) : (Except.ok a >>= f) = f a := rfl

/-- A JSON value, or `undefined` (`none`). -/
abbrev JsVal := Option Json

/-- The decimal is read as the double `0`: it is at most half of the least positive double, 2⁻¹⁰⁷⁴. -/
def roundsToZero (d : Decimal) : Bool :=
  d.mantissa = 0 || d.exponent < 0 && d.mantissa.natAbs * 2 ^ 1075 ≤ 10 ^ (-d.exponent).toNat

def truthy : JsVal → Bool
  | none => false
  | some .null => false
  | some (.bool b) => b
  | some (.num d) => !roundsToZero d
  | some (.str s) => s ≠ ""
  | some (.arr _) => true
  | some (.obj _) => true

/-- A white space or line terminator character. -/
def isTrimmed (c : Char) : Bool :=
  let n := c.toNat
  (9 ≤ n && n ≤ 13) || n = 0x20 || n = 0xA0 || n = 0x1680 || (0x2000 ≤ n && n ≤ 0x200A) || n = 0x2028 ||
    n = 0x2029 || n = 0x202F || n = 0x205F || n = 0x3000 || n = 0xFEFF

def trimChars (cs : List Char) : List Char := ((cs.dropWhile isTrimmed).reverse.dropWhile isTrimmed).reverse

/-- A decimal literal without a sign, and not of zero. -/
def isPositiveDecimal (cs : List Char) : Bool :=
  let whole := cs.takeWhile Char.isDigit
  let rest := cs.dropWhile Char.isDigit
  let fraction := if rest.head? = some '.' then rest.tail.takeWhile Char.isDigit else []
  let rest := if rest.head? = some '.' then rest.tail.dropWhile Char.isDigit else rest
  match Json.parseExponent rest with
  | some (exponent, []) =>
    !(whole ++ fraction).isEmpty && !roundsToZero ⟨Json.digitsValue (whole ++ fraction), exponent - fraction.length⟩
  | _ => false

def isPositiveInteger (isRadixDigit : Char → Bool) (digits : List Char) : Bool :=
  digits.all isRadixDigit && digits.any fun c => c ≠ '0'

/-- `Number(text) > 0`. A text that is no number is `NaN`. -/
def isPositiveText (text : String) : Bool :=
  let cs := trimChars text.toList
  match cs with
  | '0' :: 'x' :: digits | '0' :: 'X' :: digits => isPositiveInteger (fun c => (Json.hexValue c).isSome) digits
  | '0' :: 'o' :: digits | '0' :: 'O' :: digits => isPositiveInteger (fun c => c.isDigit && c < '8') digits
  | '0' :: 'b' :: digits | '0' :: 'B' :: digits => isPositiveInteger (fun c => c = '0' || c = '1') digits
  | '+' :: cs => cs = "Infinity".toList || isPositiveDecimal cs
  | cs => cs = "Infinity".toList || isPositiveDecimal cs

mutual
/-- Whether the value converts to a primitive: a member `toString` hides the function that an object inherits. -/
def isConvertible : Json → Bool
  | .arr vs => areConvertible vs
  | .obj ms => (Json.lookup "toString" ms).isNone
  | _ => true

def areConvertible : List Json → Bool
  | [] => true
  | v :: vs => isConvertible v && areConvertible vs
end

mutual
/-- `v > 0`, if `v` converts to a number at all. An array converts by way of its text, and a text with a comma is
`NaN`, like the text of an object. -/
def isPositive : Json → Bool
  | .null => false
  | .bool b => b
  | .num d => 0 < d.mantissa && !roundsToZero d
  | .str s => isPositiveText s
  | .arr vs => isPositiveElement vs
  | .obj _ => false

def isPositiveElement : List Json → Bool
  | [] => false
  | v :: vs => vs.isEmpty && (match v with | .bool _ => false | _ => true) && isPositive v
end

/-- `v > 0`. -/
def exceedsZero : JsVal → Except JsError Bool
  | none => .ok false
  | some v => if isConvertible v then .ok (isPositive v) else .error .typeError

/-- `v.name`, for a `name` that no built-in prototype defines. -/
def prop (name : String) : JsVal → Except JsError JsVal
  | none => .error .typeError
  | some .null => .error .typeError
  | some v => .ok (v.member name)

/-- `JSON.parse(text)`; `null` is converted to the text `null`. -/
def jsonParse (text : Option String) : Except JsError JsVal :=
  match Json.parse (text.getD "null") with
  | some v => .ok (some v)
  | none => .error .syntaxError

theorem jsonParse_stringify (v : Json) : jsonParse (some v.stringify) = .ok (some v) := by
  simp [jsonParse, Json.parse_stringify]

theorem prop_obj (name : String) (ms : List (String × Json)) :
    prop name (some (.obj ms)) = .ok (Json.lookup name ms) := rfl

@[simp] theorem truthy_str (s : String) : truthy (some (.str s)) = decide (s ≠ "") := rfl

/-- The members of an object literal; an `undefined` one is not serialised. -/
def definedMembers : List (String × JsVal) → List (String × Json)
  | [] => []
  | (k, some v) :: rest => (k, v) :: definedMembers rest
  | (_, none) :: rest => definedMembers rest

end FullStack
