import FullStack.Lib.Regex

/-!
# E-mail addresses

The two tests for an e-mail address that meet in the forms: the regular expression of the components, which
reads the address in lower case, and the production of HTML for an input of type e-mail. Neither contains
the other; what the second accepts is ASCII, and what the first accepts has six characters or more.
-/

namespace FullStack

namespace Email

open Regex

def digit : Regex Char := .one Char.isDigit

def letter (c : Char) : Regex Char := .one (· == c)

def isSpace (c : Char) : Bool :=
  [0x20, 0xa0, 0x1680, 0x2028, 0x2029, 0x202f, 0x205f, 0x3000, 0xfeff].contains c.toNat ||
    9 ≤ c.toNat && c.toNat ≤ 13 || 0x2000 ≤ c.toNat && c.toNat ≤ 0x200a

/-- The characters of `[^<>()\[\]\\.,;:\s@"]`. -/
def isLocal (c : Char) : Bool := !("<>()[]\\.,;:@\"".toList.contains c || isSpace c)

def isDot (c : Char) : Bool := !List.contains [10, 13, 0x2028, 0x2029] c.toNat

def localPart : Regex Char :=
  alt (seq (plus (.one isLocal)) (star (seq (letter '.') (plus (.one isLocal)))))
    (seq (letter '\"') (seq (plus (.one isDot)) (letter '\"')))

def byteText : Regex Char := seq digit (upTo digit 2)

def address : Regex Char :=
  seq (letter '[') (seq byteText (seq (times (seq (letter '.') byteText) 3) (letter ']')))

def domainName : Regex Char :=
  seq (plus (seq (plus (.one fun c => c.isAlpha || c == '-' || c.isDigit)) (letter '.')))
    (seq (times (.one Char.isAlpha) 2) (star (.one Char.isAlpha)))

/-- The constant `emailRegex` of `Login` and `Signup`. The classes that leave out characters stand under `+`,
so it does not matter that a character may be two code units. -/
def emailRegex : Regex Char := seq localPart (seq (letter '@') (alt address domainName))

/-- `atext` of the production, and the dot. -/
def isAtext (c : Char) : Bool := c.isAlphanum || ".!#$%&'*+/=?^_`\x7b|\x7d~-".toList.contains c

/-- A label starts and ends with a letter or a digit, and has up to 63 characters. -/
def label : Regex Char :=
  seq (.one Char.isAlphanum)
    (opt (seq (upTo (.one fun c => c.isAlphanum || c == '-') 61) (.one Char.isAlphanum)))

/-- The production of a valid e-mail address in HTML. -/
def htmlEmail : Regex Char :=
  seq (plus (.one isAtext)) (seq (letter '@') (seq label (star (seq (letter '.') label))))

def IsHtmlEmail (email : String) : Prop := htmlEmail.accepts email.toList = true

instance (email : String) : Decidable (IsHtmlEmail email) := inferInstanceAs (Decidable (_ = true))

/-- A quoted local part, and a domain without a dot. -/
example : (emailRegex.accepts "\"ada l\"@example.org".toList = true ∧ ¬ IsHtmlEmail "\"ada l\"@example.org") ∧
    (emailRegex.accepts "ada@localhost".toList = false ∧ IsHtmlEmail "ada@localhost") := by decide

def IsAscii (c : Char) : Prop := c.toNat < 128

instance (c : Char) : Decidable (IsAscii c) := inferInstanceAs (Decidable (_ < _))

theorem isAscii_of_isAlphanum {c : Char} (h : c.isAlphanum = true) : IsAscii c := by
  have hle : c.toNat ≤ 90 ∨ c.toNat ≤ 122 ∨ c.toNat ≤ 57 := by
    rcases Bool.or_eq_true_iff.1 h with h | h
    · rcases Bool.or_eq_true_iff.1 h with h | h
      · exact .inl (of_decide_eq_true h).2
      · exact .inr (.inl (of_decide_eq_true (Bool.and_eq_true_iff.1 h).2))
    · exact .inr (.inr (of_decide_eq_true (Bool.and_eq_true_iff.1 h).2))
  rw [IsAscii]
  omega

theorem isAscii_of_isAtext {c : Char} (h : isAtext c = true) : IsAscii c := by
  have hall : ".!#$%&'*+/=?^_`\x7b|\x7d~-".toList.all (fun c => decide (IsAscii c)) = true := by decide
  rcases Bool.or_eq_true_iff.1 h with h | h
  · exact isAscii_of_isAlphanum h
  · exact of_decide_eq_true (List.all_eq_true.1 hall c (List.contains_iff_mem.1 h))

theorem over_letter {c : Char} (h : IsAscii c) : (letter c).Over IsAscii := by
  intro a ha
  rw [eq_of_beq ha]
  exact h

theorem over_alphanum : (Regex.one Char.isAlphanum).Over IsAscii := fun _ => isAscii_of_isAlphanum

theorem over_label : label.Over IsAscii := by
  have hinner : (Regex.one fun c => c.isAlphanum || c == '-').Over IsAscii := by
    intro c hc
    rcases Bool.or_eq_true_iff.1 hc with hc | hc
    · exact isAscii_of_isAlphanum hc
    · rw [eq_of_beq hc]
      decide
  exact ⟨over_alphanum, Over.opt ⟨hinner.upTo 61, over_alphanum⟩⟩

theorem IsHtmlEmail.ascii {email : String} (h : IsHtmlEmail email) : ∀ c ∈ email.toList, IsAscii c := by
  have hover : htmlEmail.Over IsAscii :=
    ⟨Over.plus fun c => isAscii_of_isAtext, over_letter (by decide), over_label, over_letter (by decide), over_label⟩
  exact hover.forall_mem ((accepts_iff htmlEmail _).1 h)

theorem length_of_emailRegex {s : List Char} (h : emailRegex.accepts s = true) : 6 ≤ s.length :=
  minLength_le ((accepts_iff emailRegex s).1 h)

/-- `toLowerCase`, of which only what it does to ASCII text is used. -/
structure LowerCase where
  toLowerCase : String → String
  ascii : ∀ s, (∀ c ∈ s.toList, IsAscii c) → toLowerCase s = String.ofList (s.toList.map Char.toLower)

def asciiLowerCase : LowerCase where
  toLowerCase s := String.ofList (s.toList.map Char.toLower)
  ascii _ _ := rfl

def test (lower : LowerCase) (email : String) : Bool := emailRegex.accepts (lower.toLowerCase email).toList

theorem length_of_test {lower : LowerCase} {email : String} (h : test lower email = true)
    (hhtml : IsHtmlEmail email) : 6 ≤ email.toList.length := by
  have hlength := length_of_emailRegex h
  rw [lower.ascii email hhtml.ascii, String.toList_ofList, List.length_map] at hlength
  exact hlength

end Email

end FullStack
