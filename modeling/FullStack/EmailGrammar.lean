import FullStack.Email
import FullStack.Lib.Words

/-!
# The grammar of e-mail addresses

What the regular expression of the forms accepts (`emailRegex.anchored`, by backtracking), read without it:
`recognises` cuts the address at its last `@`, and each side at its dots. As no domain has an `@`, no other cut
can succeed, and an address that is accepted has one local part and one domain (`email_grammar`).
-/

namespace FullStack

namespace Email

open Regex Words

def isAtom (s : List Char) : Bool := !s.isEmpty && s.all isLocal

/-- Begins and ends with a quote, with text between the two. -/
def isQuoted (s : List Char) : Bool := (between '\"' '\"' s).any fun text => !text.isEmpty && text.all isDot

def isLocalPart (s : List Char) : Bool := (s.splitOn '.').all isAtom || isQuoted s

def isByteText (s : List Char) : Bool := !s.isEmpty && s.length ≤ 3 && s.all Char.isDigit

def isAddress (s : List Char) : Bool :=
  (between '[' ']' s).any fun text => (text.splitOn '.').length == 4 && (text.splitOn '.').all isByteText

def isName (s : List Char) : Bool := !s.isEmpty && s.all fun c => c.isAlpha || c == '-' || c.isDigit

def isTopLevel (s : List Char) : Bool := 2 ≤ s.length && s.all Char.isAlpha

def isDomainName (s : List Char) : Bool :=
  2 ≤ (s.splitOn '.').length && (s.splitOn '.').dropLast.all isName && isTopLevel ((s.splitOn '.').getLastD [])

def isDomain (s : List Char) : Bool := isAddress s || isDomainName s

/-- The address is cut at its last `@`. -/
def recognises (email : List Char) : Bool :=
  match splitLast '@' email with
  | some (u, v) => isLocalPart u && isDomain v
  | none => false

section
variable {s : List Char}

theorem mem_atom : s ∈ (plus (.one isLocal)).lang ↔ isAtom s = true := by
  rw [mem_plus_one, isAtom]
  simp

theorem mem_quoted : s ∈ (seq (letter '\"') (seq (plus (.one isDot)) (letter '\"'))).lang ↔
    isQuoted s = true := by
  rw [letter, mem_between, isQuoted, Option.any_eq_true]
  simp [mem_plus_one]

theorem mem_localPart : s ∈ localPart.lang ↔ isLocalPart s = true := by
  have hover : (plus (.one isLocal)).Over (· ≠ '.') := Over.plus (over_ne (by decide))
  have hatoms := mem_separated (s := s) hover
  simp only [mem_atom] at hatoms
  rw [localPart, lang, Language.mem_add, mem_quoted, letter, hatoms, isLocalPart, Bool.or_eq_true, List.all_eq_true]

theorem mem_byteText : s ∈ byteText.lang ↔ isByteText s = true := by
  rw [byteText, digit, mem_one_seq_upTo, isByteText]
  simp [and_assoc]

theorem mem_address : s ∈ address.lang ↔ isAddress s = true := by
  have hdigit : digit.Over (· ≠ '.') := over_ne (by decide)
  have hover : byteText.Over (· ≠ '.') := ⟨hdigit, hdigit.upTo 2⟩
  have hlang : address.lang =
      (seq (letter '[') (seq (seq byteText (times (seq (letter '.') byteText) 3)) (letter ']'))).lang := by
    simp only [address, lang, mul_assoc]
  rw [hlang, letter, letter, letter, mem_between, isAddress, Option.any_eq_true]
  simp only [mem_separated_times hover, mem_byteText]
  simp

theorem mem_name : s ∈ (plus (.one fun c => c.isAlpha || c == '-' || c.isDigit)).lang ↔ isName s = true := by
  rw [mem_plus_one, isName]
  simp

theorem mem_topLevel : s ∈ (seq (times (.one Char.isAlpha) 2) (star (.one Char.isAlpha))).lang ↔
    isTopLevel s = true := by
  rw [mem_times_seq_star, isTopLevel]
  simp

theorem mem_domainName : s ∈ domainName.lang ↔ isDomainName s = true := by
  have hletter : (Regex.one Char.isAlpha).Over (· ≠ '.') := over_ne (by decide)
  have hname : (plus (.one fun c => c.isAlpha || c == '-' || c.isDigit)).Over (· ≠ '.') :=
    Over.plus (over_ne (by decide))
  have htop : (seq (times (.one Char.isAlpha) 2) (star (.one Char.isAlpha))).Over (· ≠ '.') :=
    ⟨hletter.times 2, hletter⟩
  rw [domainName, letter, mem_terminated hname htop, isDomainName]
  simp only [mem_name, mem_topLevel]
  simp [and_assoc]

theorem mem_domain : s ∈ (alt address domainName).lang ↔ isDomain s = true := by
  rw [lang, Language.mem_add, mem_address, mem_domainName, isDomain, Bool.or_eq_true]

theorem over_domain : (alt address domainName).Over (· ≠ '@') := by
  have hdigit : digit.Over (· ≠ '@') := over_ne (by decide)
  have hdot : (letter '.').Over (· ≠ '@') := over_ne (by decide)
  have hbyte : byteText.Over (· ≠ '@') := ⟨hdigit, hdigit.upTo 2⟩
  have hletter : (Regex.one Char.isAlpha).Over (· ≠ '@') := over_ne (by decide)
  have hgroup : (seq (letter '.') byteText).Over (· ≠ '@') := ⟨hdot, hbyte⟩
  refine ⟨⟨over_ne (by decide), hbyte, hgroup.times 3, over_ne (by decide)⟩, ?_⟩
  exact ⟨Over.plus ⟨Over.plus (over_ne (by decide)), hdot⟩, hletter.times 2, hletter⟩

theorem accepts_eq_recognises : emailRegex.accepts s = recognises s := by
  rw [Bool.eq_iff_iff, accepts_iff, emailRegex, letter, mem_splitLast over_domain, recognises]
  cases splitLast '@' s with
  | none => simp
  | some parts =>
    obtain ⟨u, v⟩ := parts
    simp [mem_localPart, mem_domain]

/-- `u` and `v` are what the two sides of the expression match. -/
def Splits (email u v : List Char) : Prop :=
  email = u ++ '@' :: v ∧ localPart.accepts u = true ∧ (alt address domainName).accepts v = true

theorem Splits.splitLast_eq {u v : List Char} (h : Splits s u v) : splitLast '@' s = some (u, v) := by
  obtain ⟨rfl, -, hv⟩ := h
  exact splitLast_append u fun hat => over_domain.forall_mem ((accepts_iff _ v).1 hv) '@' hat rfl

theorem exists_splits : emailRegex.accepts s = true ↔ ∃ u v, Splits s u v := by
  rw [accepts_iff, emailRegex, letter, mem_splitLast over_domain]
  constructor
  · rintro ⟨u, v, hs, hu, hv⟩
    exact ⟨u, v, eq_append_of_splitLast hs, (accepts_iff _ u).2 hu, (accepts_iff _ v).2 hv⟩
  · rintro ⟨u, v, h⟩
    exact ⟨u, v, h.splitLast_eq, (accepts_iff _ u).1 h.2.1, (accepts_iff _ v).1 h.2.2⟩

end

/-- The expression, and the forms' test with it, is the deterministic reading of the address; what it accepts
has one local part and one domain. -/
theorem email_grammar (lower : LowerCase) (email : String) :
    emailRegex.anchored email.toList = recognises email.toList ∧
      test lower email = recognises (lower.toLowerCase email).toList ∧
      (emailRegex.anchored email.toList = true ↔ ∃! parts : List Char × List Char,
        Splits email.toList parts.1 parts.2) := by
  rw [anchored_eq_accepts]
  refine ⟨accepts_eq_recognises, accepts_eq_recognises, ?_⟩
  rw [exists_splits]
  constructor
  · rintro ⟨u, v, h⟩
    refine ⟨(u, v), h, fun parts hparts => ?_⟩
    exact Option.some.inj (hparts.splitLast_eq.symm.trans h.splitLast_eq)
  · rintro ⟨parts, h, -⟩
    exact ⟨parts.1, parts.2, h⟩

/-- A quoted local part with an `@` and dots. -/
example : recognises "\"ada@l.\"@example.org".toList = true ∧ recognises "ada@b@example.org".toList = false := by
  decide

end Email

end FullStack
