import FullStack.Lib.JsonRoundTrip

/-!
# The length of a JSON text

A text counts its UTF-16 code units (`unitLength`) and its UTF-8 bytes. The units are never more than the
bytes, and as many exactly when the text is ASCII (`unitLength_eq_iff`). The text of a value is ASCII exactly
when every string in it is (`text_ascii_iff`): what is escaped is ASCII before and after.
-/

namespace Json

def Ascii (cs : List Char) : Prop := ∀ c ∈ cs, c.toNat < 128

instance (cs : List Char) : Decidable (Ascii cs) :=
  decidable_of_iff (cs.all (fun c => c.toNat < 128) = true) (by simp [Ascii])

section
variable {c : Char} {cs ds : List Char}

@[simp] theorem ascii_nil : Ascii [] := List.forall_mem_nil _

@[simp] theorem ascii_cons : Ascii (c :: cs) ↔ c.toNat < 128 ∧ Ascii cs := List.forall_mem_cons

@[simp] theorem ascii_append : Ascii (cs ++ ds) ↔ Ascii cs ∧ Ascii ds := List.forall_mem_append

end

def unitLength (cs : List Char) : Nat := (cs.flatMap utf16).length

theorem utf8ByteSize_cons (c : Char) (cs : List Char) :
    (String.ofList (c :: cs)).utf8ByteSize = c.utf8Size + (String.ofList cs).utf8ByteSize := by
  rw [← List.singleton_append, String.ofList_append, String.utf8ByteSize_append, ← String.singleton_eq_ofList,
    String.utf8ByteSize_singleton]

theorem utf8Size_eq (c : Char) : c.utf8Size =
    if c.toNat < 0x80 then 1 else if c.toNat < 0x800 then 2 else if c.toNat < 0x10000 then 3 else 4 := by
  have hval : c.val.toNat = c.toNat := rfl
  rw [Char.utf8Size]
  simp only [UInt32.le_iff_toNat_le, hval, UInt32.toNat_ofNatLT]
  split_ifs <;> omega

theorem length_utf16 (c : Char) : (utf16 c).length = if c.toNat < 0x10000 then 1 else 2 := by
  rw [utf16]
  split_ifs <;> rfl

theorem unitLength_cons (c : Char) (cs : List Char) :
    unitLength (c :: cs) = (utf16 c).length + unitLength cs := by
  rw [unitLength, List.flatMap_cons, List.length_append, unitLength]

theorem unitLength_le (cs : List Char) : unitLength cs ≤ (String.ofList cs).utf8ByteSize := by
  induction cs with
  | nil => exact Nat.zero_le _
  | cons c cs ih =>
    rw [unitLength_cons, utf8ByteSize_cons, length_utf16, utf8Size_eq]
    split_ifs <;> omega

theorem unitLength_eq_iff (cs : List Char) :
    unitLength cs = (String.ofList cs).utf8ByteSize ↔ Ascii cs := by
  induction cs with
  | nil => exact iff_of_true rfl ascii_nil
  | cons c cs ih =>
    have hle := unitLength_le cs
    rw [unitLength_cons, utf8ByteSize_cons, length_utf16, utf8Size_eq, ascii_cons, ← ih]
    split_ifs <;> omega

theorem ascii_escapeChar (c : Char) : Ascii (escapeChar c) ↔ c.toNat < 128 := by
  have hhex : ∀ n < 16, (hexDigit n).toNat < 128 := by decide
  unfold escapeChar
  split_ifs with hquote hslash
  · rw [hquote]
    decide
  · rw [hslash]
    decide
  · exact iff_of_true (by decide) (by omega)
  · exact iff_of_true (by decide) (by omega)
  · exact iff_of_true (by decide) (by omega)
  · exact iff_of_true (by decide) (by omega)
  · exact iff_of_true (by decide) (by omega)
  · have hhigh := hhex (c.toNat / 16) (by omega)
    have hlow := hhex (c.toNat % 16) (by omega)
    refine iff_of_true ?_ (by omega)
    simp [hhigh, hlow]
  · simp

theorem ascii_quote (s : String) : Ascii (quote s) ↔ Ascii s.toList := by
  have hescaped (cs : List Char) : Ascii (cs.flatMap escapeChar) ↔ Ascii cs := by
    induction cs with
    | nil => exact Iff.rfl
    | cons c cs ih => rw [List.flatMap_cons, ascii_append, ascii_escapeChar, ih, ascii_cons]
  simp [quote, quoteChars, hescaped]

theorem ascii_toDigits (n : Nat) : Ascii (Nat.toDigits 10 n) := by
  intro c hc
  have hdigit := Nat.isDigit_of_mem_toDigits (by omega) (by omega) hc
  have hle : c.val ≤ 57 := of_decide_eq_true (Bool.and_eq_true_iff.1 hdigit).2
  have hnat : c.toNat ≤ 57 := UInt32.le_iff_toNat_le.1 hle
  omega

theorem ascii_intText (i : Int) : Ascii (intText i) := by
  cases i with
  | ofNat n => exact ascii_toDigits n
  | negSucc n => exact ascii_cons.2 ⟨by decide, ascii_toDigits (n + 1)⟩

theorem ascii_numText (d : Decimal) : Ascii (numText d) := by
  unfold numText
  split_ifs
  · exact ascii_append.2 ⟨ascii_intText _, ascii_nil⟩
  · exact ascii_append.2 ⟨ascii_intText _, ascii_cons.2 ⟨by decide, ascii_intText _⟩⟩

mutual
/-- The strings of a value, the names of members among them. -/
def strings : Json → List String
  | .null => []
  | .bool _ => []
  | .num _ => []
  | .str s => [s]
  | .arr vs => elementStrings vs
  | .obj ms => memberStrings ms

def elementStrings : List Json → List String
  | [] => []
  | v :: vs => strings v ++ elementStrings vs

def memberStrings : List (String × Json) → List String
  | [] => []
  | (k, v) :: ms => k :: (strings v ++ memberStrings ms)
end

mutual
theorem text_ascii_iff (v : Json) : Ascii v.text ↔ ∀ s ∈ v.strings, Ascii s.toList := by
  cases v with
  | null => exact iff_of_true (by decide) (by simp [strings])
  | bool b => cases b <;> exact iff_of_true (by decide) (by simp [strings])
  | num n => exact iff_of_true (ascii_numText n) (by simp [strings])
  | str s => simp [text, strings, ascii_quote]
  | arr vs =>
    cases vs with
    | nil => exact iff_of_true (by decide) (by simp [strings, elementStrings])
    | cons v vs =>
      have hv := text_ascii_iff v
      have hvs := moreElements_ascii_iff vs
      simp [text, strings, elementStrings, hv, hvs, or_imp, forall_and]
  | obj ms =>
    cases ms with
    | nil => exact iff_of_true (by decide) (by simp [strings, memberStrings])
    | cons m ms =>
      have hv := text_ascii_iff m.2
      have hms := moreMembers_ascii_iff ms
      simp [text, strings, memberStrings, ascii_quote, hv, hms, or_imp, forall_and]

theorem moreElements_ascii_iff (vs : List Json) :
    Ascii (moreElements vs) ↔ ∀ s ∈ elementStrings vs, Ascii s.toList := by
  cases vs with
  | nil => exact iff_of_true (by decide) (by simp [elementStrings])
  | cons v vs =>
    have hv := text_ascii_iff v
    have hvs := moreElements_ascii_iff vs
    simp [moreElements, elementStrings, hv, hvs, or_imp, forall_and]

theorem moreMembers_ascii_iff (ms : List (String × Json)) :
    Ascii (moreMembers ms) ↔ ∀ s ∈ memberStrings ms, Ascii s.toList := by
  cases ms with
  | nil => exact iff_of_true (by decide) (by simp [memberStrings])
  | cons m ms =>
    have hv := text_ascii_iff m.2
    have hms := moreMembers_ascii_iff ms
    simp [moreMembers, memberStrings, ascii_quote, hv, hms, or_imp, forall_and]
end

theorem stringify_length_iff (v : Json) :
    unitLength v.stringify.toList = v.stringify.utf8ByteSize ↔ ∀ s ∈ v.strings, Ascii s.toList := by
  rw [stringify, String.toList_ofList, unitLength_eq_iff, text_ascii_iff]

end Json
