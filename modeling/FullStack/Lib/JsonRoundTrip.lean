import FullStack.Lib.Json
import Mathlib.Data.List.TakeDrop
import Mathlib.Data.Nat.Digits.Defs

/-!
# Parsing a printed value gives the value back

`Format.parse_write`, for every way to write JSON (`Format`), and with it `parse_stringify` and
`stringify_injective`. Strings go through code units (`Format.units_flatMap`, `decodeUtf16_flatMap`),
numbers through the digits of `Nat.toDigits`. A printed value is read in front of any text that cannot
continue a number (`Stops`).
-/

namespace Json

theorem hexValue_hexDigit : ∀ d < 16, hexValue (hexDigit d) = some d := by decide

theorem toNat_lt_surrogates_or_gt (c : Char) : c.toNat < 0xD800 ∨ 0xDFFF < c.toNat ∧ c.toNat < 0x110000 :=
  c.valid

theorem utf16_of_lt {c : Char} (h : c.toNat < 0x10000) : utf16 c = [c.toNat] := if_pos h

theorem decodeUtf16_cons_of_lt {c : Char} (h : c.toNat < 0x10000) (us : List Nat) :
    decodeUtf16 (c.toNat :: us) = c :: decodeUtf16 us := by
  have hs := toNat_lt_surrogates_or_gt c
  have hh : isHigh c.toNat = false := by simp [isHigh]; omega
  have hl : isLow c.toNat = false := by simp [isLow]; omega
  have hu : unitChar c.toNat = c := by simp [unitChar, hh, hl]
  cases us with
  | nil => simp [decodeUtf16, hu]
  | cons u us => simp [decodeUtf16, hh, hu]

theorem decodeUtf16_append (c : Char) (us : List Nat) :
    decodeUtf16 (utf16 c ++ us) = c :: decodeUtf16 us := by
  by_cases h : c.toNat < 0x10000
  · rw [utf16_of_lt h]
    exact decodeUtf16_cons_of_lt h us
  · have hs := toNat_lt_surrogates_or_gt c
    have hh : isHigh (0xD800 + (c.toNat - 0x10000) / 0x400) = true := by simp [isHigh]; omega
    have hl : isLow (0xDC00 + (c.toNat - 0x10000) % 0x400) = true := by simp [isLow]; omega
    have hp : pairChar (0xD800 + (c.toNat - 0x10000) / 0x400) (0xDC00 + (c.toNat - 0x10000) % 0x400) = c := by
      rw [pairChar, show 0x10000 + (0xD800 + (c.toNat - 0x10000) / 0x400 - 0xD800) * 0x400 +
        (0xDC00 + (c.toNat - 0x10000) % 0x400 - 0xDC00) = c.toNat by omega]
      exact Char.ofNat_toNat c
    simp [utf16, h, decodeUtf16, hh, hl, hp]

theorem decodeUtf16_flatMap (cs : List Char) : decodeUtf16 (cs.flatMap utf16) = cs := by
  induction cs with
  | nil => rfl
  | cons c cs ih => rw [List.flatMap_cons, decodeUtf16_append, ih]

theorem stringUnits_escapeChar (c : Char) (rest : List Char) :
    stringUnits (escapeChar c ++ rest) =
      (stringUnits rest).map fun p => (utf16 c ++ p.1, p.2) := by
  have hsmall : ∀ n, c.toNat = n → n < 0x20 → utf16 c = [n] := fun n h hn => by
    rw [utf16_of_lt (by omega), h]
  have hbind : ∀ u : Nat, ((stringUnits rest).bind fun p => some (u :: p.1, p.2)) =
      (stringUnits rest).map fun p => ([u] ++ p.1, p.2) := by
    intro u
    cases stringUnits rest <;> rfl
  unfold escapeChar
  split_ifs with h1 h2 h3 h4 h5 h6 h7 h8
  · subst h1; exact hbind 34
  · subst h2; exact hbind 92
  · rw [hsmall 8 h3 (by omega)]; exact hbind 8
  · rw [hsmall 9 h4 (by omega)]; exact hbind 9
  · rw [hsmall 10 h5 (by omega)]; exact hbind 10
  · rw [hsmall 12 h6 (by omega)]; exact hbind 12
  · rw [hsmall 13 h7 (by omega)]; exact hbind 13
  · rw [hsmall _ rfl h8]
    have hd := hexValue_hexDigit (c.toNat / 16) (by omega)
    have hm := hexValue_hexDigit (c.toNat % 16) (by omega)
    have h0 : hexValue '0' = some 0 := by decide
    rw [List.cons_append, stringUnits.eq_def]
    simp only [List.cons_append, List.nil_append, hd, hm, h0, Option.bind_eq_bind, Option.bind_some,
      Char.reduceEq, if_false, if_true]
    rw [show 4096 * 0 + 256 * 0 + 16 * (c.toNat / 16) + c.toNat % 16 = c.toNat by omega]
    exact hbind _
  · rw [List.cons_append, stringUnits.eq_def]
    simp only [h1, h2, h8, if_false, List.nil_append]
    cases stringUnits rest <;> rfl

/-! ### Numbers -/

theorem toDigits_eq_append {n : Nat} (h : 10 ≤ n) :
    Nat.toDigits 10 n = Nat.toDigits 10 (n / 10) ++ [Nat.digitChar (n % 10)] := by
  have := Nat.toDigits_append_toDigits (b := 10) (n := n / 10) (d := n % 10) (by omega) (by omega)
    (Nat.mod_lt _ (by omega))
  rw [Nat.toDigits_of_lt_base (Nat.mod_lt _ (by omega))] at this
  rw [this, Nat.div_add_mod]

theorem digitChar_facts : ∀ d < 10, (Nat.digitChar d).isDigit = true ∧ (Nat.digitChar d).toNat - 48 = d ∧
    (Nat.digitChar d = '0' → d = 0) := by
  decide

theorem toDigits_facts (n : Nat) : (∀ c ∈ Nat.toDigits 10 n, c.isDigit = true) ∧
    digitsValue (Nat.toDigits 10 n) = n ∧ Nat.toDigits 10 n ≠ [] ∧
    ((Nat.toDigits 10 n).head? = some '0' → n = 0) := by
  induction n using Nat.strong_induction_on with
  | _ n ih =>
    rcases Nat.lt_or_ge n 10 with h | h
    · obtain ⟨h1, h2, h3⟩ := digitChar_facts n h
      rw [Nat.toDigits_of_lt_base h]
      refine ⟨by simpa using h1, by simpa [digitsValue] using h2, by simp, fun h0 => h3 ?_⟩
      simpa using h0
    · obtain ⟨ih1, ih2, ih3, ih4⟩ := ih (n / 10) (by omega)
      obtain ⟨h1, h2, -⟩ := digitChar_facts (n % 10) (Nat.mod_lt _ (by omega))
      rw [toDigits_eq_append h]
      refine ⟨fun c hc => ?_, ?_, by simp, fun h0 => ?_⟩
      · rcases List.mem_append.1 hc with hc | hc
        · exact ih1 c hc
        · rw [List.mem_singleton.1 hc]; exact h1
      · rw [digitsValue, List.foldl_append, ← digitsValue, ih2]
        simp only [List.foldl_cons, List.foldl_nil, h2]
        omega
      · rw [List.head?_append_of_ne_nil _ ih3] at h0
        have := ih4 h0
        omega

/-- `rest` cannot continue a number. -/
def Stops (rest : List Char) : Prop :=
  ∀ c ∈ rest.head?, c.isDigit = false ∧ c ≠ '.' ∧ c ≠ 'e' ∧ c ≠ 'E'

theorem span_digits {ds : List Char} (hd : ∀ c ∈ ds, c.isDigit = true) {rest : List Char}
    (hr : ∀ c ∈ rest.head?, c.isDigit = false) : (ds ++ rest).span Char.isDigit = (ds, rest) := by
  rw [List.span_eq_takeWhile_dropWhile, List.takeWhile_append_of_pos hd, List.dropWhile_append_of_pos hd]
  cases rest with
  | nil => simp
  | cons c rest => simp [hr c rfl]

theorem isDigit_head_toDigits (n : Nat) : ∃ c cs, Nat.toDigits 10 n = c :: cs ∧ c.isDigit = true := by
  obtain ⟨h1, -, h3, -⟩ := toDigits_facts n
  obtain ⟨c, cs, hc⟩ := List.exists_cons_of_ne_nil h3
  exact ⟨c, cs, hc, h1 c (by rw [hc]; simp)⟩

theorem parseSign_intText (i : Int) (rest : List Char) : ∃ n : Nat, ∃ neg,
    parseSign (intText i ++ rest) = (neg, Nat.toDigits 10 n ++ rest) ∧ signed neg n = i := by
  cases i with
  | ofNat n =>
    obtain ⟨c, cs, hc, hd⟩ := isDigit_head_toDigits n
    refine ⟨n, false, ?_, rfl⟩
    have : c ≠ '-' := by rintro rfl; exact absurd hd (by decide)
    simp only [intText, hc, List.cons_append]
    unfold parseSign
    split
    · rename_i h; exact absurd (List.cons.inj h).1 this
    · rfl
  | negSucc n => exact ⟨n + 1, true, rfl, by simp [signed, Int.negSucc_eq]⟩

theorem parseExponent_of_stops {rest : List Char} (h : Stops rest) :
    parseExponent rest = some (0, rest) := by
  cases rest with
  | nil => rfl
  | cons c rest =>
    obtain ⟨-, -, h1, h2⟩ := h c rfl
    simp [parseExponent, h1, h2]

theorem intText_head (i : Int) (rest : List Char) : ∃ c cs, intText i ++ rest = c :: cs ∧ (c = '-' ∨ c.isDigit) := by
  cases i with
  | ofNat n =>
    obtain ⟨c, cs, hc, hd⟩ := isDigit_head_toDigits n
    exact ⟨c, cs ++ rest, by simp [intText, hc], .inr hd⟩
  | negSucc n => exact ⟨'-', _, rfl, .inl rfl⟩

theorem parseExponent_intText (e : Int) {rest : List Char} (h : Stops rest) :
    parseExponent ('e' :: (intText e ++ rest)) = some (e, rest) := by
  obtain ⟨n, neg, hs, he⟩ := parseSign_intText e rest
  obtain ⟨hd, hv, hne, -⟩ := toDigits_facts n
  obtain ⟨c, cs, hc, hcc⟩ := intText_head e rest
  have hplus : c ≠ '+' := by rintro rfl; revert hcc; decide
  have hsign : parseExponentSign (intText e ++ rest) = (neg, Nat.toDigits 10 n ++ rest) := by
    rw [← hs, hc]
    unfold parseExponentSign
    split
    · rename_i h; exact absurd (List.cons.inj h).1 hplus
    · rfl
  simp only [parseExponent, true_or, if_true, hsign,
    span_digits hd fun c hc => (h c hc).1, hne, if_false, hv, he]

theorem parseNumber_numText (d : Decimal) {rest : List Char} (h : Stops rest) :
    parseNumber (numText d ++ rest) = some (d, rest) := by
  obtain ⟨n, neg, hs, hm⟩ := parseSign_intText d.mantissa
    ((if d.exponent = 0 then [] else 'e' :: intText d.exponent) ++ rest)
  obtain ⟨hd, hv, hne, hz⟩ := toDigits_facts n
  have hstop : ∀ c ∈ ((if d.exponent = 0 then [] else 'e' :: intText d.exponent) ++ rest).head?,
      c.isDigit = false ∧ c ≠ '.' := by
    intro c hc
    split_ifs at hc with h0
    · exact ⟨(h c hc).1, (h c hc).2.1⟩
    · obtain rfl : 'e' = c := by simpa using hc
      decide
  have hlead : ¬ (Nat.toDigits 10 n = [] ∨
      (Nat.toDigits 10 n).head? = some '0' ∧ (Nat.toDigits 10 n).length ≠ 1) := by
    rintro (h0 | ⟨h0, h1⟩)
    · exact hne h0
    · rw [hz h0] at h1; exact h1 rfl
  have hfrac : ∀ cs, (∀ c ∈ cs.head?, c ≠ '.') → parseFraction cs = some ([], cs) := by
    intro cs hcs
    unfold parseFraction
    split
    · exact absurd rfl (hcs '.' rfl)
    · rfl
  have hexp : parseExponent ((if d.exponent = 0 then [] else 'e' :: intText d.exponent) ++ rest) =
      some (d.exponent, rest) := by
    split_ifs with h0
    · rw [List.nil_append, parseExponent_of_stops h, h0]
    · exact parseExponent_intText d.exponent h
  rw [numText, List.append_assoc, parseNumber]
  simp only [hs, span_digits hd fun c hc => (hstop c hc).1, hlead, if_false, Option.pure_def,
    hfrac _ fun c hc => (hstop c hc).2, hexp, Option.bind_eq_bind, Option.bind_some,
    List.append_nil, hv, hm, List.length_nil, Nat.cast_zero, sub_zero]

theorem skipSpace_cons {c : Char} (h : isSpace c = false) (cs : List Char) :
    skipSpace (c :: cs) = c :: cs := by
  simp [skipSpace, h]

theorem stops_cons {c : Char} (cs : List Char)
    (h : c.isDigit = false ∧ c ≠ '.' ∧ c ≠ 'e' ∧ c ≠ 'E') : Stops (c :: cs) := by
  intro c' hc'
  obtain rfl : c = c' := by simpa using hc'
  exact h

theorem isSpace_of_number {c : Char} (h : c = '-' ∨ c.isDigit) : isSpace c = false := by
  rcases h with rfl | h
  · decide
  · by_contra hs
    simp only [isSpace, Bool.not_eq_false, Bool.or_eq_true, decide_eq_true_eq] at hs
    rcases hs with ((rfl | rfl) | rfl) | rfl <;> exact absurd h (by decide)

theorem parseValue_number (fuel : Nat) (d : Decimal) {rest : List Char} (h : Stops rest) :
    parseValue (fuel + 1) (numText d ++ rest) = some (.num d, rest) := by
  obtain ⟨c, cs, hc, hcc⟩ := intText_head d.mantissa
    ((if d.exponent = 0 then [] else 'e' :: intText d.exponent) ++ rest)
  have hn := parseNumber_numText d h
  rw [numText, List.append_assoc, hc] at hn ⊢
  rw [parseValue, skipSpace_cons (isSpace_of_number hcc)]
  simp only [hcc, if_true, hn, Option.bind_eq_bind, Option.bind_some, Option.pure_def]

/-! ### Formats -/

/-- A way to write JSON: the escape of a letter in a string, and what follows a comma or a colon. -/
structure Format where
  escape : Char → List Char
  space : List Char
  units_escape : ∀ c rest,
    stringUnits (escape c ++ rest) = (stringUnits rest).map fun p => (utf16 c ++ p.1, p.2)
  isSpace_space : ∀ c ∈ space, isSpace c = true

namespace Format
variable (f : Format)

def quote (s : String) : List Char := '"' :: s.toList.flatMap f.escape ++ ['"']

mutual
def text : Json → List Char
  | .null => ['n', 'u', 'l', 'l']
  | .bool true => ['t', 'r', 'u', 'e']
  | .bool false => ['f', 'a', 'l', 's', 'e']
  | .num n => numText n
  | .str s => f.quote s
  | .arr [] => ['[', ']']
  | .arr (v :: vs) => '[' :: (text v ++ moreElements vs)
  | .obj [] => ['{', '}']
  | .obj ((k, v) :: ms) => '{' :: (f.quote k ++ ':' :: (f.space ++ (text v ++ moreMembers ms)))

def moreElements : List Json → List Char
  | [] => [']']
  | v :: vs => ',' :: (f.space ++ (text v ++ moreElements vs))

def moreMembers : List (String × Json) → List Char
  | [] => ['}']
  | (k, v) :: ms => ',' :: (f.space ++ (f.quote k ++ ':' :: (f.space ++ (text v ++ moreMembers ms))))
end

def write (v : Json) : String := String.ofList (f.text v)

theorem quote_append (s : String) (rest : List Char) :
    f.quote s ++ rest = '"' :: (s.toList.flatMap f.escape ++ '"' :: rest) := by
  simp [quote]

theorem units_flatMap (cs rest : List Char) :
    stringUnits (cs.flatMap f.escape ++ '"' :: rest) = some (cs.flatMap utf16, rest) := by
  induction cs with
  | nil => rw [List.flatMap_nil, List.nil_append, stringUnits.eq_def]; rfl
  | cons c cs ih =>
    rw [List.flatMap_cons, List.append_assoc, f.units_escape, ih]
    rfl

theorem parseString_quote (s : String) (rest : List Char) :
    parseString (s.toList.flatMap f.escape ++ '"' :: rest) = some (s, rest) := by
  have hunits := f.units_flatMap s.toList rest
  simp [parseString, hunits, decodeUtf16_flatMap]

theorem skipSpace_space (cs : List Char) : skipSpace (f.space ++ cs) = skipSpace cs := by
  unfold skipSpace
  exact List.dropWhile_append_of_pos f.isSpace_space

theorem parseValue_space (fuel : Nat) (cs : List Char) : parseValue fuel (f.space ++ cs) = parseValue fuel cs := by
  cases fuel with
  | zero => rfl
  | succ fuel => rw [parseValue, parseValue, skipSpace_space]

theorem parseMember_space (fuel : Nat) (cs : List Char) :
    parseMember fuel (f.space ++ cs) = parseMember fuel cs := by
  cases fuel with
  | zero => rfl
  | succ fuel => rw [parseMember, parseMember, skipSpace_space]

theorem stops_moreElements (vs : List Json) (rest : List Char) : Stops (f.moreElements vs ++ rest) := by
  cases vs <;> exact stops_cons _ (by decide)

theorem stops_moreMembers (ms : List (String × Json)) (rest : List Char) : Stops (f.moreMembers ms ++ rest) := by
  cases ms <;> exact stops_cons _ (by decide)

theorem text_head (v : Json) (rest : List Char) :
    ∃ c cs, f.text v ++ rest = c :: cs ∧ isSpace c = false ∧ c ≠ ']' := by
  cases v with
  | null => exact ⟨'n', _, rfl, by decide, by decide⟩
  | bool b => cases b <;> exact ⟨_, _, rfl, by decide, by decide⟩
  | num d =>
    obtain ⟨c, cs, hc, hcc⟩ := intText_head d.mantissa
      ((if d.exponent = 0 then [] else 'e' :: intText d.exponent) ++ rest)
    refine ⟨c, cs, by rw [text, numText, List.append_assoc, hc], isSpace_of_number hcc, ?_⟩
    rintro rfl
    revert hcc
    decide
  | str s => exact ⟨'"', _, by rw [text, quote_append], by decide, by decide⟩
  | arr vs => cases vs <;> exact ⟨'[', _, by rw [text]; rfl, by decide, by decide⟩
  | obj ms => cases ms <;> exact ⟨'{', _, by rw [text]; rfl, by decide, by decide⟩

/-- There is fuel to read a value if there is as much as its text is long. -/
theorem exists_fuel {v : Json} {fuel : Nat} (h : (f.text v).length ≤ fuel) : ∃ n, fuel = n + 1 := by
  obtain ⟨c, cs, hc, -⟩ := f.text_head v []
  rw [List.append_nil] at hc
  rw [hc, List.length_cons] at h
  exact Nat.exists_eq_add_of_le' (by omega)

theorem parseMember_text {k : String} {v : Json} {fuel : Nat} {rest : List Char}
    (hv : parseValue fuel (f.text v ++ rest) = some (v, rest)) :
    parseMember (fuel + 1) (f.quote k ++ ':' :: (f.space ++ (f.text v ++ rest))) = some ((k, v), rest) := by
  simp [parseMember, quote_append, skipSpace_cons (show isSpace '"' = false by decide),
    skipSpace_cons (show isSpace ':' = false by decide), parseString_quote, parseValue_space, hv]

mutual
theorem parseValue_text : ∀ (v : Json) (fuel : Nat) (rest : List Char), (f.text v).length ≤ fuel →
    Stops rest → parseValue fuel (f.text v ++ rest) = some (v, rest)
  | .null, fuel, rest, h, _ => by
    obtain ⟨fuel, rfl⟩ := f.exists_fuel h
    simp [text, parseValue, skipSpace_cons (show isSpace 'n' = false by decide)]
  | .bool true, fuel, rest, h, _ => by
    obtain ⟨fuel, rfl⟩ := f.exists_fuel h
    simp [text, parseValue, skipSpace_cons (show isSpace 't' = false by decide)]
  | .bool false, fuel, rest, h, _ => by
    obtain ⟨fuel, rfl⟩ := f.exists_fuel h
    simp [text, parseValue, skipSpace_cons (show isSpace 'f' = false by decide)]
  | .num d, fuel, rest, h, hr => by
    obtain ⟨fuel, rfl⟩ := f.exists_fuel h
    exact parseValue_number fuel d hr
  | .str s, fuel, rest, h, _ => by
    obtain ⟨fuel, rfl⟩ := f.exists_fuel h
    simp [text, parseValue, quote_append, skipSpace_cons (show isSpace '"' = false by decide),
      parseString_quote]
  | .arr [], fuel, rest, h, _ => by
    obtain ⟨fuel, rfl⟩ := f.exists_fuel h
    simp [text, parseValue, skipSpace_cons (show isSpace '[' = false by decide),
      skipSpace_cons (show isSpace ']' = false by decide)]
  | .arr (v :: vs), fuel, rest, h, _ => by
    obtain ⟨fuel, rfl⟩ := f.exists_fuel h
    simp only [text, List.length_cons, List.length_append] at h
    have hv := parseValue_text v fuel (f.moreElements vs ++ rest) (by omega) (f.stops_moreElements vs rest)
    have hvs := parseMoreElements_text vs fuel rest (by omega)
    obtain ⟨c, cs, hc, hsp, hcl⟩ := f.text_head v (f.moreElements vs ++ rest)
    rw [hc] at hv
    simp only [text, List.cons_append, List.append_assoc, hc, parseValue,
      skipSpace_cons (show isSpace '[' = false by decide), skipSpace_cons hsp]
    rw [if_neg (by decide)]
    split
    · rename_i h0; exact absurd (List.cons.inj h0).1 hcl
    · simp [hv, hvs]
  | .obj [], fuel, rest, h, _ => by
    obtain ⟨fuel, rfl⟩ := f.exists_fuel h
    simp [text, parseValue, skipSpace_cons (show isSpace '{' = false by decide),
      skipSpace_cons (show isSpace '}' = false by decide)]
  | .obj ((k, v) :: ms), fuel, rest, h, _ => by
    simp only [text, List.length_cons, List.length_append] at h
    obtain ⟨fuel, rfl⟩ := Nat.exists_eq_add_of_le' (show 2 ≤ fuel by omega)
    have hv := parseValue_text v fuel (f.moreMembers ms ++ rest) (by omega) (f.stops_moreMembers ms rest)
    have hms := parseMoreMembers_text ms (fuel + 1) rest (by omega)
    have hm := f.parseMember_text (k := k) hv
    rw [quote_append] at hm
    simp [text, parseValue, quote_append, skipSpace_cons (show isSpace '{' = false by decide),
      skipSpace_cons (show isSpace '"' = false by decide), hm, hms]

theorem parseMoreElements_text : ∀ (vs : List Json) (fuel : Nat) (rest : List Char),
    (f.moreElements vs).length ≤ fuel → parseMoreElements fuel (f.moreElements vs ++ rest) = some (vs, rest)
  | [], fuel, rest, h => by
    obtain ⟨fuel, rfl⟩ := Nat.exists_eq_add_of_le' (show 1 ≤ fuel by simp [moreElements] at h; omega)
    simp [moreElements, parseMoreElements, skipSpace_cons (show isSpace ']' = false by decide)]
  | v :: vs, fuel, rest, h => by
    simp only [moreElements, List.length_cons, List.length_append] at h
    obtain ⟨fuel, rfl⟩ := Nat.exists_eq_add_of_le' (show 1 ≤ fuel by omega)
    have hv := parseValue_text v fuel (f.moreElements vs ++ rest) (by omega) (f.stops_moreElements vs rest)
    have hvs := parseMoreElements_text vs fuel rest (by omega)
    simp [moreElements, parseMoreElements, skipSpace_cons (show isSpace ',' = false by decide),
      parseValue_space, hv, hvs]

theorem parseMoreMembers_text : ∀ (ms : List (String × Json)) (fuel : Nat) (rest : List Char),
    (f.moreMembers ms).length ≤ fuel → parseMoreMembers fuel (f.moreMembers ms ++ rest) = some (ms, rest)
  | [], fuel, rest, h => by
    obtain ⟨fuel, rfl⟩ := Nat.exists_eq_add_of_le' (show 1 ≤ fuel by simp [moreMembers] at h; omega)
    simp [moreMembers, parseMoreMembers, skipSpace_cons (show isSpace '}' = false by decide)]
  | (k, v) :: ms, fuel, rest, h => by
    simp only [moreMembers, List.length_cons, List.length_append] at h
    obtain ⟨fuel, rfl⟩ := Nat.exists_eq_add_of_le' (show 2 ≤ fuel by omega)
    have hv := parseValue_text v fuel (f.moreMembers ms ++ rest) (by omega) (f.stops_moreMembers ms rest)
    have hms := parseMoreMembers_text ms (fuel + 1) rest (by omega)
    have hm := f.parseMember_text (k := k) hv
    simp only [moreMembers, List.cons_append, List.append_assoc]
    rw [parseMoreMembers]
    simp [skipSpace_cons (show isSpace ',' = false by decide), parseMember_space, hm, hms]
end

/-- The round trip, for every format and every value. -/
theorem parse_write (v : Json) : parse (f.write v) = some v := by
  have h := f.parseValue_text v ((f.text v).length + 1) [] (by omega) (by rintro c ⟨⟩)
  rw [List.append_nil] at h
  simp [parse, write, h, skipSpace]

def plain : Format := ⟨escapeChar, [], stringUnits_escapeChar, by simp⟩

mutual
theorem text_plain (v : Json) : plain.text v = Json.text v := by
  cases v with
  | null => rfl
  | bool b => cases b <;> rfl
  | num d => rfl
  | str s => rfl
  | arr vs =>
    cases vs with
    | nil => rfl
    | cons v vs => rw [text, Json.text, text_plain v, moreElements_plain vs]
  | obj ms =>
    cases ms with
    | nil => rfl
    | cons m ms =>
      obtain ⟨k, v⟩ := m
      rw [text, Json.text, text_plain v, moreMembers_plain ms]
      rfl

theorem moreElements_plain (vs : List Json) : plain.moreElements vs = Json.moreElements vs := by
  cases vs with
  | nil => rfl
  | cons v vs =>
    rw [moreElements, Json.moreElements, text_plain v, moreElements_plain vs]
    rfl

theorem moreMembers_plain (ms : List (String × Json)) : plain.moreMembers ms = Json.moreMembers ms := by
  cases ms with
  | nil => rfl
  | cons m ms =>
    obtain ⟨k, v⟩ := m
    rw [moreMembers, Json.moreMembers, text_plain v, moreMembers_plain ms]
    rfl
end

end Format

theorem parse_stringify (v : Json) : parse (stringify v) = some v := by
  have h := Format.plain.parse_write v
  rw [Format.write, Format.text_plain] at h
  exact h

theorem stringify_injective : Function.Injective stringify := fun v w h =>
  Option.some.inj ((parse_stringify v).symm.trans ((congrArg parse h).trans (parse_stringify w)))

instance : DecidableEq Json := fun _ _ => decidable_of_iff _ stringify_injective.eq_iff

-- what `stringify` does not print: spaces, fractions, exponents, escaped letters
example : parse " [1.50 , -2e3, \"\\u00e9\"] " = some (.arr [.num ⟨150, -2⟩, .num ⟨-2, 3⟩, .str "é"]) := by
  decide +kernel

end Json
