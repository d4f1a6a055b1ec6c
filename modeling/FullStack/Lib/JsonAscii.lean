import FullStack.Lib.JsonRoundTrip
import FullStack.Lib.JsonLength

/-!
# JSON in ASCII

`Json.dumps` writes a value as Python's `json.dumps` does: with a space after each comma and colon, and with
every letter outside ASCII escaped as its UTF-16 code units. It is a `Format`, so what it writes is read back
as the value (`parse_dumps`), and what it writes is ASCII (`ascii_dumps`).
-/

namespace Json

def unicodeEscape (u : Nat) : List Char :=
  ['\\', 'u', hexDigit (u / 4096), hexDigit (u / 256 % 16), hexDigit (u / 16 % 16), hexDigit (u % 16)]

/-- A printable letter and one with a short escape is written as `JSON.stringify` writes it. -/
def asciiEscape (c : Char) : List Char :=
  if 0x20 ≤ c.toNat ∧ c.toNat < 0x7F ∨ c.toNat ∈ [8, 9, 10, 12, 13] then escapeChar c
  else (utf16 c).flatMap unicodeEscape

theorem utf16_lt {c : Char} {u : Nat} (h : u ∈ utf16 c) : u < 0x10000 := by
  have hc := toNat_lt_surrogates_or_gt c
  unfold utf16 at h
  split_ifs at h with hbasic
  · rw [List.mem_singleton.1 h]
    exact hbasic
  · simp only [List.mem_cons, List.not_mem_nil, or_false] at h
    omega

theorem stringUnits_unicodeEscape {u : Nat} (hu : u < 0x10000) (rest : List Char) :
    stringUnits (unicodeEscape u ++ rest) = (stringUnits rest).map fun p => (u :: p.1, p.2) := by
  have h3 := hexValue_hexDigit (u / 4096) (by omega)
  have h2 := hexValue_hexDigit (u / 256 % 16) (Nat.mod_lt _ (by omega))
  have h1 := hexValue_hexDigit (u / 16 % 16) (Nat.mod_lt _ (by omega))
  have h0 := hexValue_hexDigit (u % 16) (Nat.mod_lt _ (by omega))
  have hvalue : 4096 * (u / 4096) + 256 * (u / 256 % 16) + 16 * (u / 16 % 16) + u % 16 = u := by omega
  rw [unicodeEscape, List.cons_append, stringUnits.eq_def]
  simp only [List.cons_append, List.nil_append, h3, h2, h1, h0, Option.bind_eq_bind, Option.bind_some,
    Char.reduceEq, if_false, if_true, hvalue]
  cases stringUnits rest <;> rfl

theorem stringUnits_unicodeEscapes (us : List Nat) (hus : ∀ u ∈ us, u < 0x10000) (rest : List Char) :
    stringUnits (us.flatMap unicodeEscape ++ rest) = (stringUnits rest).map fun p => (us ++ p.1, p.2) := by
  induction us with
  | nil => cases h : stringUnits rest <;> simp [h]
  | cons u us ih =>
    have htail := ih fun u' hu' => hus u' (List.mem_cons_of_mem u hu')
    rw [List.flatMap_cons, List.append_assoc, stringUnits_unicodeEscape (hus u List.mem_cons_self), htail,
      Option.map_map]
    rfl

theorem stringUnits_asciiEscape (c : Char) (rest : List Char) :
    stringUnits (asciiEscape c ++ rest) = (stringUnits rest).map fun p => (utf16 c ++ p.1, p.2) := by
  unfold asciiEscape
  split_ifs
  · exact stringUnits_escapeChar c rest
  · exact stringUnits_unicodeEscapes (utf16 c) (fun u hu => utf16_lt hu) rest

def Format.ascii : Format := ⟨asciiEscape, [' '], stringUnits_asciiEscape, List.forall_mem_singleton.2 rfl⟩

def dumps (v : Json) : String := Format.ascii.write v

theorem parse_dumps (v : Json) : parse (dumps v) = some v := Format.ascii.parse_write v

theorem ascii_unicodeEscape {u : Nat} (hu : u < 0x10000) : Ascii (unicodeEscape u) := by
  have hhex : ∀ n < 16, (hexDigit n).toNat < 128 := by decide
  intro c hc
  simp only [unicodeEscape, List.mem_cons, List.not_mem_nil, or_false] at hc
  rcases hc with rfl | rfl | rfl | rfl | rfl | rfl
  · decide
  · decide
  all_goals exact hhex _ (by omega)

theorem ascii_asciiEscape (c : Char) : Ascii (asciiEscape c) := by
  unfold asciiEscape
  split_ifs with h
  · simp only [List.mem_cons, List.not_mem_nil, or_false] at h
    exact (ascii_escapeChar c).2 (by omega)
  · intro c' hc'
    obtain ⟨u, hu, hmem⟩ := List.mem_flatMap.1 hc'
    exact ascii_unicodeEscape (utf16_lt hu) c' hmem

namespace Format

/-- A format that brings no letter outside ASCII into the text. -/
structure AsciiOnly (f : Format) : Prop where
  escape : ∀ c, Ascii (f.escape c)
  space : Ascii f.space

variable {f : Format}

theorem AsciiOnly.quote (hf : f.AsciiOnly) (s : String) : Ascii (f.quote s) := by
  have hletters : Ascii (s.toList.flatMap f.escape) := by
    intro c hc
    obtain ⟨c', -, hmem⟩ := List.mem_flatMap.1 hc
    exact hf.escape c' c hmem
  simpa [Format.quote] using hletters

mutual
theorem AsciiOnly.text (hf : f.AsciiOnly) (v : Json) : Ascii (f.text v) := by
  cases v with
  | null => simp [Format.text]
  | bool b => cases b <;> simp [Format.text]
  | num d => exact ascii_numText d
  | str s => exact hf.quote s
  | arr vs =>
    cases vs with
    | nil => simp [Format.text]
    | cons v vs =>
      have hv := hf.text v
      have hvs := hf.moreElements vs
      simp [Format.text, hv, hvs]
  | obj ms =>
    cases ms with
    | nil => simp [Format.text]
    | cons m ms =>
      obtain ⟨k, v⟩ := m
      have hk := hf.quote k
      have hv := hf.text v
      have hms := hf.moreMembers ms
      simp [Format.text, hk, hf.space, hv, hms]

theorem AsciiOnly.moreElements (hf : f.AsciiOnly) (vs : List Json) : Ascii (f.moreElements vs) := by
  cases vs with
  | nil => simp [Format.moreElements]
  | cons v vs =>
    have hv := hf.text v
    have hvs := hf.moreElements vs
    simp [Format.moreElements, hf.space, hv, hvs]

theorem AsciiOnly.moreMembers (hf : f.AsciiOnly) (ms : List (String × Json)) : Ascii (f.moreMembers ms) := by
  cases ms with
  | nil => simp [Format.moreMembers]
  | cons m ms =>
    obtain ⟨k, v⟩ := m
    have hk := hf.quote k
    have hv := hf.text v
    have hms := hf.moreMembers ms
    simp [Format.moreMembers, hk, hf.space, hv, hms]
end

end Format

theorem asciiOnly_ascii : Format.ascii.AsciiOnly := ⟨ascii_asciiEscape, by decide⟩

theorem ascii_dumps (v : Json) : Ascii (dumps v).toList := by
  rw [dumps, Format.write, String.toList_ofList]
  exact asciiOnly_ascii.text v

end Json
