import FullStack.UpdateSearchCluster
import Mathlib.Data.List.DropRight
import Mathlib.Data.List.TakeWhile

/-!
# Which document a record addresses

The function puts the key values, joined with `-` and unescaped, at the end of a URL. A server takes
the path of the URL, without query and fragment, and names the document by the one segment after the
type. For a table with only a hash key of type N this tells the keys apart. With a range key the id
depends on the order of the attributes, a string may hold `?`, `#` or `/`, and so may the base64 text of
a binary hold `/`; so there are no other such tables (`documentIdentity_iff`).
-/

namespace FullStack

namespace UpdateSearchCluster

structure KeyAttribute where
  name : String
  type : AttributeType

structure KeySchema where
  hash : KeyAttribute
  range : Option KeyAttribute
  distinct : ∀ r ∈ range, r.name ≠ hash.name

def KeySchema.attributes (T : KeySchema) : List KeyAttribute := T.hash :: T.range.toList

def isUnsigned (digits : List Char) : Bool :=
  !(digits.takeWhile Char.isDigit).isEmpty &&
    match digits.dropWhile Char.isDigit with
    | [] => true
    | '.' :: fraction => !fraction.isEmpty && fraction.all Char.isDigit
    | _ => false

/-- The text of a number as DynamoDB returns it. -/
def isNumeral : List Char → Bool
  | '-' :: digits => isUnsigned digits
  | digits => isUnsigned digits

def isBase64Char (c : Char) : Bool := c.isAlphanum || c = '+' || c = '/'

/-- The base64 text of a binary: groups of four, the last one padded. -/
def isBase64 : List Char → Bool
  | [] => true
  | [a, b, '=', '='] => isBase64Char a && isBase64Char b
  | [a, b, c, '='] => isBase64Char a && isBase64Char b && isBase64Char c
  | a :: b :: c :: d :: rest =>
    isBase64Char a && isBase64Char b && isBase64Char c && isBase64Char d && isBase64 rest
  | _ => false

/-- A key attribute can have any value of its type that is not empty. -/
def KeyAttribute.admits (a : KeyAttribute) (v : AttributeValue) : Bool :=
  v.type = a.type &&
    match a.type with
    | .S => v.text ≠ ""
    | .N => isNumeral v.text.toList
    | .B => v.text ≠ "" && isBase64 v.text.toList

/-- A stream record of the table, whatever order its key attributes come in. -/
def KeySchema.HasRecord (T : KeySchema) (r : StreamRecord) : Prop :=
  ∃ keys, List.Forall₂ (fun a kv => kv.1 = a.name ∧ a.admits kv.2 = true) T.attributes keys ∧ r.keys.Perm keys

/-- The domain name of the cluster. -/
structure Endpoint where
  name : String
  host : name.toList.all (fun c => c.isAlphanum || c = '-' || c = '.') = true

/-- The characters that stand for themselves in a URL. -/
def isUnreserved (c : Char) : Bool := c.isAlphanum || c = '-' || c = '.' || c = '_' || c = '~'

/-- How client and server escape and unescape a segment of the path, if they take it at all. The client removes
the segments `.` and `..`. -/
structure PathDecoding where
  decode : String → Option String
  unreserved : ∀ s, s ∉ [".", ".."] → s.toList.all isUnreserved = true → decode s = some s

def isPlain (c : Char) : Bool := c ≠ '?' && c ≠ '#'

def pathPart (u : List Char) : List Char := u.takeWhile isPlain

/-- The document that the rest of a path after the type names. A slash at the end is ignored. -/
def PathDecoding.document (D : PathDecoding) (rest : List Char) : Option String :=
  let segment := rest.rdropWhile (· = '/')
  if segment = [] ∨ '/' ∈ segment then none else D.decode (String.ofList segment)

def addressed (D : PathDecoding) (e : Endpoint) (u : String) : Option String :=
  ((pathPart u.toList).dropPrefix? (url e.name).toList).bind D.document

def requestUrl : EsWrite → String
  | .delete url => url
  | .put url _ => url

def SameDocument (D : PathDecoding) (e : Endpoint) (r r' : StreamRecord) : Prop :=
  ∃ document, addressed D e (requestUrl (recordWrite (url e.name) r)) = some document ∧
    addressed D e (requestUrl (recordWrite (url e.name) r')) = some document

/-- Two records of the table address one document exactly if they have one primary key. -/
def DocumentIdentity (D : PathDecoding) (e : Endpoint) (T : KeySchema) : Prop :=
  ∀ r r', T.HasRecord r → T.HasRecord r' → (SameDocument D e r r' ↔ r.primaryKey = r'.primaryKey)

section
variable {D : PathDecoding} {e : Endpoint} {T : KeySchema} {r r' : StreamRecord}

theorem requestUrl_recordWrite (u : String) : requestUrl (recordWrite u r) = u ++ generateUUID r := by
  rw [recordWrite]
  cases r.change <;> rfl

theorem isPlain_of_host {c : Char} (h : (c.isAlphanum || c = '-' || c = '.') = true) : isPlain c = true := by
  rw [isPlain, Bool.and_eq_true, decide_eq_true_eq, decide_eq_true_eq]
  constructor
  · rintro rfl
    cases h
  · rintro rfl
    cases h

theorem url_plain {c : Char} (hc : c ∈ (url e.name).toList) : isPlain c = true := by
  have hscheme : "https://".toList.all isPlain = true := by decide
  have htype : "/lambda-index/lambda-type/".toList.all isPlain = true := by decide
  rw [url, String.toList_append, String.toList_append, List.mem_append, List.mem_append] at hc
  rcases hc with (hc | hc) | hc
  · exact List.all_eq_true.1 hscheme c hc
  · exact isPlain_of_host (List.all_eq_true.1 e.host c hc)
  · exact List.all_eq_true.1 htype c hc

theorem addressed_url (id : String) : addressed D e (url e.name ++ id) = D.document (pathPart id.toList) := by
  have hpath : pathPart (url e.name ++ id).toList = (url e.name).toList ++ pathPart id.toList := by
    rw [pathPart, String.toList_append, List.takeWhile_append_of_pos fun c hc => url_plain hc, pathPart]
  rw [addressed, hpath, List.dropPrefix?_append_of_beq _ (beq_self_eq_true _)]
  rfl

theorem isUnreserved_plain {c : Char} (h : isUnreserved c = true) : c ≠ '?' ∧ c ≠ '#' ∧ c ≠ '/' := by
  refine ⟨?_, ?_, ?_⟩
  · rintro rfl
    cases h
  · rintro rfl
    cases h
  · rintro rfl
    cases h

/-- An id of unreserved characters is the id of the document. -/
theorem addressed_unreserved {id : String} (hne : id ∉ ["", ".", ".."]) (h : id.toList.all isUnreserved = true) :
    addressed D e (url e.name ++ id) = some id := by
  have hpath : pathPart id.toList = id.toList := by
    refine List.takeWhile_eq_self_iff.2 fun c hc => ?_
    obtain ⟨hq, hf, -⟩ := isUnreserved_plain (List.all_eq_true.1 h c hc)
    simp [isPlain, hq, hf]
  have hslash : '/' ∉ id.toList := fun hmem => (isUnreserved_plain (List.all_eq_true.1 h _ hmem)).2.2 rfl
  have htrim : id.toList.rdropWhile (· = '/') = id.toList := by
    refine List.rdropWhile_eq_self_iff.2 fun hl hlast => hslash ?_
    rw [← of_decide_eq_true hlast]
    exact List.getLast_mem hl
  obtain ⟨hempty, hdots⟩ := not_or.1 (mt List.mem_cons.2 hne)
  have hnil : id.toList ≠ [] := fun hnil => hempty (String.toList_eq_nil_iff.1 hnil)
  rw [addressed_url, hpath, PathDecoding.document, htrim, if_neg (not_or.2 ⟨hnil, hslash⟩), String.ofList_toList,
    D.unreserved id hdots h]

theorem isUnreserved_digit {c : Char} (h : c.isDigit = true) : isUnreserved c = true := by
  rw [isUnreserved, Char.isAlphanum, h, Bool.or_true]
  rfl

theorem isUnsigned_chars {digits : List Char} (h : isUnsigned digits = true) :
    (∃ c ∈ digits, c.isDigit = true) ∧ ∀ c ∈ digits, isUnreserved c = true := by
  rw [isUnsigned, Bool.and_eq_true] at h
  obtain ⟨hwhole, hrest⟩ := h
  refine ⟨?_, fun c hc => ?_⟩
  · obtain ⟨c, hc⟩ := List.exists_mem_of_ne_nil (digits.takeWhile Char.isDigit) (by simpa using hwhole)
    exact ⟨c, (List.takeWhile_prefix _).subset hc, List.mem_takeWhile_imp hc⟩
  · rw [← List.takeWhile_append_dropWhile (p := Char.isDigit) (l := digits), List.mem_append] at hc
    rcases hc with hc | hc
    · exact isUnreserved_digit (List.mem_takeWhile_imp hc)
    · split at hrest
      · rename_i hnil
        rw [hnil] at hc
        cases hc
      · rename_i fraction hfraction
        rw [Bool.and_eq_true, List.all_eq_true] at hrest
        rw [hfraction, List.mem_cons] at hc
        rcases hc with rfl | hc
        · decide
        · exact isUnreserved_digit (hrest.2 c hc)
      · cases hrest

theorem isNumeral_chars {text : List Char} (h : isNumeral text = true) :
    (∃ c ∈ text, c.isDigit = true) ∧ ∀ c ∈ text, isUnreserved c = true := by
  rw [isNumeral.eq_def] at h
  split at h
  · rename_i digits
    obtain ⟨⟨c, hc, hdigit⟩, hchars⟩ := isUnsigned_chars h
    refine ⟨⟨c, List.mem_cons_of_mem _ hc, hdigit⟩, fun c hc => ?_⟩
    rcases List.mem_cons.1 hc with rfl | hc
    · decide
    · exact hchars c hc
  · exact isUnsigned_chars h

theorem keys_of_hashOnly (hrange : T.range = none) (h : T.HasRecord r) :
    ∃ v, r.keys = [(T.hash.name, v)] ∧ T.hash.admits v = true := by
  obtain ⟨keys, hkeys, hperm⟩ := h
  rw [KeySchema.attributes, hrange, Option.toList_none] at hkeys
  rcases hkeys with _ | ⟨⟨hname, hadmits⟩, hnil⟩
  cases hnil
  rename_i kv
  refine ⟨kv.2, ?_, hadmits⟩
  rw [hperm.eq_singleton, ← hname]

theorem primaryKey_singleton {n : String} {v : AttributeValue} (h : r.keys = [(n, v)]) : r.primaryKey = {(n, v)} := by
  rw [StreamRecord.primaryKey, h]
  rfl

theorem generateUUID_singleton {n : String} {v : AttributeValue} (h : r.keys = [(n, v)]) : generateUUID r = v.text := by
  rw [generateUUID, h]
  exact String.empty_append

theorem generateUUID_pair {n m : String} {v w : AttributeValue} (h : r.keys = [(n, v), (m, w)]) :
    generateUUID r = v.text ++ "-" ++ w.text := by
  rw [generateUUID, h]
  exact congrArg (· ++ "-" ++ w.text) String.empty_append

theorem documentIdentity_numeral (hrange : T.range = none) (htype : T.hash.type = .N) : DocumentIdentity D e T := by
  have haddress : ∀ r, T.HasRecord r → ∃ text, r.primaryKey = {(T.hash.name, ⟨.N, text⟩)} ∧
      addressed D e (requestUrl (recordWrite (url e.name) r)) = some text := by
    intro r hr
    obtain ⟨⟨type, text⟩, hkeys, hadmits⟩ := keys_of_hashOnly hrange hr
    rw [KeyAttribute.admits, htype, Bool.and_eq_true, decide_eq_true_eq] at hadmits
    obtain ⟨rfl, hnumeral⟩ := hadmits
    obtain ⟨⟨c, hc, hdigit⟩, hchars⟩ := isNumeral_chars hnumeral
    -- a numeral has a digit, and so is no dot segment
    have hdots : (["", ".", ".."].all fun s => s.toList.all fun c => !c.isDigit) = true := by decide
    have hne : text ∉ ["", ".", ".."] := by
      intro hmem
      have hdot := List.all_eq_true.1 (List.all_eq_true.1 hdots text hmem) c hc
      rw [hdigit] at hdot
      cases hdot
    refine ⟨text, primaryKey_singleton hkeys, ?_⟩
    rw [requestUrl_recordWrite, generateUUID_singleton hkeys]
    exact addressed_unreserved hne (List.all_eq_true.2 hchars)
  intro r r' hr hr'
  obtain ⟨text, hkey, htext⟩ := haddress r hr
  obtain ⟨text', hkey', htext'⟩ := haddress r' hr'
  rw [hkey, hkey', SameDocument, htext, htext']
  constructor
  · rintro ⟨document, hd, hd'⟩
    rw [Option.some.inj hd, Option.some.inj hd']
  · intro h
    have hpair := Multiset.singleton_inj.1 h
    injection hpair with hname hvalue
    injection hvalue with htype htext
    exact ⟨text, rfl, by rw [htext]⟩

theorem hasRecord_hashOnly (hrange : T.range = none) {v : AttributeValue} (hv : T.hash.admits v = true)
    (change : Change) : T.HasRecord ⟨[(T.hash.name, v)], change⟩ := by
  refine ⟨[(T.hash.name, v)], ?_, List.Perm.refl _⟩
  rw [KeySchema.attributes, hrange]
  exact .cons ⟨rfl, hv⟩ .nil

theorem admits_digits {a : KeyAttribute} {text : String} (htext : text = "1111" ∨ text = "2222") :
    a.admits ⟨a.type, text⟩ = true := by
  rw [KeyAttribute.admits]
  cases a.type <;> rcases htext with rfl | rfl <;> decide

/-- The id of a key with two attributes depends on their order. -/
theorem not_documentIdentity_range {a : KeyAttribute} (hrange : T.range = some a) : ¬ DocumentIdentity D e T := by
  intro h
  have hfields : List.Forall₂ (fun a kv => kv.1 = a.name ∧ a.admits kv.2 = true) T.attributes
      [(T.hash.name, ⟨T.hash.type, "1111"⟩), (a.name, ⟨a.type, "2222"⟩)] := by
    rw [KeySchema.attributes, hrange]
    exact .cons ⟨rfl, admits_digits (.inl rfl)⟩ (.cons ⟨rfl, admits_digits (.inr rfl)⟩ .nil)
  let r : StreamRecord := ⟨[(T.hash.name, ⟨T.hash.type, "1111"⟩), (a.name, ⟨a.type, "2222"⟩)], .remove⟩
  let r' : StreamRecord := ⟨[(a.name, ⟨a.type, "2222"⟩), (T.hash.name, ⟨T.hash.type, "1111"⟩)], .remove⟩
  have hkey : r.primaryKey = r'.primaryKey := Multiset.coe_eq_coe.2 (List.Perm.swap _ _ _)
  have hid : generateUUID r = "1111-2222" := (generateUUID_pair rfl).trans (by decide : "1111" ++ "-" ++ "2222" = _)
  have hid' : generateUUID r' = "2222-1111" := (generateUUID_pair rfl).trans (by decide : "2222" ++ "-" ++ "1111" = _)
  obtain ⟨document, hd, hd'⟩ := (h r r' ⟨_, hfields, .refl _⟩ ⟨_, hfields, .swap _ _ _⟩).2 hkey
  rw [requestUrl_recordWrite, hid, addressed_unreserved (by decide) (by decide)] at hd
  rw [requestUrl_recordWrite, hid', addressed_unreserved (by decide) (by decide), ← hd] at hd'
  exact absurd hd' (by decide)

theorem not_documentIdentity_string (hrange : T.range = none) (htype : T.hash.type = .S) :
    ¬ DocumentIdentity D e T := by
  intro h
  have hadmits : ∀ text, text ≠ "" → T.hash.admits ⟨.S, text⟩ = true := by
    intro text htext
    rw [KeyAttribute.admits, htype]
    simpa using htext
  have hpath : ∀ text, pathPart text.toList = ['a'] →
      addressed D e (requestUrl (recordWrite (url e.name) ⟨[(T.hash.name, ⟨.S, text⟩)], .remove⟩)) = some "a" := by
    intro text htext
    rw [requestUrl_recordWrite, generateUUID_singleton rfl, addressed_url, htext]
    exact D.unreserved "a" (by decide) (by decide)
  have hsame : SameDocument D e ⟨[(T.hash.name, ⟨.S, "a?x"⟩)], .remove⟩ ⟨[(T.hash.name, ⟨.S, "a?y"⟩)], .remove⟩ :=
    ⟨"a", hpath _ (by decide), hpath _ (by decide)⟩
  have hkey := (h _ _ (hasRecord_hashOnly hrange (hadmits _ (by decide)) _)
    (hasRecord_hashOnly hrange (hadmits _ (by decide)) _)).1 hsame
  have hpair := Multiset.singleton_inj.1 hkey
  injection hpair with hname hvalue
  revert hvalue
  decide

/-- The URL of a base64 text with a slash inside names no document. -/
theorem not_documentIdentity_binary (hrange : T.range = none) (htype : T.hash.type = .B) :
    ¬ DocumentIdentity D e T := by
  intro h
  have hadmits : T.hash.admits ⟨.B, "a/bc"⟩ = true := by
    rw [KeyAttribute.admits, htype]
    decide
  have hrecord := hasRecord_hashOnly hrange hadmits .remove
  obtain ⟨document, hd, -⟩ := (h _ _ hrecord hrecord).2 rfl
  rw [requestUrl_recordWrite, generateUUID_singleton rfl, addressed_url] at hd
  cases hd

end

/-- The records of a table are addressed by their keys exactly if the table has no range key and its hash
key is a number. -/
theorem documentIdentity_iff (D : PathDecoding) (e : Endpoint) (T : KeySchema) :
    DocumentIdentity D e T ↔ T.range = none ∧ T.hash.type = .N := by
  refine ⟨fun h => ?_, fun ⟨hrange, htype⟩ => documentIdentity_numeral hrange htype⟩
  cases hrange : T.range with
  | some a => exact absurd h (not_documentIdentity_range hrange)
  | none =>
    refine ⟨rfl, ?_⟩
    cases htype : T.hash.type with
    | S => exact absurd h (not_documentIdentity_string hrange htype)
    | N => rfl
    | B => exact absurd h (not_documentIdentity_binary hrange htype)

/-- The goals table: a record of the goal `2222` of the user `1111` can come with its attributes in
either order. -/
theorem goalsTable_not_documentIdentity :
    ¬ DocumentIdentity ⟨some, fun _ _ _ => rfl⟩ ⟨"search", by decide⟩
      ⟨⟨"userId", .S⟩, some ⟨"goalId", .S⟩, by decide⟩ :=
  not_documentIdentity_range rfl

end UpdateSearchCluster

end FullStack
