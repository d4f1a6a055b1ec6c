import FullStack.IndexPipeline
import FullStack.SearchCluster

/-!
# Searching while the index follows the table

The search handler over the index that the stream fills. A document has a field `title.S` exactly if the
item has a string for a title (`mem_textFields_image`). With nothing pending a search finds the goals as they
are stored (`search_drained`); in between it may find one as it was, but none that never was (`search_stored`).
-/

namespace FullStack

namespace IndexSearch

open IndexPipeline
open SearchCluster (hits titleMatches hits_eq)

mutual
theorem prefix_of_mem_textFields (path : String) (v : Json) {field text : String}
    (h : (field, text) ∈ textFields path v) : path.toList <+: field.toList := by
  cases v with
  | null => cases h
  | bool b => cases h
  | num d => cases h
  | str s =>
    cases List.mem_singleton.1 h
    exact List.prefix_rfl
  | arr vs => exact prefix_of_mem_elementsFields path vs h
  | obj ms => exact prefix_of_mem_membersFields path ms h

theorem prefix_of_mem_elementsFields (path : String) (vs : List Json) {field text : String}
    (h : (field, text) ∈ elementsFields path vs) : path.toList <+: field.toList := by
  cases vs with
  | nil => cases h
  | cons v vs =>
    rcases List.mem_append.1 h with h | h
    · exact prefix_of_mem_textFields path v h
    · exact prefix_of_mem_elementsFields path vs h

theorem prefix_of_mem_membersFields (path : String) (ms : List (String × Json)) {field text : String}
    (h : (field, text) ∈ membersFields path ms) : path.toList <+: field.toList := by
  cases ms with
  | nil => cases h
  | cons m ms =>
    obtain ⟨k, v⟩ := m
    rcases List.mem_append.1 h with h | h
    · refine List.IsPrefix.trans ?_ (prefix_of_mem_textFields (fieldName path k) v h)
      rw [fieldName]
      split_ifs with hp
      · rw [hp]
        exact List.nil_prefix
      · rw [String.toList_append, String.toList_append, List.append_assoc]
        exact List.prefix_append _ _
    · exact prefix_of_mem_membersFields path ms h
end

theorem mem_membersFields {ms : List (String × Json)} {path : String} {e : String × String} :
    e ∈ membersFields path ms ↔ ∃ m ∈ ms, e ∈ textFields (fieldName path m.1) m.2 := by
  induction ms with
  | nil => simp [membersFields]
  | cons m ms ih => simp [membersFields, ih]

theorem type_subset_fieldName (name type : String) : type.toList ⊆ (fieldName name type).toList := by
  rw [fieldName]
  split_ifs
  · exact List.Subset.refl _
  · rw [String.toList_append]
    exact List.subset_append_right _ _

theorem fieldName_eq_title {name : String} : fieldName name "S" = "title.S" ↔ name = "title" := by
  rw [fieldName]
  split_ifs with hname
  · subst hname
    decide
  · have htitle : "title.S" = "title" ++ "." ++ "S" := by decide
    rw [htitle, String.append_left_inj, String.append_left_inj]

theorem not_mem_of_type {name type s : String} {v : Json} (htype : ¬ type.toList ⊆ "title.S".toList) :
    ("title.S", s) ∉ textFields (fieldName name type) v := by
  intro h
  have hprefix := prefix_of_mem_textFields (fieldName name type) v h
  exact htype fun c hc => hprefix.subset (type_subset_fieldName name type hc)

section
variable {F : StreamFormat} {k : Key} {a : Attributes} {s : String}

theorem mem_textFields_attributeValue {name : String} {v : Json} :
    ("title.S", s) ∈ textFields name (F.attributeValue v) ↔ name = "title" ∧ v = .str s := by
  have hone : ∀ type w, ("title.S", s) ∈ textFields name (.obj [(type, w)]) ↔
      ("title.S", s) ∈ textFields (fieldName name type) w := by
    intro type w
    rw [textFields, membersFields, membersFields, List.append_nil]
  cases v with
  | null =>
    rw [StreamFormat.attributeValue, hone]
    exact iff_of_false (not_mem_of_type (by decide)) (by simp)
  | bool b =>
    rw [StreamFormat.attributeValue, hone]
    exact iff_of_false (not_mem_of_type (by decide)) (by simp)
  | num d =>
    rw [StreamFormat.attributeValue, hone]
    exact iff_of_false (not_mem_of_type (by decide)) (by simp)
  | str t =>
    rw [StreamFormat.attributeValue, hone, textFields, List.mem_singleton, Prod.mk.injEq, Json.str.injEq]
    rw [eq_comm, fieldName_eq_title, eq_comm (a := s)]
  | arr vs =>
    rw [StreamFormat.attributeValue, hone]
    exact iff_of_false (not_mem_of_type (by decide)) (by simp)
  | obj ms =>
    rw [StreamFormat.attributeValue, hone]
    exact iff_of_false (not_mem_of_type (by decide)) (by simp)

theorem mem_attributeMap {ms : List (String × Json)} {name : String} {w : Json} :
    (name, w) ∈ F.attributeMap ms ↔ ∃ v, (name, v) ∈ ms ∧ w = F.attributeValue v := by
  induction ms with
  | nil => simp [StreamFormat.attributeMap]
  | cons m ms ih =>
    obtain ⟨name', v'⟩ := m
    rw [StreamFormat.attributeMap, List.mem_cons, ih]
    constructor
    · rintro (h | ⟨v, hv, hw⟩)
      · cases h
        exact ⟨v', List.mem_cons_self, rfl⟩
      · exact ⟨v, List.mem_cons_of_mem _ hv, hw⟩
    · rintro ⟨v, hv, rfl⟩
      rcases List.mem_cons.1 hv with hv | hv
      · cases hv
        exact .inl rfl
      · exact .inr ⟨v, hv, rfl⟩

/-- The document of an item has the title of the item in its field `title.S`, if the title is a string. -/
theorem mem_textFields_image : ("title.S", s) ∈ textFields "" (F.image k a) ↔ a.find? "title" = some (.str s) := by
  have himage : F.image k a =
      .obj (F.attributeMap (("userId", .str k.userId) :: ("goalId", .str k.goalId) :: a.entries)) := rfl
  have hname : ∀ name, fieldName "" name = name := fun name => if_pos rfl
  rw [himage, textFields, mem_membersFields, ← SortedMap.mem_entries_iff]
  constructor
  · rintro ⟨⟨name, w⟩, hm, h⟩
    rw [hname] at h
    obtain ⟨v, hv, rfl⟩ := mem_attributeMap.1 hm
    obtain ⟨rfl, rfl⟩ := mem_textFields_attributeValue.1 h
    simpa using hv
  · intro h
    refine ⟨("title", F.attributeValue (.str s)), ?_, ?_⟩
    · exact mem_attributeMap.2 ⟨_, List.mem_cons_of_mem _ (List.mem_cons_of_mem _ h), rfl⟩
    · rw [hname]
      exact mem_textFields_attributeValue.2 ⟨rfl, rfl⟩

end

def titled (engine : Engine) (q : String) (a : Attributes) : Bool :=
  match a.find? "title" with
  | some (.str s) => engine.textMatch "title.S" q s
  | _ => false

theorem titled_iff {engine : Engine} {q : String} {a : Attributes} :
    titled engine q a = true ↔ ∃ s, a.find? "title" = some (.str s) ∧ engine.textMatch "title.S" q s = true := by
  rw [titled]
  split
  next s h => simp [h]
  next h =>
    refine iff_of_false (by simp) ?_
    rintro ⟨s, hs, -⟩
    exact h s hs

theorem titleMatches_image {engine : Engine} {q : String} {F : StreamFormat} {k : Key} {a : Attributes} :
    titleMatches engine q (F.image k a) = true ↔ titled engine q a = true := by
  rw [titleMatches, fieldMatches, List.any_eq_true, titled_iff]
  constructor
  · rintro ⟨⟨field, s⟩, hmem, h⟩
    rw [Bool.and_eq_true, decide_eq_true_eq] at h
    obtain ⟨rfl, hmatch⟩ := h
    exact ⟨s, mem_textFields_image.1 hmem, hmatch⟩
  · rintro ⟨s, hs, hmatch⟩
    exact ⟨_, mem_textFields_image.2 hs, by simpa using hmatch⟩

section
variable {engine : Engine} {q : String} {event : SearchCluster.Event} {ranking : Ranking} {esEndpoint : String}
  {index : Index}

theorem matches_of_mem_hits (hq : subscript event.queryStringParameters "q" = .ok q) {d : Json}
    (hd : d ∈ hits engine ranking esEndpoint index event) :
    ∃ u, index.find? u = some d ∧ titleMatches engine q d = true := by
  rw [hits_eq engine hq] at hd
  obtain ⟨⟨u, d⟩, he, rfl⟩ := List.mem_map.1 hd
  obtain ⟨hmem, hmatch⟩ := List.mem_filter.1 ((ranking.perm _).mem_iff.1 (List.mem_of_mem_take he))
  exact ⟨u, SortedMap.mem_entries_iff.1 hmem, hmatch⟩

end

variable {ι : Type} [DecidableEq ι]

def titledItems (engine : Engine) (q : String) (t : Table) : List (Key × Attributes) :=
  t.entries.filter fun e => titled engine q e.2

def searchRun : SearchCluster.Event := ⟨"v", some [("q", "run")]⟩

/-- At any time a hit is the image of an item that was stored, with a title that matches, at some time of the
run. -/
theorem search_stored (S : Setup ι) (t₀ : Table) (actions : List (Action ι)) (engine : Engine) (ranking : Ranking)
    (esEndpoint q : String) (event : SearchCluster.Event) (hq : subscript event.queryStringParameters "q" = .ok q)
    (d : Json) (hd : d ∈ hits engine ranking esEndpoint (after S t₀ actions).delivery.index event) :
    ∃ before, before <+: actions ∧ ∃ k a, (k, a) ∈ titledItems engine q (after S t₀ before).table ∧
      d = S.format.image k a := by
  obtain ⟨u, hu, hmatch⟩ := matches_of_mem_hits hq hd
  obtain ⟨k, a, before, hb, ha, -, rfl⟩ := image_of_indexed hu
  exact ⟨before, hb, k, a, List.mem_filter.2 ⟨SortedMap.mem_entries_iff.2 ha, titleMatches_image.1 hmatch⟩, rfl⟩

/-- The goal `g` has been deleted, and is still found. -/
theorem search_redeliveredRun :
    let deleted := twoShards.format.image ⟨"u", "g"⟩ (createdAttributes (some (.str "run"), some (.str "5 km")) 1)
    ∃ before, before <+: redeliveredRun ∧ ∃ k a,
      (k, a) ∈ titledItems SearchCluster.exactEngine "run" (after twoShards .empty before).table ∧
        deleted = twoShards.format.image k a :=
  search_stored twoShards .empty redeliveredRun SearchCluster.exactEngine ⟨id, .refl⟩ "es" "run" searchRun rfl _
    (by rw [hits_eq SearchCluster.exactEngine (q := "run") rfl]; decide +kernel)

end IndexSearch

end FullStack
