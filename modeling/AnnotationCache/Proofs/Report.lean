/-
  AnnotationCache.Proofs.Report
  ─────────────────────────────
  **REPORTS READ BACK.**

  A report in JSON is an object with three members: the target in words, the number of
  annotations, and the annotations themselves.  It is written with lines and spaces between
  its tokens, and none of these belong to a value; so whoever reads the text finds these
  three members and nothing else.

  Four brackets stand around a value of an annotation before it opens one of its own: the
  report, its list, the annotation and its values.  So a report reads back exactly if the
  values nest no deeper than what these four leave of a text.

  Main statements:
    * `Annotation.spelt_toJson` — the object of an annotation stands for it;
    * `depth_toJson_le_iff`     — how deep a report nests;
    * `gathered_toJson`         — what is meant by the object of a report;
    * `rendered_reads_back`     — the text of a report is read as that object, and the list
      in it as the annotations that were reported.
-/
import AnnotationCache.Proofs.Annotation
import AnnotationCache.Proofs.Json.Numeral
import AnnotationCache.Proofs.Manifest.Spelled
import AnnotationCache.Proofs.Store.Entry
import AnnotationCache.Report

namespace AnnotationCache

open Annotation (readList)
open Json (Place)

/-! ## §1. Annotations as values. -/

namespace Annotation

variable {a : Annotation} {room : Nat}

/-- The object of an annotation is a value that reading can produce. -/
theorem canonical_toJson (h : Json.canonicalMembers a.values.entries = true) :
    a.toJson.canonical = true := by
  unfold toJson
  split
  · rfl
  · have hkeys : Ordered [("name", Json.str a.name), ("values", Json.ofDict a.values)] :=
      List.pairwise_pair.2 (show "name" < "values" by decide)
    have hvalues : (Json.ofDict a.values).canonical = true := by
      rw [Json.ofDict, Json.canonical, Bool.and_eq_true, decide_eq_true_eq]
      exact ⟨a.values.ordered, h⟩
    rw [Json.canonical, Bool.and_eq_true, decide_eq_true_eq, Json.canonicalMembers_iff]
    simp only [List.forall_mem_cons]
    exact ⟨hkeys, rfl, hvalues, List.forall_mem_nil _⟩

/-- Two brackets stand around the values of an annotation. -/
theorem depth_toJson_le_iff : a.toJson.depth ≤ room + 2 ↔ a.depth ≤ room := by
  unfold toJson depth
  split
  next hempty =>
    -- Without values there is one bracket only, but then there is nothing that nests.
    rw [List.isEmpty_iff.1 hempty, Json.depth_obj_le_iff]
    simp [Json.depth, Json.depthMembers]
  next =>
    rw [Json.depth_obj_le_iff]
    simp [Json.depth, Json.ofDict]

/-- **The object of an annotation stands for it.** -/
theorem spelt_toJson (hcanonical : Json.canonicalMembers a.values.entries = true)
    (hfree : a.FloatFree) : a.Spelt a.toJson := by
  unfold toJson
  split
  next hempty => exact .obj (.once rfl rfl) (.leftOut rfl (Dict.ext (List.isEmpty_iff.1 hempty)))
  next =>
    have hmeans : ∀ m ∈ a.values.entries, m.1 = m.1 ∧ Json.Means m.2 m.2 := by
      intro m hm
      have hvalue : m.2.canonical = true := Json.canonicalMembers_iff.1 hcanonical m hm
      exact ⟨rfl, Json.floatFreeMembers_iff.1 hfree m hm,
        Json.integersFit_of_canonical m.2 hvalue, Json.gathered_of_canonical m.2 hvalue⟩
    have hbinds := Json.Binds.obj (List.forall₂_same.2 hmeans)
    rw [Dict.ofList_entries] at hbinds
    exact .obj (.once rfl rfl) (.once rfl hbinds)

end Annotation

namespace Report

variable {annotations : List Annotation} {room : Nat}

/-! ## §2. The list of a report. -/

/-- The list of a report, as a value. -/
def list (annotations : List Annotation) : Json :=
  .arr (annotations.map Annotation.toJson)

theorem canonical_list
    (h : ∀ a ∈ annotations, Json.canonicalMembers a.values.entries = true) :
    (list annotations).canonical = true := by
  rw [list, Json.canonical, Json.canonicalItems_iff]
  exact List.forall_mem_map.2 fun a ha => Annotation.canonical_toJson (h a ha)

theorem floatFree_list (h : ∀ a ∈ annotations, a.FloatFree) :
    (list annotations).floatFree = true := by
  rw [list, Json.floatFree, Json.floatFreeItems_iff]
  exact List.forall_mem_map.2 fun a ha => Annotation.floatFree_toJson (h a ha)

/-- Three brackets stand around the values of annotations in a list. -/
theorem depth_list_le_iff :
    (list annotations).depth ≤ room + 3 ↔ ∀ a ∈ annotations, a.depth ≤ room := by
  rw [list, Json.depth_arr_le_iff, List.forall_mem_map]
  exact forall₂_congr fun _ _ => Annotation.depth_toJson_le_iff

/-- **The list of a report is read as the annotations that were reported**, in their order. -/
theorem reads_list (hcanonical : ∀ a ∈ annotations, Json.canonicalMembers a.values.entries = true)
    (hfree : ∀ a ∈ annotations, a.FloatFree) :
    Json.Reads (readList Place.format) (list annotations) annotations := by
  have hspelt : ∀ a ∈ annotations, a.Spelt a.toJson := fun a ha =>
    Annotation.spelt_toJson (hcanonical a ha) (hfree a ha)
  have hlist : (list annotations).Annotations annotations :=
    .arr (List.forall₂_map_left_iff.2 (List.forall₂_same.2 hspelt))
  exact hlist.reads

/-! ## §3. The object of a report. -/

/-- **Four brackets stand around the values of annotations in a report.** -/
theorem depth_toJson_le_iff (target : Target) :
    (toJson target annotations).depth ≤ room + 4 ↔ ∀ a ∈ annotations, a.depth ≤ room := by
  have hmembers : (toJson target annotations).depth ≤ room + 4
      ↔ (list annotations).depth ≤ room + 3 := by
    rw [toJson, Json.depth_obj_le_iff]
    simp [Json.depth, list]
  rw [hmembers, depth_list_le_iff]

theorem floatFree_toJson (target : Target) (h : ∀ a ∈ annotations, a.FloatFree) :
    (toJson target annotations).floatFree = true := by
  rw [toJson, Json.floatFree, Json.floatFreeMembers_iff]
  simp only [List.forall_mem_cons]
  exact ⟨rfl, rfl, floatFree_list h, List.forall_mem_nil _⟩

/-- The integers in a report fit a word, if a word can count its annotations. -/
theorem integersFit_toJson (target : Target)
    (hcanonical : ∀ a ∈ annotations, Json.canonicalMembers a.values.entries = true)
    (hcount : annotations.length < Word.size) :
    (toJson target annotations).integersFit = true := by
  have hlist := Json.integersFit_of_canonical _ (canonical_list hcanonical)
  rw [toJson, Json.integersFit, Json.integersFitMembers_iff]
  simp only [List.forall_mem_cons]
  exact ⟨rfl, Json.Numeral.fitsWord_word hcount, hlist, List.forall_mem_nil _⟩

/-- **What is meant by the object of a report**: its three members, in the order of their keys. -/
theorem gathered_toJson (target : Target)
    (hcanonical : ∀ a ∈ annotations, Json.canonicalMembers a.values.entries = true) :
    (toJson target annotations).gathered
      = .obj [("annotations", list annotations), ("target", .str target.display),
          ("total_annotations", .int annotations.length)] := by
  have hlist : (Json.arr (annotations.map Annotation.toJson)).gathered = list annotations :=
    Json.gathered_of_canonical _ (canonical_list hcanonical)
  have hordered : Ordered [("annotations", list annotations), ("target", .str target.display),
      ("total_annotations", .int annotations.length)] :=
    List.pairwise_map.1
      (show List.Pairwise (· < ·) ["annotations", "target", "total_annotations"] by decide)
  -- The list stands last in a report, and its key comes first.
  have hperm : List.Perm
      [("target", Json.str target.display), ("total_annotations", .int annotations.length),
        ("annotations", list annotations)]
      [("annotations", list annotations), ("target", .str target.display),
        ("total_annotations", .int annotations.length)] :=
    List.perm_append_singleton ("annotations", list annotations) [_, _]
  rw [toJson, Json.gathered]
  simp only [Json.gatheredMembers, hlist]
  exact congrArg Json.obj (Ordered.ofList_of_perm hperm hordered)

/-! ## §4. The text of a report. -/

/-- **A report reads back**, of whatever target and whatever annotations.  Their values are
such that reading can produce, without floats, and there are no more annotations than a word
can count.

The text of the report is one of an object with three members, and of no other value without
floats: the target in words, the number of annotations and the list of them.  It parses as
that object if the values nest no more than 123 arrays and objects, and is malformed if one
nests deeper.  The list is read as the annotations that were reported. -/
theorem rendered_reads_back (target : Target) {annotations : List Annotation}
    (hcanonical : ∀ a ∈ annotations, Json.canonicalMembers a.values.entries = true)
    (hfree : ∀ a ∈ annotations, a.FloatFree) (hcount : annotations.length < Word.size) :
    (∀ v : Json, v.floatFree = true →
        (Json.SpellsText (render .json target annotations) v
          ↔ v = .obj [("target", .str target.display),
              ("total_annotations", .int annotations.length),
              ("annotations", list annotations)]))
      ∧ Json.parse (render .json target annotations)
          = (if ∀ a ∈ annotations, a.depth ≤ 123 then
              .ok (.obj [("annotations", list annotations), ("target", .str target.display),
                ("total_annotations", .int annotations.length)])
            else .error .malformed)
      ∧ Json.Reads (readList Place.format) (list annotations) annotations := by
  have hreport : (toJson target annotations).floatFree = true := floatFree_toJson target hfree
  have hfloats := Json.floatsReadBack_of_floatFree _ hreport
  have hspells : Json.SpellsText (render .json target annotations) (toJson target annotations) :=
    Json.spellsText_render Json.spaced_indentedStyle hfloats
  refine ⟨?text, ?parsed, reads_list hcanonical hfree⟩
  case text =>
    intro v hv
    constructor
    · intro htext
      exact Json.eq_of_spellsText hv hreport htext hspells
    · rintro rfl
      exact hspells
  case parsed =>
    have hfit := integersFit_toJson target hcanonical hcount
    have hparse := Json.parse_rendered Json.spaced_indentedStyle hfit hfloats
    rw [gathered_toJson target hcanonical] at hparse
    -- A text may nest 127 deep, and a report nests four deeper than the values in it.
    simp only [← depth_toJson_le_iff target]
    exact hparse

/-- A method, in names with characters that are escaped. -/
def escapedTarget : Target :=
  .ofMethod "App\\\"Zo\u00eb\"" "in\tdex\n"

/-- Annotations with empty arrays and objects, and with the least and the greatest integer. -/
def escapedList : List Annotation :=
  [{ name := "Route\x00"
     values := Dict.ofList
       [("at", .obj [("", .arr []), ("\"", .obj [])]),
        ("range", .arr [.int (-9223372036854775808), .int 18446744073709551615])] },
   { name := "" }]

theorem rendered_reads_back_of_escaped :
    (∀ a ∈ escapedList, Json.canonicalMembers a.values.entries = true)
      ∧ (∀ a ∈ escapedList, a.FloatFree)
      ∧ escapedList.length < Word.size
      ∧ Json.parse (render .json escapedTarget escapedList)
          = .ok (.obj [("annotations", list escapedList),
              ("target", .str "App\\\"Zo\u00eb\"::in\tdex\n()"), ("total_annotations", .int 2)])
      ∧ Json.decode (readList Place.format) (list escapedList).compact
          = .ok escapedList := by
  have hcanonical : ∀ a ∈ escapedList, Json.canonicalMembers a.values.entries = true := by decide
  have hfree : ∀ a ∈ escapedList, a.FloatFree := by
    unfold Annotation.FloatFree
    decide
  have hcount : escapedList.length < Word.size := by decide
  have hdepth : ∀ a ∈ escapedList, a.depth ≤ 123 := by decide
  obtain ⟨-, hparsed, hlist⟩ := rendered_reads_back escapedTarget hcanonical hfree hcount
  rw [if_pos hdepth] at hparsed
  have hfloats := Json.floatsReadBack_of_floatFree _ (floatFree_list hfree)
  refine ⟨hcanonical, hfree, hcount, hparsed, ?_⟩
  rw [Json.decode_compact _ hfloats]
  exact hlist Json.maxDepth .inPlace (by decide)

end Report

end AnnotationCache
