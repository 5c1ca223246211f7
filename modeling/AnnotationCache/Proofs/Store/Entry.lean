/-
  AnnotationCache.Proofs.Store.Entry
  ──────────────────────────────────
  **ENTRIES READ BACK.**

  An entry is written as an object around an object around an array of
  annotations, each an object with an object of values: five brackets stand
  around a value of an annotation before it opens one of its own.  So an entry
  reads back if the values in it nest no deeper than what a text leaves them,
  and is malformed otherwise.

  Main statements:
    * `Annotation.record_toJson` — an annotation is read from its tree;
    * `CacheValue.read_toJson`   — so is a stored value;
    * `Entry.parse_text`         — and so an entry from its text.
-/
import AnnotationCache.Proofs.Json.Record
import AnnotationCache.Store.Value

namespace AnnotationCache

open Json (Place Reading Strictness Tree tree treeItems treeMembers)

/-! ## §1. Annotations. -/

namespace Annotation

/-- How deep the values of an annotation nest. -/
def depth (a : Annotation) : Nat :=
  Json.depthMembers a.values.entries

/-- **Can an annotation be written so that it reads back?**  Its values are such
that reading can produce, and their floats read back. -/
structure Textual (a : Annotation) : Prop where
  canonical : Json.canonicalMembers a.values.entries = true
  floats : Json.FloatsReadBackMembers a.values.entries

variable (strictness : Strictness)

/-- **An annotation is read from its tree**, if there is room for its values. -/
theorem record_toJson (room : Nat) {a : Annotation} (h : a.Textual) :
    Place.record (schema Place.format) ⟨room + 2, strictness, tree a.toJson⟩
      = if a.depth ≤ room then .ok a else .error .malformed := by
  obtain ⟨name, values⟩ := a
  cases hempty : values.isEmpty with
  | true =>
      have hvalues : values = Dict.empty := Dict.ext (List.isEmpty_iff.1 hempty)
      subst hvalues
      exact (if_pos (Nat.zero_le room)).symm
  | false =>
      have htree : tree (toJson ⟨name, values⟩) = .obj [(some "name", .str (some name)),
          (some "values", tree (Json.ofDict values))] true := by
        unfold toJson
        simp only [hempty]
        rfl
      have hread := Json.dict_tree strictness room values h.canonical h.floats
      -- Of the two members the name is always read; the values are, if there is room.
      rw [htree, Place.record_obj, Place.members_read (f := ⟨"name", true, _⟩) rfl rfl rfl]
      by_cases hdepth : Json.depthMembers values.entries ≤ room
      · rw [if_pos hdepth] at hread
        rw [Place.members_read (f := ⟨"values", false, _⟩) rfl rfl (by
          show (Place.dict Place.value ⟨room + 1, strictness, tree (Json.ofDict values)⟩ >>= _) = _
          rw [hread]
          rfl)]
        exact (if_pos hdepth).symm
      · rw [if_neg hdepth] at hread
        rw [Place.members_failed (f := ⟨"values", false, _⟩) rfl rfl (by
          show (Place.dict Place.value ⟨room + 1, strictness, tree (Json.ofDict values)⟩ >>= _) = _
          rw [hread]
          rfl)]
        exact (if_neg hdepth).symm

/-- The floats of an annotation are those of its values. -/
theorem Textual.floats_toJson {a : Annotation} (h : a.Textual) :
    Json.FloatsReadBack a.toJson := by
  unfold toJson
  split
  · exact ⟨trivial, trivial⟩
  · exact ⟨trivial, h.floats, trivial⟩

/-- **A list of annotations is read from its tree**, if there is room for the
values of each. -/
theorem readList_toJson (room : Nat) {list : List Annotation} (h : ∀ a ∈ list, a.Textual) :
    readList Place.format ⟨room + 3, strictness, tree (.arr (list.map toJson))⟩
      = if ∀ a ∈ list, a.depth ≤ room then .ok list else .error .malformed := by
  have htrees : treeItems (list.map toJson) = list.map fun a => tree a.toJson := by
    induction list with
    | nil => rfl
    | cons a list ih => rw [List.map_cons, treeItems, ih fun b hb => h b (List.mem_cons_of_mem a hb)]; rfl
  have hitems : (list.mapM fun a =>
        Place.record (schema Place.format) ⟨room + 2, strictness, tree a.toJson⟩)
      = if ∀ a ∈ list, a.depth ≤ room then .ok (list.map id) else .error .malformed :=
    Json.mapM_eq_ite fun a ha => record_toJson strictness room (h a ha)
  rw [List.map_id] at hitems
  rw [tree, htrees, readList]
  show Place.list (Place.record (schema Place.format)) ⟨room + 2 + 1, strictness, .arr _ true⟩ = _
  rw [Json.list_eq, List.mapM_map]
  exact hitems

end Annotation

/-! ## §2. Stored values. -/

namespace CacheValue

/-- **Can a stored value be written so that it reads back?** -/
def Textual : CacheValue → Prop
  | annotations list => ∀ a ∈ list, a.Textual
  | timestamp t => -(Word.half : Int) ≤ t ∧ t < Word.half

/-- Do the values of all annotations nest no deeper than so? -/
def NestsWithin (room : Nat) : CacheValue → Prop
  | annotations list => ∀ a ∈ list, a.depth ≤ room
  | timestamp _ => True

instance (room : Nat) : (v : CacheValue) → Decidable (v.NestsWithin room)
  | annotations list => inferInstanceAs (Decidable (∀ a ∈ list, a.depth ≤ room))
  | timestamp _ => inferInstanceAs (Decidable True)

/-- Time stamps have a sign, and fit a word with one. -/
theorem int64_tree (strictness : Strictness) (room : Nat) {t : Int}
    (h : -(Word.half : Int) ≤ t ∧ t < Word.half) :
    Place.int64 ⟨room, strictness, tree (.int t)⟩ = .ok t := by
  have hfits : Json.fitsWord t = true := by
    unfold Json.fitsWord
    rw [Bool.and_eq_true, decide_eq_true_eq, decide_eq_true_eq]
    exact ⟨h.1, Int.lt_trans h.2 (by decide)⟩
  unfold Place.int64
  simp only [tree, Json.number_intNumeral hfits]
  exact if_pos h.2

/-- A sort that is named is read from what stands behind it. -/
theorem read_tagged (strictness : Strictness) (room : Nat) {name : String}
    {sort : Place → Reading CacheValue} (hsort : sorts.lookup name = some sort) (data : Tree) :
    read ⟨room + 1, strictness, .obj [(some "type", .str (some name)), (some "data", data)] true⟩
      = sort ⟨room, strictness, data⟩ := by
  have hchoose : Place.choose sorts name = .ok sort := by
    unfold Place.choose
    rw [hsort]
  have hread : read
        ⟨room + 1, strictness, .obj [(some "type", .str (some name)), (some "data", data)] true⟩
      = Place.choose sorts name >>= fun sort => sort ⟨room, strictness, data⟩ >>= pure := rfl
  rw [hread, hchoose]
  exact bind_pure (sort ⟨room, strictness, data⟩)

/-- **A stored value is read from its tree**, if there is room for what it holds. -/
theorem read_toJson (strictness : Strictness) (room : Nat) {v : CacheValue} (h : v.Textual) :
    read ⟨room + 4, strictness, tree v.toJson⟩
      = if v.NestsWithin room then .ok v else .error .malformed := by
  cases v with
  | timestamp t =>
      have hread := int64_tree strictness (room + 3) h
      show read ⟨room + 3 + 1, strictness, .obj [(some "type", .str (some "timestamp")),
        (some "data", tree (.int t))] true⟩ = .ok (timestamp t)
      rw [read_tagged strictness _ rfl, hread]
      rfl
  | annotations list =>
      have hread := Annotation.readList_toJson strictness room h
      show read ⟨room + 3 + 1, strictness, .obj [(some "type", .str (some "annotations")),
        (some "data", tree (.arr (list.map Annotation.toJson)))] true⟩ = _
      rw [read_tagged strictness _ rfl, hread]
      by_cases hdepth : ∀ a ∈ list, a.depth ≤ room
      · rw [if_pos hdepth]
        exact (if_pos hdepth).symm
      · rw [if_neg hdepth]
        exact (if_neg hdepth).symm

/-- The floats of a stored value are those of its annotations. -/
theorem Textual.floats {v : CacheValue} (h : v.Textual) : Json.FloatsReadBack v.toJson := by
  cases v with
  | timestamp t => exact ⟨trivial, trivial, trivial⟩
  | annotations list =>
      refine ⟨trivial, ?_, trivial⟩
      show Json.FloatsReadBackItems (list.map Annotation.toJson)
      induction list with
      | nil => trivial
      | cons a list ih =>
          obtain ⟨ha, hlist⟩ := List.forall_mem_cons.1 h
          exact ⟨ha.floats_toJson, ih hlist⟩

end CacheValue

/-! ## §3. Entries. -/

namespace Entry

/-- How deep the values of annotations may nest in an entry: five brackets stand
around them. -/
def valueRoom : Nat := Json.maxDepth - 5

/-- **An entry reads back from its text**, if its values nest no deeper than the
entry leaves them room; it is malformed otherwise. -/
theorem parse_text {e : Entry} (h : e.value.Textual) :
    parse e.text = if e.value.NestsWithin valueRoom then .ok e else .error .malformed := by
  obtain ⟨key, value⟩ := e
  have hfloats : Json.FloatsReadBack (.obj [("key", .str key), ("value", value.toJson)]) :=
    ⟨trivial, h.floats, trivial⟩
  have hread := CacheValue.read_toJson .inPlace valueRoom h
  unfold parse text
  rw [Json.decode_compact _ hfloats]
  -- Five brackets around a value: the entry, its value, the list, an annotation, its values.
  show Place.record schema ⟨126 + 1, .inPlace,
    .obj [(some "key", .str (some key)), (some "value", tree value.toJson)] true⟩ = _
  rw [Place.record_obj, Place.members_read (f := ⟨"key", true, _⟩) rfl rfl rfl]
  by_cases hnests : value.NestsWithin valueRoom
  · rw [if_pos hnests] at hread
    rw [Place.members_read (f := ⟨"value", true, _⟩) rfl rfl (by
      show (CacheValue.read ⟨valueRoom + 4, .inPlace, tree value.toJson⟩ >>= _) = _
      rw [hread]
      rfl)]
    exact (if_pos hnests).symm
  · rw [if_neg hnests] at hread
    rw [Place.members_failed (f := ⟨"value", true, _⟩) rfl rfl (by
      show (CacheValue.read ⟨valueRoom + 4, .inPlace, tree value.toJson⟩ >>= _) = _
      rw [hread]
      rfl)]
    exact (if_neg hnests).symm

end Entry

/-- **Can a value be stored in an entry, and read back?** -/
structure CacheValue.Storable (v : CacheValue) : Prop where
  textual : v.Textual
  nests : v.NestsWithin Entry.valueRoom

theorem CacheValue.Storable.parse_text {v : CacheValue} (h : v.Storable) (key : String) :
    Entry.parse (Entry.text ⟨key, v⟩) = .ok ⟨key, v⟩ :=
  (Entry.parse_text h.textual).trans (if_pos h.nests)

end AnnotationCache
