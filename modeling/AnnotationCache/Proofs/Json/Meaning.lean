/-
  AnnotationCache.Proofs.Json.Meaning
  ───────────────────────────────────
  **WHAT IS READ MEANS WHAT WAS WRITTEN.**

  The tree of a value is read as the value that is meant by it, as long as there is room
  for its brackets; where there is not, that is a fault of writing (`Meant`).  Nothing
  else can go wrong where the integers fit a word and the floats read back.

  Main statements:
    * `meant_of_fit`   — the tree of a value is read as what it means, exactly if the value
      nests no deeper than there is room;
    * `dict_tree`      — bindings of canonical values are read as their map;
    * `parse_rendered` — so is what the renderer writes of a value, in either style.
-/
import AnnotationCache.Proofs.Json.Spelling

namespace AnnotationCache.Json

/-! ## §1. Items one by one. -/

section Faults

variable {α β ε : Type} {e : ε}

/-- One item and others, of which each may be the same fault. -/
theorem cons_of_ites {good others : Prop} [Decidable good] [Decidable others] {x : α} {xs : List α}
    {first : Except ε α} {rest : Except ε (List α)}
    (hfirst : first = if good then .ok x else .error e)
    (hrest : rest = if others then .ok xs else .error e) :
    (do return (← first) :: (← rest)) = if good ∧ others then Except.ok (x :: xs) else .error e := by
  subst hfirst hrest
  by_cases hgood : good
  · by_cases hothers : others
    · simp only [if_pos hgood, if_pos hothers, if_pos (And.intro hgood hothers)]
      rfl
    · simp only [if_pos hgood, if_neg hothers, if_neg (mt And.right hothers)]
      rfl
  · simp only [if_neg hgood, if_neg (mt And.left hgood)]
    rfl

/-- Where each item is read or is the same fault, all are read or it is that fault. -/
theorem mapM_eq_ite {read : α → Except ε β} {good : α → Prop} [DecidablePred good]
    {meaning : α → β} {xs : List α}
    (h : ∀ x ∈ xs, read x = if good x then .ok (meaning x) else .error e) :
    xs.mapM read = if ∀ x ∈ xs, good x then .ok (xs.map meaning) else .error e := by
  induction xs with
  | nil => rfl
  | cons x xs ih =>
      obtain ⟨hx, hxs⟩ := List.forall_mem_cons.1 h
      rw [List.mapM_cons, cons_of_ites hx (ih hxs)]
      simp only [List.forall_mem_cons, List.map_cons]

end Faults

/-! ## §2. Numbers. -/

open Place (valueWithin bindings dict)

variable (strictness : Strictness)

theorem valueWithin_int {n : Int} (h : fitsWord n = true) (room : Nat) :
    valueWithin room strictness (tree (.int n)) = .ok (.int n) := by
  rw [tree, valueWithin, number_intNumeral h]

theorem valueWithin_float {x : Double} (h : ReadsBack x) (room : Nat) :
    valueWithin room strictness (tree (.float x)) = .ok (.float x) := by
  rw [tree, valueWithin, number_floatNumeral h]

/-! ## §3. Values. -/

/-- Items are read one by one, within one more bracket. -/
theorem list_eq {α : Type} (item : Place → Reading α) (room : Nat) (items : List Tree) :
    Place.list item ⟨room + 1, strictness, .arr items true⟩
      = items.mapM fun t => item ⟨room, strictness, t⟩ := by
  have hread : Place.list item ⟨room + 1, strictness, .arr items true⟩
      = (items.mapM fun t => item ⟨room, strictness, t⟩) >>= pure := rfl
  rw [hread, bind_pure]

/-- Reads one member of an object whose values have so much room. -/
def memberWithin {α : Type} (value : Place → Reading α) (room : Nat) :
    Option String × Tree → Reading (String × α)
  | (some key, t) => do return (key, ← value ⟨room, strictness, t⟩)
  | (none, _) => throw .malformed

/-- Members are read one by one, within one more bracket. -/
theorem bindings_eq {α : Type} (value : Place → Reading α) (room : Nat)
    (members : List (Option String × Tree)) :
    bindings value ⟨room + 1, strictness, .obj members true⟩
      = members.mapM (memberWithin strictness value room) := by
  have hread : bindings value ⟨room + 1, strictness, .obj members true⟩
      = members.mapM (memberWithin strictness value room) >>= pure := by
    unfold bindings
    show (members.mapM _ >>= _) = _
    congr 2
    funext ⟨key, t⟩
    cases key <;> rfl
  rw [hread, bind_pure]

theorem valueWithin_arr (room : Nat) (items : List Json) :
    valueWithin (room + 1) strictness (tree (.arr items))
      = Json.arr <$> (treeItems items).mapM (valueWithin room strictness) := by
  rw [tree, valueWithin, list_eq]

theorem valueWithin_obj (room : Nat) (members : List (String × Json)) :
    valueWithin (room + 1) strictness (tree (.obj members))
      = Json.ofMembers <$> bindings Place.value ⟨room + 1, strictness, tree (.obj members)⟩ := by
  rw [tree, valueWithin]
  rfl

/-- **Is the tree of a value read as the value that is meant** where there is room for its
brackets, and a fault of writing otherwise? -/
def Meant (v : Json) : Prop :=
  ∀ room, valueWithin room strictness (tree v)
    = if v.depth ≤ room then .ok v.gathered else .error .malformed

variable {strictness}

theorem meant_arr {items : List Json} (h : ∀ x ∈ items, Meant strictness x) :
    Meant strictness (.arr items) := by
  intro room
  -- A bracket is opened before anything in it is looked at.
  cases room with
  | zero => rw [if_neg (by rw [depth]; omega), tree, valueWithin]
  | succ room =>
      have hitems : (treeItems items).mapM (valueWithin room strictness)
          = if ∀ x ∈ items, x.depth ≤ room then .ok (gatheredItems items)
            else .error .malformed := by
        rw [treeItems_eq_map, List.mapM_map, gatheredItems_eq_map]
        exact mapM_eq_ite fun x hx => h x hx room
      rw [valueWithin_arr, hitems]
      by_cases hdepth : ∀ x ∈ items, x.depth ≤ room
      · rw [if_pos hdepth, if_pos (depth_arr_le_iff.2 hdepth)]
        rfl
      · rw [if_neg hdepth, if_neg (mt depth_arr_le_iff.1 hdepth)]
        rfl

/-- Members are read as the members that are meant. -/
theorem bindings_of_meant {members : List (String × Json)}
    (h : ∀ m ∈ members, Meant strictness m.2) (room : Nat) :
    bindings Place.value ⟨room + 1, strictness, tree (.obj members)⟩
      = if ∀ m ∈ members, m.2.depth ≤ room then .ok (gatheredMembers members)
        else .error .malformed := by
  rw [tree, bindings_eq, treeMembers_eq_map, List.mapM_map, gatheredMembers_eq_map]
  refine mapM_eq_ite fun m hm => ?_
  show memberWithin strictness Place.value room (some m.1, tree m.2) = _
  rw [memberWithin, Place.value, h m hm room]
  split <;> rfl

theorem meant_obj {members : List (String × Json)} (h : ∀ m ∈ members, Meant strictness m.2) :
    Meant strictness (.obj members) := by
  intro room
  cases room with
  | zero => rw [if_neg (by rw [depth]; omega), tree, valueWithin]
  | succ room =>
      rw [valueWithin_obj, bindings_of_meant h]
      by_cases hdepth : ∀ m ∈ members, m.2.depth ≤ room
      · rw [if_pos hdepth, if_pos (depth_obj_le_iff.2 hdepth)]
        rfl
      · rw [if_neg hdepth, if_neg (mt depth_obj_le_iff.1 hdepth)]
        rfl

/-- **Every tree of a value is read as the value that is meant**, if its integers fit and its
floats read back. -/
theorem meant_of_fit (v : Json) (hfit : v.integersFit = true) (hfloats : FloatsReadBack v) :
    Meant strictness v := by
  induction v using Json.induction with
  | null | bool | str =>
      intro room
      rw [tree, valueWithin]
      rfl
  | int n => exact fun room => valueWithin_int strictness hfit room
  | float x => exact fun room => valueWithin_float strictness hfloats room
  | arr items ih =>
      rw [integersFit, integersFitItems_iff] at hfit
      rw [FloatsReadBack, floatsReadBackItems_iff] at hfloats
      exact meant_arr fun x hx => ih x hx (hfit x hx) (hfloats x hx)
  | obj members ih =>
      rw [integersFit, integersFitMembers_iff] at hfit
      rw [FloatsReadBack, floatsReadBackMembers_iff] at hfloats
      exact meant_obj fun m hm => ih m hm (hfit m hm) (hfloats m hm)

variable (strictness)

/-- **Bindings are read as the map that they are of**, within one more bracket. -/
theorem dict_tree (room : Nat) (d : Dict Json) (hd : canonicalMembers d.entries = true)
    (hfloats : FloatsReadBackMembers d.entries) :
    dict Place.value ⟨room + 1, strictness, tree (ofDict d)⟩
      = if depthMembers d.entries ≤ room then .ok d else .error .malformed := by
  have hmeant : ∀ m ∈ d.entries, Meant strictness m.2 := fun m hm =>
    meant_of_fit m.2 (integersFit_of_canonical m.2 (canonicalMembers_iff.1 hd m hm))
      (floatsReadBackMembers_iff.1 hfloats m hm)
  have hgathered : gatheredMembers d.entries = d.entries :=
    gatheredMembers_eq_self fun m hm => gathered_of_canonical m.2 (canonicalMembers_iff.1 hd m hm)
  unfold dict
  rw [ofDict, bindings_of_meant hmeant, hgathered]
  by_cases hdepth : ∀ m ∈ d.entries, m.2.depth ≤ room
  · rw [if_pos hdepth, if_pos (depthMembers_le_iff.2 hdepth)]
    show Except.ok (Dict.ofList d.entries) = _
    rw [Dict.ofList_entries]
  · rw [if_neg hdepth, if_neg (mt depthMembers_le_iff.1 hdepth)]
    rfl

/-- **What the renderer writes of a value is read as what the value means**, in whatever style
it is written, if the value does not nest too deep. -/
theorem parse_rendered {style : Style} (hs : style.Spaced) {v : Json} (hfit : v.integersFit = true)
    (hfloats : FloatsReadBack v) :
    parse (String.ofList (render style 0 v))
      = if v.depth ≤ maxDepth then .ok v.gathered else .error .malformed := by
  have hmeant : Meant .inPlace v := meant_of_fit v hfit hfloats
  unfold parse
  rw [decode_render hs Place.value hfloats]
  exact hmeant maxDepth

end AnnotationCache.Json
