/-
  AnnotationCache.Proofs.Types.Order
  ──────────────────────────────────
  **TYPES IN ANOTHER ORDER.**

  Types may be declared in any order, and each of them may name its interfaces
  and its traits in any order.  The walk of a closure and the search for a member
  take other ways then, but there is nothing else to walk through: the registry
  knows the same names, each type refers to the same names, and so a name reaches
  the same names as before.

  Main statements:
    * `ofTypes_ok_iff`     — types can be registered if their names differ;
    * `ofTypes_rearranged` — types that were rearranged can be registered, too;
    * `Rearranged.reaches_iff` — and they reach the same names.
-/
import Mathlib.Data.List.Perm.Basic
import AnnotationCache.Proofs.Types.Reach

namespace AnnotationCache.Types

/-! ## §1. Types whose lists are in another order. -/

/-- **Is the second type the first one with its interfaces and its traits in another
order?** -/
inductive Descriptor.Reordered (d : Descriptor) : Descriptor → Prop where
  | mk {interfaces traits : List String} (hinterfaces : d.interfaces.Perm interfaces)
      (htraits : d.traits.Perm traits) :
      Reordered d { d with interfaces := interfaces, traits := traits }

namespace Descriptor.Reordered

variable {d d' : Descriptor}

theorem symm (h : d.Reordered d') : d'.Reordered d := by
  cases h with
  | mk hinterfaces htraits => exact .mk hinterfaces.symm htraits.symm

theorem name_eq (h : d.Reordered d') : d'.name = d.name := by
  cases h
  rfl

theorem normalized (h : d.Reordered d') : d.normalized.Reordered d'.normalized := by
  cases h with
  | mk hinterfaces htraits => exact .mk (hinterfaces.map normalize) (htraits.map normalize)

/-- It names the same types. -/
theorem mem_dependencies (h : d.Reordered d') {name : String} (hname : name ∈ d.dependencies) :
    name ∈ d'.dependencies := by
  cases h with
  | mk hinterfaces htraits =>
      simp only [dependencies, List.mem_append] at hname ⊢
      rwa [← hinterfaces.mem_iff, ← htraits.mem_iff]

end Descriptor.Reordered

/-- **Is the second list the first one with some types reordered, and then all of
them?** -/
def Rearranged (types types' : List Descriptor) : Prop :=
  ∃ between, List.Forall₂ Descriptor.Reordered types between ∧ between.Perm types'

namespace Rearranged

variable {types types' : List Descriptor}

theorem symm (h : Rearranged types types') : Rearranged types' types := by
  obtain ⟨between, hreordered, hperm⟩ := h
  have hback : List.Forall₂ Descriptor.Reordered between types :=
    (hreordered.imp fun _ _ h => h.symm).flip
  exact List.perm_comp_forall₂ hperm.symm hback

/-- Every type is there after the rearrangement, maybe reordered. -/
theorem exists_of_mem (h : Rearranged types types') {d : Descriptor} (hd : d ∈ types) :
    ∃ d' ∈ types', d.Reordered d' := by
  obtain ⟨between, hreordered, hperm⟩ := h
  suffices h : ∃ d' ∈ between, d.Reordered d' by
    obtain ⟨d', hd', hsame⟩ := h
    exact ⟨d', hperm.mem_iff.1 hd', hsame⟩
  clear hperm
  induction hreordered with
  | nil => cases hd
  | cons hfirst _ ih =>
      rcases List.mem_cons.1 hd with rfl | hd
      · exact ⟨_, List.mem_cons_self, hfirst⟩
      · obtain ⟨d', hd', hsame⟩ := ih hd
        exact ⟨d', List.mem_cons_of_mem _ hd', hsame⟩

/-- The names are the same ones. -/
theorem names_perm (h : Rearranged types types') :
    (types.map fun d => normalize d.name).Perm (types'.map fun d => normalize d.name) := by
  obtain ⟨between, hreordered, hperm⟩ := h
  suffices hnames : types.map (fun d => normalize d.name)
      = between.map fun d => normalize d.name by
    rw [hnames]
    exact hperm.map _
  clear hperm
  induction hreordered with
  | nil => rfl
  | cons hfirst _ ih => rw [List.map_cons, List.map_cons, ih, hfirst.name_eq]

end Rearranged

namespace Registry

/-! ## §2. Which types can be registered. -/

/-- Types can be registered one after the other if their names differ and are free. -/
theorem registerAll_ok_iff {types : List Descriptor} {r : Registry} :
    (∃ r', types.foldlM register r = .ok r')
      ↔ (types.map fun d => normalize d.name).Nodup
        ∧ ∀ d ∈ types, r.types.get? (normalize d.name) = none := by
  induction types generalizing r with
  | nil => exact iff_of_true ⟨r, rfl⟩ ⟨List.nodup_nil, by simp⟩
  | cons d types ih =>
      rw [List.foldlM_cons, List.map_cons, List.nodup_cons, List.forall_mem_cons]
      cases hnext : r.register d with
      | error e =>
          -- The first type was refused, so its name is not free.
          refine iff_of_false ?_ ?_
          · rintro ⟨r', ⟨⟩⟩
          · rintro ⟨-, hfree, -⟩
            cases hnext.symm.trans (register_eq_ok.2 ⟨hfree, rfl⟩)
      | ok next =>
          obtain ⟨hfree, hinsert⟩ := register_eq_ok.1 hnext
          have hlookup : ∀ e : Descriptor, next.types.get? (normalize e.name) = none
              ↔ normalize d.name ≠ normalize e.name
                ∧ r.types.get? (normalize e.name) = none := by
            intro e
            rw [hinsert, Dict.get?_insert]
            split
            next hname => simp [hname]
            next hname => simp [Ne.symm hname]
          show (∃ r', types.foldlM register next = .ok r') ↔ _
          simp only [ih, hlookup, List.mem_map, not_exists, not_and]
          constructor
          · rintro ⟨hnodup, hlater⟩
            exact ⟨⟨fun e he => Ne.symm (hlater e he).1, hnodup⟩, hfree,
              fun e he => (hlater e he).2⟩
          · rintro ⟨⟨hdiffer, hnodup⟩, -, hlater⟩
            exact ⟨hnodup, fun e he => ⟨Ne.symm (hdiffer e he), hlater e he⟩⟩

/-- **Types can be registered if and only if their names differ.** -/
theorem ofTypes_ok_iff {types : List Descriptor} :
    (∃ r, ofTypes types = .ok r) ↔ (types.map fun d => normalize d.name).Nodup := by
  unfold ofTypes
  rw [registerAll_ok_iff]
  simp [empty]

/-! ## §3. Registries with the same types. -/

/-- **Has the second registry the types of the first one, maybe reordered?**  And no
others. -/
structure Rearranged (r r' : Registry) : Prop where
  there : ∀ {name : String} {d : Descriptor}, r.reflect name = .ok d →
    ∃ d', r'.reflect name = .ok d' ∧ d.Reordered d'
  back : ∀ {name : String} {d' : Descriptor}, r'.reflect name = .ok d' →
    ∃ d, r.reflect name = .ok d ∧ d.Reordered d'

/-- **Types that were rearranged can be registered, too**, and they are the same. -/
theorem ofTypes_rearranged {types types' : List Descriptor} {r : Registry}
    (htypes : Types.Rearranged types types') (h : ofTypes types = .ok r) :
    ∃ r', ofTypes types' = .ok r' ∧ r.Rearranged r' := by
  have hnodup : (types'.map fun d => normalize d.name).Nodup :=
    htypes.names_perm.nodup_iff.1 (ofTypes_ok_iff.1 ⟨r, h⟩)
  obtain ⟨r', h'⟩ := ofTypes_ok_iff.2 hnodup
  refine ⟨r', h', ?there, ?back⟩
  case there =>
    intro name d hd
    obtain ⟨t, ht, hname, rfl⟩ := (get?_ofTypes h).1 (reflect_eq_ok.1 hd)
    obtain ⟨t', ht', hsame⟩ := htypes.exists_of_mem ht
    rw [← hsame.name_eq] at hname
    exact ⟨_, reflect_eq_ok.2 ((get?_ofTypes h').2 ⟨t', ht', hname, rfl⟩), hsame.normalized⟩
  case back =>
    intro name d' hd'
    obtain ⟨t', ht', hname, rfl⟩ := (get?_ofTypes h').1 (reflect_eq_ok.1 hd')
    obtain ⟨t, ht, hsame⟩ := htypes.symm.exists_of_mem ht'
    rw [← hsame.name_eq] at hname
    exact ⟨_, reflect_eq_ok.2 ((get?_ofTypes h).2 ⟨t, ht, hname, rfl⟩), hsame.symm.normalized⟩

namespace Rearranged

variable {r r' : Registry} {start name next : String}

theorem symm (h : r.Rearranged r') : r'.Rearranged r where
  there hd := by
    obtain ⟨d', hd', hsame⟩ := h.back hd
    exact ⟨d', hd', hsame.symm⟩
  back hd := by
    obtain ⟨d', hd', hsame⟩ := h.there hd
    exact ⟨d', hd', hsame.symm⟩

theorem refersTo (h : r.Rearranged r') (hnext : r.RefersTo name next) : r'.RefersTo name next := by
  obtain ⟨d, hd, hdep⟩ := hnext
  obtain ⟨d', hd', hsame⟩ := h.there hd
  exact ⟨d', hd', hsame.mem_dependencies hdep⟩

theorem reaches (h : r.Rearranged r') (hname : r.Reaches start name) : r'.Reaches start name := by
  obtain ⟨count, hpath⟩ := hname
  induction hpath with
  | here => exact .refl r' start
  | further _ hlast ih => exact ih.further (h.refersTo hlast)

/-- **A name reaches what it reached before.** -/
theorem reaches_iff (h : r.Rearranged r') : r'.Reaches start name ↔ r.Reaches start name :=
  ⟨h.symm.reaches, h.reaches⟩

end Rearranged

end Registry

end AnnotationCache.Types
