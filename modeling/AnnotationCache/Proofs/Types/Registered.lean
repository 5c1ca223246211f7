/-
  AnnotationCache.Proofs.Types.Registered
  ───────────────────────────────────────
  **WHAT REGISTERING KEEPS.**

  A registry is only ever built by registering types, so the name of every
  descriptor in it is the key it is bound to, and no name in it has a
  separator in front.  `WellFormed` says so, and every registry that comes
  from a list of types has it:

      ofTypes types = .ok r  →  r.WellFormed

  The walks over a registry recurse on fuel.  `Fuelled` says that there is
  some for every name that was not settled yet: settled names are different
  registered ones, so there are never more of them than types.
-/
import AnnotationCache.Proofs.Types.Name
import AnnotationCache.Types.Registry

namespace AnnotationCache.Types

/-! ## §1. Normalised descriptors. -/

@[simp] theorem Descriptor.normalized_normalized (d : Descriptor) :
    d.normalized.normalized = d.normalized := by
  have hcomp : normalize ∘ normalize = normalize := funext normalize_normalize
  simp [Descriptor.normalized, hcomp]

/-- The types that a normalised descriptor names are named without separators
in front. -/
theorem Descriptor.normalize_of_mem_dependencies {d : Descriptor} (hd : d.normalized = d)
    {name : String} (hname : name ∈ d.dependencies) : normalize name = name := by
  rw [← hd] at hname
  simp only [Descriptor.dependencies, Descriptor.normalized, List.mem_append,
    Option.mem_toList, Option.map_eq_some_iff, List.mem_map] at hname
  obtain (⟨n, -, rfl⟩ | ⟨n, -, rfl⟩) | ⟨n, -, rfl⟩ := hname <;>
    exact normalize_normalize n

/-- A type takes members from the types that it names, in another order. -/
theorem Descriptor.mem_memberOrder_iff {d : Descriptor} {name : String} :
    name ∈ d.memberOrder ↔ name ∈ d.dependencies := by
  simp only [Descriptor.memberOrder, Descriptor.dependencies, List.mem_append]
  constructor
  · rintro ((htrait | hparent) | hinterface)
    · exact .inr htrait
    · exact .inl (.inl hparent)
    · exact .inl (.inr hinterface)
  · rintro ((hparent | hinterface) | htrait)
    · exact .inl (.inr hparent)
    · exact .inr hinterface
    · exact .inl (.inl htrait)

namespace Registry

/-! ## §2. Looking up. -/

theorem reflect_eq_ok {r : Registry} {name : String} {d : Descriptor} :
    r.reflect name = .ok d ↔ r.types.get? (normalize name) = some d := by
  unfold reflect
  cases r.types.get? (normalize name) <;> simp

@[simp] theorem reflect_normalize (r : Registry) (name : String) :
    r.reflect (normalize name) = r.reflect name := by
  simp [reflect]

theorem mem_names_of_reflect {r : Registry} {name : String} {d : Descriptor}
    (hname : normalize name = name) (hr : r.reflect name = .ok d) : name ∈ r.names := by
  rw [reflect_eq_ok, hname] at hr
  exact Dict.mem_keys_iff.2 ⟨d, hr⟩

/-! ## §3. Registering. -/

/-- **A type is registered if its name is free**, under that name. -/
theorem register_eq_ok {r r' : Registry} {d : Descriptor} :
    r.register d = .ok r' ↔ r.types.get? (normalize d.name) = none
      ∧ r' = ⟨r.types.insert (normalize d.name) d.normalized⟩ := by
  have hname : d.normalized.name = normalize d.name := rfl
  unfold register
  dsimp only
  rw [hname]
  unfold Dict.contains
  cases r.types.get? (normalize d.name) with
  | some e => simp
  | none => simp [eq_comm]

/-- What is registered after a type was: that type, and what was before. -/
theorem get?_of_register {r r' : Registry} {d : Descriptor} (h : r.register d = .ok r')
    {key : String} {e : Descriptor} :
    r'.types.get? key = some e
      ↔ (normalize d.name = key ∧ d.normalized = e) ∨ r.types.get? key = some e := by
  obtain ⟨hfree, rfl⟩ := register_eq_ok.1 h
  rw [Dict.get?_insert]
  by_cases hkey : key = normalize d.name
  · subst hkey
    simp [hfree]
  · simp [hkey, Ne.symm hkey]

/-- What is registered after several types were. -/
theorem get?_of_registerAll {types : List Descriptor} {r r' : Registry}
    (h : types.foldlM register r = .ok r') {key : String} {e : Descriptor} :
    r'.types.get? key = some e
      ↔ (∃ d ∈ types, normalize d.name = key ∧ d.normalized = e) ∨ r.types.get? key = some e := by
  induction types generalizing r with
  | nil =>
      cases h
      simp
  | cons d types ih =>
      rw [List.foldlM_cons] at h
      cases hnext : r.register d with
      | error e => rw [hnext] at h; cases h
      | ok next =>
          rw [hnext] at h
          rw [ih h, get?_of_register hnext]
          simp only [List.mem_cons, exists_eq_or_imp, or_assoc, or_left_comm]

/-- **What is registered is one of the types**, with its names normalised. -/
theorem get?_ofTypes {types : List Descriptor} {r : Registry} (h : ofTypes types = .ok r)
    {key : String} {e : Descriptor} :
    r.types.get? key = some e ↔ ∃ d ∈ types, normalize d.name = key ∧ d.normalized = e := by
  rw [get?_of_registerAll h]
  simp [empty]

/-! ## §4. Well-formed registries. -/

/-- **What registering keeps**: a type is bound to its own name, and every name
in it is normalised. -/
structure WellFormed (r : Registry) : Prop where
  name_eq : ∀ {key : String} {d : Descriptor}, r.types.get? key = some d → d.name = key
  normalized_eq : ∀ {key : String} {d : Descriptor}, r.types.get? key = some d → d.normalized = d

theorem wellFormed_empty : empty.WellFormed where
  name_eq h := by simp [empty] at h
  normalized_eq h := by simp [empty] at h

theorem WellFormed.register {r r' : Registry} {d : Descriptor} (hr : r.WellFormed)
    (h : r.register d = .ok r') : r'.WellFormed := by
  constructor <;> intro key e he <;>
    rcases (get?_of_register h).1 he with ⟨hkey, rfl⟩ | hbefore
  · exact hkey
  · exact hr.name_eq hbefore
  · exact Descriptor.normalized_normalized d
  · exact hr.normalized_eq hbefore

/-- **Induction along the types that a registry is built from.** -/
theorem ofTypes_induction {P : Registry → Prop} {types : List Descriptor} {r : Registry}
    (hempty : P empty)
    (hregister : ∀ d ∈ types, ∀ before after, P before → before.register d = .ok after → P after)
    (h : ofTypes types = .ok r) : P r := by
  unfold ofTypes at h
  generalize empty = start at h hempty
  induction types generalizing start with
  | nil =>
      cases h
      exact hempty
  | cons d types ih =>
      obtain ⟨hd, htypes⟩ := List.forall_mem_cons.1 hregister
      rw [List.foldlM_cons] at h
      cases hnext : start.register d with
      | error e => rw [hnext] at h; cases h
      | ok next =>
          rw [hnext] at h
          exact ih htypes next h (hd start next hempty hnext)

/-- **Every registry that was built from types is well-formed.** -/
theorem wellFormed_ofTypes {types : List Descriptor} {r : Registry}
    (h : ofTypes types = .ok r) : r.WellFormed :=
  ofTypes_induction wellFormed_empty (fun _ _ _ _ hbefore hd => hbefore.register hd) h

theorem WellFormed.name_reflect {r : Registry} (hr : r.WellFormed) {name : String}
    {d : Descriptor} (h : r.reflect name = .ok d) : d.name = normalize name :=
  hr.name_eq (reflect_eq_ok.1 h)

theorem WellFormed.reflect_name {r : Registry} (hr : r.WellFormed) {name : String}
    {d : Descriptor} (h : r.reflect name = .ok d) : r.reflect d.name = .ok d := by
  rw [hr.name_reflect h, reflect_normalize]
  exact h

theorem WellFormed.normalize_dependency {r : Registry} (hr : r.WellFormed) {name dep : String}
    {d : Descriptor} (h : r.reflect name = .ok d) (hdep : dep ∈ d.dependencies) :
    normalize dep = dep :=
  Descriptor.normalize_of_mem_dependencies (hr.normalized_eq (reflect_eq_ok.1 h)) hdep

/-! ## §5. Fuel. -/

/-- The settled names are different registered ones, and there is fuel for
every other one. -/
structure Fuelled (r : Registry) (fuel : Nat) (settled : List String) : Prop where
  nodup : settled.Nodup
  registered : ∀ name ∈ settled, name ∈ r.names
  enough : r.size < fuel + settled.length

theorem fuelled_start {r : Registry} {fuel : Nat} (h : r.size < fuel) : r.Fuelled fuel [] where
  nodup := List.nodup_nil
  registered := by simp
  enough := by simpa using h

/-- **Fuel never runs out**: there are no more settled names than types. -/
theorem Fuelled.ne_zero {r : Registry} {settled : List String} : ¬ r.Fuelled 0 settled := by
  intro h
  have hle : settled.length ≤ r.names.length :=
    h.nodup.length_le_of_subset fun name hname => h.registered name hname
  have hsize : r.names.length = r.size := Dict.length_keys r.types
  have henough := h.enough
  omega

/-- One more name may be settled. -/
theorem Fuelled.settle {r : Registry} {fuel : Nat} {settled : List String} {name : String}
    (h : r.Fuelled fuel settled) (hnew : name ∉ settled) (hname : name ∈ r.names) :
    r.Fuelled fuel (name :: settled) where
  nodup := List.nodup_cons.2 ⟨hnew, h.nodup⟩
  registered := by
    intro n hn
    rcases List.mem_cons.1 hn with rfl | hn
    · exact hname
    · exact h.registered n hn
  enough := by
    have henough := h.enough
    simp only [List.length_cons]
    omega

/-- One more name is settled with one less fuel. -/
theorem Fuelled.step {r : Registry} {fuel : Nat} {settled : List String} {name : String}
    (h : r.Fuelled (fuel + 1) settled) (hnew : name ∉ settled) (hname : name ∈ r.names) :
    r.Fuelled fuel (name :: settled) where
  nodup := (h.settle hnew hname).nodup
  registered := (h.settle hnew hname).registered
  enough := by
    have henough := h.enough
    simp only [List.length_cons]
    omega

end Registry

end AnnotationCache.Types
