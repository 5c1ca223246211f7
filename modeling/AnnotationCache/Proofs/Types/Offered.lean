/-
  AnnotationCache.Proofs.Types.Offered
  ────────────────────────────────────
  **TYPES THAT ARE OFFERED TO A REGISTRY.**

  A registry is offered types one after the other.  It takes a type in its normal
  form if the name is free, and refuses it otherwise, with nothing changed.  So
  after any calls it knows of each name the first type that was offered under it
  (`get?_offered`), and all names in it are without separators in front.

  A list of types is taken as a whole if their names differ.  Otherwise the first
  type is to blame that repeats an earlier name.  The order of the list makes no
  difference to a registry that comes of it.

  Main statements:
    * `get?_offer`, `get?_offered` — what is known after a call, and after a run of them;
    * `ofTypes_eq_error_iff`       — which type a refused list is refused for;
    * `ofTypes_perm`               — the order of a list makes no difference;
    * `registration_is_atomic`     — all of it.
-/
import AnnotationCache.Proofs.Types.Order

namespace AnnotationCache.Types

/-! ## §1. Names without separators in front. -/

/-- **Does a name have no separator in front?** -/
def Bare (name : String) : Prop :=
  ∀ c ∈ name.toList.head?, c ≠ separator

theorem bare_normalize (name : String) : Bare (normalize name) := by
  intro c hc
  have hhead := List.head?_dropWhile_not (fun c => decide (c = separator)) name.toList
  rw [toList_normalize] at hc
  rw [Option.mem_def.1 hc] at hhead
  exact of_decide_eq_false hhead

/-- **Do no names in a type have separators in front**: its own, and those of its parent,
its interfaces and its traits? -/
structure Descriptor.Bare (d : Descriptor) : Prop where
  name : Types.Bare d.name
  parent : ∀ name ∈ d.parent, Types.Bare name
  interfaces : ∀ name ∈ d.interfaces, Types.Bare name
  traits : ∀ name ∈ d.traits, Types.Bare name

theorem bare_of_mem_map_normalize {names : List String} :
    ∀ name ∈ names.map normalize, Bare name := by
  intro name hname
  obtain ⟨written, -, rfl⟩ := List.mem_map.1 hname
  exact bare_normalize written

theorem Descriptor.bare_normalized (d : Descriptor) : d.normalized.Bare where
  name := bare_normalize d.name
  parent := by
    intro name hname
    obtain ⟨written, -, rfl⟩ := Option.map_eq_some_iff.1 (Option.mem_def.1 hname)
    exact bare_normalize written
  interfaces := bare_of_mem_map_normalize
  traits := bare_of_mem_map_normalize

namespace Registry

/-! ## §2. One call. -/

/-- **A call to register a type**: what comes of it, and the registry afterwards, which
is as before if the type is refused. -/
def offer (r : Registry) (d : Descriptor) : Except Error Unit × Registry :=
  match r.register d with
  | .ok r' => (.ok (), r')
  | .error e => (.error e, r)

variable {r : Registry} {d : Descriptor}

/-- A type is refused if its name is taken, and for no other reason. -/
theorem register_eq_error_iff {e : Error} :
    r.register d = .error e ↔ r.contains d.name = true ∧ e = .duplicateType (normalize d.name) := by
  have hname : d.normalized.name = normalize d.name := rfl
  unfold register contains
  dsimp only
  rw [hname]
  cases r.types.contains (normalize d.name) <;> simp [eq_comm]

/-- **A type is refused if its name is taken**, and nothing changes. -/
theorem offer_of_taken (h : r.contains d.name = true) :
    r.offer d = (.error (.duplicateType (normalize d.name)), r) := by
  unfold offer
  rw [register_eq_error_iff.2 ⟨h, rfl⟩]

theorem get?_eq_none_iff {name : String} :
    r.types.get? (normalize name) = none ↔ r.contains name = false := by
  unfold contains Dict.contains
  rw [Option.isSome_eq_false_iff, Option.isNone_iff_eq_none]

/-- **A type is taken if its name is free.** -/
theorem offer_of_free (h : r.contains d.name = false) :
    r.offer d = (.ok (), ⟨r.types.insert (normalize d.name) d.normalized⟩) := by
  unfold offer
  rw [register_eq_ok.2 ⟨get?_eq_none_iff.2 h, rfl⟩]

/-- **What is known after a call**: what was known, and of a free name the type that was
offered under it. -/
theorem get?_offer (r : Registry) (d : Descriptor) (key : String) :
    (r.offer d).2.types.get? key
      = (r.types.get? key).or (if normalize d.name = key then some d.normalized else none) := by
  cases htaken : r.contains d.name with
  | true =>
      rw [offer_of_taken htaken]
      split
      next hkey =>
        -- The name is that of a type that is known, so that one counts.
        obtain ⟨known, hknown⟩ := Dict.contains_iff.1 htaken
        rw [← hkey, hknown]
        rfl
      next => rw [Option.or_none]
  | false =>
      rw [offer_of_free htaken, Dict.get?_insert]
      by_cases hkey : key = normalize d.name
      · rw [if_pos hkey, if_pos hkey.symm, hkey, get?_eq_none_iff.2 htaken, Option.none_or]
      · rw [if_neg hkey, if_neg (Ne.symm hkey), Option.or_none]

theorem WellFormed.offer (hr : r.WellFormed) (d : Descriptor) : (r.offer d).2.WellFormed := by
  unfold Registry.offer
  cases h : r.register d with
  | ok r' => exact hr.register h
  | error e => exact hr

/-- The names in a well-formed registry have no separators in front. -/
theorem WellFormed.bare (hr : r.WellFormed) {key : String} (h : r.types.get? key = some d) :
    d.Bare :=
  hr.normalized_eq h ▸ d.bare_normalized

/-! ## §3. A run of calls. -/

/-- **The registry after calls**, one after the other. -/
def offered (r : Registry) (types : List Descriptor) : Registry :=
  types.foldl (fun r d => (r.offer d).2) r

theorem WellFormed.offered {types : List Descriptor} (hr : r.WellFormed) :
    (r.offered types).WellFormed := by
  induction types generalizing r with
  | nil => exact hr
  | cons d types ih => exact ih (hr.offer d)

/-- **What is known after a run of calls**: what was known, and of every other name the
first type that was offered under it. -/
theorem get?_offered (r : Registry) (types : List Descriptor) (key : String) :
    (r.offered types).types.get? key
      = (r.types.get? key).or
          ((types.find? fun d => normalize d.name = key).map Descriptor.normalized) := by
  induction types generalizing r with
  | nil => exact (Option.or_none).symm
  | cons d types ih =>
      show ((r.offer d).2.offered types).types.get? key = _
      rw [ih, get?_offer, Option.or_assoc, List.find?_cons]
      congr 1
      by_cases hkey : normalize d.name = key <;> simp [hkey]

/-! ## §4. Types that are registered as a whole. -/

/-- A run of steps fails where one of them does. -/
theorem foldlM_eq_error_iff {α β ε : Type} {f : β → α → Except ε β} {xs : List α} {start : β}
    {e : ε} :
    xs.foldlM f start = .error e
      ↔ ∃ before x after mid, xs = before ++ x :: after
          ∧ before.foldlM f start = .ok mid ∧ f mid x = .error e := by
  constructor
  · intro h
    induction xs generalizing start with
    | nil => cases h
    | cons x xs ih =>
        rw [List.foldlM_cons] at h
        cases hx : f start x with
        | error e' =>
            rw [hx] at h
            cases h
            exact ⟨[], x, xs, start, rfl, rfl, hx⟩
        | ok next =>
            rw [hx] at h
            obtain ⟨before, y, after, mid, rfl, hbefore, hy⟩ := ih h
            refine ⟨x :: before, y, after, mid, rfl, ?_, hy⟩
            rw [List.foldlM_cons, hx]
            exact hbefore
  · rintro ⟨before, x, after, mid, rfl, hbefore, hx⟩
    rw [List.foldlM_append, hbefore]
    show ((x :: after).foldlM f mid : Except ε β) = _
    rw [List.foldlM_cons, hx]
    rfl

theorem contains_of_ofTypes {types : List Descriptor} (h : ofTypes types = .ok r) (name : String) :
    r.contains name = true ↔ normalize name ∈ types.map fun d => normalize d.name := by
  unfold contains
  rw [Dict.contains_iff, List.mem_map]
  constructor
  · rintro ⟨e, he⟩
    obtain ⟨d, hd, hname, -⟩ := (get?_ofTypes h).1 he
    exact ⟨d, hd, hname⟩
  · rintro ⟨d, hd, hname⟩
    exact ⟨d.normalized, (get?_ofTypes h).2 ⟨d, hd, hname, rfl⟩⟩

/-- **Types are refused for the first one that repeats an earlier name.** -/
theorem ofTypes_eq_error_iff {types : List Descriptor} {e : Error} :
    ofTypes types = .error e
      ↔ ∃ before d after, types = before ++ d :: after
          ∧ (before.map fun d => normalize d.name).Nodup
          ∧ normalize d.name ∈ (before.map fun d => normalize d.name)
          ∧ e = .duplicateType (normalize d.name) := by
  unfold ofTypes
  rw [foldlM_eq_error_iff]
  constructor
  · rintro ⟨before, d, after, mid, rfl, hbefore, hd⟩
    obtain ⟨htaken, rfl⟩ := register_eq_error_iff.1 hd
    exact ⟨before, d, after, rfl, ofTypes_ok_iff.1 ⟨mid, hbefore⟩,
      (contains_of_ofTypes hbefore d.name).1 htaken, rfl⟩
  · rintro ⟨before, d, after, rfl, hnodup, hrepeats, rfl⟩
    obtain ⟨mid, hmid⟩ := ofTypes_ok_iff.2 hnodup
    exact ⟨before, d, after, mid, rfl, hmid,
      register_eq_error_iff.2 ⟨(contains_of_ofTypes hmid d.name).2 hrepeats, rfl⟩⟩

/-- **The order of the types makes no difference** to the registry that comes of them. -/
theorem ofTypes_perm {types types' : List Descriptor} (hperm : types.Perm types')
    (h : ofTypes types = .ok r) : ofTypes types' = .ok r := by
  have hnodup : (types'.map fun d => normalize d.name).Nodup :=
    (hperm.map _).nodup_iff.1 (ofTypes_ok_iff.1 ⟨r, h⟩)
  obtain ⟨r', h'⟩ := ofTypes_ok_iff.2 hnodup
  have hlookup : ∀ key, r'.types.get? key = r.types.get? key := by
    intro key
    refine Option.ext fun e => ?_
    rw [get?_ofTypes h, get?_ofTypes h']
    simp only [hperm.mem_iff]
  have htypes : r'.types = r.types := Dict.ext_get? hlookup
  rw [h', show r' = r from congrArg Registry.mk htypes]

/-- Every spelling of the name of a registered type finds its normal form. -/
theorem reflect_of_ofTypes {types : List Descriptor} (h : ofTypes types = .ok r) (hd : d ∈ types)
    {name : String} (hname : normalize name = normalize d.name) :
    r.reflect name = .ok d.normalized :=
  reflect_eq_ok.2 ((get?_ofTypes h).2 ⟨d, hd, hname.symm, rfl⟩)

/-- No spelling of another name finds anything. -/
theorem reflect_of_not_mem {types : List Descriptor} (h : ofTypes types = .ok r) {name : String}
    (hname : ∀ d ∈ types, normalize d.name ≠ normalize name) :
    r.reflect name = .error (.typeNotFound (normalize name)) := by
  have hnone : r.types.get? (normalize name) = none := by
    rw [Option.eq_none_iff_forall_not_mem]
    intro e he
    obtain ⟨d, hd, hsame, -⟩ := (get?_ofTypes h).1 (Option.mem_def.1 he)
    exact hname d hd hsame
  unfold reflect
  rw [hnone]

/-! ## §5. All of it. -/

/-- **Registration is atomic, and keeps a registry in form.**  After any calls, every type
is bound to its own name, no name has separators in front, and of each name the first type
counts that was offered.  One more call fails exactly if the name is known already, in which
case nothing has changed.  So a list of types can be registered if and only if their names
differ; otherwise the first one is named that repeats an earlier one.  And once it is
registered, in whatever order, every spelling of a name finds the normal form of the one type
of that name, or nothing. -/
theorem registration_is_atomic (types : List Descriptor) :
    (∀ key d, (empty.offered types).types.get? key = some d → d.name = key ∧ d.Bare)
      ∧ (∀ key, (empty.offered types).types.get? key
          = (types.find? fun d => normalize d.name = key).map Descriptor.normalized)
      ∧ (∀ d, ((∃ e, ((empty.offered types).offer d).1 = .error e)
            ↔ (empty.offered types).contains d.name = true)
          ∧ ((empty.offered types).contains d.name = true → (empty.offered types).offer d
              = (.error (.duplicateType (normalize d.name)), empty.offered types)))
      ∧ ((∃ r, ofTypes types = .ok r) ↔ (types.map fun d => normalize d.name).Nodup)
      ∧ (∀ e, ofTypes types = .error e
          ↔ ∃ before d after, types = before ++ d :: after
              ∧ (before.map fun d => normalize d.name).Nodup
              ∧ normalize d.name ∈ (before.map fun d => normalize d.name)
              ∧ e = .duplicateType (normalize d.name))
      ∧ ∀ r, ofTypes types = .ok r → ∀ types' : List Descriptor, types.Perm types' →
          ofTypes types' = .ok r
            ∧ ∀ name, (∀ d ∈ types, normalize name = normalize d.name →
                r.reflect name = .ok d.normalized)
              ∧ ((∀ d ∈ types, normalize d.name ≠ normalize name) →
                r.reflect name = .error (.typeNotFound (normalize name))) := by
  have hform : (empty.offered types).WellFormed := wellFormed_empty.offered
  refine ⟨?form, ?first, ?call, ofTypes_ok_iff, fun e => ofTypes_eq_error_iff, ?whole⟩
  case form =>
    intro key d hd
    exact ⟨hform.name_eq hd, hform.bare hd⟩
  case first =>
    intro key
    rw [get?_offered]
    exact Option.none_or
  case call =>
    intro d
    refine ⟨?_, offer_of_taken⟩
    cases htaken : (empty.offered types).contains d.name with
    | true => exact iff_of_true ⟨_, congrArg Prod.fst (offer_of_taken htaken)⟩ rfl
    | false =>
        rw [offer_of_free htaken]
        exact iff_of_false (fun ⟨e, he⟩ => by cases he) Bool.false_ne_true
  case whole =>
    intro r hr types' hperm
    exact ⟨ofTypes_perm hperm hr, fun name =>
      ⟨fun d hd => reflect_of_ofTypes hr hd, reflect_of_not_mem hr⟩⟩

/-- Three calls, of which the second repeats the name of the first one in another
spelling. -/
def repeatedOffers : List Descriptor :=
  [{ name := "\\App\\Page", parent := some "\\\\App\\Base" }, { name := "App\\Page" },
    { name := "\\App\\Base" }]

/-- The first call and the last one. -/
def differentOffers : List Descriptor :=
  [{ name := "\\App\\Page", parent := some "\\\\App\\Base" }, { name := "\\App\\Base" }]

theorem registration_of_offers :
    (empty.offered repeatedOffers).types.get? "App\\Page"
        = some { name := "App\\Page", parent := some "App\\Base" }
      ∧ ofTypes repeatedOffers = .error (.duplicateType "App\\Page")
      ∧ ∃ r, ofTypes differentOffers = .ok r ∧ ofTypes differentOffers.reverse = .ok r
          ∧ r.reflect "\\\\App\\Base" = .ok { name := "App\\Base" }
          ∧ r.reflect "App" = .error (.typeNotFound "App") := by
  obtain ⟨-, hfirst, -, -, herror, -⟩ := registration_is_atomic repeatedOffers
  obtain ⟨-, -, -, -, -, hwhole⟩ := registration_is_atomic differentOffers
  have hrepeats : ofTypes repeatedOffers = .error (.duplicateType "App\\Page") :=
    (herror _).2 ⟨[{ name := "\\App\\Page", parent := some "\\\\App\\Base" }],
      { name := "App\\Page" }, [{ name := "\\App\\Base" }], rfl,
      List.nodup_cons.2 ⟨List.not_mem_nil, List.nodup_nil⟩, List.mem_singleton.2 rfl, rfl⟩
  have hregistered : ofTypes differentOffers = .ok _ := rfl
  obtain ⟨hreversed, hreflect⟩ := hwhole _ hregistered _ (List.reverse_perm _).symm
  refine ⟨(hfirst "App\\Page").trans rfl, hrepeats, _, hregistered, hreversed, ?_, ?_⟩
  · exact (hreflect "\\\\App\\Base").1 { name := "\\App\\Base" }
      (List.mem_cons_of_mem _ List.mem_cons_self) rfl
  · exact (hreflect "App").2 (by decide)

end Registry

end AnnotationCache.Types
