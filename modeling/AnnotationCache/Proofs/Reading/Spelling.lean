/-
  AnnotationCache.Proofs.Reading.Spelling
  ───────────────────────────────────────
  **SEPARATORS IN FRONT OF A NAME DO NOT MATTER.**

  A name may be written with any number of separators in front (`fronted`).
  Names are taken in at many places: when types are registered, when they are
  looked up, where a walk or a search begins, in keys, in tables of times and on
  the command line.  Each place takes in the normal form of the name, so all
  spellings of a class are one class to the end.

  A read of another spelling is even the same computation, whatever cache it is
  made over: it makes the same calls, gives the same answer or failure and leaves
  the same memo.

  Main statements:
    * `ofTypes_respelled`          — types may be declared in any spelling;
    * `CachedReader.read_fronted`  — a cached read of another spelling is the same;
    * `fronted_alike`              — so is all else that is asked about a name.
-/
import Mathlib.Data.List.Forall2
import AnnotationCache.CommandLine.Options
import AnnotationCache.Proofs.Reading.World

namespace AnnotationCache

open AnnotationCache.Types (Registry Descriptor MemberKind normalize separator)

/-! ## §1. Spellings of a name. -/

namespace Types

/-- **A name with separators in front.** -/
def fronted (count : Nat) (name : String) : String :=
  String.ofList (List.replicate count separator ++ name.toList)

/-- **Its normal form is that of the name.** -/
@[simp] theorem normalize_fronted (count : Nat) (name : String) :
    normalize (fronted count name) = normalize name := by
  have hfront : ∀ c ∈ List.replicate count separator, decide (c = separator) = true := by
    intro c hc
    exact decide_eq_true (List.eq_of_mem_replicate hc)
  unfold normalize fronted
  rw [String.toList_ofList, List.dropWhile_append_of_pos hfront]

/-- What is the same for a name and its normal form is so for every spelling. -/
theorem eq_fronted {α : Sort _} {f : String → α} (h : ∀ name, f (normalize name) = f name)
    (count : Nat) (name : String) : f (fronted count name) = f name := by
  rw [← h, normalize_fronted, h]

/-! ## §2. Declared types. -/

/-- Is the second name the first one with separators in front? -/
def Respelled (name name' : String) : Prop :=
  ∃ count, name' = fronted count name

theorem Respelled.normalize_eq {name name' : String} (h : Respelled name name') :
    normalize name' = normalize name := by
  obtain ⟨count, rfl⟩ := h
  exact normalize_fronted count name

/-- Names that are respelled one by one have the same normal forms. -/
theorem map_normalize_respelled {names names' : List String}
    (h : List.Forall₂ Respelled names names') : names'.map normalize = names.map normalize := by
  induction h with
  | nil => rfl
  | cons hname _ ih => rw [List.map_cons, List.map_cons, hname.normalize_eq, ih]

/-- And so have a name that may be missing and its respelling. -/
theorem map_normalize_respelled_parent {name? name?' : Option String}
    (h : Option.Rel Respelled name? name?') : name?'.map normalize = name?.map normalize := by
  cases h with
  | none => rfl
  | some hname => exact congrArg some hname.normalize_eq

/-- **Is the second type the first one with separators in front of names in it**: of
its own, of those of its parent, its interfaces and its traits? -/
structure Descriptor.Respelled (d d' : Descriptor) : Prop where
  name : Types.Respelled d.name d'.name
  parent : Option.Rel Types.Respelled d.parent d'.parent
  interfaces : List.Forall₂ Types.Respelled d.interfaces d'.interfaces
  traits : List.Forall₂ Types.Respelled d.traits d'.traits
  /-- Nothing else is different. -/
  others : { d' with
    name := d.name, parent := d.parent, interfaces := d.interfaces, traits := d.traits } = d

theorem Descriptor.Respelled.normalized_eq {d d' : Descriptor} (h : d.Respelled d') :
    d'.normalized = d.normalized := by
  have hparent := map_normalize_respelled_parent h.parent
  have hothers := congrArg normalized h.others
  unfold normalized at hothers ⊢
  rw [h.name.normalize_eq, hparent, map_normalize_respelled h.interfaces,
    map_normalize_respelled h.traits]
  exact hothers

namespace Registry

/-- Registering a type takes in its normal form. -/
theorem register_normalized (r : Registry) (d : Descriptor) :
    r.register d.normalized = r.register d := by
  unfold register
  rw [Descriptor.normalized_normalized]

/-- **Types may be declared in any spelling**: the registry is the same, and so is
the failure if there is none. -/
theorem ofTypes_respelled {types types' : List Descriptor}
    (h : List.Forall₂ Descriptor.Respelled types types') : ofTypes types' = ofTypes types := by
  unfold ofTypes
  generalize empty = before
  induction h generalizing before with
  | nil => rfl
  | @cons d d' _ _ hd _ ih =>
      have hregister : before.register d' = before.register d := by
        rw [← before.register_normalized d', hd.normalized_eq, before.register_normalized]
      rw [List.foldlM_cons, List.foldlM_cons, hregister]
      exact congrArg (before.register d >>= ·) (funext ih)

theorem contains_normalize (r : Registry) (name : String) :
    r.contains (normalize name) = r.contains name := by
  unfold contains
  rw [normalize_normalize]

end Registry

end Types

open AnnotationCache.Types (fronted)

/-! ## §3. Targets. -/

/-- The target with separators in front of its class name. -/
def Target.fronted (count : Nat) : Target → Target
  | ofClass c => ofClass (Types.fronted count c)
  | ofMethod c m => ofMethod (Types.fronted count c) m
  | ofProperty c p => ofProperty (Types.fronted count c) p

namespace Target

variable (count : Nat) (t : Target)

theorem className_fronted : (t.fronted count).className = Types.fronted count t.className := by
  cases t <;> rfl

theorem normalized_fronted : (t.fronted count).normalized = t.normalized := by
  cases t <;> simp [fronted, normalized]

end Target

theorem CacheKey.ofTarget_fronted (count : Nat) (t : Target) :
    ofTarget (t.fronted count) = ofTarget t := by
  rw [← ofTarget_normalized, t.normalized_fronted count, ofTarget_normalized]

theorem DeclaredReader.read_fronted (r : DeclaredReader) (count : Nat) (t : Target) :
    r.read (t.fronted count) = r.read t := by
  rw [← r.read_normalized, t.normalized_fronted count, r.read_normalized]

/-! ## §4. Conversations. -/

section Conversations

variable {m : Type → Type} [Monad m] {c : Dialogue.Collaborators m} {t t' : Target}
  (hkey : CacheKey.ofTarget t' = CacheKey.ofTarget t) (hcompute : c.compute t' = c.compute t)

include hkey hcompute

theorem Dialogue.run_refresh_congr (current : Int) :
    (refresh t' current).run c = (refresh t current).run c := by
  unfold refresh
  simp only [hkey, run, hcompute]

variable (hlatest : c.latest t'.className = c.latest t.className)

include hlatest

/-- **Targets with one key are read in one and the same conversation** if the others
answer alike for both. -/
theorem Dialogue.run_cachedRead_congr (checking : Bool) :
    (cachedRead checking t').run c = (cachedRead checking t).run c := by
  have hrefresh := run_refresh_congr hkey hcompute
  unfold cachedRead
  rw [hkey, run, run]
  refine congrArg (c.get _ >>= ·) (funext fun stored => ?_)
  cases stored.bind CacheValue.asAnnotations with
  | none =>
      show (c.latest t'.className >>= fun current => (refresh t' current).run c)
        = (c.latest t.className >>= fun current => (refresh t current).run c)
      rw [hlatest, funext hrefresh]
  | some list =>
      cases checking with
      | false => rfl
      | true =>
          simp only [if_true, run, hlatest]
          refine congrArg (c.get _ >>= ·) (funext fun marker => ?_)
          refine congrArg (c.latest _ >>= ·) (funext fun current => ?_)
          split
          · rfl
          · exact hrefresh current

/-- And so are they by a reader with a memo. -/
theorem CachedReader.read_congr (r : CachedReader) : r.read c t' = r.read c t := by
  unfold read
  rw [hkey, Dialogue.run_cachedRead_congr hkey hcompute hlatest]

end Conversations

/-- **A cached read of another spelling is the same read**, over whatever cache: the
same calls, the same answer or failure, the same memo afterwards. -/
theorem CachedReader.read_fronted {m : Type → Type} [Monad m] (store : Store m) (clock : Clock m)
    (declared : DeclaredReader) (r : CachedReader) (count : Nat) (t : Target) :
    r.read (.ofStore store clock declared) (t.fronted count)
      = r.read (.ofStore store clock declared) t := by
  refine read_congr (CacheKey.ofTarget_fronted count t) ?_ ?_ r
  · exact congrArg MonadExcept.ofExcept (declared.read_fronted count t)
  · rw [t.className_fronted]
    exact Types.eq_fronted (lastModification_normalize declared.registry clock) count _

/-! ## §5. All of it. -/

/-- **Separators in front of names do not matter**: not in declared types, not in
what is asked of a registry, a clock, a reader or a cached reader, and not in keys,
on the command line or in a table of times. -/
theorem fronted_alike :
    (∀ types types' : List Descriptor, List.Forall₂ Descriptor.Respelled types types' →
        Registry.ofTypes types' = Registry.ofTypes types)
      ∧ (∀ (count : Nat) (name : String) (r : Registry),
          r.contains (fronted count name) = r.contains name
            ∧ r.reflect (fronted count name) = r.reflect name
            ∧ (∀ (kind : MemberKind) (member : String),
                r.findMember kind (fronted count name) member = r.findMember kind name member)
            ∧ r.closure (fronted count name) = r.closure name
            ∧ ∀ {m : Type → Type} [Monad m] (clock : Clock m),
                lastModification r clock (fronted count name) = lastModification r clock name)
      ∧ (∀ (count : Nat) (t : Target), CacheKey.ofTarget (t.fronted count) = CacheKey.ofTarget t
          ∧ (∀ declared : DeclaredReader, declared.read (t.fronted count) = declared.read t)
          ∧ ∀ {m : Type → Type} [Monad m] (store : Store m) (clock : Clock m)
              (declared : DeclaredReader) (r : CachedReader),
                r.read (.ofStore store clock declared) (t.fronted count)
                  = r.read (.ofStore store clock declared) t)
      ∧ (∀ (count : Nat) (o : CommandLine.Options),
          { o with className := fronted count o.className }.target = o.target)
      ∧ ∀ (count : Nat) (times : FixedTimes) (name : String) (seconds : Int),
          times.set (fronted count name) seconds = times.set name seconds := by
  refine ⟨fun _ _ h => Registry.ofTypes_respelled h, ?registry, ?target, ?options, ?times⟩
  case registry =>
    intro count name r
    exact ⟨Types.eq_fronted r.contains_normalize count name,
      Types.eq_fronted r.reflect_normalize count name,
      fun kind member =>
        Types.eq_fronted (f := (r.findMember kind · member))
          (r.findMember_normalize kind · member) count name,
      Types.eq_fronted r.closure_normalize count name,
      fun clock => Types.eq_fronted (lastModification_normalize r clock) count name⟩
  case target =>
    intro count t
    exact ⟨CacheKey.ofTarget_fronted count t, fun declared => declared.read_fronted count t,
      fun store clock declared r => r.read_fronted store clock declared count t⟩
  case options =>
    intro count o
    unfold CommandLine.Options.target
    cases o.method <;> cases o.property <;> simp [Target.normalized]
  case times =>
    intro count times name seconds
    unfold FixedTimes.set
    rw [Types.normalize_fronted]

/-- A type that takes members from a trait, declared and asked for in two ways. -/
theorem fronted_alike_of_page :
    Registry.ofTypes [{ name := "\\\\App\\Page", traits := ["\\App\\Routes"] }]
        = Registry.ofTypes [{ name := "App\\Page", traits := ["App\\Routes"] }]
      ∧ CacheKey.ofTarget (.ofClass "\\App\\Page") = CacheKey.ofTarget (.ofClass "App\\Page") := by
  obtain ⟨htypes, -, htargets, -, -⟩ := fronted_alike
  have hpage : Descriptor.Respelled { name := "App\\Page", traits := ["App\\Routes"] }
      { name := "\\\\App\\Page", traits := ["\\App\\Routes"] } :=
    ⟨⟨2, rfl⟩, .none, .nil, .cons ⟨1, rfl⟩ .nil, rfl⟩
  exact ⟨htypes _ _ (.cons hpage .nil), (htargets 1 (.ofClass "App\\Page")).1⟩

end AnnotationCache
