/-
  AnnotationCache.Proofs.Manifest.Declared
  ────────────────────────────────────────
  **WHAT A MANIFEST CAN SAY, A CACHE CAN GIVE BACK.**

  Six brackets of a manifest stand around a value of an annotation of a type, and
  one more around one of a member.  A cache puts five around it.  A manifest in
  YAML may open 128, so what it leaves a value is just what an entry leaves it, as
  an entry may open 127; a manifest in JSON leaves one less.

  So whatever is read of the types of a manifest that was accepted can be stored,
  and is found again.

  Main statements:
    * `Graded.annotation`, `Graded.descriptor` — what is read of annotations and types,
      in whatever format;
    * `within_of_parse`     — what an accepted manifest says of its types;
    * `within_of_read`      — what is read of them;
    * `get_declared_of_set` — it is found again once it is stored.
-/
import AnnotationCache.Manifest.Read
import AnnotationCache.Proofs.Json.Reading
import AnnotationCache.Proofs.Store.RoundTrip
import AnnotationCache.Proofs.Types.Search
import AnnotationCache.Proofs.Yaml.Reading
import AnnotationCache.Reading.Declared

namespace AnnotationCache

open AnnotationCache.Files (Disk Location)
open AnnotationCache.Types (Descriptor Registry)

/-! ## §1. Annotations. -/

/-- **Are the values of an annotation canonical**, and nest no deeper than so? -/
structure Annotation.Within (room : Nat) (a : Annotation) : Prop where
  canonical : Json.canonicalMembers a.values.entries = true
  depth : a.depth ≤ room

theorem Annotation.Within.mono {room more : Nat} {a : Annotation} (h : a.Within room)
    (hmore : room ≤ more) : a.Within more :=
  ⟨h.canonical, Nat.le_trans h.depth hmore⟩

/-- **Are the values of all annotations of a type canonical**, and nest no deeper than a
type leaves them room, which stands where there is so much? -/
structure Types.Descriptor.Within (room : Nat) (d : Descriptor) : Prop where
  annotations : ∀ a ∈ d.annotations, a.Within (room - 4)
  methods : ∀ b ∈ d.methods.entries, ∀ a ∈ b.2, a.Within (room - 5)
  properties : ∀ b ∈ d.properties.entries, ∀ a ∈ b.2, a.Within (room - 5)

theorem Types.Descriptor.Within.mono {room more : Nat} {d : Descriptor} (h : d.Within room)
    (hmore : room ≤ more) : d.Within more where
  annotations a ha := (h.annotations a ha).mono (by omega)
  methods b hb a ha := (h.methods b hb a ha).mono (by omega)
  properties b hb a ha := (h.properties b hb a ha).mono (by omega)

/-! ## §2. What is read. -/

namespace RecordFormat.Graded

open Annotation (readList schema)

variable {m : Type → Type} [Monad m] [Returning m] {τ : Type} {format : RecordFormat m τ}
  {room : τ → Nat} (h : format.Graded room) {p : τ}

include h

/-- Bindings of values are canonical, and nest less deep than there is room. -/
theorem values {values : Dict Json} (hvalues : Returns (format.dict format.value p) values) :
    Json.canonicalMembers values.entries = true ∧ Json.depthMembers values.entries ≤ room p - 1 := by
  have hall : ∀ b ∈ values.entries, b.2.canonical = true ∧ b.2.depth ≤ room p - 1 := by
    intro b hb
    obtain ⟨q, hq, hvalue⟩ := h.dict hvalues b hb
    obtain ⟨hcanonical, hdepth⟩ := h.value hvalue
    exact ⟨hcanonical, by omega⟩
  exact ⟨Json.canonicalMembers_iff.2 fun b hb => (hall b hb).1,
    Json.depthMembers_le_iff.2 fun b hb => (hall b hb).2⟩

/-- **An annotation has two brackets around its values.** -/
theorem annotation {a : Annotation}
    (ha : Returns (format.record (schema format) p) a) : a.Within (room p - 2) := by
  refine h.record (I := Annotation.Within (room p - 2)) ⟨⟨rfl, Nat.zero_le _⟩, ?_⟩ ha
  simp only [schema, List.forall_mem_cons]
  refine ⟨fun q hq change hread record hrecord => ?_, fun q hq change hread record hrecord => ?_,
    by simp⟩
  · obtain ⟨name, -, rfl⟩ := returns_bind_pure hread
    exact ⟨hrecord.canonical, hrecord.depth⟩
  · obtain ⟨values, hvalues, rfl⟩ := returns_bind_pure hread
    obtain ⟨hcanonical, hdepth⟩ := h.values hvalues
    refine ⟨hcanonical, Nat.le_trans hdepth ?_⟩
    omega

/-- A list of annotations has three. -/
theorem annotations {list : List Annotation} (hlist : Returns (readList format p) list) :
    ∀ a ∈ list, a.Within (room p - 3) := by
  intro a ha
  obtain ⟨q, hq, hitem⟩ := h.list hlist a ha
  exact (h.annotation hitem).mono (by omega)

/-- Members of a type have four. -/
theorem members {members : Dict (List Annotation)}
    (hmembers : Returns (Descriptor.readMembers format p) members) :
    ∀ b ∈ members.entries, ∀ a ∈ b.2, a.Within (room p - 4) := by
  intro b hb a ha
  obtain ⟨q, hq, hlist⟩ := h.dict hmembers b hb
  exact (h.annotations hlist a ha).mono (by omega)

/-- **A type has one more around its annotations and its members.** -/
theorem descriptor {d : Descriptor}
    (hd : Returns (format.record (Descriptor.schema format) p) d) : d.Within (room p) := by
  have hblank : ({ name := "" } : Descriptor).Within (room p) :=
    ⟨fun a ha => absurd ha List.not_mem_nil, fun b hb => absurd hb List.not_mem_nil,
      fun b hb => absurd hb List.not_mem_nil⟩
  refine h.record (I := Descriptor.Within (room p)) ⟨hblank, ?_⟩ hd
  simp only [Descriptor.schema, List.forall_mem_cons]
  refine ⟨?name, ?kind, ?source, ?parent, ?interfaces, ?traits, ?annotations, ?methods, ?properties,
    by simp⟩
  case annotations =>
    intro q hq change hread record hrecord
    obtain ⟨list, hlist, rfl⟩ := returns_bind_pure hread
    refine ⟨fun a ha => ?_, hrecord.methods, hrecord.properties⟩
    exact (h.annotations hlist a ha).mono (by omega)
  case methods =>
    intro q hq change hread record hrecord
    obtain ⟨members, hmembers, rfl⟩ := returns_bind_pure hread
    refine ⟨hrecord.annotations, fun b hb a ha => ?_, hrecord.properties⟩
    exact (h.members hmembers b hb a ha).mono (by omega)
  case properties =>
    intro q hq change hread record hrecord
    obtain ⟨members, hmembers, rfl⟩ := returns_bind_pure hread
    refine ⟨hrecord.annotations, hrecord.methods, fun b hb a ha => ?_⟩
    exact (h.members hmembers b hb a ha).mono (by omega)
  -- The other fields leave the annotations as they are.
  all_goals
    intro q hq change hread record hrecord
    obtain ⟨read, -, rfl⟩ := returns_bind_pure hread
    exact ⟨hrecord.annotations, hrecord.methods, hrecord.properties⟩

omit p in
/-- **A manifest has two around a type.** -/
theorem manifest (top : Nat) :
    (Manifest.schema format).Keeps room top
      fun manifest => ∀ d ∈ manifest.types, d.Within (top - 2) := by
  refine ⟨fun d hd => absurd hd List.not_mem_nil, ?_⟩
  simp only [Manifest.schema, List.forall_mem_cons]
  refine ⟨fun q hq change hread record hrecord => ?_, fun q hq change hread record hrecord => ?_,
    by simp⟩
  · obtain ⟨names, -, rfl⟩ := returns_bind_pure hread
    exact hrecord
  · obtain ⟨types, htypes, rfl⟩ := returns_bind_pure hread
    intro d hd
    obtain ⟨q', hq', hitem⟩ := h.list htypes d hd
    exact (h.descriptor hitem).mono (by omega)

end RecordFormat.Graded

/-! ## §3. Manifests. -/

namespace Manifest

/-- A failure that is put in other words is still one. -/
theorem ok_of_mapError {ε ε' α : Type} {x : Except ε α} {f : ε → ε'} {a : α}
    (h : x.mapError f = .ok a) : x = .ok a := by
  cases x with
  | error e => cases h
  | ok b =>
      cases h
      rfl

/-- **An accepted manifest leaves the values of annotations the room that they take**, in
either format. -/
theorem within_of_parse {format : ManifestFormat} {text path : String} {manifest : Manifest}
    (h : parse format text path = .ok manifest) : ∀ d ∈ manifest.types, d.Within 126 := by
  cases format with
  | json =>
      have hall := Json.keep_decode (Json.Place.graded.manifest Json.maxDepth) (ok_of_mapError h)
      exact fun d hd => (hall d hd).mono (by decide)
  | yaml => exact Yaml.keep_decode (Yaml.Place.graded.manifest Yaml.maxDepth) (ok_of_mapError h)

/-! ## §4. What is read of the declared types. -/

/-- What a registry has of a manifest's types is within the same room. -/
theorem within_of_registry {manifest : Manifest} {registry : Registry} {room : Nat}
    (hall : ∀ d ∈ manifest.types, d.Within room) (h : manifest.registry = .ok registry)
    {key : String} {d : Descriptor} (hd : registry.types.get? key = some d) : d.Within room := by
  obtain ⟨t, ht, -, rfl⟩ := (Types.Registry.get?_ofTypes h).1 hd
  exact ⟨(hall t ht).annotations, (hall t ht).methods, (hall t ht).properties⟩

/-- The annotations of a member of a type are within the room of its members. -/
theorem within_of_members {d : Descriptor} {room : Nat} (hd : d.Within room)
    {kind : Types.MemberKind} {member : String} {list : List Annotation}
    (h : (d.members kind).get? member = some list) : ∀ a ∈ list, a.Within (room - 5) := by
  cases kind with
  | method => exact hd.methods _ ((Ordered.mem_iff_find? d.methods.ordered member list).2 h)
  | property => exact hd.properties _ ((Ordered.mem_iff_find? d.properties.ordered member list).2 h)

/-- **What a reader gives of the types of an accepted manifest has room in an entry.** -/
theorem within_of_read {manifest : Manifest} {r : DeclaredReader}
    (hwithin : ∀ d ∈ manifest.types, d.Within 126)
    (hregistry : manifest.registry = .ok r.registry) {t : Target} {list : List Annotation}
    (hread : r.read t = .ok list) : ∀ a ∈ list, a.Within 122 := by
  have hall : ∀ {key : String} {d : Descriptor}, r.registry.types.get? key = some d → d.Within 126 :=
    fun hd => within_of_registry hwithin hregistry hd
  have hmember : ∀ {kind : Types.MemberKind} {className member : String} {found : List Annotation},
      r.registry.findMember kind className member = .ok found → ∀ a ∈ found, a.Within 122 := by
    intro kind className member found hfound a ha
    obtain ⟨key, d, hd, hdeclared⟩ := Types.Registry.declared_of_findMember hfound
    exact (within_of_members (hall hd) hdeclared a ha).mono (by decide)
  -- What is kept of the annotations is some of them.
  cases t with
  | ofClass className =>
      obtain ⟨d, hd, hlist⟩ := bind_eq_ok hread
      cases hlist
      intro a ha
      exact (hall (Types.Registry.reflect_eq_ok.1 hd)).annotations a (List.mem_filter.1 ha).1
  | ofMethod className member =>
      obtain ⟨found, hfound, hlist⟩ := bind_eq_ok hread
      cases hlist
      exact fun a ha => hmember hfound a (List.mem_filter.1 ha).1
  | ofProperty className member =>
      obtain ⟨found, hfound, hlist⟩ := bind_eq_ok hread
      cases hlist
      exact fun a ha => hmember hfound a (List.mem_filter.1 ha).1

/-! ## §5. Stored and found again. -/

/-- **What is read of the types of an accepted manifest is found again once it is
stored**: its values nest no deeper than an entry leaves them room. -/
theorem get_declared_of_set {format : ManifestFormat} {text path : String} {manifest : Manifest}
    {r : DeclaredReader} {t : Target} {list : List Annotation} {cache : FolderCache} {d made : Disk}
    {loc : Location} (hparse : parse format text path = .ok manifest)
    (hregistry : manifest.registry = .ok r.registry) (hread : r.read t = .ok list)
    (hfloats : ∀ a ∈ list, Json.FloatsReadBackMembers a.values.entries)
    (hmake : d.makeFolders cache.folder = (.ok ⟨⟩, made))
    (htakes : made.Takes (cache.entryPath (CacheKey.ofTarget t).text) loc) :
    (∀ a ∈ list, a.depth ≤ 122)
      ∧ ∃ d', (cache.set Files.Disk.files (CacheKey.ofTarget t).text (.annotations list)).run.run d
            = (.ok true, d')
          ∧ (cache.get Files.Disk.files (CacheKey.ofTarget t).text).run.run d'
            = (.ok (some (.annotations list)), d') := by
  have hwithin := within_of_read (within_of_parse hparse) hregistry hread
  have htextual : (CacheValue.annotations list).Textual := fun a ha =>
    ⟨(hwithin a ha).canonical, hfloats a ha⟩
  have hnests : (CacheValue.annotations list).NestsWithin Entry.valueRoom := fun a ha =>
    (hwithin a ha).depth
  have hget := FolderCache.run_get_put htakes htextual
  rw [if_pos hnests] at hget
  exact ⟨fun a ha => (hwithin a ha).depth, _, FolderCache.run_set hmake htakes _, hget⟩

/-- Annotations of a type. -/
def shownList : List Annotation :=
  [{ name := "Route"
     values := Dict.ofList [("path", .str "/page"), ("retries", .arr [.int 3, .null])] }]

/-- A manifest of the type. -/
def shownManifest : Manifest where
  types := [{ name := "App\\Page", annotations := shownList }]

/-- A reader of it. -/
def shownReader : DeclaredReader :=
  .ofRegistry ⟨Dict.ofList [("App\\Page", { name := "App\\Page", annotations := shownList })]⟩ []

/-- The manifest as it is written. -/
def shownText : String :=
  (Json.obj [("types", .arr [.obj [("name", .str "App\\Page"),
    ("annotations", .arr (shownList.map Annotation.toJson))]])]).compact

theorem parse_shownText : parse .json shownText "types.json" = .ok shownManifest := by
  have hread : ofJson shownText = .ok shownManifest :=
    Json.decode_compact _ (Json.floatsReadBack_of_floatFree _ rfl)
  unfold parse
  dsimp only
  rw [hread]
  rfl

theorem get_declared_of_shownText :
    parse .json shownText "types.json" = .ok shownManifest
      ∧ shownManifest.registry = .ok shownReader.registry
      ∧ shownReader.read (.ofClass "App\\Page") = .ok shownList
      ∧ ∃ d', (FolderCache.set Files.Disk.files ⟨"cache"⟩ "App.Page"
              (.annotations shownList)).run.run {} = (.ok true, d')
          ∧ (FolderCache.get Files.Disk.files ⟨"cache"⟩ "App.Page").run.run d'
            = (.ok (some (.annotations shownList)), d') := by
  have hregistry : shownManifest.registry = .ok shownReader.registry := rfl
  have hread : shownReader.read (.ofClass "App\\Page") = .ok shownList := rfl
  have hfloats : ∀ a ∈ shownList, Json.FloatsReadBackMembers a.values.entries := by
    intro a ha
    rw [List.mem_singleton.1 ha]
    exact Json.floatsReadBackMembers_of_floatFree _ rfl
  have hkey : (CacheKey.ofTarget (.ofClass "App\\Page")).text = "App.Page" := rfl
  obtain ⟨-, d', hset, hget⟩ := get_declared_of_set parse_shownText hregistry hread hfloats
    FolderCache.makeFolders_shownFolder (FolderCache.takes_shownFolder _)
  rw [hkey] at hset hget
  exact ⟨parse_shownText, hregistry, hread, d', hset, hget⟩

end Manifest

end AnnotationCache
