/-
  AnnotationCache.Proofs.Manifest.Spelled
  ───────────────────────────────────────
  **A MANIFEST IS READ FROM EVERY TEXT OF IT.**

  A manifest, a type and an annotation are written as objects.  Each field is given
  by one member under its name or, where it is what it would be anyway, left out; the
  members stand in any order, and between them any others of names that are no fields.
  What a value that stands for one of them looks like is said by `Spelt`, and how a
  value is written by `Json.SpellsText`.

  Main statements:
    * `Annotation.reads`, `Types.Descriptor.reads`, `Manifest.reads` — each is read from
      every object that stands for it;
    * `Manifest.parse_spelt` — a manifest is read from every text of such an object.
-/
import AnnotationCache.Manifest.Read
import AnnotationCache.Proofs.Json.Record

namespace AnnotationCache

open AnnotationCache.Types (Descriptor Kind)
open Annotation (readList)
open Json (Binds Filling Gives Lists Place Reads)

/-! ## §1. Values and names. -/

/-- **Does a value mean another one?**  It has no floats, its integers fit a word, and its
members, gathered in order, make the other. -/
structure Json.Means (v w : Json) : Prop where
  floatFree : v.floatFree = true
  fit : v.integersFit = true
  gathered : v.gathered = w

/-- Is a value a list of these names? -/
def Json.Names (v : Json) (names : List String) : Prop :=
  Lists (fun x name => x = .str name) v names

/-- Does a value stand for a text, or for none? -/
def Json.Optional (v : Json) : Option String → Prop
  | none => v = .null
  | some s => v = .str s

theorem Json.Means.reads {v w : Json} (h : v.Means w) : Reads Place.value v w :=
  h.gathered ▸ Json.reads_value h.fit h.floatFree

theorem Json.Names.reads {v : Json} {names : List String} (h : v.Names names) :
    Reads (Descriptor.readNames Place.format) v names := by
  refine Json.reads_list (fun x name hx => ?_) h
  subst hx
  exact Json.reads_string _ name

theorem Json.Optional.reads {expected : String} {v : Json} {text : Option String}
    (h : v.Optional text) : Reads (Place.optionalString expected) v text := by
  cases text with
  | none => exact h ▸ Json.reads_optionalString_null expected
  | some s => exact h ▸ Json.reads_optionalString expected s

theorem reads_kind (kind : Kind) :
    Reads (Place.variant Kind.byWord) (.str kind.word) kind := by
  apply Json.reads_variant
  cases kind <;> rfl

/-! ## §2. Annotations. -/

/-- **Does a value stand for an annotation?** -/
inductive Annotation.Spelt (a : Annotation) : Json → Prop where
  | obj {members : List (String × Json)}
      (name : Gives members "name" (· = .str a.name) False)
      (values : Gives members "values" (Binds Json.Means · a.values) (a.values = Dict.empty)) :
      Annotation.Spelt a (.obj members)

theorem Annotation.reads {a : Annotation} {v : Json} (h : a.Spelt v) :
    Reads (Place.record (schema Place.format)) v a := by
  obtain ⟨hname, hvalues⟩ := h
  apply Json.reads_record (by decide)
  refine hname.fill (fun v hv => hv ▸ Json.reads_string _ a.name) ?_
  exact hvalues.fill_or (fun v => Json.reads_dict fun _ _ hw => hw.reads) rfl .done

/-- Does a value stand for a list of annotations? -/
def Json.Annotations (v : Json) (list : List Annotation) : Prop :=
  Lists (fun x a => Annotation.Spelt a x) v list

theorem Json.Annotations.reads {v : Json} {list : List Annotation} (h : v.Annotations list) :
    Reads (readList Place.format) v list :=
  Json.reads_list (fun _ _ hx => Annotation.reads hx) h

/-- Does a value stand for members of a type? -/
def Json.Members (v : Json) (members : Dict (List Annotation)) : Prop :=
  Binds Json.Annotations v members

theorem Json.Members.reads {v : Json} {members : Dict (List Annotation)} (h : v.Members members) :
    Reads (Descriptor.readMembers Place.format) v members :=
  Json.reads_dict (fun _ _ hx => hx.reads) h

/-! ## §3. Types. -/

/-- **Does a value stand for a type?** -/
inductive Types.Descriptor.Spelt (d : Descriptor) : Json → Prop where
  | obj {members : List (String × Json)}
      (name : Gives members "name" (· = .str d.name) False)
      (kind : Gives members "kind" (· = .str d.kind.word) (d.kind = .classKind))
      (source : Gives members "source" (·.Optional d.source) (d.source = none))
      (parent : Gives members "parent" (·.Optional d.parent) (d.parent = none))
      (interfaces : Gives members "interfaces" (·.Names d.interfaces) (d.interfaces = []))
      (traits : Gives members "traits" (·.Names d.traits) (d.traits = []))
      (annotations : Gives members "annotations" (·.Annotations d.annotations)
        (d.annotations = []))
      (methods : Gives members "methods" (·.Members d.methods) (d.methods = Dict.empty))
      (properties : Gives members "properties" (·.Members d.properties)
        (d.properties = Dict.empty)) :
      Types.Descriptor.Spelt d (.obj members)

theorem Types.Descriptor.reads {d : Descriptor} {v : Json} (h : d.Spelt v) :
    Reads (Place.record (schema Place.format)) v d := by
  obtain ⟨hname, hkind, hsource, hparent, hinterfaces, htraits, hannotations, hmethods,
    hproperties⟩ := h
  apply Json.reads_record (by decide)
  refine hname.fill (fun v hv => hv ▸ Json.reads_string _ d.name) ?_
  refine hkind.fill_or (fun v hv => hv ▸ reads_kind d.kind) rfl ?_
  refine hsource.fill_or (fun v hv => hv.reads) rfl ?_
  refine hparent.fill_or (fun v hv => hv.reads) rfl ?_
  refine hinterfaces.fill_or (fun v hv => hv.reads) rfl ?_
  refine htraits.fill_or (fun v hv => hv.reads) rfl ?_
  refine hannotations.fill_or (fun v hv => hv.reads) rfl ?_
  refine hmethods.fill_or (fun v hv => hv.reads) rfl ?_
  exact hproperties.fill_or (fun v hv => hv.reads) rfl .done

/-! ## §4. Manifests. -/

namespace Manifest

/-- **Does a value stand for a manifest?** -/
inductive Spelt (m : Manifest) : Json → Prop where
  | obj {members : List (String × Json)}
      (ignored : Gives members "ignored_annotations" (·.Names m.ignored) (m.ignored = []))
      (types : Gives members "types" (Lists (fun x d => Descriptor.Spelt d x) · m.types)
        (m.types = [])) :
      Spelt m (.obj members)

theorem reads {m : Manifest} {v : Json} (h : m.Spelt v) :
    Reads (Place.record (schema Place.format)) v m := by
  obtain ⟨hignored, htypes⟩ := h
  apply Json.reads_record (by decide)
  refine hignored.fill_or (fun v hv => hv.reads) rfl ?_
  exact htypes.fill_or (fun v => Json.reads_list fun _ _ hd => Types.Descriptor.reads hd) rfl .done

/-- **A manifest is read from every text of it.**  Whatever way it is written, if its
brackets nest no deeper than a text may nest them, the text is read as that manifest. -/
theorem parse_spelt {m : Manifest} {v : Json} {text : String} (path : String)
    (htext : Json.SpellsText text v) (hspelt : m.Spelt v) (hdepth : v.depth ≤ Json.maxDepth) :
    parse .json text path = .ok m := by
  have hread : ofJson text = .ok m := by
    unfold ofJson
    rw [Json.decode_spelt _ htext]
    exact reads hspelt Json.maxDepth .inPlace hdepth
  show (ofJson text).mapError _ = _
  rw [hread]
  rfl

/-- An annotation with two values. -/
def filedRoute : Annotation where
  name := "Route"
  values := Dict.ofList [("path", .str "/\n"), ("at", .obj [("a", .int 1), ("b", .arr [.null])])]

/-- A manifest of one type that carries it. -/
def filed : Manifest where
  types := [{ name := "App\\Page", annotations := [filedRoute] }]

/-- The annotation with its fields and its values in another order, and a member that is no
field and beyond all words. -/
def filedRouteSpelling : Json :=
  .obj [("values", .obj [("path", .str "/\n"), ("at", .obj [("b", .arr [.null]), ("a", .int 1)])]),
    ("line", .obj [("from", .int 100000000000000000000)]), ("name", .str "Route")]

/-- The manifest likewise; some of what it takes for granted is left out and some is not. -/
def filedSpelling : Json :=
  .obj [("version", .int 3),
    ("types", .arr [.obj [("parent", .null), ("annotations", .arr [filedRouteSpelling]),
      ("name", .str "App\\Page"), ("kind", .str "class")]])]

theorem filedRoute_spelt : filedRoute.Spelt filedRouteSpelling := by
  refine .obj (.once rfl rfl) (.once rfl (.obj (.cons ⟨rfl, ?path⟩ (.cons ⟨rfl, ?position⟩ .nil))))
  case path => exact ⟨rfl, rfl, rfl⟩
  case position => exact ⟨rfl, rfl, rfl⟩

theorem filed_spelt : filed.Spelt filedSpelling := by
  refine .obj (.leftOut rfl rfl) (.once rfl (.arr (.cons ?_ .nil)))
  exact .obj (.once rfl rfl) (.once rfl rfl) (.leftOut rfl rfl) (.once rfl rfl) (.leftOut rfl rfl)
    (.leftOut rfl rfl) (.once rfl (.arr (.cons filedRoute_spelt .nil))) (.leftOut rfl rfl)
    (.leftOut rfl rfl)

theorem parse_of_filed :
    filed.Spelt filedSpelling ∧ filedSpelling.depth ≤ Json.maxDepth
      ∧ parse .json filedSpelling.indented "types.json" = .ok filed := by
  have hfloats : Json.FloatsReadBack filedSpelling := Json.floatsReadBack_of_floatFree _ rfl
  have htext : Json.SpellsText filedSpelling.indented filedSpelling :=
    Json.spellsText_render Json.spaced_indentedStyle hfloats
  have hdepth : filedSpelling.depth ≤ Json.maxDepth := by decide
  exact ⟨filed_spelt, hdepth, parse_spelt "types.json" htext filed_spelt hdepth⟩

end Manifest

end AnnotationCache
