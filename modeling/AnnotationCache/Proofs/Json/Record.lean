/-
  AnnotationCache.Proofs.Json.Record
  ──────────────────────────────────
  **READING RECORDS FROM OBJECTS.**

  The members of an object that is read as a record come in any order.  Those whose
  names are no fields are passed over; each field is given by one member or left out
  (`Gives`).  Field by field, in declared order, the record is then filled
  (`Filling`): what was read of a field changes it, and a field that is left out
  leaves it as it is.

  Main statements:
    * `reads_list`, `reads_dict` — lists and maps are read if their parts are;
    * `members_of_reads`         — the members of an object are read, in any order;
    * `reads_record`             — so a record is read from every object that fills it.
-/
import AnnotationCache.Proofs.Json.Meaning
import AnnotationCache.Proofs.Json.Reading
import Mathlib.Data.List.Forall2

namespace AnnotationCache

open Json (Place Reading Strictness Tree tree treeItems treeMembers)

/-! ## §1. Members, one by one. -/

section Members

variable {σ : Type} {schema : Schema Reading Place σ} {p : Place} {slots : Slots σ} {name : String}
  {f : Field Reading Place σ} {t : Tree}

/-- A field that was not read before is read, and its effect is kept. -/
theorem Json.Place.members_read {change : σ → σ} (hfield : schema.field? name = some f)
    (hnew : slots.has name = false) (hread : f.read (p.inside t) = .ok change)
    (rest : List (Option String × Tree)) :
    p.members schema slots ((some name, t) :: rest)
      = p.members schema ((name, change) :: slots) rest := by
  rw [Place.members]
  simp only [hfield, hnew, hread]
  rfl

/-- A field that cannot be read ends it all. -/
theorem Json.Place.members_failed {problem : Json.Problem} (hfield : schema.field? name = some f)
    (hnew : slots.has name = false) (hread : f.read (p.inside t) = .error problem)
    (rest : List (Option String × Tree)) :
    p.members schema slots ((some name, t) :: rest) = .error problem := by
  rw [Place.members]
  simp only [hfield, hnew, hread]
  rfl

/-- A member that is no field is passed over. -/
theorem Json.Place.members_skipped (hfield : schema.field? name = none) (hskip : t.skippable = true)
    (rest : List (Option String × Tree)) :
    p.members schema slots ((some name, t) :: rest) = p.members schema slots rest := by
  have hread : (p.inside t).skip = .ok ⟨⟩ := if_pos hskip
  rw [Place.members]
  simp only [hfield, hread]
  rfl

/-- A record is put together from what was read of its members. -/
theorem Json.Place.record_obj (strictness : Strictness) (room : Nat)
    (members : List (Option String × Tree)) :
    Place.record schema ⟨room + 1, strictness, .obj members true⟩
      = (Place.members schema ⟨room + 1, strictness, .obj members true⟩ [] members >>= fun slots =>
          match schema.assemble slots with
          | .ok value => pure value
          | .error name => throw (.missingField name)) := rfl

end Members

namespace Json

mutual

/-- A value may always be passed over. -/
theorem skippable_tree : ∀ v : Json, (tree v).skippable = true
  | .null => rfl
  | .bool _ => rfl
  | .int _ => rfl
  | .float _ => rfl
  | .str _ => rfl
  | .arr items => by rw [tree, Tree.skippable, skippable_treeItems items]; rfl
  | .obj members => by rw [tree, Tree.skippable, skippable_treeMembers members]; rfl

theorem skippable_treeItems : ∀ items : List Json, Tree.skippableItems (treeItems items) = true
  | [] => rfl
  | x :: items => by
      rw [treeItems, Tree.skippableItems, skippable_tree x, skippable_treeItems items]
      rfl

theorem skippable_treeMembers : ∀ members : List (String × Json),
    Tree.skippableMembers (treeMembers members) = true
  | [] => rfl
  | (_, x) :: members => by
      rw [treeMembers, Tree.skippableMembers, skippable_tree x, skippable_treeMembers members]
      rfl

end

/-! ## §2. What readers make of values. -/

variable {α σ : Type}

/-- **Does a reader make this of a value**, wherever there is room for its brackets? -/
def Reads (read : Place → Reading α) (v : Json) (a : α) : Prop :=
  ∀ room strictness, v.depth ≤ room → read ⟨room, strictness, tree v⟩ = .ok a

theorem reads_string (expected s : String) : Reads (Place.string expected) (.str s) s :=
  fun _ _ _ => rfl

theorem reads_optionalString_null (expected : String) :
    Reads (Place.optionalString expected) .null none :=
  fun _ _ _ => rfl

theorem reads_optionalString (expected s : String) :
    Reads (Place.optionalString expected) (.str s) (some s) :=
  fun _ _ _ => rfl

theorem reads_variant {variants : List (String × α)} {name : String} {a : α}
    (h : variants.lookup name = some a) : Reads (Place.variant variants) (.str name) a := by
  intro room strictness _
  have hchoose : Place.choose variants name = .ok a := by
    unfold Place.choose
    rw [h]
  exact hchoose

/-- A value without floats is read as the value that is meant. -/
theorem reads_value {v : Json} (hfit : v.integersFit = true) (hfree : v.floatFree = true) :
    Reads Place.value v v.gathered := by
  intro room strictness hdepth
  have hmeant : Meant strictness v := meant_of_fit v hfit (floatsReadBack_of_floatFree v hfree)
  exact (hmeant room).trans (if_pos hdepth)

/-- Items that say something of the items of a list. -/
inductive Lists (denotes : Json → α → Prop) : Json → List α → Prop where
  | arr {items : List Json} {list : List α} (h : List.Forall₂ denotes items list) :
      Lists denotes (.arr items) list

/-- Members that say something of the bindings of a map; they come in any order. -/
inductive Binds (denotes : Json → α → Prop) : Json → Dict α → Prop where
  | obj {members : List (String × Json)} {bindings : List (String × α)}
      (h : List.Forall₂ (fun m b => m.1 = b.1 ∧ denotes m.2 b.2) members bindings) :
      Binds denotes (.obj members) (Dict.ofList bindings)

/-- **A list is read if its items are.** -/
theorem reads_list {denotes : Json → α → Prop} {item : Place → Reading α} {v : Json} {list : List α}
    (hitem : ∀ x a, denotes x a → Reads item x a) (h : Lists denotes v list) :
    Reads (Place.list item) v list := by
  obtain ⟨hitems⟩ := h
  rename_i items
  intro room strictness hdepth
  obtain ⟨room, rfl⟩ : ∃ inner, room = inner + 1 := ⟨room - 1, by rw [depth] at hdepth; omega⟩
  rw [depth, Nat.add_le_add_iff_right] at hdepth
  rw [tree, list_eq]
  induction hitems with
  | nil => rfl
  | cons hx _ ih =>
      rw [depthItems, Nat.max_le] at hdepth
      rw [treeItems, List.mapM_cons, hitem _ _ hx room strictness hdepth.1, ih hdepth.2]
      rfl

/-- **A map is read if its values are.** -/
theorem reads_dict {denotes : Json → α → Prop} {value : Place → Reading α} {v : Json} {d : Dict α}
    (hvalue : ∀ x a, denotes x a → Reads value x a) (h : Binds denotes v d) :
    Reads (Place.dict value) v d := by
  obtain ⟨hmembers⟩ := h
  rename_i members bindings
  intro room strictness hdepth
  obtain ⟨room, rfl⟩ : ∃ inner, room = inner + 1 := ⟨room - 1, by rw [depth] at hdepth; omega⟩
  rw [depth, Nat.add_le_add_iff_right] at hdepth
  have hbindings : (treeMembers members).mapM (memberWithin strictness value room) = .ok bindings := by
    induction hmembers with
    | nil => rfl
    | @cons m b _ _ hm _ ih =>
        obtain ⟨key, x⟩ := m
        obtain ⟨key', a⟩ := b
        obtain ⟨rfl, hx⟩ := hm
        rw [depthMembers, Nat.max_le] at hdepth
        rw [treeMembers, List.mapM_cons, memberWithin, hvalue _ _ hx room strictness hdepth.1,
          ih hdepth.2]
        rfl
  unfold Place.dict
  rw [tree, bindings_eq, hbindings]
  rfl

/-! ## §3. Records. -/

/-- **Do members give a field?**  One of them has its name and says of it what it must,
or none has it and the field may be left out. -/
inductive Gives (members : List (String × Json)) (field : String) (denotes : Json → Prop)
    (omissible : Prop) : Prop where
  | once {v : Json} (only : members.filter (fun m => m.1 = field) = [(field, v)]) (holds : denotes v)
  | leftOut (absent : members.filter (fun m => m.1 = field) = []) (may : omissible)

/-- **Do members fill a record?**  In declared order, each field is read of the one member
that has its name, or is left out and not required. -/
inductive Filling (members : List (String × Json)) :
    List (Field Reading Place σ) → σ → σ → Prop where
  | done {record : σ} : Filling members [] record record
  | given {f : Field Reading Place σ} {fields : List (Field Reading Place σ)} {v : Json}
      {change : σ → σ} {start record : σ}
      (only : members.filter (fun m => m.1 = f.name) = [(f.name, v)]) (reads : Reads f.read v change)
      (rest : Filling members fields (change start) record) :
      Filling members (f :: fields) start record
  | leftOut {f : Field Reading Place σ} {fields : List (Field Reading Place σ)} {start record : σ}
      (absent : members.filter (fun m => m.1 = f.name) = []) (optional : f.required = false)
      (rest : Filling members fields start record) : Filling members (f :: fields) start record

variable {members : List (String × Json)} {schema : Schema Reading Place σ}
  {fields : List (Field Reading Place σ)} {start record : σ}

section Fields

variable {name : String} {denotes : Json → Prop} {read : Place → Reading α} {put : α → σ → σ} {a : α}

theorem Reads.field {v : Json} (h : Reads read v a) :
    Reads (fun p => do return put (← read p)) v (put a) := by
  intro room strictness hdepth
  show read _ >>= _ = _
  rw [h room strictness hdepth]
  rfl

/-- **A required field that members give fills a record.** -/
theorem Gives.fill (h : Gives members name denotes False) (hreads : ∀ v, denotes v → Reads read v a)
    (hrest : Filling members fields (put a start) record) :
    Filling members (⟨name, true, fun p => do return put (← read p)⟩ :: fields) start record := by
  cases h with
  | once only holds => exact .given only (hreads _ holds).field hrest
  | leftOut _ may => exact may.elim

/-- **So does one that is given or left out**, where that makes no difference. -/
theorem Gives.fill_or {default : α} (h : Gives members name denotes (a = default))
    (hreads : ∀ v, denotes v → Reads read v a) (hdefault : put default start = start)
    (hrest : Filling members fields (put a start) record) :
    Filling members (⟨name, false, fun p => do return put (← read p)⟩ :: fields) start record := by
  cases h with
  | once only holds => exact .given only (hreads _ holds).field hrest
  | leftOut absent may =>
      subst may
      exact .leftOut absent rfl (hdefault ▸ hrest)

end Fields

/-- Each field is there once and can be read, or is not there. -/
theorem Filling.field (h : Filling members fields start record) {f : Field Reading Place σ}
    (hf : f ∈ fields) :
    (∃ v change, members.filter (fun m => m.1 = f.name) = [(f.name, v)] ∧ Reads f.read v change)
      ∨ members.filter (fun m => m.1 = f.name) = [] := by
  induction h with
  | done => cases hf
  | given only reads _ ih =>
      rcases List.mem_cons.1 hf with rfl | hf
      · exact .inl ⟨_, _, only, reads⟩
      · exact ih hf
  | leftOut absent _ _ ih =>
      rcases List.mem_cons.1 hf with rfl | hf
      · exact .inr absent
      · exact ih hf

theorem effect?_cons_self (name : String) (change : σ → σ) (slots : Slots σ) :
    Slots.effect? ((name, change) :: slots) name = some change :=
  List.lookup_cons_self

theorem effect?_cons_of_ne {name other : String} (h : other ≠ name) (change : σ → σ)
    (slots : Slots σ) : Slots.effect? ((name, change) :: slots) other = slots.effect? other := by
  have hne : (other == name) = false := beq_false_of_ne h
  unfold Slots.effect?
  rw [List.lookup_cons, hne]

/-- **The members of an object are read in any order**, if each field is there at most once
and all that are there can be read.  What was read of a field is its effect; nothing else
has one that had none before. -/
theorem members_of_reads {p : Place} {slots : Slots σ}
    (hread : ∀ m ∈ members, ∀ f, schema.field? m.1 = some f →
      ∃ change, f.read (p.inside (tree m.2)) = .ok change)
    (honce : ∀ name f, schema.field? name = some f →
      members.countP (fun m => m.1 = name) + (slots.has name).toNat ≤ 1) :
    ∃ read, p.members schema slots (treeMembers members) = .ok read
      ∧ (∀ m ∈ members, ∀ f change, schema.field? m.1 = some f →
          f.read (p.inside (tree m.2)) = .ok change → read.effect? m.1 = some change)
      ∧ ∀ name, (∀ m ∈ members, m.1 ≠ name) → read.effect? name = slots.effect? name := by
  induction members generalizing slots with
  | nil => exact ⟨slots, rfl, by simp, fun _ _ => rfl⟩
  | cons m members ih =>
      obtain ⟨key, x⟩ := m
      obtain ⟨hfirst, hothers⟩ := List.forall_mem_cons.1 hread
      rw [treeMembers]
      cases hfield : schema.field? key with
      | none =>
          rw [Place.members_skipped hfield (skippable_tree x)]
          have honce' : ∀ name f, schema.field? name = some f →
              members.countP (fun m => m.1 = name) + (slots.has name).toNat ≤ 1 := by
            intro name f hf
            have hcount := honce name f hf
            rw [List.countP_cons] at hcount
            omega
          obtain ⟨read, hread, hgiven, habsent⟩ := ih hothers honce'
          refine ⟨read, hread, List.forall_mem_cons.2 ⟨fun f change hf => ?_, hgiven⟩,
            fun name hname => habsent name (List.forall_mem_cons.1 hname).2⟩
          cases hfield.symm.trans hf
      | some f =>
          obtain ⟨change, hchange⟩ := hfirst f hfield
          have hcount := honce key f hfield
          rw [List.countP_cons_of_pos (by simp)] at hcount
          have hnew : slots.has key = false := by
            cases hhas : slots.has key with
            | false => rfl
            | true => rw [hhas] at hcount; simp at hcount
          -- The field is not among the members that follow, so its effect stays.
          have hlast : ∀ m ∈ members, m.1 ≠ key := by
            have hnone : members.countP (fun m => m.1 = key) = 0 := by omega
            simpa using List.countP_eq_zero.1 hnone
          rw [Place.members_read hfield hnew hchange]
          have honce' : ∀ name g, schema.field? name = some g →
              members.countP (fun m => m.1 = name)
                + (Slots.has ((key, change) :: slots) name).toNat ≤ 1 := by
            intro name g hg
            by_cases hname : name = key
            · subst hname
              have hhas : Slots.has ((name, change) :: slots) name = true := by
                rw [Slots.has, effect?_cons_self]
                rfl
              rw [hhas, List.countP_eq_zero.2 (by simpa using hlast)]
              exact Nat.le_refl 1
            · have hother := honce name g hg
              rw [List.countP_cons] at hother
              rw [Slots.has, effect?_cons_of_ne hname, ← Slots.has]
              omega
          obtain ⟨read, hread, hgiven, habsent⟩ := ih hothers honce'
          refine ⟨read, hread, List.forall_mem_cons.2 ⟨fun g change' hg hchange' => ?_, hgiven⟩,
            fun name hname => ?_⟩
          · obtain rfl := Option.some.inj (hfield.symm.trans hg)
            obtain rfl := Except.ok.inj (hchange.symm.trans hchange')
            rw [habsent key hlast, effect?_cons_self]
          · obtain ⟨hkey, hrest⟩ := List.forall_mem_cons.1 hname
            rw [habsent name hrest, effect?_cons_of_ne (Ne.symm hkey)]

/-- **A record is put together from the effects of what fills it.** -/
theorem Filling.assemble {slots : Slots σ} (h : Filling members fields start record)
    (hgiven : ∀ f ∈ fields, ∀ v change, members.filter (fun m => m.1 = f.name) = [(f.name, v)] →
      Reads f.read v change → slots.effect? f.name = some change)
    (habsent : ∀ f ∈ fields, members.filter (fun m => m.1 = f.name) = [] →
      slots.effect? f.name = none) :
    fields.foldlM (fun record f =>
        match slots.effect? f.name with
        | some change => Except.ok (change record)
        | none => if f.required then .error f.name else .ok record) start
      = .ok record := by
  induction h with
  | done => rfl
  | given only reads _ ih =>
      obtain ⟨hfirst, hothers⟩ := List.forall_mem_cons.1 hgiven
      rw [List.foldlM_cons, hfirst _ _ only reads]
      exact ih hothers (List.forall_mem_cons.1 habsent).2
  | leftOut absent optional _ ih =>
      obtain ⟨hfirst, hothers⟩ := List.forall_mem_cons.1 habsent
      rw [List.foldlM_cons, hfirst absent, optional]
      exact ih (List.forall_mem_cons.1 hgiven).2 hothers

/-- A field is found under its name, if no two fields share one. -/
theorem field?_of_mem (hnames : (schema.fields.map Field.name).Nodup) {f : Field Reading Place σ}
    (hf : f ∈ schema.fields) : schema.field? f.name = some f := by
  unfold Schema.field?
  generalize schema.fields = fields at hnames hf
  induction fields with
  | nil => cases hf
  | cons g fields ih =>
      rw [List.map_cons, List.nodup_cons] at hnames
      rcases List.mem_cons.1 hf with rfl | hf
      · exact List.find?_cons_of_pos (by simp)
      · have hne : g.name ≠ f.name := fun heq => hnames.1 (heq ▸ List.mem_map_of_mem hf)
        rw [List.find?_cons_of_neg (by simpa using hne)]
        exact ih hnames.2 hf

/-- **A record is read from every object whose members fill it**, in whatever order, and
whatever else there is in the object. -/
theorem reads_record (hnames : (schema.fields.map Field.name).Nodup)
    (h : Filling members schema.fields schema.blank record) :
    Reads (Place.record schema) (.obj members) record := by
  intro room strictness hdepth
  obtain ⟨room, rfl⟩ : ∃ inner, room = inner + 1 := ⟨room - 1, by rw [depth] at hdepth; omega⟩
  rw [depth_obj_le_iff] at hdepth
  have hread : ∀ m ∈ members, ∀ f, schema.field? m.1 = some f → ∃ change, f.read
      (Place.inside ⟨room + 1, strictness, .obj (treeMembers members) true⟩ (tree m.2))
        = .ok change := by
    intro m hm f hf
    have hname : f.name = m.1 := by simpa using List.find?_some hf
    have hmem : m ∈ members.filter (fun m => m.1 = f.name) :=
      List.mem_filter.2 ⟨hm, by simp [hname]⟩
    rcases h.field (Schema.mem_of_field? hf) with ⟨v, change, honly, hreads⟩ | habsent
    · rw [honly] at hmem
      obtain rfl := List.mem_singleton.1 hmem
      exact ⟨change, hreads room strictness (hdepth _ hm)⟩
    · rw [habsent] at hmem
      cases hmem
  have honce : ∀ name f, schema.field? name = some f →
      members.countP (fun m => m.1 = name) + (Slots.has ([] : Slots σ) name).toNat ≤ 1 := by
    intro name f hf
    have hname : f.name = name := by simpa using List.find?_some hf
    subst hname
    rw [List.countP_eq_length_filter]
    rcases h.field (Schema.mem_of_field? hf) with ⟨v, change, honly, -⟩ | habsent
    · rw [honly]
      exact Nat.le_refl 1
    · rw [habsent]
      exact Nat.zero_le 1
  obtain ⟨slots, hslots, hgiven, habsent⟩ := members_of_reads hread honce
  have hassemble : schema.assemble slots = .ok record := by
    refine h.assemble (fun f hf v change honly hreads => ?_) (fun f _ hnone => ?_)
    · have hmem : (f.name, v) ∈ members :=
        List.mem_of_mem_filter (honly ▸ List.mem_singleton_self (f.name, v))
      exact hgiven _ hmem f change (field?_of_mem hnames hf)
        (hreads room strictness (hdepth _ hmem))
    · exact habsent f.name fun m hm heq => by simpa [heq] using List.filter_eq_nil_iff.1 hnone m hm
  rw [tree, Place.record_obj, hslots]
  show (match schema.assemble slots with
    | .ok value => pure value
    | .error name => throw (Problem.missingField name)) = _
  rw [hassemble]
  rfl

end Json

end AnnotationCache
