/-
  AnnotationCache.Files.Tree
  ──────────────────────────
  **VALUES BY LOCATION.**

  A location is a list of names that leads down a tree, one branch for each
  name.  Every location leads somewhere: where nothing grows, the tree is
  empty.  So a tree is a map from locations to values that can be walked step
  by step, and that knows what lies below a location.

  Main statements:
    * `get?_put`      — a look-up sees the last value put at its location;
    * `get?_drop`     — dropping a location takes its value away and no other;
    * `get?_dropTree` — dropping a tree takes away the values that lie in it.
-/
namespace AnnotationCache.Files

/-- The names that lead from the top of a tree down to a place in it. -/
abbrev Location := List String

/-- A tree: perhaps a value at its top, and a tree below each of some names. -/
inductive Tree (α : Type) where
  | node (value : Option α) (branches : List (String × Tree α))
  deriving Repr

namespace Tree

variable {α : Type}

/-! ## §1. One step. -/

/-- The tree without any value. -/
def empty : Tree α := node none []

instance : Inhabited (Tree α) := ⟨empty⟩

/-- The value at the top. -/
def value : Tree α → Option α
  | node value _ => value

/-- The trees below the names that are in use. -/
def branches : Tree α → List (String × Tree α)
  | node _ branches => branches

/-- The tree below a name. -/
def branch (t : Tree α) (name : String) : Tree α :=
  (t.branches.lookup name).getD empty

/-- The tree with this value at its top, or with none. -/
def setValue (t : Tree α) (value : Option α) : Tree α :=
  node value t.branches

/-- The tree with this part below a name. -/
def setBranch (t : Tree α) (name : String) (part : Tree α) : Tree α :=
  node t.value ((name, part) :: t.branches.filter (fun b => b.1 ≠ name))

/-! ## §2. Locations. -/

/-- The tree below a location. -/
def part (t : Tree α) (loc : Location) : Tree α :=
  loc.foldl branch t

/-- The value at a location. -/
def get? (t : Tree α) (loc : Location) : Option α :=
  (t.part loc).value

/-- The tree in which the part below a location is changed. -/
def update (change : Tree α → Tree α) : Location → Tree α → Tree α
  | [], t => change t
  | name :: rest, t => t.setBranch name (update change rest (t.branch name))

/-- The tree with a value at a location, in place of what was there. -/
def put (t : Tree α) (loc : Location) (value : α) : Tree α :=
  t.update (fun part => part.setValue (some value)) loc

/-- The tree without the value at a location. -/
def drop (t : Tree α) (loc : Location) : Tree α :=
  t.update (fun part => part.setValue none) loc

/-- The tree without a location and everything below it. -/
def dropTree (t : Tree α) (loc : Location) : Tree α :=
  t.update (fun _ => empty) loc

mutual

/-- The values below the top, with their locations. -/
def entries : Tree α → List (Location × α)
  | node _ branches => entriesOf branches

/-- The values in branches, with their locations. -/
def entriesOf : List (String × Tree α) → List (Location × α)
  | [] => []
  | (name, t) :: rest =>
      (t.value.toList.map fun v => ([name], v)) ++
        ((entries t).map fun (loc, v) => (name :: loc, v)) ++ entriesOf rest

end

/-! ## §3. Laws. -/

@[simp] theorem value_empty : (empty : Tree α).value = none := rfl

@[simp] theorem value_setValue (t : Tree α) (value : Option α) :
    (t.setValue value).value = value := rfl

@[simp] theorem value_setBranch (t : Tree α) (name : String) (part : Tree α) :
    (t.setBranch name part).value = t.value := rfl

@[simp] theorem branch_setValue (t : Tree α) (value : Option α) (name : String) :
    (t.setValue value).branch name = t.branch name := rfl

@[simp] theorem branch_empty (name : String) : (empty : Tree α).branch name = empty := rfl

theorem lookup_filter_ne {name other : String} (h : other ≠ name)
    (branches : List (String × Tree α)) :
    (branches.filter (fun b => b.1 ≠ name)).lookup other = branches.lookup other := by
  induction branches with
  | nil => rfl
  | cons b rest ih =>
    obtain ⟨k, part⟩ := b
    by_cases hk : k = name
    · subst hk
      have hne : (other == k) = false := by simpa using h
      simpa [List.lookup_cons, hne] using ih
    · by_cases hok : other = k
      · subst hok; simp [hk]
      · have hne : (other == k) = false := by simpa using hok
        simpa [List.lookup_cons, hk, hne] using ih

/-- A step sees the last tree that was set below its name. -/
theorem branch_setBranch (t : Tree α) (name other : String) (part : Tree α) :
    (t.setBranch name part).branch other = if other = name then part else t.branch other := by
  by_cases h : other = name
  · subst h; simp [branch, setBranch, branches]
  · have hne : (other == name) = false := by simpa using h
    have hlook := lookup_filter_ne h t.branches
    simp [branch, setBranch, branches, List.lookup_cons, hne, h] at hlook ⊢
    rw [hlook]

@[simp] theorem part_nil (t : Tree α) : t.part [] = t := rfl

@[simp] theorem part_cons (t : Tree α) (name : String) (loc : Location) :
    t.part (name :: loc) = (t.branch name).part loc := rfl

theorem part_append (t : Tree α) (loc rest : Location) :
    t.part (loc ++ rest) = (t.part loc).part rest := by
  simp [part]

@[simp] theorem part_empty (loc : Location) : (empty : Tree α).part loc = empty := by
  induction loc with
  | nil => rfl
  | cons name rest ih => simpa using ih

/-- What lies below a changed location is what the change made of it. -/
theorem part_update (change : Tree α → Tree α) (loc : Location) (t : Tree α) :
    (t.update change loc).part loc = change (t.part loc) := by
  induction loc generalizing t with
  | nil => rfl
  | cons name rest ih => simp [update, branch_setBranch, ih]

/-- A change below a location is seen nowhere else. -/
theorem get?_update_elsewhere {loc other : Location} (h : ¬ loc <+: other)
    (change : Tree α → Tree α) (t : Tree α) :
    (t.update change loc).get? other = t.get? other := by
  induction loc generalizing t other with
  | nil => exact absurd (List.nil_prefix) h
  | cons name rest ih =>
    cases other with
    | nil => rfl
    | cons first others =>
      by_cases hname : first = name
      · subst hname
        have hrest : ¬ rest <+: others := fun hp => h (List.cons_prefix_cons.2 ⟨rfl, hp⟩)
        simpa [get?, update, branch_setBranch] using ih hrest (t.branch first)
      · simp [get?, update, branch_setBranch, hname]

theorem get?_setValue_append (t : Tree α) (value : Option α) {rest : Location} (h : rest ≠ []) :
    (t.setValue value).get? rest = t.get? rest := by
  cases rest with
  | nil => exact absurd rfl h
  | cons name rest => rfl

/-- Setting the value at a location changes the look-up there and no other. -/
theorem get?_update_setValue (t : Tree α) (loc other : Location) (value : Option α) :
    (t.update (fun part => part.setValue value) loc).get? other =
      if other = loc then value else t.get? other := by
  by_cases hp : loc <+: other
  · obtain ⟨rest, rfl⟩ := hp
    have hpart := part_update (fun part => part.setValue value) loc t
    by_cases hrest : rest = []
    · subst hrest
      simp [get?, hpart]
    · have hne : loc ++ rest ≠ loc := fun heq => hrest (by simpa using heq)
      have hset := get?_setValue_append (t.part loc) value hrest
      simpa [get?, part_append, hpart, hne] using hset
  · have hne : other ≠ loc := fun heq => hp (heq ▸ List.prefix_refl loc)
    simp [get?_update_elsewhere hp, hne]

/-- **A look-up sees the last value put at its location.** -/
@[simp] theorem get?_put (t : Tree α) (loc other : Location) (v : α) :
    (t.put loc v).get? other = if other = loc then some v else t.get? other :=
  get?_update_setValue t loc other (some v)

/-- **Dropping a location takes its value away and no other.** -/
@[simp] theorem get?_drop (t : Tree α) (loc other : Location) :
    (t.drop loc).get? other = if other = loc then none else t.get? other :=
  get?_update_setValue t loc other none

/-- **Dropping a tree takes away the values that lie in it.** -/
@[simp] theorem get?_dropTree (t : Tree α) (loc other : Location) :
    (t.dropTree loc).get? other = if loc <+: other then none else t.get? other := by
  by_cases hp : loc <+: other
  · obtain ⟨rest, rfl⟩ := hp
    have hpart := part_update (fun _ => empty) loc t
    simp [get?, dropTree, part_append, hpart]
  · simp [dropTree, get?_update_elsewhere hp, hp]

end Tree

end AnnotationCache.Files
