/-
  AnnotationCache.Proofs.Files.Walk
  ─────────────────────────────────
  **WHERE PATHS LEAD.**

  A walk carries a trail with parts of the disk in it.  All that it ever asks
  of the trail is the item at its end, so it can be told by locations alone:
  a name moves it from one location to the next (`move`), or else a link is
  met there.

  Main statements:
    * `walk_cons`         — one name of a walk, by locations;
    * `walk_append`       — a walk goes on where its first part has led, or
      fails as that has failed;
    * `walk_of_unfollowed` — what a walk that spares its last link tells of the
      one that does not;
    * `Keeps.walk_eq`     — a walk leads where it led as long as folders and links
      are kept, and no link comes to stand at its end.
-/
import AnnotationCache.Files.Disk

namespace AnnotationCache.Files.Disk

/-! ## §1. Trails. -/

theorem follow_trail (d : Disk) (loc : Location) (name : String) :
    d.follow (d.trail loc) name = d.trail (loc ++ [name]) := by
  unfold trail
  rw [List.foldl_append]
  rfl

theorem tail_trail (d : Disk) (loc : Location) : (d.trail loc).tail = d.trail loc.dropLast := by
  rcases List.eq_nil_or_concat loc with rfl | ⟨above, name, rfl⟩
  · rfl
  · rw [List.concat_eq_append, List.dropLast_concat, ← follow_trail]
    rfl

/-! ## §2. One name. -/

/-- The target of the link at a location, if there is one. -/
def target? (d : Disk) (loc : Location) : Option String :=
  match d.item? loc with
  | some (.link target) => some target
  | _ => none

/-- Is there a folder at a location? -/
def IsFolder (d : Disk) (loc : Location) : Prop :=
  ∃ modified, d.item? loc = some (.folder modified)

/-- Where one name leads from a location. -/
def move (d : Disk) (loc : Location) (name : String) : Except FileError Location :=
  match d.item? loc with
  | none => .error .notFound
  | some (.file _ _) => .error .notAFolder
  | some (.link _) => .error .notAFolder
  | some (.folder _) =>
      if name = "." then .ok loc
      else if name = ".." then .ok loc.dropLast
      else if 255 < name.utf8ByteSize then .error .nameTooLong
      else .ok (loc ++ [name])

variable {d : Disk} {f : Bool} {links : Nat} {loc next : Location} {name target : String}
  {rest : List String}

/-- What a move tells of the place that it starts from, and of where it leads. -/
theorem move_ok (h : d.move loc name = .ok next) :
    d.IsFolder loc ∧ ((name = "." ∧ next = loc) ∨ (name = ".." ∧ next = loc.dropLast)
      ∨ (name ≠ "." ∧ name ≠ ".." ∧ name.utf8ByteSize ≤ 255 ∧ next = loc ++ [name])) := by
  unfold move at h
  split at h
  next => cases h
  next => cases h
  next => cases h
  next modified hitem =>
    refine ⟨⟨modified, hitem⟩, ?_⟩
    by_cases hpoint : name = "."
    · rw [if_pos hpoint] at h
      exact .inl ⟨hpoint, (Except.ok.inj h).symm⟩
    · rw [if_neg hpoint] at h
      by_cases hpoints : name = ".."
      · rw [if_pos hpoints] at h
        exact .inr (.inl ⟨hpoints, (Except.ok.inj h).symm⟩)
      · rw [if_neg hpoints] at h
        by_cases hlong : 255 < name.utf8ByteSize
        · rw [if_pos hlong] at h
          cases h
        · rw [if_neg hlong] at h
          exact .inr (.inr ⟨hpoint, hpoints, by omega, (Except.ok.inj h).symm⟩)

theorem move_point (h : d.IsFolder loc) : d.move loc "." = .ok loc := by
  obtain ⟨modified, hitem⟩ := h
  unfold move
  rw [hitem]
  exact if_pos rfl

theorem move_points (h : d.IsFolder loc) : d.move loc ".." = .ok loc.dropLast := by
  obtain ⟨modified, hitem⟩ := h
  unfold move
  rw [hitem]
  rfl

theorem move_name (h : d.IsFolder loc) (hpoint : name ≠ ".") (hpoints : name ≠ "..")
    (hshort : name.utf8ByteSize ≤ 255) : d.move loc name = .ok (loc ++ [name]) := by
  obtain ⟨modified, hitem⟩ := h
  unfold move
  rw [hitem]
  show (if name = "." then _ else _) = _
  rw [if_neg hpoint, if_neg hpoints, if_neg (by omega)]

theorem move_of_item?_eq_none (h : d.item? loc = none) : d.move loc name = .error .notFound := by
  unfold move
  rw [h]

/-! ## §3. Walks by locations. -/

/-- The target of the link that a name meets. -/
def met? (d : Disk) (loc : Location) (name : String) : Option String :=
  if name = "." ∨ name = ".." then none else d.target? (loc ++ [name])

/-- Where the target of a link is looked for that was met at a location. -/
def linkStart (target : String) (loc : Location) : Location :=
  if Path.isAbsolute target then [] else loc

theorem target?_eq_some {d : Disk} {loc : Location} {target : String} :
    d.target? loc = some target ↔ d.item? loc = some (.link target) := by
  unfold target?
  split
  next hitem => simp [hitem]
  next hno =>
    constructor
    · intro h
      cases h
    · intro h
      exact absurd h (hno target)

/-- A link that a name meets stands where the name leads. -/
theorem item?_of_met? (h : d.move loc name = .ok next) (hmet : d.met? loc name = some target) :
    d.item? next = some (.link target) := by
  unfold met? at hmet
  split at hmet
  next => cases hmet
  next hname =>
    obtain ⟨-, hwhere⟩ := move_ok h
    rcases hwhere with ⟨hpoint, -⟩ | ⟨hpoints, -⟩ | ⟨-, -, -, rfl⟩
    · exact absurd (.inl hpoint) hname
    · exact absurd (.inr hpoints) hname
    · exact target?_eq_some.1 hmet

theorem IsFolder.target?_eq_none (h : d.IsFolder loc) : d.target? loc = none := by
  obtain ⟨modified, hitem⟩ := h
  unfold target?
  rw [hitem]

/-- A name that leads to where no link is meets none. -/
theorem met?_of_move (h : d.move loc name = .ok next) (hnext : d.target? next = none) :
    d.met? loc name = none := by
  cases hmet : d.met? loc name with
  | none => rfl
  | some target => cases hnext.symm.trans (target?_eq_some.2 (item?_of_met? h hmet))

theorem walk_nil (d : Disk) (f : Bool) (links : Nat) (loc : Location) :
    d.walk f links (d.trail loc) [] = .ok loc := by
  rw [walk, location_trail]

/-- **One name of a walk**: it moves on, unless a link is met there. -/
theorem walk_cons (d : Disk) (f : Bool) (links : Nat) (loc : Location) (name : String)
    (rest : List String) :
    d.walk f links (d.trail loc) (name :: rest) =
      match d.move loc name with
      | .error e => .error e
      | .ok next =>
          match d.met? loc name with
          | none => d.walk f links (d.trail next) rest
          | some target =>
              if rest.isEmpty && !f then .ok next
              else
                match links with
                | 0 => .error .tooManyLinks
                | links + 1 =>
                    d.walk f links (d.trail (linkStart target loc)) (names target ++ rest) := by
  rw [walk, item_trail]
  unfold move met?
  cases hitem : d.item? loc with
  | none => rfl
  | some item =>
      cases item with
      | file content modified => rfl
      | link target => rfl
      | folder modified =>
          -- What a folder does with a name: the two special ones, those too long, all others.
          by_cases hpoint : name = "."
          · simp [hpoint]
          · by_cases hpoints : name = ".."
            · simp [hpoints, tail_trail]
            · by_cases hlong : 255 < name.utf8ByteSize
              · simp [hpoint, hpoints, hlong]
              · simp only [hpoint, hpoints, hlong, follow_trail, item_trail, location_trail,
                  if_false, or_self]
                unfold target?
                cases hnext : d.item? (loc ++ [name]) with
                | none => rfl
                | some item =>
                    cases item with
                    | file content modified => rfl
                    | folder modified => rfl
                    | link target =>
                        cases links with
                        | zero => rfl
                        | succ links =>
                            by_cases habs : Path.isAbsolute target = true
                            · simp [linkStart, habs, trail]
                            · simp [linkStart, habs]

theorem walk_blocked {e : FileError} (h : d.move loc name = .error e) :
    d.walk f links (d.trail loc) (name :: rest) = .error e := by
  rw [walk_cons, h]

theorem walk_moved (h : d.move loc name = .ok next) (hmet : d.met? loc name = none) :
    d.walk f links (d.trail loc) (name :: rest) = d.walk f links (d.trail next) rest := by
  rw [walk_cons, h]
  simp only [hmet]

/-- A link is spared at the end of a walk that is not to follow it. -/
theorem walk_spared (h : d.move loc name = .ok next) (hmet : d.met? loc name = some target) :
    d.walk false links (d.trail loc) [name] = .ok next := by
  rw [walk_cons, h]
  simp only [hmet]
  rfl

/-- Only at the end of a walk that is not to follow it is a link spared. -/
theorem not_spared (hfollow : rest ≠ [] ∨ f = true) : (rest.isEmpty && !f) = false := by
  rcases hfollow with hrest | rfl
  · cases rest with
    | nil => exact absurd rfl hrest
    | cons _ _ => rfl
  · simp

/-- Anywhere else it is followed. -/
theorem walk_linked (h : d.move loc name = .ok next) (hmet : d.met? loc name = some target)
    (hfollow : rest ≠ [] ∨ f = true) :
    d.walk f (links + 1) (d.trail loc) (name :: rest)
      = d.walk f links (d.trail (linkStart target loc)) (names target ++ rest) := by
  rw [walk_cons, h]
  simp only [hmet, not_spared hfollow, Bool.false_eq_true, if_false]

/-- No more than so many are followed. -/
theorem walk_exhausted (h : d.move loc name = .ok next) (hmet : d.met? loc name = some target)
    (hfollow : rest ≠ [] ∨ f = true) :
    d.walk f 0 (d.trail loc) (name :: rest) = .error .tooManyLinks := by
  rw [walk_cons, h]
  simp only [hmet, not_spared hfollow, Bool.false_eq_true, if_false]

/-- **Induction along a walk**: over the links that may still be followed, and
then over the names. -/
@[elab_as_elim]
theorem walk_induction {d : Disk} {P : Nat → Location → List String → Prop}
    (arrived : ∀ links loc, P links loc [])
    (blocked : ∀ links loc name rest e, d.move loc name = .error e → P links loc (name :: rest))
    (moved : ∀ links loc name rest next, d.move loc name = .ok next → d.met? loc name = none →
      P links next rest → P links loc (name :: rest))
    (exhausted : ∀ loc name rest next target, d.move loc name = .ok next →
      d.met? loc name = some target → P 0 loc (name :: rest))
    (linked : ∀ links loc name rest next target, d.move loc name = .ok next →
      d.met? loc name = some target → P links (linkStart target loc) (names target ++ rest) →
        P (links + 1) loc (name :: rest))
    (links : Nat) (loc : Location) (path : List String) : P links loc path := by
  -- A link that is followed may make the path longer, but leaves fewer links to follow.
  induction links generalizing loc path with
  | zero =>
      induction path generalizing loc with
      | nil => exact arrived 0 loc
      | cons name rest ih =>
          cases hmove : d.move loc name with
          | error e => exact blocked 0 loc name rest e hmove
          | ok next =>
              cases hmet : d.met? loc name with
              | none => exact moved 0 loc name rest next hmove hmet (ih next)
              | some target => exact exhausted loc name rest next target hmove hmet
  | succ links outer =>
      induction path generalizing loc with
      | nil => exact arrived (links + 1) loc
      | cons name rest ih =>
          cases hmove : d.move loc name with
          | error e => exact blocked (links + 1) loc name rest e hmove
          | ok next =>
              cases hmet : d.met? loc name with
              | none => exact moved (links + 1) loc name rest next hmove hmet (ih next)
              | some target =>
                  exact linked links loc name rest next target hmove hmet (outer _ _)

/-! ## §4. Two walks compared. -/

/-- **A walk goes on where its first part has led**, or fails as that has failed. -/
theorem walk_append (d : Disk) (f : Bool) (links : Nat) (loc : Location) (path : List String)
    {rest : List String} (hrest : rest ≠ []) :
    (∃ e, d.walk true links (d.trail loc) path = .error e
        ∧ d.walk f links (d.trail loc) (path ++ rest) = .error e)
      ∨ ∃ there fewer, d.walk true links (d.trail loc) path = .ok there
          ∧ d.walk f links (d.trail loc) (path ++ rest) = d.walk f fewer (d.trail there) rest := by
  induction links, loc, path using walk_induction (d := d) with
  | arrived links loc => exact .inr ⟨loc, links, d.walk_nil true links loc, rfl⟩
  | blocked links loc name path e hmove =>
      exact .inl ⟨e, walk_blocked hmove, walk_blocked hmove⟩
  | moved links loc name path next hmove hmet ih =>
      rw [List.cons_append, walk_moved hmove hmet, walk_moved hmove hmet]
      exact ih
  | exhausted loc name path next target hmove hmet =>
      have hmore : path ++ rest ≠ [] := List.append_ne_nil_of_right_ne_nil path hrest
      exact .inl ⟨_, walk_exhausted hmove hmet (.inr rfl),
        walk_exhausted hmove hmet (.inl hmore)⟩
  | linked links loc name path next target hmove hmet ih =>
      have hmore : path ++ rest ≠ [] := List.append_ne_nil_of_right_ne_nil path hrest
      rw [List.cons_append, walk_linked hmove hmet (.inr rfl), walk_linked hmove hmet (.inl hmore),
        ← List.append_assoc]
      exact ih

/-- What a walk that spares its last link tells of the one that does not: it
fails alike, or the two lead to one place, or it has led to a link. -/
theorem walk_of_unfollowed (d : Disk) (links : Nat) (loc : Location) (path : List String) :
    (d.walk false links (d.trail loc) path = d.walk true links (d.trail loc) path)
      ∨ ∃ there target, d.walk false links (d.trail loc) path = .ok there
          ∧ d.item? there = some (.link target) := by
  induction links, loc, path using walk_induction (d := d) with
  | arrived links loc => exact .inl ((d.walk_nil false links loc).trans (d.walk_nil true links loc).symm)
  | blocked links loc name rest e hmove =>
      exact .inl ((walk_blocked hmove).trans (walk_blocked hmove).symm)
  | moved links loc name rest next hmove hmet ih =>
      rw [walk_moved hmove hmet, walk_moved hmove hmet]
      exact ih
  | exhausted loc name rest next target hmove hmet =>
      cases rest with
      | nil => exact .inr ⟨next, target, walk_spared hmove hmet, item?_of_met? hmove hmet⟩
      | cons second rest =>
          left
          rw [walk_exhausted hmove hmet (.inl (List.cons_ne_nil second rest)),
            walk_exhausted hmove hmet (.inr rfl)]
  | linked links loc name rest next target hmove hmet ih =>
      cases rest with
      | nil => exact .inr ⟨next, target, walk_spared hmove hmet, item?_of_met? hmove hmet⟩
      | cons second rest =>
          rw [walk_linked hmove hmet (.inl (List.cons_ne_nil second rest)),
            walk_linked hmove hmet (.inr rfl)]
          exact ih

/-! ## §5. Disks that keep folders and links. -/

/-- **Does a second disk keep the folders and the links of a first one?** -/
structure Keeps (d d' : Disk) : Prop where
  current : d'.current = d.current
  folder : ∀ loc, d.IsFolder loc → d'.IsFolder loc
  link : ∀ loc target, d.item? loc = some (.link target) → d'.item? loc = some (.link target)

/-- Only from a folder can a walk go on. -/
theorem isFolder_of_walk {there : Location}
    (h : d.walk f links (d.trail loc) (name :: rest) = .ok there) : d.IsFolder loc := by
  cases hmove : d.move loc name with
  | error e =>
      rw [walk_blocked hmove] at h
      cases h
  | ok next => exact (move_ok hmove).1

theorem Keeps.move_ok {d' : Disk} (h : d.Keeps d') (hmove : d.move loc name = .ok next) :
    d'.move loc name = .ok next := by
  obtain ⟨hfolder, hwhere⟩ := Disk.move_ok hmove
  rcases hwhere with ⟨rfl, rfl⟩ | ⟨rfl, rfl⟩ | ⟨hpoint, hpoints, hshort, rfl⟩
  · exact move_point (h.folder _ hfolder)
  · exact move_points (h.folder _ hfolder)
  · exact move_name (h.folder _ hfolder) hpoint hpoints hshort

theorem Keeps.met? {d' : Disk} (h : d.Keeps d') (hmet : d.met? loc name = some target) :
    d'.met? loc name = some target := by
  unfold Disk.met? at hmet ⊢
  split at hmet
  next => cases hmet
  next hname =>
    rw [if_neg hname, target?_eq_some]
    exact h.link _ target (target?_eq_some.1 hmet)

/-- **A walk leads where it led on every disk that keeps folders and links**, as long
as no link stands there. -/
theorem Keeps.walk_eq {d' : Disk} (h : d.Keeps d') {there : Location}
    (hthere : d'.target? there = none) (links : Nat) (loc : Location) (path : List String)
    (hwalk : d.walk true links (d.trail loc) path = .ok there) :
    d'.walk true links (d'.trail loc) path = .ok there := by
  induction links, loc, path using walk_induction (d := d) with
  | arrived links loc =>
      rw [walk_nil] at hwalk ⊢
      exact hwalk
  | blocked links loc name rest e hmove =>
      rw [walk_blocked hmove] at hwalk
      cases hwalk
  | moved links loc name rest next hmove hmet ih =>
      rw [walk_moved hmove hmet] at hwalk
      -- The name leads to a folder, or the walk would have come to nothing, or to its end.
      have hnext : d'.target? next = none := by
        cases rest with
        | nil =>
            rw [walk_nil] at hwalk
            rw [Except.ok.inj hwalk]
            exact hthere
        | cons second rest => exact (h.folder next (isFolder_of_walk hwalk)).target?_eq_none
      rw [walk_moved (h.move_ok hmove) (met?_of_move (h.move_ok hmove) hnext)]
      exact ih hwalk
  | exhausted loc name rest next target hmove hmet =>
      rw [walk_exhausted hmove hmet (.inr rfl)] at hwalk
      cases hwalk
  | linked links loc name rest next target hmove hmet ih =>
      rw [walk_linked hmove hmet (.inr rfl)] at hwalk
      rw [walk_linked (h.move_ok hmove) (h.met? hmet) (.inr rfl)]
      exact ih hwalk

end AnnotationCache.Files.Disk
