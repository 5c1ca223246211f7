/-
  AnnotationCache.Proofs.Json.Spelling
  ────────────────────────────────────
  **WHAT IS WRITTEN IS READ, HOWEVER IT IS WRITTEN.**

  A value may be written in many ways: blanks stand before and behind every token,
  and a character of a string is written in one of several ways.  `Spells` is the
  grammar of these texts.  Each of them is read as the tree of the value, which
  lists the members of objects as they stand in the text.  The reader runs on fuel,
  and the length of a text is enough for it.

  The renderer writes such texts in both of its styles: all that this asks of a
  style is that what it puts between tokens is blank (`Style.Spaced`).

  Main statements:
    * `Spells.read`   — every text of a value is read as its tree, and what follows it
      is left over;
    * `decode_spelt`  — so is a whole text;
    * `spells_render` — the renderer writes texts of its values;
    * `decode_render` — so what it writes is read as their trees.
-/
import AnnotationCache.Proofs.Json.Text

namespace AnnotationCache.Json

/-! ## §1. The grammar. -/

/-- Is a text blank? -/
def Blank (text : List Char) : Prop :=
  ∀ c ∈ text, isBlank c = true

mutual

/-- **Is a text one of a value?**  It starts with the value and ends with it. -/
inductive Spells : List Char → Json → Prop where
  | null : Spells ['n', 'u', 'l', 'l'] .null
  | yes : Spells ['t', 'r', 'u', 'e'] (.bool true)
  | no : Spells ['f', 'a', 'l', 's', 'e'] (.bool false)
  | int (n : Int) : Spells (intChars n) (.int n)
  | float {x : Double} (h : ReadsBack x) : Spells x.chars (.float x)
  | str {text : List Char} {s : String} (h : Written text s.toList) :
      Spells ('"' :: (text ++ ['"'])) (.str s)
  | emptyArr {blanks : List Char} (h : Blank blanks) : Spells ('[' :: (blanks ++ [']'])) (.arr [])
  | arr {text : List Char} {items : List Json} (h : SpellsItems text items) :
      Spells ('[' :: (text ++ [']'])) (.arr items)
  | emptyObj {blanks : List Char} (h : Blank blanks) :
      Spells ('\x7b' :: (blanks ++ ['\x7d'])) (.obj [])
  | obj {text : List Char} {members : List (String × Json)} (h : SpellsMembers text members) :
      Spells ('\x7b' :: (text ++ ['\x7d'])) (.obj members)

/-- Is a text one of items, up to the closing bracket? -/
inductive SpellsItems : List Char → List Json → Prop where
  | last {text blanks : List Char} {x : Json} (item : SpellsItem text x) (behind : Blank blanks) :
      SpellsItems (text ++ blanks) [x]
  | more {text blanks rest : List Char} {x : Json} {items : List Json} (item : SpellsItem text x)
      (behind : Blank blanks) (others : SpellsItems rest items) :
      SpellsItems (text ++ (blanks ++ ',' :: rest)) (x :: items)

/-- Is a text one of an item, with blanks before it? -/
inductive SpellsItem : List Char → Json → Prop where
  | mk {blanks text : List Char} {x : Json} (before : Blank blanks) (value : Spells text x) :
      SpellsItem (blanks ++ text) x

/-- Is a text one of members, up to the closing bracket? -/
inductive SpellsMembers : List Char → List (String × Json) → Prop where
  | last {text blanks : List Char} {m : String × Json} (member : SpellsMember text m)
      (behind : Blank blanks) : SpellsMembers (text ++ blanks) [m]
  | more {text blanks rest : List Char} {m : String × Json} {members : List (String × Json)}
      (member : SpellsMember text m) (behind : Blank blanks) (others : SpellsMembers rest members) :
      SpellsMembers (text ++ (blanks ++ ',' :: rest)) (m :: members)

/-- Is a text one of a member, with blanks before it? -/
inductive SpellsMember : List Char → String × Json → Prop where
  | mk {blanks key behind text : List Char} {k : String} {x : Json} (before : Blank blanks)
      (name : Written key k.toList) (colon : Blank behind) (value : SpellsItem text x) :
      SpellsMember (blanks ++ '"' :: (key ++ '"' :: (behind ++ ':' :: text))) (k, x)

end

/-- **Is a whole text one of a value?**  Blanks may stand around it. -/
def SpellsText (text : String) (v : Json) : Prop :=
  ∃ before inner behind, text.toList = before ++ (inner ++ behind) ∧ Blank before
    ∧ Spells inner v ∧ Blank behind

/-! ## §2. Reading. -/

/-- A numeral starts with a character that is no blank and closes no bracket. -/
theorem opens_of_readNumeral {text : List Char} {read : Numeral × List Char}
    (h : readNumeral text = some read) :
    ∃ c tail, text = c :: tail ∧ isBlank c = false ∧ c ≠ ']' := by
  obtain ⟨c, tail, rfl, hc⟩ := head_of_readNumeral h
  have hnumeric : isNumeric c = true := by
    rcases hc with rfl | hc
    · rfl
    · simp [isNumeric, hc]
  refine ⟨c, tail, rfl, not_blank_of_numeric hnumeric, ?_⟩
  rintro rfl
  cases hnumeric

/-- So does every value. -/
theorem Spells.opens {text : List Char} {v : Json} (h : Spells text v) :
    ∃ c tail, text = c :: tail ∧ isBlank c = false ∧ c ≠ ']' := by
  cases h with
  | int n => exact opens_of_readNumeral (readNumeral_intChars n)
  | float hx => exact opens_of_readNumeral (readNumeral_chars hx)
  | null | yes | no | str | emptyArr | arr | emptyObj | obj =>
      exact ⟨_, _, rfl, rfl, by decide⟩

/-- Fuel for the text of a value is enough for one step. -/
theorem Spells.fuel {text : List Char} {v : Json} (h : Spells text v) {fuel : Nat}
    (hfuel : text.length ≤ fuel) : ∃ spared, fuel = spared + 1 := by
  obtain ⟨c, tail, rfl, -⟩ := h.opens
  rw [List.length_cons] at hfuel
  exact ⟨fuel - 1, by omega⟩

/-- No numeral goes on behind blanks and a character that closes or separates. -/
theorem ends_blank {blanks : List Char} (hblanks : Blank blanks) {c : Char}
    (hc : c = ',' ∨ c = ']' ∨ c = '\x7d') (rest : List Char) :
    EndsNumeral (blanks ++ c :: rest) := by
  cases blanks with
  | nil =>
      apply forall_mem_head (P := fun c => isDigit c = false ∧ c ≠ '.' ∧ c ≠ 'e' ∧ c ≠ 'E')
      rcases hc with rfl | rfl | rfl <;> decide
  | cons blank blanks =>
      have hblank : isBlank blank = true := hblanks blank List.mem_cons_self
      apply forall_mem_head (P := fun c => isDigit c = false ∧ c ≠ '.' ∧ c ≠ 'e' ∧ c ≠ 'E')
      simp only [isBlank, Bool.or_eq_true, decide_eq_true_eq] at hblank
      obtain ((rfl | rfl) | rfl) | rfl := hblank <;> decide

theorem ends_nil : EndsNumeral [] :=
  fun c hc => by cases hc

mutual

/-- **Every text of a value is read as its tree**, and what follows it is left. -/
theorem Spells.read {text : List Char} {v : Json} (h : Spells text v) (fuel : Nat)
    (hfuel : text.length ≤ fuel) {rest : List Char} (hrest : EndsNumeral rest) :
    readValue fuel (text ++ rest) = (tree v, rest) := by
  obtain ⟨fuel, rfl⟩ := h.fuel hfuel
  match h with
  | .null => rfl
  | .yes => rfl
  | .no => rfl
  | .int n =>
      exact readValue_of_readNumeral fuel (readNumeral_append (readNumeral_intChars n) hrest)
  | .float hx =>
      exact readValue_of_readNumeral fuel (readNumeral_append (readNumeral_chars hx) hrest)
  | .str hs =>
      simp only [List.cons_append, List.append_assoc, List.nil_append]
      exact readValue_string (readString_written hs rest)
  | .emptyArr hblanks =>
      simp only [List.cons_append, List.append_assoc, List.nil_append]
      exact readValue_emptyArray (skipBlanks_upTo hblanks rfl rest)
  | .arr hitems =>
      simp only [List.length_cons, List.length_append] at hfuel
      obtain ⟨c, next, hstart, hc, hread⟩ := hitems.read fuel (by omega) rest
      simp only [List.cons_append, List.append_assoc, List.nil_append]
      exact readValue_array hstart hc hread
  | .emptyObj hblanks =>
      simp only [List.cons_append, List.append_assoc, List.nil_append]
      exact readValue_emptyObject (skipBlanks_upTo hblanks rfl rest)
  | .obj hmembers =>
      simp only [List.length_cons, List.length_append] at hfuel
      obtain ⟨next, hstart, hread⟩ := hmembers.read fuel (by omega) rest
      simp only [List.cons_append, List.append_assoc, List.nil_append]
      exact readValue_object hstart hread

/-- Items are read as their trees, up to the closing bracket. -/
theorem SpellsItems.read {text : List Char} {items : List Json} (h : SpellsItems text items)
    (fuel : Nat) (hfuel : text.length + 1 ≤ fuel) (rest : List Char) :
    ∃ c next, skipBlanks (text ++ ']' :: rest) = c :: next ∧ c ≠ ']'
      ∧ readItems fuel (c :: next) = (treeItems items, true, rest) := by
  obtain ⟨fuel, rfl⟩ : ∃ spared, fuel = spared + 1 := ⟨fuel - 1, by omega⟩
  match h with
  | .last hitem hblanks =>
      simp only [List.length_append] at hfuel
      obtain ⟨c, next, hstart, hc, hread⟩ :=
        hitem.read fuel (by omega) (ends_blank hblanks (.inr (.inl rfl)) rest)
      rw [List.append_assoc]
      exact ⟨c, next, hstart, hc, readItems_last hread (skipBlanks_upTo hblanks rfl rest)⟩
  | @SpellsItems.more _ _ others _ _ hitem hblanks hothers =>
      simp only [List.length_append, List.length_cons] at hfuel
      obtain ⟨c, next, hstart, hc, hread⟩ := hitem.read fuel (by omega)
        (ends_blank hblanks (.inl rfl) (others ++ ']' :: rest))
      obtain ⟨d, following, hnext, hd, hitems⟩ := hothers.read fuel (by omega) rest
      simp only [List.append_assoc, List.cons_append]
      exact ⟨c, next, hstart, hc,
        readItems_more hread (skipBlanks_upTo hblanks rfl _) hnext hd hitems⟩

/-- An item is read as its tree. -/
theorem SpellsItem.read {text : List Char} {x : Json} (h : SpellsItem text x) (fuel : Nat)
    (hfuel : text.length ≤ fuel) {rest : List Char} (hrest : EndsNumeral rest) :
    ∃ c next, skipBlanks (text ++ rest) = c :: next ∧ c ≠ ']'
      ∧ readValue fuel (c :: next) = (tree x, rest) := by
  match h with
  | .mk hblanks hvalue =>
      rw [List.length_append] at hfuel
      obtain ⟨c, tail, rfl, hblank, hc⟩ := hvalue.opens
      rw [List.append_assoc]
      exact ⟨c, tail ++ rest, skipBlanks_upTo hblanks hblank (tail ++ rest), hc,
        hvalue.read fuel (by omega) hrest⟩

/-- Members are read as their trees, from within the first key up to the closing
bracket. -/
theorem SpellsMembers.read {text : List Char} {members : List (String × Json)}
    (h : SpellsMembers text members) (fuel : Nat) (hfuel : text.length + 1 ≤ fuel)
    (rest : List Char) :
    ∃ next, skipBlanks (text ++ '\x7d' :: rest) = '"' :: next
      ∧ readMembers fuel next = (treeMembers members, true, rest) := by
  obtain ⟨fuel, rfl⟩ : ∃ spared, fuel = spared + 1 := ⟨fuel - 1, by omega⟩
  match h with
  | .last hmember hblanks =>
      simp only [List.length_append] at hfuel
      obtain ⟨next, behind, after, hstart, hkey, hcolon, hread⟩ :=
        hmember.read fuel (by omega) (ends_blank hblanks (.inr (.inr rfl)) rest)
      rw [List.append_assoc]
      exact ⟨next, hstart,
        readMembers_last hkey hcolon hread (skipBlanks_upTo hblanks rfl rest)⟩
  | @SpellsMembers.more _ _ others _ _ hmember hblanks hothers =>
      simp only [List.length_append, List.length_cons] at hfuel
      obtain ⟨next, behind, after, hstart, hkey, hcolon, hread⟩ :=
        hmember.read fuel (by omega)
          (ends_blank hblanks (.inl rfl) (others ++ '\x7d' :: rest))
      obtain ⟨following, hnext, hmembers⟩ := hothers.read fuel (by omega) rest
      simp only [List.append_assoc, List.cons_append]
      exact ⟨next, hstart, readMembers_more hkey hcolon hread (skipBlanks_upTo hblanks rfl _)
        hnext hmembers⟩

/-- A member is read up to its colon, and then as the tree of its value. -/
theorem SpellsMember.read {text : List Char} {m : String × Json} (h : SpellsMember text m)
    (fuel : Nat) (hfuel : text.length ≤ fuel) {rest : List Char} (hrest : EndsNumeral rest) :
    ∃ next behind after, skipBlanks (text ++ rest) = '"' :: next
      ∧ readString next = some (some m.1, behind) ∧ skipBlanks behind = ':' :: after
      ∧ readValue fuel (skipBlanks after) = (tree m.2, rest) := by
  match h with
  | .mk hblanks hkey hbehind hvalue =>
      simp only [List.length_append, List.length_cons] at hfuel
      obtain ⟨c, next, hstart, -, hread⟩ := hvalue.read fuel (by omega) hrest
      simp only [List.append_assoc, List.cons_append]
      exact ⟨_, _, _, skipBlanks_upTo hblanks rfl _, readString_written hkey _,
        skipBlanks_upTo hbehind rfl _, hstart ▸ hread⟩

end

/-- **A whole text is read as the tree of its value.** -/
theorem decode_spelt {α : Type} (read : Place → Reading α) {text : String} {v : Json}
    (h : SpellsText text v) : decode read text = read ⟨maxDepth, .inPlace, tree v⟩ := by
  obtain ⟨before, inner, behind, htext, hbefore, hinner, hbehind⟩ := h
  obtain ⟨c, tail, rfl, hblank, -⟩ := hinner.opens
  have hends : EndsNumeral behind := by
    cases behind with
    | nil => exact ends_nil
    | cons blank behind =>
        have hsplit : EndsNumeral (blank :: behind ++ ',' :: []) :=
          ends_blank hbehind (.inl rfl) []
        exact hsplit
  have htree : readValue (2 * text.toList.length + 2) (skipBlanks text.toList) = (tree v, behind) := by
    rw [htext, List.cons_append, skipBlanks_upTo hbefore hblank, ← List.cons_append]
    apply hinner.read _ _ hends
    simp only [List.length_append, List.length_cons]
    omega
  have hleft : skipBlanks behind = [] := by
    have hall : skipBlanks (behind ++ []) = [] :=
      skipBlanks_append hbehind fun c hc => by cases hc
    rwa [List.append_nil] at hall
  rw [decode_eq read htree, hleft]
  cases read ⟨maxDepth, .inPlace, tree v⟩ <;> rfl

/-! ## §3. Writing. -/

/-- **Is all blank that a style puts between tokens?** -/
structure Style.Spaced (style : Style) : Prop where
  line : ∀ level, Blank (style.line level)
  colon : ∃ space, style.colon = ':' :: space ∧ Blank space

theorem blank_nil : Blank [] :=
  fun _ hc => absurd hc List.not_mem_nil

theorem spaced_compactStyle : compactStyle.Spaced where
  line _ := blank_nil
  colon := ⟨[], rfl, blank_nil⟩

theorem spaced_indentedStyle : indentedStyle.Spaced where
  line level c hc := by
    rcases List.mem_cons.1 hc with rfl | hc
    · rfl
    · rw [List.eq_of_mem_replicate hc]
      rfl
  colon := ⟨[' '], rfl, fun c hc => by rw [List.mem_singleton.1 hc]; rfl⟩

variable {style : Style}

/-- The text of a member, on a line of its own. -/
theorem spells_member (hs : style.Spaced) (level : Nat) (k : String) {text : List Char} {x : Json}
    (h : Spells text x) :
    SpellsMember (style.line level ++ (quoted k ++ style.colon ++ text)) (k, x) := by
  obtain ⟨space, hcolon, hspace⟩ := hs.colon
  have htext : style.line level ++ (quoted k ++ style.colon ++ text) = style.line level
      ++ '"' :: (k.toList.flatMap escapeChar ++ '"' :: ([] ++ ':' :: (space ++ text))) := by
    rw [hcolon, quoted]
    simp
  rw [htext]
  exact .mk (hs.line level) (written_escaped k.toList) blank_nil (.mk hspace h)

mutual

/-- **The renderer writes texts of its values.** -/
theorem spells_render (hs : style.Spaced) (level : Nat) : ∀ v : Json, FloatsReadBack v →
    Spells (render style level v) v
  | .null, _ => .null
  | .bool true, _ => .yes
  | .bool false, _ => .no
  | .int n, _ => .int n
  | .float _, h => .float h
  | .str s, _ => .str (written_escaped s.toList)
  | .arr [], _ => .emptyArr blank_nil
  | .arr (x :: items), h => by
      have hitems := spells_renderItems hs (level + 1) level (x :: items) (List.cons_ne_nil x items) h
      have htext : render style level (.arr (x :: items)) = '[' :: ((style.line (level + 1)
          ++ (List.intercalate (',' :: style.line (level + 1))
            (renderItems style (level + 1) (x :: items)) ++ style.line level)) ++ [']']) := by
        simp [render, Style.bracketed, renderItems]
      rw [htext]
      exact .arr hitems
  | .obj [], _ => .emptyObj blank_nil
  | .obj (m :: members), h => by
      have hmembers := spells_renderMembers hs (level + 1) level (m :: members)
        (List.cons_ne_nil m members) h
      have htext : render style level (.obj (m :: members)) = '\x7b' :: ((style.line (level + 1)
          ++ (List.intercalate (',' :: style.line (level + 1))
            (renderMembers style (level + 1) (m :: members)) ++ style.line level)) ++ ['\x7d']) := by
        simp [render, Style.bracketed, renderMembers]
      rw [htext]
      exact .obj hmembers

/-- It writes texts of items, each on its line. -/
theorem spells_renderItems (hs : style.Spaced) (level below : Nat) : ∀ items : List Json,
    items ≠ [] → FloatsReadBackItems items →
      SpellsItems (style.line level ++ (List.intercalate (',' :: style.line level)
        (renderItems style level items) ++ style.line below)) items
  | [], hne, _ => absurd rfl hne
  | [x], _, h => by
      simp only [renderItems, List.intercalate_singleton]
      rw [← List.append_assoc]
      exact .last (.mk (hs.line level) (spells_render hs level x h.1)) (hs.line below)
  | x :: y :: items, _, h => by
      have hitems := spells_renderItems hs level below (y :: items) (List.cons_ne_nil y items) h.2
      have hx := SpellsItem.mk (hs.line level) (spells_render hs level x h.1)
      simpa only [renderItems, List.intercalate_cons_cons, List.append_assoc, List.cons_append,
        List.nil_append] using SpellsItems.more hx blank_nil hitems

/-- It writes texts of members, each on its line. -/
theorem spells_renderMembers (hs : style.Spaced) (level below : Nat) :
    ∀ members : List (String × Json), members ≠ [] → FloatsReadBackMembers members →
      SpellsMembers (style.line level ++ (List.intercalate (',' :: style.line level)
        (renderMembers style level members) ++ style.line below)) members
  | [], hne, _ => absurd rfl hne
  | [(k, x)], _, h => by
      simp only [renderMembers, List.intercalate_singleton]
      rw [← List.append_assoc]
      exact .last (spells_member hs level k (spells_render hs level x h.1)) (hs.line below)
  | (k, x) :: (j, y) :: members, _, h => by
      have hmembers := spells_renderMembers hs level below ((j, y) :: members)
        (List.cons_ne_nil _ members) h.2
      have hx := spells_member hs level k (spells_render hs level x h.1)
      simpa only [renderMembers, List.intercalate_cons_cons, List.append_assoc, List.cons_append,
        List.nil_append] using SpellsMembers.more hx blank_nil hmembers

end

/-- A whole text that the renderer writes is one of its value. -/
theorem spellsText_render (hs : style.Spaced) {v : Json} (h : FloatsReadBack v) :
    SpellsText (String.ofList (render style 0 v)) v := by
  refine ⟨[], render style 0 v, [], ?_, blank_nil, spells_render hs 0 v h, blank_nil⟩
  rw [String.toList_ofList, List.nil_append, List.append_nil]

/-- **What the renderer writes is read as the tree of its value.** -/
theorem decode_render {α : Type} (hs : style.Spaced) (read : Place → Reading α) {v : Json}
    (h : FloatsReadBack v) :
    decode read (String.ofList (render style 0 v)) = read ⟨maxDepth, .inPlace, tree v⟩ :=
  decode_spelt read (spellsText_render hs h)

/-- The compact text of a value is read as its tree. -/
theorem decode_compact {α : Type} (read : Place → Reading α) {v : Json} (h : FloatsReadBack v) :
    decode read v.compact = read ⟨maxDepth, .inPlace, tree v⟩ :=
  decode_render spaced_compactStyle read h

end AnnotationCache.Json
