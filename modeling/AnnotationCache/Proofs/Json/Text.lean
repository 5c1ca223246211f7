/-
  AnnotationCache.Proofs.Json.Text
  ────────────────────────────────
  **READING A TEXT, STEP BY STEP.**

  Every value has a tree, the one that its text is read as.  Numerals, strings
  and brackets are read step by step here; blanks may stand before every token
  behind the first one.

  What the text of a float denotes is not settled here.  It is read as some
  numeral, or it could not read back as the float (`ReadsBack`).

  Main statements:
    * `readNumeral_of_readsBack`               — a float that reads back is read as a
      numeral that denotes it;
    * `readItems_more`, `readItems_last`       — items of an array are read one by one;
    * `readMembers_more`, `readMembers_last`   — and so are members of an object.
-/
import AnnotationCache.Json.Decode
import AnnotationCache.Proofs.Json.Scalar
import AnnotationCache.Proofs.Json.Value

namespace AnnotationCache.Json

/-! ## §1. Blanks. -/

/-- Blanks are skipped up to the first character that is none. -/
theorem skipBlanks_append {blanks text : List Char} (hblanks : ∀ c ∈ blanks, isBlank c = true)
    (htext : ∀ c ∈ text.head?, isBlank c = false) : skipBlanks (blanks ++ text) = text := by
  unfold skipBlanks
  rw [List.dropWhile_append_of_pos hblanks]
  cases text with
  | nil => rfl
  | cons c text =>
      have hc : isBlank c = false := htext c rfl
      exact List.dropWhile_cons_of_neg (by rw [hc]; exact Bool.false_ne_true)

theorem skipBlanks_upTo {blanks : List Char} (hblanks : ∀ c ∈ blanks, isBlank c = true) {c : Char}
    (hc : isBlank c = false) (text : List Char) : skipBlanks (blanks ++ c :: text) = c :: text :=
  skipBlanks_append hblanks (forall_mem_head (P := fun c => isBlank c = false) hc text)

theorem skipBlanks_cons {c : Char} (h : isBlank c = false) (text : List Char) :
    skipBlanks (c :: text) = c :: text :=
  List.dropWhile_cons_of_neg (by rw [h]; exact Bool.false_ne_true)

/-! ## §2. Numerals. -/

/-- A numeral starts with a minus or a digit. -/
theorem head_of_readNumeral {text : List Char} {read : Numeral × List Char}
    (h : readNumeral text = some read) :
    ∃ c tail, text = c :: tail ∧ (c = '-' ∨ isDigit c = true) := by
  cases text with
  | nil => cases h
  | cons c tail =>
      refine ⟨c, tail, rfl, ?_⟩
      by_cases hminus : c = '-'
      · exact .inl hminus
      · right
        have hunsigned : readUnsigned false (c :: tail) = some read := by
          unfold readNumeral at h
          split at h
          next heq => exact absurd (List.cons.inj heq).1 hminus
          next => exact h
        have hwhole := whole_of_readUnsigned hunsigned
        rw [readDigits_cons] at hwhole
        cases hdigit : isDigit c with
        | true => rfl
        | false =>
            rw [hdigit] at hwhole
            rcases hwhole with hempty | ⟨first, others, hempty, -⟩ <;> cases hempty

/-- The characters that values other than numbers start with. -/
def OpensNoNumeral (c : Char) : Prop :=
  c = 'n' ∨ c = 't' ∨ c = 'f' ∨ c = '"' ∨ c = '[' ∨ c = '\x7b'

/-- Where no other value starts a numeral is looked for. -/
theorem readValue_numeral (fuel : Nat) {c : Char} (hc : ¬ OpensNoNumeral c) (tail : List Char) :
    readValue (fuel + 1) (c :: tail) =
      match readNumeral (c :: tail) with
      | some (n, rest) => (.num n, rest)
      | none => (.broken, []) := by
  unfold OpensNoNumeral at hc
  simp only [not_or] at hc
  obtain ⟨hn, ht, hf, hquote, hbracket, hbrace⟩ := hc
  unfold readValue
  dsimp only
  split
  next heq => exact absurd (List.cons.inj heq).1 hn
  next heq => exact absurd (List.cons.inj heq).1 ht
  next heq => exact absurd (List.cons.inj heq).1 hf
  next heq => exact absurd (List.cons.inj heq).1 hquote
  next heq => exact absurd (List.cons.inj heq).1 hbracket
  next heq => exact absurd (List.cons.inj heq).1 hbrace
  next => rfl

/-- A numeral is read as one. -/
theorem readValue_of_readNumeral {text rest : List Char} {n : Numeral} (fuel : Nat)
    (h : readNumeral text = some (n, rest)) : readValue (fuel + 1) text = (.num n, rest) := by
  obtain ⟨c, tail, rfl, hc⟩ := head_of_readNumeral h
  have hother : ¬ OpensNoNumeral c := by
    rintro (rfl | rfl | rfl | rfl | rfl | rfl) <;> revert hc <;> decide
  rw [readValue_numeral fuel hother, h]

/-! ## §3. Floats. -/

/-- **Does the text of a float read back as that float?** -/
def ReadsBack (x : Double) : Prop :=
  parse (Json.float x).compact = .ok (.float x)

/-- The characters of numbers. -/
def isNumeric (c : Char) : Bool :=
  isDigit c || c = '.' || c = 'e' || c = '+' || c = '-'

theorem numeric_of_all {chars : List Char} (h : chars.all isNumeric = true) :
    ∀ c ∈ chars, isNumeric c = true :=
  List.all_eq_true.1 h

theorem numeric_toDigits (n : Nat) : ∀ c ∈ Nat.toDigits 10 n, isNumeric c = true := by
  intro c hc
  simp [isNumeric, isDigit_of_mem_toDigits hc]

theorem numeric_zeros (n : Nat) : ∀ c ∈ List.replicate n '0', isNumeric c = true := by
  intro c hc
  rw [List.eq_of_mem_replicate hc]
  rfl

/-- Digits with a point behind the first one, if there are more. -/
theorem numeric_pointed {digits : List Char} (h : ∀ c ∈ digits, isNumeric c = true) :
    ∀ c ∈ (match digits with
      | first :: second :: rest => first :: '.' :: second :: rest
      | _ => digits), isNumeric c = true := by
  split
  next first second rest =>
    obtain ⟨hfirst, hothers⟩ := List.forall_mem_cons.1 h
    exact List.forall_mem_cons.2 ⟨hfirst, List.forall_mem_cons.2 ⟨rfl, hothers⟩⟩
  next => exact h

/-- Digits, points, signs and marks of an exponent are all there is in a decimal. -/
theorem numeric_render (form : Double.Layout) (d : Decimal) :
    ∀ c ∈ form.render d, isNumeric c = true := by
  have hdigits := numeric_toDigits d.digits
  unfold Double.Layout.render
  dsimp only
  split
  · exact List.forall_mem_append.2
      ⟨List.forall_mem_append.2 ⟨numeric_of_all rfl, numeric_zeros _⟩, hdigits⟩
  · split
    · split
      · exact List.forall_mem_append.2
          ⟨List.forall_mem_append.2 ⟨hdigits, numeric_zeros _⟩, numeric_of_all rfl⟩
      · refine List.forall_mem_append.2 ⟨fun c hc => hdigits c (List.mem_of_mem_take hc), ?_⟩
        exact List.forall_mem_cons.2 ⟨rfl, fun c hc => hdigits c (List.mem_of_mem_drop hc)⟩
    · refine List.forall_mem_append.2 ⟨numeric_pointed hdigits, ?_⟩
      refine List.forall_mem_cons.2 ⟨rfl, List.forall_mem_cons.2 ⟨?_, numeric_toDigits _⟩⟩
      split <;> rfl

theorem numeric_chars (x : Double) : ∀ c ∈ x.chars, isNumeric c = true := by
  unfold Double.chars
  refine List.forall_mem_append.2 ⟨?_, ?_⟩
  · split <;> exact numeric_of_all rfl
  · split
    · exact numeric_of_all rfl
    · exact numeric_render _ _

theorem not_blank_of_numeric {c : Char} (h : isNumeric c = true) : isBlank c = false := by
  cases hblank : isBlank c with
  | false => rfl
  | true =>
      simp only [isBlank, Bool.or_eq_true, decide_eq_true_eq] at hblank
      obtain ((rfl | rfl) | rfl) | rfl := hblank <;> cases h

theorem not_opens_of_numeric {c : Char} (h : isNumeric c = true) : ¬ OpensNoNumeral c := by
  rintro (rfl | rfl | rfl | rfl | rfl | rfl) <;> cases h

/-- Numeric characters are no blanks. -/
theorem skipBlanks_of_numeric {text : List Char} (h : ∀ c ∈ text, isNumeric c = true) :
    skipBlanks text = text := by
  cases text with
  | nil => rfl
  | cons c text => exact skipBlanks_cons (not_blank_of_numeric (h c List.mem_cons_self)) text

/-- What comes of a text, by the value that it starts with and what is left. -/
theorem decode_eq {α : Type} (read : Place → Reading α) {text : String} {tree : Tree}
    {left : List Char}
    (h : readValue (2 * text.toList.length + 2) (skipBlanks text.toList) = (tree, left)) :
    decode read text = (do
      let v ← read ⟨maxDepth, .inPlace, tree⟩
      if (skipBlanks left).isEmpty then return v else throw .malformed) := by
  unfold decode Tree.read
  dsimp only
  rw [h]

/-- A text that is read as a value starts with that value, and only blanks follow. -/
theorem parse_ok {text : String} {v : Json} (h : parse text = .ok v) : ∃ tree left,
    readValue (2 * text.toList.length + 2) (skipBlanks text.toList) = (tree, left)
      ∧ Place.value ⟨maxDepth, .inPlace, tree⟩ = .ok v ∧ skipBlanks left = [] := by
  cases hread : readValue (2 * text.toList.length + 2) (skipBlanks text.toList) with
  | mk tree left =>
      refine ⟨tree, left, rfl, ?_⟩
      unfold parse at h
      rw [decode_eq Place.value hread] at h
      cases hvalue : Place.value ⟨maxDepth, .inPlace, tree⟩ with
      | error problem =>
          rw [hvalue] at h
          cases h
      | ok read =>
          rw [hvalue] at h
          have hend : (if (skipBlanks left).isEmpty then Except.ok read
            else Except.error Problem.malformed) = .ok v := h
          split at hend
          next hempty => exact ⟨hend, List.isEmpty_iff.1 hempty⟩
          next => cases hend

/-- A numeral that is a float as a value denotes that float. -/
theorem number_of_value {n : Numeral} {x : Double}
    (h : Place.value ⟨maxDepth, .inPlace, .num n⟩ = .ok (.float x)) :
    n.number = some (.float x) := by
  unfold Place.value Place.valueWithin at h
  dsimp only at h
  split at h
  next => cases h
  next hnumber =>
    cases h
    exact hnumber
  next => cases h

/-- **A float that reads back is read as a numeral that denotes it.** -/
theorem readNumeral_of_readsBack {x : Double} (h : ReadsBack x) :
    ∃ n, readNumeral x.chars = some (n, []) ∧ n.number = some (.float x) := by
  have hnumeric := numeric_chars x
  have htext : (Json.float x).compact.toList = x.chars := String.toList_ofList
  obtain ⟨tree, left, hread, hvalue, hend⟩ := parse_ok h
  rw [htext, skipBlanks_of_numeric hnumeric] at hread
  cases hx : x.chars with
  | nil =>
      rw [hx] at hread
      cases hread
      cases hvalue
  | cons c tail =>
      have hc := not_opens_of_numeric (hnumeric c (hx ▸ List.mem_cons_self))
      rw [hx, readValue_numeral _ hc] at hread
      cases hnumeral : readNumeral (c :: tail) with
      | none =>
          rw [hnumeral] at hread
          cases hread
          cases hvalue
      | some read =>
          rw [hnumeral] at hread
          obtain ⟨n, rest⟩ := read
          cases hread
          -- What is left of the text has no blanks, so there is nothing left.
          have hleft : skipBlanks left = left := skipBlanks_of_numeric fun c' hc' =>
            hnumeric c' (hx ▸ (readNumeral_suffix hnumeral).subset hc')
          rw [hleft] at hend
          subst hend
          exact ⟨n, rfl, number_of_value hvalue⟩

/-! ## §4. Trees of values. -/

/-- The numeral that the text of a float is read as. -/
def floatNumeral (x : Double) : Numeral :=
  ((readNumeral x.chars).map Prod.fst).getD default

mutual

/-- **The tree of a value.** -/
def tree : Json → Tree
  | .null => .null
  | .bool b => .bool b
  | .int n => .num (intNumeral n)
  | .float x => .num (floatNumeral x)
  | .str s => .str (some s)
  | .arr items => .arr (treeItems items) true
  | .obj members => .obj (treeMembers members) true

/-- The trees of items. -/
def treeItems : List Json → List Tree
  | [] => []
  | x :: xs => tree x :: treeItems xs

/-- The trees of members, behind their keys. -/
def treeMembers : List (String × Json) → List (Option String × Tree)
  | [] => []
  | (k, x) :: xs => (some k, tree x) :: treeMembers xs

end

mutual

/-- **Do all floats in a value read back?** -/
def FloatsReadBack : Json → Prop
  | .float x => ReadsBack x
  | .arr items => FloatsReadBackItems items
  | .obj members => FloatsReadBackMembers members
  | _ => True

/-- Do all floats in a list read back? -/
def FloatsReadBackItems : List Json → Prop
  | [] => True
  | x :: xs => FloatsReadBack x ∧ FloatsReadBackItems xs

/-- Do all floats in the values of members read back? -/
def FloatsReadBackMembers : List (String × Json) → Prop
  | [] => True
  | (_, x) :: xs => FloatsReadBack x ∧ FloatsReadBackMembers xs

end

theorem treeItems_eq_map (items : List Json) : treeItems items = items.map tree := by
  induction items with
  | nil => rfl
  | cons x items ih => rw [treeItems, ih, List.map_cons]

theorem treeMembers_eq_map (members : List (String × Json)) :
    treeMembers members = members.map fun m => (some m.1, tree m.2) := by
  induction members with
  | nil => rfl
  | cons m members ih => rw [treeMembers, ih, List.map_cons]

theorem floatsReadBackItems_iff {items : List Json} :
    FloatsReadBackItems items ↔ ∀ v ∈ items, FloatsReadBack v := by
  induction items with
  | nil => simp [FloatsReadBackItems]
  | cons v items ih => rw [FloatsReadBackItems, ih, List.forall_mem_cons]

theorem floatsReadBackMembers_iff {members : List (String × Json)} :
    FloatsReadBackMembers members ↔ ∀ m ∈ members, FloatsReadBack m.2 := by
  induction members with
  | nil => simp [FloatsReadBackMembers]
  | cons m members ih => rw [FloatsReadBackMembers, ih, List.forall_mem_cons]

/-- Where there is no float, none has to read back. -/
theorem floatsReadBack_of_floatFree (v : Json) (h : v.floatFree = true) : FloatsReadBack v := by
  induction v using Json.induction with
  | null | bool | int | str => trivial
  | float => cases h
  | arr items ih =>
      rw [floatFree, floatFreeItems_iff] at h
      exact floatsReadBackItems_iff.2 fun x hx => ih x hx (h x hx)
  | obj members ih =>
      rw [floatFree, floatFreeMembers_iff] at h
      exact floatsReadBackMembers_iff.2 fun m hm => ih m hm (h m hm)

theorem floatsReadBackMembers_of_floatFree (members : List (String × Json))
    (h : floatFreeMembers members = true) : FloatsReadBackMembers members :=
  floatsReadBackMembers_iff.2 fun m hm =>
    floatsReadBack_of_floatFree m.2 (floatFreeMembers_iff.1 h m hm)

theorem readNumeral_chars {x : Double} (h : ReadsBack x) :
    readNumeral x.chars = some (floatNumeral x, []) := by
  obtain ⟨n, hread, -⟩ := readNumeral_of_readsBack h
  unfold floatNumeral
  rw [hread]
  rfl

theorem number_floatNumeral {x : Double} (h : ReadsBack x) :
    (floatNumeral x).number = some (.float x) := by
  obtain ⟨n, hread, hnumber⟩ := readNumeral_of_readsBack h
  unfold floatNumeral
  rw [hread]
  exact hnumber

/-! ## §5. One step of reading. -/

section Steps

variable {fuel : Nat} {text left others next rest : List Char} {t : Tree} {key : Option String}
  {c : Char} {closed : Bool}

/-- What is read of a string behind its quote. -/
theorem readValue_quote (fuel : Nat) (text : List Char) :
    readValue (fuel + 1) ('"' :: text) =
      match readString text with
      | some (s, rest) => (.str s, rest)
      | none => (.broken, []) :=
  rfl

theorem readValue_string {s : Option String} (h : readString text = some (s, rest)) :
    readValue (fuel + 1) ('"' :: text) = (.str s, rest) := by
  rw [readValue_quote, h]

/-- What is read of an array behind its bracket. -/
theorem readValue_bracket (fuel : Nat) (text : List Char) :
    readValue (fuel + 1) ('[' :: text) =
      match skipBlanks text with
      | ']' :: rest => (.arr [] true, rest)
      | rest =>
          (.arr (readItems fuel rest).1 (readItems fuel rest).2.1, (readItems fuel rest).2.2) :=
  rfl

theorem readValue_emptyArray (h : skipBlanks text = ']' :: rest) :
    readValue (fuel + 1) ('[' :: text) = (.arr [] true, rest) := by
  rw [readValue_bracket, h]
  rfl

/-- An array with items. -/
theorem readValue_array {items : List Tree} (hstart : skipBlanks text = c :: next) (hc : c ≠ ']')
    (hitems : readItems fuel (c :: next) = (items, closed, rest)) :
    readValue (fuel + 1) ('[' :: text) = (.arr items closed, rest) := by
  rw [readValue_bracket, hstart]
  split
  next heq => exact absurd (List.cons.inj heq).1 hc
  next => rw [hitems]

/-- What is read of an object behind its bracket. -/
theorem readValue_brace (fuel : Nat) (text : List Char) :
    readValue (fuel + 1) ('\x7b' :: text) =
      match skipBlanks text with
      | '\x7d' :: rest => (.obj [] true, rest)
      | '"' :: rest =>
          (.obj (readMembers fuel rest).1 (readMembers fuel rest).2.1,
            (readMembers fuel rest).2.2)
      | _ => (.misfit, []) :=
  rfl

theorem readValue_emptyObject (h : skipBlanks text = '\x7d' :: rest) :
    readValue (fuel + 1) ('\x7b' :: text) = (.obj [] true, rest) := by
  rw [readValue_brace, h]
  rfl

/-- An object with members. -/
theorem readValue_object {members : List (Option String × Tree)}
    (hstart : skipBlanks text = '"' :: next)
    (hmembers : readMembers fuel next = (members, closed, rest)) :
    readValue (fuel + 1) ('\x7b' :: text) = (.obj members closed, rest) := by
  have hread : ((.obj (readMembers fuel next).1 (readMembers fuel next).2.1 : Tree),
      (readMembers fuel next).2.2) = (.obj members closed, rest) := by
    rw [hmembers]
  rw [readValue_brace, hstart]
  exact hread

/-- The last item, and the bracket behind it. -/
theorem readItems_last (hvalue : readValue fuel text = (t, left))
    (hend : skipBlanks left = ']' :: rest) : readItems (fuel + 1) text = ([t], true, rest) := by
  rw [readItems, hvalue]
  dsimp only
  rw [hend]
  rfl

/-- What is read of items behind a comma. -/
theorem readItems_comma (hvalue : readValue fuel text = (t, left))
    (hcomma : skipBlanks left = ',' :: others) :
    readItems (fuel + 1) text =
      match skipBlanks others with
      | ']' :: _ => ([t], false, [])
      | rest => (t :: (readItems fuel rest).1, (readItems fuel rest).2.1,
          (readItems fuel rest).2.2) := by
  rw [readItems, hvalue]
  dsimp only
  rw [hcomma]
  rfl

/-- An item with others behind it. -/
theorem readItems_more {items : List Tree} (hvalue : readValue fuel text = (t, left))
    (hcomma : skipBlanks left = ',' :: others) (hstart : skipBlanks others = c :: next)
    (hc : c ≠ ']') (hitems : readItems fuel (c :: next) = (items, closed, rest)) :
    readItems (fuel + 1) text = (t :: items, closed, rest) := by
  rw [readItems_comma hvalue hcomma, hstart]
  split
  next heq => exact absurd (List.cons.inj heq).1 hc
  next => rw [hitems]

variable {behind after : List Char}

/-- What is read of a member behind its key and the colon. -/
theorem readMembers_colon (hkey : readString text = some (key, behind))
    (hcolon : skipBlanks behind = ':' :: after) :
    readMembers (fuel + 1) text =
      match skipBlanks (readValue fuel (skipBlanks after)).2 with
      | ',' :: rest =>
          match skipBlanks rest with
          | '"' :: rest => ((key, (readValue fuel (skipBlanks after)).1) :: (readMembers fuel rest).1,
              (readMembers fuel rest).2.1, (readMembers fuel rest).2.2)
          | _ => ([(key, (readValue fuel (skipBlanks after)).1)], false, [])
      | '\x7d' :: rest => ([(key, (readValue fuel (skipBlanks after)).1)], true, rest)
      | _ => ([(key, (readValue fuel (skipBlanks after)).1)], false, []) := by
  rw [readMembers, hkey]
  dsimp only
  rw [hcolon]
  rfl

/-- The last member, and the bracket behind it. -/
theorem readMembers_last (hkey : readString text = some (key, behind))
    (hcolon : skipBlanks behind = ':' :: after)
    (hvalue : readValue fuel (skipBlanks after) = (t, left))
    (hend : skipBlanks left = '\x7d' :: rest) :
    readMembers (fuel + 1) text = ([(key, t)], true, rest) := by
  rw [readMembers_colon hkey hcolon, hvalue, hend]
  rfl

/-- What is read of members behind a comma. -/
theorem readMembers_comma (hkey : readString text = some (key, behind))
    (hcolon : skipBlanks behind = ':' :: after)
    (hvalue : readValue fuel (skipBlanks after) = (t, left))
    (hcomma : skipBlanks left = ',' :: others) :
    readMembers (fuel + 1) text =
      match skipBlanks others with
      | '"' :: rest => ((key, t) :: (readMembers fuel rest).1, (readMembers fuel rest).2.1,
          (readMembers fuel rest).2.2)
      | _ => ([(key, t)], false, []) := by
  rw [readMembers_colon hkey hcolon, hvalue, hcomma]
  rfl

/-- A member with others behind it. -/
theorem readMembers_more {members : List (Option String × Tree)}
    (hkey : readString text = some (key, behind)) (hcolon : skipBlanks behind = ':' :: after)
    (hvalue : readValue fuel (skipBlanks after) = (t, left))
    (hcomma : skipBlanks left = ',' :: others) (hstart : skipBlanks others = '"' :: next)
    (hmembers : readMembers fuel next = (members, closed, rest)) :
    readMembers (fuel + 1) text = ((key, t) :: members, closed, rest) := by
  have hread : ((key, t) :: (readMembers fuel next).1, (readMembers fuel next).2.1,
      (readMembers fuel next).2.2) = ((key, t) :: members, closed, rest) := by
    rw [hmembers]
  rw [readMembers_comma hkey hcolon hvalue hcomma, hstart]
  exact hread

end Steps

end AnnotationCache.Json
