/-
  AnnotationCache.Proofs.Json.Scalar
  ──────────────────────────────────
  **STRINGS AND NUMBERS READ BACK.**

  What is written for a string or a number is read again as that string or
  number, and reading stops where the text of it ends.  A string says itself
  where it ends; a number is read for as long as it goes on, so what follows it
  must not be part of a number (`EndsNumeral`).  A number has one text, but a
  character of a string may be written in several ways (`CharSpelling`).

  Main statements:
    * `readString_written`    — a string reads back, however it is written;
    * `written_escaped`       — the renderer writes it in one of these ways;
    * `readNumeral_intChars`  — an integer is read as its digits;
    * `number_intNumeral`     — which denote it, if it fits a word;
    * `readNumeral_append`    — what is a numeral alone is one before other text.
-/
import AnnotationCache.Json.Render
import AnnotationCache.Json.Tree.Read

namespace AnnotationCache.Json

/-! ## §1. Strings. -/

/-- **The ways to write a character of a string.**  It stands for itself if it is
neither a quote, nor a backslash, nor a control character; it may have an escape
of one letter; and it may be numbered, in two halves if it is beyond the numbers of
four digits. -/
inductive CharSpelling : List Char → Char → Prop where
  | plain {c : Char} (hquote : c ≠ '"') (hbackslash : c ≠ '\\') (hcontrol : 32 ≤ c.toNat) :
      CharSpelling [c] c
  | short {e c : Char} (h : shortEscape? e = some c) : CharSpelling ['\\', e] c
  | numbered {x₁ x₂ x₃ x₄ : Char} {n : Nat} (h : hexWord? x₁ x₂ x₃ x₄ = some n)
      (hlead : isLead n = false) (htrail : isTrail n = false) :
      CharSpelling ['\\', 'u', x₁, x₂, x₃, x₄] (Char.ofNat n)
  | pair {x₁ x₂ x₃ x₄ y₁ y₂ y₃ y₄ : Char} {n m : Nat} (hn : hexWord? x₁ x₂ x₃ x₄ = some n)
      (hm : hexWord? y₁ y₂ y₃ y₄ = some m) (hlead : isLead n = true) (htrail : isTrail m = true) :
      CharSpelling ['\\', 'u', x₁, x₂, x₃, x₄, '\\', 'u', y₁, y₂, y₃, y₄]
        (Char.ofNat ((n - 0xD800) * 0x400 + (m - 0xDC00) + 0x10000))

/-- **Is a text between quotes one of a string of these characters?** -/
inductive Written : List Char → List Char → Prop where
  | nil : Written [] []
  | cons {text rest chars : List Char} {c : Char} (first : CharSpelling text c)
      (others : Written rest chars) : Written (text ++ rest) (c :: chars)

theorem readUnits_plain (read : List Unit16) {c : Char} (hquote : c ≠ '"') (hbackslash : c ≠ '\\')
    (hcontrol : 32 ≤ c.toNat) (rest : List Char) :
    readUnits read (c :: rest) = readUnits (.char c :: read) rest := by
  rw [readUnits]
  · simp [hbackslash, Nat.not_lt.2 hcontrol]
  -- The earlier patterns of the reader, which are for quotes and backslashes.
  · exact hquote
  · intro a b c' d rest' h
    exact absurd h hbackslash
  · intro e rest' h
    exact absurd h hbackslash

theorem readUnits_short (read : List Unit16) {e c : Char} (h : shortEscape? e = some c)
    (rest : List Char) :
    readUnits read ('\\' :: e :: rest) = readUnits (.char c :: read) rest := by
  rw [readUnits]
  · rw [h]
  · rintro a b c' d rest' rfl
    cases h

theorem readUnits_numbered (read : List Unit16) {x₁ x₂ x₃ x₄ : Char} {n : Nat}
    (h : hexWord? x₁ x₂ x₃ x₄ = some n) (rest : List Char) :
    readUnits read ('\\' :: 'u' :: x₁ :: x₂ :: x₃ :: x₄ :: rest)
      = readUnits (.code n :: read) rest := by
  rw [readUnits, h]

/-- A code unit that is no surrogate spells its character. -/
theorem spell_code {n : Nat} (hlead : isLead n = false) (htrail : isTrail n = false)
    (spelt : List Char) (units : List Unit16) :
    spell spelt (.code n :: units) = spell (Char.ofNat n :: spelt) units := by
  cases units with
  | nil => simp [spell, hlead, htrail]
  | cons unit units => cases unit <;> simp [spell, hlead, htrail]

/-- **What is written for a character is read as parts that spell it.** -/
theorem CharSpelling.read {text : List Char} {c : Char} (h : CharSpelling text c) :
    ∃ units, (∀ read rest, readUnits read (text ++ rest) = readUnits (units.reverse ++ read) rest)
      ∧ ∀ spelt more, spell spelt (units ++ more) = spell (c :: spelt) more := by
  cases h with
  | plain hquote hbackslash hcontrol =>
      exact ⟨[.char c], fun read rest => readUnits_plain read hquote hbackslash hcontrol rest,
        fun spelt more => by rw [List.singleton_append, spell]⟩
  | short h =>
      exact ⟨[.char c], fun read rest => readUnits_short read h rest,
        fun spelt more => by rw [List.singleton_append, spell]⟩
  | @numbered _ _ _ _ n h hlead htrail =>
      exact ⟨[.code n], fun read rest => readUnits_numbered read h rest,
        fun spelt more => spell_code hlead htrail spelt more⟩
  | @pair _ _ _ _ _ _ _ _ n m hn hm hlead htrail =>
      refine ⟨[.code n, .code m], fun read rest => ?_, fun spelt more => ?_⟩
      · exact (readUnits_numbered read hn _).trans (readUnits_numbered _ hm rest)
      · show spell spelt (.code n :: .code m :: more) = _
        rw [spell, if_pos hlead, if_pos htrail]

/-- **So is what is written for a string**, up to its closing quote. -/
theorem Written.read {text chars : List Char} (h : Written text chars) :
    ∃ units, (∀ read rest, readUnits read (text ++ '"' :: rest) = some (read.reverse ++ units, rest))
      ∧ ∀ spelt, spell spelt units = some (spelt.reverse ++ chars) := by
  induction h with
  | nil =>
      refine ⟨[], fun read rest => ?_, fun spelt => ?_⟩
      · rw [List.nil_append, readUnits, List.append_nil]
      · rw [spell, List.append_nil]
  | cons first others ih =>
      obtain ⟨part, hpart, hspells⟩ := first.read
      obtain ⟨parts, hparts, hspell⟩ := ih
      refine ⟨part ++ parts, fun read rest => ?_, fun spelt => ?_⟩
      · rw [List.append_assoc, hpart, hparts]
        simp
      · rw [hspells, hspell]
        simp

/-- **A string reads back**, however it is written. -/
theorem readString_written {text : List Char} {s : String} (h : Written text s.toList)
    (rest : List Char) : readString (text ++ '"' :: rest) = some (some s, rest) := by
  obtain ⟨units, hunits, hspell⟩ := h.read
  unfold readString
  rw [hunits]
  simp [hspell]

theorem hexWord?_control : ∀ n < 32,
    hexWord? '0' '0' (Nat.digitChar (n / 16)) (Nat.digitChar (n % 16)) = some n := by
  decide

theorem not_surrogate_of_lt {n : Nat} (h : n < 0xD800) : isLead n = false ∧ isTrail n = false := by
  unfold isLead isTrail
  simp only [Bool.and_eq_false_iff, decide_eq_false_iff_not]
  omega

/-- **What the renderer writes for a character** is one of the ways to write it. -/
theorem spelling_escapeChar (c : Char) : CharSpelling (escapeChar c) c := by
  unfold escapeChar
  by_cases hquote : c = '"'
  · subst hquote
    exact .short rfl
  by_cases hbackslash : c = '\\'
  · subst hbackslash
    exact .short rfl
  by_cases hback : c = '\x08'
  · subst hback
    exact .short rfl
  by_cases hfeed : c = '\x0c'
  · subst hfeed
    exact .short rfl
  by_cases hline : c = '\n'
  · subst hline
    exact .short rfl
  by_cases hreturn : c = '\r'
  · subst hreturn
    exact .short rfl
  by_cases htab : c = '\t'
  · subst htab
    exact .short rfl
  simp only [hquote, hbackslash, hback, hfeed, hline, hreturn, htab, if_false]
  by_cases hcontrol : c.toNat < 32
  · obtain ⟨hlead, htrail⟩ := not_surrogate_of_lt (n := c.toNat) (by omega)
    have hnumbered := CharSpelling.numbered (hexWord?_control c.toNat hcontrol) hlead htrail
    rw [Char.ofNat_toNat] at hnumbered
    rw [if_pos hcontrol]
    exact hnumbered
  · rw [if_neg hcontrol]
    exact .plain hquote hbackslash (Nat.not_lt.1 hcontrol)

/-- So is what it writes for a string. -/
theorem written_escaped (chars : List Char) : Written (chars.flatMap escapeChar) chars := by
  induction chars with
  | nil => exact .nil
  | cons c chars ih => exact .cons (spelling_escapeChar c) ih

/-! ## §2. Digits. -/

/-- The digit that a character stands for. -/
def digitValue (c : Char) : Nat := c.toNat - '0'.toNat

theorem isDigit_iff {c : Char} : isDigit c = true ↔ c.isDigit = true := by
  unfold isDigit Char.isDigit
  rfl

theorem readDigits_cons (c : Char) (text : List Char) : readDigits (c :: text) =
    if isDigit c then (digitValue c :: (readDigits text).1, (readDigits text).2)
    else ([], c :: text) := by
  unfold readDigits
  by_cases hc : isDigit c = true
  · rw [if_pos hc, List.takeWhile_cons_of_pos hc, List.dropWhile_cons_of_pos hc]
    rfl
  · rw [if_neg hc, List.takeWhile_cons_of_neg hc, List.dropWhile_cons_of_neg hc]
    rfl

/-- A text of digits is read to its end. -/
theorem readDigits_of_all {digits : List Char} (h : ∀ c ∈ digits, isDigit c = true) :
    readDigits digits = (digits.map digitValue, []) := by
  induction digits with
  | nil => rfl
  | cons c digits ih =>
      obtain ⟨hc, hrest⟩ := List.forall_mem_cons.1 h
      rw [readDigits_cons, if_pos hc, ih hrest]
      rfl

theorem isDigit_of_mem_toDigits {n : Nat} {c : Char} (h : c ∈ Nat.toDigits 10 n) :
    isDigit c = true :=
  isDigit_iff.2 (Nat.isDigit_of_mem_toDigits (by decide) (by decide) h)

/-- The digits of a number other than zero do not start with a zero. -/
theorem digits_of_pos {n : Nat} (hpos : 0 < n) : ∃ first others,
    (Nat.toDigits 10 n).map digitValue = first :: others ∧ first ≠ 0 := by
  induction n using Nat.strongRecOn with
  | ind n ih =>
      by_cases hsmall : n < 10
      · rw [Nat.toDigits_of_lt_base hsmall]
        refine ⟨n.digitChar.toNat - 48, [], rfl, ?_⟩
        rw [Nat.toNat_digitChar_sub_48_of_lt_ten hsmall]
        omega
      · rw [Nat.toDigits_of_base_le (by decide) (by omega), List.map_append]
        obtain ⟨first, others, hdigits, hfirst⟩ := ih (n / 10) (by omega) (by omega)
        rw [hdigits]
        exact ⟨first, _, rfl, hfirst⟩

/-- The digits of a number spell it. -/
theorem ofDigits_digits (n : Nat) : Numeral.ofDigits ((Nat.toDigits 10 n).map digitValue) = n := by
  have hvalue : Nat.ofDigitChars 10 (Nat.toDigits 10 n) 0 = n := Nat.ofDigitChars_ten_toDigits
  rw [Nat.ofDigitChars_eq_foldl] at hvalue
  unfold Numeral.ofDigits
  rw [List.foldl_map]
  refine Eq.trans ?_ hvalue
  congr 1
  funext word c
  rw [Nat.mul_comm]
  rfl

/-! ## §3. Numerals, part by part. -/

/-- What holds of a character holds of the first one of a text that it starts. -/
theorem forall_mem_head {P : Char → Prop} {c : Char} (h : P c) (text : List Char) :
    ∀ c' ∈ (c :: text).head?, P c' := by
  intro c' hc'
  exact Option.some.inj hc' ▸ h

theorem readFraction_point (text : List Char) : readFraction ('.' :: text) =
    if (readDigits text).1 = [] then none
    else some (some (readDigits text).1, (readDigits text).2) := by
  rw [readFraction]
  generalize readDigits text = read
  obtain ⟨digits, after⟩ := read
  cases digits <;> rfl

theorem readFraction_other {text : List Char} (h : ∀ c ∈ text.head?, c ≠ '.') :
    readFraction text = some (none, text) := by
  unfold readFraction
  split
  next rest => exact absurd rfl (h '.' rfl)
  next => rfl

/-- The sign that a text starts with, if it is a minus, and what follows a sign. -/
def signOf : List Char → Bool × List Char
  | '-' :: rest => (true, rest)
  | '+' :: rest => (false, rest)
  | rest => (false, rest)

/-- The digits of an exponent, behind its sign. -/
theorem digitsOf_eq (negative : Bool) (text : List Char) :
    (match readDigits text with
      | ([], _) => none
      | (digits, rest) => some (some (negative, digits), rest))
      = if (readDigits text).1 = [] then none
        else some (some (negative, (readDigits text).1), (readDigits text).2) := by
  generalize readDigits text = read
  obtain ⟨digits, after⟩ := read
  cases digits <;> rfl

theorem readExponent_mark {c : Char} (hc : c = 'e' ∨ c = 'E') (text : List Char) :
    readExponent (c :: text) =
      if (readDigits (signOf text).2).1 = [] then none
      else some (some ((signOf text).1, (readDigits (signOf text).2).1),
        (readDigits (signOf text).2).2) := by
  have hmark : (c = 'e' || c = 'E') = true := by
    rcases hc with rfl | rfl <;> rfl
  unfold readExponent
  simp only [hmark, if_true]
  split
  next rest => exact digitsOf_eq true rest
  next rest => exact digitsOf_eq false rest
  next hminus hplus =>
    have hsign : signOf text = (false, text) := by
      unfold signOf
      split
      next rest => exact absurd rfl (hminus rest)
      next rest => exact absurd rfl (hplus rest)
      next => rfl
    rw [hsign]
    exact digitsOf_eq false text

theorem readExponent_other {text : List Char} (h : ∀ c ∈ text.head?, c ≠ 'e' ∧ c ≠ 'E') :
    readExponent text = some (none, text) := by
  cases text with
  | nil => rfl
  | cons c text =>
      obtain ⟨he, hE⟩ := h c rfl
      unfold readExponent
      simp [he, hE]

/-- Digits that may stand before the point: a zero alone, or no zero in front. -/
def Whole (digits : List Nat) : Prop :=
  digits = [0] ∨ ∃ first others, digits = first :: others ∧ first ≠ 0

theorem readUnsigned_of_whole {text : List Char} (negative : Bool)
    (h : Whole (readDigits text).1) : readUnsigned negative text = (do
      let (fraction, after) ← readFraction (readDigits text).2
      let (exponent, after) ← readExponent after
      return (⟨negative, (readDigits text).1, fraction, exponent⟩, after)) := by
  unfold readUnsigned
  generalize readDigits text = read at h ⊢
  obtain ⟨digits, after⟩ := read
  rcases h with rfl | ⟨first, others, rfl, hfirst⟩
  · rfl
  · obtain ⟨before, rfl⟩ : ∃ before, first = before + 1 := ⟨first - 1, by omega⟩
    rfl

theorem whole_of_readUnsigned {text : List Char} {negative : Bool} {read : Numeral × List Char}
    (h : readUnsigned negative text = some read) : Whole (readDigits text).1 := by
  unfold readUnsigned at h
  generalize readDigits text = digitsRead at h ⊢
  obtain ⟨digits, after⟩ := digitsRead
  rcases digits with _ | ⟨_ | first, others⟩
  · cases h
  · cases others with
    | nil => exact .inl rfl
    | cons second others => cases h
  · exact .inr ⟨first + 1, others, rfl, Nat.succ_ne_zero first⟩

/-! ## §4. What is left of a text. -/

theorem readDigits_suffix (text : List Char) : (readDigits text).2 <:+ text :=
  List.dropWhile_suffix isDigit

theorem readFraction_suffix {text left : List Char} {fraction : Option (List Nat)}
    (h : readFraction text = some (fraction, left)) : left <:+ text := by
  cases text with
  | nil =>
      cases h
      exact List.suffix_rfl
  | cons c text =>
      by_cases hpoint : c = '.'
      · subst hpoint
        rw [readFraction_point] at h
        split at h
        next => cases h
        next =>
          cases h
          exact (readDigits_suffix text).trans (List.suffix_cons '.' text)
      · rw [readFraction_other (forall_mem_head hpoint text)] at h
        cases h
        exact List.suffix_rfl

theorem signOf_suffix (text : List Char) : (signOf text).2 <:+ text := by
  unfold signOf
  split
  next rest => exact List.suffix_cons '-' rest
  next rest => exact List.suffix_cons '+' rest
  next => exact List.suffix_rfl

theorem readExponent_suffix {text left : List Char} {exponent : Option (Bool × List Nat)}
    (h : readExponent text = some (exponent, left)) : left <:+ text := by
  cases text with
  | nil =>
      cases h
      exact List.suffix_rfl
  | cons c text =>
      by_cases hmark : c = 'e' ∨ c = 'E'
      · rw [readExponent_mark hmark] at h
        split at h
        next => cases h
        next =>
          cases h
          exact ((readDigits_suffix _).trans (signOf_suffix text)).trans (List.suffix_cons c text)
      · rw [readExponent_other (forall_mem_head (not_or.1 hmark) text)] at h
        cases h
        exact List.suffix_rfl

theorem readUnsigned_suffix {text left : List Char} {negative : Bool} {n : Numeral}
    (h : readUnsigned negative text = some (n, left)) : left <:+ text := by
  rw [readUnsigned_of_whole negative (whole_of_readUnsigned h)] at h
  cases hfraction : readFraction (readDigits text).2 with
  | none =>
      rw [hfraction] at h
      cases h
  | some read =>
      obtain ⟨fraction, after⟩ := read
      rw [hfraction] at h
      simp only [Option.bind_eq_bind, Option.bind_some] at h
      cases hexponent : readExponent after with
      | none =>
          rw [hexponent] at h
          cases h
      | some read =>
          obtain ⟨exponent, last⟩ := read
          rw [hexponent] at h
          cases h
          exact ((readExponent_suffix hexponent).trans (readFraction_suffix hfraction)).trans
            (readDigits_suffix text)

/-- What is left of a text behind a numeral is the end of it. -/
theorem readNumeral_suffix {text left : List Char} {n : Numeral}
    (h : readNumeral text = some (n, left)) : left <:+ text := by
  unfold readNumeral at h
  split at h
  next rest => exact (readUnsigned_suffix h).trans (List.suffix_cons '-' rest)
  next => exact readUnsigned_suffix h

/-! ## §5. Numerals before other text. -/

/-- What may follow a numeral without being part of it. -/
def EndsNumeral (rest : List Char) : Prop :=
  ∀ c ∈ rest.head?, isDigit c = false ∧ c ≠ '.' ∧ c ≠ 'e' ∧ c ≠ 'E'

section Appended

variable {text left rest : List Char}

theorem readDigits_append (text : List Char) (hrest : EndsNumeral rest) :
    readDigits (text ++ rest) = ((readDigits text).1, (readDigits text).2 ++ rest) := by
  induction text with
  | nil =>
      cases rest with
      | nil => rfl
      | cons c rest =>
          have hc : isDigit c = false := (hrest c rfl).1
          rw [List.nil_append, readDigits_cons, hc]
          rfl
  | cons c text ih =>
      rw [List.cons_append, readDigits_cons, readDigits_cons, ih]
      split <;> rfl

theorem readFraction_append {fraction : Option (List Nat)}
    (h : readFraction text = some (fraction, left)) (hrest : EndsNumeral rest) :
    readFraction (text ++ rest) = some (fraction, left ++ rest) := by
  cases text with
  | nil =>
      cases h
      exact readFraction_other fun c hc => (hrest c hc).2.1
  | cons c text =>
      by_cases hpoint : c = '.'
      · subst hpoint
        rw [readFraction_point] at h
        rw [List.cons_append, readFraction_point, readDigits_append text hrest]
        split at h
        next => cases h
        next hdigits =>
          cases h
          rw [if_neg hdigits]
      · rw [readFraction_other (forall_mem_head hpoint text)] at h
        cases h
        exact readFraction_other (forall_mem_head hpoint (text ++ rest))

/-- A sign that a text starts with, it starts with before other text too. -/
theorem signOf_append (htext : text ≠ []) (rest : List Char) :
    signOf (text ++ rest) = ((signOf text).1, (signOf text).2 ++ rest) := by
  cases text with
  | nil => exact absurd rfl htext
  | cons c text =>
      unfold signOf
      split
      next heq =>
        obtain ⟨rfl, rfl⟩ := List.cons.inj heq
        rfl
      next heq =>
        obtain ⟨rfl, rfl⟩ := List.cons.inj heq
        rfl
      next hminus hplus =>
        split
        next heq => exact absurd (congrArg (· ++ rest) heq) (hminus _)
        next heq => exact absurd (congrArg (· ++ rest) heq) (hplus _)
        next => rfl

theorem readExponent_append {exponent : Option (Bool × List Nat)}
    (h : readExponent text = some (exponent, left)) (hrest : EndsNumeral rest) :
    readExponent (text ++ rest) = some (exponent, left ++ rest) := by
  cases text with
  | nil =>
      cases h
      exact readExponent_other fun c hc => (hrest c hc).2.2
  | cons c text =>
      by_cases hmark : c = 'e' ∨ c = 'E'
      · have htext : text ≠ [] := by
          rintro rfl
          rw [readExponent_mark hmark] at h
          cases h
        rw [readExponent_mark hmark] at h
        rw [List.cons_append, readExponent_mark hmark, signOf_append htext,
          readDigits_append _ hrest]
        split at h
        next => cases h
        next hdigits =>
          cases h
          rw [if_neg hdigits]
      · rw [readExponent_other (forall_mem_head (not_or.1 hmark) text)] at h
        cases h
        exact readExponent_other (forall_mem_head (not_or.1 hmark) (text ++ rest))

theorem readUnsigned_append {negative : Bool} {n : Numeral}
    (h : readUnsigned negative text = some (n, left)) (hrest : EndsNumeral rest) :
    readUnsigned negative (text ++ rest) = some (n, left ++ rest) := by
  have hwhole := whole_of_readUnsigned h
  have hdigits := readDigits_append text hrest
  rw [readUnsigned_of_whole negative hwhole] at h
  rw [readUnsigned_of_whole negative (by rw [hdigits]; exact hwhole), hdigits]
  cases hfraction : readFraction (readDigits text).2 with
  | none =>
      rw [hfraction] at h
      cases h
  | some read =>
      obtain ⟨fraction, after⟩ := read
      rw [readFraction_append hfraction hrest]
      rw [hfraction] at h
      simp only [Option.bind_eq_bind, Option.bind_some] at h ⊢
      cases hexponent : readExponent after with
      | none =>
          rw [hexponent] at h
          cases h
      | some read =>
          obtain ⟨exponent, last⟩ := read
          rw [readExponent_append hexponent hrest]
          rw [hexponent] at h
          cases h
          rfl

/-- **What is a numeral alone is one before other text.** -/
theorem readNumeral_append {n : Numeral} (h : readNumeral text = some (n, left))
    (hrest : EndsNumeral rest) : readNumeral (text ++ rest) = some (n, left ++ rest) := by
  cases text with
  | nil => cases h
  | cons c text =>
      by_cases hminus : c = '-'
      · subst hminus
        exact readUnsigned_append h hrest
      · have hother : ∀ tail : List Char, readNumeral (c :: tail) = readUnsigned false (c :: tail) := by
          intro tail
          unfold readNumeral
          split
          next heq => exact absurd (List.cons.inj heq).1 hminus
          next => rfl
        rw [hother] at h
        rw [List.cons_append, hother]
        exact readUnsigned_append h hrest

end Appended

/-! ## §6. Integers. -/

/-- The numeral of an integer. -/
def intNumeral (n : Int) : Numeral where
  negative := n < 0
  whole := (Nat.toDigits 10 n.natAbs).map digitValue
  fraction := none
  exponent := none

theorem whole_digits (n : Nat) : Whole ((Nat.toDigits 10 n).map digitValue) := by
  rcases Nat.eq_zero_or_pos n with rfl | hpos
  · exact .inl rfl
  · exact .inr (digits_of_pos hpos)

/-- The digits of a number are read as a numeral. -/
theorem readUnsigned_toDigits (negative : Bool) (n : Nat) :
    readUnsigned negative (Nat.toDigits 10 n)
      = some (⟨negative, (Nat.toDigits 10 n).map digitValue, none, none⟩, []) := by
  have hread := readDigits_of_all fun c hc => isDigit_of_mem_toDigits (n := n) (c := c) hc
  rw [readUnsigned_of_whole negative (by rw [hread]; exact whole_digits n), hread]
  rfl

/-- **An integer is read as its numeral.** -/
theorem readNumeral_intChars (n : Int) : readNumeral (intChars n) = some (intNumeral n, []) := by
  unfold intChars intNumeral
  by_cases hnegative : n < 0
  · rw [if_pos hnegative, decide_eq_true hnegative]
    exact readUnsigned_toDigits true n.natAbs
  · rw [if_neg hnegative, decide_eq_false hnegative]
    have hunsigned := readUnsigned_toDigits false n.natAbs
    unfold readNumeral
    split
    next heq =>
      -- No digit is a minus sign.
      have hmem : '-' ∈ Nat.toDigits 10 n.natAbs := heq ▸ List.mem_cons_self
      cases isDigit_of_mem_toDigits hmem
    next => exact hunsigned

/-- Digits behind a number never make it smaller. -/
theorem le_foldl_digits (digits : List Nat) : ∀ word : Nat,
    word ≤ digits.foldl (fun n d => n * 10 + d) word := by
  induction digits with
  | nil => exact fun word => Nat.le_refl word
  | cons d digits ih =>
      intro word
      exact Nat.le_trans (by omega) (ih (word * 10 + d))

/-- A word that the digits spell is gathered to the end. -/
theorem gather_eq {digits : List Nat} : ∀ {word : Nat},
    digits.foldl (fun n d => n * 10 + d) word < Word.size →
      Numeral.gather word digits = (digits.foldl (fun n d => n * 10 + d) word, []) := by
  induction digits with
  | nil => intro word _; rfl
  | cons d digits ih =>
      intro word h
      have hfits : word * 10 + d < Word.size := Nat.lt_of_le_of_lt (le_foldl_digits digits _) h
      unfold Numeral.gather
      rw [if_pos hfits]
      exact ih h

/-- The digits of a number that fits a word are all gathered. -/
theorem gather_toDigits {n : Nat} (h : n < Word.size) :
    Numeral.gather 0 ((Nat.toDigits 10 n).map digitValue) = (n, []) := by
  have hvalue : ((Nat.toDigits 10 n).map digitValue).foldl (fun n d => n * 10 + d) 0 = n :=
    ofDigits_digits n
  rw [gather_eq (by rw [hvalue]; exact h), hvalue]

/-- **The numeral of an integer denotes it**, if it fits a word. -/
theorem number_intNumeral {n : Int} (h : fitsWord n = true) :
    (intNumeral n).number = some (.int n) := by
  have hbounds : -(Word.half : Int) ≤ n ∧ n < (Word.size : Int) := by
    simpa [fitsWord] using h
  have hsize : n.natAbs < Word.size := by
    unfold Word.half Word.size at *
    omega
  have hnumber : (intNumeral n).number
      = if n < 0 then
          if n.natAbs = 0 ∨ Word.half < n.natAbs then some (.float (Double.ofNat n.natAbs).neg)
          else some (.int (-n.natAbs))
        else some (.int n.natAbs) := by
    unfold Numeral.number intNumeral
    simp only [gather_toDigits hsize, and_self, if_true, decide_eq_true_eq]
    by_cases hnegative : n < 0
    · simp only [if_pos hnegative]
    · simp only [if_neg hnegative]
  rw [hnumber]
  by_cases hnegative : n < 0
  · -- Neither a zero with a sign nor a number below all words is a float here.
    have hhalf : ¬ (n.natAbs = 0 ∨ Word.half < n.natAbs) := by
      unfold Word.half at *
      omega
    rw [if_pos hnegative, if_neg hhalf, show -(n.natAbs : Int) = n by omega]
  · rw [if_neg hnegative, show (n.natAbs : Int) = n by omega]

end AnnotationCache.Json
