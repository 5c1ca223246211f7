/-
  AnnotationCache.Yaml.Scalar
  ───────────────────────────
  **WHAT A SCALAR MEANS WHERE ANY VALUE MAY STAND.**

  A quoted scalar is a text.  A plain one is null, a boolean, an integer or a
  float if it is spelt like one, and otherwise a text.  A tag may ask for one
  of these kinds; then a spelling of another kind is a fault.
-/
import AnnotationCache.Json.Value
import AnnotationCache.Yaml.Token

namespace AnnotationCache.Yaml

/-! ## §1. Words. -/

/-- Is this a word for null? -/
def isNullWord (text : String) : Bool :=
  ["~", "null", "Null", "NULL"].contains text

/-- The words for booleans. -/
def booleanWords : List (String × Bool) :=
  [("true", true), ("True", true), ("TRUE", true),
   ("false", false), ("False", false), ("FALSE", false)]

/-- The words for infinity. -/
def infinityWords : List String :=
  [".inf", ".Inf", ".INF"]

/-- The words for what is no number. -/
def nanWords : List String :=
  [".nan", ".NaN", ".NAN"]

/-! ## §2. Integers. -/

/-- The number that digits spell in a radix of at most sixteen. -/
def naturalIn? (radix : Nat) (digits : List Char) : Option Nat := do
  if digits.isEmpty then none
  digits.foldlM
    (fun n c => do
      let d ← hexDigit? c
      if d < radix then some (n * radix + d) else none)
    0

/-- The radix that a mark stands for. -/
def radixOf? : Char → Option Nat
  | 'x' => some 16
  | 'o' => some 8
  | 'b' => some 2
  | _ => none

/-- Are these two digits or more, with a zero in front?  Such a text is not
taken for a number. -/
def isPadded (digits : List Char) : Bool :=
  digits.head? = some '0' ∧ 1 < digits.length ∧ digits.all Char.isDigit

/-- The number that a text without sign spells: in decimal, or after `0x`, `0o`
and `0b` in another radix. -/
def natural? (text : List Char) : Option Nat :=
  match text with
  | '0' :: mark :: digits =>
      match radixOf? mark with
      | some radix => naturalIn? radix digits
      | none => none
  | _ => naturalIn? 10 text

/-- The integer that a text spells, if it fits 128 bits. -/
def integer? (text : List Char) : Option Int := do
  match text with
  | '-' :: digits =>
      let n ← natural? digits
      if n ≤ Word.doubleHalf then some (-n) else none
  | '+' :: digits =>
      let n ← natural? digits
      if n < Word.doubleSize then some n else none
  | digits =>
      let n ← natural? digits
      if n < Word.doubleSize then some n else none

/-- An integer as a value; one that does not fit 64 bits is a fault. -/
def integerValue (n : Int) : Except Fault Json :=
  if Json.fitsWord n then .ok (.int n) else .error { reason := "integer out of range" }

/-! ## §3. Floats. -/

/-- The exponent at the end of a float: nothing, or a mark, a sign and digits. -/
def exponent? (text : List Char) : Option Int :=
  match text with
  | [] => some 0
  | mark :: rest =>
      if mark = 'e' ∨ mark = 'E' then
        match rest with
        | '-' :: digits => (naturalIn? 10 digits).map fun n => -(n : Int)
        | '+' :: digits => (naturalIn? 10 digits).map fun n => (n : Int)
        | digits => (naturalIn? 10 digits).map fun n => (n : Int)
      else none

/-- The finite float nearest to the number that a text without sign spells:
digits, of which some may stand behind a point, and perhaps an exponent. -/
def finite? (negative : Bool) (text : List Char) : Option Double := do
  let whole := text.takeWhile Char.isDigit
  let rest := text.dropWhile Char.isDigit
  let (fraction, rest) :=
    match rest with
    | '.' :: rest => (rest.takeWhile Char.isDigit, rest.dropWhile Char.isDigit)
    | _ => ([], rest)
  let digits ← naturalIn? 10 (whole ++ fraction)
  let exponent ← exponent? rest
  let x := Double.ofDecimal negative digits (exponent - fraction.length)
  if x.isFinite then some x else none

/-- The float that a text spells, as a value: infinities and what is no number
become null. -/
def float? (text : String) : Option Json :=
  if nanWords.contains text then some .null
  else
    let signed (negative : Bool) (rest : List Char) : Option Json :=
      if infinityWords.contains (String.ofList rest) then some .null
      else (finite? negative rest).map .float
    match text.toList with
    | '-' :: rest => signed true rest
    | '+' :: rest => signed false rest
    | rest => signed false rest

/-! ## §4. Scalars. -/

/-- The digits of a text behind its sign. -/
def unsigned (text : List Char) : List Char :=
  match text with
  | '-' :: rest => rest
  | '+' :: rest => rest
  | rest => rest

/-- **What a plain scalar without tag means.** -/
def plainValue (text : String) : Except Fault Json :=
  if text.isEmpty || isNullWord text then .ok .null
  else
    match booleanWords.lookup text with
    | some b => .ok (.bool b)
    | none =>
        match integer? text.toList with
        | some n => integerValue n
        | none =>
            if isPadded (unsigned text.toList) then .ok (.str text)
            else .ok ((float? text).getD (.str text))

/-- The kinds that a tag may ask for. -/
inductive CoreTag where
  | boolean
  | integer
  | float
  | null
  deriving DecidableEq, Repr

/-- The kind that a tag asks for. -/
def CoreTag.ofTag? (tag : Tag) : Option CoreTag :=
  [("bool", CoreTag.boolean), ("int", .integer), ("float", .float), ("null", .null)].findSome?
    fun (name, kind) => if tag = Tag.core name then some kind else none

/-- What a scalar means that has to be of a kind. -/
def CoreTag.value (kind : CoreTag) (text : String) : Except Fault Json :=
  let expect (what : String) (value : Option Json) : Except Fault Json :=
    match value with
    | some v => .ok v
    | none => .error { reason := "invalid value: string, expected " ++ what }
  match kind with
  | boolean => expect "a boolean" ((booleanWords.lookup text).map .bool)
  | integer =>
      match integer? text.toList with
      | some n => integerValue n
      | none => expect "an integer" none
  | float => expect "a float" (float? text)
  | null => expect "null" (if isNullWord text then some .null else none)

/-- **What a scalar means.**  A tag that only this document knows leaves the
meaning open only if it has no name. -/
def scalarValue (tag : Option Tag) (style : Style) (text : String) : Except Fault Json :=
  match tag with
  | none => if style = .plain then plainValue text else .ok (.str text)
  | some tag =>
      if tag.localName?.isSome then .error { reason := "invalid type: enum, expected any value" }
      else
        match CoreTag.ofTag? tag with
        | some kind => kind.value text
        | none => if tag.isLocal && style = .plain then plainValue text else .ok (.str text)

end AnnotationCache.Yaml
