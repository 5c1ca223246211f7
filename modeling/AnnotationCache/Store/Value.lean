/-
  AnnotationCache.Store.Value
  ───────────────────────────
  **WHAT A CACHE STORES.**

  A cache stores results and markers.  In JSON a stored value is an object
  that says which of the two it is and then gives it; an entry of a cache on
  disk adds the key in front, so an entry that was written for another key can
  be told from the right one.
-/
import AnnotationCache.Annotation.Read

namespace AnnotationCache

/-- A cached result, or the marker of one. -/
inductive CacheValue where
  | annotations (list : List Annotation)
  | timestamp (seconds : Int)
  deriving Inhabited, Repr

namespace CacheValue

open Json (Place Reading Problem)

/-- The time in a marker. -/
def asTimestamp : CacheValue → Option Int
  | timestamp t => some t
  | annotations _ => none

/-- The list in a result. -/
def asAnnotations : CacheValue → Option (List Annotation)
  | annotations list => some list
  | timestamp _ => none

/-- Are two stored values equal, as values are equal? -/
def same : CacheValue → CacheValue → Bool
  | annotations xs, annotations ys =>
      xs.length == ys.length && (xs.zip ys).all fun (x, y) => x.same y
  | timestamp s, timestamp t => s == t
  | _, _ => false

/-- A stored value as a JSON object. -/
def toJson : CacheValue → Json
  | annotations list =>
      .obj [("type", .str "annotations"), ("data", .arr (list.map Annotation.toJson))]
  | timestamp t => .obj [("type", .str "timestamp"), ("data", .int t)]

/-! ## §1. Reading stored values. -/

/-- The two sorts of stored values, under the names they have in JSON, with how
what they hold is read. -/
def sorts : List (String × (Place → Reading CacheValue)) :=
  [("annotations", fun p => annotations <$> Annotation.readList Place.format p),
   ("timestamp", fun p => timestamp <$> p.int64)]

/-- What a stored value is called where something else stands in its place. -/
def title : String := "adjacently tagged enum CacheValue"

/-- The two members of a stored value that count. -/
inductive Part where
  | type
  | data

/-- The part that a member is, if it is one. -/
def Part.ofName : String → Option Part
  | "type" => some .type
  | "data" => some .data
  | _ => none

/-- The name of a part. -/
def Part.name : Part → String
  | .type => "type"
  | .data => "data"

/-- Passes over members that do not count, up to the next part. -/
def nextPart (p : Place) :
    List (Option String × Json.Tree) → Reading (Option (Part × Json.Tree × List (Option String × Json.Tree)))
  | [] => .ok none
  | (key, t) :: rest => do
      let some name := key | throw .malformed
      match Part.ofName name with
      | some part => return some (part, t, rest)
      | none =>
          (p.inside t).skip
          nextPart p rest

/-- Nothing that counts may follow once both parts are read. -/
def finish (p : Place) (closed : Bool) (v : CacheValue)
    (rest : List (Option String × Json.Tree)) : Reading CacheValue := do
  match ← nextPart p rest with
  | some (part, _, _) => throw (.duplicateField part.name)
  | none => if closed then return v else throw .malformed

/-- Reads a stored value from the members of an object.  Where the data comes
first it is held back until the type is known. -/
def readMembers (p : Place) (ms : List (Option String × Json.Tree)) (closed : Bool) :
    Reading CacheValue := do
  let missing (name : String) : Reading CacheValue :=
    throw (if closed then .missingField name else .malformed)
  match ← nextPart p ms with
  | none => missing "type"
  | some (.type, t, rest) =>
      let sort ← (p.inside t).variant sorts
      match ← nextPart p rest with
      | none => missing "data"
      | some (.type, _, _) => throw (.duplicateField "type")
      | some (.data, t, rest) => finish p closed (← sort (p.inside t)) rest
  | some (.data, data, rest) =>
      let _ ← (p.inside data).value
      match ← nextPart p rest with
      | none => missing "type"
      | some (.data, _, _) => throw (.duplicateField "data")
      | some (.type, t, rest) =>
          let sort ← (p.inside t).variant sorts
          finish p closed (← sort { p.inside data with strictness := .heldBack }) rest

/-- Reads a stored value from the items of an array: its type, then its data. -/
def readItems (p : Place) (closed : Bool) : List Json.Tree → Reading CacheValue
  | [] => if closed then .error (.invalidLength 0 title) else .error .malformed
  | [t] => do
      let _ ← (p.inside t).variantName sorts
      if closed then throw (.invalidLength 1 title) else throw .malformed
  | t :: data :: rest => do
      let sort ← (p.inside t).variantName sorts
      let v ← sort (p.inside data)
      if rest.isEmpty && closed then return v else throw .malformed

/-- **Reads a stored value.** -/
def read (p : Place) : Reading CacheValue :=
  match p.tree with
  | .obj ms closed => if p.room = 0 then .error .malformed else readMembers p ms closed
  | .arr ts closed => if p.room = 0 then .error .malformed else readItems p closed ts
  | .misfit => .error .malformed
  | _ => p.mismatch title

/-- Reads a whole text as a stored value. -/
def parse (text : String) : Reading CacheValue :=
  Json.decode read text

end CacheValue

/-! ## §2. Entries. -/

/-- A stored value with the key it is stored under. -/
structure Entry where
  key : String
  value : CacheValue
  deriving Inhabited, Repr

namespace Entry

open Json (Place Reading)

/-- An entry has a key and a value. -/
def schema : Schema Reading Place Entry where
  title := "struct StoredEntry"
  blank := ⟨"", .timestamp 0⟩
  fields :=
    [⟨"key", true, fun p => do
        let key ← p.string "a string"
        return ({ · with key := key })⟩,
     ⟨"value", true, fun p => do
        let value ← CacheValue.read p
        return ({ · with value := value })⟩]

/-- **The text of an entry.** -/
def text (e : Entry) : String :=
  (Json.obj [("key", .str e.key), ("value", e.value.toJson)]).compact

/-- **Reads the text of an entry.** -/
def parse (text : String) : Reading Entry :=
  Json.decode (·.record schema) text

end Entry

end AnnotationCache
