/-
  AnnotationCache.Proofs.Store.RoundTrip
  ──────────────────────────────────────
  **WHAT WAS STORED IS FOUND.**

  A value that was stored under a key is found under it, whatever text the key
  is, as long as five more brackets fit around the values of its annotations.
  Where they do not, what was written is no entry, and getting the key fails.
  Storing the value again writes the text that is there.

  Main statements:
    * `CacheValue.textual_of_floatFree` — values without floats can be written;
    * `FolderCache.run_set`, `FolderCache.run_get_put` — setting, and getting what was set;
    * `Holds.lookup_insert`             — the same told of the texts in a folder;
    * `FolderCache.get_after_set`       — both on one disk, and setting again.
-/
import AnnotationCache.Proofs.Files.Written
import AnnotationCache.Proofs.Store.Entry
import AnnotationCache.Proofs.Store.Folder

namespace AnnotationCache

open AnnotationCache.Files (Disk Location)
open AnnotationCache.Files.Disk (PlainName)

/-! ## §1. Values. -/

namespace CacheValue

/-- Are the integers in a stored value, and its time, such that a word holds them, and
its objects in order? -/
def canonical : CacheValue → Bool
  | annotations list => list.all fun a => Json.canonicalMembers a.values.entries
  | timestamp t => -(Word.half : Int) ≤ t && t < Word.half

/-- Does no float occur in a stored value? -/
def floatFree : CacheValue → Bool
  | annotations list => list.all fun a => Json.floatFreeMembers a.values.entries
  | timestamp _ => true

/-- **A value without floats can be written so that it reads back.** -/
theorem textual_of_floatFree {v : CacheValue} (hv : v.canonical = true)
    (hfree : v.floatFree = true) : v.Textual := by
  cases v with
  | timestamp t =>
      rw [canonical, Bool.and_eq_true, decide_eq_true_eq, decide_eq_true_eq] at hv
      exact hv
  | annotations list =>
      intro a ha
      have hcanonical : Json.canonicalMembers a.values.entries = true := List.all_eq_true.1 hv a ha
      have hfloats : Json.floatFreeMembers a.values.entries = true := List.all_eq_true.1 hfree a ha
      exact ⟨hcanonical, Json.floatsReadBackMembers_of_floatFree _ hfloats⟩

end CacheValue

/-! ## §2. Requests. -/

namespace FolderCache

variable {cache : FolderCache} {d made : Disk} {key : String} {v : CacheValue} {loc : Location}

/-- The disk with the entry of a key at a place. -/
def recorded (made : Disk) (loc : Location) (key : String) (v : CacheValue) : Disk :=
  made.put loc (.file (.text (Entry.text ⟨key, v⟩)) made.now)

/-- **Setting writes the entry**, if its folder can be made and its file written. -/
theorem run_set (hmake : d.makeFolders cache.folder = (.ok ⟨⟩, made))
    (htakes : made.Takes (cache.entryPath key) loc) (v : CacheValue) :
    (cache.set Disk.files key v).run.run d = (.ok true, recorded made loc key v) :=
  run_set_of_write hmake (htakes.writeContent_eq _)

/-- **Getting reads the entry again**, if its values nest no deeper than it has room. -/
theorem run_get_put (htakes : made.Takes (cache.entryPath key) loc) (hv : v.Textual) :
    (cache.get Disk.files key).run.run (recorded made loc key v)
      = (if v.NestsWithin Entry.valueRoom then .ok (some v)
          else .error (.malformedEntry key Json.Problem.malformed.message),
        recorded made loc key v) := by
  have hread : (recorded made loc key v).readText (cache.entryPath key) = .ok (Entry.text ⟨key, v⟩) :=
    htakes.readText_put _ _
  rw [run_get_of_text hread, Entry.parse_text hv]
  by_cases hnests : v.NestsWithin Entry.valueRoom
  · simp only [if_pos hnests, if_pos]
  · simp only [if_neg hnests]

/-! ## §3. Texts of entries. -/

namespace Holds

theorem lookup_empty (key : String) : lookup Dict.empty key = .ok none := rfl

/-- **An entry that was written is found under its key**, and another key that has
its digest finds none. -/
theorem lookup_insert (texts : Dict String) (key other : String) {value : CacheValue}
    (hvalue : value.Storable) :
    lookup (texts.insert (entryName key) (Entry.text ⟨key, value⟩)) other
      = if entryName other = entryName key then .ok (if key = other then some value else none)
        else lookup texts other := by
  unfold lookup
  rw [Dict.get?_insert]
  by_cases hname : entryName other = entryName key
  · rw [if_pos hname, if_pos hname]
    dsimp only
    rw [hvalue.parse_text key]
  · rw [if_neg hname, if_neg hname]

end Holds

/-! ## §4. Round trips. -/

/-- **A value that was set is what is found under its key**, if the values of its
annotations nest no more than 122 arrays and objects; the key cannot be read if
one nests deeper.  What is found, set again, is written as the same text. -/
theorem get_after_set (hv : v.canonical = true) (hfree : v.floatFree = true)
    (hmake : d.makeFolders cache.folder = (.ok ⟨⟩, made))
    (htakes : made.Takes (cache.entryPath key) loc) :
    ∃ d', (cache.set Disk.files key v).run.run d = (.ok true, d')
      ∧ (cache.get Disk.files key).run.run d'
          = (if v.NestsWithin 122 then .ok (some v)
              else .error (.malformedEntry key Json.Problem.malformed.message), d')
      ∧ ∀ found, ((cache.get Disk.files key).run.run d').1 = .ok (some found) →
          ∃ d'' text, (cache.set Disk.files key found).run.run d' = (.ok true, d'')
            ∧ d'.readText (cache.entryPath key) = .ok text
            ∧ d''.readText (cache.entryPath key) = .ok text := by
  have htextual := CacheValue.textual_of_floatFree hv hfree
  have hget : (cache.get Disk.files key).run.run (recorded made loc key v)
      = (if v.NestsWithin 122 then .ok (some v)
          else .error (.malformedEntry key Json.Problem.malformed.message),
        recorded made loc key v) :=
    run_get_put htakes htextual
  refine ⟨recorded made loc key v, run_set hmake htakes v, hget, ?_⟩
  intro found hfound
  -- What is found is what was set, as nothing else is found under the key.
  have hsame : found = v := by
    rw [hget] at hfound
    by_cases hnests : v.NestsWithin 122
    · rw [if_pos hnests] at hfound
      exact (Option.some.inj (Except.ok.inj hfound)).symm
    · rw [if_neg hnests] at hfound
      cases hfound
  subst hsame
  have hagain : (recorded made loc key found).makeFolders cache.folder
      = (.ok ⟨⟩, recorded made loc key found) :=
    htakes.makeFolders_put (plainName_entryName key) hmake _ _
  have htakes' : (recorded made loc key found).Takes (cache.entryPath key) loc := htakes.put _ _
  exact ⟨_, _, run_set hagain htakes' found, htakes.readText_put _ _, htakes'.readText_put _ _⟩

/-- A disk without files, but with a folder for the cache. -/
def shownFolder : Disk :=
  ({} : Disk).put ["cache"] (.folder 0)

/-- A key with characters that are escaped. -/
def shownKey : String := "App\\\"Zo\u00eb\"\n#index"

/-- A value with the least and the greatest integer. -/
def shownValue : CacheValue :=
  .annotations [{ name := "Route"
                  values := Dict.ofList
                    [("path", .str "/\"\\\x00"),
                     ("range", .arr [.int (-9223372036854775808), .int 18446744073709551615])] }]

theorem plainName_cache : PlainName "cache" :=
  ⟨by decide, by decide, by decide, by decide, by decide, by decide⟩

theorem leads_shownFolder : shownFolder.Leads "cache" ["cache"] :=
  Files.Disk.leads_put_folder plainName_cache ⟨0, rfl⟩ rfl 0

theorem makeFolders_shownFolder :
    ({} : Disk).makeFolders "cache" = (.ok ⟨⟩, shownFolder) :=
  Files.Disk.makeFolders_plainName plainName_cache ⟨0, rfl⟩ rfl

theorem takes_shownFolder (key : String) :
    shownFolder.Takes (entryPath ⟨"cache"⟩ key) ["cache", entryName key] := by
  have hshort : (entryPath ⟨"cache"⟩ key).utf8ByteSize < 4096 :=
    short_of_utf8ByteSize (by decide) (by decide) key
  exact leads_shownFolder.takes (plainName_entryName key) hshort (.inl rfl)

theorem get_after_set_shownValue :
    shownValue.canonical = true ∧ shownValue.floatFree = true
      ∧ shownValue.NestsWithin 122
      ∧ ∃ d', (set Disk.files ⟨"cache"⟩ shownKey shownValue).run.run {} = (.ok true, d')
          ∧ (get Disk.files ⟨"cache"⟩ shownKey).run.run d' = (.ok (some shownValue), d') := by
  have hnests : shownValue.NestsWithin 122 := by decide
  obtain ⟨d', hset, hget, -⟩ := get_after_set (v := shownValue) (by decide) (by decide)
    makeFolders_shownFolder (takes_shownFolder shownKey)
  rw [if_pos hnests] at hget
  exact ⟨by decide, by decide, hnests, d', hset, hget⟩

end FolderCache

end AnnotationCache
