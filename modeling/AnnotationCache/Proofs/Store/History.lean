/-
  AnnotationCache.Proofs.Store.History
  ────────────────────────────────────
  **RUNS OF REQUESTS TO CACHES ON ONE FOLDER.**

  What a cache answers depends on what was set since it was last emptied, and on
  nothing else: not on which of the caches on a folder was used, nor on what
  else lies there.  Two keys of one digest share a file, so of these only the one
  that was set last is found.

  Main statements:
    * `lastSet_eq_some_iff`  — what is found under a key was set under that key;
    * `lookup_entries`      — the texts in the folder tell what the history tells;
    * `Stands.step`         — one request, by any of the caches;
    * `Ready.share`         — caches of one path share its folder;
    * `replies_of_run`      — a run of requests answers what its history tells, and
      changes nothing that was there before it.
-/
import AnnotationCache.Proofs.Store.RoundTrip
import Mathlib.Data.List.Dedup

namespace AnnotationCache.FolderCache

open AnnotationCache.Files (Disk Item ItemKind Location)
open AnnotationCache.Files.Disk (PlainName)

/-! ## §1. Requests and what they should answer. -/

/-- What is asked of a cache. -/
inductive Request where
  | get (key : String)
  | set (key : String) (value : CacheValue)
  | clear

/-- What comes of it. -/
inductive Reply where
  | found (value : Option CacheValue)
  | stored (done : Bool)
  | cleared (entries : Nat)

/-- The values that were set since the cache was last emptied, the latest first. -/
abbrev History := List (String × CacheValue)

/-- **What was set last under a key**, unless a key with the same digest was set after it. -/
def lastSet : History → String → Option CacheValue
  | [], _ => none
  | (k, v) :: earlier, key =>
      if k = key then some v
      else if Digest.Sha256.hex k = Digest.Sha256.hex key then none
      else lastSet earlier key

/-- The digests of the keys that were set. -/
def digests (history : History) : List String :=
  (history.map fun p => Digest.Sha256.hex p.1).dedup

/-- **What a request should answer**, and the history after it. -/
def reply (history : History) : Request → Reply × History
  | .get key => (.found (lastSet history key), history)
  | .set key value => (.stored true, (key, value) :: history)
  | .clear => (.cleared (digests history).length, [])

/-- What some requests should answer, one after the other. -/
def replies : History → List Request → List Reply
  | _, [] => []
  | history, request :: rest =>
      (reply history request).1 :: replies (reply history request).2 rest

/-- **What is found under a key was set under that key**, and since then no other key
with its digest was. -/
theorem lastSet_eq_some_iff {history : History} {key : String} {v : CacheValue} :
    lastSet history key = some v
      ↔ ∃ later earlier, history = later ++ (key, v) :: earlier
          ∧ ∀ p ∈ later, Digest.Sha256.hex p.1 ≠ Digest.Sha256.hex key := by
  induction history with
  | nil => simp [lastSet]
  | cons p earlier ih =>
      obtain ⟨k, value⟩ := p
      rw [lastSet]
      constructor
      · intro h
        by_cases hkey : k = key
        · rw [if_pos hkey] at h
          exact ⟨[], earlier, by rw [hkey, Option.some.inj h]; rfl, by simp⟩
        · rw [if_neg hkey] at h
          by_cases hdigest : Digest.Sha256.hex k = Digest.Sha256.hex key
          · rw [if_pos hdigest] at h
            cases h
          · rw [if_neg hdigest] at h
            obtain ⟨later, rest, rfl, hlater⟩ := ih.1 h
            exact ⟨(k, value) :: later, rest, rfl, List.forall_mem_cons.2 ⟨hdigest, hlater⟩⟩
      · rintro ⟨later, rest, hhistory, hlater⟩
        cases later with
        | nil =>
            cases hhistory
            exact if_pos rfl
        | cons q later =>
            cases hhistory
            obtain ⟨hdigest, hothers⟩ := List.forall_mem_cons.1 hlater
            rw [if_neg fun hkey => hdigest (congrArg _ hkey), if_neg hdigest]
            exact ih.2 ⟨later, rest, rfl, hothers⟩

/-! ## §2. The texts of a history. -/

/-- The texts that a folder holds after some values were set. -/
def entries : History → Dict String
  | [] => Dict.empty
  | (key, value) :: earlier =>
      (entries earlier).insert (entryName key) (Entry.text ⟨key, value⟩)

/-- Keys share the name of their entries exactly if they share their digest. -/
theorem entryName_eq_iff {key key' : String} :
    entryName key = entryName key' ↔ Digest.Sha256.hex key = Digest.Sha256.hex key' :=
  ⟨entryName_inj, fun h => by rw [entryName, entryName, h]⟩

/-- **The texts in the folder tell what the history tells**, if what was set reads back. -/
theorem lookup_entries {history : History} (h : ∀ p ∈ history, p.2.Storable) (key : String) :
    Holds.lookup (entries history) key = .ok (lastSet history key) := by
  induction history with
  | nil => rfl
  | cons p earlier ih =>
      obtain ⟨k, v⟩ := p
      obtain ⟨hv, hearlier⟩ := List.forall_mem_cons.1 h
      rw [entries, lastSet, Holds.lookup_insert (entries earlier) k key hv]
      by_cases hkey : k = key
      · rw [if_pos hkey, if_pos (by rw [hkey]), if_pos hkey]
      · rw [if_neg hkey, if_neg hkey]
        by_cases hdigest : Digest.Sha256.hex k = Digest.Sha256.hex key
        · rw [if_pos hdigest, if_pos (entryName_eq_iff.2 hdigest.symm)]
        · rw [if_neg hdigest, if_neg fun hname => hdigest (entryName_inj hname).symm]
          exact ih hearlier

theorem mem_keys_entries {history : History} {name : String} :
    name ∈ (entries history).keys ↔ ∃ p ∈ history, entryName p.1 = name := by
  induction history with
  | nil => simp [entries, Dict.mem_keys_iff]
  | cons p earlier ih =>
      obtain ⟨k, v⟩ := p
      rw [Dict.mem_keys_iff] at ih ⊢
      rw [entries, Dict.get?_insert]
      by_cases hname : name = entryName k
      · simp [hname]
      · simp [hname, ih, Ne.symm hname]

/-- **There is one text for each digest.** -/
theorem size_entries (history : History) : (entries history).size = (digests history).length := by
  -- The names of the texts are the digests, each with the same ending.
  have hnodup : ((digests history).map fun digest => digest ++ "." ++ entryExtension).Nodup := by
    refine (List.nodup_dedup _).map fun digest digest' hsame => ?_
    have hchars := congrArg String.toList hsame
    simp only [String.toList_append, List.append_assoc] at hchars
    exact String.toList_inj.1 (List.append_cancel_right hchars)
  have hmem : ∀ name, name ∈ (entries history).keys
      ↔ name ∈ (digests history).map fun digest => digest ++ "." ++ entryExtension := by
    intro name
    rw [mem_keys_entries]
    simp [digests, entryName]
  have hperm := (List.perm_ext_iff_of_nodup (entries history).nodup_keys hnodup).2 hmem
  rw [← Dict.length_keys, hperm.length_eq, List.length_map]

/-! ## §3. Caches on one folder. -/

/-- **Do some caches keep their entries in one folder**, which is there, or is made by the
first write of any of them, and in which nothing has the extension of entries? -/
structure Share (caches : FolderCache → Prop) (d : Disk) (loc : Location) : Prop where
  named : ∀ cache, caches cache → cache.folder ≠ ""
  short : ∀ cache, caches cache → ∀ key, (cache.entryPath key).utf8ByteSize < 4096
  made : ∀ cache, caches cache → ∃ made, d.makeFolders cache.folder = (.ok ⟨⟩, made)
    ∧ (∀ other, caches other → made.Leads other.folder loc)
    ∧ ∀ p ∈ made.listing loc, Files.Path.extension? p.1 ≠ some entryExtension

variable {caches : FolderCache → Prop} {start d : Disk} {loc : Location} {history : History}
  {cache : FolderCache}

namespace Share

variable (h : Share caches start loc)

include h

/-- Once one of the caches has made the folder, it is that of each, without texts. -/
theorem made_of_makeFolders (hcache : caches cache) :
    ∃ made, start.makeFolders cache.folder = (.ok ⟨⟩, made)
      ∧ start.Grows made
      ∧ ∀ other, caches other → other.Made made loc Dict.empty := by
  obtain ⟨made, hmake, hleads, hothers⟩ := h.made cache hcache
  exact ⟨made, hmake, Files.Disk.grows_of_makeFolders hmake, fun other hother =>
    made_empty (hleads other hother) (h.short other hother) hothers⟩

/-- At the start nothing is where entries will be. -/
theorem item?_eq_none (hcache : caches cache) (key : String) :
    start.item? (loc ++ [entryName key]) = none := by
  obtain ⟨made, -, hgrows, hmade⟩ := h.made_of_makeFolders hcache
  cases hitem : start.item? (loc ++ [entryName key]) with
  | none => rfl
  | some item =>
      have hnone := (hmade cache hcache).item?_eq_none (Dict.get?_empty (entryName key))
      cases hnone.symm.trans (hgrows.kept _ item hitem)

end Share

/-- **A folder that is ready is shared by all caches of its path.** -/
theorem Ready.share (h : cache.Ready start) : ∃ loc, Share (· = cache) start loc := by
  obtain ⟨made, items, hmake, hlist, hitems⟩ := h.made
  obtain ⟨loc, hleads, hlisting⟩ := Files.Disk.leads_of_list h.named hlist
  refine ⟨loc, ?_, ?_, ?_⟩
  · rintro _ rfl
    exact h.named
  · rintro _ rfl
    exact h.short
  · rintro _ rfl
    refine ⟨made, hmake, ?_, fun p hp => hitems p (hlisting ▸ hp)⟩
    rintro _ rfl
    exact hleads

/-! ## §4. Where a run stands. -/

/-- **Where a run stands**: nothing was set yet and the folder is not there, or the folder
holds the texts of the history; and all that was on the disk at the start is. -/
inductive Stands (caches : FolderCache → Prop) (start : Disk) (loc : Location) :
    Disk → History → Prop
  | unmade (hunmade : ∀ cache, caches cache → start.kind cache.folder ≠ some .folder
      ∧ ∀ key, start.readText (cache.entryPath key) = .error .notFound) :
      Stands caches start loc start []
  | made {d : Disk} {history : History}
      (hmade : ∀ cache, caches cache → cache.Made d loc (entries history))
      (hkept : ∀ place item, start.item? place = some item → d.item? place = some item)
      (hstored : ∀ p ∈ history, p.2.Storable) :
      Stands caches start loc d history

/-- All that was on the disk at the start is still there. -/
theorem Stands.kept (h : Stands caches start loc d history) :
    ∀ place item, start.item? place = some item → d.item? place = some item := by
  cases h with
  | unmade _ => exact fun place item hitem => hitem
  | made _ hkept _ => exact hkept

/-- **At the start nothing was set.** -/
theorem Share.stands (h : Share caches start loc) : Stands caches start loc start [] := by
  by_cases hthere : ∃ cache, caches cache ∧ ∃ there, start.Leads cache.folder there
  · -- The folder is there for one cache, so for each.
    obtain ⟨cache, hcache, there, hleads⟩ := hthere
    obtain ⟨made, hmake, -, hmade⟩ := h.made_of_makeFolders hcache
    obtain rfl : start = made := (Prod.mk.inj (hleads.makeFolders_eq.symm.trans hmake)).2
    exact .made hmade (fun place item hitem => hitem) (by simp)
  · refine .unmade fun cache hcache => ?_
    obtain ⟨made, hmake, -, hmade⟩ := h.made_of_makeFolders hcache
    rcases Files.Disk.leads_or_missing (h.named cache hcache) hmake with ⟨there, hleads⟩ | hmissing
    · exact absurd ⟨cache, hcache, there, hleads⟩ hthere
    · obtain ⟨hkind, hmissing, hroot⟩ := hmissing
      exact ⟨hkind, fun key => hmissing.readText_join (h.named cache hcache) hroot
        (plainName_entryName key) (h.short cache hcache key)⟩

/-- The texts in a folder are there at any later second. -/
theorem Made.later {texts : Dict String} (h : cache.Made d loc texts) (now : Int) :
    cache.Made { d with now := now } loc texts where
  leads := h.leads.keeps ⟨rfl, fun _ hfolder => hfolder, fun _ _ hlink => hlink⟩
  short := h.short
  named := h.named
  kept := h.kept
  listed := h.listed
  once := h.once

/-- **Where something was set, a run stands there at any later second.** -/
theorem Stands.later (h : Stands caches start loc d history) (hset : history ≠ []) (now : Int) :
    Stands caches start loc { d with now := now } history := by
  cases h with
  | unmade _ => exact absurd rfl hset
  | made hmade hkept hstored =>
      exact .made (fun cache hcache => (hmade cache hcache).later now) hkept hstored

/-- There the folder is. -/
theorem Stands.kind_eq (h : Stands caches start loc d history) (hset : history ≠ [])
    (hcache : caches cache) : d.kind cache.folder = some .folder := by
  cases h with
  | unmade _ => exact absurd rfl hset
  | made hmade _ _ => exact (hmade cache hcache).leads.kind_eq

/-! ## §5. Runs. -/

/-- Makes a request to a cache. -/
def perform (cache : FolderCache) : Request → ExceptT Error (StateM Disk) Reply
  | .get key => .found <$> cache.get Disk.files key
  | .set key value => .stored <$> cache.set Disk.files key value
  | .clear => .cleared <$> cache.clear Disk.files

/-- **A run of requests**, each to a cache of its own: what they answer, and the disk
after them. -/
def run : Disk → List (FolderCache × Request) → List (Except Error Reply) × Disk
  | d, [] => ([], d)
  | d, (cache, request) :: rest =>
      let (reply, d) := (cache.perform request).run.run d
      let (replies, d) := run d rest
      (reply :: replies, d)

/-- Is what a request sets without floats, and such that its entry has room for it? -/
def Request.Plain : Request → Prop
  | .set _ v => v.canonical = true ∧ v.floatFree = true ∧ v.NestsWithin 122
  | _ => True

namespace Stands

variable (h : Stands caches start loc d history) (hshare : Share caches start loc)
  (hcache : caches cache)

include h hcache

/-- **Getting answers what the history tells**, and changes nothing. -/
theorem run_get (key : String) :
    (cache.get Disk.files key).run.run d = (.ok (lastSet history key), d) := by
  cases h with
  | unmade hunmade => exact run_get_of_notFound ((hunmade cache hcache).2 key)
  | made hmade _ hstored =>
      have hget := (Holds.made (hmade cache hcache)).get_eq key
      rw [lookup_entries hstored] at hget
      exact hget

include hshare

/-- **Setting makes the value the latest of the history.** -/
theorem run_set (key : String) {v : CacheValue} (hv : v.Storable) :
    ∃ d', (cache.set Disk.files key v).run.run d = (.ok true, d')
      ∧ Stands caches start loc d' ((key, v) :: history) ∧ d'.current = d.current := by
  -- Before it is written the folder is there, made by this request or before it.
  have hfolder : ∃ made, d.makeFolders cache.folder = (.ok ⟨⟩, made)
      ∧ (∀ other, caches other → other.Made made loc (entries history))
      ∧ (∀ place item, start.item? place = some item → made.item? place = some item)
      ∧ made.current = d.current ∧ ∀ p ∈ history, p.2.Storable := by
    cases h with
    | unmade hunmade =>
        obtain ⟨made, hmake, hgrows, hmade⟩ := hshare.made_of_makeFolders hcache
        exact ⟨made, hmake, hmade, hgrows.kept, hgrows.current, by simp⟩
    | made hmade hkept hstored =>
        exact ⟨d, (hmade cache hcache).leads.makeFolders_eq, hmade, hkept, rfl, hstored⟩
  obtain ⟨made, hmake, hmade, hkept, hcurrent, hstored⟩ := hfolder
  refine ⟨_, (hmade cache hcache).run_set hmake key v, .made ?_ ?_ ?_, hcurrent⟩
  · exact fun other hother => (hmade other hother).put key _
  · intro place item hitem
    have hne : place ≠ loc ++ [entryName key] := by
      rintro rfl
      cases (hshare.item?_eq_none hcache key).symm.trans hitem
    rw [Files.Disk.item?_put (by simp), if_neg hne]
    exact hkept place item hitem
  · exact List.forall_mem_cons.2 ⟨hv, hstored⟩

/-- **Clearing tells how many digests there are in the history**, and empties it. -/
theorem run_clear :
    ∃ d', (cache.clear Disk.files).run.run d = (.ok (digests history).length, d')
      ∧ Stands caches start loc d' [] ∧ d'.current = d.current := by
  cases h with
  | unmade hunmade => exact ⟨start, run_clear_of_kind (hunmade cache hcache).1, .unmade hunmade, rfl⟩
  | made hmade hkept hstored =>
      have hclear := (hmade cache hcache).run_clear
      rw [size_entries] at hclear
      refine ⟨_, hclear, .made (fun other hother => (hmade other hother).dropAll_passing) ?_ (by simp),
        Files.Disk.current_dropAll _ _ _⟩
      intro place item hitem
      rw [Files.Disk.item?_dropAll, if_neg]
      · exact hkept place item hitem
      · -- What is dropped are entries, and at the start nothing was there.
        rintro ⟨name, hname, rfl⟩
        obtain ⟨text, htext⟩ := (hmade cache hcache).get?_of_passing hname
        obtain ⟨key, rfl⟩ := (hmade cache hcache).named name text htext
        cases (hshare.item?_eq_none hcache key).symm.trans hitem

/-- **A request answers what the history tells**, and leads to where the history goes. -/
theorem step {request : Request} (hrequest : request.Plain) :
    ∃ d', (cache.perform request).run.run d = (.ok (reply history request).1, d')
      ∧ Stands caches start loc d' (reply history request).2 := by
  cases request with
  | get key => exact ⟨d, run_map _ (h.run_get hcache key), h⟩
  | set key v =>
      obtain ⟨hcanonical, hfree, hnests⟩ := hrequest
      have hv : v.Storable := ⟨CacheValue.textual_of_floatFree hcanonical hfree, hnests⟩
      obtain ⟨d', hrun, hafter, -⟩ := h.run_set hshare hcache key hv
      exact ⟨d', run_map _ hrun, hafter⟩
  | clear =>
      obtain ⟨d', hrun, hafter, -⟩ := h.run_clear hshare hcache
      exact ⟨d', run_map _ hrun, hafter⟩

end Stands

/-- A run answers what its history tells, and stands where that has gone. -/
theorem Stands.replies (hshare : Share caches start loc)
    {requests : List (FolderCache × Request)}
    (hrequests : ∀ p ∈ requests, caches p.1 ∧ p.2.Plain)
    (h : Stands caches start loc d history) :
    (run d requests).1 = (FolderCache.replies history (requests.map Prod.snd)).map .ok
      ∧ ∃ later, Stands caches start loc (run d requests).2 later := by
  induction requests generalizing d history with
  | nil => exact ⟨rfl, history, h⟩
  | cons p requests ih =>
      obtain ⟨cache, request⟩ := p
      obtain ⟨⟨hcache, hrequest⟩, hrest⟩ := List.forall_mem_cons.1 hrequests
      obtain ⟨d', hrun, hafter⟩ := h.step hshare hcache hrequest
      obtain ⟨hreplies, hlater⟩ := ih hrest hafter
      unfold run
      rw [hrun]
      dsimp only
      rw [hreplies]
      exact ⟨rfl, hlater⟩

/-- **A run of requests to caches on one folder answers what its history tells**: each
key its last value since the folder was last emptied, unless a key with its digest
was set later, and each emptying the number of digests.  All that was on the disk at
the start stays as it is. -/
theorem replies_of_run (hshare : Share caches start loc)
    {requests : List (FolderCache × Request)}
    (hrequests : ∀ p ∈ requests, caches p.1 ∧ p.2.Plain) :
    (run start requests).1 = (replies [] (requests.map Prod.snd)).map .ok
      ∧ ∀ place item, start.item? place = some item →
          (run start requests).2.item? place = some item := by
  obtain ⟨hreplies, later, hstands⟩ := hshare.stands.replies hshare hrequests
  exact ⟨hreplies, hstands.kept⟩

/-! ## §6. Two spellings of one folder. -/

/-- The path `./cache` leads where `cache` does. -/
theorem locate_pointCache {d : Disk} (hcurrent : d.current = []) (f : Bool)
    (hlink : d.target? ["cache"] = none) : d.locate "./cache" f = .ok ["cache"] := by
  have hnames : Files.Disk.names "./cache" = [".", "cache"] := by decide
  have hstart : d.startAt "./cache" = [] := hcurrent
  have hroot : d.IsFolder [] := ⟨0, rfl⟩
  have hmet : d.met? [] "cache" = none := by
    unfold Files.Disk.met?
    rw [if_neg (by decide)]
    exact hlink
  rw [Files.Disk.Followed.locate_eq ⟨by decide, by decide, by decide⟩, hstart, hnames,
    Files.Disk.walk_moved (Files.Disk.move_point hroot) rfl,
    Files.Disk.walk_moved (Files.Disk.move_name hroot (by decide) (by decide) (by decide)) hmet,
    Files.Disk.walk_nil]
  rfl

theorem makeFolders_pointCache : ({} : Disk).makeFolders "./cache" = (.ok ⟨⟩, shownFolder) := by
  have hmake : ({} : Disk).makeFolder "./cache" = .ok shownFolder := by
    have hend : Files.Disk.withoutEnd "./cache" = "./cache" := by decide
    unfold Files.Disk.makeFolder
    rw [hend, locate_pointCache rfl false rfl]
    rfl
  obtain ⟨above, hancestors⟩ := Files.Disk.ancestors_cons "./cache"
  unfold Files.Disk.makeFolders Files.Disk.makeChain
  rw [hancestors]
  dsimp only
  rw [if_neg (by decide), hmake]

/-- Two caches whose paths lead to one folder. -/
def spellings (cache : FolderCache) : Prop :=
  cache = ⟨"cache"⟩ ∨ cache = ⟨"./cache"⟩

theorem share_spellings : Share spellings {} ["cache"] where
  named := by
    rintro _ (rfl | rfl)
    · decide
    · decide
  short := by
    rintro _ (rfl | rfl)
    · exact short_of_utf8ByteSize (by decide) (by decide)
    · exact short_of_utf8ByteSize (by decide) (by decide)
  made := by
    have hleads : ∀ other, spellings other → shownFolder.Leads other.folder ["cache"] := by
      rintro _ (rfl | rfl)
      · exact leads_shownFolder
      · exact ⟨by decide, locate_pointCache rfl true rfl, 0, rfl⟩
    have hempty : ∀ p ∈ shownFolder.listing ["cache"],
        Files.Path.extension? p.1 ≠ some entryExtension := fun p hp => by cases hp
    rintro _ (rfl | rfl)
    · exact ⟨shownFolder, makeFolders_shownFolder, hleads, hempty⟩
    · exact ⟨shownFolder, makeFolders_pointCache, hleads, hempty⟩

/-- A value is set twice and read through the other path, then the folder is emptied. -/
def shownRequests : List (FolderCache × Request) :=
  [(⟨"cache"⟩, .set "a" (.timestamp 1)), (⟨"./cache"⟩, .set "a" shownValue),
    (⟨"./cache"⟩, .set "b" (.timestamp 2)), (⟨"cache"⟩, .get "a"), (⟨"./cache"⟩, .clear),
    (⟨"cache"⟩, .get "a")]

theorem plain_shownRequests : ∀ p ∈ shownRequests, spellings p.1 ∧ p.2.Plain := by
  have hpath : spellings ⟨"cache"⟩ := .inl rfl
  have hpoint : spellings ⟨"./cache"⟩ := .inr rfl
  simp only [shownRequests, List.forall_mem_cons]
  refine ⟨⟨hpath, by decide, by decide, trivial⟩, ⟨hpoint, by decide, by decide, by decide⟩,
    ⟨hpoint, by decide, by decide, trivial⟩, ⟨hpath, trivial⟩, ⟨hpoint, trivial⟩, ⟨hpath, trivial⟩,
    by simp⟩

theorem replies_of_shownRequests :
    Share spellings {} ["cache"] ∧ (∀ p ∈ shownRequests, spellings p.1 ∧ p.2.Plain)
      ∧ (run {} shownRequests).1
        = [.ok (.stored true), .ok (.stored true), .ok (.stored true),
          .ok (.found (some shownValue)), .ok (.cleared 2), .ok (.found none)] := by
  have hdigests : Digest.Sha256.hex "b" ≠ Digest.Sha256.hex "a" := by decide +kernel
  obtain ⟨hreplies, -⟩ := replies_of_run share_spellings plain_shownRequests
  refine ⟨share_spellings, plain_shownRequests, hreplies.trans ?_⟩
  simp [shownRequests, replies, reply, lastSet, digests, hdigests]

end AnnotationCache.FolderCache
