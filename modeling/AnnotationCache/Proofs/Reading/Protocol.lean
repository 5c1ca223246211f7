/-
  AnnotationCache.Proofs.Reading.Protocol
  ───────────────────────────────────────
  **THE PROTOCOL OF A READ.**

  While nobody fails, the course of a read is settled by the memo, by what is stored
  under two keys, and by one comparison of times.  It can be told in full: who is
  asked for what, in which order, what is answered, what is written and what is
  remembered.  A value of the wrong kind under a key is passed over like a missing
  one.

  The time that is written is the one that was found before the result was computed.
  It stays so if the class is modified while it is being read, and then the next read
  that checks finds the result too old.

  Main statements:
    * `read_protocol` — the whole course of a read during which nobody fails.
-/
import AnnotationCache.Proofs.Reading.Minutes

namespace AnnotationCache.Company

open AnnotationCache.Types (Descriptor)
open Sources (Outdated)

variable {ω : Type} {c : Company ω} {t : Target} {entries : MapCache} {world mid final : ω}
  {last : Int} {list : List Annotation} {checking : Bool} {types : List Descriptor}

/-! ## §1. Nobody fails. -/

/-- **A company that does what it is asked** when a target is read: its class has a last
modification, and then its annotations can be computed, while the world goes on. -/
structure Willing (c : Company ω) (t : Target) (world mid final : ω) (last : Int)
    (list : List Annotation) : Prop where
  read : ∀ key, c.unread key = none
  written : ∀ key value, c.unwritten key value = none
  dated : (c.lastModification t.className).run.run world = (.ok last, mid)
  computed : (c.compute t).run.run mid = (.ok list, final)

/-- A class that can be dated has a closure. -/
theorem closure_of_dated {className : String}
    (h : (c.lastModification className).run.run world = (.ok last, mid)) :
    ∃ types, c.registry.closure className = .ok types := by
  unfold lastModification AnnotationCache.lastModification at h
  cases hclosure : c.registry.closure className with
  | ok types => exact ⟨types, rfl⟩
  | error e =>
      rw [hclosure] at h
      cases h

/-- The errands of putting a new result on record. -/
def refreshes (t : Target) (list : List Annotation) (last : Int) : List Errand :=
  [.compute t, .set (CacheKey.ofTarget t).text (.annotations list),
    .set (CacheKey.ofTarget t).marker (.timestamp last)]

theorem Refreshing.of_willing (h : c.Willing t world mid final last list)
    {result : Except Error (List Annotation)} {room : Room ω} {made : List Minute}
    (hrest : c.Refreshing t entries mid last result room made) :
    result = .ok list ∧ room = ⟨entries.recorded c.accepts t list last, final⟩
      ∧ made = accomplished (refreshes t list last) := by
  cases hrest with
  | uncomputed failed => cases h.computed.symm.trans failed
  | unwritten _ fault => cases (h.written _ _).symm.trans fault
  | unmarked _ _ fault => cases (h.written _ _).symm.trans fault
  | recorded computed =>
      cases h.computed.symm.trans computed
      exact ⟨rfl, rfl, rfl⟩

/-! ## §2. Three ways to go. -/

section Ways

variable {result : Except Error (List Annotation)} {room : Room ω} {made : List Minute}
  (h : c.Willing t world mid final last list)
  (htranscript : c.Transcript checking t entries world result room made)

include h htranscript

/-- A stored result counts if nobody checks. -/
theorem Transcript.of_unchecked {stored : List Annotation} (hchecking : checking = false)
    (hstored : entries.result? t = some stored) :
    result = .ok stored ∧ room = ⟨entries, world⟩
      ∧ made = accomplished [.get (CacheKey.ofTarget t).text] := by
  -- All other courses are taken by readers that check, or where no result is stored.
  have hchecked : checking ≠ true := by simp [hchecking]
  cases htranscript with
  | unread fault => cases (h.read _).symm.trans fault
  | trusted _ stored => exact ⟨by rw [Option.some.inj (hstored.symm.trans stored)], rfl, rfl⟩
  | unmarked checked => exact absurd checked hchecked
  | undated unsettled => exact absurd (unsettled _ hstored) hchecked
  | verified checked => exact absurd checked hchecked
  | refreshed outdated => exact absurd (outdated _ hstored).1 hchecked

/-- A stored result counts if its marker is no older than the class. -/
theorem Transcript.of_recent {stored : List Annotation} {time : Int} (hchecking : checking = true)
    (hstored : entries.result? t = some stored) (hmarked : entries.marker? t = some time)
    (hrecent : last ≤ time) (hclosure : c.registry.closure t.className = .ok types) :
    result = .ok stored ∧ room = ⟨entries, mid⟩
      ∧ made = accomplished ([.get (CacheKey.ofTarget t).text, .get (CacheKey.ofTarget t).marker]
          ++ walked types t.className) := by
  subst hchecking
  cases htranscript with
  | unread fault => cases (h.read _).symm.trans fault
  | trusted unchecked => cases unchecked
  | unmarked _ _ fault => cases (h.read _).symm.trans fault
  | undated _ failed => cases h.dated.symm.trans failed
  | verified _ stored dated walk =>
      cases h.dated.symm.trans dated
      refine ⟨by rw [Option.some.inj (hstored.symm.trans stored)], rfl, ?_⟩
      rw [walk.eq_of_finished hclosure, lookups_of_checked hstored, accomplished_append]
  | refreshed outdated dated =>
      -- A marker that is recent enough leaves nothing outdated.
      cases h.dated.symm.trans dated
      have hearlier : time < last := (outdated _ hstored).2 _ hmarked
      omega

/-- Where nothing that is stored counts, a new result is put on record. -/
theorem Transcript.of_outdated (houtdated : Outdated checking t entries last)
    (hclosure : c.registry.closure t.className = .ok types) :
    result = .ok list ∧ room = ⟨entries.recorded c.accepts t list last, final⟩
      ∧ made = accomplished (lookups checking t entries ++ walked types t.className
          ++ refreshes t list last) := by
  cases htranscript with
  | unread fault => cases (h.read _).symm.trans fault
  | trusted unchecked stored => cases unchecked.symm.trans (houtdated _ stored).1
  | unmarked _ _ fault => cases (h.read _).symm.trans fault
  | undated _ failed => cases h.dated.symm.trans failed
  | verified _ stored dated _ marked =>
      cases h.dated.symm.trans dated
      have hearlier := (houtdated _ stored).2 _ marked
      omega
  | refreshed _ dated walk rest =>
      cases h.dated.symm.trans dated
      obtain ⟨rfl, rfl, rfl⟩ := rest.of_willing h
      refine ⟨rfl, rfl, ?_⟩
      rw [walk.eq_of_finished hclosure, ← accomplished_append, ← accomplished_append,
        List.append_assoc]

end Ways

/-! ## §3. The protocol. -/

/-- **The protocol of a read during which nobody fails.**  What is remembered is
returned, and nobody is asked.  Otherwise the cache is asked once for the result.  If it
has one and nobody checks, that is all.  If somebody checks, the marker is looked up,
the closure of the class is dated, and the stored result is returned with nothing
written if the marker is a time and no earlier than the last modification.  In all other
cases the result is computed once, and it and the last modification, as it was before
that, are written, in this order; then nothing else is asked. -/
theorem read_protocol (h : c.Willing t world mid final last list) (r : CachedReader)
    (entries : MapCache) :
    ∃ types, c.registry.closure t.className = .ok types
      ∧ (∀ known, r.loaded.get? (CacheKey.ofTarget t).text = some known →
          c.attend r t ⟨entries, world⟩ = ((.ok known, r), ⟨entries, world⟩, []))
      ∧ (r.loaded.get? (CacheKey.ofTarget t).text = none →
          (∀ stored, entries.result? t = some stored → r.checking = false →
            c.attend r t ⟨entries, world⟩
              = ((.ok stored, r.remember t (.ok stored)), ⟨entries, world⟩,
                  accomplished [.get (CacheKey.ofTarget t).text]))
          ∧ (∀ stored time, entries.result? t = some stored → r.checking = true →
              entries.marker? t = some time → last ≤ time →
            c.attend r t ⟨entries, world⟩
              = ((.ok stored, r.remember t (.ok stored)), ⟨entries, mid⟩,
                  accomplished ([.get (CacheKey.ofTarget t).text,
                    .get (CacheKey.ofTarget t).marker] ++ walked types t.className)))
          ∧ (∀ stored, entries.result? t = some stored → r.checking = true →
              (∀ time, entries.marker? t = some time → time < last) →
            c.attend r t ⟨entries, world⟩
              = ((.ok list, r.remember t (.ok list)),
                  ⟨entries.recorded c.accepts t list last, final⟩,
                  accomplished ([.get (CacheKey.ofTarget t).text,
                    .get (CacheKey.ofTarget t).marker] ++ walked types t.className
                      ++ refreshes t list last)))
          ∧ (entries.result? t = none →
            c.attend r t ⟨entries, world⟩
              = ((.ok list, r.remember t (.ok list)),
                  ⟨entries.recorded c.accepts t list last, final⟩,
                  accomplished ([.get (CacheKey.ofTarget t).text] ++ walked types t.className
                    ++ refreshes t list last)))) := by
  obtain ⟨types, hclosure⟩ := closure_of_dated h.dated
  refine ⟨types, hclosure, fun known => attend_of_remembered c _, ?_⟩
  intro hforgotten
  obtain ⟨result, room, made, htranscript, hattend⟩ :=
    attend_of_forgotten c entries world hforgotten
  rw [hattend]
  refine ⟨?trusted, ?verified, ?outdated, ?missing⟩
  case trusted =>
    intro stored hstored hchecking
    obtain ⟨rfl, rfl, rfl⟩ := htranscript.of_unchecked h hchecking hstored
    rfl
  case verified =>
    intro stored time hstored hchecking hmarked hrecent
    obtain ⟨rfl, rfl, rfl⟩ := htranscript.of_recent h hchecking hstored hmarked hrecent hclosure
    rfl
  case outdated =>
    intro stored hstored hchecking hearlier
    have houtdated : Outdated r.checking t entries last := fun _ _ => ⟨hchecking, hearlier⟩
    obtain ⟨rfl, rfl, rfl⟩ := htranscript.of_outdated h houtdated hclosure
    rw [hchecking, lookups_of_checked hstored]
  case missing =>
    intro hmissing
    have houtdated : Outdated r.checking t entries last := by
      intro old hold
      cases hmissing.symm.trans hold
    obtain ⟨rfl, rfl, rfl⟩ := htranscript.of_outdated h houtdated hclosure
    rw [lookups_of_missing r.checking hmissing]

/-- A controller. -/
def drafted : Descriptor :=
  { name := "App\\Controller", traits := ["App\\Routes"] }

/-- The trait that it uses. -/
def draftedRoutes : Descriptor :=
  { name := "App\\Routes", kind := .traitKind }

/-- A company that is asked for the controller while both are being written.  The world
is the time at which that last happened, and it happens again during each computation. -/
def drafting : Company Int where
  registry := ⟨(Dict.empty.insert "App\\Controller" drafted).insert "App\\Routes" draftedRoutes⟩
  clock _ := ExceptT.mk fun now => (.ok now, now)
  compute _ := ExceptT.mk fun now => (.ok [{ name := "Route" }], now + 50)
  accepts := MapCache.keepAll
  unread _ := none
  unwritten _ _ := none

/-- A map with an older result of the controller. -/
def undrafted : MapCache :=
  (Dict.empty.insert "App.Controller" (.annotations [])).insert "[C]App.Controller" (.timestamp 70)

theorem read_protocol_of_drafting :
    drafting.Willing (.ofClass "App\\Controller") 100 100 150 100 [{ name := "Route" }]
      ∧ (drafting.attend (CachedReader.opened true) (.ofClass "App\\Controller")
            ⟨undrafted, 100⟩).1.1 = .ok [{ name := "Route" }]
      ∧ (drafting.attend (CachedReader.opened true) (.ofClass "App\\Controller")
            ⟨undrafted, 100⟩).2.2
          = accomplished [.get "App.Controller", .get "[C]App.Controller", .date drafted,
              .date draftedRoutes, .latest "App\\Controller", .compute (.ofClass "App\\Controller"),
              .set "App.Controller" (.annotations [{ name := "Route" }]),
              .set "[C]App.Controller" (.timestamp 100)] := by
  have hwilling : drafting.Willing (.ofClass "App\\Controller") 100 100 150 100
      [{ name := "Route" }] := ⟨fun _ => rfl, fun _ _ => rfl, rfl, rfl⟩
  obtain ⟨types, hclosure, -, hforgotten⟩ :=
    read_protocol hwilling (CachedReader.opened true) undrafted
  obtain ⟨-, -, houtdated, -⟩ := hforgotten rfl
  have htypes : [drafted, draftedRoutes] = types := Except.ok.inj hclosure
  have hattend := houtdated [] rfl rfl ?_
  · rw [hattend, ← htypes]
    exact ⟨hwilling, rfl, rfl⟩
  · intro time hmarked
    have htime : (70 : Int) = time := Option.some.inj hmarked
    omega

end AnnotationCache.Company
