/-
  AnnotationCache.Proofs.Store.Key
  ────────────────────────────────
  **WHICH TARGETS SHARE A KEY.**

  A key writes points for separators and joins a member with a hash or a
  dollar sign, so it tells targets apart as long as none of these three stands
  in a class name (`Target.Plain`): then the key up to the first sign is the
  class, the sign is the kind of the target, and the rest is the member.

  A marker is longer than its key, and it is the marker of no other key.  It is
  the key of no target either, unless the name of the class begins as markers do
  (`Target.Bracketed`).

  Main statements:
    * `normalized_eq_of_ofTarget_eq` — plain targets with one key are the same;
    * `text_ne_marker`      — a key is no marker, whatever its class, unless that
      is bracketed;
    * `keys_are_kept_apart` — both, for keys of all sorts.
-/
import AnnotationCache.Proofs.Types.Name
import AnnotationCache.Store.Key

namespace AnnotationCache

open AnnotationCache.Types (mem_of_mem_normalize normalize separator)

/-- A target is **plain** when nothing in its class name stands for something
else in keys. -/
def Target.Plain (t : Target) : Prop :=
  ∀ c ∈ t.className.toList, c ≠ '.' ∧ c ≠ '#' ∧ c ≠ '$'

instance (t : Target) : Decidable t.Plain :=
  List.decidableBAll (fun c => c ≠ '.' ∧ c ≠ '#' ∧ c ≠ '$') t.className.toList

/-- **Does the name of the class begin as markers do?** -/
def Target.Bracketed (t : Target) : Prop :=
  CacheKey.markerPrefix.toList <+: (normalize t.className).toList

instance (t : Target) : Decidable t.Bracketed :=
  inferInstanceAs (Decidable (CacheKey.markerPrefix.toList <+: (normalize t.className).toList))

/-- **Do two targets name one element?**  They are of one sort, their classes have
one normalised name, and members have one name. -/
def Target.SameElement : Target → Target → Prop
  | ofClass c, ofClass d => normalize c = normalize d
  | ofMethod c m, ofMethod d n => normalize c = normalize d ∧ m = n
  | ofProperty c p, ofProperty d q => normalize c = normalize d ∧ p = q
  | _, _ => False

theorem Target.sameElement_iff {t t' : Target} :
    t.SameElement t' ↔ t.normalized = t'.normalized := by
  cases t <;> cases t' <;> simp [SameElement, normalized]

theorem Target.className_normalized (t : Target) :
    t.normalized.className = normalize t.className := by
  cases t <;> rfl

/-- Targets that name one element are alike bracketed. -/
theorem Target.SameElement.bracketed_iff {t t' : Target} (h : t.SameElement t') :
    t.Bracketed ↔ t'.Bracketed := by
  unfold Bracketed
  rw [← t.className_normalized, Target.sameElement_iff.1 h, t'.className_normalized]

theorem Target.normalized_normalized (t : Target) : t.normalized.normalized = t.normalized := by
  cases t <;> simp [normalized]

namespace CacheKey

/-! ## §1. The class in a key. -/

/-- How a character of a class name is written. -/
def encodeChar (c : Char) : Char := if c = separator then '.' else c

/-- The character that a written one stands for. -/
def decodeChar (c : Char) : Char := if c = '.' then separator else c

theorem toList_encode (className : String) :
    (encode className).toList = (normalize className).toList.map encodeChar := by
  simp [encode, encodeChar]

/-- Points stand for separators where the class name has no point itself. -/
theorem map_decodeChar_encode {className : String} (h : ∀ c ∈ className.toList, c ≠ '.') :
    (encode className).toList.map decodeChar = (normalize className).toList := by
  rw [toList_encode, List.map_map]
  conv => rhs; rw [← List.map_id (normalize className).toList]
  refine List.map_congr_left fun c hc => ?_
  have hpoint : c ≠ '.' := h c (mem_of_mem_normalize hc)
  by_cases hsep : c = separator
  · simp [encodeChar, decodeChar, hsep]
  · simp [encodeChar, decodeChar, hsep, hpoint]

/-! ## §2. The parts of a key. -/

/-- May a character stand in the part of a key that names the class? -/
def inClass (c : Char) : Bool := c ≠ '#' && c ≠ '$'

/-- The part of a key behind the class: a sign and the name of the member. -/
def memberPart : Target → List Char
  | .ofClass _ => []
  | .ofMethod _ m => '#' :: m.toList
  | .ofProperty _ p => '$' :: p.toList

theorem toList_ofTarget (t : Target) :
    (ofTarget t).text.toList = (encode t.className).toList ++ memberPart t := by
  cases t <;> simp [ofTarget, memberPart, Target.className]

theorem takeWhile_memberPart (t : Target) : (memberPart t).takeWhile inClass = [] := by
  cases t <;> simp [memberPart, inClass]

theorem dropWhile_memberPart (t : Target) : (memberPart t).dropWhile inClass = memberPart t := by
  cases t <;> simp [memberPart, inClass]

theorem inClass_of_mem_encode {t : Target} (ht : t.Plain) {c : Char}
    (hc : c ∈ (encode t.className).toList) : inClass c = true := by
  rw [toList_encode, List.mem_map] at hc
  obtain ⟨a, ha, rfl⟩ := hc
  obtain ⟨-, hhash, hdollar⟩ := ht a (mem_of_mem_normalize ha)
  by_cases hsep : a = separator
  · simp [encodeChar, hsep, inClass]
  · simp [encodeChar, hsep, inClass, hhash, hdollar]

theorem takeWhile_ofTarget {t : Target} (ht : t.Plain) :
    (ofTarget t).text.toList.takeWhile inClass = (encode t.className).toList := by
  rw [toList_ofTarget, List.takeWhile_append_of_pos fun _ => inClass_of_mem_encode ht,
    takeWhile_memberPart, List.append_nil]

theorem dropWhile_ofTarget {t : Target} (ht : t.Plain) :
    (ofTarget t).text.toList.dropWhile inClass = memberPart t := by
  rw [toList_ofTarget, List.dropWhile_append_of_pos fun _ => inClass_of_mem_encode ht,
    dropWhile_memberPart]

/-! ## §3. Keys tell targets apart. -/

theorem normalized_eq_of_parts {t t' : Target}
    (hclass : normalize t.className = normalize t'.className)
    (hmember : memberPart t = memberPart t') : t.normalized = t'.normalized := by
  cases t <;> cases t' <;>
    simp_all [memberPart, Target.className, Target.normalized, String.toList_inj]

/-- **Plain targets with one key are the same**, up to separators in front of
the class name. -/
theorem normalized_eq_of_ofTarget_eq {t t' : Target} (ht : t.Plain) (ht' : t'.Plain)
    (h : ofTarget t = ofTarget t') : t.normalized = t'.normalized := by
  have hencode : (encode t.className).toList = (encode t'.className).toList := by
    rw [← takeWhile_ofTarget ht, ← takeWhile_ofTarget ht', h]
  have hclass : normalize t.className = normalize t'.className := by
    rw [← String.toList_inj, ← map_decodeChar_encode fun c hc => (ht c hc).1,
      ← map_decodeChar_encode fun c hc => (ht' c hc).1, hencode]
  have hmember : memberPart t = memberPart t' := by
    rw [← dropWhile_ofTarget ht, ← dropWhile_ofTarget ht', h]
  exact normalized_eq_of_parts hclass hmember

/-! ## §4. Markers. -/

theorem marker_inj {k k' : CacheKey} : k.marker = k'.marker ↔ k.text = k'.text := by
  simp [marker, ← String.toList_inj]

/-- A key that begins as markers do does so in front of its member: the sign there
is no character of the beginning of a marker. -/
theorem prefix_of_prefix_memberPart (t : Target) {front : List Char}
    (h : markerPrefix.toList <+: front ++ memberPart t) : markerPrefix.toList <+: front := by
  rcases List.prefix_or_prefix_of_prefix h (List.prefix_append front (memberPart t)) with
    hfront | ⟨rest, hrest⟩
  · exact hfront
  · rw [← hrest, List.prefix_append_right_inj] at h
    cases rest with
    | nil =>
        rw [List.append_nil] at hrest
        exact ⟨[], by rw [List.append_nil, hrest]⟩
    | cons sign rest =>
        have hmem : sign ∈ markerPrefix.toList := by simp [← hrest]
        have hnone : '#' ∉ markerPrefix.toList ∧ '$' ∉ markerPrefix.toList := by decide
        cases t with
        | ofClass c => exact absurd (List.prefix_nil.1 h) (List.cons_ne_nil sign rest)
        | ofMethod c m =>
            obtain rfl : sign = '#' := (List.cons_prefix_cons.1 h).1
            exact absurd hmem hnone.1
        | ofProperty c p =>
            obtain rfl : sign = '$' := (List.cons_prefix_cons.1 h).1
            exact absurd hmem hnone.2

/-- Only separators are written as something else. -/
theorem encodeChar_of_ne {c : Char} (h : encodeChar c ≠ '.') : encodeChar c = c := by
  unfold encodeChar at h ⊢
  split
  next hsep => exact absurd (if_pos hsep) h
  next => rfl

/-- What is written as markers begin does begin so. -/
theorem prefix_of_prefix_map {chars : List Char}
    (h : markerPrefix.toList <+: chars.map encodeChar) : markerPrefix.toList <+: chars := by
  obtain ⟨front, hfront, hmap⟩ := List.prefix_map_iff.1 h
  have hpoint : ∀ c ∈ markerPrefix.toList, c ≠ '.' := by simp [markerPrefix]
  have hsame : front.map encodeChar = front := by
    conv => rhs; rw [← List.map_id front]
    refine List.map_congr_left fun c hc => encodeChar_of_ne (hpoint _ ?_)
    rw [hmap]
    exact List.mem_map_of_mem hc
  rw [hmap, hsame]
  exact hfront

/-- **The key of a target is the marker of no key**, unless the name of its class
begins as markers do. -/
theorem text_ne_marker {t : Target} (ht : ¬ t.Bracketed) (key : CacheKey) :
    (ofTarget t).text ≠ key.marker := by
  intro h
  have hchars : markerPrefix.toList <+: (ofTarget t).text.toList := by
    rw [h, marker, String.toList_append]
    exact List.prefix_append _ _
  rw [toList_ofTarget, toList_encode] at hchars
  exact ht (prefix_of_prefix_map (prefix_of_prefix_memberPart t hchars))

/-- **No result is stored under its own marker.** -/
theorem marker_ne_text (k : CacheKey) : k.marker ≠ k.text := by
  intro h
  have hlength := congrArg (fun s => s.toList.length) h
  simp [marker, markerPrefix] at hlength
  omega

/-! ## §5. All keys. -/

/-- Separators in front of a class name do not show in the key. -/
theorem ofTarget_normalized (t : Target) : ofTarget t.normalized = ofTarget t := by
  cases t <;> simp [ofTarget, encode, Target.normalized]

/-- **Targets that name one element have one key.** -/
theorem ofTarget_eq_of_sameElement {t t' : Target} (h : t.SameElement t') :
    ofTarget t = ofTarget t' := by
  rw [← ofTarget_normalized t, Target.sameElement_iff.1 h, ofTarget_normalized t']

/-- **Keys do not collide.**  Plain targets have one key exactly if they name one
element; markers are as different as their keys; and no marker is the key of a
target whose class does not begin as markers do. -/
theorem keys_are_kept_apart :
    (∀ t t' : Target, t.normalized.Plain → t'.normalized.Plain →
        (ofTarget t = ofTarget t' ↔ t.SameElement t'))
      ∧ (∀ key key' : CacheKey, key.marker = key'.marker ↔ key = key')
      ∧ ∀ (t : Target) (key : CacheKey), ¬ t.Bracketed → (ofTarget t).text ≠ key.marker := by
  refine ⟨fun t t' ht ht' => ?_, fun key key' => ?_, fun t key ht => text_ne_marker ht key⟩
  · refine ⟨fun hkey => ?_, ofTarget_eq_of_sameElement⟩
    rw [← ofTarget_normalized t, ← ofTarget_normalized t'] at hkey
    have hsame := normalized_eq_of_ofTarget_eq ht ht' hkey
    rw [t.normalized_normalized, t'.normalized_normalized] at hsame
    exact Target.sameElement_iff.2 hsame
  · rw [marker_inj]
    exact ⟨congrArg mk, congrArg text⟩

/-- A method and a property of one name, the first under two spellings of the class. -/
theorem keys_are_kept_apart_of_members :
    (Target.ofMethod "\\App\\Page" "a#b").normalized.Plain
      ∧ ofTarget (.ofMethod "\\App\\Page" "a#b") = ofTarget (.ofMethod "App\\Page" "a#b")
      ∧ ofTarget (.ofMethod "App\\Page" "a#b") ≠ ofTarget (.ofProperty "App\\Page" "a#b")
      ∧ (ofTarget (.ofClass "App\\Page")).text ≠ (ofTarget (.ofClass "A")).marker := by
  obtain ⟨hkeys, -, hmarkers⟩ := keys_are_kept_apart
  refine ⟨by decide, (hkeys _ _ (by decide) (by decide)).2 ⟨rfl, rfl⟩, ?_,
    hmarkers _ _ (by decide)⟩
  intro hsame
  exact (hkeys _ _ (by decide) (by decide)).1 hsame

end CacheKey

end AnnotationCache
