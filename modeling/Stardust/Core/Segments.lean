import Mathlib.Data.List.DropRight

/-!
# Parts around a separator

Parts are trimmed of a separator, the empty ones dropped, and the segments left are joined again
with the separator in front of each. Segments may hold separators inside. Since none stands at
their ends, a joined text trims back to what stands between its ends, and joining flattens.
-/

namespace Stardust.Core

variable {α : Type*}

/-- Each segment behind a separator, or the separator alone. -/
def joined (c : α) (segs : List (List α)) : List α := c :: [c].intercalate segs

/-- A text that is left by trimming. -/
structure IsSegment (c : α) (cs : List α) : Prop where
  ne_nil : cs ≠ []
  head : cs.head? ≠ some c
  last : cs.getLast? ≠ some c

section Joined

variable {c : α} {segs : List (List α)}

private theorem IsSegment.append {s t : List α} (hs : IsSegment c s) (ht : IsSegment c t) :
    IsSegment c (s ++ [c] ++ t) where
  ne_nil := by simp
  head := by
    rw [List.append_assoc, List.head?_append_of_ne_nil _ hs.ne_nil]
    exact hs.head
  last := by
    rw [List.getLast?_append_of_ne_nil _ ht.ne_nil]
    exact ht.last

/-- Segments around separators are one segment. -/
theorem isSegment_intercalate (hne : segs ≠ []) (h : ∀ s ∈ segs, IsSegment c s) :
    IsSegment c ([c].intercalate segs) := by
  induction segs with
  | nil => exact absurd rfl hne
  | cons s rest ih =>
    have hs := h s (List.mem_cons_self ..)
    rcases eq_or_ne rest [] with rfl | hrest
    · rw [List.intercalate_singleton]
      exact hs
    · rw [List.intercalate_cons_of_ne_nil hrest]
      exact hs.append (ih hrest fun t ht => h t (List.mem_cons_of_mem _ ht))

private theorem intercalate_append {sep : List α} {xs ys : List (List α)} (hxs : xs ≠ [])
    (hys : ys ≠ []) :
    sep.intercalate (xs ++ ys) = sep.intercalate xs ++ sep ++ sep.intercalate ys := by
  induction xs with
  | nil => exact absurd rfl hxs
  | cons x xs ih =>
    rcases eq_or_ne xs [] with rfl | hrest
    · rw [List.singleton_append, List.intercalate_cons_of_ne_nil hys, List.intercalate_singleton]
    · rw [List.cons_append, List.intercalate_cons_of_ne_nil (by simp [hrest]), ih hrest,
        List.intercalate_cons_of_ne_nil hrest]
      simp only [List.append_assoc]

/-- Segments that were joined count as one. -/
theorem intercalate_intercalate {sep : List α} {xs : List (List α)} (hxs : xs ≠ [])
    (ys : List (List α)) :
    sep.intercalate (sep.intercalate xs :: ys) = sep.intercalate (xs ++ ys) := by
  rcases eq_or_ne ys [] with rfl | hys
  · rw [List.intercalate_singleton, List.append_nil]
  · rw [List.intercalate_cons_of_ne_nil hys, intercalate_append hxs hys]

/-- A joined text begins with one separator. -/
theorem joined_head (h : ∀ s ∈ segs, IsSegment c s) : ¬ [c, c] <+: joined c segs := by
  rintro ⟨rest, hrest⟩
  have htail : c :: rest = [c].intercalate segs := (List.cons.inj hrest).2
  rcases eq_or_ne segs [] with rfl | hne
  · cases htail
  · exact (isSegment_intercalate hne h).head (by rw [← htail]; rfl)

/-- A joined text ends with the separator only if there are no segments. -/
theorem joined_last (h : ∀ s ∈ segs, IsSegment c s) (hlast : (joined c segs).getLast? = some c) :
    joined c segs = [c] := by
  rcases eq_or_ne segs [] with rfl | hne
  · rfl
  · have hseg := isSegment_intercalate hne h
    rw [joined, ← List.singleton_append, List.getLast?_append_of_ne_nil _ hseg.ne_nil] at hlast
    exact absurd hlast hseg.last

end Joined

variable [DecidableEq α] (c : α)

/-- A text without the separator at its ends. -/
def trim (cs : List α) : List α := (cs.dropWhile (· = c)).rdropWhile (· = c)

/-- The trimmed parts, without the empty ones. -/
def segments (parts : List (List α)) : List (List α) := (parts.map (trim c)).filter (· ≠ [])

section Trim

variable {c} {cs : List α}

/-- Only separators are trimmed to nothing. -/
theorem trim_eq_nil_iff : trim c cs = [] ↔ ∀ d ∈ cs, d = c := by
  rw [trim, List.rdropWhile_eq_nil_iff]
  constructor
  · intro h
    have hnil : cs.dropWhile (· = c) = [] := by
      cases hdrop : cs.dropWhile (· = c) with
      | nil => rfl
      | cons d rest =>
        have hd := h d (by rw [hdrop]; exact List.mem_cons_self ..)
        have hnot := List.head?_dropWhile_not (· = c) cs
        rw [hdrop] at hnot
        exact absurd hd (by simpa using hnot)
    simpa using List.dropWhile_eq_nil_iff.mp hnil
  · exact fun h d hd => by simpa using h d (List.dropWhile_sublist _ |>.subset hd)

private theorem isSegment_trim (h : trim c cs ≠ []) : IsSegment c (trim c cs) where
  ne_nil := h
  head := by
    intro hhead
    obtain ⟨rest, hrest⟩ := List.rdropWhile_prefix (· = c) (cs.dropWhile (· = c))
    have hfirst : (cs.dropWhile (· = c)).head? = some c := by
      rw [← hrest]
      exact (List.head?_append_of_ne_nil _ h).trans hhead
    have hnot := List.head?_dropWhile_not (· = c) cs
    rw [hfirst] at hnot
    simp at hnot
  last := by
    intro hlast
    have hnot := List.rdropWhile_last_not (· = c) (cs.dropWhile (· = c)) h
    rw [List.getLast?_eq_some_getLast h, Option.some.injEq] at hlast
    exact hnot (decide_eq_true hlast)

/-- Nothing is trimmed off a segment. -/
theorem IsSegment.trim_eq (h : IsSegment c cs) : trim c cs = cs := by
  have hdrop : cs.dropWhile (· = c) = cs := by
    cases cs with
    | nil => rfl
    | cons d rest => exact List.dropWhile_cons_of_neg (by simpa using h.head)
  rw [trim, hdrop, List.rdropWhile_eq_self_iff]
  intro hne hlast
  exact h.last (by rw [List.getLast?_eq_some_getLast hne]; simpa using hlast)

private theorem trim_cons_self (cs : List α) : trim c (c :: cs) = trim c cs := by
  rw [trim, List.dropWhile_cons_of_pos (by simp), trim]

end Trim

section Segments

variable {c} {parts : List (List α)}

/-- Parts are taken one after the other. -/
theorem segments_append (parts parts' : List (List α)) :
    segments c (parts ++ parts') = segments c parts ++ segments c parts' := by
  rw [segments, List.map_append, List.filter_append, segments, segments]

/-- One part is at most one segment. -/
theorem segments_singleton (part : List α) :
    segments c [part] = if trim c part = [] then [] else [trim c part] := by
  simp [segments, List.filter_cons]

/-- What is kept is a segment. -/
theorem isSegment_of_mem_segments {s : List α} (h : s ∈ segments c parts) : IsSegment c s := by
  obtain ⟨hmem, hne⟩ := List.mem_filter.mp h
  obtain ⟨part, -, rfl⟩ := List.mem_map.mp hmem
  exact isSegment_trim (by simpa using hne)

end Segments

section TrimJoined

variable {c} {segs : List (List α)}

/-- A joined text trims back to its segments. -/
theorem trim_joined (h : ∀ s ∈ segs, IsSegment c s) :
    trim c (joined c segs) = [c].intercalate segs := by
  rw [joined, trim_cons_self]
  rcases eq_or_ne segs [] with rfl | hne
  · rfl
  · exact (isSegment_intercalate hne h).trim_eq

/-- Parts that were joined before give the same text as all parts at once. -/
theorem joined_segments_joined (first second : List (List α)) :
    joined c (segments c (joined c (segments c first) :: second)) =
      joined c (segments c (first ++ second)) := by
  have hsegs : ∀ s ∈ segments c first, IsSegment c s := fun s => isSegment_of_mem_segments
  rw [← List.singleton_append, segments_append, segments_append, segments_singleton,
    trim_joined hsegs]
  rcases eq_or_ne (segments c first) [] with hnil | hne
  · rw [hnil, List.intercalate_nil, if_pos rfl]
  · rw [if_neg (isSegment_intercalate hne hsegs).ne_nil, joined, joined, List.singleton_append,
      intercalate_intercalate hne]

end TrimJoined

end Stardust.Core
