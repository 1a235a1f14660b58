import Stardust.Core.Segments
import Mathlib.Data.String.Basic

/-!
# Paths of handlers

The path of a native handler is joined from the path of the server and the one that is given,
whatever slashes stand at their ends.
-/

namespace Stardust.HttpServer

open Stardust.Core

/-- What `strings.Trim(part, "/")` gives. -/
def trimSlashes (part : String) : String := String.ofList (trim '/' part.toList)

variable (parts : List String)

/-- The segments that are not empty, joined behind a slash. -/
def joinHTTPPath : String :=
  let segments := (parts.map trimSlashes).filter (· ≠ "")
  if segments.length = 0 then "/" else "/" ++ "/".intercalate segments

/-- The segments of a path are those of its characters. -/
theorem map_toList_segments :
    ((parts.map trimSlashes).filter (· ≠ "")).map String.toList =
      segments '/' (parts.map String.toList) := by
  induction parts with
  | nil => rfl
  | cons part parts ih =>
    have hpart : (trimSlashes part).toList = trim '/' part.toList := String.toList_ofList
    have hempty : trimSlashes part = "" ↔ trim '/' part.toList = [] := by
      rw [← hpart, String.toList_eq_nil_iff]
    simp only [segments, List.map_cons, List.filter_cons, ne_eq, decide_not, hempty] at ih ⊢
    split
    · rw [List.map_cons, hpart, ih]
    · exact ih

/-- Paths are joined character by character. -/
theorem toList_joinHTTPPath :
    (joinHTTPPath parts).toList = joined '/' (segments '/' (parts.map String.toList)) := by
  have hsegments := map_toList_segments parts
  unfold joinHTTPPath
  dsimp only
  generalize (parts.map trimSlashes).filter (· ≠ "") = segs at hsegments ⊢
  rw [← hsegments]
  split
  · next hnil =>
    obtain rfl := List.length_eq_zero_iff.mp hnil
    rfl
  · rw [String.toList_append, String.toList_intercalate]
    rfl

/-- What was joined before counts as its parts. -/
theorem joinHTTPPath_joinHTTPPath (first second : List String) :
    joinHTTPPath (joinHTTPPath first :: second) = joinHTTPPath (first ++ second) := by
  apply String.toList_inj.mp
  rw [toList_joinHTTPPath, toList_joinHTTPPath, List.map_cons, toList_joinHTTPPath,
    joined_segments_joined, List.map_append]

/-- A part of slashes only is left out. -/
theorem joinHTTPPath_of_slashes (before after : List String) {part : String}
    (h : ∀ c ∈ part.toList, c = '/') :
    joinHTTPPath (before ++ part :: after) = joinHTTPPath (before ++ after) := by
  apply String.toList_inj.mp
  rw [toList_joinHTTPPath, toList_joinHTTPPath, List.map_append, List.map_cons, List.map_append,
    ← List.singleton_append, segments_append, segments_append, segments_append,
    segments_singleton, if_pos (trim_eq_nil_iff.mpr h), List.nil_append]

/-- A joined path starts with one slash and ends with one only if it is nothing else. Joining
flattens, whatever parts were joined before, and empty parts or parts of slashes leave no trace. -/
theorem joinHTTPPath_normal :
    (joinHTTPPath parts).toList.head? = some '/' ∧
      ((joinHTTPPath parts).toList.getLast? = some '/' → joinHTTPPath parts = "/") ∧
      ¬ ['/', '/'] <+: (joinHTTPPath parts).toList ∧
      (∀ first second, parts = first ++ second →
        joinHTTPPath (joinHTTPPath first :: second) = joinHTTPPath parts) ∧
      joinHTTPPath [joinHTTPPath parts] = joinHTTPPath parts ∧
      ∀ before part after, parts = before ++ part :: after → (∀ c ∈ part.toList, c = '/') →
        joinHTTPPath parts = joinHTTPPath (before ++ after) := by
  refine ⟨by rw [toList_joinHTTPPath]; rfl, fun hlast => ?_, ?_, ?_, ?_, ?_⟩
  · apply String.toList_inj.mp
    rw [toList_joinHTTPPath] at hlast ⊢
    exact joined_last (fun s => isSegment_of_mem_segments) hlast
  · rw [toList_joinHTTPPath]
    exact joined_head fun s => isSegment_of_mem_segments
  · rintro first second rfl
    exact joinHTTPPath_joinHTTPPath first second
  · rw [joinHTTPPath_joinHTTPPath, List.append_nil]
  · rintro before part after rfl hslashes
    exact joinHTTPPath_of_slashes before after hslashes

/-- Slashes inside a part are kept. -/
theorem joinHTTPPath_normal_inner :
    joinHTTPPath ["//v1//x/", "", "/"] = "/v1//x" ∧
      joinHTTPPath [joinHTTPPath ["//v1//x/"], "", "/"] = "/v1//x" := by
  have hjoin : joinHTTPPath ["//v1//x/", "", "/"] = "/v1//x" := by decide
  refine ⟨hjoin, ?_⟩
  rw [(joinHTTPPath_normal ["//v1//x/", "", "/"]).2.2.2.1 ["//v1//x/"] ["", "/"] rfl, hjoin]

end Stardust.HttpServer
