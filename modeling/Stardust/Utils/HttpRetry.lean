import Mathlib.Data.List.Basic

/-!
# Requests with retries

`PerformHTTPRequest` hands one request to the client until an attempt is answered with status 200
or no attempt is left. The body of the request is a reader: `client.Do` reads it to its end, and
nothing sets it back. A retry so sends the method and the URL again, and no body.
-/

namespace Stardust.Utils

/-- A request, with its body as far as it is unread. -/
structure HttpRequest where
  method : String
  url : String
  /-- What is left to read, nothing for a request without a body. -/
  body : List UInt8
  deriving DecidableEq, Repr

/-- What an attempt comes to. -/
inductive HttpOutcome where
  | failed (err : String)
  | answered (statusCode : Int)
  deriving DecidableEq, Repr

/-- The request as one attempt transmits it. -/
structure Transmission where
  method : String
  url : String
  body : List UInt8
  deriving DecidableEq, Repr

/-- The variables of the loop, with what was transmitted and how often it slept. -/
structure Attempts where
  req : HttpRequest
  err : Option String
  lastStatusCode : Int
  sent : List Transmission
  sleeps : Nat
  deriving DecidableEq, Repr

/-- What the request transmits when it is sent now. -/
def HttpRequest.transmission (req : HttpRequest) : Transmission := ⟨req.method, req.url, req.body⟩

/-- The request when its body has been read. -/
def HttpRequest.consumed (req : HttpRequest) : HttpRequest := { req with body := [] }

/-- `client.Do(req)` transmits what is left of the body. -/
def Attempts.clientDo (s : Attempts) : Attempts :=
  { s with req := s.req.consumed, sent := s.sent ++ [s.req.transmission] }

/-- The pause of 300 ms, not after the last attempt; `left` attempts follow. -/
def Attempts.pause (s : Attempts) (left : Nat) : Attempts :=
  if left > 0 then { s with sleeps := s.sleeps + 1 } else s

/-- The loop from attempt `i` on, with the attempt whose response is returned. -/
def attemptLoop (outcomes : Nat → HttpOutcome) : Nat → Nat → Attempts → Option Nat × Attempts
  | _, 0, s => (none, s)
  | i, left + 1, s =>
    let s := s.clientDo
    match outcomes i with
    | .failed err => attemptLoop outcomes (i + 1) left ({ s with err := some err }.pause left)
    | .answered statusCode =>
      let s := { s with err := none }
      if statusCode = 200 then (some i, s)
      else
        attemptLoop outcomes (i + 1) left ({ s with lastStatusCode := statusCode }.pause left)

/-- Three attempts, or the first of the counts given if it is positive. -/
def retryCount : List Int → Nat
  | [] => 3
  | count :: _ => if count > 0 then count.toNat else 3

/-- The response is given by the attempt that it answers. -/
def performHTTPRequest (req : HttpRequest) (retryCounts : List Int)
    (outcomes : Nat → HttpOutcome) : Except String Nat × Attempts :=
  match attemptLoop outcomes 0 (retryCount retryCounts) ⟨req, none, 0, [], 0⟩ with
  | (some i, s) => (.ok i, s)
  | (none, s) =>
    match s.err with
    | some err =>
      (.error ("failed after " ++ toString (retryCount retryCounts) ++
        " attempts. Last error: " ++ err), s)
    | none =>
      (.error ("failed after " ++ toString (retryCount retryCounts) ++
        " attempts. (HTTP Status Code: " ++ toString s.lastStatusCode ++ ")"), s)

/-- The number of attempts: up to the first one that is answered with status 200. -/
def attemptsMade (outcomes : Nat → HttpOutcome) : Nat → Nat → Nat
  | _, 0 => 0
  | i, left + 1 =>
    if outcomes i = .answered 200 then 1 else attemptsMade outcomes (i + 1) left + 1

/-- There is always a first attempt. -/
theorem exists_retryCount_eq (retryCounts : List Int) :
    ∃ left, retryCount retryCounts = left + 1 := by
  refine Nat.exists_eq_succ_of_ne_zero ?_
  cases retryCounts with
  | nil => decide
  | cons count rest =>
    rw [retryCount]
    split <;> omega

section Loop

variable (outcomes : Nat → HttpOutcome)

/-- An attempt either ends the loop, or leaves the consumed request to the rest of it. -/
theorem attemptLoop_succ (i left : Nat) (s : Attempts) :
    (outcomes i = .answered 200 ∧
      attemptLoop outcomes i (left + 1) s = (some i, { s.clientDo with err := none })) ∨
    (outcomes i ≠ .answered 200 ∧ ∃ s', attemptLoop outcomes i (left + 1) s =
        attemptLoop outcomes (i + 1) left s' ∧
      s'.req = s.req.consumed ∧ s'.sent = s.sent ++ [s.req.transmission]) := by
  have hpause : ∀ t : Attempts, (t.pause left).req = t.req ∧ (t.pause left).sent = t.sent := by
    intro t
    unfold Attempts.pause
    split <;> exact ⟨rfl, rfl⟩
  rw [attemptLoop]
  cases outcomes i with
  | failed err =>
    exact .inr ⟨by simp, _, rfl, hpause { s.clientDo with err := some err }⟩
  | answered statusCode =>
    by_cases hok : statusCode = 200
    · exact .inl ⟨by rw [hok], if_pos hok⟩
    · exact .inr ⟨by simpa using hok, _, if_neg hok,
        hpause { s.clientDo with err := none, lastStatusCode := statusCode }⟩

/-- A request without a body is the same in all attempts. -/
theorem attemptLoop_sent_of_empty (i left : Nat) (s : Attempts) (h : s.req.body = []) :
    (attemptLoop outcomes i left s).2.sent =
      s.sent ++ List.replicate (attemptsMade outcomes i left) s.req.transmission := by
  induction left generalizing i s with
  | zero => simp [attemptLoop, attemptsMade]
  | succ left ih =>
    rcases attemptLoop_succ outcomes i left s with ⟨hok, heq⟩ | ⟨hretry, s', heq, hreq, hsent⟩
    · rw [heq, attemptsMade, if_pos hok]
      rfl
    · have hsame : s'.req = s.req := by
        rw [hreq, HttpRequest.consumed, ← h]
      rw [heq, attemptsMade, if_neg hretry, ih (i + 1) s' (by rw [hsame, h]), hsent, hsame,
        List.append_assoc, List.singleton_append, List.replicate_succ]

/-- Only the first attempt sends the body. -/
theorem attemptLoop_sent (i left : Nat) (s : Attempts) :
    (attemptLoop outcomes i (left + 1) s).2.sent = s.sent ++ s.req.transmission ::
      List.replicate (attemptsMade outcomes i (left + 1) - 1) s.req.consumed.transmission := by
  rcases attemptLoop_succ outcomes i left s with ⟨hok, heq⟩ | ⟨hretry, s', heq, hreq, hsent⟩
  · rw [heq, attemptsMade, if_pos hok]
    rfl
  · have hempty : s'.req.body = [] := by rw [hreq, HttpRequest.consumed]
    rw [heq, attemptLoop_sent_of_empty outcomes (i + 1) left s' hempty, hsent, hreq, attemptsMade,
      if_neg hretry, Nat.add_sub_cancel, List.append_assoc, List.singleton_append]

/-- There is no second attempt when the first one succeeds or the count is used up. -/
theorem attemptsMade_sub_one_eq_zero_iff (i left : Nat) :
    attemptsMade outcomes i (left + 1) - 1 = 0 ↔ left = 0 ∨ outcomes i = .answered 200 := by
  rw [attemptsMade]
  split
  · next hok => simp [hok]
  · next hretry =>
    cases left with
    | zero => simp [attemptsMade]
    | succ left =>
      rw [attemptsMade]
      split <;> simp [hretry]

end Loop

section Performed

variable (req : HttpRequest) (retryCounts : List Int) (outcomes : Nat → HttpOutcome)

/-- What all attempts of a call transmit. -/
theorem performHTTPRequest_sent :
    (performHTTPRequest req retryCounts outcomes).2.sent = req.transmission ::
      List.replicate (attemptsMade outcomes 0 (retryCount retryCounts) - 1)
        req.consumed.transmission := by
  obtain ⟨left, hleft⟩ := exists_retryCount_eq retryCounts
  have hsent := attemptLoop_sent outcomes 0 left ⟨req, none, 0, [], 0⟩
  unfold performHTTPRequest
  rw [hleft]
  generalize attemptLoop outcomes 0 (left + 1) ⟨req, none, 0, [], 0⟩ = result at hsent
  obtain ⟨response, s⟩ := result
  cases response with
  | some i => exact hsent
  | none =>
    dsimp only
    split <;> exact hsent

/-- All attempts transmit what the first one does exactly when there is no body to send, or no
second attempt. -/
theorem performHTTPRequest_resends_iff :
    (∀ t ∈ (performHTTPRequest req retryCounts outcomes).2.sent, t = req.transmission) ↔
      req.body = [] ∨ retryCount retryCounts = 1 ∨ outcomes 0 = .answered 200 := by
  have hsame : req.consumed.transmission = req.transmission ↔ req.body = [] := by
    simp [HttpRequest.transmission, HttpRequest.consumed, eq_comm]
  have hmade : attemptsMade outcomes 0 (retryCount retryCounts) - 1 = 0 ↔
      retryCount retryCounts = 1 ∨ outcomes 0 = .answered 200 := by
    obtain ⟨left, hleft⟩ := exists_retryCount_eq retryCounts
    rw [hleft, attemptsMade_sub_one_eq_zero_iff, Nat.add_eq_right]
  rw [performHTTPRequest_sent, ← hmade, ← hsame]
  constructor
  · intro hall
    by_cases hone : attemptsMade outcomes 0 (retryCount retryCounts) - 1 = 0
    · exact .inr hone
    · exact .inl (hall _ (List.mem_cons_of_mem _ (List.mem_replicate.mpr ⟨hone, rfl⟩)))
  · rintro (heq | hone) t ht
    · rcases List.mem_cons.mp ht with rfl | ht
      · rfl
      · rw [List.eq_of_mem_replicate ht, heq]
    · rw [hone] at ht
      exact List.mem_singleton.mp ht

end Performed

/-- The second attempt is answered with status 200, but to a request without its body. -/
theorem performHTTPRequest_loses_body :
    let outcomes : Nat → HttpOutcome := fun i => if i = 0 then .answered 503 else .answered 200
    (performHTTPRequest ⟨"POST", "http://pay/orders", [123, 125]⟩ [] outcomes).1 = .ok 1 ∧
      (performHTTPRequest ⟨"POST", "http://pay/orders", [123, 125]⟩ [] outcomes).2.sent =
        [⟨"POST", "http://pay/orders", [123, 125]⟩, ⟨"POST", "http://pay/orders", []⟩] :=
  ⟨rfl, rfl⟩

end Stardust.Utils
