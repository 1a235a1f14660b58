import Stardust.Core.Text
import Stardust.Redis.View

/-!
# Retry notifications

A notification is a key with an expiration; its expiry is announced on a channel named after the
key, from which the payload is read back. Whoever handles a payload holds a lock, a key without an
expiration that has the name of its owner.
-/

namespace Stardust.Redis

open Stardust.Core

/-- What is notified, and for which time. -/
structure Payload where
  /-- How many expiries have been handled. -/
  count : Int
  value : String
  deriving DecidableEq, Repr

/-- A notification. Policies are the waiting times in nanoseconds. -/
structure Notification where
  /-- The key that it is about. -/
  key : String
  /-- The name of the process. -/
  node : String
  /-- The view of Redis that it uses. -/
  cache : RedisView
  /-- The waiting time before each attempt. -/
  policies : List Int
  deriving DecidableEq, Repr

/-- One minute in nanoseconds. -/
def minute : Int := 60000000000

/-- The waiting times when none are given. -/
def defaultRetryPolicies : List Int :=
  [minute * 1, minute * 5, minute * 10, minute * 30, minute * 60, minute * 120]

/-- Without a view of Redis there is no notification. -/
def newNotification (node key : String) (cache : Option RedisView) (policies : Option (List Int)) :
    Option Notification :=
  match cache with
  | none => none
  | some cache =>
    if node = "" ∨ key = "" then none
    else some ⟨key, node, cache, policies.getD defaultRetryPolicies⟩

/-- What the keys of payloads begin with. -/
def retryKeyPrefix : String := "retry"

/-- The payload as the end of a key. -/
def encodePayload (p : Payload) : String := p.value ++ "||" ++ toString p.count

/-- The payload that the name of a channel ends with. -/
def decodePayload (s : String) : Except String Payload :=
  let ss := s.toList.splitOn ':'
  if ss.length < 2 then .error ("illegal payload: " ++ s)
  else
    match splitPair '|' '|' (ss.tail.getLastD []) with
    | value :: count :: _ => .ok ⟨parseInt 32 count, String.ofList value⟩
    | _ => .error ("illegal payload: " ++ s)

/-- The channel on which Redis announces what happens to a key of a database. -/
def keyspaceChannel (db : Nat) (key : String) : String :=
  "__keyspace@" ++ toString db ++ "__:" ++ key

variable {s : String}

/-- Only what follows the last colon is decoded. -/
theorem decodePayload_append {before after : List Char} (hs : s.toList = before ++ ':' :: after)
    (hafter : ':' ∉ after) :
    decodePayload s = match splitPair '|' '|' after with
      | value :: count :: _ => .ok ⟨parseInt 32 count, String.ofList value⟩
      | _ => .error ("illegal payload: " ++ s) := by
  have hsplit : s.toList.splitOn ':' = before.splitOn ':' ++ [after] := by
    rw [hs, ← List.splitOn_eq_singleton hafter]
    exact List.splitOnP_append_cons _ _ rfl
  cases hbefore : before.splitOn ':' with
  | nil => exact absurd hbefore (List.splitOn_ne_nil ':' before)
  | cons part parts =>
    unfold decodePayload
    rw [hsplit, hbefore]
    simp

private theorem decodePayload_of_no_colon (h : ':' ∉ s.toList) :
    decodePayload s = .error ("illegal payload: " ++ s) := by
  unfold decodePayload
  rw [List.splitOn_eq_singleton h]
  rfl

variable {p : Payload}

/-- What is decoded was put together around the bars. -/
theorem exists_of_decodePayload (h : decodePayload s = .ok p) :
    ∃ before after count rest, s.toList = before ++ ':' :: after ∧ ':' ∉ after ∧
      splitPair '|' '|' after = p.value.toList :: count :: rest := by
  by_cases hcolon : ':' ∈ s.toList
  · obtain ⟨before, after, hs, hafter⟩ := exists_append_cons_of_mem hcolon
    rw [decodePayload_append hs hafter] at h
    split at h
    · next value count rest hsplit =>
      cases h
      exact ⟨before, after, count, rest, hs, hafter, by rw [hsplit, String.toList_ofList]⟩
    · cases h
  · rw [decodePayload_of_no_colon hcolon] at h
    cases h

/-- A value as it is decoded: without a colon, and with no bars where they would be split. -/
structure Decoded (value : String) : Prop where
  colon : ':' ∉ value.toList
  bars : ∀ before after, value.toList ++ ['|'] ≠ before ++ '|' :: '|' :: after

private theorem decoded_of_no_separator {value : String} (hcolon : ':' ∉ value.toList)
    (hbar : '|' ∉ value.toList) : Decoded value := by
  refine ⟨hcolon, fun before after heq => ?_⟩
  have hcount := congrArg (List.count '|') heq
  rw [List.count_append, List.count_eq_zero.mpr hbar] at hcount
  simp at hcount
  omega

/-- A decoded value has no separator. -/
theorem decoded_of_decodePayload (h : decodePayload s = .ok p) : Decoded p.value := by
  obtain ⟨before, after, count, rest, -, hafter, hsplit⟩ := exists_of_decodePayload h
  exact ⟨fun hcolon => hafter (mem_of_splitPair_first hsplit hcolon),
    splitPair_first_followed hsplit⟩

private theorem not_mem_toString {c : Char} (n : Int) (hdigit : c.isDigit = false)
    (hminus : c ≠ '-') : c ∉ (toString n).toList := by
  intro h
  rcases digit_or_minus_of_mem_toString h with hc | hc
  · rw [hc] at hdigit
    cases hdigit
  · exact hminus hc

private theorem colon_not_mem_payload {x : List Char} (hx : ':' ∉ x) (count : Int) :
    ':' ∉ x ++ '|' :: '|' :: (toString count).toList := by
  intro h
  rcases List.mem_append.mp h with h | h
  · exact hx h
  · rcases List.mem_cons.mp h with h | h
    · cases h
    · rcases List.mem_cons.mp h with h | h
      · cases h
      · exact not_mem_toString count rfl (by decide) h

private theorem toList_encodePayload (p : Payload) :
    (encodePayload p).toList = p.value.toList ++ '|' :: '|' :: (toString p.count).toList := by
  simp only [encodePayload, String.toList_append, List.append_assoc]
  rfl

/-- Every encoded payload is decoded as some payload. -/
theorem decodePayload_encodePayload_ok {before : List Char}
    (hs : s.toList = before ++ ':' :: (encodePayload p).toList) : ∃ q, decodePayload s = .ok q := by
  obtain ⟨before', x, hs', hx⟩ : ∃ before' x,
      s.toList = before' ++ ':' :: (x ++ '|' :: '|' :: (toString p.count).toList) ∧ ':' ∉ x := by
    rw [toList_encodePayload] at hs
    by_cases hvalue : ':' ∈ p.value.toList
    · obtain ⟨y, x, hvalue, hx⟩ := exists_append_cons_of_mem hvalue
      refine ⟨before ++ ':' :: y, x, ?_, hx⟩
      rw [hs, hvalue]
      simp
    · exact ⟨before, p.value.toList, hs, hvalue⟩
  rw [decodePayload_append hs' (colon_not_mem_payload hx p.count)]
  have hlength := two_le_length_splitPair (a := '|') (b := '|') x (toString p.count).toList
  split
  · exact ⟨_, rfl⟩
  · next hparts =>
    cases hsplit : splitPair '|' '|' (x ++ '|' :: '|' :: (toString p.count).toList) with
    | nil =>
      rw [hsplit] at hlength
      exact absurd hlength (by decide)
    | cons value parts =>
      cases parts with
      | nil =>
        rw [hsplit] at hlength
        exact absurd hlength (by simp)
      | cons count rest => exact absurd hsplit (hparts value count rest)

/-- A decoded value is decoded again as it is. -/
theorem Decoded.decodePayload_encodePayload {value : String} (h : Decoded value)
    {before : List Char} {count : Int}
    (hs : s.toList = before ++ ':' :: (encodePayload ⟨count, value⟩).toList) :
    decodePayload s = .ok ⟨parseInt 32 (toString count).toList, value⟩ := by
  have hbar := not_mem_toString (c := '|') count rfl (by decide)
  rw [toList_encodePayload] at hs
  rw [decodePayload_append hs (colon_not_mem_payload h.colon count), splitPair_append h.bars,
    splitPair_of_no_pair]
  · simp
  · intro x y heq
    exact hbar (heq ▸ List.mem_append_right x (List.mem_cons_self ..))

/-- A decoded value by itself is no payload. -/
theorem Decoded.decodePayload_value {value : String} (h : Decoded value) {before : List Char}
    (hs : s.toList = before ++ ':' :: value.toList) :
    decodePayload s = .error ("illegal payload: " ++ s) := by
  rw [decodePayload_append hs h.colon, splitPair_of_no_pair]
  intro x y heq
  exact h.bars x (y ++ ['|']) (by rw [heq]; simp)

variable (n : Notification)

namespace Notification

/-- The key that waits for its expiry, as the server sees it. -/
def waitKey (p : Payload) : String :=
  n.cache.expandKey (retryKeyPrefix ++ "-" ++ n.key ++ ":" ++ encodePayload p)

/-- The key of the lock for a value, as the server sees it. -/
def lockKey (value : String) : String :=
  n.cache.expandKey (retryKeyPrefix ++ "-" ++ n.key ++ ":" ++ value)

/-- The name of a goroutine as an owner of locks. -/
def owner (routineID : Nat) : String := n.node ++ "-" ++ toString routineID

/-- The channel of an entry ends with its payload. -/
theorem toList_waitChannel (db : Nat) (p : Payload) :
    ∃ before, (keyspaceChannel db (n.waitKey p)).toList =
      before ++ ':' :: (encodePayload p).toList := by
  refine ⟨("__keyspace@" ++ toString db ++ "__:" ++ n.cache.keyPrefix ++ redisKeySep ++
    retryKeyPrefix ++ "-" ++ n.key).toList, ?_⟩
  simp only [keyspaceChannel, waitKey, RedisView.expandKey, String.toList_append,
    List.append_assoc]
  rfl

/-- The channel of a payload that was put is decoded as that payload exactly when the value has no
separators in it. -/
theorem decode_put_channel_iff (db : Nat) (value : String) (count : Int) (hcount : 0 ≤ count)
    (hrange : count < 2 ^ 31) :
    decodePayload (keyspaceChannel db (n.waitKey ⟨count, value⟩)) = .ok ⟨count, value⟩ ↔
      Decoded value := by
  refine ⟨decoded_of_decodePayload, fun hvalue => ?_⟩
  obtain ⟨before, hchannel⟩ := n.toList_waitChannel db ⟨count, value⟩
  obtain ⟨k, rfl⟩ := Int.eq_ofNat_of_zero_le hcount
  have hparse : parseInt 32 (toString (k : Int)).toList = k := by
    refine (parseInt_toString 32 k).trans ?_
    rw [min_eq_left]
    exact Int.le_sub_one_of_lt hrange
  rw [hvalue.decodePayload_encodePayload hchannel, hparse]

/-- A notification of the process on the first node. -/
def orderNotification : Notification := ⟨"orders", "node-1", ⟨"shop"⟩, defaultRetryPolicies⟩

/-- The payload of an order is read back. -/
theorem decode_put_channel_order :
    decodePayload (keyspaceChannel 0 (orderNotification.waitKey ⟨3, "order-7"⟩)) =
      .ok ⟨3, "order-7"⟩ :=
  (decode_put_channel_iff orderNotification 0 "order-7" 3 (by decide) (by decide)).mpr
    (decoded_of_no_separator (by decide +kernel) (by decide +kernel))

/-- A value with a colon is cut at it, and a value with bars brings its own count. -/
theorem decode_put_channel_cut :
    decodePayload (keyspaceChannel 0 (orderNotification.waitKey ⟨3, "order:7"⟩)) = .ok ⟨3, "7"⟩ ∧
      decodePayload (keyspaceChannel 0 (orderNotification.waitKey ⟨3, "order||7"⟩)) =
        .ok ⟨7, "order"⟩ := by
  decide +kernel

/-- The channel of a lock ends with its value. -/
theorem toList_lockChannel (db : Nat) (value : String) :
    ∃ before, (keyspaceChannel db (n.lockKey value)).toList = before ++ ':' :: value.toList := by
  refine ⟨("__keyspace@" ++ toString db ++ "__:" ++ n.cache.keyPrefix ++ redisKeySep ++
    retryKeyPrefix ++ "-" ++ n.key).toList, ?_⟩
  simp only [keyspaceChannel, lockKey, RedisView.expandKey, String.toList_append,
    List.append_assoc]
  rfl

/-- A decoded value has no bars in it. -/
theorem decodePayload_value (h : decodePayload s = .ok p) (before after : List Char) :
    p.value.toList ≠ before ++ '|' :: '|' :: after := by
  obtain ⟨_, _, _, _, -, -, hsplit⟩ := exists_of_decodePayload h
  exact splitPair_first hsplit before after

/-- No lock for a decoded value is a key that waits. -/
theorem waitKey_ne_lockKey (h : decodePayload s = .ok p) (n : Notification) (q : Payload) :
    n.waitKey q ≠ n.lockKey p.value := by
  intro heq
  have hlist := congrArg String.toList (RedisView.expandKey_inj.mp heq)
  simp only [String.toList_append, encodePayload, List.append_cancel_left_eq] at hlist
  refine decodePayload_value h q.value.toList (toString q.count).toList ?_
  rw [← hlist, List.append_assoc]
  rfl

/-- Different values have different locks. -/
theorem lockKey_inj {n : Notification} {value value' : String} :
    n.lockKey value = n.lockKey value' ↔ value = value' := by
  refine ⟨fun heq => ?_, fun heq => congrArg _ heq⟩
  have hlist := congrArg String.toList (RedisView.expandKey_inj.mp heq)
  simp only [String.toList_append, List.append_cancel_left_eq] at hlist
  exact String.toList_injective hlist

/-- The name of an owner tells its node. -/
theorem node_eq_of_owner_eq {n n' : Notification} {routineID routineID' : Nat}
    (h : n.owner routineID = n'.owner routineID') : n.node = n'.node := by
  have hlist := congrArg String.toList h
  simp only [owner, String.toList_append, List.append_assoc] at hlist
  exact String.toList_injective (eq_of_append_cons_eq (minus_not_mem_toString _)
    (minus_not_mem_toString _) hlist).1

end Notification

end Stardust.Redis
