import Stardust.HttpServer.Access
import Stardust.Register.Watch

/-!
# The address under which a gRPC server is found

A server registers the host and the port of its listener, read off the text of the listener's
address, and the resolver of a client puts them together again. The text has brackets around an
IPv6 host, which are taken off on the one side and not put back on the other.
-/

namespace Stardust.HttpServer

open Stardust.Core

/-- The groups of an address that maps an IPv4 address. -/
def Mapped (ip : List Nat) : Prop := ∃ hi lo, ip = [0, 0, 0, 0, 0, 65535, hi, lo]

/-- The address of a listener. -/
structure TCPAddr where
  /-- Eight groups, or none for an unspecified host. -/
  ip : List Nat
  zone : String
  port : Nat
  groups : ip = [] ∨ ip.length = 8 ∧ ∀ g ∈ ip, g < 65536
  /-- Only IPv6 addresses have a zone. -/
  zoned : zone ≠ "" → ip ≠ [] ∧ ¬ Mapped ip
  inRange : port < 65536

/-- `net.JoinHostPort`. -/
def joinHostPort (host port : String) : String :=
  if ':' ∈ host.toList then "[" ++ host ++ "]:" ++ port else host ++ ":" ++ port

/-- The text of an address, empty for none. -/
def ipEmptyString (ip : List Nat) : String := if ip = [] then "" else ipString ip

/-- `TCPAddr.String`. -/
def TCPAddr.string (a : TCPAddr) : String :=
  if a.zone ≠ "" then joinHostPort (ipEmptyString a.ip ++ "%" ++ a.zone) (toString a.port)
  else joinHostPort (ipEmptyString a.ip) (toString a.port)

/-- Where a character occurs last. -/
def lastIndex (s : List Char) (c : Char) : Option Nat :=
  (s.reverse.idxOf? c).map fun i => s.length - 1 - i

/-- The checks after the host has been found between the brackets or before the colon; `i` is the
place of the last colon, and a bracket is in order only before `j` or `k`. -/
def checkBrackets (hostport host : List Char) (i j k : Nat) :
    Except String (List Char × List Char) :=
  if '[' ∈ hostport.drop j then .error "unexpected '[' in address"
  else if ']' ∈ hostport.drop k then .error "unexpected ']' in address"
  else .ok (host, hostport.drop (i + 1))

/-- `net.SplitHostPort`. -/
def splitHostPort (hostport : List Char) : Except String (List Char × List Char) :=
  match lastIndex hostport ':' with
  | none => .error "missing port in address"
  | some i =>
    if hostport.head? = some '[' then
      match hostport.idxOf? ']' with
      | none => .error "missing ']' in address"
      | some e =>
        if e + 1 = hostport.length then .error "missing port in address"
        else if e + 1 = i then checkBrackets hostport ((hostport.take e).drop 1) i 1 (e + 1)
        else if hostport[e + 1]? = some ':' then .error "too many colons in address"
        else .error "missing port in address"
    else if ':' ∈ hostport.take i then .error "too many colons in address"
    else checkBrackets hostport (hostport.take i) i 0 0

/-- The host and the port of an address, both errors ignored. -/
def parseAddr (addr : String) : String × Int :=
  match splitHostPort addr.toList with
  | .ok (host, portStr) => (String.ofList host, parseInt 64 portStr)
  | .error _ => ("", parseInt 64 [])

/-- What `ServiceRegistry.Register` records, with the session that it generates. -/
def registryInfo (name address : String) (port : Int) (tags : List String) (sessionId : String) :
    Register.ServiceInfo :=
  ⟨name, name ++ "-" ++ sessionId, address, port, tags, []⟩

/-- What `Startup` registers for its listener. -/
def startupInfo (serviceName : String) (tags : List String) (sessionId : String) (addr : String) :
    Register.ServiceInfo :=
  let (host, port) := parseAddr addr
  registryInfo serviceName host port tags sessionId

/-- The last occurrence of a character. -/
theorem lastIndex_append_cons {c : Char} {before after : List Char} (h : c ∉ after) :
    lastIndex (before ++ c :: after) c = some before.length := by
  have hreverse : (before ++ c :: after).reverse = after.reverse ++ c :: before.reverse := by simp
  have hfirst : (after.reverse ++ c :: before.reverse).idxOf? c = some after.length := by
    have hnone : after.reverse.findIdx? (· == c) = none := by
      simp only [List.findIdx?_eq_none_iff, List.mem_reverse, beq_eq_false_iff_ne]
      rintro d hd rfl
      exact h hd
    rw [List.idxOf?, List.findIdx?_append, hnone, List.findIdx?_cons]
    simp
  rw [lastIndex, hreverse, hfirst, Option.map_some, List.length_append, List.length_cons]
  congr 1
  omega

/-- A host without colons and brackets is split from its port. -/
theorem splitHostPort_of_plain {host port : List Char}
    (hhost : ∀ c ∈ host, c ≠ ':' ∧ c ≠ '[' ∧ c ≠ ']') (hport : ∀ c ∈ port, c.isDigit = true) :
    splitHostPort (host ++ ':' :: port) = .ok (host, port) := by
  have hcolon : ':' ∉ port := fun h => absurd (hport _ h) (by decide)
  have hbefore : ':' ∉ host := fun h => (hhost _ h).1 rfl
  have hopen : '[' ∉ host ++ ':' :: port := by
    simp only [List.mem_append, List.mem_cons, not_or]
    exact ⟨fun h => (hhost _ h).2.1 rfl, by decide, fun h => absurd (hport _ h) (by decide)⟩
  have hclose : ']' ∉ host ++ ':' :: port := by
    simp only [List.mem_append, List.mem_cons, not_or]
    exact ⟨fun h => (hhost _ h).2.2 rfl, by decide, fun h => absurd (hport _ h) (by decide)⟩
  have hhead : (host ++ ':' :: port).head? ≠ some '[' := fun h => hopen (List.mem_of_head? h)
  simp only [splitHostPort, lastIndex_append_cons hcolon, if_neg hhead, List.take_left,
    if_neg hbefore, checkBrackets, List.drop_zero, if_neg hopen, if_neg hclose]
  simp

/-- What is found behind an opening bracket has no other one in it. -/
theorem splitHostPort_of_bracket {hostport host port : List Char}
    (hhead : hostport.head? = some '[') (h : splitHostPort hostport = .ok (host, port)) :
    '[' ∉ host := by
  unfold splitHostPort at h
  split at h
  · cases h
  rw [if_pos hhead] at h
  split at h
  · cases h
  split at h
  · cases h
  split at h
  · unfold checkBrackets at h
    split at h
    · cases h
    · next hopen =>
      split at h
      · cases h
      · simp only [Except.ok.injEq, Prod.mk.injEq] at h
        rw [← h.1, List.drop_take]
        exact fun hmem => hopen (List.mem_of_mem_take hmem)
  · split at h <;> cases h

/-- The text of an IPv6 address has a colon in it. -/
theorem colon_mem_ipString {ip : List Nat} (h : ip.length = 8) (hmapped : ¬ Mapped ip) :
    ':' ∈ (ipString ip).toList := by
  unfold ipString
  split
  · exact absurd ⟨_, _, rfl⟩ hmapped
  · split
    · rcases ip with - | ⟨g, - | ⟨g', rest⟩⟩
      · cases h
      · cases h
      · simp [String.toList_intercalate]
    · simp

/-- The text of an IPv4 address has digits and dots only. -/
theorem ipString_of_mapped {ip : List Nat} (h : Mapped ip) {c : Char}
    (hc : c ∈ (ipString ip).toList) : c.isDigit = true ∨ c = '.' := by
  obtain ⟨hi, lo, rfl⟩ := h
  have hdigits : ∀ n, c ∈ (Nat.repr n).toList → c.isDigit = true :=
    fun n hn => isDigit_of_mem_toString hn
  have htext : ipString [0, 0, 0, 0, 0, 65535, hi, lo] =
      Nat.repr (hi / 256) ++ "." ++ Nat.repr (hi % 256) ++ "." ++ Nat.repr (lo / 256) ++ "." ++
        Nat.repr (lo % 256) := rfl
  rw [htext] at hc
  simp only [String.toList_append, List.mem_append] at hc
  have hdot : c ∈ (".").toList → c = '.' := List.mem_singleton.mp
  rcases hc with (((((hc | hc) | hc) | hc) | hc) | hc) | hc
  · exact Or.inl (hdigits _ hc)
  · exact Or.inr (hdot hc)
  · exact Or.inl (hdigits _ hc)
  · exact Or.inr (hdot hc)
  · exact Or.inl (hdigits _ hc)
  · exact Or.inr (hdot hc)
  · exact Or.inl (hdigits _ hc)

namespace TCPAddr

/-- The text of an address with an IPv4 host or none. -/
theorem string_of_plain {a : TCPAddr} (h : a.ip = [] ∨ Mapped a.ip) :
    (∀ c ∈ (ipEmptyString a.ip).toList, c.isDigit = true ∨ c = '.') ∧
      a.string = ipEmptyString a.ip ++ ":" ++ toString a.port := by
  have hchars : ∀ c ∈ (ipEmptyString a.ip).toList, c.isDigit = true ∨ c = '.' := by
    intro c hc
    unfold ipEmptyString at hc
    split at hc
    · cases hc
    · next hne => exact ipString_of_mapped (h.resolve_left hne) hc
  have hcolon : ':' ∉ (ipEmptyString a.ip).toList := by
    intro hc
    rcases hchars _ hc with hdigit | hdot
    · cases hdigit
    · cases hdot
  have hzone : a.zone = "" := by
    by_contra hne
    obtain ⟨hnonempty, hmapped⟩ := a.zoned hne
    exact h.elim hnonempty hmapped
  refine ⟨hchars, ?_⟩
  rw [string, if_neg (not_not.mpr hzone), joinHostPort, if_neg hcolon]

/-- The text of an address with an IPv6 host begins with a bracket. -/
theorem string_of_bracketed {a : TCPAddr} (h : ¬ (a.ip = [] ∨ Mapped a.ip)) :
    a.string.toList.head? = some '[' := by
  rw [not_or] at h
  have hcolon : ':' ∈ (ipEmptyString a.ip).toList := by
    rw [ipEmptyString, if_neg h.1]
    exact colon_mem_ipString (a.groups.resolve_left h.1).1 h.2
  have hzone : ':' ∈ (ipEmptyString a.ip ++ "%" ++ a.zone).toList := by
    simp [String.toList_append, hcolon]
  unfold string
  split
  · rw [joinHostPort, if_pos hzone]
    simp [String.toList_append]
  · rw [joinHostPort, if_pos hcolon]
    simp [String.toList_append]

/-- An IPv4 host, or none, is read back with its port. -/
theorem parseAddr_string {a : TCPAddr} (h : a.ip = [] ∨ Mapped a.ip) :
    parseAddr a.string = (ipEmptyString a.ip, (a.port : Int)) := by
  obtain ⟨hchars, htext⟩ := string_of_plain h
  have hlist : a.string.toList =
      (ipEmptyString a.ip).toList ++ ':' :: (toString a.port).toList := by
    rw [htext]
    simp [String.toList_append]
  have hsplit : splitHostPort a.string.toList =
      .ok ((ipEmptyString a.ip).toList, (toString a.port).toList) := by
    rw [hlist]
    refine splitHostPort_of_plain (fun c hc => ?_) fun c hc => isDigit_of_mem_toString hc
    rcases hchars c hc with hdigit | rfl
    · refine ⟨?_, ?_, ?_⟩ <;> rintro rfl <;> cases hdigit
    · decide
  have hport : parseInt 64 (toString a.port).toList = a.port := by
    have hrange := a.inRange
    rw [parseInt_toString]
    omega
  rw [parseAddr, hsplit]
  simp only [String.ofList_toList, hport]

end TCPAddr

/-- The host behind an opening bracket has no other one in it. -/
theorem bracket_not_mem_parseAddr {addr : String} (h : addr.toList.head? = some '[') :
    '[' ∉ (parseAddr addr).1.toList := by
  unfold parseAddr
  split
  · next host portStr hsplit =>
    rw [String.toList_ofList]
    exact splitHostPort_of_bracket h hsplit
  · simp

/-- A text that is made of a host without brackets, a colon and more begins with no bracket. -/
theorem head_ne_bracket {host : String} (h : '[' ∉ host.toList) (port : String) :
    (host ++ ":" ++ port).toList.head? ≠ some '[' := by
  intro hhead
  simp only [String.toList_append] at hhead
  cases htext : host.toList with
  | nil => simp [htext] at hhead
  | cons c rest =>
    rw [htext, List.cons_append, List.cons_append, List.head?_cons] at hhead
    obtain rfl : c = '[' := Option.some.inj hhead
    exact h (htext ▸ List.mem_cons_self)

/-- The address that a resolver makes of what is registered for an address. -/
theorem resolverAddress_startupInfo (serviceName : String) (tags : List String)
    (sessionId addr : String) :
    (Register.resolverAddress (startupInfo serviceName tags sessionId addr)).addr =
      (parseAddr addr).1 ++ ":" ++ toString (parseAddr addr).2 := rfl

/-- The address that a resolver makes of a registered listener is that of the listener exactly if
its host is an IPv4 address or empty. -/
theorem registered_address_dialable_iff (serviceName : String) (tags : List String)
    (sessionId : String) (a : TCPAddr) :
    (Register.resolverAddress (startupInfo serviceName tags sessionId a.string)).addr = a.string ↔
      a.ip = [] ∨ Mapped a.ip := by
  rw [resolverAddress_startupInfo]
  by_cases h : a.ip = [] ∨ Mapped a.ip
  · refine iff_of_true ?_ h
    rw [TCPAddr.parseAddr_string h, (TCPAddr.string_of_plain h).2]
    rfl
  · refine iff_of_false (fun heq => ?_) h
    have hhead := TCPAddr.string_of_bracketed h
    have hhost := bracket_not_mem_parseAddr hhead
    rw [← heq] at hhead
    exact head_ne_bracket hhost _ hhead

/-- A listener on all addresses. -/
def wildcardAddr : TCPAddr where
  ip := List.replicate 8 0
  zone := ""
  port := 9103
  groups := by decide
  zoned := by simp
  inRange := by decide

/-- A server that listens on all addresses registers one that cannot be dialled. -/
theorem registered_wildcard_not_dialable :
    wildcardAddr.string = "[::]:9103" ∧
      parseAddr wildcardAddr.string = ("::", 9103) ∧
      (Register.resolverAddress (startupInfo "user" [] "s" wildcardAddr.string)).addr =
        ":::9103" ∧
      splitHostPort (":::9103").toList = .error "too many colons in address" := by
  exact ⟨by decide +kernel, by decide +kernel, by decide +kernel, rfl⟩

end Stardust.HttpServer
