import Stardust.Utils.InnerRanges

/-!
# Access without a token

A request without a `jwt` header is let through when its client address is internal. The engine of
a server trusts every proxy, so that the client address is whatever the request says in its
headers; the peer's own address counts only where no header is usable.
-/

namespace Stardust.HttpServer

open Utils

/-- A value of a claim in a token. -/
inductive ClaimValue where
  | text (s : String)
  | other (n : Int)
  deriving DecidableEq

/-- The claims of a decrypted token that the middleware looks at. -/
structure Claims where
  token : Option ClaimValue
  id : Option ClaimValue

/-- What the middleware reads besides the request. -/
structure AccessEnv where
  appName : String
  appVersion : String
  /-- The claims of a valid token under a secret. -/
  jwtDecrypt : String → String → Option Claims
  /-- The value of a key, absent on any error. -/
  redisGet : String → Option String

/-- The parts of a request that decide about its access: the host of the peer's address, and
headers with their first value, empty if they are missing. -/
structure AccessRequest where
  remoteIP : String
  jwt : String
  xForwardedFor : String
  xRealIP : String

/-- What becomes of a request. -/
inductive Access where
  | next
  | abort (status errCode : Nat) (errMsg : String)
  /-- The outermost recovery answers 500. -/
  | panicked
  deriving DecidableEq

/-- The characters that `strings.TrimSpace` takes off. -/
def isSpace (c : Char) : Bool :=
  c ∈ [' ', '\t', '\n', '\r', '\x0b', '\x0c', '\u0085', '\u00a0', '\u1680', '\u2028',
    '\u2029', '\u202f', '\u205f', '\u3000'] ∨ '\u2000' ≤ c ∧ c ≤ '\u200a'

/-- `strings.TrimSpace`. -/
def trimSpace (s : List Char) : List Char :=
  ((s.dropWhile isSpace).reverse.dropWhile isSpace).reverse

/-- The default of the engine, `0.0.0.0/0` and `::/0`. -/
def isTrustedProxy (_ip : List Nat) : Bool := true

/-- The loop over the entries of a header, from the last one to the first. -/
def validateItems : List (List Char) → Option String
  | [] => none
  | item :: rest =>
    match parseIP (String.ofList (trimSpace item)) with
    | none => none
    | some ip =>
      if rest = [] ∨ isTrustedProxy ip = false then some (String.ofList (trimSpace item))
      else validateItems rest

/-- The address that a header gives, from its last item on. -/
def validateHeader (header : String) : Option String :=
  if header = "" then none else validateItems (header.toList.splitOn ',').reverse

/-- The lower-case hexadecimal digits of a group. -/
def hexString (group : Nat) : String := String.ofList (Nat.toDigits 16 group)

/-- The length of the zeros at the head of some groups. -/
def zeroRun (groups : List Nat) : Nat := (groups.takeWhile (· = 0)).length

/-- The first of the longest runs of two zeros or more: where it starts and its length. -/
def longestZeros (groups : List Nat) : Nat × Nat :=
  (List.range 8).foldl
    (fun best i =>
      if 2 ≤ zeroRun (groups.drop i) ∧ best.2 < zeroRun (groups.drop i) then
        (i, zeroRun (groups.drop i))
      else best)
    (8, 0)

/-- The text of an address; one that maps an IPv4 address is written as that one. -/
def ipString (groups : List Nat) : String :=
  match groups with
  | [0, 0, 0, 0, 0, 65535, hi, lo] =>
    ".".intercalate [Nat.repr (hi / 256), Nat.repr (hi % 256), Nat.repr (lo / 256),
      Nat.repr (lo % 256)]
  | _ =>
    match longestZeros groups with
    | (_, 0) => ":".intercalate (groups.map hexString)
    | (start, length) =>
      ":".intercalate ((groups.take start).map hexString) ++ "::" ++
        ":".intercalate ((groups.drop (start + length)).map hexString)

/-- `ClientIP` of gin. -/
def clientIP (req : AccessRequest) : String :=
  match parseIP req.remoteIP with
  | none => ""
  | some remoteIP =>
    match validateHeader req.xForwardedFor with
    | some ip => ip
    | none =>
      match validateHeader req.xRealIP with
      | some ip => ip
      | none => ipString remoteIP

/-- The body of the middleware. The id of a token that passes is added to the query, which is part
of a state that is otherwise left alone. -/
def accessWith {γ : Type} (addId : String → γ → γ) (env : AccessEnv) (req : AccessRequest)
    (c : γ) : Access × γ :=
  if req.jwt ≠ "" then
    match env.jwtDecrypt req.jwt (env.appName ++ "-" ++ env.appVersion) with
    | none => (.abort 401 2 "jwt解析错误", c)
    | some claims =>
      match claims.token, claims.id with
      | some token, some (.text id) =>
        match env.redisGet (env.appName ++ ":user:token:" ++ id) with
        | none => (.abort 401 2 "获取token失败", c)
        | some oldToken =>
          if token ≠ .text oldToken then (.abort 401 2 "账户已经在其他终端登录", c)
          else (.next, addId id c)
      | some _, some _ => (.abort 401 2 "用户信息获取失败", c)
      | _, _ => (.abort 401 2 "jwt解析错误", c)
  else
    match isInnerIp (clientIP req) with
    | none => (.panicked, c)
    | some true => (.next, c)
    | some false => (.abort 401 2 "服务器繁忙,请稍后再试!", c)

/-- What the middleware makes of a request, whatever its query is. -/
def access (env : AccessEnv) (req : AccessRequest) : Access :=
  (accessWith (fun _ c => c) env req ()).1

/-- The entries of a header. -/
def headerEntries (header : String) : List String :=
  if header = "" then []
  else (header.toList.splitOn ',').map fun item => String.ofList (trimSpace item)

/-- The address that a header claims: its first entry, if all of them are addresses. -/
def headerClaim (header : String) : Option String :=
  if (headerEntries header).all checkIp then (headerEntries header).head? else none

/-- The address that decides about a request: what its headers claim, and the peer's own address
where they claim nothing. -/
def decidingAddress (req : AccessRequest) : String :=
  match parseIP req.remoteIP with
  | none => ""
  | some remoteIP =>
    ((headerClaim req.xForwardedFor).or (headerClaim req.xRealIP)).getD (ipString remoteIP)

private theorem validateItems_eq (items : List (List Char)) :
    validateItems items =
      if (items.map fun item => String.ofList (trimSpace item)).all checkIp then
        (items.map fun item => String.ofList (trimSpace item)).getLast?
      else none := by
  induction items with
  | nil => rfl
  | cons item rest ih =>
    rw [validateItems, ih]
    cases hparse : parseIP (String.ofList (trimSpace item)) with
    | none => simp [checkIp, hparse]
    | some ip =>
      have hcheck : checkIp (String.ofList (trimSpace item)) = true := by
        rw [checkIp, hparse]
        rfl
      cases rest with
      | nil => simp [hcheck]
      | cons item' rest =>
        simp [hcheck, isTrustedProxy, List.getLast?_cons_cons]

/-- The loop from the right ends at the first entry, whatever proxies stand behind it. -/
theorem validateHeader_eq (header : String) : validateHeader header = headerClaim header := by
  unfold validateHeader headerClaim headerEntries
  split
  · rfl
  · rw [validateItems_eq, List.map_reverse, List.all_reverse, List.getLast?_reverse]

private theorem clientIP_eq (req : AccessRequest) : clientIP req = decidingAddress req := by
  unfold clientIP decidingAddress
  rw [validateHeader_eq, validateHeader_eq]
  cases parseIP req.remoteIP with
  | none => rfl
  | some remoteIP =>
    cases headerClaim req.xForwardedFor with
    | some ip => rfl
    | none => cases headerClaim req.xRealIP <;> rfl

/-- What becomes of a request without a token, by the answer about its address. -/
def Access.ofInner : Option Bool → Access
  | none => .panicked
  | some true => .next
  | some false => .abort 401 2 "服务器繁忙,请稍后再试!"

private theorem Access.ofInner_injective {inner inner' : Option Bool} :
    Access.ofInner inner = Access.ofInner inner' ↔ inner = inner' := by
  rcases inner with _ | (_ | _) <;> rcases inner' with _ | (_ | _) <;> decide

private theorem access_without_jwt (env : AccessEnv) {req : AccessRequest} (hjwt : req.jwt = "") :
    access env req = Access.ofInner (addressForm (decidingAddress req)).inner := by
  unfold access accessWith
  rw [if_neg (not_not.mpr hjwt), clientIP_eq, isInnerIp_eq_inner]
  rcases (addressForm (decidingAddress req)).inner with _ | (_ | _) <;> rfl

/-- Only an internal IPv4 address is internal. -/
theorem inner_eq_true_iff {form : AddressForm} :
    form.inner = some true ↔ ∃ a b c d, form = .v4 a b c d ∧ Inner a b := by
  cases form with
  | v4 a b c d => simp [AddressForm.inner]
  | notAddress => simp [AddressForm.inner]
  | mixed => simp [AddressForm.inner]
  | v6 => simp [AddressForm.inner]

/-- Two requests without a token from one peer get the same decision exactly when the first entries
of their usable headers are addresses of one class; and such a request reaches the handler exactly
when that address is an internal IPv4 address. -/
theorem access_same_iff_same_class (env : AccessEnv)
    (peer forwarded real forwarded' real' : String) :
    (access env ⟨peer, "", forwarded, real⟩ = access env ⟨peer, "", forwarded', real'⟩ ↔
      (addressForm (decidingAddress ⟨peer, "", forwarded, real⟩)).inner =
        (addressForm (decidingAddress ⟨peer, "", forwarded', real'⟩)).inner) ∧
    (access env ⟨peer, "", forwarded, real⟩ = .next ↔
      ∃ a b c d, addressForm (decidingAddress ⟨peer, "", forwarded, real⟩) = .v4 a b c d ∧
        Inner a b) := by
  rw [access_without_jwt env rfl, access_without_jwt env rfl]
  refine ⟨Access.ofInner_injective, ?_⟩
  rw [← inner_eq_true_iff]
  have hnext : Access.next = Access.ofInner (some true) := rfl
  rw [hnext, Access.ofInner_injective]

/-- A server without tokens. -/
def plainEnv : AccessEnv := ⟨"app", "1", fun _ _ => none, fun _ => none⟩

/-- A peer outside the internal ranges is turned away, and let through once it claims to be
inside. -/
theorem access_forged_header :
    addressForm "203.0.113.9" = .v4 203 0 113 9 ∧ ¬ Inner 203 0 ∧
      access plainEnv ⟨"203.0.113.9", "", "", ""⟩ = .abort 401 2 "服务器繁忙,请稍后再试!" ∧
      access plainEnv ⟨"203.0.113.9", "", "10.0.0.1", ""⟩ = .next := by
  decide +kernel

/-- `IsInnerIp` returns on a text exactly when `net.ParseIP` does not accept it or it has a dot; and
the middleware panics on a request without a token exactly when it does not return on the address
that decides. -/
theorem isInnerIp_returns_iff (ipStr : String) :
    ((isInnerIp ipStr).isSome ↔ checkIp ipStr = false ∨ '.' ∈ ipStr.toList) ∧
      (checkIp ipStr = true → (4 ≤ (ipStr.toList.splitOn '.').length ↔ '.' ∈ ipStr.toList)) ∧
      ∀ env req, req.jwt = "" → clientIP req = ipStr →
        (access env req = .panicked ↔ checkIp ipStr = true ∧ '.' ∉ ipStr.toList) := by
  refine ⟨?_, fun hcheck => ?_, fun env req hjwt hclient => ?_⟩
  · rw [← not_iff_not, Option.not_isSome_iff_eq_none, isInnerIp_eq_none_iff, not_or,
      Bool.not_eq_false]
  · rw [length_splitOn_of_checkIp hcheck]
    split <;> simp_all
  · rw [access_without_jwt env hjwt, ← clientIP_eq, hclient, ← isInnerIp_eq_inner,
      ← isInnerIp_eq_none_iff]
    have hpanicked : Access.panicked = Access.ofInner none := rfl
    rw [hpanicked, Access.ofInner_injective]

/-- A peer with an IPv6 address gets no decision. -/
theorem access_panics_on_ipv6 :
    isInnerIp "::1" = none ∧ access plainEnv ⟨"2001:db8::1", "", "", ""⟩ = .panicked := by
  decide +kernel

end Stardust.HttpServer
