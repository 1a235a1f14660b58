import Stardust.HttpServer.Access
import Stardust.HttpServer.Query

/-!
# The identity that reaches a handler

The middleware that checks a token adds the token's id to a map made for this addition. The
handlers after it get their parameters from another map, so that they see the id that the client
has sent.
-/

namespace Stardust.HttpServer

open Stardust.Core

/-- The middleware with its effect on the request's query. -/
def serveAccess (env : AccessEnv) (req : AccessRequest) (c : Context) : Access × Context :=
  accessWith (fun id c => c.urlQuery.2.add c.urlQuery.1 (bytes "id") (bytes id)) env req c

/-- What a request with a token leaves behind when it passes: one more map, with the id added. -/
theorem serveAccess_snd {env : AccessEnv} {req : AccessRequest} {claims : Claims} {i : String}
    (hjwt : req.jwt ≠ "")
    (hclaims : env.jwtDecrypt req.jwt (env.appName ++ "-" ++ env.appVersion) = some claims)
    (hid : claims.id = some (.text i)) (hpass : access env req = .next) (c : Context) :
    (serveAccess env req c).2 = c.urlQuery.2.add c.urlQuery.1 (bytes "id") (bytes i) := by
  unfold access at hpass
  unfold serveAccess
  unfold accessWith at hpass ⊢
  rw [if_pos hjwt, hclaims] at hpass ⊢
  cases htoken : claims.token with
  | none => simp [htoken] at hpass
  | some token =>
    simp only [htoken, hid] at hpass ⊢
    cases hold : env.redisGet (env.appName ++ ":user:token:" ++ i) with
    | none => simp [hold] at hpass
    | some oldToken =>
      simp only [hold] at hpass ⊢
      by_cases hsame : token = .text oldToken
      · rw [if_neg (not_not.mpr hsame)]
      · rw [if_pos hsame] at hpass
        cases hpass

/-- The parameters that the handlers after the middleware get for a query. -/
def downstream (env : AccessEnv) (req : AccessRequest) (rawQuery : GoString) : Values :=
  fun key => ((serveAccess env req (.arrived rawQuery)).2.getQueryArray key).1

/-- A request that passes with a token is seen as the client has sent it: its id is the token's
exactly if the client's first one is, and two requests that differ in their ids stay different. -/
theorem identity_downstream_iff {env : AccessEnv} {req : AccessRequest} {claims : Claims}
    {i : String} (hjwt : req.jwt ≠ "")
    (hclaims : env.jwtDecrypt req.jwt (env.appName ++ "-" ++ env.appVersion) = some claims)
    (hid : claims.id = some (.text i)) (hpass : access env req = .next) (sent : GoString) :
    (((serveAccess env req (.arrived sent)).2.query (bytes "id")).1 = bytes i ↔
      (parseQuery sent (bytes "id")).headD [] = bytes i) ∧
      ∀ sent', (∀ key ≠ bytes "id", parseQuery sent key = parseQuery sent' key) →
        (downstream env req sent = downstream env req sent' ↔
          parseQuery sent (bytes "id") = parseQuery sent' (bytes "id")) := by
  have hsees : ∀ sent, downstream env req sent = parseQuery sent := by
    intro sent
    funext key
    unfold downstream
    rw [serveAccess_snd hjwt hclaims hid hpass,
      Context.getQueryArray_add_urlQuery (Context.arrived_sound sent),
      Context.getQueryArray_arrived]
  refine ⟨?_, fun sent' hother => ?_⟩
  · have hfirst := congrFun (hsees sent) (bytes "id")
    rw [← hfirst]
    rfl
  · rw [hsees, hsees]
    refine ⟨fun h => congrFun h _, fun h => funext fun key => ?_⟩
    by_cases hkey : key = bytes "id"
    · rw [hkey, h]
    · exact hother key hkey

/-- The claims of a user whose id is 7. -/
def loginClaims : Claims := ⟨some (.text "t"), some (.text "7")⟩

/-- A service whose only user is logged in. -/
def loginEnv : AccessEnv := ⟨"app", "1", fun _ _ => some loginClaims, fun _ => some "t"⟩

/-- A request of that user. -/
def loginRequest : AccessRequest := ⟨"203.0.113.9", "login", "", ""⟩

/-- A client that sends its own id is seen under it. -/
theorem identity_downstream_own_id :
    ((serveAccess loginEnv loginRequest (.arrived (bytes "id=7&page=2"))).2.query (bytes "id")).1 =
      bytes "7" :=
  (identity_downstream_iff (show loginRequest.jwt ≠ "" by decide) rfl
    (show loginClaims.id = some (.text "7") from rfl)
    (show access loginEnv loginRequest = .next by decide +kernel) (bytes "id=7&page=2")).1.mpr
    (by decide +kernel)

/-- User 7 passes as user 8, and as nobody without the parameter. -/
theorem identity_forged_id :
    access loginEnv loginRequest = .next ∧
      loginEnv.jwtDecrypt loginRequest.jwt "app-1" = some loginClaims ∧
      ((serveAccess loginEnv loginRequest (.arrived (bytes "id=8"))).2.query (bytes "id")).1 =
        bytes "8" ∧
      ((serveAccess loginEnv loginRequest (.arrived [])).2.query (bytes "id")).1 = [] ∧
      downstream loginEnv loginRequest (bytes "id=8") ≠
        downstream loginEnv loginRequest (bytes "id=9") := by
  refine ⟨by decide +kernel, by rfl, by decide +kernel, by decide +kernel, fun h => ?_⟩
  have hids : downstream loginEnv loginRequest (bytes "id=8") (bytes "id") ≠
      downstream loginEnv loginRequest (bytes "id=9") (bytes "id") := by
    decide +kernel
  exact hids (congrFun h (bytes "id"))

end Stardust.HttpServer
