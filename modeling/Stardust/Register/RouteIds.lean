import Stardust.Core.Utf8
import Stardust.Register.Cleanup

/-!
# Route identifiers of different services

A route identifier is the service's own identifier, a separator and an index. Nothing is escaped,
but digits hold no dash: the last dash ends the separator, so different services and indices have
different identifiers. They need not reach APISIX: in the URL of a request `net/url` cuts what
follows a `#` or a `?` and decodes what follows a `%`, and APISIX keeps a resource under the path
that is left. Services whose identifiers have none of these keep to their own routes.
-/

namespace Stardust.Register

open Stardust.Core

/-- The path on which APISIX gets a request about a resource, below the Admin API, or none if
`net/url` refuses the URL. -/
def requestPath (resource : Resource) (id : String) : Option GoString :=
  let (url, fragment) := cut 0x23 (bytes (resource.path ++ "/" ++ id))
  if url.any fun c => c < 0x20 ∨ c = 0x7f then none
  else do
    let path ← unescape false (cut 0x3f url).1
    let _ ← unescape false fragment
    return path

/-- What APISIX holds under each path. -/
abbrev Held := GoString → Option Body

/-- APISIX gets a request and accepts it, or does not. -/
def Held.receive (ans : Answers) (held : Held) : Request → Held
  | .put resource id body =>
    if ans.putOk resource id then
      (requestPath resource id).elim held fun path => Function.update held path (some body)
    else held
  | .delete resource id =>
    if ans.deleteOk resource id then
      (requestPath resource id).elim held fun path => Function.update held path none
    else held

/-- No `#`, `?`, `%` or `/`: the identifier stands as it is in one segment of a path. -/
def Plain (id : String) : Prop := ∀ c ∈ bytes id, c ∉ [0x23, 0x3f, 0x25, 0x2f]

instance (id : String) : Decidable (Plain id) := inferInstanceAs (Decidable (∀ c ∈ bytes id, _))

private theorem Plain.append {s t : String} (hs : Plain s) (ht : Plain t) : Plain (s ++ t) := by
  intro c hc
  rw [bytes_append, List.mem_append] at hc
  exact hc.elim (hs c) (ht c)

private theorem plain_toString (i : Nat) : Plain (toString i) := by
  intro c hc
  obtain ⟨d, hd, hc⟩ := List.mem_flatMap.mp hc
  have hdigit := isDigit_of_mem_toString hd
  obtain ⟨k, hk, rfl⟩ : ∃ k < 10, d = Char.ofNat (48 + k) := by
    rw [Char.isDigit, Bool.and_eq_true, decide_eq_true_eq, decide_eq_true_eq] at hdigit
    have hlower : 48 ≤ d.toNat := hdigit.1
    have hupper : d.toNat ≤ 57 := hdigit.2
    refine ⟨d.toNat - 48, by omega, ?_⟩
    rw [Nat.add_sub_cancel' hlower, Char.ofNat_toNat]
  have hall : ∀ k < 10, ∀ c ∈ String.utf8EncodeChar (Char.ofNat (48 + k)),
      c ∉ [0x23, 0x3f, 0x25, 0x2f] := by decide +kernel
  exact hall k hk c hc

private theorem Plain.routeID {id : String} (h : Plain id) (i : Nat) : Plain (routeID id i) :=
  (h.append (by decide +kernel)).append (plain_toString i)

/-- The registration of a service with one route. -/
def registration (id uri : String) : Registration :=
  ⟨{ sampleService [uri] with id := id }, allAccepted⟩

end Stardust.Register
