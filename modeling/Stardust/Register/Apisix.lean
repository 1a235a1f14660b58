import Mathlib.Data.String.Basic
import Mathlib.Logic.Function.Basic

/-!
# The APISIX gateway

The gateway's own table and the resources that APISIX holds are one state. The answer to
every request is an input, one for each resource and method in a call, since no call sends
the same request twice. APISIX applies a request exactly when its answer counts as a success,
so a failed request leaves its resource as it was.
-/

namespace Stardust.Register

/-- The settings that decide who writes and who cleans up. -/
structure ApisixConfig where
  /-- One of `off`, `single` and `leader`, anything else counting as `single`. -/
  registerMode : String
  /-- Whether a shutdown deletes the routes, by default depending on the mode. -/
  deregisterOnShutdown : Option Bool
  deriving DecidableEq, Repr

/-- The effective modes. -/
inductive RegisterMode where
  | off
  | single
  | leader
  deriving DecidableEq, Repr

/-- The nodes behind a service or a route. -/
structure GatewayUpstream where
  type : String
  nodes : List (String × Int)
  /-- The protocol, empty for the default. -/
  scheme : String
  deriving DecidableEq, Repr

/-- A routing rule. -/
structure GatewayRoute where
  name : String
  /-- The paths it matches. -/
  uri : String
  /-- The methods it matches, none for all. -/
  methods : List String
  /-- An upstream of its own instead of that of the service. -/
  upstream : Option GatewayUpstream
  deriving DecidableEq, Repr

/-- A service to be registered. -/
structure GatewayService where
  /-- The identifier, also of the upstream and in those of the routes. -/
  id : String
  name : String
  upstream : GatewayUpstream
  /-- The routes by index. -/
  routes : List GatewayRoute
  deriving DecidableEq, Repr

/-- The body of an upstream request. -/
structure UpstreamBody where
  type : String
  nodes : List (String × Int)
  /-- The name of the service or route. -/
  name : String
  /-- The protocol, left out when empty. -/
  scheme : Option String
  deriving DecidableEq, Repr

/-- The upstream of a route: its own, or that of a service by identifier. -/
inductive RouteTarget where
  | upstream (body : UpstreamBody)
  | upstreamID (id : String)
  deriving DecidableEq, Repr

/-- The body of a route request. -/
structure RouteBody where
  /-- The normalized paths. -/
  uri : String
  name : String
  /-- Always enabled. -/
  status : Nat
  /-- Where the route leads. -/
  target : RouteTarget
  /-- The methods, left out when empty. -/
  methods : Option (List String)
  deriving DecidableEq, Repr

/-- The kinds of resources. -/
inductive Resource where
  | upstreams
  | routes
  deriving DecidableEq, Repr

/-- The path segment of a kind. -/
def Resource.path : Resource → String
  | .upstreams => "upstreams"
  | .routes => "routes"

/-- What is stored under an identifier. -/
inductive Body where
  | upstream (body : UpstreamBody)
  | route (body : RouteBody)
  deriving DecidableEq, Repr

/-- A request to the Admin API. -/
inductive Request where
  | put (resource : Resource) (id : String) (body : Body)
  | delete (resource : Resource) (id : String)
  deriving DecidableEq, Repr

/-- The answer to a request: a status with a body, or an error on the way. -/
inductive Answer where
  | status (code : Nat) (body : String)
  | failed (err : String)
  deriving DecidableEq, Repr

/-- The answer counts as a success: its status is 200 or the other one accepted. -/
def Answer.ok (accepted : Nat) : Answer → Bool
  | .status code _ => code = 200 || code = accepted
  | .failed _ => false

/-- The answers during one call. -/
structure Answers where
  put : Resource → String → Answer
  delete : Resource → String → Answer

/-- The `PUT` counts as a success. -/
def Answers.putOk (ans : Answers) (resource : Resource) (id : String) : Bool :=
  (ans.put resource id).ok 201

/-- The `DELETE` counts as a success. -/
def Answers.deleteOk (ans : Answers) (resource : Resource) (id : String) : Bool :=
  (ans.delete resource id).ok 204

/-- The gateway together with the resources that APISIX holds. -/
structure Gateway where
  config : ApisixConfig
  /-- The route identifiers recorded for each service, for its deregistration. -/
  routeIDs : String → List String
  /-- The resources of APISIX. -/
  store : Resource → String → Option Body
  /-- The requests sent, in order. -/
  requests : List Request

/-- The mode, with everything unknown counting as `single`. -/
def ApisixConfig.mode (config : ApisixConfig) : RegisterMode :=
  match config.registerMode with
  | "off" => .off
  | "leader" => .leader
  | _ => .single

/-- Whether deregistration deletes anything. -/
def ApisixConfig.shouldDeregisterOnShutdown (config : ApisixConfig) : Bool :=
  match config.deregisterOnShutdown with
  | some b => b
  | none => config.mode ≠ .leader

/-- A trailing star matches whole segments. -/
def normalizeRouteURI (uri : String) : String :=
  if uri.endsWith "*" && !uri.endsWith "/*" then String.ofList uri.toList.dropLast ++ "/*" else uri

/-- The body for an upstream under the given name. -/
def toUpstreamBody (upstream : GatewayUpstream) (name : String) : UpstreamBody :=
  { type := upstream.type
    nodes := upstream.nodes
    name := name
    scheme := if upstream.scheme = "" then none else some upstream.scheme }

/-- The identifier of the route at an index. -/
def routeID (serviceID : String) (i : Nat) : String := serviceID ++ "-route-" ++ toString i

/-- The body for a route of a service. -/
def routeBody (serviceID : String) (route : GatewayRoute) : RouteBody :=
  { uri := normalizeRouteURI route.uri
    name := route.name
    status := 1
    target := match route.upstream with
      | some upstream => .upstream (toUpstreamBody upstream route.name)
      | none => .upstreamID serviceID
    methods := if route.methods.length > 0 then some route.methods else none }

namespace Gateway

variable (g : Gateway) (ans : Answers)

/-- APISIX holds `body` under the identifier from now on. -/
def write (resource : Resource) (id : String) (body : Option Body) : Gateway :=
  { g with store := fun r i => if r = resource ∧ i = id then body else g.store r i }

/-- Send a request and check the status of its answer. -/
def send (method : String) (accepted : Nat) (resource : Resource) (id : String) (request : Request)
    (body : Option Body) : Answer → Option String × Gateway
  | .failed err => (some err, { g with requests := g.requests ++ [request] })
  | .status code respBody =>
    let g := { g with requests := g.requests ++ [request] }
    if code ≠ 200 ∧ code ≠ accepted then
      (some ("apisix " ++ method ++ " " ++ resource.path ++ "/" ++ id ++ " returned " ++
        toString code ++ ": " ++ respBody), g)
    else (none, g.write resource id body)

/-- Create or update a resource. -/
def putResource (resource : Resource) (id : String) (body : Body) : Option String × Gateway :=
  g.send "PUT" 201 resource id (.put resource id body) (some body) (ans.put resource id)

/-- Delete a resource. -/
def deleteResource (resource : Resource) (id : String) : Option String × Gateway :=
  g.send "DELETE" 204 resource id (.delete resource id) none (ans.delete resource id)

/-- Record the route identifiers of a service. -/
def setRouteIDs (serviceID : String) (ids : List String) : Gateway :=
  { g with routeIDs := Function.update g.routeIDs serviceID ids }

/-- Write the routes from index `i` on, recording each success and collecting the errors. -/
def putRoutes (serviceID : String) :
    Gateway → Nat → List GatewayRoute → List String → List String × Gateway
  | g, _, [], routeErrs => (routeErrs, g)
  | g, i, route :: routes, routeErrs =>
    match g.putResource ans .routes (routeID serviceID i) (.route (routeBody serviceID route)) with
    | (some err, g) =>
      putRoutes serviceID g (i + 1) routes (routeErrs ++ [routeID serviceID i ++ ": " ++ err])
    | (none, g) =>
      putRoutes serviceID
        (g.setRouteIDs serviceID (g.routeIDs serviceID ++ [routeID serviceID i])) (i + 1) routes
        routeErrs

/-- Write the upstream, then all routes; the record of the service starts afresh. -/
def registerServiceDirect (svc : GatewayService) : Option String × Gateway :=
  match g.putResource ans .upstreams svc.id (.upstream (toUpstreamBody svc.upstream svc.name)) with
  | (some err, g) => (some ("create upstream failed: " ++ err), g)
  | (none, g) =>
    match putRoutes ans svc.id (g.setRouteIDs svc.id []) 0 svc.routes [] with
    | ([], g) => (none, g)
    | (routeErrs, g) =>
      (some ("create routes partial failed for " ++ svc.id ++ ": " ++
        "; ".intercalate routeErrs), g)

/-- Register by mode; what a leader election does is a parameter. -/
def registerService (byLeader : GatewayService → Gateway → Option String × Gateway)
    (svc : GatewayService) : Option String × Gateway :=
  match g.config.mode with
  | .off => (none, g)
  | .leader => byLeader svc g
  | .single => g.registerServiceDirect ans svc

/-- Delete routes in order up to the first failure. -/
def deleteRoutes : Gateway → List String → Option String × Gateway
  | g, [] => (none, g)
  | g, id :: ids =>
    match g.deleteResource ans .routes id with
    | (some err, g) => (some ("delete route " ++ id ++ " failed: " ++ err), g)
    | (none, g) => deleteRoutes g ids

/-- Take the recorded routes out of the table, delete them, then delete the upstream. -/
def deregisterServiceDirect (serviceID : String) : Option String × Gateway :=
  match deleteRoutes ans (g.setRouteIDs serviceID []) (g.routeIDs serviceID) with
  | (some err, g) => (some err, g)
  | (none, g) =>
    match g.deleteResource ans .upstreams serviceID with
    | (some err, g) => (some ("delete upstream " ++ serviceID ++ " failed: " ++ err), g)
    | (none, g) => (none, g)

/-- Deregister by mode; what a leader does is a parameter. -/
def deregisterService (byLeader : String → Gateway → Option String × Gateway)
    (serviceID : String) : Option String × Gateway :=
  match g.config.mode with
  | .off => (none, g)
  | .leader => byLeader serviceID g
  | .single =>
    if g.config.shouldDeregisterOnShutdown then g.deregisterServiceDirect ans serviceID
    else (none, g)

end Gateway

end Stardust.Register
