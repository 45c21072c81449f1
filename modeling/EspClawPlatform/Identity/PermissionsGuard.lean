import EspClawPlatform.Lib.Text
import EspClawPlatform.Identity.Cluster

namespace EspClawPlatform.Identity

open Run

inductive Permission
  | devicesRead | devicesWrite | commandsRead | commandsDispatch | twinRead | twinWrite | telemetryRead
  | auditRead | metricsRead | usersManage | devicesPrivileged
  deriving DecidableEq

def Permission.text : Permission → String
  | .devicesRead => "devices:read"
  | .devicesWrite => "devices:write"
  | .commandsRead => "commands:read"
  | .commandsDispatch => "commands:dispatch"
  | .twinRead => "twin:read"
  | .twinWrite => "twin:write"
  | .telemetryRead => "telemetry:read"
  | .auditRead => "audit:read"
  | .metricsRead => "metrics:read"
  | .usersManage => "users:manage"
  | .devicesPrivileged => "devices:privileged"

def PERMISSIONS : List Permission :=
  [.devicesRead, .devicesWrite, .commandsRead, .commandsDispatch, .twinRead, .twinWrite, .telemetryRead,
    .auditRead, .metricsRead, .usersManage, .devicesPrivileged]

def VIEWER : List Permission := [.devicesRead, .commandsRead, .twinRead, .telemetryRead]

def OPERATOR : List Permission := VIEWER ++ [.devicesWrite, .commandsDispatch, .twinWrite]

def permissionsFor : Role → List Permission
  | .viewer => VIEWER
  | .operator => OPERATOR
  | .admin => PERMISSIONS

def roleHasPermission (role : Role) (permission : Permission) : Bool := permission ∈ permissionsFor role

theorem admin_of_usersManage {role : Role} (h : roleHasPermission role .usersManage) : role = .admin := by
  cases role with
  | admin => rfl
  | operator | viewer => cases h

structure Metadata where
  isPublic : Option Bool := none
  requiredPermission : Option Permission := none
  anyAuthenticated : Option Bool := none
  deriving DecidableEq

structure Route where
  handler : Metadata := {}
  controller : Metadata := {}
  deriving DecidableEq

def Route.isPublic (route : Route) : Bool := (route.handler.isPublic.or route.controller.isPublic).getD false

def Route.anyAuthenticated (route : Route) : Bool :=
  (route.handler.anyAuthenticated.or route.controller.anyAuthenticated).getD false

def Route.requiredPermission (route : Route) : Option Permission :=
  route.handler.requiredPermission.or route.controller.requiredPermission

def extractToken (authorization : Option String) : Option String :=
  authorization.bind fun header => dropPrefix header "Bearer "

/-- `canActivate` once it has the account; the request goes on with the live role. -/
def authorize (route : Route) (claims : JwtPayload) : Option User → Except ApiError JwtPayload
  | none => .error (.unauthorized "Account is disabled or no longer exists")
  | some account =>
      if !sameVersion claims account then .error (.unauthorized "Session was revoked; sign in again")
      else if route.anyAuthenticated then .ok { claims with role := account.role }
      else
        match route.requiredPermission with
        | none => .error (.forbidden "This route has no permission declared")
        | some required =>
            if roleHasPermission account.role required then .ok { claims with role := account.role }
            else .error (.forbidden s!"Requires the {required.text} permission")

/-- The handlers of `UsersController` with their parsed arguments, and every
other handler with its annotations. -/
inductive Operation
  | me
  | changeOwnPassword (currentPassword newPassword : String)
  | list
  | create (email password : String) (role : Role)
  | update (id : String) (change : UserChange)
  | resetPassword (id password : String)
  | other (route : Route)
  deriving DecidableEq

def Operation.route : Operation → Route
  | .me | .changeOwnPassword .. => { handler := { anyAuthenticated := some true } }
  | .list | .create .. | .update .. | .resetPassword .. =>
      { handler := { requiredPermission := some .usersManage } }
  | .other route => route

def Operation.request (user : JwtPayload) : Operation → Option Request
  | .me | .other _ => none
  | .changeOwnPassword currentPassword newPassword =>
      some (.changeOwnPassword user.sub currentPassword newPassword)
  | .list => some .listUsers
  | .create email password role => some (.createUser email password role (some user.sub))
  | .update id change => some (.updateUser id change (some user.sub))
  | .resetPassword id password => some (.resetPassword id password (some user.sub))

structure Pending where
  node : Nat
  operation : Operation
  claims : JwtPayload
  arrivedAt : Nat
  deriving DecidableEq

/-- A request that has reached its handler; `user` is there unless the route is public. -/
structure Admission where
  operation : Operation
  user : Option JwtPayload
  arrivedAt : Nat
  deriving DecidableEq

/-- The instances of the service behind the two guards. `pending` holds the
requests in the second one, by their call of `getActiveUser`. -/
structure Gate where
  cluster : Cluster
  pending : Table (Nat × Pending) := .empty
  admitted : List Admission := []
  refused : List ApiError := []

/-- The handlers of `IdentityController` are public; all other calls go through the guards. -/
def Action.guarded : Action → Bool
  | .call (.register ..) | .call (.login ..) => false
  | .call _ => true
  | _ => false

inductive GateAction
  | service (m : Move)
  | arrive (node : Nat) (operation : Operation) (authorization : Option String)
  | decide (call : Nat)

def Gate.refuse (g : Gate) (error : ApiError) : Gate := { g with refused := g.refused ++ [error] }

def Gate.enter (host : Host) (g : Gate) (call : Nat) (entry : Pending) (user : JwtPayload) : Option Gate :=
  let admitted : Gate :=
    { g with
      pending := g.pending.erase call
      admitted := g.admitted ++
        [{ operation := entry.operation, user := some user, arrivedAt := entry.arrivedAt }] }
  match entry.operation.request user with
  | none => some admitted
  | some request =>
      (g.cluster.step host { node := entry.node, action := .call request }).map fun cluster =>
        { admitted with cluster := cluster }

/-- `verifyAsync` is that of the JWT library, at the time it is called. -/
def Gate.arrive (host : Host) (verifyAsync : Nat → String → Option JwtPayload) (g : Gate) (node : Nat)
    (operation : Operation) (authorization : Option String) : Option Gate :=
  if operation.route.isPublic then
    some { g with
      admitted := g.admitted ++ [{ operation := operation, user := none, arrivedAt := g.cluster.core.now }] }
  else
    match (extractToken authorization).filter (· ≠ "") with
    | none => some (g.refuse (.unauthorized "Missing bearer token"))
    | some token =>
        match verifyAsync g.cluster.core.now token with
        | none => some (g.refuse (.unauthorized "Invalid or expired token"))
        | some claims =>
            (g.cluster.step host { node := node, action := .call (.getActiveUser claims.sub) }).map fun cluster =>
              { g with
                cluster := cluster
                pending := g.pending.set g.cluster.core.calls
                  { node := node, operation := operation, claims := claims, arrivedAt := g.cluster.core.now } }

def Gate.decide (host : Host) (g : Gate) (call : Nat) : Option Gate := do
  let entry ← g.pending.get call
  match ← g.cluster.core.results.get call with
  | .error error => some { g.refuse error with pending := g.pending.erase call }
  | .ok (.account account) =>
      match authorize entry.operation.route entry.claims account with
      | .error error => some { g.refuse error with pending := g.pending.erase call }
      | .ok user => g.enter host call entry user
  | .ok _ => none

def Gate.step (host : Host) (verifyAsync : Nat → String → Option JwtPayload) (g : Gate) : GateAction → Option Gate
  | .service m => if m.action.guarded then none else (g.cluster.step host m).map fun c => { g with cluster := c }
  | .arrive node operation authorization => g.arrive host verifyAsync node operation authorization
  | .decide call => g.decide host call

def Gate.boot (users : Table User) : Gate := { cluster := .boot users }

end EspClawPlatform.Identity
