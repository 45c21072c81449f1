import EspClawPlatform.Lib.Await
import EspClawPlatform.Lib.Run
import EspClawPlatform.Identity.User
import EspClawPlatform.Identity.LoginThrottle

namespace EspClawPlatform.Identity

def USER_STATE_TTL_MS : Nat := 10000

/-- What the service is configured with and what it takes from its libraries;
`hash` gets the salt it draws. -/
structure Host where
  hash : String → String → String
  compare : String → String → Bool
  dummyHash : String
  sha256 : String → List Nat
  toLowerCase : String → String
  sign : JwtPayload → String
  bootstrapToken : Option String

inductive ApiError
  | conflict (message : String)
  | forbidden (message : String)
  | notFound (message : String)
  | unauthorized (message : String)
  | tooManyRequests (message : String)
  | database
  deriving DecidableEq

inductive Reply
  | auth (result : AuthResult)
  | view (user : UserView)
  | views (users : List UserView)
  | account (user : Option User)
  | done
  deriving DecidableEq

inductive Request
  | register (email password : String) (bootstrapToken : Option String)
  | login (email password : String) (clientAddress : Option String)
  | getActiveUser (id : String)
  | listUsers
  | createUser (email password : String) (role : Role) (actor : Option String)
  | updateUser (id : String) (change : UserChange) (actor : Option String)
  | resetPassword (id newPassword : String) (actor : Option String)
  | changeOwnPassword (id current next : String)
  deriving DecidableEq

/-- The await a call stands at, with the variables its continuation uses. Where
a call writes a row or takes a row out of the database and then touches the
memory of the process, these are two awaits. -/
inductive Frame
  | registerHash (email password : String)
  | registerLock (email passwordHash : String)
  | registerCount (email passwordHash : String)
  | registerSave (email passwordHash : String)
  | registerSaved (user : User)
  | loginFind (email password clientAddress : String)
  | loginCompare (email password clientAddress : String) (user : Option User)
  | activeFind (id : String)
  | activeFound (id : String) (row : Option User)
  | list
  | createHash (email password : String) (role : Role) (actor : Option String)
  | createFind (email passwordHash : String) (role : Role) (actor : Option String)
  | createSave (email passwordHash : String) (role : Role) (actor : Option String)
  | createSaved (user : User) (actor : Option String)
  | updateLock (id : String) (change : UserChange) (actor : Option String)
  | updateFind (id : String) (change : UserChange) (actor : Option String)
  | updateSave (user : User) (change : UserChange) (at_ : Nat) (actor : Option String)
  | updateSaved (user : User) (changes : UserChanges) (actor : Option String)
  | resetFind (id newPassword : String) (actor : Option String)
  | ownFind (id current next : String)
  | ownCompare (user : User) (current next : String)
  | applyHash (user : User) (newPassword : String) (by_ : PasswordChangedBy) (actor : Option String)
  | applySave (user : User) (passwordHash : String) (by_ : PasswordChangedBy) (actor : Option String)
  | applySaved (user : User) (by_ : PasswordChangedBy) (actor : Option String)
  | sign (user : User)
  deriving DecidableEq

structure CacheEntry where
  user : Option User
  at_ : Nat
  deriving DecidableEq

structure Attempt where
  email : String
  address : String
  at_ : Nat
  failed : Bool
  deriving DecidableEq

/-- `frames` holds the calls in flight and `results` those that have ended.
`tokens` and `attempts` record every token issued and every comparison made. -/
structure State where
  now : Nat := 0
  users : Table User := .empty
  lock : Option Nat := none
  calls : Nat := 0
  frames : Table (Nat × Frame) := .empty
  results : Table (Nat × Except ApiError Reply) := .empty
  stateCache : Table (String × CacheEntry) := .empty
  throttle : LoginThrottle := {}
  events : List Published := []
  tokens : List JwtPayload := []
  attempts : List Attempt := []

inductive LockMove
  | keep | acquire | release

abbrev Next := Await.Next Frame (Except ApiError Reply)

/-- What happens when an await is over: the row the database has written, and
what the code does up to its next await. -/
structure Effect where
  write : Option User := none
  lock : LockMove := .keep
  stateCache : Option (Table (String × CacheEntry)) := none
  throttle : Option LoginThrottle := none
  publish : List Payload := []
  token : Option JwtPayload := none
  attempt : Option Attempt := none
  next : Next

def throw (error : ApiError) : Next := .done (.error error)

def assertBootstrapToken (host : Host) (presented : Option String) : Bool :=
  match host.bootstrapToken with
  | none => true
  | some configured =>
      configured = "" ||
        presented.any fun token => token ≠ "" && host.sha256 token = host.sha256 configured

def claims (user : User) : JwtPayload where
  sub := user.id
  email := user.email
  role := user.role
  tv := some user.tokenVersion

def Request.start (host : Host) (s : State) : Request → Effect
  | .register email password bootstrapToken =>
      if assertBootstrapToken host bootstrapToken then { next := .await (.registerHash email password) }
      else { next := throw (.forbidden "A valid bootstrap token is required to create the first admin") }
  | .login email password clientAddress =>
      let address := clientAddress.getD "unknown"
      let retryAfter := s.throttle.retryAfter host.toLowerCase s.now email address
      { throttle := some (s.throttle.asserted host.toLowerCase s.now email address)
        next :=
          if 0 < retryAfter then
            throw (.tooManyRequests
              s!"Too many failed login attempts. Try again in {(retryAfter + 999) / 1000} seconds.")
          else .await (.loginFind email password address) }
  | .getActiveUser id =>
      match s.stateCache.get id with
      | some cached =>
          if s.now < cached.at_ + USER_STATE_TTL_MS then { next := .done (.ok (.account cached.user)) }
          else { next := .await (.activeFind id) }
      | none => { next := .await (.activeFind id) }
  | .listUsers => { next := .await .list }
  | .createUser email password role actor => { next := .await (.createHash email password role actor) }
  | .updateUser id change actor => { next := .await (.updateLock id change actor) }
  | .resetPassword id newPassword actor => { next := .await (.resetFind id newPassword actor) }
  | .changeOwnPassword id current next => { next := .await (.ownFind id current next) }

/-- An insert: the database draws the id and refuses a duplicate email. -/
def insert (s : State) (id email passwordHash : String) (role : Role) : Option User :=
  if (s.users.rows.any fun u => u.email = email) || (s.users.find id).isSome then none
  else some { id := id, email := email, passwordHash := passwordHash, role := role, createdAt := s.now }

def registrationClosed : ApiError :=
  .conflict "Registration is closed — an admin user already exists. Ask an existing admin."

def userNotFound (id : String) : ApiError := .notFound s!"User {id} not found"

def wrongPassword : ApiError := .forbidden "Current password is incorrect"

/-- The transaction of `updateUser` once it has the lock and all rows. -/
def updateFound (s : State) (id : String) (change : UserChange) (actor : Option String) : Effect :=
  match s.users.find id with
  | none => { lock := .release, next := throw (userNotFound id) }
  | some user =>
      if user.isActiveAdmin && !user.staysActiveAdmin change && s.users.count User.isActiveAdmin ≤ 1 then
        { lock := .release
          next := throw (.conflict "Cannot demote or disable the last active admin") }
      else if user.changes change = {} then
        { lock := .release, next := .await (.updateSaved user {} actor) }
      else { next := .await (.updateSave user change s.now actor) }

/-- The account that `login` lets in; without one it still makes a comparison. -/
def accepted (host : Host) (password : String) (user : Option User) : Option User :=
  let valid := host.compare password ((user.map (·.passwordHash)).getD host.dummyHash)
  user.filter fun u => valid && !u.disabled

def loginFailed (host : Host) (s : State) (email address : String) : Effect where
  throttle := some (s.throttle.recordFailure host.toLowerCase s.now email address)
  publish := ((s.throttle.locked host.toLowerCase s.now email address).map
    fun scope => Payload.loginLocked scope email address).toList
  attempt := some { email := email, address := address, at_ := s.now, failed := true }
  next := throw (.unauthorized "Invalid email or password")

def loginSucceeded (host : Host) (s : State) (email address : String) (user : User) : Effect where
  throttle := some (s.throttle.recordSuccess host.toLowerCase email)
  publish := [.loginSucceeded user.id user.email address]
  attempt := some { email := email, address := address, at_ := s.now, failed := false }
  next := .await (.sign user)

def loginCompared (host : Host) (s : State) (email password address : String) (user : Option User) :
    Effect :=
  match accepted host password user with
  | none => loginFailed host s email address
  | some user => loginSucceeded host s email address user

/-- The end of the await a call stands at; `fresh` is the salt or the id that
is drawn on the way. There is none while the lock is taken. -/
def Frame.resume (host : Host) (s : State) (fresh : String) : Frame → Option Effect
  | .registerHash email password =>
      some { next := .await (.registerLock email (host.hash password fresh)) }
  | .registerLock email passwordHash =>
      if s.lock = none then some { lock := .acquire, next := .await (.registerCount email passwordHash) }
      else none
  | .registerCount email passwordHash =>
      some <|
        if 0 < s.users.size then { lock := .release, next := throw registrationClosed }
        else { next := .await (.registerSave email passwordHash) }
  | .registerSave email passwordHash =>
      (insert s fresh email passwordHash .admin).map fun user =>
        { write := some user, lock := .release, next := .await (.registerSaved user) }
  | .registerSaved user =>
      some
        { publish := [.userCreated user.id user.email user.role none]
          next := .await (.sign user) }
  | .loginFind email password address =>
      some { next := .await (.loginCompare email password address (s.users.rows.find? (·.email = email))) }
  | .loginCompare email password address user => some (loginCompared host s email password address user)
  | .activeFind id => some { next := .await (.activeFound id (s.users.find id)) }
  | .activeFound id row =>
      let user := row.filter fun u => !u.disabled
      some
        { stateCache := some (s.stateCache.set id { user := user, at_ := s.now })
          next := .done (.ok (.account user)) }
  | .list =>
      some { next := .done (.ok (.views
        ((s.users.rows.mergeSort fun u v => u.createdAt ≤ v.createdAt).map toUserView))) }
  | .createHash email password role actor =>
      some { next := .await (.createFind email (host.hash password fresh) role actor) }
  | .createFind email passwordHash role actor =>
      some <|
        if s.users.rows.any fun u => u.email = email then
          { next := throw (.conflict "A user with this email already exists") }
        else { next := .await (.createSave email passwordHash role actor) }
  | .createSave email passwordHash role actor =>
      (insert s fresh email passwordHash role).map fun user =>
        { write := some user, next := .await (.createSaved user actor) }
  | .createSaved user actor =>
      some
        { publish := [.userCreated user.id user.email user.role actor]
          next := .done (.ok (.view (toUserView user))) }
  | .updateLock id change actor =>
      if s.lock = none then some { lock := .acquire, next := .await (.updateFind id change actor) }
      else none
  | .updateFind id change actor => some (updateFound s id change actor)
  | .updateSave user change at_ actor =>
      some
        { write := some (user.changed change at_), lock := .release
          next := .await (.updateSaved (user.changed change at_) (user.changes change) actor) }
  | .updateSaved user changes actor =>
      some
        { stateCache := some (s.stateCache.erase user.id)
          publish := if changes = {} then [] else [.userUpdated user.id user.email changes actor]
          next := .done (.ok (.view (toUserView user))) }
  | .resetFind id newPassword actor =>
      some <|
        match s.users.find id with
        | none => { next := throw (userNotFound id) }
        | some user => { next := .await (.applyHash user newPassword .admin actor) }
  | .ownFind id current next =>
      some <|
        match s.users.find id with
        | none => { next := throw wrongPassword }
        | some user =>
            if user.disabled then { next := throw wrongPassword }
            else { next := .await (.ownCompare user current next) }
  | .ownCompare user current next =>
      some <|
        if host.compare current user.passwordHash then
          { next := .await (.applyHash user next .self (some user.id)) }
        else { next := throw wrongPassword }
  | .applyHash user newPassword by_ actor =>
      some { next := .await (.applySave user (host.hash newPassword fresh) by_ actor) }
  | .applySave user passwordHash by_ actor =>
      some
        { write := some (user.withPassword passwordHash)
          next := .await (.applySaved (user.withPassword passwordHash) by_ actor) }
  | .applySaved user by_ actor =>
      some
        { stateCache := some (s.stateCache.erase user.id)
          publish := [.passwordChanged user.id user.email by_ actor]
          next :=
            match by_ with
            | .self => .await (.sign user)
            | .admin => .done (.ok .done) }
  | .sign user =>
      some
        { token := some (claims user)
          next := .done (.ok (.auth
            { accessToken := host.sign (claims user), id := user.id, email := user.email,
              role := user.role })) }

/-- The awaited database operation rejects; a transaction is rolled back. -/
def Frame.reject : Frame → Option Effect
  | .registerCount .. | .registerSave .. | .updateFind .. | .updateSave .. =>
      some { lock := .release, next := throw .database }
  | .registerLock .. | .updateLock .. | .loginFind .. | .activeFind .. | .list | .createFind ..
  | .createSave .. | .resetFind .. | .ownFind .. | .applySave .. => some { next := throw .database }
  | .registerHash .. | .registerSaved .. | .loginCompare .. | .activeFound .. | .createHash ..
  | .createSaved .. | .updateSaved .. | .ownCompare .. | .applyHash .. | .applySaved .. | .sign .. => none

def State.perform (s : State) (call : Nat) (e : Effect) : State :=
  { s with
    users := e.write.elim s.users s.users.save
    lock :=
      match e.lock with
      | .keep => s.lock
      | .acquire => some call
      | .release => none
    stateCache := e.stateCache.getD s.stateCache
    throttle := e.throttle.getD s.throttle
    events := s.events ++ e.publish.map (announce "module:identity")
    tokens := s.tokens ++ e.token.toList
    attempts := s.attempts ++ e.attempt.toList
    frames := e.next.frames call s.frames
    results := e.next.results call s.results }

inductive Action
  | tick (ms : Nat)
  | call (request : Request)
  | resume (call : Nat) (fresh : String)
  | reject (call : Nat)
  deriving DecidableEq

def step (host : Host) (s : State) : Action → Option State
  | .tick ms => some { s with now := s.now + ms }
  | .call request => some { s.perform s.calls (request.start host s) with calls := s.calls + 1 }
  | .resume call fresh => do
      let frame ← s.frames.get call
      let e ← frame.resume host s fresh
      some (s.perform call e)
  | .reject call => do
      let frame ← s.frames.get call
      let e ← frame.reject
      some (s.perform call e)

def State.boot (users : Table User) (tokens : List JwtPayload) : State :=
  { users := users, tokens := tokens }

/-- The comparison in `PermissionsGuard.canActivate`. -/
def sameVersion (claims : JwtPayload) (account : User) : Bool := claims.tv.getD 0 = account.tokenVersion

def plainHost : Host where
  hash := fun password salt => password ++ "$" ++ salt
  compare := fun password hash => hash.toList.takeWhile (· ≠ '$') = password.toList
  dummyHash := "timing-equalisation-only$dummy"
  sha256 := fun text => text.toList.map Char.toNat
  toLowerCase := fun text => String.ofList (text.toList.map Char.toLower)
  sign := fun claims => claims.sub
  bootstrapToken := none

end EspClawPlatform.Identity
