import EspClawPlatform.Events

namespace EspClawPlatform.Identity

structure User where
  id : String
  email : String
  passwordHash : String
  role : Role
  disabledAt : Option Nat := none
  tokenVersion : Nat := 0
  createdAt : Nat
  deriving DecidableEq

instance : Keyed User String := ⟨User.id⟩

def User.disabled (u : User) : Bool := u.disabledAt.isSome

def User.isActiveAdmin (u : User) : Bool := u.role = .admin && !u.disabled

/-- The claims of a token. Tokens issued before revocation existed have no `tv`. -/
structure JwtPayload where
  sub : String
  email : String
  role : Role
  tv : Option Nat := none
  deriving DecidableEq

structure AuthResult where
  accessToken : String
  id : String
  email : String
  role : Role
  deriving DecidableEq

structure UserView where
  id : String
  email : String
  role : Role
  disabled : Bool
  createdAt : Nat
  deriving DecidableEq

def toUserView (u : User) : UserView where
  id := u.id
  email := u.email
  role := u.role
  disabled := u.disabled
  createdAt := u.createdAt

structure UserChange where
  role : Option Role := none
  disabled : Option Bool := none
  deriving DecidableEq

def User.changes (u : User) (change : UserChange) : UserChanges where
  role := change.role.bind fun role => if role = u.role then none else some (u.role, role)
  disabled := change.disabled.bind fun disabled => if disabled = u.disabled then none else some disabled

/-- The entity after the assignments of `updateUser`. -/
def User.changed (u : User) (change : UserChange) (now : Nat) : User :=
  { u with
    role := ((u.changes change).role.map (·.2)).getD u.role
    disabledAt :=
      match (u.changes change).disabled with
      | some true => some now
      | some false => none
      | none => u.disabledAt
    tokenVersion :=
      if (u.changes change).disabled = some true then u.tokenVersion + 1 else u.tokenVersion }

/-- The entity after the assignments of `applyPassword`. -/
def User.withPassword (u : User) (passwordHash : String) : User :=
  { u with passwordHash := passwordHash, tokenVersion := u.tokenVersion + 1 }

@[simp]
theorem changed_id (u : User) (change : UserChange) (now : Nat) : (u.changed change now).id = u.id := rfl

@[simp]
theorem withPassword_id (u : User) (passwordHash : String) : (u.withPassword passwordHash).id = u.id := rfl

def User.staysActiveAdmin (u : User) (change : UserChange) : Bool :=
  change.role.getD u.role = .admin && !change.disabled.getD u.disabled

theorem changed_role (u : User) (change : UserChange) (now : Nat) :
    (u.changed change now).role = change.role.getD u.role := by
  simp only [User.changed, User.changes]
  cases change.role with
  | none => rfl
  | some role => by_cases h : role = u.role <;> simp [h]

theorem changed_disabled (u : User) (change : UserChange) (now : Nat) :
    (u.changed change now).disabled = change.disabled.getD u.disabled := by
  simp only [User.changed, User.changes, User.disabled]
  cases change.disabled with
  | none => rfl
  | some disabled => by_cases h : disabled = u.disabledAt.isSome <;> cases disabled <;> simp_all

theorem changed_isActiveAdmin (u : User) (change : UserChange) (now : Nat) :
    (u.changed change now).isActiveAdmin = u.staysActiveAdmin change := by
  rw [User.isActiveAdmin, changed_role, changed_disabled, User.staysActiveAdmin]

theorem le_changed_tokenVersion (u : User) (change : UserChange) (now : Nat) :
    u.tokenVersion ≤ (u.changed change now).tokenVersion := by
  simp only [User.changed]
  split
  · exact Nat.le_succ _
  · exact Nat.le_refl _

end EspClawPlatform.Identity
