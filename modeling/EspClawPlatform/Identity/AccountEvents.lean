import EspClawPlatform.Lib.Journal
import EspClawPlatform.Identity.Revocation

namespace EspClawPlatform.Identity

structure Account where
  email : String
  role : Role
  disabled : Bool
  deriving DecidableEq

abbrev Accounts := String → Option Account

def User.account (u : User) : Account := { email := u.email, role := u.role, disabled := u.disabled }

def Account.update (a : Account) (email : String) (changes : UserChanges) : Account where
  email := email
  role := (changes.role.map (·.2)).getD a.role
  disabled := changes.disabled.getD a.disabled

def record (accounts : Accounts) : Payload → Accounts
  | .userCreated id email role _ =>
      Function.update accounts id (some { email := email, role := role, disabled := false })
  | .userUpdated id email changes _ =>
      Function.update accounts id ((accounts id).map fun a => a.update email changes)
  | _ => accounts

def recorded (log : List Payload) : Accounts := log.foldl record fun _ => none

def ofAccount : Payload → Bool
  | .userCreated .. | .userUpdated .. => true
  | _ => false

def disables (id : String) (accounts : Accounts) (event : Payload) : Bool :=
  (accounts id).any (fun a => !a.disabled) && (record accounts event id).any (·.disabled)

def changesPassword (id : String) : Payload → Bool
  | .passwordChanged userId .. => userId = id
  | _ => false

def disablings (id : String) (log : List Payload) : Nat := Journal.count record (disables id) (fun _ => none) log

def passwordChanges (id : String) (log : List Payload) : Nat := log.countP (changesPassword id)

def StartsFromRole (accounts : Accounts) : Payload → Prop
  | .userUpdated id _ changes _ => ∀ change ∈ changes.role, (accounts id).map (·.role) = some change.1
  | _ => True

def Changes (accounts : Accounts) (event : Payload) : Prop :=
  ofAccount event = true → record accounts event ≠ accounts

structure Reconstructs (log : List Payload) (users : Table User) : Prop where
  accounts : ∀ id, recorded log id = (users.find id).map User.account
  versions : ∀ id, versionOf users id = disablings id log + passwordChanges id log
  starts : Journal.Each record StartsFromRole (fun _ => none) log
  changes : Journal.Each record Changes (fun _ => none) log

theorem reconstructs_nil : Reconstructs [] .empty where
  accounts := fun _ => rfl
  versions := fun _ => rfl
  starts := Journal.each_nil
  changes := Journal.each_nil

variable {log : List Payload} {users users' : Table User} {u : User} {id : String}

theorem Reconstructs.concat {event : Payload} (h : Reconstructs log users)
    (haccounts : ∀ id, record (recorded log) event id = (users'.find id).map User.account)
    (hversions : ∀ id, versionOf users' id =
      versionOf users id + (disables id (recorded log) event).toNat + (changesPassword id event).toNat)
    (hstarts : StartsFromRole (recorded log) event) (hchanges : Changes (recorded log) event) :
    Reconstructs (log ++ [event]) users' where
  accounts := by
    intro id
    rw [recorded, List.foldl_concat]
    exact haccounts id
  versions := by
    intro id
    have hpassword : passwordChanges id (log ++ [event]) =
        passwordChanges id log + (changesPassword id event).toNat := by
      rw [passwordChanges, List.countP_append, List.countP_singleton]
      cases changesPassword id event <;> rfl
    rw [hversions, h.versions, hpassword, disablings, disablings, Journal.count_concat]
    show _ = _ + (disables id (recorded log) event).toNat + _
    omega
  starts := Journal.each_concat.mpr ⟨h.starts, hstarts⟩
  changes := Journal.each_concat.mpr ⟨h.changes, hchanges⟩

theorem disables_of_same {accounts : Accounts} {event : Payload} (h : record accounts event id = accounts id) :
    disables id accounts event = false := by
  rw [disables, h]
  cases accounts id with
  | none => rfl
  | some a => simp

theorem Reconstructs.silent {event : Payload} (h : Reconstructs log users)
    (hsame : record (recorded log) event = recorded log) (hother : ofAccount event = false)
    (hpassword : ∀ id, changesPassword id event = false) : Reconstructs (log ++ [event]) users := by
  apply h.concat
  · intro id
    rw [hsame]
    exact h.accounts id
  · intro id
    rw [disables_of_same (by rw [hsame]), hpassword]
    rfl
  · cases event with
    | userUpdated => cases hother
    | _ => trivial
  · intro hof
    cases hother.symm.trans hof

theorem account_save (users : Table User) (u : User) (id : String) :
    ((users.save u).find id).map User.account =
      if id = u.id then some u.account else (users.find id).map User.account := by
  rw [Table.find_save]
  split
  · rename_i h
    rw [if_pos (show id = u.id from h)]
    rfl
  · rename_i h
    rw [if_neg (show ¬ id = u.id from h)]

theorem record_created (accounts : Accounts) (u : User) (actor : Option String) (hd : u.disabled = false)
    (id : String) : record accounts (.userCreated u.id u.email u.role actor) id =
      if id = u.id then some u.account else accounts id := by
  rw [User.account, hd]
  exact Function.update_apply _ _ _ _

theorem Reconstructs.created (h : Reconstructs log users) (hnew : users.find u.id = none) (hd : u.disabled = false)
    (hv : u.tokenVersion = 0) (actor : Option String) :
    Reconstructs (log ++ [.userCreated u.id u.email u.role actor]) (users.save u) := by
  have hnone : recorded log u.id = none := by rw [h.accounts, hnew]; rfl
  apply h.concat
  · intro id
    rw [record_created _ u actor hd, account_save, h.accounts]
  · intro id
    have hquiet : disables id (recorded log) (.userCreated u.id u.email u.role actor) = false := by
      by_cases hid : id = u.id
      · subst hid
        rw [disables, hnone]
        rfl
      · apply disables_of_same
        rw [record_created _ u actor hd, if_neg hid]
    rw [hquiet, versionOf_save]
    split
    · rename_i hid
      rw [hv, hid, versionOf, hnew]
      rfl
    · rfl
  · trivial
  · intro _ hsame
    have hu := congrFun hsame u.id
    rw [record_created _ u actor hd, if_pos rfl, hnone] at hu
    cases hu

theorem disabled_changed (u : User) (change : UserChange) (at_ : Nat) :
    (u.changed change at_).disabled = (u.changes change).disabled.getD u.disabled := by
  rw [User.disabled, User.changed]
  cases (u.changes change).disabled with
  | none => rfl
  | some disabled => cases disabled <;> rfl

theorem account_changed (u : User) (change : UserChange) (at_ : Nat) :
    (u.changed change at_).account = u.account.update u.email (u.changes change) := by
  rw [User.account, disabled_changed]
  rfl

theorem disabled_of_changes {change : UserChange} {disabled : Bool}
    (h : (u.changes change).disabled = some disabled) : u.disabled = !disabled := by
  obtain ⟨d, -, hd⟩ := Option.bind_eq_some_iff.mp h
  split at hd
  · cases hd
  · rename_i hne
    cases hd
    cases hu : u.disabled <;> cases disabled <;> simp_all

theorem role_of_changes {change : UserChange} {roles : Role × Role} (h : (u.changes change).role = some roles) :
    roles.1 = u.role ∧ roles.2 ≠ u.role := by
  obtain ⟨role, -, hr⟩ := Option.bind_eq_some_iff.mp h
  split at hr
  · cases hr
  · rename_i hne
    cases hr
    exact ⟨rfl, hne⟩

theorem account_ne_of_changes {change : UserChange} (h : u.changes change ≠ {}) (at_ : Nat) :
    (u.changed change at_).account ≠ u.account := by
  intro hsame
  rw [account_changed] at hsame
  apply h
  have hrole := congrArg Account.role hsame
  have hdisabled := congrArg Account.disabled hsame
  cases hr : (u.changes change).role with
  | some roles =>
      rw [Account.update, hr] at hrole
      exact absurd hrole (role_of_changes hr).2
  | none =>
      cases hd : (u.changes change).disabled with
      | some disabled =>
          rw [Account.update, hd] at hdisabled
          have hu := disabled_of_changes hd
          rw [show u.account.disabled = u.disabled from rfl, hu] at hdisabled
          cases disabled <;> cases hdisabled
      | none =>
          show UserChanges.mk (u.changes change).role (u.changes change).disabled = _
          rw [hr, hd]

theorem Reconstructs.changed (h : Reconstructs log users) (hu : users.find u.id = some u) {change : UserChange}
    (hc : u.changes change ≠ {}) (at_ : Nat) (actor : Option String) :
    Reconstructs (log ++ [.userUpdated u.id u.email (u.changes change) actor]) (users.save (u.changed change at_)) := by
  have haccount : recorded log u.id = some u.account := by rw [h.accounts, hu]; rfl
  have hrecord (id : String) : record (recorded log) (.userUpdated u.id u.email (u.changes change) actor) id =
      if id = u.id then some (u.changed change at_).account else recorded log id := by
    rw [account_changed, record, Function.update_apply, haccount]
    rfl
  apply h.concat
  · intro id
    rw [hrecord, account_save, changed_id, h.accounts]
  · intro id
    rw [versionOf_save, changed_id]
    split
    · rename_i hid
      subst hid
      have hdisables : disables u.id (recorded log) (.userUpdated u.id u.email (u.changes change) actor) =
          (!u.disabled && (u.changed change at_).disabled) := by
        rw [disables, hrecord, if_pos rfl, haccount]
        rfl
      rw [hdisables, disabled_changed, versionOf_of_find hu, User.changed]
      cases hd : (u.changes change).disabled with
      | none => cases u.disabled <;> rfl
      | some disabled =>
          rw [disabled_of_changes hd]
          cases disabled <;> rfl
    · rename_i hid
      rw [disables_of_same (by rw [hrecord, if_neg hid])]
      rfl
  · intro roles hroles
    rw [haccount, (role_of_changes hroles).1]
    rfl
  · intro _ hsame
    have hat := congrFun hsame u.id
    rw [hrecord, if_pos rfl, haccount] at hat
    exact account_ne_of_changes hc at_ (Option.some.inj hat)

theorem Reconstructs.password (h : Reconstructs log users) (hu : users.find u.id = some u) (passwordHash : String)
    (by_ : PasswordChangedBy) (actor : Option String) :
    Reconstructs (log ++ [.passwordChanged u.id u.email by_ actor]) (users.save (u.withPassword passwordHash)) := by
  apply h.concat
  · intro id
    rw [account_save, withPassword_id]
    show recorded log id = _
    rw [h.accounts]
    split
    · rename_i hid
      rw [hid, hu]
      rfl
    · rfl
  · intro id
    rw [disables_of_same rfl, versionOf_save, withPassword_id]
    by_cases hid : id = u.id
    · rw [if_pos hid, hid, versionOf_of_find hu]
      show _ = _ + 0 + (decide (u.id = u.id)).toNat
      rw [decide_eq_true rfl]
      rfl
    · rw [if_neg hid]
      show _ = _ + 0 + (decide (u.id = id)).toNat
      rw [decide_eq_false (Ne.symm hid)]
      rfl
  · trivial
  · intro hof
    cases hof

end EspClawPlatform.Identity
