import EspClawPlatform.Identity.Steps

namespace EspClawPlatform.Identity

open Run

variable {host : Host} {s t : State}

/-- The two copies of a row agree on what only `updateUser` may change. -/
def SameAuthority (u v : User) : Prop := u.role = v.role ∧ u.disabledAt = v.disabledAt

instance (u v : User) : Decidable (SameAuthority u v) :=
  inferInstanceAs (Decidable (u.role = v.role ∧ u.disabledAt = v.disabledAt))

def User.standing (u : User) : Role × Bool := (u.role, u.disabled)

def State.passwordLoad (s : State) (call : Nat) : Option User :=
  match s.frames.get call with
  | some (.resetFind id _ _) => s.users.find id
  | some (.ownFind id _ _) => s.users.find id
  | _ => none

/-- A password operation overwrites no row whose role or disabled state has
changed since it loaded the row. -/
def SavesCurrentAuthority (s : State) (a : Action) : Prop :=
  ∀ user ∈ s.savedBy Frame.passwordSave a, ∀ row ∈ s.users.find user.id, SameAuthority user row

instance (s : State) (a : Action) : Decidable (SavesCurrentAuthority s a) :=
  inferInstanceAs (Decidable (∀ user ∈ s.savedBy Frame.passwordSave a, ∀ row ∈ s.users.find user.id,
    SameAuthority user row))

def NotUpdated (id : String) (s : State) (a : Action) : Prop :=
  ∀ user ∈ s.savedBy Frame.changeSave a, user.id ≠ id

instance (id : String) (s : State) (a : Action) : Decidable (NotUpdated id s a) :=
  inferInstanceAs (Decidable (∀ user ∈ s.savedBy Frame.changeSave a, user.id ≠ id))

def Frame.loaded : Frame → Option User
  | .ownCompare user .. | .applyHash user .. | .applySave user .. => some user
  | _ => none

def Frame.saved : Frame → Bool
  | .applySaved .. | .sign _ => true
  | _ => false

structure Carries (call : Nat) (before : User) (s : State) : Prop where
  made : call < s.calls
  frame : ∀ f, s.frames.get call = some f → f.loaded = some before ∨ f.saved = true

theorem follows_loaded {f f' : Frame} {w : Option User} {before : User} (h : Follows host s w f f')
    (hf : f.loaded = some before ∨ f.saved = true) : f'.loaded = some before ∨ f'.saved = true := by
  cases h with
  | ownCompare | applyHash | applySave | applySaved => simp_all [Frame.loaded, Frame.saved]
  | _ => simp [Frame.loaded, Frame.saved] at hf

theorem carries_step {call : Nat} {before : User} {a : Action} (hi : Carries call before s)
    (h : step host s a = some t) : Carries call before t := by
  refine ⟨Nat.lt_of_lt_of_le hi.made (le_calls h), ?_⟩
  intro f hf
  rcases step_frames h hf with ⟨hf, -⟩ | he
  · exact hi.frame f hf
  · cases he with
    | call request hn => exact absurd hi.made (Nat.lt_irrefl _)
    | resume _ fresh hg hfol => exact follows_loaded hfol (hi.frame _ hg)

theorem carries_of_load {call : Nat} {before : User} {fresh : String} (hi : CallsMade s)
    (hl : s.passwordLoad call = some before) (h : step host s (.resume call fresh) = some t) :
    Carries call before t := by
  rw [State.passwordLoad] at hl
  obtain ⟨g, hg⟩ : ∃ g, s.frames.get call = some g := by
    cases hg : s.frames.get call with
    | none => rw [hg] at hl; cases hl
    | some g => exact ⟨g, rfl⟩
  refine ⟨Nat.lt_of_lt_of_le (hi call g hg) (le_calls h), ?_⟩
  intro f hf
  left
  rcases step_frames h hf with ⟨-, hne⟩ | he
  · exact absurd rfl (hne fresh)
  · cases he with
    | resume _ _ hg hfol =>
        rw [hg] at hl
        cases hfol with
        | resetFind newPassword actor hu | ownFind current next hu => exact hu.symm.trans hl
        | _ => cases hl

def SameAccount (u v : User) : Prop := u.email = v.email ∧ u.createdAt = v.createdAt

def AccountsKept (s : State) : Prop := ∀ c f u, s.frames.get c = some f → f.user = some u →
  ∃ row, s.users.find u.id = some row ∧ SameAccount row u

theorem account_step {a : Action} (hi : AccountsKept s) (h : step host s a = some t) {id : String}
    {row : User} (hr : s.users.find id = some row) :
    ∃ row', t.users.find id = some row' ∧ SameAccount row' row := by
  rcases step_users h with hu | ⟨call, fresh, f, f', u, rfl, hf, hfol, hu⟩
  · exact ⟨row, hu ▸ hr, rfl, rfl⟩
  · by_cases hid : id = u.id
    · refine ⟨u, by rw [hu, hid]; exact Table.find_save_self s.users u, ?_⟩
      subst hid
      have hold : ∀ v, f.user = some v → v.id = u.id → SameAccount v row := by
        intro v hv hvu
        obtain ⟨r, hr', hs⟩ := hi call f v hf hv
        obtain rfl : r = row := Option.some.inj ((hvu ▸ hr').symm.trans hr)
        exact ⟨hs.1.symm, hs.2.symm⟩
      cases hfol with
      | registerSave h | createSave _ h => rw [insert_find h] at hr; cases hr
      | updateSave user | applySave user => exact hold user rfl rfl
    · exact ⟨row, by rw [hu, Table.find_save_of_ne _ hid, hr], rfl, rfl⟩

theorem accountsKept_step {a : Action} (hi : AccountsKept s) (h : step host s a = some t) :
    AccountsKept t := by
  have hkeep : ∀ c f u, s.frames.get c = some f → f.user = some u →
      ∃ row, t.users.find u.id = some row ∧ SameAccount row u := by
    intro c f u hf hu
    obtain ⟨row, hr, hs⟩ := hi c f u hf hu
    obtain ⟨row', hr', hs'⟩ := account_step hi h hr
    exact ⟨row', hr', hs'.1.trans hs.1, hs'.2.trans hs.2⟩
  intro c f u hf hu
  rcases step_frames h hf with ⟨hf, -⟩ | he
  · exact hkeep c f u hf hu
  · cases he with
    | call request hn =>
        rw [(start_enters request hn).2] at hu
        cases hu
    | resume _ fresh hg hfol ht =>
        rcases follows_user hfol hu with hgu | ⟨rfl, hfind⟩ | rfl
        · exact hkeep c _ u hg hgu
        · exact ⟨u, ht ▸ hfind, rfl, rfl⟩
        · exact ⟨u, ht ▸ Table.find_save_self s.users u, rfl, rfl⟩

theorem authority_step {a : Action} (hC : SavesCurrentAuthority s a) {id : String} (hn : NotUpdated id s a)
    (h : step host s a = some t) {row : User} (hr : s.users.find id = some row) :
    ∃ row', t.users.find id = some row' ∧ SameAuthority row' row := by
  rcases step_users h with hu | ⟨call, fresh, f, f', u, rfl, hf, hfol, hu⟩
  · exact ⟨row, hu ▸ hr, rfl, rfl⟩
  · by_cases hid : id = u.id
    · refine ⟨u, by rw [hu, hid]; exact Table.find_save_self s.users u, ?_⟩
      subst hid
      cases hfol with
      | registerSave h | createSave _ h => rw [insert_find h] at hr; cases hr
      | updateSave user => exact absurd rfl (hn user (savedBy_of_frame hf rfl))
      | applySave user => exact hC user (savedBy_of_frame hf rfl) row hr
    · exact ⟨row, by rw [hu, Table.find_save_of_ne _ hid, hr], rfl, rfl⟩

theorem authority_run {id : String} {as : List Action} (h : run (step host) s as = some t)
    (hC : Along (step host) (fun s a => SavesCurrentAuthority s a ∧ NotUpdated id s a) s as) {row : User}
    (hr : s.users.find id = some row) : ∃ row', t.users.find id = some row' ∧ SameAuthority row' row := by
  refine relates_along (P := fun _ => True) (R := fun s t : State => ∀ row, s.users.find id = some row →
    ∃ row', t.users.find id = some row' ∧ SameAuthority row' row) ?_ ?_ ?_ h hC trivial row hr
  · exact fun s row hr => ⟨row, hr, rfl, rfl⟩
  · intro s t u hst htu row hr
    obtain ⟨row', hr', hs⟩ := hst row hr
    obtain ⟨row'', hr'', hs'⟩ := htu row' hr'
    exact ⟨row'', hr'', hs'.1.trans hs.1, hs'.2.trans hs.2⟩
  · exact fun s a t _ hC hs => ⟨trivial, fun row hr => authority_step hC.1 hC.2 hs hr⟩

theorem withPassword_only {before row : User} (hid : row.id = before.id)
    (hs : SameAccount row before) (passwordHash : String) :
    (∃ hash version,
      before.withPassword passwordHash = { row with passwordHash := hash, tokenVersion := version }) ↔
      SameAuthority before row := by
  constructor
  · rintro ⟨hash, version, h⟩
    have hr : (before.withPassword passwordHash).role = row.role := by rw [h]
    have hd : (before.withPassword passwordHash).disabledAt = row.disabledAt := by rw [h]
    exact ⟨hr, hd⟩
  · rintro ⟨hr, hd⟩
    refine ⟨passwordHash, before.tokenVersion + 1, ?_⟩
    cases before
    cases row
    simp_all [User.withPassword, SameAccount]

theorem passwordSave_writes {call : Nat} {before user : User} {passwordHash fresh : String}
    {by_ : PasswordChangedBy} {actor : Option String} (hi : Carries call before s)
    (hf : s.frames.get call = some (.applySave user passwordHash by_ actor))
    (h : step host s (.resume call fresh) = some t) :
    user = before ∧ t.users.find before.id = some (before.withPassword passwordHash) := by
  obtain rfl : user = before := by
    rcases hi.frame _ hf with hl | hs
    · exact Option.some.inj hl
    · cases hs
  refine ⟨rfl, ?_⟩
  rw [step, hf] at h
  obtain rfl := Option.some.inj h
  exact Table.find_save_self s.users (user.withPassword passwordHash)

/-- For a password operation that loads the row in state `u` and saves it in
state `s`: the save changes only the password columns, and keeps the standing
of the account, exactly when no other call has changed the role and the
disabled state in between. In runs where every password operation keeps to
that, they change only by commits of `updateUser`. -/
theorem password_save_keeps_authority_iff {users : Table User} {tokens : List JwtPayload}
    {pre mid : List Action} {u v s t : State} {call : Nat} {fresh fresh' : String}
    {before user row : User} {passwordHash : String} {by_ : PasswordChangedBy}
    {actor : Option String} (hpre : run (step host) (State.boot users tokens) pre = some u)
    (hload : u.passwordLoad call = some before) (hv : step host u (.resume call fresh) = some v)
    (hmid : run (step host) v mid = some s)
    (hf : s.frames.get call = some (.applySave user passwordHash by_ actor))
    (ht : step host s (.resume call fresh') = some t) (hrow : s.users.find before.id = some row) :
    (∃ after, t.users.find before.id = some after ∧
      ((∃ hash version, after = { row with passwordHash := hash, tokenVersion := version }) ↔
        SameAuthority before row) ∧
      (after.standing = row.standing ↔ before.standing = row.standing)) ∧
    ∀ (id : String) (later : List Action) (w : State), run (step host) u later = some w →
      Along (step host) (fun s a => SavesCurrentAuthority s a ∧ NotUpdated id s a) u later →
        ∀ r, u.users.find id = some r → ∃ r', w.users.find id = some r' ∧ SameAuthority r' r := by
  refine ⟨?_, fun id later w hw hC r hr => authority_run hw hC hr⟩
  have hmade : CallsMade u := invariant (fun _ _ _ hi hs => callsMade_step hi hs) hpre fun _ _ h => by cases h
  have hkept : AccountsKept u := invariant
    (fun _ _ _ hi hs => accountsKept_step hi hs) hpre fun _ _ _ h => by cases h
  have hcarries : Carries call before s :=
    invariant (fun _ _ _ hi hs => carries_step hi hs) hmid (carries_of_load hmade hload hv)
  have hkepts : AccountsKept s :=
    invariant (fun _ _ _ hi hs => accountsKept_step hi hs) hmid (accountsKept_step hkept hv)
  obtain ⟨rfl, hafter⟩ := passwordSave_writes hcarries hf ht
  obtain ⟨row', hrow', hsame⟩ := hkepts call _ user hf rfl
  obtain rfl : row' = row := Option.some.inj (hrow'.symm.trans hrow)
  exact ⟨_, hafter, withPassword_only (Table.key_of_find hrow) hsame passwordHash, Iff.rfl⟩

def disableDuringReset : List Action :=
  [.call (.register "a@x" "pw-a" none), .resume 0 "s0", .resume 0 "", .resume 0 "", .resume 0 "id-a",
   .call (.createUser "b@x" "pw-b" .admin none), .resume 1 "s1", .resume 1 "", .resume 1 "id-b",
   .call (.resetPassword "id-a" "pw-c" none)]

def disableFirst : List Action :=
  [.resume 2 "s2", .call (.updateUser "id-a" { disabled := some true } none), .resume 3 "",
    .resume 3 "", .resume 3 ""]

theorem stale_save_enables_account : ¬ ∀ (host : Host) (pre : List Action) (call : Nat)
    (user row after : User) (passwordHash fresh : String) (by_ : PasswordChangedBy)
    (actor : Option String) (s t : State),
    run (step host) (State.boot .empty []) pre = some s →
      s.frames.get call = some (.applySave user passwordHash by_ actor) →
        step host s (.resume call fresh) = some t →
        s.users.find user.id = some row → t.users.find user.id = some after →
          after.standing = row.standing := by
  intro h
  have := h plainHost (disableDuringReset ++
    .resume 2 "" :: disableFirst) 2 _ _ _ _ "" _ _ _ _ rfl rfl rfl rfl rfl
  exact absurd this (by decide)

theorem quiet_reset_keeps_standing : ∃ s t row after,
    run (step plainHost) (State.boot .empty [])
      (disableDuringReset ++ [.resume 2 "", .resume 2 "s2"]) = some s ∧
      step plainHost s (.resume 2 "") = some t ∧ s.users.find "id-a" = some row ∧
      t.users.find "id-a" = some after ∧ after.standing = row.standing := by
  obtain ⟨⟨after, hafter, -, hs⟩, -⟩ := @password_save_keeps_authority_iff plainHost .empty
    [] disableDuringReset
    [.resume 2 "s2"] _ _ _ _ 2 "" "" _ _ _ _ _ _ rfl rfl rfl rfl rfl rfl rfl
  exact ⟨_, _, _, after, rfl, rfl, rfl, hafter, hs.mpr rfl⟩

end EspClawPlatform.Identity
