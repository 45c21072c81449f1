import EspClawPlatform.Identity.Steps

namespace EspClawPlatform.Identity

open Run

variable {host : Host} {s t : State}

def HasActiveAdmin (users : Table User) : Prop := ∃ r ∈ users.rows, r.isActiveAdmin = true

instance (users : Table User) : Decidable (HasActiveAdmin users) :=
  inferInstanceAs (Decidable (∃ r ∈ users.rows, r.isActiveAdmin = true))

/-- No password operation overwrites the row of an active admin with a copy
from a time when the account was not one. -/
def KeepsActiveAdmins (s : State) (a : Action) : Prop :=
  ∀ user ∈ s.savedBy Frame.passwordSave a, ∀ row ∈ s.users.find user.id,
    row.isActiveAdmin = true → user.isActiveAdmin = true

instance (s : State) (a : Action) : Decidable (KeepsActiveAdmins s a) :=
  inferInstanceAs (Decidable (∀ user ∈ s.savedBy Frame.passwordSave a, ∀ row ∈ s.users.find user.id,
    row.isActiveAdmin = true → user.isActiveAdmin = true))

def Registers (s : State) : Action → Prop
  | .resume call _ => ∃ email passwordHash, s.frames.get call = some (.registerSave email passwordHash)
  | _ => False

def HasOther (users : Table User) (id : String) : Prop :=
  ∃ r, r.id ≠ id ∧ users.find r.id = some r ∧ r.isActiveAdmin = true

/-- There is an active admin, and no transaction about to commit takes the last one away. -/
structure AdminInv (s : State) : Prop where
  lock : LockHeld s
  admin : HasActiveAdmin s.users
  saves : ∀ c user change at_ actor, s.frames.get c = some (.updateSave user change at_ actor) →
    user.staysActiveAdmin change = true ∨ HasOther s.users user.id

theorem hasActiveAdmin_of_other {users : Table User} {id : String} (h : HasOther users id) :
    HasActiveAdmin users := by
  obtain ⟨r, _, hf, ha⟩ := h
  exact ⟨r, Table.mem_of_find hf, ha⟩

theorem hasOther_save {users : Table User} {u : User} (h : HasOther users u.id) :
    HasOther (users.save u) u.id := by
  obtain ⟨r, hne, hf, ha⟩ := h
  exact ⟨r, hne, by rw [Table.find_save_of_ne _ hne, hf], ha⟩

theorem hasOther_save_keep {users : Table User} {u : User}
    (hk : ∀ row ∈ users.find u.id, row.isActiveAdmin = true → u.isActiveAdmin = true) {id : String}
    (h : HasOther users id) : HasOther (users.save u) id := by
  obtain ⟨r, hne, hf, ha⟩ := h
  by_cases hr : r.id = u.id
  · refine ⟨u, hr ▸ hne, Table.find_save_self users u, ?_⟩
    exact hk r (hr ▸ hf) ha
  · exact ⟨r, hne, by rw [Table.find_save_of_ne _ hr, hf], ha⟩

theorem hasActiveAdmin_save_keep {users : Table User} {u : User}
    (hk : ∀ row ∈ users.find u.id, row.isActiveAdmin = true → u.isActiveAdmin = true)
    (h : HasActiveAdmin users) : HasActiveAdmin (users.save u) := by
  obtain ⟨r, hm, ha⟩ := h
  by_cases hr : r.id = u.id
  · refine ⟨u, Table.mem_save.mpr (.inl rfl), ?_⟩
    exact hk r (hr ▸ Table.find_of_mem hm) ha
  · exact ⟨r, Table.mem_save.mpr (.inr ⟨hm, hr⟩), ha⟩

theorem insert_isActiveAdmin {id email passwordHash : String} {u : User}
    (h : insert s id email passwordHash .admin = some u) : u.isActiveAdmin = true := by
  rw [insert] at h
  split at h
  · cases h
  · cases h
    rfl

theorem hasOther_of_count {users : Table User} {id : String} (h : 1 < users.count User.isActiveAdmin) :
    HasOther users id := Table.exists_other h id

theorem enters_updateSave {a : Action} {c : Nat} {user : User} {change : UserChange} {at_ : Nat}
    {actor : Option String} (hadmin : HasActiveAdmin s.users)
    (h : Enters host s t a c (.updateSave user change at_ actor)) :
    t.users = s.users ∧ (user.staysActiveAdmin change = true ∨ HasOther s.users user.id) := by
  cases h with
  | call request h =>
      have := (start_enters request h).1
      cases this
  | resume c fresh hf h ht =>
      cases h with
      | updateFind actor hu hlast =>
          refine ⟨ht, ?_⟩
          by_cases hs : user.staysActiveAdmin change = true
          · exact .inl hs
          · right
            by_cases ha : user.isActiveAdmin = true
            · exact hasOther_of_count (hlast ha (by simpa using hs))
            · obtain ⟨r, hm, hr⟩ := hadmin
              refine ⟨r, ?_, Table.find_of_mem hm, hr⟩
              intro he
              have : some user = some r := hu.symm.trans (he ▸ Table.find_of_mem hm)
              exact ha (Option.some.inj this ▸ hr)

theorem keeps_of_follows {a : Action} {call : Nat} {fresh : String} {f f' : Frame} {u : User}
    (hk : KeepsActiveAdmins s a) (ha : a = .resume call fresh) (hf : s.frames.get call = some f)
    (h : Follows host s (some u) f f') :
    (∃ user change at_ actor, f = .updateSave user change at_ actor ∧ u = user.changed change at_) ∨
      ∀ row ∈ s.users.find u.id, row.isActiveAdmin = true → u.isActiveAdmin = true := by
  cases h with
  | registerSave h | createSave _ h =>
      right
      rw [insert_find h]
      exact nofun
  | updateSave user change at_ actor => exact .inl ⟨user, change, at_, actor, rfl, rfl⟩
  | applySave user =>
      right
      subst ha
      exact hk user (savedBy_of_frame hf rfl)

theorem adminInv_step {a : Action} (hi : AdminInv s) (hk : KeepsActiveAdmins s a)
    (h : step host s a = some t) : AdminInv t := by
  have hold : ∀ c user change at_ actor, t.frames.get c = some (.updateSave user change at_ actor) →
      t.users = s.users ∧ (user.staysActiveAdmin change = true ∨ HasOther s.users user.id) ∨
        s.frames.get c = some (.updateSave user change at_ actor) ∧ ∀ fresh, a ≠ .resume c fresh := by
    intro c user change at_ actor hf
    rcases step_frames h hf with hf | he
    · exact .inr hf
    · exact .inl (enters_updateSave hi.admin he)
  rcases step_users h with hu | ⟨call, fresh, f, f', u, ha, hf, hfol, hu⟩
  · refine ⟨lockHeld_step hi.lock h, hu ▸ hi.admin, ?_⟩
    intro c user change at_ actor hg
    rw [hu]
    rcases hold c user change at_ actor hg with ⟨-, hs⟩ | ⟨hg, -⟩
    · exact hs
    · exact hi.saves c user change at_ actor hg
  · rcases keeps_of_follows hk ha hf hfol with ⟨user, change, at_, actor, rfl, rfl⟩ | hkeep
    · have hadmin : HasActiveAdmin t.users := by
        rw [hu]
        rcases hi.saves call user change at_ actor hf with hs | ho
        · refine ⟨user.changed change at_, Table.mem_save.mpr (.inl rfl), ?_⟩
          rw [changed_isActiveAdmin, hs]
        · exact hasActiveAdmin_of_other (hasOther_save ho)
      refine ⟨lockHeld_step hi.lock h, hadmin, ?_⟩
      intro c user' change' at_' actor' hg
      rcases hold c user' change' at_' actor' hg with ⟨hsame, hs⟩ | ⟨hg, hne⟩
      · exact hsame ▸ hs
      · have hc := hi.lock c _ hg rfl
        rw [hi.lock call _ hf rfl] at hc
        exact absurd ha (Option.some.inj hc ▸ hne fresh)
    · refine ⟨lockHeld_step hi.lock h, ?_, ?_⟩
      · rw [hu]
        exact hasActiveAdmin_save_keep hkeep hi.admin
      · intro c user change at_ actor hg
        rw [hu]
        rcases hold c user change at_ actor hg with ⟨-, hs⟩ | ⟨hg, -⟩
        · exact hs.imp_right (hasOther_save_keep hkeep)
        · exact (hi.saves c user change at_ actor hg).imp_right (hasOther_save_keep hkeep)

theorem adminInv_registers {a : Action} (hi : LockHeld s) (ha : Registers s a) (h : step host s a = some t) :
    AdminInv t := by
  cases step_shape h with
  | tick | call | reject => exact absurd ha id
  | resume call fresh f e hf he ht =>
      obtain ⟨email, passwordHash, hr⟩ := ha
      obtain rfl : f = _ := Option.some.inj (hf.symm.trans hr)
      obtain ⟨u, hu, rfl⟩ := Option.map_eq_some_iff.mp he
      refine ⟨lockHeld_step hi h, ?_, ?_⟩
      · refine ⟨u, ?_, insert_isActiveAdmin hu⟩
        rw [ht]
        exact Table.mem_save.mpr (.inl rfl)
      · intro c user change at_ actor hg
        exfalso
        rcases step_frames h hg with ⟨hg, hne⟩ | hent
        · have hc := hi c _ hg rfl
          rw [hi call _ hf rfl] at hc
          exact hne fresh (by rw [Option.some.inj hc])
        · cases hent with
          | resume _ _ hf' hfol =>
              obtain rfl : _ = _ := Option.some.inj (hf.symm.trans hf')
              cases hfol

/-- From the commit of a registration on there is an active admin, in every run
in which no password operation overwrites the row of an active admin with an
older copy that is not one. -/
theorem active_admin_remains {users : Table User} {tokens : List JwtPayload} {pre post : List Action}
    {a : Action} {u v s : State} (hpre : run (step host) (State.boot users tokens) pre = some u)
    (ha : Registers u a) (hv : step host u a = some v) (hpost : run (step host) v post = some s)
    (hk : Along (step host) KeepsActiveAdmins v post) : HasActiveAdmin s.users := by
  have hlock : LockHeld u := invariant (fun _ _ _ hi hs => lockHeld_step hi hs) hpre
    (lockHeld_boot users tokens)
  have hinv : AdminInv v := adminInv_registers hlock ha hv
  exact (invariant_along (fun _ _ _ hi hC hs => adminInv_step hi hC hs) hpost hk hinv).admin

def registerFirst : List Action :=
  [.call (.register "a@x" "pw-a" none), .resume 0 "s0", .resume 0 "", .resume 0 ""]

def handOver : List Action :=
  [.call (.createUser "b@x" "pw-b" .viewer none), .resume 1 "s1", .resume 1 "", .resume 1 "id-b",
   .call (.resetPassword "id-b" "pw-c" none), .resume 2 "", .resume 2 "s2",
   .call (.updateUser "id-b" { role := some .admin } none), .resume 3 "", .resume 3 "", .resume 3 "",
   .call (.updateUser "id-a" { role := some .viewer } none), .resume 4 "", .resume 4 "", .resume 4 ""]

theorem stale_save_removes_last_admin : ¬ ∀ (host : Host) (pre post : List Action) (a : Action)
    (u v s : State),
    run (step host) (State.boot .empty []) pre = some u → Registers u a → step host u a = some v →
      run (step host) v post = some s → HasActiveAdmin s.users := by
  intro h
  have := h plainHost registerFirst (handOver ++ [.resume 2 ""]) (.resume 0 "id-a") _ _ _ rfl
    ⟨"a@x", "pw-a$s0", rfl⟩ rfl rfl
  exact absurd this (by decide)

theorem active_admin_handed_over : ∃ s,
    run (step plainHost) (State.boot .empty []) (registerFirst ++ .resume 0 "id-a" :: handOver) = some s ∧
      HasActiveAdmin s.users :=
  ⟨_, rfl, @active_admin_remains plainHost .empty [] registerFirst handOver (.resume 0 "id-a") _ _ _ rfl
    ⟨"a@x", "pw-a$s0", rfl⟩ rfl rfl (by decide)⟩

end EspClawPlatform.Identity
