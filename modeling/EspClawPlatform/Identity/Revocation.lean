import EspClawPlatform.Identity.Steps

namespace EspClawPlatform.Identity

open Run

variable {host : Host} {s t : State}

/-- The stored token version of an account; an unknown account has none to beat. -/
def versionOf (users : Table User) (id : String) : Nat := ((users.find id).map (·.tokenVersion)).getD 0

/-- No row is overwritten with a copy whose token version is out of date. -/
def SavesCurrentVersion (s : State) (a : Action) : Prop :=
  ∀ user ∈ s.savedBy Frame.rowSave a, ∀ row ∈ s.users.find user.id, user.tokenVersion = row.tokenVersion

instance (s : State) (a : Action) : Decidable (SavesCurrentVersion s a) :=
  inferInstanceAs (Decidable (∀ user ∈ s.savedBy Frame.rowSave a, ∀ row ∈ s.users.find user.id,
    user.tokenVersion = row.tokenVersion))

/-- The step commits the disabling of the account or a new password for it. -/
inductive Revokes (s : State) : Action → String → Prop
  | disable {call : Nat} {user : User} {change : UserChange} {at_ : Nat} {actor : Option String} {id : String}
      (fresh : String) (hf : s.frames.get call = some (.updateSave user change at_ actor))
      (hd : (user.changes change).disabled = some true) (hid : user.id = id) :
      Revokes s (.resume call fresh) id
  | password {call : Nat} {user : User} {passwordHash : String} {by_ : PasswordChangedBy}
      {actor : Option String}
      {id : String} (fresh : String) (hf : s.frames.get call = some (.applySave user passwordHash by_ actor))
      (hid : user.id = id) : Revokes s (.resume call fresh) id

structure VersionInv (s : State) : Prop where
  tokens : ∀ c ∈ s.tokens, c.tv.getD 0 ≤ versionOf s.users c.sub
  frames : ∀ c f u, s.frames.get c = some f → f.user = some u → u.tokenVersion ≤ versionOf s.users u.id

theorem versionOf_of_find {users : Table User} {u : User} (h : users.find u.id = some u) :
    versionOf users u.id = u.tokenVersion := by
  rw [versionOf, h]
  rfl

theorem versionOf_save (users : Table User) (u : User) (id : String) :
    versionOf (users.save u) id = if id = u.id then u.tokenVersion else versionOf users id := by
  rw [versionOf, Table.find_save]
  split
  · rename_i h
    rw [if_pos (show id = u.id from h)]
    rfl
  · rename_i h
    rw [if_neg (show ¬ id = u.id from h)]
    rfl

theorem le_versionOf_save {users : Table User} {u : User} (h : versionOf users u.id ≤ u.tokenVersion)
    (id : String) : versionOf users id ≤ versionOf (users.save u) id := by
  rw [versionOf_save]
  split
  · rename_i hid
    rw [hid]
    exact h
  · exact Nat.le_refl _

theorem versionOf_le_of_current {users : Table User} {u : User}
    (h : ∀ row ∈ users.find u.id, u.tokenVersion = row.tokenVersion) :
    versionOf users u.id ≤ u.tokenVersion := by
  cases hf : users.find u.id with
  | none => rw [versionOf, hf]; exact Nat.zero_le _
  | some row => rw [versionOf, hf]; exact Nat.le_of_eq (h row hf).symm

theorem le_write_version {call : Nat} {fresh : String} {f f' : Frame} {u : User}
    (hC : SavesCurrentVersion s (.resume call fresh)) (hf : s.frames.get call = some f)
    (h : Follows host s (some u) f f') : versionOf s.users u.id ≤ u.tokenVersion := by
  cases h with
  | registerSave h | createSave _ h =>
      rw [versionOf, insert_find h]
      exact Nat.zero_le _
  | updateSave user change at_ actor =>
      have hc := versionOf_le_of_current (hC user (savedBy_of_frame hf rfl))
      exact Nat.le_trans hc (le_changed_tokenVersion user change at_)
  | applySave user passwordHash by_ actor =>
      have hc := versionOf_le_of_current (hC user (savedBy_of_frame hf rfl))
      exact Nat.le_succ_of_le hc

theorem version_mono_step {a : Action} (hC : SavesCurrentVersion s a) (h : step host s a = some t)
    (id : String) :
    versionOf s.users id ≤ versionOf t.users id := by
  rcases step_users h with hu | ⟨call, fresh, f, f', u, rfl, hf, hfol, hu⟩
  · exact Nat.le_of_eq (by rw [hu])
  · rw [hu]
    exact le_versionOf_save (le_write_version hC hf hfol) id

theorem step_tokens {a : Action} (h : step host s a = some t) : t.tokens = s.tokens ∨
    ∃ call u, s.frames.get call = some (.sign u) ∧ t.tokens = s.tokens ++ [claims u] := by
  cases step_shape h with
  | tick ms ht => exact .inl (ht ▸ rfl)
  | call request ht =>
      left
      rw [ht]
      change s.tokens ++ (request.start host s).token.toList = s.tokens
      rw [(start_quiet request).2.1]
      exact List.append_nil _
  | reject call f e hf he ht =>
      left
      rw [ht]
      change s.tokens ++ e.token.toList = s.tokens
      rw [(reject_quiet he).2.1]
      exact List.append_nil _
  | resume call fresh f e hf he ht =>
      have hk : t.tokens = s.tokens ++ e.token.toList := by rw [ht]; rfl
      cases hc : e.token with
      | none =>
          rw [hc] at hk
          exact .inl (hk.trans (List.append_nil _))
      | some c =>
          obtain ⟨u, rfl, rfl⟩ := resume_token he hc
          rw [hc] at hk
          exact .inr ⟨call, u, hf, hk⟩

theorem versionInv_step {a : Action} (hi : VersionInv s) (hC : SavesCurrentVersion s a)
    (h : step host s a = some t) : VersionInv t := by
  have hmono := version_mono_step hC h
  refine ⟨?_, ?_⟩
  · intro c hc
    refine Nat.le_trans ?_ (hmono c.sub)
    rcases step_tokens h with ht | ⟨call, u, hf, ht⟩
    · exact hi.tokens c (ht ▸ hc)
    · rcases List.mem_append.mp (ht ▸ hc) with hc | hc
      · exact hi.tokens c hc
      · obtain rfl := List.mem_singleton.mp hc
        exact hi.frames call _ u hf rfl
  · intro c f u hf hu
    rcases step_frames h hf with ⟨hf, -⟩ | he
    · exact Nat.le_trans (hi.frames c f u hf hu) (hmono u.id)
    · cases he with
      | call request hn =>
          rw [(start_enters request hn).2] at hu
          cases hu
      | resume c fresh hg hfol ht =>
          rcases follows_user hfol hu with hgu | ⟨rfl, hfind⟩ | rfl
          · exact Nat.le_trans (hi.frames c _ u hg hgu) (hmono u.id)
          · rw [ht]
            exact Nat.le_of_eq (versionOf_of_find hfind).symm
          · rw [ht]
            exact Nat.le_of_eq (versionOf_of_find (Table.find_save_self s.users u)).symm

theorem versionInv_boot {users : Table User} {tokens : List JwtPayload} (h : ∀ c ∈ tokens, c.tv = none) :
    VersionInv (State.boot users tokens) where
  tokens := by
    intro c hc
    rw [h c hc]
    exact Nat.zero_le _
  frames := fun _ _ _ hf => by cases hf

theorem version_lt_of_revokes {a : Action} {id : String} (hC : SavesCurrentVersion s a) (hr : Revokes s a id)
    (h : step host s a = some t) : versionOf s.users id < versionOf t.users id := by
  cases hr with
  | @disable call user change at_ actor _ fresh hf hd hid =>
      subst hid
      have hc := versionOf_le_of_current (hC user (savedBy_of_frame hf rfl))
      rw [step, hf] at h
      obtain rfl := Option.some.inj h
      have hv : versionOf (s.users.save (user.changed change at_)) user.id = user.tokenVersion + 1 := by
        rw [versionOf_save, if_pos (changed_id user change at_).symm, User.changed]
        exact if_pos hd
      exact Nat.lt_of_le_of_lt hc (hv ▸ Nat.lt_succ_self _)
  | @password call user passwordHash by_ actor _ fresh hf hid =>
      subst hid
      have hc := versionOf_le_of_current (hC user (savedBy_of_frame hf rfl))
      rw [step, hf] at h
      obtain rfl := Option.some.inj h
      have hv : versionOf (s.users.save (user.withPassword passwordHash)) user.id = user.tokenVersion + 1 := by
        rw [versionOf_save, if_pos (withPassword_id user passwordHash).symm]
        rfl
      exact Nat.lt_of_le_of_lt hc (hv ▸ Nat.lt_succ_self _)

theorem version_mono_run {as : List Action} (h : run (step host) s as = some t)
    (hC : Along (step host) SavesCurrentVersion s as) (id : String) :
    versionOf s.users id ≤ versionOf t.users id :=
  relates_along (P := fun _ => True) (R := fun s t : State => versionOf s.users id ≤ versionOf t.users id)
    (fun _ => Nat.le_refl _) (fun _ _ _ => Nat.le_trans)
    (fun _ _ _ _ hC hs => ⟨trivial, version_mono_step hC hs id⟩) h hC trivial

/-- The stored version never decreases, and the guard never again accepts a
token issued before a revocation, in every run in which no row is overwritten
with a copy of an older version. -/
theorem revocation_complete {users : Table User} {tokens : List JwtPayload} {pre post : List Action}
    {a : Action} {u v s : State} (hold : ∀ c ∈ tokens, c.tv = none)
    (hpre : run (step host) (State.boot users tokens) pre = some u) (hv : step host u a = some v)
    (hpost : run (step host) v post = some s)
    (hC : Along (step host) SavesCurrentVersion (State.boot users tokens) (pre ++ a :: post)) :
    (∀ id, versionOf u.users id ≤ versionOf v.users id ∧ versionOf v.users id ≤ versionOf s.users id) ∧
      ∀ id, Revokes u a id → ∀ c ∈ u.tokens, c.sub = id →
        ∀ row ∈ s.users.find id, sameVersion c row = false := by
  obtain ⟨hCpre, hCrest⟩ := (along_append hpre).mp hC
  obtain ⟨hCa, hCpost⟩ := (along_cons hv).mp hCrest
  have hlater := version_mono_run hpost hCpost
  refine ⟨fun id => ⟨version_mono_step hCa hv id, hlater id⟩, ?_⟩
  rintro id hr c hc rfl row hrow
  have hinv : VersionInv u :=
    invariant_along (fun _ _ _ hi hC hs => versionInv_step hi hC hs) hpre hCpre (versionInv_boot hold)
  have hle := hinv.tokens c hc
  have hlt := version_lt_of_revokes hCa hr hv
  have hrowv : versionOf s.users c.sub = row.tokenVersion := by
    rw [versionOf, hrow]
    rfl
  have := hlater c.sub
  rw [sameVersion, decide_eq_false_iff_not]
  omega

def registerThenReset : List Action :=
  [.call (.register "a@x" "pw-a" none), .resume 0 "s0", .resume 0 "", .resume 0 "", .resume 0 "id-a",
   .call (.resetPassword "id-a" "pw-b" none), .resume 1 "", .resume 1 "s1"]

def loginAfterReset (call : Nat) : List Action :=
  [.resume 1 "", .resume 1 "", .call (.login "a@x" "pw-b" none), .resume call "", .resume call "",
    .resume call ""]

/-- The second reset begins before the first one saves, and saves after the login. -/
def overlappingResets : List Action :=
  registerThenReset ++ [.call (.resetPassword "id-a" "pw-c" none), .resume 2 "", .resume 2 "s2"] ++
    loginAfterReset 3

def separateResets : List Action :=
  registerThenReset ++ loginAfterReset 2 ++
    [.call (.resetPassword "id-a" "pw-c" none), .resume 3 "", .resume 3 "s2"]

theorem lost_increment_keeps_token : ¬ ∀ (host : Host) (pre : List Action) (a : Action) (u v : State),
    run (step host) (State.boot .empty []) pre = some u → step host u a = some v →
      ∀ id, Revokes u a id → ∀ c ∈ u.tokens, c.sub = id →
        ∀ row ∈ v.users.find id, sameVersion c row = false := by
  intro h
  have := h plainHost overlappingResets (.resume 2 "") _ _ rfl rfl "id-a" (.password "" rfl rfl)
    { sub := "id-a", email := "a@x", role := .admin, tv := some 1 } (by decide) rfl _ rfl
  exact absurd this (by decide)

theorem separate_resets_refuse_token : ∃ v row,
    run (step plainHost) (State.boot .empty []) (separateResets ++ [.resume 3 ""]) = some v ∧
      v.users.find "id-a" = some row ∧
      sameVersion { sub := "id-a", email := "a@x", role := .admin, tv := some 1 } row = false :=
  ⟨_, _, rfl, rfl, (@revocation_complete plainHost .empty [] separateResets [] (.resume 3 "") _ _ _
    (by decide) rfl rfl rfl (by decide)).2 "id-a" (.password "" rfl rfl) _
      (by decide) rfl _ rfl⟩

end EspClawPlatform.Identity
