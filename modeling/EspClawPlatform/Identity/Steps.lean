import EspClawPlatform.Identity.IdentityService

namespace EspClawPlatform.Identity

open Run

variable {host : Host} {s t : State}

inductive Shape (host : Host) (s : State) (t : State) : Action → Prop
  | tick (ms : Nat) (ht : t = { s with now := s.now + ms }) : Shape host s t (.tick ms)
  | call (request : Request)
      (ht : t = { s.perform s.calls (request.start host s) with calls := s.calls + 1 }) :
      Shape host s t (.call request)
  | resume (call : Nat) (fresh : String) (f : Frame) (e : Effect) (hf : s.frames.get call = some f)
      (he : f.resume host s fresh = some e) (ht : t = s.perform call e) :
      Shape host s t (.resume call fresh)
  | reject (call : Nat) (f : Frame) (e : Effect) (hf : s.frames.get call = some f)
      (he : f.reject = some e) (ht : t = s.perform call e) : Shape host s t (.reject call)

theorem step_shape {a : Action} (h : step host s a = some t) : Shape host s t a := by
  cases a with
  | tick ms => exact .tick ms (Option.some.inj h).symm
  | call request => exact .call request (Option.some.inj h).symm
  | resume call fresh =>
      obtain ⟨f, hf, h⟩ := Option.bind_eq_some_iff.mp h
      obtain ⟨e, he, h⟩ := Option.bind_eq_some_iff.mp h
      exact .resume call fresh f e hf he (Option.some.inj h).symm
  | reject call =>
      obtain ⟨f, hf, h⟩ := Option.bind_eq_some_iff.mp h
      obtain ⟨e, he, h⟩ := Option.bind_eq_some_iff.mp h
      exact .reject call f e hf he (Option.some.inj h).symm

theorem le_now {a : Action} (h : step host s a = some t) : s.now ≤ t.now := by
  cases step_shape h with
  | tick ms ht => subst ht; exact Nat.le_add_right _ _
  | call request ht => subst ht; exact Nat.le_refl _
  | resume call fresh f e hf he ht => subst ht; exact Nat.le_refl _
  | reject call f e hf he ht => subst ht; exact Nat.le_refl _

def Frame.locked : Frame → Bool
  | .registerCount .. | .registerSave .. | .updateFind .. | .updateSave .. => true
  | _ => false

def Frame.user : Frame → Option User
  | .registerSaved user | .createSaved user _ | .updateSave user .. | .updateSaved user ..
  | .ownCompare user .. | .applyHash user .. | .applySave user .. | .applySaved user .. | .sign user =>
      some user
  | .loginCompare _ _ _ user | .activeFound _ user => user
  | _ => none

/-- The row, as it was loaded, that a password operation is about to overwrite. -/
def Frame.passwordSave : Frame → Option User
  | .applySave user .. => some user
  | _ => none

def Frame.changeSave : Frame → Option User
  | .updateSave user .. => some user
  | _ => none

def Frame.rowSave (f : Frame) : Option User := f.passwordSave.or f.changeSave

def State.savedBy (s : State) (saves : Frame → Option User) : Action → Option User
  | .resume call _ => (s.frames.get call).bind saves
  | _ => none

theorem savedBy_of_frame {saves : Frame → Option User} {call : Nat} {fresh : String} {f : Frame}
    {u : User} (hf : s.frames.get call = some f) (hu : saves f = some u) :
    s.savedBy saves (.resume call fresh) = some u := by
  rw [State.savedBy, hf]
  exact hu

theorem updateFound_quiet {id : String} {change : UserChange} {actor : Option String} :
    (updateFound s id change actor).write = none ∧ (updateFound s id change actor).token = none := by
  rw [updateFound]
  split
  · exact ⟨rfl, rfl⟩
  · split
    · exact ⟨rfl, rfl⟩
    · split <;> exact ⟨rfl, rfl⟩

theorem loginCompared_quiet {email password address : String} {user : Option User} :
    (loginCompared host s email password address user).write = none ∧
      (loginCompared host s email password address user).token = none := by
  rw [loginCompared]
  split <;> exact ⟨rfl, rfl⟩

theorem start_quiet (request : Request) :
    (request.start host s).write = none ∧ (request.start host s).token = none ∧
      (request.start host s).lock = .keep := by
  cases request with
  | register => simp only [Request.start]; split <;> exact ⟨rfl, rfl, rfl⟩
  | getActiveUser =>
      simp only [Request.start]
      split
      · split <;> exact ⟨rfl, rfl, rfl⟩
      · exact ⟨rfl, rfl, rfl⟩
  | login | listUsers | createUser | updateUser | resetPassword | changeOwnPassword => exact ⟨rfl, rfl, rfl⟩

theorem reject_quiet {f : Frame} {e : Effect} (h : f.reject = some e) :
    e.write = none ∧ e.token = none ∧ e.next.frame = none := by
  cases f <;> cases h <;> exact ⟨rfl, rfl, rfl⟩

theorem resume_token {f : Frame} {fresh : String} {e : Effect} (h : f.resume host s fresh = some e)
    {c : JwtPayload} (hc : e.token = some c) : ∃ u, f = .sign u ∧ c = claims u := by
  cases f with
  | sign u =>
      cases h
      exact ⟨u, rfl, (Option.some.inj hc).symm⟩
  | registerSave | createSave =>
      obtain ⟨u, hu, rfl⟩ := Option.map_eq_some_iff.mp h
      cases hc
  | registerLock | updateLock =>
      simp only [Frame.resume] at h
      split at h
      · cases h; cases hc
      · cases h
  | updateFind =>
      cases h
      rw [updateFound_quiet.2] at hc
      cases hc
  | loginCompare =>
      cases h
      rw [loginCompared_quiet.2] at hc
      cases hc
  | registerCount | createFind | resetFind | ownFind | ownCompare =>
      obtain rfl := Option.some.inj h
      grind
  | registerHash | registerSaved | loginFind | activeFind | activeFound | list | createHash | createSaved
  | updateSave | updateSaved | applyHash | applySave | applySaved =>
      cases h
      cases hc

theorem users_perform (s : State) (call : Nat) (e : Effect) :
    (s.perform call e).users = e.write.elim s.users s.users.save := rfl

theorem get_perform (s : State) (call : Nat) (e : Effect) (c : Nat) :
    (s.perform call e).frames.get c = if c = call then e.next.frame else s.frames.get c :=
  e.next.get_frames call s.frames c

theorem insert_find {id email passwordHash : String} {role : Role} {u : User}
    (h : insert s id email passwordHash role = some u) : s.users.find u.id = none := by
  rw [insert] at h
  split at h
  · cases h
  · rename_i hn
    cases h
    simp only [Bool.or_eq_true, not_or] at hn
    exact Option.not_isSome_iff_eq_none.mp hn.2

theorem find_of_email {email : String} {u : User}
    (h : (s.users.rows.find? fun u => u.email = email) = some u) : s.users.find u.id = some u :=
  Table.find_of_mem (List.mem_of_find?_eq_some h)

/-- The frames that can come after a frame, with the row its await writes and
with what the code has checked in between. -/
inductive Follows (host : Host) (s : State) : Option User → Frame → Frame → Prop
  | registerHash (email password salt : String) :
      Follows host s none (.registerHash email password) (.registerLock email (host.hash password salt))
  | registerLock (email passwordHash : String) (h : s.lock = none) :
      Follows host s none (.registerLock email passwordHash) (.registerCount email passwordHash)
  | registerCount (email passwordHash : String) (h : ¬ 0 < s.users.size) :
      Follows host s none (.registerCount email passwordHash) (.registerSave email passwordHash)
  | registerSave {id email passwordHash : String} {u : User}
      (h : insert s id email passwordHash .admin = some u) :
      Follows host s (some u) (.registerSave email passwordHash) (.registerSaved u)
  | registerSaved (u : User) : Follows host s none (.registerSaved u) (.sign u)
  | loginFind (email password address : String) :
      Follows host s none (.loginFind email password address)
        (.loginCompare email password address (s.users.rows.find? (·.email = email)))
  | loginCompare (email password address : String) (u : User)
      (hv : host.compare password u.passwordHash = true)
      (hd : u.disabled = false) :
      Follows host s none (.loginCompare email password address (some u)) (.sign u)
  | activeFind (id : String) : Follows host s none (.activeFind id) (.activeFound id (s.users.find id))
  | createHash (email password salt : String) (role : Role) (actor : Option String) :
      Follows host s none (.createHash email password role actor)
        (.createFind email (host.hash password salt) role actor)
  | createFind (email passwordHash : String) (role : Role) (actor : Option String)
      (h : ¬ (s.users.rows.any fun u => u.email = email) = true) :
      Follows host s none (.createFind email passwordHash role actor)
        (.createSave email passwordHash role actor)
  | createSave {id email passwordHash : String} {role : Role} {u : User} (actor : Option String)
      (h : insert s id email passwordHash role = some u) :
      Follows host s (some u) (.createSave email passwordHash role actor) (.createSaved u actor)
  | updateLock (id : String) (change : UserChange) (actor : Option String) (h : s.lock = none) :
      Follows host s none (.updateLock id change actor) (.updateFind id change actor)
  | updateSame {u : User} {change : UserChange} (actor : Option String) (hu : s.users.find u.id = some u)
      (hc : u.changes change = {}) :
      Follows host s none (.updateFind u.id change actor) (.updateSaved u {} actor)
  | updateFind {u : User} {change : UserChange} (actor : Option String) (hu : s.users.find u.id = some u)
      (hlast : u.isActiveAdmin = true → u.staysActiveAdmin change = false →
        1 < s.users.count User.isActiveAdmin) :
      Follows host s none (.updateFind u.id change actor) (.updateSave u change s.now actor)
  | updateSave (u : User) (change : UserChange) (at_ : Nat) (actor : Option String) :
      Follows host s (some (u.changed change at_)) (.updateSave u change at_ actor)
        (.updateSaved (u.changed change at_) (u.changes change) actor)
  | resetFind {u : User} (newPassword : String) (actor : Option String) (hu : s.users.find u.id = some u) :
      Follows host s none (.resetFind u.id newPassword actor) (.applyHash u newPassword .admin actor)
  | ownFind {u : User} (current next : String) (hu : s.users.find u.id = some u) (hd : u.disabled = false) :
      Follows host s none (.ownFind u.id current next) (.ownCompare u current next)
  | ownCompare (u : User) (current next : String) (hv : host.compare current u.passwordHash = true) :
      Follows host s none (.ownCompare u current next) (.applyHash u next .self (some u.id))
  | applyHash (u : User) (newPassword salt : String) (by_ : PasswordChangedBy) (actor : Option String) :
      Follows host s none (.applyHash u newPassword by_ actor)
        (.applySave u (host.hash newPassword salt) by_ actor)
  | applySave (u : User) (passwordHash : String) (by_ : PasswordChangedBy) (actor : Option String) :
      Follows host s (some (u.withPassword passwordHash)) (.applySave u passwordHash by_ actor)
        (.applySaved (u.withPassword passwordHash) by_ actor)
  | applySaved (u : User) (actor : Option String) : Follows host s none (.applySaved u .self actor) (.sign u)

theorem updateFound_follows {id : String} {change : UserChange} {actor : Option String} {f : Frame}
    (h : (updateFound s id change actor).next.frame = some f) :
    Follows host s (updateFound s id change actor).write (.updateFind id change actor) f := by
  rw [updateFound] at h ⊢
  split at h
  · cases h
  · rename_i u hu
    obtain rfl := Table.key_of_find hu
    split at h
    · cases h
    · rename_i hlast
      rw [if_neg hlast]
      split at h
      · rename_i hc
        rw [if_pos hc]
        obtain rfl := Option.some.inj h
        exact .updateSame actor hu hc
      · rename_i hc
        rw [if_neg hc]
        obtain rfl := Option.some.inj h
        refine .updateFind actor hu ?_
        intro ha hs
        simpa [ha, hs] using hlast

theorem loginCompared_follows {email password address : String} {user : Option User} {f : Frame}
    (h : (loginCompared host s email password address user).next.frame = some f) :
    Follows host s none (.loginCompare email password address user) f := by
  rw [loginCompared] at h
  split at h
  · cases h
  · rename_i u hu
    obtain ⟨rfl, hv⟩ := Option.filter_eq_some_iff.mp hu
    obtain rfl := Option.some.inj h
    simp only [Option.map_some, Option.getD_some, Bool.and_eq_true, Bool.not_eq_true'] at hv
    exact .loginCompare email password address u hv.1 hv.2

theorem resume_follows {f f' : Frame} {fresh : String} {e : Effect} (h : f.resume host s fresh = some e)
    (hn : e.next.frame = some f') : Follows host s e.write f f' := by
  cases f with
  | registerLock | updateLock =>
      simp only [Frame.resume] at h
      split at h
      · rename_i hl
        cases h
        cases hn
        constructor
        exact hl
      · cases h
  | registerCount =>
      obtain rfl := Option.some.inj h
      split at hn
      · cases hn
      · rename_i hs
        rw [if_neg hs]
        cases hn
        exact .registerCount _ _ hs
  | registerSave =>
      obtain ⟨u, hu, rfl⟩ := Option.map_eq_some_iff.mp h
      cases hn
      exact .registerSave hu
  | createSave =>
      obtain ⟨u, hu, rfl⟩ := Option.map_eq_some_iff.mp h
      cases hn
      exact .createSave _ hu
  | createFind =>
      obtain rfl := Option.some.inj h
      split at hn
      · cases hn
      · rename_i hs
        rw [if_neg hs]
        cases hn
        exact .createFind _ _ _ _ hs
  | loginCompare email password address user =>
      obtain rfl := Option.some.inj h
      rw [loginCompared_quiet.1]
      exact loginCompared_follows hn
  | updateFind id change actor =>
      obtain rfl := Option.some.inj h
      exact updateFound_follows hn
  | resetFind id newPassword actor =>
      obtain rfl := Option.some.inj h
      cases hu : s.users.find id with
      | none => rw [hu] at hn; cases hn
      | some u =>
          rw [hu] at hn
          cases hn
          obtain rfl := Table.key_of_find hu
          exact .resetFind newPassword actor hu
  | ownFind id current next =>
      obtain rfl := Option.some.inj h
      cases hu : s.users.find id with
      | none => rw [hu] at hn; cases hn
      | some u =>
          rw [hu] at hn
          cases hd : u.disabled with
          | true => simp only [hd] at hn; cases hn
          | false =>
              simp only [hd] at hn ⊢
              cases hn
              obtain rfl := Table.key_of_find hu
              exact .ownFind current next hu hd
  | ownCompare u current next =>
      obtain rfl := Option.some.inj h
      split at hn
      · rename_i hv
        rw [if_pos hv]
        cases hn
        exact .ownCompare u current next hv
      · cases hn
  | applySaved u by_ actor =>
      cases h
      cases by_ with
      | self => cases hn; exact .applySaved u actor
      | admin => cases hn
  | activeFound | list | createSaved | updateSaved | sign =>
      cases h
      cases hn
  | registerHash | registerSaved | loginFind | activeFind | createHash | updateSave | applyHash | applySave =>
      cases h
      cases hn
      constructor

theorem follows_user {f f' : Frame} {w : Option User} (h : Follows host s w f f') {u : User}
    (hu : f'.user = some u) : f.user = some u ∨ (w = none ∧ s.users.find u.id = some u) ∨ w = some u := by
  cases h with
  | loginFind => exact .inr (.inl ⟨rfl, find_of_email hu⟩)
  | activeFind id =>
      have hu : s.users.find id = some u := hu
      obtain rfl := Table.key_of_find hu
      exact .inr (.inl ⟨rfl, hu⟩)
  | updateSame actor hf | updateFind actor hf | resetFind _ actor hf | ownFind _ _ hf =>
      cases hu
      exact .inr (.inl ⟨rfl, hf⟩)
  | registerSave | createSave | updateSave | applySave =>
      cases hu
      exact .inr (.inr rfl)
  | registerSaved | loginCompare | ownCompare | applyHash | applySaved => exact .inl hu
  | registerHash | registerLock | registerCount | createHash | createFind | updateLock => cases hu

theorem resume_writes {f : Frame} {fresh : String} {e : Effect} (h : f.resume host s fresh = some e)
    {u : User} (hw : e.write = some u) : ∃ f', Follows host s (some u) f f' := by
  cases f with
  | registerSave email passwordHash =>
      obtain ⟨v, hv, rfl⟩ := Option.map_eq_some_iff.mp h
      obtain rfl : v = u := Option.some.inj hw
      exact ⟨_, .registerSave hv⟩
  | createSave email passwordHash role actor =>
      obtain ⟨v, hv, rfl⟩ := Option.map_eq_some_iff.mp h
      obtain rfl : v = u := Option.some.inj hw
      exact ⟨_, .createSave actor hv⟩
  | updateSave user change at_ actor =>
      obtain rfl := Option.some.inj h
      obtain rfl := Option.some.inj hw
      exact ⟨_, .updateSave user change at_ actor⟩
  | applySave user passwordHash by_ actor =>
      obtain rfl := Option.some.inj h
      obtain rfl := Option.some.inj hw
      exact ⟨_, .applySave user passwordHash by_ actor⟩
  | updateFind id change actor =>
      obtain rfl := Option.some.inj h
      rw [updateFound_quiet.1] at hw
      cases hw
  | loginCompare email password address user =>
      obtain rfl := Option.some.inj h
      rw [loginCompared_quiet.1] at hw
      cases hw
  | registerLock | updateLock =>
      simp only [Frame.resume] at h
      split at h
      · cases h; cases hw
      · cases h
  | registerCount | createFind | resetFind | ownFind | ownCompare =>
      obtain rfl := Option.some.inj h
      grind
  | registerHash | registerSaved | loginFind | activeFind | activeFound | list | createHash | createSaved
  | updateSaved | applyHash | applySaved | sign =>
      cases h
      cases hw

theorem step_users {a : Action} (h : step host s a = some t) : t.users = s.users ∨
    ∃ call fresh f f' u, a = .resume call fresh ∧ s.frames.get call = some f ∧
      Follows host s (some u) f f' ∧ t.users = s.users.save u := by
  cases step_shape h with
  | tick ms ht => exact .inl (ht ▸ rfl)
  | call request ht =>
      left
      rw [ht]
      change (request.start host s).write.elim s.users s.users.save = s.users
      rw [(start_quiet request).1]
      rfl
  | reject call f e hf he ht =>
      left
      rw [ht, users_perform, (reject_quiet he).1]
      rfl
  | resume call fresh f e hf he ht =>
      cases hw : e.write with
      | none => exact .inl (by rw [ht, users_perform, hw]; rfl)
      | some u =>
          obtain ⟨f', hf'⟩ := resume_writes he hw
          exact .inr ⟨call, fresh, f, f', u, rfl, hf, hf', by rw [ht, users_perform, hw]; rfl⟩

inductive Enters (host : Host) (s t : State) : Action → Nat → Frame → Prop
  | call (request : Request) {f : Frame} (h : (request.start host s).next.frame = some f) :
      Enters host s t (.call request) s.calls f
  | resume (c : Nat) (fresh : String) {f f' : Frame} {w : Option User} (hf : s.frames.get c = some f)
      (h : Follows host s w f f') (ht : t.users = w.elim s.users s.users.save) :
      Enters host s t (.resume c fresh) c f'

theorem step_frames {a : Action} (h : step host s a = some t) {c : Nat} {f : Frame}
    (hf : t.frames.get c = some f) :
    (s.frames.get c = some f ∧ ∀ fresh, a ≠ .resume c fresh) ∨ Enters host s t a c f := by
  cases step_shape h with
  | tick ms ht =>
      subst ht
      refine .inl ⟨hf, fun fresh hr => ?_⟩
      cases hr
  | call request ht =>
      rw [ht] at hf
      change (s.perform s.calls (request.start host s)).frames.get c = some f at hf
      rw [get_perform] at hf
      split at hf
      · rename_i hc
        exact .inr (hc ▸ .call request hf)
      · refine .inl ⟨hf, fun fresh hr => ?_⟩
        cases hr
  | resume call fresh g e hg he ht =>
      have hu : t.users = e.write.elim s.users s.users.save := by rw [ht, users_perform]
      rw [ht, get_perform] at hf
      split at hf
      · rename_i hc
        exact .inr (hc ▸ .resume call fresh hg (resume_follows he hf) hu)
      · rename_i hc
        refine .inl ⟨hf, ?_⟩
        rintro fresh' hr
        cases hr
        exact hc rfl
  | reject call g e hg he ht =>
      rw [ht, get_perform, (reject_quiet he).2.2] at hf
      split at hf
      · cases hf
      · refine .inl ⟨hf, fun fresh hr => ?_⟩
        cases hr

inductive Ends (host : Host) (s : State) : Action → Nat → Except ApiError Reply → Prop
  | call (request : Request) {r : Except ApiError Reply} (h : (request.start host s).next = .done r) :
      Ends host s (.call request) s.calls r
  | resume (c : Nat) (fresh : String) {f : Frame} {e : Effect} {r : Except ApiError Reply}
      (hf : s.frames.get c = some f) (he : f.resume host s fresh = some e) (h : e.next = .done r) :
      Ends host s (.resume c fresh) c r
  | reject (c : Nat) {f : Frame} (hf : s.frames.get c = some f) : Ends host s (.reject c) c (.error .database)

theorem results_perform (s : State) (call : Nat) (e : Effect) {c : Nat} {r : Except ApiError Reply}
    (h : (s.perform call e).results.get c = some r) :
    s.results.get c = some r ∨ c = call ∧ e.next = .done r :=
  Await.Next.results_get h

theorem step_results {a : Action} (h : step host s a = some t) {c : Nat} {r : Except ApiError Reply}
    (hr : t.results.get c = some r) : s.results.get c = some r ∨ Ends host s a c r := by
  cases step_shape h with
  | tick ms ht =>
      subst ht
      exact .inl hr
  | call request ht =>
      subst ht
      rcases results_perform s s.calls _ hr with hr | ⟨rfl, hn⟩
      · exact .inl hr
      · exact .inr (.call request hn)
  | resume call fresh f e hf he ht =>
      subst ht
      rcases results_perform s call e hr with hr | ⟨rfl, hn⟩
      · exact .inl hr
      · exact .inr (.resume _ fresh hf he hn)
  | reject call f e hf he ht =>
      subst ht
      rcases results_perform s call e hr with hr | ⟨rfl, hn⟩
      · exact .inl hr
      · have hdatabase : r = .error .database := by
          cases f <;> cases he <;> cases hn <;> rfl
        exact .inr (hdatabase ▸ .reject _ hf)

theorem start_enters (request : Request) {f : Frame} (h : (request.start host s).next.frame = some f) :
    f.locked = false ∧ f.user = none := by
  cases request with
  | register =>
      simp only [Request.start] at h
      split at h <;> cases h
      exact ⟨rfl, rfl⟩
  | login =>
      simp only [Request.start] at h
      split at h <;> cases h
      exact ⟨rfl, rfl⟩
  | getActiveUser =>
      simp only [Request.start] at h
      split at h
      · split at h <;> cases h
        exact ⟨rfl, rfl⟩
      · cases h
        exact ⟨rfl, rfl⟩
  | listUsers | createUser | updateUser | resetPassword | changeOwnPassword =>
      cases h
      exact ⟨rfl, rfl⟩

structure LockSpec (s : State) (f : Frame) (e : Effect) : Prop where
  acquire : e.lock = .acquire → s.lock = none
  release : e.lock = .release → f.locked = true
  enter : ∀ f', e.next.frame = some f' → f'.locked = true →
    e.lock = .acquire ∨ e.lock = .keep ∧ f.locked = true

@[simp]
theorem throw_frame (error : ApiError) : (throw error).frame = none := rfl

theorem lockSpec_acquire {f : Frame} {e : Effect} (ha : e.lock = .acquire) (hs : s.lock = none) :
    LockSpec s f e where
  acquire := fun _ => hs
  release := fun h => by cases ha.symm.trans h
  enter := fun _ _ _ => .inl ha

theorem lockSpec_keep {f : Frame} {e : Effect} (hk : e.lock = .keep)
    (hn : ∀ f', e.next.frame = some f' → f'.locked = true → f.locked = true) : LockSpec s f e where
  acquire := fun h => by cases hk.symm.trans h
  release := fun h => by cases hk.symm.trans h
  enter := fun f' hf hl => .inr ⟨hk, hn f' hf hl⟩

theorem lockSpec_release {f : Frame} {e : Effect} (hr : e.lock = .release) (hf : f.locked = true)
    (hn : ∀ f', e.next.frame = some f' → f'.locked = false) : LockSpec s f e where
  acquire := fun h => by cases hr.symm.trans h
  release := fun _ => hf
  enter := fun f' h hl => by cases (hn f' h).symm.trans hl

theorem lockSpec_throw {f : Frame} {e : Effect} (hr : e.lock = .release) (hf : f.locked = true)
    (hn : e.next.frame = none) : LockSpec s f e := by
  refine lockSpec_release hr hf fun f' h => ?_
  rw [hn] at h
  cases h

theorem resume_lock {f : Frame} {fresh : String} {e : Effect} (h : f.resume host s fresh = some e) :
    LockSpec s f e := by
  cases f with
  | registerLock | updateLock =>
      simp only [Frame.resume] at h
      split at h
      · rename_i hl
        cases h
        exact lockSpec_acquire rfl hl
      · cases h
  | registerCount =>
      obtain rfl := Option.some.inj h
      split
      · exact lockSpec_throw rfl rfl (throw_frame _)
      · exact lockSpec_keep rfl fun _ _ _ => rfl
  | updateFind id change actor =>
      obtain rfl := Option.some.inj h
      rw [updateFound]
      split
      · exact lockSpec_throw rfl rfl (throw_frame _)
      · split
        · exact lockSpec_throw rfl rfl (throw_frame _)
        · split
          · apply lockSpec_release rfl rfl
            rintro _ ⟨⟩
            rfl
          · exact lockSpec_keep rfl fun _ _ _ => rfl
  | registerSave =>
      obtain ⟨v, hv, rfl⟩ := Option.map_eq_some_iff.mp h
      apply lockSpec_release rfl rfl
      rintro _ ⟨⟩
      rfl
  | createSave =>
      obtain ⟨v, hv, rfl⟩ := Option.map_eq_some_iff.mp h
      apply lockSpec_keep rfl
      rintro _ ⟨⟩ ⟨⟩
  | updateSave =>
      cases h
      apply lockSpec_release rfl rfl
      rintro _ ⟨⟩
      rfl
  | loginCompare =>
      obtain rfl := Option.some.inj h
      rw [loginCompared]
      split
      · refine lockSpec_keep rfl fun f' hf => ?_
        cases (throw_frame _).symm.trans hf
      · apply lockSpec_keep rfl
        rintro _ ⟨⟩ ⟨⟩
  | createFind | resetFind | ownFind | ownCompare =>
      obtain rfl := Option.some.inj h
      constructor <;> grind [Await.Next.frame, throw, Frame.locked]
  | applySaved user by_ actor =>
      cases h
      refine lockSpec_keep rfl fun _ h hl => ?_
      cases by_ <;> cases h
      cases hl
  | registerHash | registerSaved | loginFind | activeFind | activeFound | list | createHash | createSaved
  | updateSaved | applyHash | applySave | sign =>
      cases h
      refine lockSpec_keep rfl fun _ h hl => ?_
      cases h <;> cases hl

theorem reject_lock {f : Frame} {e : Effect} (h : f.reject = some e) : LockSpec s f e := by
  refine ⟨?_, ?_, ?_⟩
  · cases f <;> cases h <;> exact fun h => by cases h
  · cases f <;> cases h <;> first | exact fun _ => rfl | exact fun h => by cases h
  · intro f' hn
    rw [(reject_quiet h).2.2] at hn
    cases hn

/-- Every call inside a transaction holds the lock, so there is at most one. -/
def LockHeld (s : State) : Prop := ∀ c f, s.frames.get c = some f → f.locked = true → s.lock = some c

theorem lock_keep {call : Nat} {e : Effect} (h : e.lock = .keep) : (s.perform call e).lock = s.lock := by
  rw [State.perform, h]

theorem lock_acquire {call : Nat} {e : Effect} (h : e.lock = .acquire) :
    (s.perform call e).lock = some call := by
  rw [State.perform, h]

theorem lockHeld_perform {call : Nat} {f : Frame} {e : Effect} (hi : LockHeld s)
    (hf : s.frames.get call = some f) (hs : LockSpec s f e) : LockHeld (s.perform call e) := by
  intro c g hg hl
  rw [get_perform] at hg
  split at hg
  · rename_i hc
    rcases hs.enter g hg hl with he | ⟨he, hfl⟩
    · rw [lock_acquire he, hc]
    · rw [lock_keep he, hc]
      exact hi call f hf hfl
  · rename_i hc
    have hsl := hi c g hg hl
    cases he : e.lock with
    | keep => rw [lock_keep he]; exact hsl
    | acquire => rw [hs.acquire he] at hsl; cases hsl
    | release =>
        -- the lock was this call's, and the other call is outside
        rw [hi call f hf (hs.release he)] at hsl
        exact absurd (Option.some.inj hsl).symm hc

theorem lockHeld_step {a : Action} (hi : LockHeld s) (h : step host s a = some t) : LockHeld t := by
  cases step_shape h with
  | tick ms ht => rw [ht]; exact hi
  | resume call fresh f e hf he ht => rw [ht]; exact lockHeld_perform hi hf (resume_lock he)
  | reject call f e hf he ht => rw [ht]; exact lockHeld_perform hi hf (reject_lock he)
  | call request ht =>
      intro c f hf hl
      rw [ht] at hf ⊢
      change (s.perform s.calls (request.start host s)).frames.get c = some f at hf
      rw [get_perform] at hf
      split at hf
      · rw [(start_enters request hf).1] at hl
        cases hl
      · change (s.perform s.calls (request.start host s)).lock = some c
        rw [State.perform, (start_quiet request).2.2]
        exact hi c f hf hl

theorem lockHeld_boot (users : Table User) (tokens : List JwtPayload) : LockHeld (State.boot users tokens) :=
  fun _ _ h => by cases h

def CallsMade (s : State) : Prop := ∀ c f, s.frames.get c = some f → c < s.calls

theorem le_calls {a : Action} (h : step host s a = some t) : s.calls ≤ t.calls := by
  cases step_shape h with
  | tick ms ht => subst ht; exact Nat.le_refl _
  | call request ht => subst ht; exact Nat.le_succ _
  | resume call fresh f e hf he ht => subst ht; exact Nat.le_refl _
  | reject call f e hf he ht => subst ht; exact Nat.le_refl _

theorem callsMade_step {a : Action} (hi : CallsMade s) (h : step host s a = some t) : CallsMade t := by
  intro c f hf
  rcases step_frames h hf with ⟨hf, -⟩ | he
  · exact Nat.lt_of_lt_of_le (hi c f hf) (le_calls h)
  · cases he with
    | call request hn =>
        obtain rfl := Option.some.inj h
        exact Nat.lt_succ_self _
    | resume _ fresh hg => exact Nat.lt_of_lt_of_le (hi c _ hg) (le_calls h)

theorem frame_kept {a : Action} {call : Nat} {f : Frame} (h : step host s a = some t)
    (hf : s.frames.get call = some f) (hmade : call < s.calls) (hresume : ∀ fresh, a ≠ .resume call fresh)
    (hreject : a ≠ .reject call) : t.frames.get call = some f := by
  cases step_shape h with
  | tick ms ht => subst ht; exact hf
  | call request ht =>
      subst ht
      change (s.perform s.calls (request.start host s)).frames.get call = some f
      rw [get_perform, if_neg (Nat.ne_of_lt hmade), hf]
  | resume other fresh g e hg he ht =>
      subst ht
      rw [get_perform, if_neg, hf]
      rintro rfl
      exact hresume fresh rfl
  | reject other g e hg he ht =>
      subst ht
      rw [get_perform, if_neg, hf]
      rintro rfl
      exact hreject rfl

structure Numbered (s : State) : Prop where
  frames : CallsMade s
  results : ∀ c r, s.results.get c = some r → c < s.calls ∧ s.frames.get c = none

theorem numbered_boot (users : Table User) (tokens : List JwtPayload) :
    Numbered (State.boot users tokens) where
  frames := fun _ _ hf => by cases hf
  results := fun _ _ hr => by cases hr

theorem ended_perform {call c : Nat} {f : Frame} {e : Effect} {r : Except ApiError Reply} (hi : Numbered s)
    (hf : s.frames.get call = some f) (hr : (s.perform call e).results.get c = some r) :
    c < s.calls ∧ (s.perform call e).frames.get c = none := by
  rw [get_perform]
  rcases results_perform s call e hr with hr | ⟨rfl, hn⟩
  · obtain ⟨hlt, hnone⟩ := hi.results c r hr
    rw [if_neg, hnone]
    · exact ⟨hlt, rfl⟩
    · rintro rfl
      cases hnone.symm.trans hf
  · rw [if_pos rfl, hn]
    exact ⟨hi.frames c f hf, rfl⟩

theorem numbered_step {a : Action} (hi : Numbered s) (h : step host s a = some t) : Numbered t := by
  refine ⟨callsMade_step hi.frames h, fun c r hr => ?_⟩
  cases step_shape h with
  | tick ms ht =>
      subst ht
      exact hi.results c r hr
  | call request ht =>
      subst ht
      change c < s.calls + 1 ∧ (s.perform s.calls (request.start host s)).frames.get c = none
      rw [get_perform]
      rcases results_perform s s.calls _ hr with hr | ⟨rfl, hn⟩
      · obtain ⟨hlt, hnone⟩ := hi.results c r hr
        rw [if_neg (Nat.ne_of_lt hlt)]
        exact ⟨Nat.lt_succ_of_lt hlt, hnone⟩
      · rw [if_pos rfl, hn]
        exact ⟨Nat.lt_succ_self _, rfl⟩
  | resume call fresh f e hf he ht =>
      subst ht
      exact ended_perform hi hf hr
  | reject call f e hf he ht =>
      subst ht
      exact ended_perform hi hf hr

end EspClawPlatform.Identity
