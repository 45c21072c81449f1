import EspClawPlatform.Identity.Admission
import EspClawPlatform.Identity.AuditTrail

namespace EspClawPlatform.Identity

open Run

variable {host : Host} {verifyAsync : Nat → String → Option JwtPayload} {admitted : List Admission}
  {s t : State} {g h : Gate} {actor : Option String}

def Asked (admitted : List Admission) (actor : Option String) (operation : Operation) : Prop :=
  ∃ a ∈ admitted, ∃ user, a.user = some user ∧ actor = some user.sub ∧ a.operation = operation

theorem Asked.mono {operation : Operation} (h : Asked admitted actor operation) (later : List Admission) :
    Asked (admitted ++ later) actor operation := by
  obtain ⟨a, ha, hrest⟩ := h
  exact ⟨a, List.mem_append_left _ ha, hrest⟩

def AskedPassword (admitted : List Admission) (id : String) (actor : Option String) : PasswordChangedBy → Prop
  | .admin => ∃ password, Asked admitted actor (.resetPassword id password)
  | .self => actor = some id ∧ ∃ current next, Asked admitted actor (.changeOwnPassword current next)

theorem AskedPassword.mono {id : String} {by_ : PasswordChangedBy} (h : AskedPassword admitted id actor by_)
    (later : List Admission) : AskedPassword (admitted ++ later) id actor by_ := by
  cases by_ with
  | admin =>
      obtain ⟨password, h⟩ := h
      exact ⟨password, h.mono later⟩
  | self =>
      obtain ⟨hactor, current, next, h⟩ := h
      exact ⟨hactor, current, next, h.mono later⟩

def Request.Ordered (admitted : List Admission) : Request → Prop
  | .createUser email password role actor => Asked admitted actor (.create email password role)
  | .updateUser id change actor => Asked admitted actor (.update id change)
  | .resetPassword id password actor => Asked admitted actor (.resetPassword id password)
  | .changeOwnPassword id current next => Asked admitted (some id) (.changeOwnPassword current next)
  | _ => True

def Frame.Ordered (admitted : List Admission) : Frame → Prop
  | .createHash email _ role actor | .createFind email _ role actor | .createSave email _ role actor =>
      ∃ password, Asked admitted actor (.create email password role)
  | .createSaved user actor => ∃ password, Asked admitted actor (.create user.email password user.role)
  | .updateLock id change actor | .updateFind id change actor => Asked admitted actor (.update id change)
  | .updateSave user change _ actor => Asked admitted actor (.update user.id change)
  | .updateSaved user _ actor => ∃ change, Asked admitted actor (.update user.id change)
  | .resetFind id password actor => Asked admitted actor (.resetPassword id password)
  | .ownFind id current next => Asked admitted (some id) (.changeOwnPassword current next)
  | .ownCompare user current next => Asked admitted (some user.id) (.changeOwnPassword current next)
  | .applyHash user _ by_ actor | .applySave user _ by_ actor | .applySaved user by_ actor =>
      AskedPassword admitted user.id actor by_
  | _ => True

/-- An event that says what an actor has done to an account was asked for by this actor. -/
def Ordered (admitted : List Admission) : Payload → Prop
  | .userCreated _ email role actor => actor = none ∨ ∃ password, Asked admitted actor (.create email password role)
  | .userUpdated id _ _ actor => ∃ change, Asked admitted actor (.update id change)
  | .passwordChanged id _ by_ actor => AskedPassword admitted id actor by_
  | _ => True

theorem Frame.Ordered.mono {f : Frame} (h : f.Ordered admitted) (later : List Admission) :
    f.Ordered (admitted ++ later) := by
  cases f with
  | createHash | createFind | createSave | createSaved =>
      obtain ⟨password, h⟩ := h
      exact ⟨password, h.mono later⟩
  | updateLock | updateFind | updateSave | resetFind | ownFind | ownCompare => exact Asked.mono h later
  | updateSaved =>
      obtain ⟨change, h⟩ := h
      exact ⟨change, h.mono later⟩
  | applyHash | applySave | applySaved => exact AskedPassword.mono h later
  | _ => trivial

theorem Ordered.mono {e : Payload} (h : Ordered admitted e) (later : List Admission) :
    Ordered (admitted ++ later) e := by
  cases e with
  | userCreated =>
      rcases h with h | ⟨password, h⟩
      · exact .inl h
      · exact .inr ⟨password, h.mono later⟩
  | userUpdated =>
      obtain ⟨change, h⟩ := h
      exact ⟨change, h.mono later⟩
  | passwordChanged => exact AskedPassword.mono h later
  | _ => trivial

theorem insert_asked {id email passwordHash : String} {role : Role} {u : User}
    (h : insert s id email passwordHash role = some u) : u.email = email ∧ u.role = role := by
  rw [insert] at h
  split at h
  · cases h
  · cases h
    exact ⟨rfl, rfl⟩

theorem follows_ordered {f f' : Frame} {w : Option User} (h : Follows host s w f f') (ho : f.Ordered admitted) :
    f'.Ordered admitted := by
  cases h with
  | createSave actor h =>
      obtain ⟨hemail, hrole⟩ := insert_asked h
      obtain ⟨password, ho⟩ := ho
      exact ⟨password, by rwa [hemail, hrole]⟩
  | createHash | createFind | updateLock | updateFind | applyHash | applySave | ownFind => exact ho
  | updateSame | updateSave => exact ⟨_, ho⟩
  | resetFind => exact ⟨_, ho⟩
  | ownCompare => exact ⟨rfl, _, _, ho⟩
  | registerHash | registerLock | registerCount | registerSave | registerSaved | loginFind | loginCompare
  | activeFind | applySaved => trivial

theorem start_ordered {request : Request} {f : Frame} (hr : request.Ordered admitted)
    (h : (request.start host s).next.frame = some f) : f.Ordered admitted := by
  cases request with
  | register =>
      simp only [Request.start] at h
      split at h <;> cases h
      trivial
  | login =>
      simp only [Request.start] at h
      split at h <;> cases h
      trivial
  | getActiveUser =>
      simp only [Request.start] at h
      split at h
      · split at h <;> cases h
        trivial
      · cases h
        trivial
  | listUsers => cases h; trivial
  | createUser => cases h; exact ⟨_, hr⟩
  | updateUser | resetPassword | changeOwnPassword => cases h; exact hr

theorem resume_ordered {f : Frame} {fresh : String} {e : Effect} (h : f.resume host s fresh = some e)
    (ho : f.Ordered admitted) : ∀ p ∈ e.publish, Ordered admitted p := by
  have hnone {e' : Effect} (he : e'.publish = []) : ∀ p ∈ e'.publish, Ordered admitted p := by
    rw [he]
    exact fun _ hp => by cases hp
  cases f with
  | registerSaved user =>
      cases h
      intro p hp
      rw [List.mem_singleton.mp hp]
      exact .inl rfl
  | createSaved user actor =>
      cases h
      intro p hp
      rw [List.mem_singleton.mp hp]
      exact .inr ho
  | updateSaved user changes actor =>
      cases h
      intro p hp
      dsimp only at hp
      split at hp
      · cases hp
      · rw [List.mem_singleton.mp hp]
        exact ho
  | applySaved user by_ actor =>
      cases h
      intro p hp
      rw [List.mem_singleton.mp hp]
      exact ho
  | loginCompare email password address user =>
      cases h
      intro p hp
      rw [loginCompared] at hp
      split at hp
      · obtain ⟨scope, -, rfl⟩ := List.mem_map.mp (by simpa [loginFailed, Option.toList_map] using hp :
          p ∈ (s.throttle.locked host.toLowerCase s.now email address).toList.map fun scope =>
            Payload.loginLocked scope email address)
        trivial
      · rw [List.mem_singleton.mp hp]
        trivial
  | registerSave | createSave =>
      obtain ⟨u, -, rfl⟩ := Option.map_eq_some_iff.mp h
      exact hnone rfl
  | registerLock | updateLock =>
      simp only [Frame.resume] at h
      split at h <;> cases h
      exact hnone rfl
  | updateFind id change actor =>
      cases h
      exact hnone updateFound_publishes.1
  | registerCount | createFind | ownCompare =>
      obtain rfl := Option.some.inj h
      split <;> exact hnone rfl
  | resetFind id newPassword actor =>
      obtain rfl := Option.some.inj h
      cases s.users.find id <;> exact hnone rfl
  | ownFind id current next =>
      obtain rfl := Option.some.inj h
      cases s.users.find id with
      | none => exact hnone rfl
      | some user => cases hd : user.disabled <;> simp only [hd] <;> exact hnone rfl
  | registerHash | loginFind | activeFind | activeFound | list | createHash | updateSave | applyHash | applySave
  | sign =>
      cases h
      exact hnone rfl

structure OrdersInv (admitted : List Admission) (s : State) : Prop where
  frames : ∀ call f, s.frames.get call = some f → f.Ordered admitted
  events : ∀ e ∈ s.events, Ordered admitted e.payload

theorem OrdersInv.mono (hi : OrdersInv admitted s) (later : List Admission) : OrdersInv (admitted ++ later) s :=
  ⟨fun call f hf => (hi.frames call f hf).mono later, fun e he => (hi.events e he).mono later⟩

theorem events_perform {call : Nat} {e : Effect} (hi : OrdersInv admitted s)
    (hp : ∀ p ∈ e.publish, Ordered admitted p) : ∀ x ∈ (s.perform call e).events, Ordered admitted x.payload := by
  intro x hx
  rcases List.mem_append.mp hx with hx | hx
  · exact hi.events x hx
  · obtain ⟨p, hmem, rfl⟩ := List.mem_map.mp hx
    exact hp p hmem

theorem ordersInv_step {a : Action} (hi : OrdersInv admitted s)
    (hreq : ∀ request, a = .call request → request.Ordered admitted) (h : step host s a = some t) :
    OrdersInv admitted t where
  frames := by
    intro call f hf
    rcases step_frames h hf with ⟨hf, -⟩ | hen
    · exact hi.frames call f hf
    · cases hen with
      | call request hn => exact start_ordered (hreq request rfl) hn
      | resume _ fresh hg hfol hu => exact follows_ordered hfol (hi.frames _ _ hg)
  events := by
    cases step_shape h with
    | tick ms ht => subst ht; exact hi.events
    | call request ht =>
        subst ht
        have hevents : ∀ x ∈ (s.perform s.calls (request.start host s)).events, Ordered admitted x.payload := by
          refine events_perform hi ?_
          rw [start_publishes]
          exact fun _ hp => by cases hp
        exact hevents
    | resume call fresh f e hf he ht =>
        subst ht
        exact events_perform hi (resume_ordered he (hi.frames call f hf))
    | reject call f e hf he ht =>
        subst ht
        refine events_perform hi ?_
        rw [reject_publishes he]
        exact fun _ hp => by cases hp

theorem ordersInv_cluster {c d : Cluster} {m : Move} (hi : OrdersInv admitted c.core)
    (hreq : ∀ request, m.action = .call request → request.Ordered admitted) (h : c.step host m = some d) :
    OrdersInv admitted d.core := by
  have hentered : OrdersInv admitted (c.enter m.node) := ⟨hi.frames, hi.events⟩
  exact ordersInv_step hentered hreq (Cluster.step_core h)

theorem request_ordered {a : Admission} {user : JwtPayload} {request : Request} (hu : a.user = some user)
    (hr : a.operation.request user = some request) : request.Ordered (admitted ++ [a]) := by
  have hasked : Asked (admitted ++ [a]) (some user.sub) a.operation :=
    ⟨a, List.mem_append_right _ (List.mem_singleton_self a), user, hu, rfl, rfl⟩
  cases ho : a.operation with
  | me | other => rw [ho] at hr; cases hr
  | list => rw [ho] at hr; cases hr; trivial
  | changeOwnPassword | create | update | resetPassword =>
      rw [ho] at hr hasked
      cases hr
      exact hasked

theorem ordersInv_gate {a : GateAction} (hi : OrdersInv g.admitted g.cluster.core)
    (hs : g.step host verifyAsync a = some h) : OrdersInv h.admitted h.cluster.core := by
  cases a with
  | service m =>
      simp only [Gate.step] at hs
      split at hs
      · cases hs
      · rename_i hopen
        obtain ⟨d, hd, rfl⟩ := Option.map_eq_some_iff.mp hs
        refine ordersInv_cluster hi (fun request hm => ?_) hd
        rw [hm] at hopen
        cases request with
        | register | login => trivial
        | getActiveUser | listUsers | createUser | updateUser | resetPassword | changeOwnPassword =>
            exact absurd rfl hopen
  | arrive node operation authorization =>
      simp only [Gate.step, Gate.arrive] at hs
      split at hs
      · cases hs
        exact hi.mono _
      · split at hs
        · cases hs
          exact hi
        · split at hs
          · cases hs
            exact hi
          · obtain ⟨d, hd, rfl⟩ := Option.map_eq_some_iff.mp hs
            refine ordersInv_cluster hi (fun request hm => ?_) hd
            cases hm
            trivial
  | decide call =>
      obtain ⟨entry, hentry, hs⟩ := Option.bind_eq_some_iff.mp hs
      obtain ⟨result, hresult, hs⟩ := Option.bind_eq_some_iff.mp hs
      split at hs
      · cases hs
        exact hi
      · split at hs
        · cases hs
          exact hi
        · rename_i user hauth
          simp only [Gate.enter] at hs
          split at hs
          · cases hs
            exact hi.mono _
          · rename_i request hr
            obtain ⟨d, hd, rfl⟩ := Option.map_eq_some_iff.mp hs
            refine ordersInv_cluster (hi.mono _) (fun request' hm => ?_) hd
            cases hm
            exact request_ordered rfl hr
      · cases hs

def adminActor : Payload → Option (Option String)
  | .userCreated _ _ _ (some actor) => some (some actor)
  | .userUpdated _ _ _ actor => some actor
  | .passwordChanged _ _ .admin actor => some actor
  | _ => none

def Tells : Payload → Operation → Prop
  | .userCreated _ email role _, operation => ∃ password, operation = .create email password role
  | .userUpdated id _ _ _, operation => ∃ change, operation = .update id change
  | .passwordChanged id _ _ _, operation => ∃ password, operation = .resetPassword id password
  | _, _ => False

theorem asked_of_adminActor {e : Payload} (ho : Ordered admitted e) (ha : adminActor e = some actor) :
    ∃ operation, Asked admitted actor operation ∧ Tells e operation ∧ operation.route.isPublic = false ∧
      ∀ role, operation.route.Allows role → role = .admin := by
  have hadmin : ∀ role, ({ handler := { requiredPermission := some .usersManage } } : Route).Allows role →
      role = .admin := by
    rintro role (h | ⟨required, hr, hp⟩)
    · cases h
    · cases hr
      exact admin_of_usersManage hp
  cases e with
  | userCreated id email role actor' =>
      cases actor' with
      | none => cases ha
      | some sub =>
          cases ha
          rcases ho with ho | ⟨password, ho⟩
          · cases ho
          · exact ⟨_, ho, ⟨password, rfl⟩, rfl, hadmin⟩
  | userUpdated =>
      cases ha
      obtain ⟨change, ho⟩ := ho
      exact ⟨_, ho, ⟨change, rfl⟩, rfl, hadmin⟩
  | passwordChanged id email by_ actor' =>
      cases by_ with
      | admin =>
          cases ha
          obtain ⟨password, ho⟩ := ho
          exact ⟨_, ho, ⟨password, rfl⟩, rfl, hadmin⟩
      | self => cases ha
  | _ => cases ha

def created : List GateAction :=
  creating ++ [.service ⟨0, .resume 1 "s"⟩, .service ⟨0, .resume 1 ""⟩, .service ⟨0, .resume 1 "id-b"⟩,
    .service ⟨0, .resume 1 ""⟩]

end EspClawPlatform.Identity
