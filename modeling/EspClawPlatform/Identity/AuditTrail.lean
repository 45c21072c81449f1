import EspClawPlatform.Identity.AccountEvents
import EspClawPlatform.Identity.Lockouts

namespace EspClawPlatform.Identity

open Run

variable {host : Host} {s t u : State} {past : List Payload}

/-- A call begins when no other is under way. -/
def InTurn (s : State) : Action → Prop
  | .call _ => s.frames.rows = []
  | _ => True

instance : ∀ s a, Decidable (InTurn s a)
  | s, .call _ => inferInstanceAs (Decidable (s.frames.rows = []))
  | _, .tick _ | _, .resume .. | _, .reject _ => inferInstanceAs (Decidable True)

def State.log (s : State) : List Payload := s.events.map (·.payload)

/-- The event that a call has still to publish for what it has written. -/
def Frame.owes : Frame → List Payload
  | .registerSaved user => [.userCreated user.id user.email user.role none]
  | .createSaved user actor => [.userCreated user.id user.email user.role actor]
  | .updateSaved user changes actor => if changes = {} then [] else [.userUpdated user.id user.email changes actor]
  | .applySaved user by_ actor => [.passwordChanged user.id user.email by_ actor]
  | _ => []

def Next.owes (next : Next) : List Payload := next.frame.elim [] Frame.owes

def Frame.holds : Frame → Option User
  | .updateSave user .. | .ownCompare user .. | .applyHash user .. | .applySave user .. => some user
  | _ => none

theorem follows_holds {f f' : Frame} {w : Option User} (h : Follows host s w f f')
    (hf : ∀ user, f.holds = some user → s.users.find user.id = some user) {user : User}
    (hu : f'.holds = some user) : w = none ∧ s.users.find user.id = some user := by
  cases h with
  | updateFind _ hrow | resetFind _ _ hrow | ownFind _ _ hrow => cases hu; exact ⟨rfl, hrow⟩
  | ownCompare | applyHash => cases hu; exact ⟨rfl, hf _ rfl⟩
  | _ => cases hu

theorem insert_new {id email passwordHash : String} {role : Role} {user : User}
    (h : insert s id email passwordHash role = some user) : user.disabled = false ∧ user.tokenVersion = 0 := by
  rw [insert] at h
  split at h
  · cases h
  · cases h
    exact ⟨rfl, rfl⟩

/-- A login publishes events that tell nothing of an account. -/
def ofLogin : Payload → Bool
  | .loginSucceeded .. | .loginLocked .. => true
  | _ => false

theorem reconstructs_login {users : Table User} {events : List Payload} (h : ∀ e ∈ events, ofLogin e = true)
    (hr : Reconstructs past users) : Reconstructs (past ++ events) users := by
  induction events generalizing past with
  | nil => rwa [List.append_nil]
  | cons e events ih =>
      have he := h e List.mem_cons_self
      rw [List.append_cons]
      apply ih fun x hx => h x (List.mem_cons_of_mem e hx)
      cases e with
      | loginSucceeded | loginLocked => exact hr.silent rfl rfl fun _ => rfl
      | _ => cases he

theorem loginCompared_publishes {email password address : String} {user : Option User} :
    (∀ e ∈ (loginCompared host s email password address user).publish, ofLogin e = true) ∧
      (loginCompared host s email password address user).next.owes = [] := by
  rw [loginCompared]
  split
  · refine ⟨fun e he => ?_, rfl⟩
    obtain ⟨scope, -, rfl⟩ := Option.map_eq_some_iff.mp (Option.mem_toList.mp he)
    rfl
  · refine ⟨fun e he => ?_, rfl⟩
    obtain rfl := List.mem_singleton.mp he
    rfl

theorem updateFound_publishes {id : String} {change : UserChange} {actor : Option String} :
    (updateFound s id change actor).publish = [] ∧ (updateFound s id change actor).next.owes = [] := by
  rw [updateFound]
  split
  · exact ⟨rfl, rfl⟩
  · split
    · exact ⟨rfl, rfl⟩
    · split
      · exact ⟨rfl, rfl⟩
      · exact ⟨rfl, rfl⟩

inductive Reports (s : State) (f : Frame) (e : Effect) : Prop
  | quiet (hw : e.write = none) (hp : e.publish ++ e.next.owes = f.owes)
  | login (hw : e.write = none) (ho : f.owes = []) (hp : ∀ x ∈ e.publish, ofLogin x = true) (hn : e.next.owes = [])
  | created {user : User} {actor : Option String} (ho : f.owes = []) (hw : e.write = some user)
      (hnew : s.users.find user.id = none) (hd : user.disabled = false) (hv : user.tokenVersion = 0)
      (hp : e.publish ++ e.next.owes = [.userCreated user.id user.email user.role actor])
  | changed {user : User} {change : UserChange} {at_ : Nat} {actor : Option String} (ho : f.owes = [])
      (hf : f.holds = some user)
      (hw : e.write = some (user.changed change at_))
      (hp : e.publish ++ e.next.owes = if user.changes change = {} then []
        else [.userUpdated user.id user.email (user.changes change) actor])
  | password {user : User} {passwordHash : String} {by_ : PasswordChangedBy} {actor : Option String}
      (ho : f.owes = []) (hf : f.holds = some user)
      (hw : e.write = some (user.withPassword passwordHash))
      (hp : e.publish ++ e.next.owes = [.passwordChanged user.id user.email by_ actor])

theorem resume_reports {f : Frame} {fresh : String} {e : Effect} (h : f.resume host s fresh = some e) :
    Reports s f e := by
  cases f with
  | registerSave email passwordHash =>
      obtain ⟨user, hu, rfl⟩ := Option.map_eq_some_iff.mp h
      exact .created rfl rfl (insert_find hu) (insert_new hu).1 (insert_new hu).2 rfl
  | createSave email passwordHash role actor =>
      obtain ⟨user, hu, rfl⟩ := Option.map_eq_some_iff.mp h
      exact .created rfl rfl (insert_find hu) (insert_new hu).1 (insert_new hu).2 rfl
  | updateSave user change at_ actor =>
      cases h
      exact .changed rfl rfl rfl rfl
  | applySave user passwordHash by_ actor =>
      cases h
      exact .password rfl rfl rfl rfl
  | loginCompare email password address user =>
      cases h
      exact .login loginCompared_quiet.1 rfl loginCompared_publishes.1 loginCompared_publishes.2
  | updateFind id change actor =>
      cases h
      exact .quiet updateFound_quiet.1 (by rw [updateFound_publishes.1, updateFound_publishes.2]; rfl)
  | registerLock | updateLock =>
      simp only [Frame.resume] at h
      split at h
      · cases h; exact .quiet rfl rfl
      · cases h
  | registerCount | createFind | ownCompare =>
      obtain rfl := Option.some.inj h
      split
      · exact .quiet rfl rfl
      · exact .quiet rfl rfl
  | resetFind id newPassword actor =>
      obtain rfl := Option.some.inj h
      cases s.users.find id with
      | none => exact .quiet rfl rfl
      | some user => exact .quiet rfl rfl
  | ownFind id current next =>
      obtain rfl := Option.some.inj h
      cases s.users.find id with
      | none => exact .quiet rfl rfl
      | some user => cases hd : user.disabled <;> simp only [hd] <;> exact .quiet rfl rfl
  | applySaved user by_ actor =>
      cases h
      cases by_ with
      | self => exact .quiet rfl rfl
      | admin => exact .quiet rfl rfl
  | updateSaved user changes actor =>
      cases h
      exact .quiet rfl (List.append_nil _)
  | registerHash | registerSaved | loginFind | activeFind | activeFound | list | createHash | createSaved
  | applyHash | sign =>
      cases h
      exact .quiet rfl rfl

theorem reconstructs_resume {f : Frame} {e : Effect} (h : Reports s f e)
    (hf : ∀ user, f.holds = some user → s.users.find user.id = some user)
    (hr : Reconstructs (past ++ f.owes) s.users) :
    Reconstructs (past ++ (e.publish ++ e.next.owes)) (e.write.elim s.users s.users.save) := by
  cases h with
  | quiet hw hp => rw [hw, hp]; exact hr
  | login hw ho hp hn =>
      rw [ho, List.append_nil] at hr
      rw [hw, hn, List.append_nil]
      exact reconstructs_login hp hr
  | @created user actor ho hw hnew hd hv hp =>
      rw [ho, List.append_nil] at hr
      rw [hw, hp]
      exact hr.created hnew hd hv actor
  | @changed user change at_ actor ho hholds hw hp =>
      rw [ho, List.append_nil] at hr
      rw [hw, hp]
      split
      · rename_i hc
        have hsame : user.changed change at_ = user := by rw [User.changed, hc]; rfl
        rw [hsame, List.append_nil, Option.elim_some, Table.save_of_mem (Table.mem_of_find (hf user hholds))]
        exact hr
      · rename_i hc
        exact hr.changed (hf user hholds) hc at_ actor
  | @password user passwordHash by_ actor ho hholds hw hp =>
      rw [ho, List.append_nil] at hr
      rw [hw, hp]
      exact hr.password (hf user hholds) passwordHash by_ actor

def Frame.rest : Frame → Nat
  | .registerSaved _ | .createSaved .. | .updateSaved .. | .applySaved .. | .sign _ => 0
  | _ => 1

theorem follows_rest {f f' : Frame} {w : Option User} (h : Follows host s w f f') :
    f'.rest + w.toList.length ≤ f.rest := by
  cases h with
  | loginCompare | updateSame => exact Nat.zero_le 1
  | _ => exact Nat.le_refl _

theorem resume_rest {f : Frame} {fresh : String} {e : Effect} (h : f.resume host s fresh = some e) :
    e.next.frame.elim 0 Frame.rest + e.write.toList.length ≤ f.rest := by
  cases hn : e.next.frame with
  | some f' => exact follows_rest (resume_follows h hn)
  | none =>
      cases hw : e.write with
      | none => exact Nat.zero_le _
      | some user =>
          obtain ⟨f', hf'⟩ := resume_writes h hw
          have hrest := follows_rest hf'
          rw [Option.toList_some, List.length_singleton] at hrest ⊢
          exact Nat.le_trans (Nat.add_le_add_right (Nat.zero_le _) 1) hrest

def tally (events : List Payload) : Nat := events.countP ofAccount

def due (o : Option (Nat × Frame)) : Nat := o.elim 0 fun x => tally x.2.owes + x.2.rest

theorem tally_reports {f : Frame} {e : Effect} (h : Reports s f e) :
    tally (e.publish ++ e.next.owes) ≤ tally f.owes + e.write.toList.length := by
  cases h with
  | quiet hw hp => rw [hp]; exact Nat.le_add_right _ _
  | login hw ho hp hn =>
      have hnone : tally (e.publish ++ e.next.owes) = 0 := by
        rw [hn, List.append_nil, tally, List.countP_eq_zero]
        intro x hx hof
        have hlogin := hp x hx
        cases x with
        | userCreated | userUpdated => cases hlogin
        | _ => cases hof
      rw [hnone]
      exact Nat.zero_le _
  | created ho hw _ _ _ hp => rw [ho, hw, hp]; exact Nat.le_refl _
  | changed ho _ hw hp =>
      rw [ho, hw, hp]
      split
      · exact Nat.zero_le _
      · exact Nat.le_refl _
  | password ho _ hw hp => rw [ho, hw, hp]; exact Nat.zero_le _

/-- At most one call is under way, which is `o`, and what is stored is what the events tell with those it owes. -/
structure Audited (s : State) (o : Option (Nat × Frame)) : Prop where
  frames : s.frames.rows = o.toList
  holds : ∀ x ∈ o, ∀ user, x.2.holds = some user → s.users.find user.id = some user
  tells : Reconstructs (s.log ++ o.elim [] fun x => x.2.owes) s.users

theorem audited_boot (tokens : List JwtPayload) : Audited (State.boot .empty tokens) none where
  frames := rfl
  holds := fun _ hx => by cases hx
  tells := reconstructs_nil

theorem frames_perform {o : Option (Nat × Frame)} (call : Nat) (e : Effect) (h : s.frames.rows = o.toList)
    (hcall : ∀ x ∈ o, x.1 = call) :
    (s.perform call e).frames.rows = (e.next.frame.map fun f => (call, f)).toList := by
  have hset (f : Frame) : (s.frames.set call f).rows = [(call, f)] := by
    cases o with
    | none => exact Table.save_of_empty h _
    | some x =>
        obtain rfl := hcall x rfl
        show Table.put s.frames.rows _ = _
        rw [h]
        simp [Table.put, Keyed.key]
  have herase : (s.frames.erase call).rows = [] := by
    show s.frames.rows.filter _ = []
    rw [h]
    cases o with
    | none => rfl
    | some x =>
        obtain rfl := hcall x rfl
        simp [Keyed.key]
  rw [State.perform]
  cases e.next with
  | await f => exact hset f
  | done => exact herase

theorem log_perform (s : State) (call : Nat) (e : Effect) : (s.perform call e).log = s.log ++ e.publish := by
  rw [State.log, State.perform, List.map_append, List.map_map]
  exact congrArg _ (List.map_id _)

theorem owed_next (call : Nat) (next : Next) :
    ((next.frame.map fun f => (call, f)).elim [] fun x => x.2.owes) = next.owes := by
  cases next <;> rfl

theorem due_next (call : Nat) (next : Next) :
    due (next.frame.map fun f => (call, f)) = tally next.owes + next.frame.elim 0 Frame.rest := by
  cases next <;> rfl

theorem owes_of_user {f : Frame} (h : f.user = none) : f.owes = [] ∧ f.holds = none := by
  cases f with
  | registerSaved | createSaved | updateSave | updateSaved | ownCompare | applyHash | applySave | applySaved | sign =>
      cases h
  | _ => exact ⟨rfl, rfl⟩

theorem reject_owes {f : Frame} {e : Effect} (h : f.reject = some e) : f.owes = [] := by
  cases f with
  | registerSaved | createSaved | updateSaved | applySaved => cases h
  | _ => rfl

def Action.begun : Action → Nat
  | .call _ => 1
  | _ => 0

theorem start_owes (request : Request) : (request.start host s).next.owes = [] := by
  rw [Next.owes]
  cases hn : (request.start host s).next.frame with
  | none => rfl
  | some f => exact (owes_of_user (start_enters request hn).2).1

theorem audited_call {request : Request} (hi : Audited s none)
    (ht : t = { s.perform s.calls (request.start host s) with calls := s.calls + 1 }) :
    ∃ o, Audited t o ∧ t.log = s.log ∧ due o ≤ 1 := by
  subst ht
  have hlog : (s.perform s.calls (request.start host s)).log = s.log := by
    rw [log_perform, start_publishes, List.append_nil]
  refine ⟨_, ⟨frames_perform _ _ hi.frames fun x hx => (by cases hx), fun x hx user hu => ?_, ?_⟩, hlog, ?_⟩
  · obtain ⟨f, hf, rfl⟩ := Option.map_eq_some_iff.mp hx
    cases (owes_of_user (start_enters request hf).2).2.symm.trans hu
  · show Reconstructs ((s.perform s.calls _).log ++ _) ((request.start host s).write.elim s.users s.users.save)
    rw [owed_next, start_owes, hlog, (start_quiet request).1]
    exact hi.tells
  · rw [due_next, start_owes]
    cases (request.start host s).next.frame with
    | none => exact Nat.zero_le _
    | some f => cases f <;> first | exact Nat.le_refl _ | exact Nat.zero_le _

theorem audited_resume {call : Nat} {fresh : String} {f : Frame} {e : Effect} (hi : Audited s (some (call, f)))
    (he : f.resume host s fresh = some e) :
    ∃ o, Audited (s.perform call e) o ∧ tally e.publish + due o ≤ due (some (call, f)) := by
  have hholds := hi.holds _ rfl
  refine ⟨_, ⟨frames_perform call e hi.frames fun x hx => by cases hx; rfl, fun x hx user hu => ?_, ?_⟩, ?_⟩
  · obtain ⟨f', hf', rfl⟩ := Option.map_eq_some_iff.mp hx
    obtain ⟨hw, hfind⟩ := follows_holds (resume_follows he hf') hholds hu
    rw [users_perform, hw]
    exact hfind
  · rw [owed_next, log_perform, List.append_assoc, users_perform]
    exact reconstructs_resume (resume_reports he) hholds hi.tells
  · have htally := tally_reports (resume_reports he)
    have hrest := resume_rest he
    rw [tally, List.countP_append] at htally
    rw [due_next]
    show _ ≤ tally f.owes + f.rest
    simp only [tally] at htally ⊢
    omega

theorem audited_reject {call : Nat} {f : Frame} {e : Effect} (hi : Audited s (some (call, f)))
    (he : f.reject = some e) : Audited (s.perform call e) none ∧ (s.perform call e).log = s.log := by
  obtain ⟨hw, -, hn⟩ := reject_quiet he
  have hlog : (s.perform call e).log = s.log := by rw [log_perform, reject_publishes he, List.append_nil]
  have hframes := frames_perform call e hi.frames fun x hx => by cases hx; rfl
  have htells := hi.tells
  rw [Option.elim_some, reject_owes he] at htells
  rw [hn] at hframes
  refine ⟨⟨hframes, fun x hx => (by cases hx), ?_⟩, hlog⟩
  rw [hlog, users_perform, hw]
  exact htells

theorem audited_step {o : Option (Nat × Frame)} {a : Action} (hi : Audited s o) (hC : InTurn s a)
    (h : step host s a = some t) :
    ∃ o' events, Audited t o' ∧ t.log = s.log ++ events ∧ tally events + due o' ≤ due o + a.begun := by
  have hrunning {call : Nat} {f : Frame} (hf : s.frames.get call = some f) : o = some (call, f) := by
    have hmem : (call, f) ∈ o.toList := hi.frames ▸ Table.get_eq_some.mp hf
    exact Option.mem_toList.mp hmem
  cases step_shape h with
  | tick ms ht =>
      subst ht
      exact ⟨o, [], ⟨hi.frames, hi.holds, hi.tells⟩, (List.append_nil _).symm, Nat.le_of_eq (Nat.zero_add _)⟩
  | call request ht =>
      obtain rfl : o = none := Option.toList_eq_nil_iff.mp (hi.frames.symm.trans hC)
      obtain ⟨o', ha, hlog, hdue⟩ := audited_call hi ht
      exact ⟨o', [], ha, by rw [hlog, List.append_nil], by simpa [tally, due, Action.begun] using hdue⟩
  | resume call fresh f e hf he ht =>
      subst ht
      obtain rfl := hrunning hf
      obtain ⟨o', ha, hdue⟩ := audited_resume hi he
      exact ⟨o', e.publish, ha, log_perform s call e, hdue⟩
  | reject call f e hf he ht =>
      subst ht
      obtain rfl := hrunning hf
      obtain ⟨ha, hlog⟩ := audited_reject hi he
      exact ⟨none, [], ha, by rw [hlog, List.append_nil], Nat.zero_le _⟩

theorem audited_run {tokens : List JwtPayload} {as : List Action}
    (h : run (step host) (State.boot .empty tokens) as = some s)
    (hC : Along (step host) InTurn (State.boot .empty tokens) as) : ∃ o, Audited s o := by
  refine invariant_along (P := fun s => ∃ o, Audited s o) ?_ h hC ⟨none, audited_boot tokens⟩
  rintro s a t ⟨o, hi⟩ hC hs
  obtain ⟨o', -, ht, -⟩ := audited_step hi hC hs
  exact ⟨o', ht⟩

theorem audited_idle {o : Option (Nat × Frame)} (hi : Audited s o) (hidle : s.frames.rows = []) : o = none :=
  Option.toList_eq_nil_iff.mp (hi.frames.symm.trans hidle)

theorem tells_idle {o : Option (Nat × Frame)} (hi : Audited s o) (hidle : s.frames.rows = []) :
    Reconstructs s.log s.users := by
  have htells := hi.tells
  rw [audited_idle hi hidle, Option.elim_none, List.append_nil] at htells
  exact htells

theorem audited_operation {request : Request} {rest : List Action} (hi : Audited s none)
    (hidle : s.frames.rows = []) (h : run (step host) s (.call request :: rest) = some t)
    (hrest : ∀ r, Action.call r ∉ rest) :
    ∃ o events, Audited t o ∧ t.log = s.log ++ events ∧ tally events ≤ 1 := by
  obtain ⟨v, hv, hrun⟩ := run_cons.mp h
  obtain ⟨o, begun, hov, hlog, hdue⟩ := audited_step hi (show InTurn s (.call request) from hidle) hv
  suffices hall : ∃ o' events, Audited t o' ∧ t.log = s.log ++ events ∧ tally events + due o' ≤ 1 by
    obtain ⟨o', events, ho', hlog, hdue⟩ := hall
    exact ⟨o', events, ho', hlog, Nat.le_trans (Nat.le_add_right _ _) hdue⟩
  refine invariant_along
    (P := fun t => ∃ o' events, Audited t o' ∧ t.log = s.log ++ events ∧ tally events + due o' ≤ 1)
    (C := fun _ a => a.begun = 0) ?_ hrun (along_of_mem (fun a ha _ => ?_) v) ⟨o, begun, hov, hlog, hdue⟩
  · rintro w a w' ⟨o', events, ho', hlog, hdue⟩ ha hs
    have hturn : InTurn w a := by
      cases a with
      | call => cases ha
      | _ => trivial
    obtain ⟨o'', later, ho'', hlater, hdue'⟩ := audited_step ho' hturn hs
    refine ⟨o'', events ++ later, ho'', by rw [hlater, hlog, List.append_assoc], ?_⟩
    rw [ha] at hdue'
    rw [tally, List.countP_append]
    simp only [tally] at hdue hdue'
    omega
  · cases a with
    | call r => exact absurd ha (hrest r)
    | _ => rfl

theorem foldl_of_tally {events : List Payload} (h : tally events = 0) (accounts : Accounts) :
    events.foldl record accounts = accounts := by
  have hnone : events.filter ofAccount = [] := by
    rw [List.filter_eq_nil_iff]
    exact List.countP_eq_zero.mp h
  have hquiet (e : Payload) (he : ofAccount e = false) (accounts : Accounts) : record accounts e = accounts := by
    cases e with
    | userCreated | userUpdated => cases he
    | _ => rfl
  rw [← Journal.foldl_filter hquiet, hnone]
  rfl

theorem recorded_append (log events : List Payload) : recorded (log ++ events) = events.foldl record (recorded log) :=
  List.foldl_append

theorem tells_iff {users users' : Table User} {events : List Payload} (hs : Reconstructs past users)
    (ht : Reconstructs (past ++ events) users') (hone : tally events ≤ 1) :
    (∃ e ∈ events, ofAccount e = true) ↔
      ∃ id, (users'.find id).map User.account ≠ (users.find id).map User.account := by
  have hchange : (∃ id, (users'.find id).map User.account ≠ (users.find id).map User.account) ↔
      recorded (past ++ events) ≠ recorded past := by
    rw [Function.ne_iff]
    exact exists_congr fun id => by rw [hs.accounts, ht.accounts]
  rw [hchange]
  constructor
  · rintro ⟨e, he, hof⟩
    obtain ⟨before, after, rfl⟩ := List.append_of_mem he
    have hnone : tally before = 0 ∧ tally after = 0 := by
      simp only [tally, List.countP_append, List.countP_cons_of_pos hof] at hone ⊢
      omega
    have hne := ht.changes (past ++ before) e after (List.append_assoc ..).symm hof
    rw [recorded_append, List.foldl_append, List.foldl_cons, foldl_of_tally hnone.1, foldl_of_tally hnone.2]
    rw [List.foldl_append, foldl_of_tally hnone.1] at hne
    exact hne
  · intro hne
    by_contra hno
    apply hne
    rw [recorded_append]
    apply foldl_of_tally
    rw [tally, List.countP_eq_zero]
    exact fun e he hof => hno ⟨e, he, hof⟩

/-- Where calls do not overlap, the security events reconstruct the accounts
whenever no call is under way: they add up to the stored accounts, every role
change starts from the role the account has, the token version counts the
disablings and the password changes, and a call publishes an event of an
account exactly when it has changed one. -/
theorem events_reconstruct_accounts {tokens : List JwtPayload} {as : List Action}
    (h : run (step host) (State.boot .empty tokens) as = some s)
    (hC : Along (step host) InTurn (State.boot .empty tokens) as) (hidle : s.frames.rows = []) :
    (∀ id, recorded s.log id = (s.users.find id).map User.account) ∧
      Journal.Each record StartsFromRole (fun _ => none) s.log ∧
      (∀ user ∈ s.users.rows, user.tokenVersion = disablings user.id s.log + passwordChanges user.id s.log) ∧
      ∀ request rest t, run (step host) s (.call request :: rest) = some t → (∀ r, Action.call r ∉ rest) →
        t.frames.rows = [] → ((∃ e ∈ t.log.drop s.log.length, ofAccount e = true) ↔
          ∃ id, (t.users.find id).map User.account ≠ (s.users.find id).map User.account) := by
  obtain ⟨o, hi⟩ := audited_run h hC
  obtain rfl := audited_idle hi hidle
  have hs := tells_idle hi hidle
  refine ⟨hs.accounts, hs.starts, fun user huser => ?_, fun request rest t ht hrest hended => ?_⟩
  · rw [← hs.versions, versionOf_of_find (Table.find_of_mem huser)]
  · obtain ⟨o', events, ho', hlog, hone⟩ := audited_operation hi hidle ht hrest
    have hts := tells_idle ho' hended
    rw [hlog] at hts ⊢
    rw [List.drop_left]
    exact tells_iff hs hts hone

def disableTwice : List Action :=
  [.call (.register "a@x" "pw-a" none), .resume 0 "s0", .resume 0 "", .resume 0 "", .resume 0 "id-a", .resume 0 "",
    .resume 0 "",
    .call (.createUser "b@x" "pw-b" .viewer none), .resume 1 "s1", .resume 1 "", .resume 1 "id-b", .resume 1 "",
    .call (.updateUser "id-b" { disabled := some true } none), .resume 2 "", .resume 2 "", .resume 2 "", .resume 2 "",
    .call (.updateUser "id-b" { disabled := some true } none), .resume 3 "", .resume 3 "", .resume 3 ""]

theorem disabled_account_is_recorded : ∃ s, run (step plainHost) (State.boot .empty []) disableTwice = some s ∧
    s.frames.rows = [] ∧ recorded s.log "id-b" = (s.users.find "id-b").map User.account :=
  ⟨_, rfl, rfl, (@events_reconstruct_accounts plainHost _ [] disableTwice rfl (by decide +kernel) rfl).1 "id-b"⟩

end EspClawPlatform.Identity
