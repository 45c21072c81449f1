import EspClawPlatform.Identity.Steps

namespace EspClawPlatform.Identity

open Run

variable {host : Host} {s t : State} {c : Nat} {email : String}

/-- Accounts are created by an admin, who has an account. -/
def CreatedByAdmin (s : State) : Action → Prop
  | .call (.createUser ..) => s.users.rows ≠ []
  | _ => True

instance : ∀ s a, Decidable (CreatedByAdmin s a)
  | s, .call (.createUser ..) => inferInstanceAs (Decidable (s.users.rows ≠ []))
  | _, .call (.register ..) | _, .call (.login ..) | _, .call (.getActiveUser ..) | _, .call .listUsers
  | _, .call (.updateUser ..) | _, .call (.resetPassword ..) | _, .call (.changeOwnPassword ..)
  | _, .tick _ | _, .resume .. | _, .reject _ => inferInstanceAs (Decidable True)

def Frame.creating : Frame → Bool
  | .createHash .. | .createFind .. | .createSave .. => true
  | _ => false

def Frame.knowing (f : Frame) : Bool := f.creating || f.user.isSome

def Frame.registering : Frame → Option String
  | .registerHash email _ | .registerLock email _ | .registerCount email _ | .registerSave email _ =>
      some email
  | _ => none

/-- While a registration is about to save its row the table is empty, and no
other call knows of an account until there is one. -/
structure BootstrapInv (s : State) : Prop where
  lock : LockHeld s
  numbered : Numbered s
  saving : ∀ c email passwordHash, s.frames.get c = some (.registerSave email passwordHash) →
    s.users.rows = []
  knowing : ∀ c f, s.frames.get c = some f → f.knowing = true → s.users.rows ≠ []

theorem save_ne_nil (users : Table User) (u : User) : (users.save u).rows ≠ [] := by
  intro h
  have hu : u ∈ (users.save u).rows := Table.mem_save.mpr (.inl rfl)
  rw [h] at hu
  cases hu

theorem users_kept {a : Action} (h : step host s a = some t) (hne : s.users.rows ≠ []) :
    t.users.rows ≠ [] := by
  rcases step_users h with hu | ⟨call, fresh, f, f', u, -, -, -, hu⟩
  · rwa [hu]
  · rw [hu]
    exact save_ne_nil s.users u

theorem ne_nil_of_find {users : Table User} {id : String} {u : User} (h : users.find id = some u) :
    users.rows ≠ [] := by
  intro hnil
  have hu := Table.mem_of_find h
  rw [hnil] at hu
  cases hu

theorem follows_creating {f f' : Frame} {w : Option User} (h : Follows host s w f f')
    (hc : f'.creating = true) :
    f.creating = true := by
  cases h with
  | createHash | createFind => rfl
  | _ => cases hc

theorem follows_knowing {f f' : Frame} {w : Option User} (h : Follows host s w f f')
    (hk : f'.knowing = true) :
    f.knowing = true ∨ s.users.rows ≠ [] ∨ w.isSome = true := by
  rcases Bool.or_eq_true_iff.mp hk with hc | hu
  · exact .inl (Bool.or_eq_true_iff.mpr (.inl (follows_creating h hc)))
  · obtain ⟨u, hu⟩ := Option.isSome_iff_exists.mp hu
    rcases follows_user h hu with hf | ⟨-, hfind⟩ | hw
    · exact .inl (Bool.or_eq_true_iff.mpr (.inr (Option.isSome_iff_exists.mpr ⟨u, hf⟩)))
    · exact .inr (.inl (ne_nil_of_find hfind))
    · exact .inr (.inr (Option.isSome_iff_exists.mpr ⟨u, hw⟩))

theorem follows_write_knowing {f f' : Frame} {u : User} (h : Follows host s (some u) f f') :
    f.knowing = true ∨ ∃ email passwordHash, f = .registerSave email passwordHash := by
  cases h with
  | registerSave => exact .inr ⟨_, _, rfl⟩
  | createSave | updateSave | applySave => exact .inl rfl

theorem start_creating {request : Request} {f : Frame} (h : (request.start host s).next.frame = some f)
    (hc : f.creating = true) : ∃ email password role actor,
      request = .createUser email password role actor := by
  cases request with
  | createUser email password role actor => exact ⟨email, password, role, actor, rfl⟩
  | register | login =>
      simp only [Request.start] at h
      split at h <;> cases h
      cases hc
  | getActiveUser =>
      simp only [Request.start] at h
      split at h
      · split at h <;> cases h
        cases hc
      · cases h
        cases hc
  | listUsers | updateUser | resetPassword | changeOwnPassword =>
      cases h
      cases hc

theorem bootstrapInv_boot (users : Table User) (tokens : List JwtPayload) :
    BootstrapInv (State.boot users tokens) where
  lock := lockHeld_boot users tokens
  numbered := numbered_boot users tokens
  saving := fun _ _ _ hf => by cases hf
  knowing := fun _ _ hf => by cases hf

theorem bootstrapInv_step {a : Action} (hi : BootstrapInv s) (hC : CreatedByAdmin s a)
    (h : step host s a = some t) :
    BootstrapInv t where
  lock := lockHeld_step hi.lock h
  numbered := numbered_step hi.numbered h
  saving := by
    intro c email passwordHash hf
    rcases step_frames h hf with ⟨hf, hstay⟩ | hen
    · have hempty := hi.saving c email passwordHash hf
      rcases step_users h with hu | ⟨call, fresh, f, f', u, rfl, hg, hfol, -⟩
      · rw [hu]
        exact hempty
      · exfalso
        rcases follows_write_knowing hfol with hk | ⟨email', passwordHash', rfl⟩
        · exact hi.knowing call f hg hk hempty
        -- both calls would hold the lock
        · have hc := hi.lock c _ hf rfl
          have hcall := hi.lock call _ hg rfl
          cases hc.symm.trans hcall
          exact hstay fresh rfl
    · cases hen with
      | call request hn => cases (start_enters request hn).1
      | resume _ fresh hg hfol hu =>
          cases hfol with
          | registerCount _ _ hsize =>
              rw [hu]
              exact List.length_eq_zero_iff.mp (Nat.le_zero.mp (not_lt.mp hsize))
  knowing := by
    intro c f hf hk
    rcases step_frames h hf with ⟨hf, -⟩ | hen
    · exact users_kept h (hi.knowing c f hf hk)
    · cases hen with
      | call request hn =>
          rcases Bool.or_eq_true_iff.mp hk with hc | hu
          · obtain ⟨email, password, role, actor, rfl⟩ := start_creating hn hc
            exact users_kept h hC
          · rw [(start_enters request hn).2] at hu
            cases hu
      | @resume _ fresh g _ w hg hfol hu =>
          rcases follows_knowing hfol hk with hk | hne | hw
          · exact users_kept h (hi.knowing c g hg hk)
          · exact users_kept h hne
          · obtain ⟨u, rfl⟩ := Option.isSome_iff_exists.mp hw
            rw [hu]
            exact save_ne_nil s.users u

def Registered (s : State) (c : Nat) : Prop :=
  (∃ u, s.frames.get c = some (.registerSaved u)) ∨ (∃ u, s.frames.get c = some (.sign u)) ∨
    ∃ reply, s.results.get c = some (.ok reply)

def Makes (c : Nat) (request : Request) (s : State) : Action → Prop
  | .call r => s.calls = c → r = request
  | _ => True

instance (c : Nat) (request : Request) : ∀ s a, Decidable (Makes c request s a)
  | s, .call r => inferInstanceAs (Decidable (s.calls = c → r = request))
  | _, .tick _ | _, .resume .. | _, .reject _ => inferInstanceAs (Decidable True)

def Action.isOf (c : Nat) (s : State) : Action → Prop
  | .call _ => s.calls = c
  | .resume n _ => n = c
  | .reject n => n = c
  | .tick _ => False

def Frame.ofRegistration (email : String) (f : Frame) : Prop :=
  f.registering = some email ∨ (∃ u, f = .registerSaved u) ∨ ∃ u, f = .sign u

structure Registration (host : Host) (email : String) (bootstrapToken : Option String) (c : Nat) (s : State) :
    Prop where
  frame : ∀ f, s.frames.get c = some f → f.ofRegistration email ∧
    assertBootstrapToken host bootstrapToken = true
  registered : Registered s c → s.users.rows ≠ [] ∧ assertBootstrapToken host bootstrapToken = true

theorem registering_resume {f : Frame} {fresh : String} {e : Effect}
    (hf : f.registering = some email) (h : f.resume host s fresh = some e) :
    (e.write = none ∧ e.publish = [] ∧ (∀ reply, e.next ≠ .done (.ok reply)) ∧
      ∀ f', e.next.frame = some f' → f'.registering = some email) ∨
      ∃ passwordHash row, insert s fresh email passwordHash .admin = some row ∧
        f = .registerSave email passwordHash ∧
        e.write = some row ∧ e.publish = [] ∧ e.next = .await (.registerSaved row) := by
  cases f with
  | registerHash =>
      cases hf
      cases h
      refine .inl ⟨rfl, rfl, fun _ hn => ?_, ?_⟩
      · cases hn
      · rintro _ ⟨⟩
        rfl
  | registerLock =>
      cases hf
      simp only [Frame.resume] at h
      split at h
      · cases h
        refine .inl ⟨rfl, rfl, fun _ hn => ?_, ?_⟩
        · cases hn
        · rintro _ ⟨⟩
          rfl
      · cases h
  | registerCount =>
      cases hf
      obtain rfl := Option.some.inj h
      left
      split
      · refine ⟨rfl, rfl, fun _ hn => ?_, ?_⟩
        · cases hn
        · rintro _ ⟨⟩
      · refine ⟨rfl, rfl, fun _ hn => ?_, ?_⟩
        · cases hn
        · rintro _ ⟨⟩
          rfl
  | registerSave =>
      cases hf
      obtain ⟨row, hrow, rfl⟩ := Option.map_eq_some_iff.mp h
      exact .inr ⟨_, row, hrow, rfl, rfl, rfl, rfl⟩
  | _ => cases hf

theorem insert_admin {fresh passwordHash : String} {row : User}
    (h : insert s fresh email passwordHash .admin = some row) : row.isActiveAdmin = true ∧
      row.email = email := by
  rw [insert] at h
  split at h
  · cases h
  · cases h
    exact ⟨rfl, rfl⟩

theorem follows_ofRegistration {f f' : Frame} {w : Option User} (h : Follows host s w f f')
    (hf : f.ofRegistration email) : f'.ofRegistration email := by
  rcases hf with hf | ⟨u, rfl⟩ | ⟨u, rfl⟩
  · cases h with
    | registerHash | registerLock | registerCount => exact .inl hf
    | registerSave => exact .inr (.inl ⟨_, rfl⟩)
    | _ => cases hf
  · cases h
    exact .inr (.inr ⟨u, rfl⟩)
  · cases h

theorem start_register {password : String} {bootstrapToken : Option String} :
    (∃ error, ((Request.register email password bootstrapToken).start host s).next = .done (.error error)) ∨
      ((Request.register email password bootstrapToken).start host s).next = .await
      (.registerHash email password) ∧
        assertBootstrapToken host bootstrapToken = true := by
  rw [Request.start]
  split
  · rename_i hallowed
    exact .inr ⟨rfl, hallowed⟩
  · exact .inl ⟨_, rfl⟩

theorem start_register_silent {password : String} {bootstrapToken : Option String} :
    ((Request.register email password bootstrapToken).start host s).publish = [] := by
  rw [Request.start]
  split <;> rfl

theorem perform_users_of_quiet (call : Nat) {e : Effect} (hw : e.write = none) :
    (s.perform call e).users = s.users := by
  rw [users_perform, hw]
  rfl

theorem perform_events_of_quiet (call : Nat) {e : Effect} (hp : e.publish = []) :
    (s.perform call e).events = s.events := by
  rw [State.perform, hp, List.map_nil, List.append_nil]

variable (email) in
theorem unregistered_perform {e : Effect} (hf : ∀ f, e.next.frame = some f → f.registering = some email)
    (hr : ∀ reply, e.next ≠ .done (.ok reply)) (hn : ¬ Registered s c) : ¬ Registered (s.perform c e) c := by
  rintro (⟨u, hu⟩ | ⟨u, hu⟩ | ⟨reply, hreply⟩)
  · rw [get_perform, if_pos rfl] at hu
    cases hf _ hu
  · rw [get_perform, if_pos rfl] at hu
    cases hf _ hu
  · rcases results_perform s c e hreply with hreply | ⟨-, hdone⟩
    · exact hn (.inr (.inr ⟨reply, hreply⟩))
    · exact hr reply hdone

theorem other_untouched {a : Action} (h : step host s a = some t) (ha : ¬ a.isOf c s) :
    t.frames.get c = s.frames.get c ∧ t.results.get c = s.results.get c := by
  have hperform {call : Nat} {e : Effect} (hne : c ≠ call) :
      (s.perform call e).frames.get c = s.frames.get c ∧
      (s.perform call e).results.get c = s.results.get c := by
    refine ⟨(get_perform s call e c).trans (if_neg hne), ?_⟩
    rw [State.perform]
    cases e.next with
    | await frame => rfl
    | done result => exact Table.get_set_of_ne s.results result hne
  cases step_shape h with
  | tick ms ht => subst ht; exact ⟨rfl, rfl⟩
  | call request ht => subst ht; exact hperform fun hc => ha hc.symm
  | resume call fresh f e hf he ht => subst ht; exact hperform fun hc => ha hc.symm
  | reject call f e hf he ht => subst ht; exact hperform fun hc => ha hc.symm

section Registration

variable {password : String} {bootstrapToken : Option String} {a : Action}

theorem registered_kept (hi : Numbered s) (h : step host s a = some t) (hr : Registered s c) :
    Registered t c := by
  by_cases ha : a.isOf c s
  · cases step_shape h with
    | tick => cases ha
    | call request ht =>
        obtain rfl : s.calls = c := ha
        rcases hr with ⟨u, hu⟩ | ⟨u, hu⟩ | ⟨reply, hr⟩
        · exact absurd (hi.frames _ _ hu) (Nat.lt_irrefl _)
        · exact absurd (hi.frames _ _ hu) (Nat.lt_irrefl _)
        · exact absurd (hi.results _ _ hr).1 (Nat.lt_irrefl _)
    | resume n fresh f e hf he ht =>
        obtain rfl : n = c := ha
        subst ht
        rcases hr with ⟨u, hu⟩ | ⟨u, hu⟩ | ⟨reply, hr⟩
        · cases hf.symm.trans hu
          cases he
          exact .inr (.inl ⟨u, Table.get_set_self _ _ _⟩)
        · cases hf.symm.trans hu
          cases he
          exact .inr (.inr ⟨_, Table.get_set_self _ _ _⟩)
        · cases (hi.results n _ hr).2.symm.trans hf
    | reject n f e hf he ht =>
        obtain rfl : n = c := ha
        rcases hr with ⟨u, hu⟩ | ⟨u, hu⟩ | ⟨reply, hr⟩
        · cases hf.symm.trans hu
          cases he
        · cases hf.symm.trans hu
          cases he
        · cases (hi.results n _ hr).2.symm.trans hf
  · obtain ⟨hframes, hresults⟩ := other_untouched h ha
    rwa [Registered, hframes, hresults]

theorem registers_row (hi : BootstrapInv s) (hc : Registration host email bootstrapToken c s)
    (hm : Makes c (.register email password bootstrapToken) s a) (h : step host s a = some t)
    (hn : ¬ Registered s c) (hr : Registered t c) :
    ∃ fresh row, a = .resume c fresh ∧ s.users.rows = [] ∧ t.users.rows = [row] ∧
      row.isActiveAdmin = true ∧ row.email = email := by
  by_cases ha : a.isOf c s
  · cases step_shape h with
    | tick => cases ha
    | call request ht =>
        exfalso
        obtain rfl := hm ha
        obtain rfl : s.calls = c := ha
        subst ht
        refine unregistered_perform email ?_ ?_ hn hr
        · intro f hf
          rcases start_register with ⟨error, hnext⟩ | ⟨hnext, -⟩
          · rw [hnext] at hf
            cases hf
          · rw [hnext] at hf
            cases hf
            rfl
        · intro reply hdone
          rcases start_register with ⟨error, hnext⟩ | ⟨hnext, -⟩
          · cases hnext.symm.trans hdone
          · cases hnext.symm.trans hdone
    | resume n fresh f e hf he ht =>
        obtain rfl : n = c := ha
        subst ht
        obtain ⟨hreg | ⟨u, rfl⟩ | ⟨u, rfl⟩, -⟩ := hc.frame f hf
        · rcases registering_resume hreg he with ⟨-, -, hdone, hnext⟩ | ⟨passwordHash, row, hrow,
            rfl, hw, -, -⟩
          · exact absurd hr (unregistered_perform email hnext hdone hn)
          · have hempty := hi.saving n email passwordHash hf
            refine ⟨fresh, row, rfl, hempty, ?_, insert_admin hrow⟩
            rw [users_perform, hw]
            exact Table.save_of_empty hempty row
        · exact absurd (.inl ⟨u, hf⟩) hn
        · exact absurd (.inr (.inl ⟨u, hf⟩)) hn
    | reject n f e hf he ht =>
        obtain rfl : n = c := ha
        subst ht
        refine absurd hr (unregistered_perform email ?_ ?_ hn)
        · intro f' hf'
          rw [(reject_quiet he).2.2] at hf'
          cases hf'
        · intro reply hdone
          cases f <;> cases he <;> cases hdone
  · obtain ⟨hframes, hresults⟩ := other_untouched h ha
    rw [Registered, hframes, hresults] at hr
    exact absurd hr hn

theorem registration_step (hi : BootstrapInv s) (hc : Registration host email bootstrapToken c s)
    (hm : Makes c (.register email password bootstrapToken) s a) (h : step host s a = some t) :
    Registration host email bootstrapToken c t where
  frame := by
    intro f hf
    rcases step_frames h hf with ⟨hf, -⟩ | hen
    · exact hc.frame f hf
    · cases hen with
      | call request hn =>
          obtain rfl := hm rfl
          rcases start_register with ⟨error, hnext⟩ | ⟨hnext, hallowed⟩
          · rw [hnext] at hn
            cases hn
          · rw [hnext] at hn
            cases hn
            exact ⟨.inl rfl, hallowed⟩
      | resume _ fresh hg hfol =>
          obtain ⟨hof, hallowed⟩ := hc.frame _ hg
          exact ⟨follows_ofRegistration hfol hof, hallowed⟩
  registered := by
    intro hr
    by_cases hs : Registered s c
    · obtain ⟨hne, hallowed⟩ := hc.registered hs
      exact ⟨users_kept h hne, hallowed⟩
    · obtain ⟨fresh, row, rfl, -, hrow, -⟩ := registers_row hi hc hm h hs hr
      refine ⟨?_, ?_⟩
      · rw [hrow]
        exact List.cons_ne_nil row []
      · obtain ⟨f, hf, -⟩ := Option.bind_eq_some_iff.mp h
        exact (hc.frame f hf).2

theorem quiet_of_unregistered (hc : Registration host email bootstrapToken c s)
    (hm : Makes c (.register email password bootstrapToken) s a) (h : step host s a = some t)
    (ha : a.isOf c s) (hn : ¬ Registered t c) : t.users = s.users ∧ t.events = s.events := by
  cases step_shape h with
  | tick => cases ha
  | call request ht =>
      obtain rfl := hm ha
      subst ht
      exact ⟨perform_users_of_quiet s.calls (start_quiet _).1,
        perform_events_of_quiet s.calls start_register_silent⟩
  | resume n fresh f e hf he ht =>
      obtain rfl : n = c := ha
      subst ht
      obtain ⟨hreg | ⟨u, rfl⟩ | ⟨u, rfl⟩, -⟩ := hc.frame f hf
      · rcases registering_resume hreg he with ⟨hw, hp, -⟩ | ⟨passwordHash, row, -, -, -, -, hnext⟩
        · exact ⟨perform_users_of_quiet n hw, perform_events_of_quiet n hp⟩
        · refine absurd (.inl ⟨row, ?_⟩) hn
          rw [get_perform, if_pos rfl, hnext]
          rfl
      · cases he
        exact absurd (.inr (.inl ⟨u, Table.get_set_self _ _ _⟩)) hn
      · cases he
        exact absurd (.inr (.inr ⟨_, Table.get_set_self _ _ _⟩)) hn
  | reject n f e hf he ht =>
      subst ht
      refine ⟨perform_users_of_quiet n (reject_quiet he).1, perform_events_of_quiet n ?_⟩
      cases f <;> cases he <;> rfl

variable (host c email bootstrapToken) in
theorem registration_boot (users : Table User) (tokens : List JwtPayload) :
    Registration host email bootstrapToken c (.boot users tokens) where
  frame := fun _ hf => by cases hf
  registered := fun hr => by rcases hr with ⟨_, hf⟩ | ⟨_, hf⟩ | ⟨_, hr⟩ <;> contradiction

theorem bootstrap_run {as : List Action} (hi : BootstrapInv s)
    (hc : Registration host email bootstrapToken c s) (h : run (step host) s as = some t)
    (hC : Along (step host) CreatedByAdmin s as)
    (hm : Along (step host) (Makes c (.register email password bootstrapToken)) s as) :
    BootstrapInv t ∧ Registration host email bootstrapToken c t := by
  refine invariant_along (P := fun s => BootstrapInv s ∧ Registration host email bootstrapToken c s) ?_ h
    (along_and.mpr ⟨hC, hm⟩) ⟨hi, hc⟩
  rintro s a t ⟨hi, hc⟩ ⟨hC, hm⟩ hs
  exact ⟨bootstrapInv_step hi hC hs, registration_step hi hc hm hs⟩

end Registration

theorem presented_eq {bootstrapToken : Option String} {configured : String}
    (h : assertBootstrapToken host bootstrapToken = true) (hconf : host.bootstrapToken = some configured)
    (hne : configured ≠ "") (hsha : ∀ text, host.sha256 text = host.sha256 configured → text = configured) :
    bootstrapToken = some configured := by
  rw [assertBootstrapToken, hconf] at h
  cases bootstrapToken with
  | none => simp [hne] at h
  | some text =>
      have hdigest : text ≠ "" ∧ host.sha256 text = host.sha256 configured := by simpa [hne] using h
      rw [hsha text hdigest.2]

def IsRegistration (host : Host) (users : Table User) (tokens : List JwtPayload) (as : List Action) (c : Nat)
    (email : String) (bootstrapToken : Option String) : Prop :=
  ∃ password, Along (step host) (Makes c (.register email password bootstrapToken)) (.boot users tokens) as

section Run

variable {users : Table User} {tokens : List JwtPayload} {as : List Action} {bootstrapToken : Option String}

theorem first_row_of_ok {reply : Reply} (h : run (step host) (.boot users tokens) as = some s)
    (hC : Along (step host) CreatedByAdmin (.boot users tokens) as)
    (hc : IsRegistration host users tokens as c email bootstrapToken)
    (hr : s.results.get c = some (.ok reply)) :
    assertBootstrapToken host bootstrapToken = true ∧ ∃ before fresh after u v row,
      as = before ++ .resume c fresh :: after ∧ run (step host) (.boot users tokens) before = some u ∧
        step host u (.resume c fresh) = some v ∧ u.users.rows = [] ∧ v.users.rows = [row] ∧
          row.isActiveAdmin = true ∧ row.email = email := by
  obtain ⟨password, hm⟩ := hc
  have hboot := bootstrapInv_boot users tokens
  have hc := registration_boot host c email bootstrapToken users tokens
  have hregistered : Registered s c := .inr (.inr ⟨reply, hr⟩)
  refine ⟨((bootstrap_run hboot hc h hC hm).2.registered hregistered).2, ?_⟩
  have hn : ¬ Registered (State.boot users tokens) c := by
    rintro (⟨_, hf⟩ | ⟨_, hf⟩ | ⟨_, hr⟩) <;> contradiction
  obtain ⟨before, a, after, u, v, rfl, hu, hv, -, hnu, hpv⟩ :=
    exists_step_of_change (P := (Registered · c)) h hn hregistered
  obtain ⟨hCbefore, hCafter⟩ := (along_append hu).mp hC
  obtain ⟨hmbefore, hmafter⟩ := (along_append hu).mp hm
  obtain ⟨hi, hcu⟩ := bootstrap_run hboot hc hu hCbefore hmbefore
  obtain ⟨fresh, row, rfl, hrow⟩ := registers_row hi hcu hmafter.1 hv hnu hpv
  exact ⟨before, fresh, after, u, v, row, rfl, hu, hv, hrow⟩

theorem quiet_of_error {error : ApiError} (h : run (step host) (.boot users tokens) as = some s)
    (hC : Along (step host) CreatedByAdmin (.boot users tokens) as)
    (hc : IsRegistration host users tokens as c email bootstrapToken)
    (hr : s.results.get c = some (.error error)) {before after : List Action} {a : Action}
    {u v : State} (has : as = before ++ a :: after)
    (hu : run (step host) (.boot users tokens) before = some u) (hv : step host u a = some v)
    (ha : a.isOf c u) :
    v.users = u.users ∧ v.events = u.events := by
  obtain ⟨password, hm⟩ := hc
  subst has
  have hc := registration_boot host c email bootstrapToken users tokens
  obtain ⟨t, ht, hrest⟩ := run_append.mp h
  obtain rfl := Option.some.inj (hu.symm.trans ht)
  obtain ⟨w, hw, hafter⟩ := run_cons.mp hrest
  obtain rfl := Option.some.inj (hv.symm.trans hw)
  obtain ⟨hCbefore, -⟩ := (along_append hu).mp hC
  obtain ⟨hmbefore, hmafter⟩ := (along_append hu).mp hm
  obtain ⟨hi, hcu⟩ := bootstrap_run (bootstrapInv_boot users tokens) hc hu hCbefore hmbefore
  refine quiet_of_unregistered hcu hmafter.1 hv ha fun hregistered => ?_
  obtain ⟨hnumbered, hend⟩ := invariant (P := fun s => Numbered s ∧ Registered s c)
    (fun s a t hp hs => ⟨numbered_step hp.1 hs, registered_kept hp.1 hs hp.2⟩) hafter
    ⟨numbered_step hi.numbered hv, hregistered⟩
  obtain ⟨-, hnone⟩ := hnumbered.results c _ hr
  rcases hend with ⟨_, hf⟩ | ⟨_, hf⟩ | ⟨reply, hok⟩
  · cases hnone.symm.trans hf
  · cases hnone.symm.trans hf
  · cases hr.symm.trans hok

/-- Of all the registrations in flight at most one succeeds: one that has the
configured token and finds the table empty, where it leaves an active admin.
The others leave no trace. -/
theorem bootstrap_is_exclusive (h : run (step host) (.boot users tokens) as = some s)
    (hC : Along (step host) CreatedByAdmin (.boot users tokens) as)
    (hsha : ∀ configured, host.bootstrapToken = some configured →
      ∀ text, host.sha256 text = host.sha256 configured → text = configured) :
    (∀ c c' email email' bootstrapToken bootstrapToken' reply reply',
      IsRegistration host users tokens as c email bootstrapToken → s.results.get c = some (.ok reply) →
        IsRegistration host users tokens as c' email' bootstrapToken' →
          s.results.get c' = some (.ok reply') → c = c') ∧
    (∀ c email bootstrapToken reply, IsRegistration host users tokens as c email bootstrapToken →
      s.results.get c = some (.ok reply) →
        (∀ configured, host.bootstrapToken = some configured → configured ≠ "" →
          bootstrapToken = some configured) ∧
        ∃ before fresh after u v row, as = before ++ .resume c fresh :: after ∧
          run (step host) (.boot users tokens) before = some u ∧ step host u (.resume c fresh) = some v ∧
            u.users.rows = [] ∧ v.users.rows = [row] ∧ row.isActiveAdmin = true ∧ row.email = email) ∧
    ∀ c email bootstrapToken error, IsRegistration host users tokens as c email bootstrapToken →
      s.results.get c = some (.error error) → ∀ before a after u v, as = before ++ a :: after →
        run (step host) (.boot users tokens) before = some u → step host u a = some v → a.isOf c u →
          v.users = u.users ∧ v.events = u.events := by
  refine ⟨?_, ?_, ?_⟩
  · intro c c' email email' bootstrapToken bootstrapToken' reply reply' hc hr hc' hr'
    obtain ⟨-, before, fresh, after, u, v, row, has, hu, hv, hempty, hrow, -⟩ := first_row_of_ok h hC hc hr
    obtain ⟨-, before', fresh', after', u', v', row', has', hu', hv', hempty', hrow', -⟩ :=
      first_row_of_ok h hC hc' hr'
    obtain ⟨-, ha⟩ := change_unique (P := fun s => s.users.rows ≠ []) (fun _ _ _ hp hs => users_kept hs hp)
      (has.symm.trans has') hu hv (not_not.mpr hempty) (hrow ▸ List.cons_ne_nil _ _) hu' hv'
      (not_not.mpr hempty')
      (hrow' ▸ List.cons_ne_nil _ _)
    cases ha
    rfl
  · intro c email bootstrapToken reply hc hr
    obtain ⟨hallowed, hfirst⟩ := first_row_of_ok h hC hc hr
    exact ⟨fun configured hconf hne => presented_eq hallowed hconf hne (hsha configured hconf), hfirst⟩
  · intro c email bootstrapToken error hc hr before a after u v has hu hv ha
    exact quiet_of_error h hC hc hr has hu hv ha

end Run

def guardedHost : Host := { plainHost with bootstrapToken := some "sesame" }

theorem guardedHost_sha256 (text : String) (h : guardedHost.sha256 text = guardedHost.sha256 "sesame") :
    text = "sesame" := by
  have hinj : Function.Injective Char.toNat := fun _ _ => Char.toNat_inj.mp
  exact String.toList_inj.mp (List.map_injective_iff.mpr hinj h)

def race : List Action :=
  [.call (.register "a@x" "pw" (some "sesame")), .call (.register "b@x" "pw" (some "sesame")), .resume 0 "s",
    .resume 1 "t", .resume 1 "", .resume 1 "", .resume 1 "id-b", .resume 0 "", .resume 0 "",
      .resume 1 "", .resume 1 ""]

theorem one_of_two_registers : ∃ s, run (step guardedHost) (.boot .empty []) race = some s ∧
    s.results.get 0 = some (.error registrationClosed) ∧ ∃ reply, s.results.get 1 = some (.ok reply) ∧
      ∃ before fresh after u v row, race = before ++ .resume 1 fresh :: after ∧
        run (step guardedHost) (.boot .empty []) before = some u ∧
          step guardedHost u (.resume 1 fresh) = some v ∧
          u.users.rows = [] ∧ v.users.rows = [row] ∧ row.isActiveAdmin = true ∧ row.email = "b@x" := by
  have hsha : ∀ configured, guardedHost.bootstrapToken = some configured →
      ∀ text, guardedHost.sha256 text = guardedHost.sha256 configured → text = configured := by
    rintro _ ⟨⟩
    exact guardedHost_sha256
  refine ⟨_, rfl, rfl, _, rfl, ?_⟩
  have hone := @bootstrap_is_exclusive guardedHost _ .empty [] race rfl (by decide +kernel) hsha
  exact (hone.2.1 1 "b@x" (some "sesame") _ ⟨"pw", by decide +kernel⟩ rfl).2

end EspClawPlatform.Identity
