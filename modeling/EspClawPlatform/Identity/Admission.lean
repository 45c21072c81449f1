import EspClawPlatform.Identity.Freshness
import EspClawPlatform.Identity.PermissionsGuard

namespace EspClawPlatform.Identity

open Run

variable {host : Host} {verifyAsync : Nat → String → Option JwtPayload} {past : List Gate} {c d : Cluster}
  {g t : Gate} {m : Move} {id : String}

def ReadAt (past : List Gate) (id : String) (row : Option User) (at_ : Nat) : Prop :=
  ∃ z ∈ past, ∃ w ∈ past, ∃ call, row = z.cluster.core.users.find id ∧
    w.cluster.core.frames.get call = some (.activeFound id row) ∧ w.cluster.core.now = at_

/-- The account was stored so when a lookup read it that was answered later
than the time of the cache before the request. -/
def Vouched (past : List Gate) (id : String) (account : User) (arrivedAt : Nat) : Prop :=
  account.disabled = false ∧ ∃ at_, ReadAt past id (some account) at_ ∧ arrivedAt < at_ + USER_STATE_TTL_MS

theorem ReadAt.mono {row : Option User} {at_ : Nat} (h : ReadAt past id row at_) (later : List Gate) :
    ReadAt (past ++ later) id row at_ := by
  obtain ⟨z, hz, w, hw, call, hrow, hframe, hat⟩ := h
  exact ⟨z, List.mem_append_left _ hz, w, List.mem_append_left _ hw, call, hrow, hframe, hat⟩

theorem Vouched.mono {account : User} {arrivedAt : Nat} (h : Vouched past id account arrivedAt)
    (later : List Gate) : Vouched (past ++ later) id account arrivedAt := by
  obtain ⟨hd, at_, hread, hlt⟩ := h
  exact ⟨hd, at_, hread.mono later, hlt⟩

def Frame.LooksUp (id : String) : Frame → Prop
  | .activeFind other | .activeFound other _ => other = id
  | _ => False

structure LookupsInv (past : List Gate) (c : Cluster) : Prop where
  here : ∃ z ∈ past, z.cluster = c
  numbered : Numbered c.core
  found : ∀ call id row, c.core.frames.get call = some (.activeFound id row) →
    ∃ z ∈ past, row = z.cluster.core.users.find id
  cached : ∀ i id e, (c.memory i).stateCache.get id = some e →
    ∃ row : Option User, e.user = (row.filter fun u => !u.disabled) ∧ ReadAt past id row e.at_

structure PendingInv (past : List Gate) (c : Cluster) (call : Nat) (p : Pending) : Prop where
  arrived : p.arrivedAt ≤ c.core.now
  made : call < c.core.calls
  frame : ∀ f, c.core.frames.get call = some f → f.LooksUp p.claims.sub
  result : ∀ account, c.core.results.get call = some (.ok (.account (some account))) →
    Vouched past p.claims.sub account p.arrivedAt

theorem vouched_of_read {row : Option User} {account : User} {at_ arrivedAt : Nat}
    (hread : ReadAt past id row at_) (hrow : (row.filter fun u => !u.disabled) = some account)
    (hlt : arrivedAt < at_ + USER_STATE_TTL_MS) : Vouched past id account arrivedAt := by
  obtain ⟨rfl, henabled⟩ := Option.filter_eq_some_iff.mp hrow
  exact ⟨by simpa using henabled, at_, hread, hlt⟩

theorem lookupsInv_step (hi : LookupsInv past c) (h : c.step host m = some d) (ht : t.cluster = d) :
    LookupsInv (past ++ [t]) d where
  here := ⟨t, List.mem_append_right _ (List.mem_singleton_self t), ht⟩
  numbered := by
    have hnumbered : Numbered (c.enter m.node) := ⟨hi.numbered.frames, hi.numbered.results⟩
    exact numbered_step hnumbered (Cluster.step_core h)
  found := by
    intro call id row hf
    obtain ⟨y, hy, rfl⟩ := hi.here
    rcases step_frames (Cluster.step_core h) hf with ⟨hf, -⟩ | hen
    · obtain ⟨z, hz, hrow⟩ := hi.found call id row hf
      exact ⟨z, List.mem_append_left _ hz, hrow⟩
    · generalize m.action = a at hen
      cases hen with
      | call request hn =>
          have huser := (start_enters request hn).2
          cases request with
          | register => simp only [Request.start] at hn; split at hn <;> cases hn
          | login => simp only [Request.start] at hn; split at hn <;> cases hn
          | getActiveUser =>
              simp only [Request.start] at hn
              split at hn
              · split at hn <;> cases hn
              · cases hn
          | listUsers | createUser | updateUser | resetPassword | changeOwnPassword => cases hn
      | resume _ fresh hg hfol hu =>
          cases hfol
          exact ⟨y, List.mem_append_left _ hy, rfl⟩
  cached := by
    intro i id e he
    rcases Cluster.entry_step h he with ⟨he, -⟩ | ⟨row, ⟨call, fresh, hm, hf⟩, huser, hat⟩
    · obtain ⟨row, huser, hread⟩ := hi.cached i id e he
      exact ⟨row, huser, hread.mono [t]⟩
    · obtain ⟨y, hy, rfl⟩ := hi.here
      obtain ⟨z, hz, hrow⟩ := hi.found call id row hf
      exact ⟨row, huser, z, List.mem_append_left _ hz, y, List.mem_append_left _ hy, call, hrow, hf, hat.symm⟩

theorem pendingInv_step {call : Nat} {p : Pending} (hi : LookupsInv past c) (hp : PendingInv past c call p)
    (h : c.step host m = some d) : PendingInv (past ++ [t]) d call p where
  arrived := Nat.le_trans hp.arrived (le_now (s := c.enter m.node) (Cluster.step_core h))
  made := Nat.lt_of_lt_of_le hp.made (Cluster.le_core_calls h)
  frame := by
    intro f hf
    rcases step_frames (Cluster.step_core h) hf with ⟨hf, -⟩ | hen
    · exact hp.frame f hf
    · generalize m.action = a at hen
      cases hen with
      | call request hn => exact absurd hp.made (Nat.lt_irrefl _)
      | resume _ fresh hg hfol hu =>
          have hlook := hp.frame _ hg
          cases hfol with
          | activeFind => exact hlook
          | _ => exact hlook.elim
  result := by
    intro account hx
    rcases step_results (Cluster.step_core h) hx with hx | hends
    · exact (hp.result account hx).mono [t]
    · generalize m.action = a at hends
      cases hends with
      | call request hn => exact absurd hp.made (Nat.lt_irrefl _)
      | resume _ fresh hf he hn =>
          have hlook := hp.frame _ hf
          rename_i f e
          cases f with
          | activeFind => cases he; cases hn
          | activeFound other row =>
              have hid : other = p.claims.sub := hlook
              subst hid
              cases he
              obtain ⟨z, hz, hrow⟩ := hi.found call p.claims.sub row hf
              obtain ⟨y, hy, rfl⟩ := hi.here
              have hread : ReadAt past p.claims.sub row y.cluster.core.now := ⟨z, hz, y, hy, call, hrow, hf, rfl⟩
              have hlt : p.arrivedAt < y.cluster.core.now + USER_STATE_TTL_MS :=
                Nat.lt_of_le_of_lt hp.arrived (Nat.lt_add_of_pos_right (by decide))
              have haccount : (row.filter fun u => !u.disabled) = some account := by
                injection hn with hn
                injection hn with hn
                injection hn
              exact (vouched_of_read hread haccount hlt).mono [t]
          | _ => exact hlook.elim

theorem pendingInv_start {node : Nat} {operation : Operation} {claims : JwtPayload} (hi : LookupsInv past c)
    (h : c.step host { node := node, action := .call (.getActiveUser claims.sub) } = some d) :
    PendingInv (past ++ [t]) d c.core.calls
      { node := node, operation := operation, claims := claims, arrivedAt := c.core.now } where
  arrived := le_now (s := c.enter node) (Cluster.step_core h)
  made := by
    obtain hd := Option.some.inj (Cluster.step_core h)
    exact hd ▸ Nat.lt_succ_self _
  frame := by
    intro f hf
    rcases step_frames (Cluster.step_core h) hf with ⟨hf, -⟩ | hen
    · exact absurd (hi.numbered.frames _ f hf) (Nat.lt_irrefl _)
    · cases hen with
      | call request hn =>
          rcases start_getActiveUser host (c.enter node) claims.sub with hnext | ⟨e, -, -, hnext⟩
          · rw [hnext] at hn
            cases hn
            exact rfl
          · rw [hnext] at hn
            cases hn
  result := by
    intro account hx
    rcases step_results (Cluster.step_core h) hx with hx | hends
    · exact absurd (hi.numbered.results _ _ hx).1 (Nat.lt_irrefl _)
    · cases hends with
      | call request hn =>
          rcases start_getActiveUser host (c.enter node) claims.sub with hnext | ⟨e, he, hlt, hnext⟩
          · cases hnext.symm.trans hn
          · obtain ⟨row, huser, hread⟩ := hi.cached node claims.sub e he
            have haccount : e.user = some account := by
              have hreply := hnext.symm.trans hn
              injection hreply with hreply
              injection hreply with hreply
              injection hreply
            exact (vouched_of_read hread (huser.symm.trans haccount) hlt).mono [t]

theorem LookupsInv.mono (hi : LookupsInv past c) (later : List Gate) : LookupsInv (past ++ later) c where
  here := by
    obtain ⟨z, hz, hc⟩ := hi.here
    exact ⟨z, List.mem_append_left _ hz, hc⟩
  numbered := hi.numbered
  found := by
    intro call id row hf
    obtain ⟨z, hz, hrow⟩ := hi.found call id row hf
    exact ⟨z, List.mem_append_left _ hz, hrow⟩
  cached := by
    intro i id e he
    obtain ⟨row, huser, hread⟩ := hi.cached i id e he
    exact ⟨row, huser, hread.mono later⟩

theorem PendingInv.mono {call : Nat} {p : Pending} (hp : PendingInv past c call p) (later : List Gate) :
    PendingInv (past ++ later) c call p :=
  ⟨hp.arrived, hp.made, hp.frame, fun account hx => (hp.result account hx).mono later⟩

def Route.Allows (route : Route) (role : Role) : Prop :=
  route.anyAuthenticated = true ∨
    ∃ required, route.requiredPermission = some required ∧ roleHasPermission role required

theorem authorize_ok {route : Route} {claims user : JwtPayload} {x : Option User}
    (h : authorize route claims x = .ok user) : ∃ account, x = some account ∧ sameVersion claims account ∧
      route.Allows account.role ∧ user = { claims with role := account.role } := by
  cases x with
  | none => cases h
  | some account =>
      simp only [authorize] at h
      split at h
      · cases h
      rename_i hv
      have hv : sameVersion claims account = true := by simpa using hv
      split at h
      · rename_i hany
        cases h
        exact ⟨account, rfl, hv, .inl hany, rfl⟩
      · split at h
        · cases h
        · rename_i required hr
          split at h
          · rename_i hp
            cases h
            exact ⟨account, rfl, hv, .inr ⟨required, hr, hp⟩, rfl⟩
          · cases h

/-- An account vouches for the request: with the version of the token, and a role that may use the route. -/
def Authorised (past : List Gate) (a : Admission) : Prop :=
  ∃ user account, a.user = some user ∧ Vouched past user.sub account a.arrivedAt ∧
    sameVersion user account ∧ user.role = account.role ∧ a.operation.route.Allows account.role

theorem Authorised.mono {a : Admission} (h : Authorised past a) (later : List Gate) :
    Authorised (past ++ later) a := by
  obtain ⟨user, account, huser, hv, hrest⟩ := h
  exact ⟨user, account, huser, hv.mono later, hrest⟩

structure GateInv (past : List Gate) (g : Gate) : Prop where
  lookups : LookupsInv past g.cluster
  pending : ∀ call p, g.pending.get call = some p → PendingInv past g.cluster call p
  admitted : ∀ a ∈ g.admitted, a.operation.route.isPublic = false → Authorised past a

theorem gateInv_boot (users : Table User) : GateInv [.boot users] (.boot users) where
  lookups :=
    { here := ⟨_, List.mem_singleton_self _, rfl⟩
      numbered := numbered_boot users []
      found := fun _ _ _ h => by cases h
      cached := fun _ _ _ h => by cases h }
  pending := fun _ _ h => by cases h
  admitted := fun _ h => by cases h

theorem gateInv_still (hi : GateInv past g) (hc : t.cluster = g.cluster)
    (hpending : ∀ call p, t.pending.get call = some p → g.pending.get call = some p)
    (hadmitted : ∀ a ∈ t.admitted, a ∈ g.admitted ∨ (a.operation.route.isPublic = false → Authorised past a)) :
    GateInv (past ++ [t]) t where
  lookups := hc ▸ hi.lookups.mono [t]
  pending := fun call p h => hc ▸ (hi.pending call p (hpending call p h)).mono [t]
  admitted := by
    intro a ha hroute
    rcases hadmitted a ha with ha | ha
    · exact (hi.admitted a ha hroute).mono [t]
    · exact (ha hroute).mono [t]

theorem gateInv_moves (hi : GateInv past g) (hc : g.cluster.step host m = some t.cluster)
    (hpending : ∀ call p, t.pending.get call = some p → g.pending.get call = some p ∨
      PendingInv (past ++ [t]) t.cluster call p)
    (hadmitted : ∀ a ∈ t.admitted, a ∈ g.admitted ∨ (a.operation.route.isPublic = false → Authorised past a)) :
    GateInv (past ++ [t]) t where
  lookups := lookupsInv_step hi.lookups hc rfl
  pending := by
    intro call p h
    rcases hpending call p h with h | h
    · exact pendingInv_step hi.lookups (hi.pending call p h) hc
    · exact h
  admitted := by
    intro a ha hroute
    rcases hadmitted a ha with ha | ha
    · exact (hi.admitted a ha hroute).mono [t]
    · exact (ha hroute).mono [t]

theorem get_of_erase {pending : Table (Nat × Pending)} {call other : Nat} {p : Pending}
    (h : (pending.erase call).get other = some p) : pending.get other = some p := by
  rw [Table.get_erase] at h
  split at h
  · cases h
  · exact h

theorem mem_snoc {a b : Admission} {l : List Admission} {P : Prop} (h : a ∈ l ++ [b]) (hb : a = b → P) :
    a ∈ l ∨ P := by
  rcases List.mem_append.mp h with h | h
  · exact .inl h
  · exact .inr (hb (List.mem_singleton.mp h))

theorem gateInv_step {a : GateAction} (hi : GateInv past g) (h : g.step host verifyAsync a = some t) :
    GateInv (past ++ [t]) t := by
  cases a with
  | service m =>
      simp only [Gate.step] at h
      split at h
      · cases h
      · obtain ⟨d, hd, rfl⟩ := Option.map_eq_some_iff.mp h
        exact gateInv_moves hi hd (fun _ _ h => .inl h) fun _ h => .inl h
  | arrive node operation authorization =>
      simp only [Gate.step, Gate.arrive] at h
      split at h
      · rename_i hpublic
        cases h
        refine gateInv_still hi rfl (fun _ _ h => h) fun a ha => mem_snoc ha ?_
        rintro rfl hroute
        cases hpublic.symm.trans hroute
      · split at h
        · cases h
          exact gateInv_still hi rfl (fun _ _ h => h) fun _ h => .inl h
        · split at h
          · cases h
            exact gateInv_still hi rfl (fun _ _ h => h) fun _ h => .inl h
          · obtain ⟨d, hd, rfl⟩ := Option.map_eq_some_iff.mp h
            refine gateInv_moves hi hd (fun call p hp => ?_) fun _ h => .inl h
            rw [Table.get_set] at hp
            split at hp
            · rename_i hcall
              cases hp
              subst hcall
              exact .inr (pendingInv_start hi.lookups hd)
            · exact .inl hp
  | decide call =>
      obtain ⟨entry, hentry, h⟩ := Option.bind_eq_some_iff.mp h
      obtain ⟨result, hresult, h⟩ := Option.bind_eq_some_iff.mp h
      split at h
      · cases h
        exact gateInv_still hi rfl (fun _ _ h => get_of_erase h) fun _ h => .inl h
      · split at h
        · cases h
          exact gateInv_still hi rfl (fun _ _ h => get_of_erase h) fun _ h => .inl h
        · rename_i user hauth
          obtain ⟨account, rfl, hversion, hallows, rfl⟩ := authorize_ok hauth
          have hvouched := (hi.pending call entry hentry).result account hresult
          have hauthorised : Authorised past
              { operation := entry.operation, user := some { entry.claims with role := account.role },
                arrivedAt := entry.arrivedAt } :=
            ⟨_, account, rfl, hvouched, hversion, rfl, hallows⟩
          simp only [Gate.enter] at h
          split at h
          · cases h
            exact gateInv_still hi rfl (fun _ _ h => get_of_erase h)
              fun a ha => mem_snoc ha fun he _ => he ▸ hauthorised
          · obtain ⟨d, hd, rfl⟩ := Option.map_eq_some_iff.mp h
            exact gateInv_moves hi hd (fun _ _ h => .inl (get_of_erase h))
              fun a ha => mem_snoc ha fun he _ => he ▸ hauthorised
      · cases h

theorem gateInv_run {users : Table User} {as : List GateAction}
    (h : run (Gate.step host verifyAsync) (.boot users) as = some g) :
    GateInv (.boot users :: states (Gate.step host verifyAsync) (.boot users) as) g :=
  history_along (fun _ _ _ _ hi _ hs => gateInv_step hi hs) h (along_true _ _) (gateInv_boot users)

/-- Every request that reaches the handler of a route that is not public was
vouched for: less than the time of the cache before it came, or since, its
account was stored enabled, with the version of the token, and with a role that
may use the route. -/
theorem admitted_is_authorised {users : Table User} {as : List GateAction} {a : Admission}
    (h : run (Gate.step host verifyAsync) (.boot users) as = some g) (ha : a ∈ g.admitted)
    (hroute : a.operation.route.isPublic = false) :
    Authorised (.boot users :: states (Gate.step host verifyAsync) (.boot users) as) a :=
  (gateInv_run h).admitted a ha hroute

def keeper : User := { id := "id-a", email := "a@x", passwordHash := "pw$s", role := .admin, createdAt := 0 }

def keeperToken (_now : Nat) (token : String) : Option JwtPayload :=
  if token = "t" then some (claims keeper) else none

def oneKeeper : Table User := Table.empty.save keeper

def creating : List GateAction :=
  [.arrive 0 (.create "b@x" "password" .viewer) (some "Bearer t"), .service ⟨0, .resume 0 ""⟩,
    .service ⟨0, .resume 0 ""⟩, .decide 0]

theorem admin_request_is_authorised : ∃ g, run (Gate.step plainHost keeperToken) (.boot oneKeeper) creating = some g ∧
    ∃ a ∈ g.admitted, Authorised (.boot oneKeeper :: states (Gate.step plainHost keeperToken) (.boot oneKeeper)
      creating) a := by
  have hend : ∀ g ∈ run (Gate.step plainHost keeperToken) (.boot oneKeeper) creating,
      ∃ a ∈ g.admitted, a.operation.route.isPublic = false := by decide
  obtain ⟨g, hg⟩ := Option.isSome_iff_exists.mp (show (run (Gate.step plainHost keeperToken) (.boot oneKeeper)
    creating).isSome by decide)
  obtain ⟨a, ha, hroute⟩ := hend g hg
  exact ⟨g, hg, a, ha, admitted_is_authorised hg ha hroute⟩

end EspClawPlatform.Identity
