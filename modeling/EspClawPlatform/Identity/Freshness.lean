import EspClawPlatform.Identity.Cluster

namespace EspClawPlatform.Identity

open Run

variable {host : Host} {s t : State} {c d : Cluster} {m : Move} {id : String}

def Frame.found (id : String) : Frame → Option (Option User)
  | .activeFound other row => if other = id then some row else none
  | _ => none

variable (host s id) in
theorem start_getActiveUser : ((Request.getActiveUser id).start host s).next = .await (.activeFind id) ∨
    ∃ e, s.stateCache.get id = some e ∧ s.now < e.at_ + USER_STATE_TTL_MS ∧
      ((Request.getActiveUser id).start host s).next = .done (.ok (.account e.user)) := by
  simp only [Request.start]
  split
  · rename_i e he
    split
    · rename_i hlt
      exact .inr ⟨e, he, hlt, rfl⟩
    · exact .inl rfl
  · exact .inl rfl

theorem reject_committed {f : Frame} (h : f.committed = some id) : f.reject = none := by
  cases f with
  | updateSaved | applySaved => rfl
  | _ => cases h

namespace Cluster

theorem le_core_calls (h : c.step host m = some d) : c.core.calls ≤ d.core.calls :=
  le_calls (s := c.enter m.node) (step_core h)

/-- A lookup of the account that stores what it has read finds the stored row
still as it was when it read it. -/
def StoresCurrent (id : String) (c : Cluster) (m : Move) : Prop :=
  match m.action with
  | .resume call _ => ∀ f ∈ c.core.frames.get call, ∀ row ∈ f.found id, row = c.core.users.find id
  | _ => True

instance (id : String) : ∀ c m, Decidable (StoresCurrent id c m)
  | c, ⟨_, .resume call _⟩ =>
      inferInstanceAs (Decidable (∀ f ∈ c.core.frames.get call, ∀ row ∈ f.found id,
        row = c.core.users.find id))
  | _, ⟨_, .tick _⟩ | _, ⟨_, .call _⟩ | _, ⟨_, .reject _⟩ => inferInstanceAs (Decidable True)

theorem row_current {row : Option User} (hC : StoresCurrent id c m) (h : c.Stores m id row) :
    row = c.core.users.find id := by
  obtain ⟨call, fresh, hm, hf⟩ := h
  rw [StoresCurrent, hm] at hC
  exact hC _ hf row (if_pos rfl)

structure Sound (c : Cluster) : Prop where
  numbered : Numbered c.core
  times : ∀ i id e, (c.memory i).stateCache.get id = some e → e.at_ ≤ c.core.now

theorem sound_boot (users : Table User) : Sound (boot users) where
  numbered := numbered_boot users []
  times := fun _ _ _ he => by cases he

theorem sound_step (hi : c.Sound) (h : c.step host m = some d) : d.Sound := by
  have hnow : c.core.now ≤ d.core.now := le_now (s := c.enter m.node) (step_core h)
  have hnumbered : Numbered (c.enter m.node) := ⟨hi.numbered.frames, hi.numbered.results⟩
  refine ⟨numbered_step hnumbered (step_core h), fun i id e he => ?_⟩
  rcases entry_step h he with ⟨he, -⟩ | ⟨row, -, -, hat⟩
  · exact Nat.le_trans (hi.times i id e he) hnow
  · exact hat ▸ hnow

def Pending (c : Cluster) (call : Nat) (id : String) : Prop :=
  ∃ f, c.core.frames.get call = some f ∧ f.committed = some id

theorem pending_kept {call : Nat} (hi : c.Sound) (hp : c.Pending call id) (h : c.step host m = some d)
    (hm : ∀ fresh, m.action ≠ .resume call fresh) : d.Pending call id := by
  obtain ⟨f, hf, hcommitted⟩ := hp
  have hcore := step_core h
  refine ⟨f, frame_kept hcore hf (hi.numbered.frames call f hf) hm ?_, hcommitted⟩
  intro hreject
  rw [hreject] at hcore
  obtain ⟨g, hg, hcore⟩ := Option.bind_eq_some_iff.mp hcore
  cases hf.symm.trans hg
  rw [reject_committed hcommitted] at hcore
  cases hcore

/-- Since a change of the account was committed at time `T` by a call of the
instance `node`, what the instances have stored is from later, but for what is
too old soon, and on that instance until the call goes on. -/
structure CacheInv (id : String) (node call T : Nat) (past : List Cluster) (c : Cluster) : Prop where
  sound : c.Sound
  here : c ∈ past
  owned : c.owner.get call = some node
  made : call < c.core.calls
  entries : ∀ i e, (c.memory i).stateCache.get id = some e →
    (∃ z ∈ past, e.user = z.active id) ∨ e.at_ ≤ T ∧ (i = node → c.Pending call id)

theorem owner_kept {call node : Nat} (hmade : call < c.core.calls) (ho : c.owner.get call = some node)
    (h : c.step host m = some d) : d.owner.get call = some node := by
  obtain ⟨-, t, ht, rfl⟩ := step_eq_some.mp h
  rw [leave]
  split
  · rw [Table.get_set_of_ne _ _ (Nat.ne_of_lt hmade), ho]
  · exact ho

theorem cacheInv_step {node call T : Nat} {past : List Cluster} (hi : CacheInv id node call T past c)
    (hC : StoresCurrent id c m) (h : c.step host m = some d) : CacheInv id node call T (past ++ [d]) d where
  sound := sound_step hi.sound h
  here := List.mem_append_right _ (List.mem_singleton_self d)
  owned := owner_kept hi.made hi.owned h
  made := Nat.lt_of_lt_of_le hi.made (le_core_calls h)
  entries := by
    intro i e he
    rcases entry_step h he with ⟨he, hkept⟩ | ⟨row, hstores, huser, -⟩
    · rcases hi.entries i e he with ⟨z, hz, hu⟩ | ⟨hat, hpending⟩
      · exact .inl ⟨z, List.mem_append_left _ hz, hu⟩
      · refine .inr ⟨hat, fun hnode => pending_kept hi.sound (hpending hnode) h fun fresh hm => ?_⟩
        -- the call would go on here, and drop the entry
        obtain ⟨f, hf, hcommitted⟩ := hpending hnode
        have hallows := (step_eq_some.mp h).1
        rw [allows, hm, decide_eq_true_eq, hi.owned] at hallows
        exact hkept (hnode.trans (Option.some.inj hallows)) ⟨call, fresh, f, hm, hf, hcommitted⟩
    · refine .inl ⟨c, List.mem_append_left _ hi.here, ?_⟩
      rw [huser, row_current hC hstores, active]

structure LookupInv (id : String) (call : Nat) (past : List Cluster) (c : Cluster) : Prop where
  here : c ∈ past
  made : call < c.core.calls
  frame : ∀ f, c.core.frames.get call = some f →
    f = .activeFind id ∨ ∃ z ∈ past, f = .activeFound id (z.core.users.find id)
  result : ∀ x, c.core.results.get call = some (.ok (.account x)) → ∃ z ∈ past, x = z.active id

theorem lookupInv_step {call : Nat} {past : List Cluster} (hi : LookupInv id call past c)
    (h : c.step host m = some d) : LookupInv id call (past ++ [d]) d where
  here := List.mem_append_right _ (List.mem_singleton_self d)
  made := Nat.lt_of_lt_of_le hi.made (le_core_calls h)
  frame := by
    intro f hf
    have hcore := step_core h
    rcases step_frames hcore hf with ⟨hf, -⟩ | hen
    · rcases hi.frame f hf with hfind | ⟨z, hz, hfound⟩
      · exact .inl hfind
      · exact .inr ⟨z, List.mem_append_left _ hz, hfound⟩
    · generalize m.action = a at hen
      cases hen with
      | call request hn => exact absurd hi.made (Nat.lt_irrefl _)
      | resume _ fresh hg hfol hu =>
          rcases hi.frame _ hg with rfl | ⟨z, hz, rfl⟩
          · cases hfol
            exact .inr ⟨c, List.mem_append_left _ hi.here, rfl⟩
          · cases hfol
  result := by
    intro x hx
    have hcore := step_core h
    rcases step_results hcore hx with hx | hends
    · obtain ⟨z, hz, hu⟩ := hi.result x hx
      exact ⟨z, List.mem_append_left _ hz, hu⟩
    · generalize m.action = a at hends
      cases hends with
      | call request hn => exact absurd hi.made (Nat.lt_irrefl _)
      | resume _ fresh hf he hn =>
          rcases hi.frame _ hf with rfl | ⟨z, hz, rfl⟩
          · cases he
            cases hn
          · cases he
            cases hn
            exact ⟨z, List.mem_append_left _ hz, rfl⟩

theorem lookupInv_start {node call T i : Nat} {past : List Cluster} (hi : CacheInv id node call T past c)
    (hlater : (i = node ∧ c.core.frames.get call = none) ∨ T + USER_STATE_TTL_MS ≤ c.core.now)
    (h : c.step host ⟨i, .call (.getActiveUser id)⟩ = some d) :
    LookupInv id c.core.calls (past ++ [d]) d where
  here := List.mem_append_right _ (List.mem_singleton_self d)
  made := by
    obtain hd := Option.some.inj (step_core h)
    exact hd ▸ Nat.lt_succ_self _
  frame := by
    intro f hf
    rcases step_frames (step_core h) hf with ⟨hf, -⟩ | hen
    · exact absurd (hi.sound.numbered.frames _ f hf) (Nat.lt_irrefl _)
    · cases hen with
      | call request hn =>
          rcases start_getActiveUser host (c.enter i) id with hnext | ⟨e, -, -, hnext⟩
          · rw [hnext] at hn
            exact .inl (Option.some.inj hn).symm
          · rw [hnext] at hn
            cases hn
  result := by
    intro x hx
    rcases step_results (step_core h) hx with hx | hends
    · exact absurd (hi.sound.numbered.results _ _ hx).1 (Nat.lt_irrefl _)
    · cases hends with
      | call request hn =>
          rcases start_getActiveUser host (c.enter i) id with hnext | ⟨e, he, hlt, hnext⟩
          · cases hnext.symm.trans hn
          · cases hnext.symm.trans hn
            rcases hi.entries i e he with ⟨z, hz, hu⟩ | ⟨hat, hpending⟩
            · exact ⟨z, List.mem_append_left _ hz, hu⟩
            · exfalso
              rcases hlater with ⟨hnode, hreturned⟩ | hold
              · obtain ⟨f, hf, -⟩ := hpending hnode
                cases hreturned.symm.trans hf
              · change c.core.now < _ at hlt
                omega

end Cluster

/-- A lookup that begins once a change of the account has returned on the same
instance, or when the time of the cache has passed since it was committed,
answers with a state of the account that was stored at some time since then,
in every run in which the lookups store what is stored. -/
theorem lookups_are_fresh {users : Table User} {pre mid post : List Move} {v w s : Cluster}
    {call node i : Nat} {f : Frame} {x : Option User}
    (hpre : run (Cluster.step host) (.boot users) pre = some v)
    (hf : v.core.frames.get call = some f) (hcommitted : f.committed = some id)
    (hnode : v.owner.get call = some node) (hmid : run (Cluster.step host) v mid = some w)
    (hlater : (i = node ∧ w.core.frames.get call = none) ∨ v.core.now + USER_STATE_TTL_MS ≤ w.core.now)
    (hpost : run (Cluster.step host) w (⟨i, .call (.getActiveUser id)⟩ :: post) = some s)
    (hC : Along (Cluster.step host) (Cluster.StoresCurrent id) v
      (mid ++ ⟨i, .call (.getActiveUser id)⟩ :: post))
    (hx : s.core.results.get w.core.calls = some (.ok (.account x))) :
    ∃ z ∈ v :: states (Cluster.step host) v (mid ++ ⟨i, .call (.getActiveUser id)⟩ :: post),
      x = z.active id := by
  have hsound : v.Sound :=
    invariant (fun _ _ _ hi hs => Cluster.sound_step hi hs) hpre (Cluster.sound_boot users)
  have hbefore : Cluster.CacheInv id node call v.core.now [v] v :=
    { sound := hsound
      here := List.mem_singleton_self v
      owned := hnode
      made := hsound.numbered.frames call f hf
      entries := fun j e he => .inr ⟨hsound.times j id e he, fun _ => ⟨f, hf, hcommitted⟩⟩ }
  obtain ⟨u, hu, hrest⟩ := run_cons.mp hpost
  have hCmid := ((along_append hmid).mp hC).1
  have hcache := history_along (fun _ _ _ _ hi hC hs => Cluster.cacheInv_step hi hC hs) hmid hCmid hbefore
  have hstart := Cluster.lookupInv_start hcache hlater hu
  have hend := history_along (fun _ _ _ _ hi _ hs => Cluster.lookupInv_step hi hs) hrest
    (along_true u post) hstart
  rw [states_append hmid, states_cons hu]
  simpa using hend.result x hx

def viewer : User := { id := "id-b", email := "b@x", passwordHash := "pw$s", role := .viewer, createdAt := 0 }

def oneViewer : Table User := Table.empty.save viewer

def lookup (call : Nat) : List Move :=
  [⟨0, .call (.getActiveUser "id-b")⟩, ⟨0, .resume call ""⟩, ⟨0, .resume call ""⟩]

def disable (call : Nat) : List Move :=
  [⟨0, .call (.updateUser "id-b" { disabled := some true } none)⟩, ⟨0, .resume call ""⟩, ⟨0, .resume call ""⟩,
    ⟨0, .resume call ""⟩]

theorem dropped_state_is_read_again : ∃ v w s,
    run (Cluster.step plainHost) (.boot oneViewer) (lookup 0 ++ disable 1) = some v ∧
      run (Cluster.step plainHost) v [⟨0, .resume 1 ""⟩] = some w ∧
        run (Cluster.step plainHost) w (lookup 2) = some s ∧
          ∃ x, s.core.results.get 2 = some (.ok (.account x)) ∧
          ∃ z ∈ v :: states (Cluster.step plainHost) v (⟨0, .resume 1 ""⟩ :: lookup 2),
            x = z.active "id-b" := by
  refine ⟨_, _, _, rfl, rfl, rfl, none, rfl, ?_⟩
  exact @lookups_are_fresh plainHost "id-b" oneViewer (lookup 0 ++ disable 1) [⟨0, .resume 1 ""⟩]
    ((lookup 2).drop 1) _ _ _ 1 0 0 _ none rfl rfl rfl rfl rfl (.inl ⟨rfl, rfl⟩) rfl (by decide) rfl

theorem late_store_is_stale : ¬ ∀ (host : Host) (users : Table User) (pre mid post : List Move)
    (v w s : Cluster) (call node i : Nat) (f : Frame) (id : String) (x : Option User),
    run (Cluster.step host) (.boot users) pre = some v → v.core.frames.get call = some f →
      f.committed = some id →
      v.owner.get call = some node → run (Cluster.step host) v mid = some w →
        ((i = node ∧ w.core.frames.get call = none) ∨ v.core.now + USER_STATE_TTL_MS ≤ w.core.now) →
          run (Cluster.step host) w (⟨i, .call (.getActiveUser id)⟩ :: post) = some s →
            s.core.results.get w.core.calls = some (.ok (.account x)) →
              ∃ z ∈ v :: states (Cluster.step host) v
                (mid ++ ⟨i, .call (.getActiveUser id)⟩ :: post), x = z.active id := by
  intro h
  -- the lookup has read the row before the change, and stores it after the update has returned
  have hfresh := h plainHost oneViewer ((lookup 0).take 2 ++ disable 1)
    [⟨0, .resume 1 ""⟩, ⟨0, .resume 0 ""⟩] []
    _ _ _ 1 0 0 _ "id-b" _ rfl rfl rfl rfl rfl (.inl ⟨rfl, rfl⟩) rfl rfl
  exact absurd hfresh (by decide)

end EspClawPlatform.Identity
