import Mathlib.Logic.Function.Basic
import EspClawPlatform.Identity.Steps

namespace EspClawPlatform.Identity

open Run

structure Memory where
  stateCache : Table (String × CacheEntry) := .empty
  throttle : LoginThrottle := {}

/-- Instances of the service, each known by a number, over one database. The
memory inside `core` is that of the instance that has moved last, and `owner`
says which instance a call was made on. -/
structure Cluster where
  core : State
  memory : Nat → Memory := fun _ => {}
  owner : Table (Nat × Nat) := .empty

structure Move where
  node : Nat
  action : Action

namespace Cluster

def enter (c : Cluster) (node : Nat) : State :=
  { c.core with stateCache := (c.memory node).stateCache, throttle := (c.memory node).throttle }

def leave (c : Cluster) (m : Move) (s : State) : Cluster where
  core := s
  memory := Function.update c.memory m.node { stateCache := s.stateCache, throttle := s.throttle }
  owner :=
    match m.action with
    | .call _ => c.owner.set c.core.calls m.node
    | _ => c.owner

def allows (c : Cluster) (m : Move) : Bool :=
  match m.action with
  | .resume call _ | .reject call => c.owner.get call = some m.node
  | _ => true

def step (host : Host) (c : Cluster) (m : Move) : Option Cluster :=
  if c.allows m then (Identity.step host (c.enter m.node) m.action).map (c.leave m) else none

def boot (users : Table User) : Cluster := { core := .boot users [] }

def active (c : Cluster) (id : String) : Option User := (c.core.users.find id).filter fun u => !u.disabled

end Cluster

def Frame.committed : Frame → Option String
  | .updateSaved user .. | .applySaved user .. => some user.id
  | _ => none

def Frame.caches (now : Nat) (stateCache : Table (String × CacheEntry)) : Frame → Table (String × CacheEntry)
  | .activeFound id row => stateCache.set id { user := row.filter fun u => !u.disabled, at_ := now }
  | .updateSaved user .. | .applySaved user .. => stateCache.erase user.id
  | _ => stateCache

variable {host : Host} {s t : State} {c d : Cluster} {m : Move}

theorem resume_stateCache {f : Frame} {fresh : String} {e : Effect} (h : f.resume host s fresh = some e) :
    e.stateCache.getD s.stateCache = f.caches s.now s.stateCache := by
  cases f with
  | registerLock | updateLock =>
      simp only [Frame.resume] at h
      split at h
      · cases h; rfl
      · cases h
  | registerSave | createSave =>
      obtain ⟨u, -, rfl⟩ := Option.map_eq_some_iff.mp h
      rfl
  | registerCount | createFind | ownCompare =>
      obtain rfl := Option.some.inj h
      split <;> rfl
  | resetFind =>
      obtain rfl := Option.some.inj h
      split <;> rfl
  | ownFind =>
      obtain rfl := Option.some.inj h
      split
      · rfl
      · split <;> rfl
  | loginCompare =>
      obtain rfl := Option.some.inj h
      rw [loginCompared]
      split <;> rfl
  | updateFind =>
      obtain rfl := Option.some.inj h
      rw [updateFound]
      split
      · rfl
      · split
        · rfl
        · split <;> rfl
  | registerHash | registerSaved | loginFind | activeFind | activeFound | list | createHash | createSaved
  | updateSave | updateSaved | applyHash | applySave | applySaved | sign =>
      cases h
      rfl

theorem start_stateCache (request : Request) : (request.start host s).stateCache = none := by
  cases request with
  | register =>
      simp only [Request.start]
      split <;> rfl
  | getActiveUser =>
      simp only [Request.start]
      split
      · split <;> rfl
      · rfl
  | login | listUsers | createUser | updateUser | resetPassword | changeOwnPassword => rfl

theorem reject_stateCache {f : Frame} {e : Effect} (h : f.reject = some e) : e.stateCache = none := by
  cases f <;> cases h <;> rfl

theorem step_stateCache {a : Action} (h : step host s a = some t) :
    (t.stateCache = s.stateCache ∧ ∀ call fresh, a ≠ .resume call fresh) ∨
      ∃ call fresh f, a = .resume call fresh ∧ s.frames.get call = some f ∧
        t.stateCache = f.caches s.now s.stateCache := by
  cases step_shape h with
  | tick ms ht =>
      refine .inl ⟨ht ▸ rfl, fun _ _ hr => ?_⟩
      cases hr
  | call request ht =>
      refine .inl ⟨?_, fun _ _ hr => ?_⟩
      · rw [ht]
        change (request.start host s).stateCache.getD s.stateCache = s.stateCache
        rw [start_stateCache, Option.getD_none]
      · cases hr
  | reject call f e hf he ht =>
      refine .inl ⟨?_, fun _ _ hr => ?_⟩
      · rw [ht]
        change e.stateCache.getD s.stateCache = s.stateCache
        rw [reject_stateCache he, Option.getD_none]
      · cases hr
  | resume call fresh f e hf he ht =>
      refine .inr ⟨call, fresh, f, rfl, hf, ?_⟩
      rw [ht]
      exact resume_stateCache he

theorem get_erase_entry {stateCache : Table (String × CacheEntry)} {id user : String} {e : CacheEntry}
    (h : (stateCache.erase user).get id = some e) : stateCache.get id = some e ∧ some user ≠ some id := by
  rw [Table.get_erase] at h
  split at h
  · cases h
  · rename_i hne
    exact ⟨h, fun hid => hne (Option.some.inj hid).symm⟩

theorem get_caches {f : Frame} {now : Nat} {stateCache : Table (String × CacheEntry)} {id : String}
    {e : CacheEntry} (h : (f.caches now stateCache).get id = some e) :
    (stateCache.get id = some e ∧ f.committed ≠ some id) ∨
      ∃ row, f = .activeFound id row ∧ e = { user := row.filter fun u => !u.disabled, at_ := now } := by
  cases f with
  | activeFound other row =>
      rw [Frame.caches, Table.get_set] at h
      split at h
      · rename_i hid
        exact .inr ⟨row, hid ▸ rfl, (Option.some.inj h).symm⟩
      · refine .inl ⟨h, fun hc => ?_⟩
        cases hc
  | updateSaved user | applySaved user => exact .inl (get_erase_entry h)
  | _ =>
      refine .inl ⟨h, fun hc => ?_⟩
      cases hc

namespace Cluster

theorem step_eq_some : c.step host m = some d ↔
    c.allows m ∧ ∃ t, Identity.step host (c.enter m.node) m.action = some t ∧ d = c.leave m t := by
  rw [step]
  split
  · rename_i ha
    rw [Option.map_eq_some_iff, and_iff_right ha]
    exact exists_congr fun t => and_congr_right fun _ => eq_comm
  · rename_i ha
    exact iff_of_false (by simp) fun h => ha h.1

theorem step_core (h : c.step host m = some d) :
    Identity.step host (c.enter m.node) m.action = some d.core := by
  obtain ⟨-, t, ht, rfl⟩ := step_eq_some.mp h
  exact ht

theorem memory_leave (i : Nat) : (c.leave m t).memory i =
    if i = m.node then { stateCache := t.stateCache, throttle := t.throttle } else c.memory i :=
  Function.update_apply ..

def Invalidates (c : Cluster) (m : Move) (id : String) : Prop :=
  ∃ call fresh f, m.action = .resume call fresh ∧ c.core.frames.get call = some f ∧ f.committed = some id

def Stores (c : Cluster) (m : Move) (id : String) (row : Option User) : Prop :=
  ∃ call fresh, m.action = .resume call fresh ∧ c.core.frames.get call = some (.activeFound id row)

theorem entry_step (h : c.step host m = some d) {i : Nat} {id : String} {e : CacheEntry}
    (he : (d.memory i).stateCache.get id = some e) :
    ((c.memory i).stateCache.get id = some e ∧ (i = m.node → ¬ c.Invalidates m id)) ∨
      ∃ row, c.Stores m id row ∧ e.user = row.filter (fun u => !u.disabled) ∧ e.at_ = c.core.now := by
  obtain ⟨-, t, ht, rfl⟩ := step_eq_some.mp h
  rw [memory_leave] at he
  split at he
  · rename_i hi
    subst hi
    rcases step_stateCache ht with ⟨hcache, hno⟩ | ⟨call, fresh, f, hm, hf, hcache⟩
    · refine .inl ⟨(congrArg (fun cache => Table.get cache id) hcache).symm.trans he, ?_⟩
      rintro - ⟨call, fresh, f, hm, -⟩
      exact hno call fresh hm
    · rcases get_caches ((congrArg (fun cache => Table.get cache id) hcache).symm.trans he) with
        ⟨he, hcommitted⟩ | ⟨row, rfl, rfl⟩
      · refine .inl ⟨he, ?_⟩
        rintro - ⟨call', fresh', f', hm', hf', hc⟩
        cases hm.symm.trans hm'
        cases hf.symm.trans hf'
        exact hcommitted hc
      · exact .inr ⟨row, ⟨call, fresh, hm, hf⟩, rfl, rfl⟩
  · rename_i hi
    exact .inl ⟨he, fun hm => absurd hm hi⟩

end Cluster

end EspClawPlatform.Identity
