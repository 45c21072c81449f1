import EspClawPlatform.Lib.Work
import EspClawPlatform.Telemetry.TelemetryPollerService

namespace EspClawPlatform.Telemetry

open Run Bus

variable {parse : String → Option Json} {s t : State} {call : Nat} {f : Frame} {c : Cycle} {rest : List Pair}

/-- The pairs that have not been answered yet; there are none to tell before the devices are known. -/
def Frame.left : Frame → Option (List Pair)
  | .finding => none
  | .asking pair rest => some (pair :: rest)
  | .dispatching _ rest | .recording _ _ _ rest => some rest

/-- Every pair up to those left has been answered, and dispatched exactly when it was answered with yes. -/
structure Cycle.Follows (c : Cycle) (left : Option (List Pair)) : Prop where
  pairs : c.online.map pollPairs = left.map (c.answers.map Prod.fst ++ ·)
  unasked : left = none → c.answers = []
  dispatched : c.dispatched = (c.answers.filter Prod.snd).map Prod.fst

structure Core (s : State) : Prop where
  flag : ∀ call f, s.frames.get call = some f → s.polling = true
  busy : s.polling = true → ∃ call f, s.frames.get call = some f
  one : ∀ call f call' f', s.frames.get call = some f → s.frames.get call' = some f' → call = call'
  pending : ∀ call, s.promises.get call = some .pending ↔ ∃ f, s.frames.get call = some f
  fresh : ∀ call, s.calls ≤ call → s.promises.get call = none ∧ s.cycles.get call = none
  known : ∀ call c, s.cycles.get call = some c → s.promises.get call ≠ none
  ended : ∀ call c, s.cycles.get call = some c → s.promises.get call = some .fulfilled → c.Follows (some [])

structure PollInv (s : State) : Prop where
  core : Core s
  active : ∀ call f, s.frames.get call = some f → ∃ c, s.cycles.get call = some c ∧ c.Follows f.left

theorem Core.begun (h : Core s) (hf : s.frames.get call = some f) : call < s.calls := by
  by_contra hle
  have hnone := (h.fresh call (Nat.not_lt.mp hle)).1
  rw [(h.pending call).mpr ⟨f, hf⟩] at hnone
  cases hnone

theorem core_record (h : Core s) (hf : s.frames.get call = some f) (g : Cycle → Cycle) : Core (s.record call g) where
  flag := h.flag
  busy := h.busy
  one := h.one
  pending := h.pending
  fresh := by
    intro other hle
    have hne : other ≠ call := Nat.ne_of_gt (Nat.lt_of_lt_of_le (h.begun hf) hle)
    exact ⟨(h.fresh other hle).1, (Table.get_set_of_ne s.cycles _ hne).trans (h.fresh other hle).2⟩
  known := by
    intro other d hd
    by_cases hne : other = call
    · subst hne
      exact Option.ne_none_iff_exists'.mpr ⟨.pending, (h.pending other).mpr ⟨f, hf⟩⟩
    · exact h.known other d ((Table.get_set_of_ne s.cycles _ hne).symm.trans hd)
  ended := by
    intro other d hd hp
    by_cases hne : other = call
    · subst hne
      cases ((h.pending other).mpr ⟨f, hf⟩).symm.trans hp
    · exact h.ended other d ((Table.get_set_of_ne s.cycles _ hne).symm.trans hd) hp

theorem get_record (hc : s.cycles.get call = some c) (g : Cycle → Cycle) :
    (s.record call g).cycles.get call = some (g c) := by
  rw [State.record, hc]
  exact Table.get_set_self _ _ _

theorem inv_goes {f' : Frame} (h : Core s) (hf : s.frames.get call = some f) (hc : s.cycles.get call = some c)
    (hfollows : c.Follows f'.left) : PollInv { s with frames := s.frames.set call f' } := by
  have hget : ∀ other g, (s.frames.set call f').get other = some g → other = call ∧ g = f' := by
    intro other g hg
    rw [Table.get_set] at hg
    split at hg
    · rename_i he
      exact ⟨he, (Option.some.inj hg).symm⟩
    · rename_i hne
      exact absurd (h.one other g call f hg hf) hne
  constructor
  · refine ⟨?_, ?_, ?_, ?_, h.fresh, h.known, h.ended⟩
    · intro _ _ _
      exact h.flag call f hf
    · intro _
      exact ⟨call, f', Table.get_set_self _ _ _⟩
    · intro other g other' g' hg hg'
      rw [(hget other g hg).1, (hget other' g' hg').1]
    · intro other
      rw [h.pending other]
      constructor
      · rintro ⟨g, hg⟩
        exact ⟨f', h.one call f other g hf hg ▸ Table.get_set_self _ _ _⟩
      · rintro ⟨g, hg⟩
        exact ⟨f, (hget other g hg).1 ▸ hf⟩
  · intro other g hg
    obtain ⟨rfl, rfl⟩ := hget other g hg
    exact ⟨c, hc, hfollows⟩

theorem inv_finish {promise : PromiseState} (h : Core s) (hf : s.frames.get call = some f)
    (hp : promise ≠ .pending)
    (hended : promise = .fulfilled → ∀ c, s.cycles.get call = some c → c.Follows (some [])) :
    PollInv (s.finish call promise) := by
  have hnone : ∀ other, (s.frames.erase call).get other = none := by
    intro other
    rw [Table.get_erase]
    split
    · rfl
    · rename_i hne
      rw [Option.eq_none_iff_forall_not_mem]
      intro g hg
      exact hne (h.one other g call f hg hf)
  constructor
  · refine ⟨?_, nofun, ?_, ?_, ?_, ?_, ?_⟩
    · intro other g hg
      rw [State.finish, hnone] at hg
      cases hg
    · intro other g _ _ hg
      rw [State.finish, hnone] at hg
      cases hg
    · intro other
      constructor
      · intro hpending
        rw [State.finish, Table.get_set] at hpending
        split at hpending
        · exact absurd (Option.some.inj hpending) hp
        · rename_i hne
          obtain ⟨g, hg⟩ := (h.pending other).mp hpending
          exact absurd (h.one other g call f hg hf) hne
      · rintro ⟨g, hg⟩
        rw [State.finish, hnone] at hg
        cases hg
    · intro other hle
      have hne : other ≠ call := Nat.ne_of_gt (Nat.lt_of_lt_of_le (h.begun hf) hle)
      exact ⟨(Table.get_set_of_ne s.promises _ hne).trans (h.fresh other hle).1, (h.fresh other hle).2⟩
    · intro other d hd
      rw [State.finish, Table.get_set]
      split
      · nofun
      · exact h.known other d hd
    · intro other d hd hfulfilled
      rw [State.finish, Table.get_set] at hfulfilled
      split at hfulfilled
      · rename_i he
        exact hended (Option.some.inj hfulfilled) d (he ▸ hd)
      · exact h.ended other d hd hfulfilled
  · intro other g hg
    rw [State.finish, hnone] at hg
    cases hg

theorem inv_next (h : Core s) (hf : s.frames.get call = some f) (hc : s.cycles.get call = some c)
    (hfollows : c.Follows (some rest)) : PollInv (s.next call rest) := by
  cases rest with
  | nil =>
      refine inv_finish h hf nofun ?_
      intro _ d hd
      obtain rfl := Option.some.inj (hc.symm.trans hd)
      exact hfollows
  | cons pair rest => exact inv_goes h hf hc hfollows

theorem follows_found (devices : List String) (h : c.Follows none) :
    Cycle.Follows { c with online := some devices } (some (pollPairs devices)) where
  pairs := by
    rw [h.unasked rfl]
    rfl
  unasked := nofun
  dispatched := h.dispatched

theorem follows_answer {pair : Pair} (h : c.Follows (some (pair :: rest))) (answer : Bool) :
    Cycle.Follows
      { c with
        answers := c.answers ++ [(pair, answer)]
        dispatched := c.dispatched ++ if answer then [pair] else [] }
      (some rest) where
  pairs := by
    rw [h.pairs]
    simp only [Option.map_some, List.map_append, List.map_cons, List.map_nil, List.append_assoc,
      List.cons_append, List.nil_append]
  unasked := nofun
  dispatched := by
    rw [h.dispatched, List.filter_append, List.map_append]
    cases answer <;> rfl

theorem inv_init : PollInv {} where
  core :=
    { flag := nofun
      busy := nofun
      one := nofun
      pending := fun _ => ⟨nofun, nofun⟩
      fresh := fun _ _ => ⟨rfl, rfl⟩
      known := nofun
      ended := nofun }
  active := nofun

theorem inv_skip (h : PollInv s) :
    PollInv { s with promises := s.promises.set s.calls .fulfilled, calls := s.calls + 1 } := by
  refine ⟨⟨h.core.flag, h.core.busy, h.core.one, ?_, ?_, ?_, ?_⟩, h.active⟩
  · intro other
    rw [← h.core.pending other, Table.get_set]
    split
    · rename_i he
      rw [he, (h.core.fresh s.calls (Nat.le_refl _)).1]
      exact ⟨nofun, nofun⟩
    · exact Iff.rfl
  · intro other hle
    rw [Table.get_set_of_ne _ _ (Nat.ne_of_gt hle)]
    exact h.core.fresh other (Nat.le_of_succ_le hle)
  · intro other d hd
    rw [Table.get_set]
    split
    · nofun
    · exact h.core.known other d hd
  · intro other d hd hfulfilled
    rw [Table.get_set] at hfulfilled
    split at hfulfilled
    · rename_i he
      rw [he, (h.core.fresh s.calls (Nat.le_refl _)).2] at hd
      cases hd
    · exact h.core.ended other d hd hfulfilled

theorem inv_begin (h : PollInv s) (hp : ¬ s.polling = true) :
    PollInv
      { s with
        polling := true
        frames := s.frames.set s.calls .finding
        promises := s.promises.set s.calls .pending
        cycles := s.cycles.set s.calls {}
        calls := s.calls + 1 } := by
  have hget : ∀ other f, (s.frames.set s.calls .finding).get other = some f →
      other = s.calls ∧ f = .finding := by
    intro other f hf
    rw [Table.get_set] at hf
    split at hf
    · rename_i he
      exact ⟨he, (Option.some.inj hf).symm⟩
    · exact absurd (h.core.flag other f hf) hp
  refine ⟨⟨fun _ _ _ => rfl, fun _ => ⟨s.calls, .finding, Table.get_set_self _ _ _⟩, ?_, ?_, ?_, ?_, ?_⟩, ?_⟩
  · intro other f other' f' hf hf'
    rw [(hget other f hf).1, (hget other' f' hf').1]
  · intro other
    by_cases he : other = s.calls
    · rw [he]
      exact ⟨fun _ => ⟨.finding, Table.get_set_self _ _ _⟩, fun _ => Table.get_set_self _ _ _⟩
    · rw [Table.get_set_of_ne _ _ he, Table.get_set_of_ne _ _ he]
      exact h.core.pending other
  · intro other hle
    rw [Table.get_set_of_ne _ _ (Nat.ne_of_gt hle), Table.get_set_of_ne _ _ (Nat.ne_of_gt hle)]
    exact h.core.fresh other (Nat.le_of_succ_le hle)
  · intro other d hd
    by_cases he : other = s.calls
    · rw [he, Table.get_set_self]
      nofun
    · rw [Table.get_set_of_ne _ _ he] at hd ⊢
      exact h.core.known other d hd
  · intro other d hd hfulfilled
    by_cases he : other = s.calls
    · rw [he, Table.get_set_self] at hfulfilled
      cases hfulfilled
    · rw [Table.get_set_of_ne _ _ he] at hd hfulfilled
      exact h.core.ended other d hd hfulfilled
  · intro other f hf
    obtain ⟨rfl, rfl⟩ := hget other f hf
    exact ⟨{}, Table.get_set_self _ _ _, rfl, fun _ => rfl, rfl⟩

theorem inv_pollOnce (h : PollInv s) (ht : step parse s .pollOnce = some t) : PollInv t := by
  obtain rfl := Option.some.inj ht
  split
  · exact inv_skip h
  · exact inv_begin h ‹_›

def Frame.escapes (value : Thrown) : Frame → Bool
  | .finding | .asking .. => true
  | .dispatching .. | .recording .. => value.message.isNone

theorem rejected_eq (s : State) (call : Nat) (value : Thrown) (f : Frame) :
    f.rejected s call value =
      if f.escapes value then s.finish call .rejected else s.next call (f.left.getD []) := by
  cases f with
  | finding | asking => rfl
  | dispatching pair rest | recording pair recordedAt result rest =>
      simp only [Frame.rejected]
      split
      · rename_i hm
        exact (if_pos (by rw [Frame.escapes, hm]; rfl)).symm
      · rename_i text hm
        exact (if_neg (by rw [Frame.escapes, hm]; exact Bool.false_ne_true)).symm

inductive PollMove (parse : String → Option Json) (s t : State) : Action → Prop
  | tick (ms : Nat) (ht : t = { s with now := s.now + ms }) : PollMove parse s t (.tick ms)
  | pollOnce (ht : step parse s .pollOnce = some t) : PollMove parse s t .pollOnce
  | online (call : Nat) (devices : List String) (hf : s.frames.get call = some .finding)
      (ht : t = (s.record call fun c => { c with online := some devices }).next call (pollPairs devices)) :
      PollMove parse s t (.online call devices)
  | has (call : Nat) (pair : Pair) (rest : List Pair) (hf : s.frames.get call = some (.asking pair rest))
      (ht : t = { (s.record call fun c => { c with answers := c.answers ++ [(pair, true)] }).record call
          fun c => { c with dispatched := c.dispatched ++ [pair] } with
        frames := s.frames.set call (.dispatching pair rest) }) :
      PollMove parse s t (.hasGroup call true)
  | hasNot (call : Nat) (pair : Pair) (rest : List Pair) (hf : s.frames.get call = some (.asking pair rest))
      (ht : t = (s.record call fun c => { c with answers := c.answers ++ [(pair, false)] }).next call rest) :
      PollMove parse s t (.hasGroup call false)
  | response (call : Nat) (ok : Bool) (result : Option String) (pair : Pair) (rest : List Pair)
      (hf : s.frames.get call = some (.dispatching pair rest))
      (ht : t = if ok then { s with frames := s.frames.set call (.recording pair s.now result rest) }
        else s.next call rest) :
      PollMove parse s t (.response call ok result)
  | recorded (call : Nat) (pair : Pair) (recordedAt : Nat) (result : Option String) (rest : List Pair)
      (hf : s.frames.get call = some (.recording pair recordedAt result rest)) (telemetry : Table TelemetrySample)
      (events : List Published) (ht : t = { s with telemetry := telemetry, events := events }.next call rest) :
      PollMove parse s t (.recorded call)
  | rejected (call : Nat) (value : Thrown) (f : Frame) (hf : s.frames.get call = some f)
      (ht : t = f.rejected s call value) : PollMove parse s t (.rejected call value)

theorem poll_move {a : Action} (h : step parse s a = some t) : PollMove parse s t a := by
  cases a with
  | tick ms => exact .tick ms (Option.some.inj h).symm
  | pollOnce => exact .pollOnce h
  | online call devices =>
      simp only [step] at h
      split at h
      · rename_i hf
        exact .online call devices hf (Option.some.inj h).symm
      · cases h
  | hasGroup call answer =>
      simp only [step] at h
      split at h
      · rename_i pair rest hf
        cases answer with
        | true => exact .has call pair rest hf (Option.some.inj h).symm
        | false => exact .hasNot call pair rest hf (Option.some.inj h).symm
      · cases h
  | response call ok result =>
      simp only [step] at h
      split at h
      · rename_i pair rest hf
        exact .response call ok result pair rest hf (Option.some.inj h).symm
      · cases h
  | recorded call =>
      simp only [step] at h
      split at h
      · rename_i pair recordedAt result rest hf
        obtain ⟨stored, -, rfl⟩ := Option.map_eq_some_iff.mp h
        exact .recorded call pair recordedAt result rest hf _ _ rfl
      · cases h
  | rejected call value =>
      obtain ⟨f, hf, rfl⟩ := Option.map_eq_some_iff.mp h
      exact .rejected call value f hf rfl

theorem pollInv_step {a : Action} (h : PollInv s) (hs : step parse s a = some t) : PollInv t := by
  cases poll_move hs with
  | tick ms ht =>
      subst ht
      exact ⟨⟨h.core.flag, h.core.busy, h.core.one, h.core.pending, h.core.fresh, h.core.known, h.core.ended⟩, h.active⟩
  | pollOnce ht => exact inv_pollOnce h ht
  | online call devices hf ht =>
      subst ht
      obtain ⟨c, hc, hfollows⟩ := h.active call _ hf
      exact inv_next (core_record h.core hf _) hf (get_record hc _) (follows_found devices hfollows)
  | has call pair rest hf ht =>
      subst ht
      obtain ⟨c, hc, hfollows⟩ := h.active call _ hf
      exact inv_goes (core_record (core_record h.core hf _) hf _) hf (get_record (get_record hc _) _)
        (follows_answer hfollows true)
  | hasNot call pair rest hf ht =>
      subst ht
      obtain ⟨c, hc, hfollows⟩ := h.active call _ hf
      have hanswered := follows_answer hfollows false
      simp only [Bool.false_eq_true, if_false, List.append_nil] at hanswered
      exact inv_next (core_record h.core hf _) hf (get_record hc _) hanswered
  | response call ok result pair rest hf ht =>
      subst ht
      obtain ⟨c, hc, hfollows⟩ := h.active call _ hf
      cases ok with
      | true => exact inv_goes h.core hf hc hfollows
      | false => exact inv_next h.core hf hc hfollows
  | recorded call pair recordedAt result rest hf telemetry events ht =>
      subst ht
      obtain ⟨c, hc, hfollows⟩ := h.active call _ hf
      have hcore : Core { s with telemetry := telemetry, events := events } :=
        ⟨h.core.flag, h.core.busy, h.core.one, h.core.pending, h.core.fresh, h.core.known, h.core.ended⟩
      exact inv_next hcore hf hc hfollows
  | rejected call value f hf ht =>
      subst ht
      rw [rejected_eq]
      split
      · exact inv_finish h.core hf nofun nofun
      · rename_i hcaught
        obtain ⟨c, hc, hfollows⟩ := h.active call f hf
        have hleft : f.left = some (f.left.getD []) := by
          cases f with
          | finding => exact absurd rfl hcaught
          | asking | dispatching | recording => rfl
        exact inv_next h.core hf hc (hleft ▸ hfollows)

theorem pollInv_run {as : List Action} (h : run (step parse) {} as = some s) : PollInv s :=
  invariant (fun _ _ _ hi hs => pollInv_step hi hs) h inv_init

def Rejected (s : State) : Prop := ∃ call, s.promises.get call = some .rejected

/-- Neither `findOnline` nor `hasCapabilityGroup` rejects, and what else rejects has a readable message. -/
def Survives (s : State) : Action → Prop
  | .rejected call value => ∀ f ∈ s.frames.get call, f.escapes value = false
  | _ => True

instance (s : State) : (a : Action) → Decidable (Survives s a)
  | .rejected call value => inferInstanceAs (Decidable (∀ f ∈ s.frames.get call, f.escapes value = false))
  | .tick .. | .pollOnce | .online .. | .hasGroup .. | .response .. | .recorded .. =>
      inferInstanceAs (Decidable True)

theorem rejected_set {promise : PromiseState} {promises : Table (Nat × PromiseState)}
    (h : promises.get call ≠ some .rejected) :
    (∃ other, (promises.set call promise).get other = some .rejected) ↔
      (∃ other, promises.get other = some .rejected) ∨ promise = .rejected := by
  constructor
  · rintro ⟨other, ho⟩
    rw [Table.get_set] at ho
    split at ho
    · exact .inr (Option.some.inj ho)
    · exact .inl ⟨other, ho⟩
  · rintro (⟨other, ho⟩ | rfl)
    · have hne : other ≠ call := fun he => h (he ▸ ho)
      exact ⟨other, (Table.get_set_of_ne promises promise hne).trans ho⟩
    · exact ⟨call, Table.get_set_self promises call _⟩

theorem rejected_finish {promise : PromiseState} (h : Core s) (hf : s.frames.get call = some f) :
    Rejected (s.finish call promise) ↔ Rejected s ∨ promise = .rejected := by
  apply rejected_set
  rw [(h.pending call).mpr ⟨f, hf⟩]
  nofun

theorem rejected_next (h : Core s) (hf : s.frames.get call = some f) : Rejected (s.next call rest) ↔ Rejected s := by
  cases rest with
  | nil =>
      rw [State.next, rejected_finish h hf]
      simp only [reduceCtorEq, or_false]
  | cons pair rest => exact Iff.rfl

theorem rejected_step {a : Action} (h : PollInv s) (hs : step parse s a = some t) :
    Rejected t ↔ Rejected s ∨ ¬ Survives s a := by
  have htrue : ∀ p : Prop, p ↔ p ∨ ¬ True := fun p => by simp only [not_true_eq_false, or_false]
  cases poll_move hs with
  | tick ms ht =>
      subst ht
      exact htrue _
  | pollOnce ht =>
      obtain rfl := Option.some.inj ht
      have hnew : s.promises.get s.calls ≠ some .rejected := by
        rw [(h.core.fresh s.calls (Nat.le_refl _)).1]
        nofun
      refine Iff.trans ?_ (htrue _)
      split
      · exact (rejected_set hnew).trans (by simp only [reduceCtorEq, or_false]; rfl)
      · exact (rejected_set hnew).trans (by simp only [reduceCtorEq, or_false]; rfl)
  | online call devices hf ht =>
      subst ht
      exact (rejected_next (core_record h.core hf _) hf).trans (htrue _)
  | has call pair rest hf ht =>
      subst ht
      exact htrue _
  | hasNot call pair rest hf ht =>
      subst ht
      exact (rejected_next (core_record h.core hf _) hf).trans (htrue _)
  | response call ok result pair rest hf ht =>
      subst ht
      cases ok with
      | true => exact htrue _
      | false => exact (rejected_next h.core hf).trans (htrue _)
  | recorded call pair recordedAt result rest hf telemetry events ht =>
      subst ht
      have hcore : Core { s with telemetry := telemetry, events := events } :=
        ⟨h.core.flag, h.core.busy, h.core.one, h.core.pending, h.core.fresh, h.core.known, h.core.ended⟩
      exact (rejected_next hcore hf).trans (htrue _)
  | rejected call value f hf ht =>
      subst ht
      have hsurvives : ¬ Survives s (.rejected call value) ↔ f.escapes value = true := by
        simp only [Survives, hf, Option.mem_def, Option.some.injEq, forall_eq', Bool.not_eq_false]
      rw [rejected_eq, hsurvives]
      split
      · rename_i he
        rw [rejected_finish h.core hf]
        simp only [he, or_true]
      · rename_i he
        rw [rejected_next h.core hf]
        simp only [he, Bool.false_eq_true, or_false]

/-- How many calls, at most, a call of `pollOnce` still awaits, bar those for the
devices that `findOnline` is yet to tell. -/
def Frame.awaits : Frame → Nat
  | .finding => 1
  | .asking _ rest => 3 * rest.length + 3
  | .dispatching _ rest => 3 * rest.length + 2
  | .recording _ _ _ rest => 3 * rest.length + 1

def State.awaits (s : State) : Nat := s.frames.total fun row => row.2.awaits

def Action.settles : Action → Bool
  | .tick .. | .pollOnce => false
  | .online .. | .hasGroup .. | .response .. | .recorded .. | .rejected .. => true

/-- A cycle has `findOnline` to await, and three calls for each pair of what it answers. -/
def awaited (_ : State) : Action → List Nat
  | .pollOnce => [1]
  | .online _ devices => [3 * (pollPairs devices).length]
  | _ => []

theorem awaits_goes (hf : s.frames.get call = some f) {f' : Frame} (hless : f'.awaits + 1 = f.awaits)
    (ht : t.frames = s.frames.set call f') : t.awaits + 1 = s.awaits := by
  have hgoes := Table.total_set hf Frame.awaits f'
  rw [State.awaits, State.awaits, ht]
  omega

theorem awaits_finish (hf : s.frames.get call = some f) (promise : PromiseState) :
    (s.finish call promise).awaits + f.awaits = s.awaits :=
  Table.total_erase_of_get hf Frame.awaits

theorem awaits_next (hf : s.frames.get call = some f) (rest : List Pair) :
    (s.next call rest).awaits + f.awaits = s.awaits + 3 * rest.length := by
  cases rest with
  | nil => exact awaits_finish hf .fulfilled
  | cons pair rest => exact Table.total_set hf Frame.awaits (.asking pair rest)

theorem awaits_on (hf : s.frames.get call = some f) {rest : List Pair} (hless : 3 * rest.length < f.awaits) :
    (s.next call rest).awaits + 1 ≤ s.awaits := by
  have hnext := awaits_next hf rest
  omega

theorem awaits_rejected (hf : s.frames.get call = some f) (value : Thrown) :
    (f.rejected s call value).awaits + 1 ≤ s.awaits := by
  rw [rejected_eq]
  split
  · have hfinish := awaits_finish hf .rejected
    have hpos : 0 < f.awaits := by cases f <;> exact Nat.succ_pos _
    omega
  · rename_i hcaught
    apply awaits_on hf
    cases f with
    | finding | asking => exact absurd rfl hcaught
    | dispatching pair rest | recording pair recordedAt result rest =>
        simp only [Frame.left, Option.getD_some, Frame.awaits]
        omega

/-- Whatever settles, and how, less is awaited afterwards than the cycle has been given. -/
theorem awaits_step {a : Action} (hs : step parse s a = some t) :
    t.awaits + a.settles.toNat ≤ s.awaits + (awaited s a).sum := by
  cases poll_move hs with
  | tick ms ht =>
      subst ht
      exact Nat.le_refl _
  | pollOnce ht =>
      obtain rfl := Option.some.inj ht
      split
      · exact Nat.le_add_right _ _
      · have hsave := Table.total_save s.frames (fun row => row.2.awaits) (s.calls, .finding)
        exact Nat.le_of_add_right_le (Nat.le_of_eq hsave)
  | online call devices hf ht =>
      subst ht
      exact Nat.le_of_eq (awaits_next (s := s.record call _) hf (pollPairs devices))
  | has call pair rest hf ht =>
      subst ht
      exact Nat.le_of_eq (awaits_goes hf rfl rfl)
  | hasNot call pair rest hf ht =>
      subst ht
      exact awaits_on (s := s.record call _) hf (by simp only [Frame.awaits]; omega)
  | response call ok result pair rest hf ht =>
      subst ht
      cases ok with
      | true => exact Nat.le_of_eq (awaits_goes hf rfl rfl)
      | false => exact awaits_on hf (by simp only [Frame.awaits]; omega)
  | recorded call pair recordedAt result rest hf telemetry events ht =>
      subst ht
      exact awaits_on (s := { s with telemetry := telemetry, events := events }) hf (Nat.lt_succ_self _)
  | rejected call value f hf ht =>
      subst ht
      exact awaits_rejected hf value

/-- In every run the cycles await one call each and three for each pair that they
learn of, at most; and when no awaited call is left to settle, no cycle is active. -/
theorem cycles_end {as : List Action} (h : run (step parse) {} as = some s) :
    as.countP Action.settles ≤ (trace (step parse) awaited {} as).sum ∧
    (Idle (step parse) Action.settles s → s.polling = false) := by
  constructor
  · have hwork := work_along Action.settles State.awaits
      (fun _ _ _ hi hs => ⟨pollInv_step hi hs, awaits_step hs⟩) h inv_init
    exact Nat.le_of_add_right_le (Nat.le_trans hwork (Nat.le_of_eq (Nat.zero_add _)))
  · intro hidle
    rw [← Bool.not_eq_true]
    intro hp
    obtain ⟨call, f, hf⟩ := (pollInv_run h).core.busy hp
    have hnone := hidle (.rejected call (.error "")) rfl
    rw [step, hf] at hnone
    cases hnone

def State.NeverRejects (s : State) : Prop := ∀ call, s.promises.get call ≠ some .rejected

/-- A call that is over and knew the devices has had an answer for every pair,
and has dispatched each pair that was answered with yes once, in turn. -/
def State.PollsEveryPair (s : State) : Prop :=
  ∀ call c devices, s.cycles.get call = some c → c.online = some devices → s.promises.get call ≠ some .pending →
    c.answers.map Prod.fst = pollPairs devices ∧ c.dispatched = (c.answers.filter Prod.snd).map Prod.fst

/-- At most one cycle is active, and the flag tells whether one is. -/
def State.OneCycle (s : State) : Prop :=
  (∀ call f call' f', s.frames.get call = some f → s.frames.get call' = some f' → call = call') ∧
    (s.polling = true ↔ ∃ call f, s.frames.get call = some f)

theorem oneCycle_of_inv (h : PollInv s) : s.OneCycle :=
  ⟨h.core.one, h.core.busy, fun ⟨call, f, hf⟩ => h.core.flag call f hf⟩

theorem pollsEveryPair_of_inv (h : PollInv s) (hn : s.NeverRejects) : s.PollsEveryPair := by
  intro call c devices hc hd hover
  cases hp : s.promises.get call with
  | none => exact absurd hp (h.core.known call c hc)
  | some promise =>
      cases promise with
      | pending => exact absurd hp hover
      | rejected => exact absurd hp (hn call)
      | fulfilled =>
          have hfollows := h.core.ended call c hc hp
          have hpairs := hfollows.pairs
          rw [hd] at hpairs
          refine ⟨?_, hfollows.dispatched⟩
          rw [← List.append_nil (c.answers.map Prod.fst)]
          exact (Option.some.inj hpairs).symm

/-- In exactly the runs in which neither `findOnline` nor `hasCapabilityGroup`
rejects, and nothing else rejects without a readable message, no call rejects
and every cycle polls every pair; only one cycle is ever active. -/
theorem poll_survives_iff {as : List Action} (h : run (step parse) {} as = some s) :
    (s.NeverRejects ∧ s.PollsEveryPair ∧ s.OneCycle) ↔ Along (step parse) Survives {} as := by
  have hi := pollInv_run h
  have hflaw := flaw_iff (fun _ _ _ hi hs => pollInv_step hi hs) (fun _ _ _ hi hs => rejected_step hi hs) h inv_init
  have hfirst : ¬ Rejected {} := fun ⟨_, h⟩ => by cases h
  rw [iff_false_intro hfirst, false_or] at hflaw
  have hnever : s.NeverRejects ↔ ¬ Rejected s := by
    rw [State.NeverRejects, Rejected, not_exists]
  rw [hnever, hflaw, not_not]
  constructor
  · intro hall
    exact hall.1
  · intro hC
    have hn : s.NeverRejects := hnever.mpr fun hr => hflaw.mp hr hC
    exact ⟨hC, pollsEveryPair_of_inv hi hn, oneCycle_of_inv hi⟩

theorem lost_connection_ends_cycle : ¬ ∀ (parse : String → Option Json) (as : List Action) (s : State),
    run (step parse) {} as = some s → s.NeverRejects ∧ s.PollsEveryPair ∧ s.OneCycle := by
  intro h
  obtain ⟨hnever, -, -⟩ := h (fun _ => none)
    [.pollOnce, .online 0 ["d1", "d2"], .rejected 0 (.error "Connection terminated")] _ rfl
  exact hnever 0 (by decide +kernel)

def oneTimeout : List Action :=
  [.pollOnce, .online 0 ["d1", "d2"], .hasGroup 0 true, .rejected 0 (.error "timeout"), .hasGroup 0 false,
   .hasGroup 0 false, .hasGroup 0 false, .hasGroup 0 true, .response 0 true none, .recorded 0, .hasGroup 0 false,
   .hasGroup 0 false, .hasGroup 0 false]

theorem timeout_is_survived : ∃ s, run (step fun _ => none) {} oneTimeout = some s ∧
    s.NeverRejects ∧ s.PollsEveryPair ∧ s.OneCycle := by
  obtain ⟨s, hs⟩ : ∃ s, run (step fun _ => none) {} oneTimeout = some s :=
    Option.isSome_iff_exists.mp (by decide +kernel)
  exact ⟨s, hs, (poll_survives_iff hs).mpr (by decide +kernel)⟩

end EspClawPlatform.Telemetry
