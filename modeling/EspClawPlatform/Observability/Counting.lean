import Mathlib.Data.List.Flatten
import Mathlib.Data.List.Induction
import Mathlib.Data.List.Perm.Subperm
import EspClawPlatform.Bus.Drain
import EspClawPlatform.Observability.MetricsService

namespace EspClawPlatform.Observability

open Bus (HandlerRun Turn)
open Run

variable {s t : State} {b c : Bus.State Payload}

def Called (b : Bus.State Payload) (n : Nat) : Prop :=
  ∃ i r, b.runAt n i = some r ∧ r.sub = metrics ∧ r.phase ≠ .due

structure ServiceInv (b : Bus.State Payload) : Prop where
  delivery : Bus.DeliveryInv b
  listens : Bus.Listens metrics b

theorem serviceInv_init : ServiceInv init.bus where
  delivery := Bus.deliveryInv_first "**" { name := "observability.metrics" }
  listens := Bus.listens_first "**" { name := "observability.metrics" }

theorem serviceInv_step {a : Bus.Action Payload} (hi : ServiceInv b) (h : Bus.step b a = some c)
    (hkeep : a ≠ .unsubscribe metrics.id) : ServiceInv c where
  delivery := Bus.deliveryInv_step hi.delivery h
  listens := Bus.listens_step hi.listens h hkeep

theorem phase_fail (r : HandlerRun) (o : Bus.Outcome) (message : Option String) : (r.fail o message).phase ≠ .due := by
  cases message with
  | none => exact Bus.RunPhase.noConfusion
  | some text =>
      rw [HandlerRun.fail]
      simp only
      split <;> exact Bus.RunPhase.noConfusion

theorem phase_settle {r r' : HandlerRun} {result : Except Bus.Thrown Unit} (h : r.settle result = some r') :
    r.phase = .running ∧ r'.phase ≠ .due := by
  unfold HandlerRun.settle at h
  split at h
  · refine ⟨‹_›, ?_⟩
    cases result with
    | ok value => cases h; exact Bus.RunPhase.noConfusion
    | error thrown => cases h; exact phase_fail _ _ _
  · cases h

theorem phase_timeout {r r' : HandlerRun} (h : r.timeout = some r') : r.phase = .running ∧ r'.phase ≠ .due := by
  rw [HandlerRun.timeout] at h
  split at h <;> cases h
  exact ⟨‹_›, phase_fail _ _ _⟩

def calls (b : Bus.State Payload) : Bus.Action Payload → List Nat
  | .invoke link target => if (b.heardBy metrics link target).isSome then [link] else []
  | _ => []

theorem not_called_of_invoke {n i : Nat} (hi : ServiceInv b) (h : Bus.step b (.invoke n i) = some c)
    (hh : (b.heardBy metrics n i).isSome) : ¬ Called b n := by
  rintro ⟨j, r, hr, hsub, hp⟩
  obtain ⟨event, he⟩ := Option.isSome_iff_exists.mp hh
  obtain ⟨d, -, hheard⟩ := Bus.heardBy_of_runAt hr hsub
  obtain rfl := hi.listens.target_eq hheard he
  rcases Bus.runAt_onRun (n := n) (i := j) h with ⟨-, hne⟩ | ⟨-, -, r₀, r', hr₀, -, hm⟩
  · exact hne ⟨rfl, rfl⟩
  · obtain rfl := Option.some.inj (hr.symm.trans hr₀)
    exact hp (Bus.phase_invoke hm).1

theorem called_step {a : Bus.Action Payload} {n : Nat} (hi : ServiceInv b) (h : Bus.step b a = some c) :
    Called c n ↔ Called b n ∨ n ∈ calls b a := by
  constructor
  · rintro ⟨i, r, hr, hsub, hp⟩
    cases Bus.run_shape (n := n) (i := i) h with
    | same hsame => exact .inl ⟨i, r, hsame ▸ hr, hsub, hp⟩
    | chained ha hn hnew =>
        rw [hnew] at hr
        obtain ⟨other, -, rfl⟩ := Option.map_eq_some_iff.mp hr
        exact absurd rfl hp
    | @turn r₀ r' hr₀ hr' hm =>
        obtain rfl := Option.some.inj (hr.symm.trans hr')
        have hsub₀ : r₀.sub = metrics := (Bus.sub_turn hm).symm.trans hsub
        cases hm with
        | invoke hinvoke =>
            right
            obtain ⟨d, -, hheard⟩ := Bus.heardBy_of_runAt hr₀ hsub₀
            simp [calls, hheard]
        | settle hm => exact .inl ⟨i, r₀, hr₀, hsub₀, by simp [(phase_settle hm).1]⟩
        | timeout hm => exact .inl ⟨i, r₀, hr₀, hsub₀, by simp [(phase_timeout hm).1]⟩
        | wake hm =>
            rw [HandlerRun.wake] at hm
            split at hm <;> cases hm
            exact absurd rfl hp
  · rintro (⟨i, r, hr, hsub, hp⟩ | hcall)
    · cases Bus.run_shape (n := n) (i := i) h with
      | same hsame => exact ⟨i, r, hsame.trans hr, hsub, hp⟩
      | chained ha hn hnew =>
          obtain ⟨d, hd, -⟩ := Bus.runAt_eq_some.mp hr
          exact absurd (hi.delivery.lanes.fresh n d hd) (Nat.not_lt_of_ge hn.ge)
      | @turn r₀ r' hr₀ hr' hm =>
          obtain rfl := Option.some.inj (hr.symm.trans hr₀)
          refine ⟨i, r', hr', (Bus.sub_turn hm).trans hsub, ?_⟩
          cases hm with
          | invoke hm => exact absurd (Bus.phase_invoke hm).1 hp
          | settle hm => exact (phase_settle hm).2
          | timeout hm => exact (phase_timeout hm).2
          | wake hm =>
              rw [HandlerRun.wake] at hm
              split at hm
              · exact absurd ‹_› (Bus.tried_once hi.delivery hr (by rw [hsub]; rfl))
              · cases hm
    · cases a with
      | invoke l i =>
          rw [calls] at hcall
          split at hcall
          · rename_i hheard
            obtain rfl := List.mem_singleton.mp hcall
            obtain ⟨event, he⟩ := Option.isSome_iff_exists.mp hheard
            obtain ⟨d, r, hd, hr, -, -⟩ := Bus.heardBy_eq_some.mp he
            have hrun : b.runAt n i = some r := Bus.runAt_eq_some.mpr ⟨d, hd, hr⟩
            rcases Bus.runAt_onRun (n := n) (i := i) h with ⟨-, hne⟩ | ⟨-, -, r₀, r', hr₀, hr', hm⟩
            · exact absurd ⟨rfl, rfl⟩ hne
            · obtain rfl := Option.some.inj (hrun.symm.trans hr₀)
              have hsub := (Bus.invoke_move hm).1.sub_eq.trans (hi.listens.sub_of_heardBy he hrun)
              exact ⟨i, r', hr', hsub, by simp [(Bus.phase_invoke hm).2]⟩
          · cases hcall
      | _ => cases hcall

theorem pick_tally (k : BusCounter) (stats : Bus.EventBusStats) (phase : Bus.RunPhase) :
    k.pick stats ≤ k.pick (stats.tally phase) := by
  cases k <;> cases phase <;> simp [BusCounter.pick, Bus.EventBusStats.tally]

theorem pick_step {a : Bus.Action Payload} (h : Bus.step b a = some c) (k : BusCounter) :
    k.pick b.counters ≤ k.pick c.counters := by
  have honRun {n i : Nat} {move : HandlerRun → Option HandlerRun} {u : Bus.State Payload}
      (hu : b.onRun n i move = some u) : k.pick b.counters ≤ k.pick u.counters := by
    obtain ⟨d, r, r', -, -, -, -, -, rfl⟩ := Bus.onRun_eq_some hu
    exact pick_tally k _ _
  cases a with
  | publish event =>
      cases h
      rw [Bus.State.publish]
      split <;> cases k <;> simp [BusCounter.pick]
  | subscribe | unsubscribe => cases h; exact Nat.le_refl _
  | start l =>
      obtain ⟨d, -, hc⟩ := Option.bind_eq_some_iff.mp h
      split at hc
      · cases hc
      · split at hc <;> cases hc <;> exact Nat.le_refl _
  | invoke | settle | wake => exact honRun h
  | timeout =>
      obtain ⟨u, hu, rfl⟩ := Option.map_eq_some_iff.mp h
      apply Nat.le_trans (honRun hu)
      cases k <;> simp [BusCounter.pick]
  | finish l =>
      obtain ⟨d, -, hc⟩ := Option.bind_eq_some_iff.mp h
      split at hc
      · split at hc
        · cases hc; exact Nat.le_refl _
        · split at hc <;> cases hc
          exact Nat.le_refl _
      · cases hc
  | cleanup l =>
      obtain ⟨d, -, hc⟩ := Option.bind_eq_some_iff.mp h
      split at hc <;> cases hc
      exact Nat.le_refl _

structure Faithful (c : Exported) (total : Nat) : Prop where
  value : c.value = c.last
  behind : c.last ≤ total
  upwards : ∀ d ∈ c.increments, 0 ≤ d

theorem faithful_collect {e : Exported} {total : Nat} (h : Faithful e total) :
    Faithful (e.collect total) total where
  value := by
    have hvalue := h.value
    simp only [Exported.value] at hvalue
    simp only [Exported.value, Exported.collect, List.foldl_append, List.foldl_cons, List.foldl_nil, hvalue]
    omega
  behind := Nat.le_refl _
  upwards := by
    intro d hd
    rcases List.mem_append.mp hd with hd | hd
    · exact h.upwards d hd
    · rw [List.mem_singleton.mp hd]
      exact Int.sub_nonneg_of_le (Int.ofNat_le.mpr h.behind)

def published : Action → Option (DomainEvent Payload)
  | .bus action => Bus.publication action
  | .scrape => none

def observations (events : List (DomainEvent Payload)) (n : Nat) : List Sample :=
  events[n]?.toList.flatMap observeEvent

structure CountingInv (called : List Nat) (events : List (DomainEvent Payload)) (s : State) : Prop where
  service : ServiceInv s.bus
  numbered : Bus.Numbered events s.bus
  linked : Bus.Linked metrics events s.bus
  nodup : called.Nodup
  reached : ∀ n, n ∈ called ↔ Called s.bus n
  samples : s.samples = called.flatMap (observations events)
  faithful : ∀ k, Faithful (s.exported k) (k.pick s.bus.counters)

variable {called : List Nat} {events : List (DomainEvent Payload)}

theorem lt_of_called {n : Nat} (hn : Bus.Numbered events b) (hi : ServiceInv b) (h : Called b n) :
    n < events.length := by
  obtain ⟨i, r, hr, -⟩ := h
  obtain ⟨d, hd, -⟩ := Bus.runAt_eq_some.mp hr
  rw [← hn.count]
  exact hi.delivery.lanes.fresh n d hd

theorem observations_later {more : List (DomainEvent Payload)} {n : Nat} (h : n < events.length) :
    observations (events ++ more) n = observations events n := by
  rw [observations, observations, List.getElem?_append_left h]

theorem flatMap_later {more : List (DomainEvent Payload)} (h : ∀ n ∈ called, n < events.length) :
    called.flatMap (observations (events ++ more)) = called.flatMap (observations events) := by
  apply List.flatMap_congr
  intro n hn
  exact observations_later (h n hn)

theorem lt_of_calls {a : Bus.Action Payload} {n : Nat} (hn : Bus.Numbered events b) (h : n ∈ calls b a) :
    n < events.length := by
  cases a with
  | invoke l i =>
      rw [calls] at h
      split at h
      · obtain rfl := List.mem_singleton.mp h
        obtain ⟨event, he⟩ := Option.isSome_iff_exists.mp ‹_›
        obtain ⟨d, r, hd, -⟩ := Bus.heardBy_eq_some.mp he
        exact (List.getElem?_eq_some_iff.mp (hn.event n d hd)).1
      · cases h
  | _ => cases h

theorem observed_eq {a : Bus.Action Payload} (hn : Bus.Numbered events s.bus) :
    (s.observed a).toList.flatMap observeEvent = (calls s.bus a).flatMap (observations events) := by
  cases a with
  | invoke l i =>
      simp only [State.observed, calls]
      cases hheard : s.bus.heardBy metrics l i with
      | none => rfl
      | some event =>
          obtain ⟨d, r, hd, -, -, rfl⟩ := Bus.heardBy_eq_some.mp hheard
          simp [observations, hn.event l d hd]
  | _ => rfl

theorem countingInv_bus {a : Bus.Action Payload} {bus : Bus.State Payload} (hc : CountingInv called events s)
    (ho : s.outside a = true) (h : Bus.step s.bus a = some bus) :
    CountingInv (called ++ calls s.bus a) (events ++ (Bus.publication a).toList)
      { s with bus := bus, samples := s.samples ++ (s.observed a).toList.flatMap observeEvent } where
  service := by
    apply serviceInv_step hc.service h
    rintro rfl
    simp [State.outside] at ho
  numbered := Bus.numbered_step hc.numbered h
  linked := Bus.linked_step hc.service.listens hc.service.delivery.lanes hc.numbered h hc.linked
  nodup := by
    have hnew : ∀ n ∈ calls s.bus a, n ∉ called := by
      intro n hcall hmem
      cases a with
      | invoke l i =>
          rw [calls] at hcall
          split at hcall
          · obtain rfl := List.mem_singleton.mp hcall
            exact not_called_of_invoke hc.service h ‹_› ((hc.reached n).mp hmem)
          · cases hcall
      | _ => cases hcall
    have hone : (calls s.bus a).Nodup := by
      cases a with
      | invoke l i =>
          rw [calls]
          split
          · exact List.nodup_singleton l
          · exact List.nodup_nil
      | _ => exact List.nodup_nil
    exact hc.nodup.append hone fun n hold hcall => hnew n hcall hold
  reached := by
    intro n
    rw [List.mem_append, hc.reached, called_step hc.service h]
  samples := by
    have hold : ∀ n ∈ called, n < events.length := fun n hn => lt_of_called hc.numbered hc.service ((hc.reached n).mp hn)
    have hnew : ∀ n ∈ calls s.bus a, n < events.length := fun n hn => lt_of_calls hc.numbered hn
    rw [List.flatMap_append, flatMap_later hold, flatMap_later hnew, ← hc.samples, observed_eq hc.numbered]
  faithful := by
    intro k
    have hk := hc.faithful k
    exact ⟨hk.value, Nat.le_trans hk.behind (pick_step h k), hk.upwards⟩

theorem countingInv_step {a : Action} (hc : CountingInv called events s) (h : step s a = some t) :
    ∃ called', CountingInv called' (events ++ (published a).toList) t := by
  cases a with
  | bus action =>
      rw [step] at h
      split at h
      · obtain ⟨bus, hbus, rfl⟩ := Option.map_eq_some_iff.mp h
        exact ⟨_, countingInv_bus hc ‹_› hbus⟩
      · cases h
  | scrape =>
      obtain rfl := Option.some.inj h
      refine ⟨called, ?_⟩
      rw [published, Option.toList_none, List.append_nil]
      exact { hc with faithful := fun k => faithful_collect (hc.faithful k) }

theorem countingInv_init : CountingInv [] [] init where
  service := serviceInv_init
  numbered := Bus.numbered_first "**" { name := "observability.metrics" }
  linked := fun _ _ he => by cases he
  nodup := List.nodup_nil
  reached := by
    intro n
    refine ⟨fun h => (by cases h), ?_⟩
    rintro ⟨i, r, hr, -⟩
    cases hr
  samples := rfl
  faithful := fun _ => ⟨rfl, Nat.zero_le _, fun _ hd => by cases hd⟩

theorem countingInv_run {as : List Action} (h : run step init as = some s) :
    ∃ called, CountingInv called (as.filterMap published) s := by
  have hrun := log_along (f := published) (I := fun events s => ∃ called, CountingInv called events s)
    (fun _ _ _ _ hc hs => hc.elim fun _ hc => countingInv_step hc hs) h ⟨[], countingInv_init⟩
  rwa [List.nil_append] at hrun

theorem flatMap_range (events : List (DomainEvent Payload)) :
    (List.range events.length).flatMap (observations events) = events.flatMap observeEvent := by
  induction events using List.reverseRecOn with
  | nil => rfl
  | append_singleton events event ih =>
      rw [List.length_append, List.length_singleton, List.range_succ, List.flatMap_append, List.flatMap_append,
        flatMap_later (fun n hn => List.mem_range.mp hn), ih]
      simp [observations]

def Action.Logs : Action → Prop
  | .bus action => Bus.LogsMessage action
  | .scrape => True

instance : ∀ a, Decidable (Action.Logs a)
  | .bus action => inferInstanceAs (Decidable (Bus.LogsMessage action))
  | .scrape => inferInstanceAs (Decidable True)

theorem calm_run {as : List Action} (h : run step init as = some s)
    (hlogs : Along step (fun _ => Action.Logs) init as) : ¬ Bus.Crashed s.bus := by
  apply invariant_along (P := fun s => ¬ Bus.Crashed s.bus) ?_ h hlogs
  · rintro ⟨n, d, hd, -⟩
    cases hd
  · intro s a t hcalm hl hs
    cases a with
    | bus action =>
        rw [step] at hs
        split at hs
        · obtain ⟨bus, hbus, rfl⟩ := Option.map_eq_some_iff.mp hs
          exact fun hcrash => hcalm (Bus.crashed_of_step hbus hl hcrash)
        · cases hs
    | scrape =>
        obtain rfl := Option.some.inj hs
        exact hcalm

def completion : DomainEvent Payload :=
  createEvent none "e1" "c1" 2
    { announce "module:commands" (.commandCompleted "cmd-1" "list_agents" .succeeded true 1500) with
      deviceId := some "ecda3b4ff7d4" }

def completed : List Action :=
  [.bus (.publish completion), .scrape, .bus (.start 0), .bus (.invoke 0 0), .bus (.settle 0 0 (.ok ())), .scrape,
   .bus (.finish 0), .bus (.cleanup 0)]

end EspClawPlatform.Observability
