import EspClawPlatform.Mqtt.Correlation

namespace EspClawPlatform.Mqtt

open Run

variable {config : Config} {s t : State}

theorem find_disarm (promises : List Nat) (commands : Table Command) (p : Nat) :
    (promises.foldl (fun commands promise => (commands.find promise).elim commands fun c =>
      commands.save { c with armed := false }) commands).find p =
        (commands.find p).map fun c => if p ∈ promises then { c with armed := false } else c := by
  induction promises generalizing commands with
  | nil => simp
  | cons promise promises ih =>
      rw [List.foldl_cons, ih]
      cases hf : commands.find promise with
      | none =>
          by_cases hp : p = promise
          · simp [hp, hf]
          · simp [hp]
      | some b =>
          have hb : b.promise = promise := Table.key_of_find hf
          by_cases hp : p = promise
          · subst hp
            have hself : (commands.save { b with armed := false }).find p = some { b with armed := false } := by
              rw [← hb]
              exact Table.find_save_self _ _
            simp [hf, hself]
          · have hother : (commands.save { b with armed := false }).find p = commands.find p :=
              Table.find_save_of_ne _ (hb ▸ hp)
            simp [hother, hp]

structure TimerInv (s : State) : Prop where
  pending : PendingInv s
  armed : ∀ id p c, s.pending.get id = some p → s.commands.find p = some c → c.armed = true
  own : ∀ p c, s.commands.find p = some c → c.armed = true → s.pending.get c.id = some p

theorem timerInv_empty (hc : s.commands = .empty) (hp : s.pending = .empty) : TimerInv s where
  pending :=
    { fresh := fun _ _ h => by rw [hc] at h; cases h
      waits := fun _ _ h => by rw [hp] at h; cases h }
  armed := fun _ _ _ h => by rw [hp] at h; cases h
  own := fun _ _ h => by rw [hc] at h; cases h

theorem TimerInv.waiting (hi : TimerInv s) {p : Nat} {c : Command} (hf : s.commands.find p = some c)
    (ha : c.armed = true) : c.state = .pending := by
  obtain ⟨b, m, hb, -, -, -, hstate⟩ := hi.pending.waits _ _ (hi.own p c hf ha)
  obtain rfl := Option.some.inj (hf.symm.trans hb)
  exact hstate

section Settle

variable {c : Command} {state : PromiseState}

theorem find_settle (hc : t.commands = s.commands.save (c.settle state)) (q : Nat) :
    t.commands.find q = if q = c.promise then some (c.settle state) else s.commands.find q := by
  rw [hc]
  exact Table.find_save _ _ _

theorem get_settle (hi : TimerInv s) (hown : s.pending.get c.id = some c.promise)
    (hp : t.pending = s.pending.erase c.id) {id : String} {q : Nat} :
    t.pending.get id = some q ↔ s.pending.get id = some q ∧ q ≠ c.promise := by
  rw [hp, Table.get_erase]
  split
  · rename_i hid
    subst hid
    simp only [reduceCtorEq, false_iff, not_and, not_not]
    exact fun hq => Option.some.inj (hq.symm.trans hown)
  · rename_i hid
    refine ⟨fun hq => ⟨hq, ?_⟩, And.left⟩
    rintro rfl
    obtain ⟨b, m, hb, hbid, -⟩ := hi.pending.waits _ _ hq
    obtain ⟨b', m', hb', hbid', -⟩ := hi.pending.waits _ _ hown
    obtain rfl := Option.some.inj (hb.symm.trans hb')
    exact hid (hbid.symm.trans hbid')

theorem timerInv_settle (hi : TimerInv s) (hf : s.commands.find c.promise = some c)
    (hown : s.pending.get c.id = some c.promise) (hp : t.pending = s.pending.erase c.id)
    (hs : t.sent = s.sent) (hc : t.commands = s.commands.save (c.settle state)) : TimerInv t where
  pending := pendingInv_settle hi.pending hf hp hs hc
  armed := by
    intro id q b hq hb
    obtain ⟨hq, hne⟩ := (get_settle hi hown hp).mp hq
    rw [find_settle hc, if_neg hne] at hb
    exact hi.armed id q b hq hb
  own := by
    intro q b hb ha
    rw [find_settle hc] at hb
    split at hb
    · cases hb
      cases ha
    · rename_i hne
      exact (get_settle hi hown hp).mpr ⟨hi.own q b hb ha, hne⟩

end Settle

theorem timerInv_rejected {c : Command} (hi : TimerInv s) (hn : c.promise = s.sent) (hu : c.armed = false)
    (hc : t.commands = s.commands.save c) (hp : t.pending = s.pending) (hs : t.sent = s.sent + 1) :
    TimerInv t where
  pending := pendingInv_rejected hi.pending hn hc hp hs
  armed := by
    intro id p b hw hb
    rw [hp] at hw
    obtain ⟨b', m, hb', -⟩ := hi.pending.waits id p hw
    rw [hc, Table.find_save_of_ne, hb'] at hb
    · exact hi.armed id p b hw (hb'.trans hb)
    · rw [key_command, hn]
      exact Nat.ne_of_lt (hi.pending.fresh p b' hb')
  own := by
    intro p b hb ha
    rw [hc, Table.find_save] at hb
    split at hb
    · cases hb
      cases hu.symm.trans ha
    · exact hp ▸ hi.own p b hb ha

theorem timerInv_await {deviceId : String} {timeoutMs : Nat} {m : Message} (hi : TimerInv s)
    (hfree : s.pending.get m.envelope.id = none) : TimerInv (s.await deviceId timeoutMs m) where
  pending := pendingInv_await hi.pending
  armed := by
    intro id p b hw hb
    simp only [State.await, Table.get_set, Table.find_save, key_command] at hw hb
    split at hb
    · cases hb
      rfl
    · rename_i hne
      split at hw
      · exact absurd (Option.some.inj hw).symm hne
      · exact hi.armed id p b hw hb
  own := by
    intro p b hb ha
    simp only [State.await, Table.get_set, Table.find_save, key_command] at hb ⊢
    split at hb
    · rename_i hp
      cases hb
      rw [if_pos rfl, hp]
    · have hown := hi.own p b hb ha
      rw [if_neg, hown]
      intro hid
      cases (hid ▸ hown).symm.trans hfree

theorem timerInv_destroy (hi : TimerInv s) (hp : t.pending = .empty) (hs : t.sent = s.sent)
    (hc : t.commands = s.clearTimers) : TimerInv t := by
  have hfind (p : Nat) : t.commands.find p = (s.commands.find p).map fun c =>
      if p ∈ s.pending.rows.map Prod.snd then { c with armed := false } else c :=
    hc ▸ find_disarm _ _ p
  refine ⟨⟨?_, ?_⟩, ?_, ?_⟩
  · intro p c hf
    rw [hfind, Option.map_eq_some_iff] at hf
    obtain ⟨b, hb, -⟩ := hf
    exact hs ▸ hi.pending.fresh p b hb
  · intro id p hw
    rw [hp] at hw
    cases hw
  · intro id p c hw
    rw [hp] at hw
    cases hw
  · intro p c hf ha
    rw [hfind, Option.map_eq_some_iff] at hf
    obtain ⟨b, hb, rfl⟩ := hf
    split at ha
    · cases ha
    · rename_i hn
      -- an armed timer belongs to an id in flight, and those are all cleared
      exact absurd (List.mem_map_of_mem (Table.get_eq_some.mp (hi.own p b hb ha))) hn

theorem timerInv_step {a : Action} (hi : TimerInv s) (h : step config s a = some t) : TimerInv t := by
  cases step_shape h with
  | still hc hp hs =>
      exact ⟨pendingInv_step hi.pending h, by rw [hc, hp]; exact hi.armed, by rw [hc, hp]; exact hi.own⟩
  | rejected hn hr hc hp hs hu => exact timerInv_rejected hi hn hu hc hp hs
  | sent hfree ht => exact ht ▸ timerInv_await hi hfree
  | response htopic hleaf hjson hr hw hp hs hc =>
      obtain ⟨c, m, hf, hid, -⟩ := hi.pending.waits _ _ hw
      rw [hf] at hc
      obtain rfl := Table.key_of_find hf
      exact timerInv_settle hi hf (hid ▸ hw) (hid ▸ hp) hs hc
  | timer hf hp hs hc ha => exact timerInv_settle hi hf (hi.own _ _ hf ha) hp hs hc
  | destroy hp hs hc => exact timerInv_destroy hi hp hs hc

theorem timerInv_run {connected : Bool} {as : List Action}
    (h : run (step config) (init connected) as = some s) :
    TimerInv s :=
  invariant (fun _ _ _ hi hs => timerInv_step hi hs) h (timerInv_empty rfl rfl)

/-- The promise is settled, or its id leads to it and its timer is still to fire. -/
def Command.Attended (s : State) (c : Command) : Prop :=
  c.state ≠ .pending ∨ s.pending.get c.id = some c.promise ∧ c.armed = true

def NothingAbandoned (s : State) : Prop := ∀ p c, s.commands.find p = some c → c.Attended s

def SettlesRemoved (s t : State) : Prop :=
  ∀ id p, s.pending.get id = some p → t.pending.get id ≠ some p →
    ∃ c, t.commands.find p = some c ∧ c.state ≠ .pending

def DestroysIdle (s : State) : Action → Prop
  | .destroy => s.pending.rows = []
  | _ => True

instance : ∀ s a, Decidable (DestroysIdle s a)
  | s, .destroy => inferInstanceAs (Decidable (s.pending.rows = []))
  | _, .tick _ | _, .sendCommand .. | _, .message .. | _, .timer _ | _, .ended =>
      inferInstanceAs (Decidable True)

theorem destroysIdle_of_ne {a : Action} (ha : a ≠ .destroy) : DestroysIdle s a := by
  cases a with
  | destroy => exact absurd rfl ha
  | _ => trivial

theorem not_attended (hi : TimerInv s) {p : Nat} {c : Command} (hf : s.commands.find p = some c) :
    ¬ c.Attended s ↔ c.state = .pending ∧ c.armed = false := by
  have hp : c.promise = p := Table.key_of_find hf
  rw [Command.Attended, not_or, not_not, not_and]
  refine and_congr_right fun _ => ⟨fun h => ?_, fun h _ => by rw [h]; exact Bool.false_ne_true⟩
  cases ha : c.armed with
  | false => rfl
  | true => exact absurd ha (h (hp ▸ hi.own p c hf ha))

def Abandoned (s : State) : Prop := ∃ p c, s.commands.find p = some c ∧ c.state = .pending ∧ c.armed = false

theorem abandoned_iff (hi : TimerInv s) : Abandoned s ↔ ¬ NothingAbandoned s := by
  constructor
  · rintro ⟨p, c, hf, hflaw⟩ hall
    exact (not_attended hi hf).mpr hflaw (hall p c hf)
  · intro hn
    simp only [NothingAbandoned, not_forall] at hn
    obtain ⟨p, c, hf, hflaw⟩ := hn
    exact ⟨p, c, hf, (not_attended hi hf).mp hflaw⟩

theorem abandoned_save {c : Command} (hc : t.commands = s.commands.save c)
    (hnew : ¬ (c.state = .pending ∧ c.armed = false))
    (hold : ∀ b, s.commands.find c.promise = some b → ¬ (b.state = .pending ∧ b.armed = false)) :
    Abandoned t ↔ Abandoned s := by
  have hfind (p : Nat) : t.commands.find p = if p = c.promise then some c else s.commands.find p :=
    hc ▸ Table.find_save _ _ _
  constructor
  · rintro ⟨p, b, hf, hflaw⟩
    rw [hfind] at hf
    split at hf
    · cases hf
      exact absurd hflaw hnew
    · exact ⟨p, b, hf, hflaw⟩
  · rintro ⟨p, b, hf, hflaw⟩
    refine ⟨p, b, ?_, hflaw⟩
    rw [hfind, if_neg, hf]
    rintro rfl
    exact hold b hf hflaw

theorem abandoned_settle {c : Command} {state : PromiseState} (hf : s.commands.find c.promise = some c)
    (ha : c.armed = true) (hstate : state ≠ .pending) (hc : t.commands = s.commands.save (c.settle state)) :
    Abandoned t ↔ Abandoned s := by
  refine abandoned_save hc ?_ ?_
  · rintro ⟨hp, -⟩
    simp only [Command.settle] at hp
    split at hp
    · exact hstate hp
    · rename_i hn
      exact hn hp
  · intro b hb
    obtain rfl := Option.some.inj (hf.symm.trans hb)
    rw [ha]
    exact fun h => Bool.noConfusion h.2

theorem abandoned_destroy (hi : TimerInv s) (hc : t.commands = s.clearTimers) :
    Abandoned t ↔ Abandoned s ∨ s.pending.rows ≠ [] := by
  have hfind (p : Nat) : t.commands.find p = (s.commands.find p).map fun c =>
      if p ∈ s.pending.rows.map Prod.snd then { c with armed := false } else c :=
    hc ▸ find_disarm _ _ p
  constructor
  · rintro ⟨p, c, hf, hstate, ha⟩
    rw [hfind, Option.map_eq_some_iff] at hf
    obtain ⟨b, hb, rfl⟩ := hf
    split at ha
    · rename_i hm
      exact .inr fun hnil => by rw [hnil] at hm; cases hm
    · rename_i hm
      rw [if_neg hm] at hstate
      exact .inl ⟨p, b, hb, hstate, ha⟩
  · rintro (⟨p, c, hf, hstate, ha⟩ | hne)
    · refine ⟨p, _, by rw [hfind, hf]; rfl, ?_⟩
      split
      · exact ⟨hstate, rfl⟩
      · exact ⟨hstate, ha⟩
    · obtain ⟨⟨id, p⟩, hm⟩ := List.exists_mem_of_ne_nil _ hne
      obtain ⟨c, m, hf, -, -, -, hstate⟩ := hi.pending.waits id p (Table.get_eq_some.mpr hm)
      exact ⟨p, { c with armed := false }, by rw [hfind, hf, Option.map_some,
        if_pos (List.mem_map_of_mem hm)], hstate, rfl⟩

theorem abandoned_kept {a : Action} (hi : TimerInv s) (h : step config s a = some t) (ha : a ≠ .destroy) :
    Abandoned t ↔ Abandoned s := by
  cases step_shape h with
  | still hc => simp only [Abandoned, hc]
  | rejected hn hr hc hp hs hu =>
      obtain ⟨message, hr⟩ := hr
      refine abandoned_save hc (fun hp => by cases hr.symm.trans hp.1) ?_
      intro b hb
      exact absurd (hi.pending.fresh _ b hb) (by rw [hn]; exact Nat.lt_irrefl _)
  | sent hfree ht =>
      subst ht
      refine abandoned_save rfl (fun hp => Bool.noConfusion hp.2) ?_
      exact fun b hb => absurd (hi.pending.fresh _ b hb) (Nat.lt_irrefl _)
  | response htopic hleaf hjson hr hw hp hs hc =>
      obtain ⟨c, m, hf, -⟩ := hi.pending.waits _ _ hw
      rw [hf] at hc
      obtain rfl := Table.key_of_find hf
      exact abandoned_settle hf (hi.armed _ _ c hw hf) (fun h => by cases h) hc
  | timer hf hp hs hc harmed => exact abandoned_settle hf harmed (fun h => by cases h) hc
  | destroy => exact absurd rfl ha

theorem abandoned_step {a : Action} (hi : TimerInv s) (h : step config s a = some t) :
    Abandoned t ↔ Abandoned s ∨ ¬ DestroysIdle s a := by
  by_cases ha : a = .destroy
  · subst ha
    cases h
    exact abandoned_destroy hi rfl
  · rw [abandoned_kept hi h ha, or_iff_left (not_not.mpr (destroysIdle_of_ne ha))]

theorem settlesRemoved_settle {c : Command} {state : PromiseState} (hi : TimerInv s)
    (hown : s.pending.get c.id = some c.promise) (hp : t.pending = s.pending.erase c.id)
    (hstate : state ≠ .pending) (hc : t.commands = s.commands.save (c.settle state)) :
    SettlesRemoved s t := by
  intro id p hw hgone
  have hpc : p = c.promise := by
    by_contra hne
    exact hgone ((get_settle hi hown hp).mpr ⟨hw, hne⟩)
  refine ⟨c.settle state, by rw [find_settle hc, if_pos hpc], ?_⟩
  rw [Command.settle]
  split
  · exact hstate
  · rename_i hn
    exact hn

theorem settlesRemoved_iff {a : Action} (hi : TimerInv s) (h : step config s a = some t) :
    SettlesRemoved s t ↔ DestroysIdle s a := by
  have hsame (hp : ∀ id p, s.pending.get id = some p → t.pending.get id = some p) : SettlesRemoved s t :=
    fun id p hw hgone => absurd (hp id p hw) hgone
  by_cases ha : a = .destroy
  · subst ha
    cases h
    constructor
    · intro hall
      by_contra hne
      obtain ⟨⟨id, p⟩, hm⟩ := List.exists_mem_of_ne_nil _ hne
      have hw := Table.get_eq_some.mpr hm
      obtain ⟨c, hc, hsettled⟩ := hall id p hw (fun hn => by cases hn)
      obtain ⟨b, m, hb, -, -, -, hstate⟩ := hi.pending.waits id p hw
      obtain ⟨armed, hc⟩ := find_clearTimers hc
      obtain rfl := Option.some.inj (hb.symm.trans hc)
      exact hsettled hstate
    · intro hnil id p hw
      have hm := Table.get_eq_some.mp hw
      rw [show s.pending.rows = [] from hnil] at hm
      cases hm
  · refine iff_of_true ?_ (destroysIdle_of_ne ha)
    cases step_shape h with
    | still hc hp hs => exact hsame fun id p hw => hp ▸ hw
    | rejected hn hr hc hp hs hu => exact hsame fun id p hw => hp ▸ hw
    | sent hfree ht =>
        subst ht
        refine hsame fun id p hw => ?_
        rw [State.await, Table.get_set_of_ne, hw]
        rintro rfl
        cases hw.symm.trans hfree
    | response htopic hleaf hjson hr hw hp hs hc =>
        obtain ⟨c, m, hf, hid, -⟩ := hi.pending.waits _ _ hw
        rw [hf] at hc
        obtain rfl := Table.key_of_find hf
        exact settlesRemoved_settle hi (hid ▸ hw) (hid ▸ hp) (fun h => by cases h) hc
    | timer hf hp hs hc harmed =>
        exact settlesRemoved_settle hi (hi.own _ _ hf harmed) hp (fun h => by cases h) hc
    | destroy => exact absurd rfl ha

/-- No promise is abandoned exactly when the service was shut down only while no
command was in flight; and those are the steps that settle what they take out of
`pending`. -/
theorem nothing_abandoned_iff {connected : Bool} {as : List Action}
    (h : run (step config) (init connected) as = some s) :
    (NothingAbandoned s ↔ Along (step config) DestroysIdle (init connected) as) ∧
      ∀ a t, step config s a = some t → (SettlesRemoved s t ↔ DestroysIdle s a) := by
  have hi := timerInv_run h
  refine ⟨?_, fun a t ht => settlesRemoved_iff hi ht⟩
  have hflaw := flaw_iff (B := Abandoned) (fun _ _ _ hi hs => timerInv_step hi hs)
    (fun _ _ _ hi hs => abandoned_step hi hs) h (timerInv_empty rfl rfl)
  have hstart : ¬ Abandoned (init connected) := fun ⟨_, _, hf, _⟩ => by cases hf
  rw [or_iff_right hstart, abandoned_iff hi] at hflaw
  exact not_iff_not.mp hflaw

theorem shutdown_abandons_promise : ¬ ∀ (config : Config) (connected : Bool) (as : List Action) (s : State),
    run (step config) (init connected) as = some s → NothingAbandoned s := by
  intro h
  have hall := h answering true (sendToFirst ++ [.destroy]) _ rfl 0 _ rfl
  rcases hall with hstate | ⟨-, harmed⟩
  · exact hstate rfl
  · cases harmed

theorem answered_promise_is_settled : ∃ s,
    run (step answering) (init true) (sendToFirst ++
      [.message "espclaw/dev-1/response" answer, .destroy]) = some s ∧
      NothingAbandoned s := by
  obtain ⟨s, hs⟩ : ∃ s, run (step answering) (init true)
      (sendToFirst ++ [.message "espclaw/dev-1/response" answer, .destroy]) = some s := ⟨_, rfl⟩
  exact ⟨s, hs, (nothing_abandoned_iff hs).1.mpr (by decide)⟩

end EspClawPlatform.Mqtt
