import EspClawPlatform.Mqtt.Settlement

namespace EspClawPlatform.Mqtt

variable {config : Config} {s t : State}

/-- The well-formed response that a message brings, from whatever device. -/
def Config.response (config : Config) (topic payload : String) : Option ResponseEnvelope := do
  let parsed ← parseTopic topic
  let json ← config.parse payload
  if parsed.leaf = "response" then parseResponseEnvelope json else none

/-- `handleResponse` once the envelope has been parsed. -/
def State.answer (s : State) (r : ResponseEnvelope) : State :=
  match s.pending.get r.id with
  | none => s
  | some promise =>
      { s with
        pending := s.pending.erase r.id
        commands := (s.commands.find promise).elim s.commands fun c =>
          s.commands.save (c.settle (.resolved r)) }

theorem handleMessage_response {topic payload : String} {r : ResponseEnvelope}
    (h : config.response topic payload = some r) : s.handleMessage config topic payload = s.answer r := by
  obtain ⟨parsed, hp, h⟩ := Option.bind_eq_some_iff.mp h
  obtain ⟨json, hj, h⟩ := Option.bind_eq_some_iff.mp h
  split at h
  · rename_i hleaf
    have hstatus : ¬ parsed.leaf = "status" := by rw [hleaf]; decide
    simp only [State.handleMessage, hp, hj, if_neg hstatus, if_pos hleaf, State.handleResponse, h]
    rfl
  · cases h

theorem handleMessage_other {topic payload : String} (h : config.response topic payload = none) :
    (s.handleMessage config topic payload).commands = s.commands ∧
      (s.handleMessage config topic payload).pending = s.pending := by
  rw [State.handleMessage]
  split
  · exact ⟨rfl, rfl⟩
  · rename_i parsed hp
    split
    · exact ⟨rfl, rfl⟩
    · rename_i json hj
      split
      · rw [State.handleStatus]
        split <;> exact ⟨rfl, rfl⟩
      · split
        · rename_i hleaf
          have hnone : parseResponseEnvelope json = none := by
            simpa only [Config.response, hp, hj, Option.bind_eq_bind, Option.bind_some, if_pos hleaf] using h
          rw [State.handleResponse, hnone]
          exact ⟨rfl, rfl⟩
        · exact ⟨rfl, rfl⟩

theorem answer_unknown {r : ResponseEnvelope} (h : s.pending.get r.id = none) : s.answer r = s := by
  rw [State.answer, h]

theorem answer_known {r : ResponseEnvelope} {c : Command} (hw : s.pending.get r.id = some c.promise)
    (hf : s.commands.find c.promise = some c) :
    s.answer r =
      { s with pending := s.pending.erase r.id, commands := s.commands.save (c.settle (.resolved r)) } := by
  rw [State.answer, hw]
  simp only [hf, Option.elim_some]

theorem find_message {topic payload : String} {p : Nat} (hi : TimerInv s)
    (hne : ∀ r, config.response topic payload = some r → s.pending.get r.id ≠ some p) :
    (s.handleMessage config topic payload).commands.find p = s.commands.find p := by
  cases hr : config.response topic payload with
  | none => rw [(handleMessage_other hr).1]
  | some r =>
      rw [handleMessage_response hr]
      cases hw : s.pending.get r.id with
      | none => rw [answer_unknown hw]
      | some q =>
          obtain ⟨c, m, hf, -⟩ := hi.pending.waits _ _ hw
          obtain rfl := Table.key_of_find hf
          rw [answer_known hw hf]
          refine Table.find_save_of_ne _ fun hp => hne r hr ?_
          rw [hw, hp]
          rfl

theorem message_settles_one {topic payload : String} (hi : TimerInv s) {p q : Nat}
    (hp : (s.handleMessage config topic payload).commands.find p ≠ s.commands.find p)
    (hq : (s.handleMessage config topic payload).commands.find q ≠ s.commands.find q) : p = q := by
  have hled {n : Nat} (hn : (s.handleMessage config topic payload).commands.find n ≠ s.commands.find n) :
      ∃ r, config.response topic payload = some r ∧ s.pending.get r.id = some n := by
    by_contra hno
    simp only [not_exists, not_and] at hno
    exact hn (find_message hi hno)
  obtain ⟨r, hr, hrp⟩ := hled hp
  obtain ⟨r', hr', hrq⟩ := hled hq
  obtain rfl := Option.some.inj (hr.symm.trans hr')
  exact Option.some.inj (hrp.symm.trans hrq)

theorem fire_eq {p : Nat} (h : s.fire p = some t) : ∃ c, c.promise = p ∧
    s.commands.find p = some c ∧ c.armed = true ∧
    t = { s with
      pending := s.pending.erase c.id
      commands := s.commands.save (c.settle (.rejected (timedOut c))) } := by
  obtain ⟨c, hc, h⟩ := Option.bind_eq_some_iff.mp h
  split at h <;> cases h
  rename_i ha
  exact ⟨c, Table.key_of_find hc, hc, ha, rfl⟩

theorem timer_spares {p q : Nat} {id : String} (hi : TimerInv s) (h : s.fire p = some t)
    (hq : s.pending.get id = some q) (hne : q ≠ p) :
    t.pending.get id = some q ∧ t.commands.find q = s.commands.find q := by
  obtain ⟨c, rfl, hf, ha, rfl⟩ := fire_eq h
  exact ⟨(get_settle hi (hi.own _ c hf ha) rfl).mpr ⟨hq, hne⟩, Table.find_save_of_ne _ hne⟩

end EspClawPlatform.Mqtt
