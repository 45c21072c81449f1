import EspClawPlatform.Mqtt.Steps

namespace EspClawPlatform.Mqtt

open Run

variable {config : Config} {s t : State}

def Resolves (s t : State) (c : Command) (r : ResponseEnvelope) : Prop :=
  t.commands.find c.promise = some c ∧ c.state = .resolved r ∧
    ∀ b, s.commands.find c.promise = some b → b.state ≠ .resolved r

theorem eq_of_resolves {c d : Command} {r : ResponseEnvelope} (hr : Resolves s t c r)
    (h : t.commands = s.commands.save d) : c = d := by
  obtain ⟨hc, hstate, hnew⟩ := hr
  rw [h, Table.find_save] at hc
  split at hc
  · exact (Option.some.inj hc).symm
  · exact absurd hstate (hnew c hc)

/-- A promise is resolved only while a message on some response topic is
handled that holds a well-formed response with the id of a command in flight:
the one whose promise this is, published under that id. -/
theorem resolved_by_response {connected : Bool} {as : List Action} {a : Action} {c : Command}
    {r : ResponseEnvelope} (h : run (step config) (init connected) as = some s)
    (ht : step config s a = some t) (hr : Resolves s t c r) :
    ∃ topic payload parsed json m, a = .message topic payload ∧ parseTopic topic = some parsed ∧
      parsed.leaf = "response" ∧ config.parse payload = some json ∧ parseResponseEnvelope json = some r ∧
      s.pending.get r.id = some c.promise ∧ c.message = some m ∧ m.envelope.id = r.id := by
  have hi : PendingInv s := invariant (fun _ _ _ hi hs => pendingInv_step hi hs) h (pendingInv_init connected)
  have hstate := hr.2.1
  cases step_shape ht with
  | still hsame => exact absurd hstate (hr.2.2 c (hsame ▸ hr.1))
  | rejected hn hrej hsave =>
      obtain ⟨message, hrej⟩ := hrej
      rw [eq_of_resolves hr hsave, hrej] at hstate
      cases hstate
  | sent hfree hawait =>
      subst hawait
      rw [eq_of_resolves hr rfl] at hstate
      cases hstate
  | @timer b t hf hp hs hsave =>
      obtain rfl := eq_of_resolves hr hsave
      have hb : b.state ≠ .resolved r := hr.2.2 b hf
      simp only [Command.settle] at hstate
      split at hstate
      · cases hstate
      · exact absurd hstate hb
  | destroy hp hs hclear =>
      obtain ⟨armed, hf⟩ := find_clearTimers (hclear ▸ hr.1)
      have := hr.2.2 _ hf
      exact absurd hstate this
  | response htopic hleaf hjson hres hw hp hs hsave =>
      obtain ⟨b, m, hf, hid, hm, hmid, hwait⟩ := hi.waits _ _ hw
      rw [hf, Option.elim_some] at hsave
      obtain rfl := eq_of_resolves hr hsave
      obtain rfl : _ = r := by simpa [Command.settle, hwait] using hstate
      exact ⟨_, _, _, _, m, rfl, htopic, hleaf, hjson,
        hres, by rw [hw, ← Table.key_of_find hf]; rfl, hm, hmid⟩

def answer : String := "\x7b\"id\":\"c1\",\"ok\":true\x7d"

def answering : Config where
  defaultBaseTopic := "espclaw"
  parse := fun payload =>
    if payload = answer then some (.obj [("id", .str "c1"), ("ok", .bool true)]) else none

def sendToFirst : List Action :=
  [.sendCommand "dev-1" "get_system_info" .empty { id := some "c1" } "" none]

def answered : Command where
  promise := 0
  id := "c1"
  deviceId := "dev-1"
  timeoutMs := 15000
  message := some
    { topic := "espclaw/dev-1/command"
      envelope := { id := "c1", name := "get_system_info", input := .empty } }
  state := .resolved { id := "c1", capability := none, ok := true, result := none }
  armed := false

theorem answered_by_another_device : ¬ ∀ (config : Config) (as : List Action) (s t : State)
    (a : Action) (c : Command) (r : ResponseEnvelope) (m : Message) (base deviceId : String),
    run (step config) (init true) as = some s → step config s a = some t → Resolves s t c r →
      c.message = some m →
      buildTopic base deviceId .command = .ok m.topic →
        ∃ topic payload, a = .message topic payload ∧
          parseTopic topic = some { baseTopic := base, deviceId := deviceId, leaf := "response" } := by
  intro h
  obtain ⟨topic, payload, ha, hp⟩ := h answering sendToFirst _ _
    (.message "other/dev-2/response" answer) answered _ _ "espclaw" "dev-1" rfl rfl ⟨by decide, rfl, by decide⟩ rfl (by decide)
  cases ha
  exact absurd hp (by decide)

theorem answered_by_its_device : ∃ parsed, parseTopic "espclaw/dev-1/response" = some parsed ∧
    parsed.leaf = "response" := by
  obtain ⟨topic, payload, parsed, json, m, ha, htopic, hleaf, -⟩ :=
    @resolved_by_response answering _ _ true sendToFirst (.message "espclaw/dev-1/response" answer) answered
      _ rfl rfl ⟨by decide, rfl, by decide⟩
  cases ha
  exact ⟨parsed, htopic, hleaf⟩

end EspClawPlatform.Mqtt
