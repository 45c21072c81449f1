import EspClawPlatform.Lib.Chain
import EspClawPlatform.Bus.Steps

namespace EspClawPlatform.Bus

open Run

variable {P : Type}

def Member (s : State P) (k : String) (n : Nat) : Prop :=
  ∃ d, s.links.find n = some d ∧ lane d.event = k

def previousOf (s : State P) (n : Nat) : Option Nat := (s.links.find n).bind (·.previous)

def Begun (s : State P) (n : Nat) : Prop :=
  ∃ d, s.links.find n = some d ∧ (d.started = true ∨ d.state ≠ .pending)

def Settled (s : State P) (n : Nat) : Prop := ∃ d, s.links.find n = some d ∧ d.state ≠ .pending

/-- Every lane is a chain, its map entry is its last link, and a lane without
an entry has nothing left to settle. -/
structure LaneInv (s : State P) : Prop where
  fresh : ∀ n d, s.links.find n = some d → n < s.counters.published
  chain : ∀ k, Chain (Member s k) (previousOf s) (Begun s) (Settled s)
  last : ∀ k p, s.lanes.get k = some p → Member s k p ∧ ∀ q, Member s k q → q ≤ p
  idle : ∀ k, s.lanes.get k = none → ∀ q, Member s k q → Settled s q
  flying : ∀ n d, s.links.find n = some d → d.state = .pending → n ∈ s.inFlight

theorem LaneInv.init : LaneInv (init : State P) where
  fresh := fun n d h => by cases h
  chain := fun k =>
    { link := fun l ⟨d, hd, _⟩ => by cases hd
      head := fun l ⟨d, hd, _⟩ => by cases hd
      waits := fun l ⟨d, hd, _⟩ => by cases hd
      begins := fun l ⟨d, hd, _⟩ => by cases hd }
  last := fun k p h => by cases h
  idle := fun k _ q ⟨d, hd, _⟩ => by cases hd
  flying := fun n d h => by cases h

section Move

variable {s t : State P} {d d' : Link P}

theorem LinkMove.settled (hm : LinkMove s d d') (hs : d.state ≠ .pending) : d'.state ≠ .pending := by
  cases hm with
  | begin | run => exact hs
  | pass | fulfil | reject => simp

theorem find_move (hm : LinkMove s d d') (hl : t.links = s.links.save d') (n : Nat) :
    t.links.find n = if n = d.id then some d' else s.links.find n := by
  rw [hl, Table.find_save]
  exact if_congr (by rw [show Keyed.key d' = d'.id from rfl, hm.id_eq]) rfl rfl

theorem member_move (hd : s.links.find d.id = some d) (hm : LinkMove s d d')
    (hl : t.links = s.links.save d') (k : String) (n : Nat) : Member t k n ↔ Member s k n := by
  unfold Member
  rw [find_move hm hl]
  by_cases hn : n = d.id
  · subst hn
    simp [hd, hm.event_eq]
  · rw [if_neg hn]

theorem previousOf_move (hd : s.links.find d.id = some d) (hm : LinkMove s d d')
    (hl : t.links = s.links.save d') : previousOf t = previousOf s := by
  funext n
  unfold previousOf
  rw [find_move hm hl]
  by_cases hn : n = d.id
  · subst hn
    simp [hd, hm.previous_eq]
  · rw [if_neg hn]

theorem settled_move (hd : s.links.find d.id = some d) (hm : LinkMove s d d')
    (hl : t.links = s.links.save d') {n : Nat} (h : Settled s n) : Settled t n := by
  obtain ⟨e, he, hs⟩ := h
  by_cases hn : n = d.id
  · subst hn
    obtain rfl : d = e := Option.some.inj (hd.symm.trans he)
    exact ⟨d', by rw [find_move hm hl, if_pos rfl], hm.settled hs⟩
  · exact ⟨e, by rw [find_move hm hl, if_neg hn, he], hs⟩

theorem settled_of_promise {p : Nat} {o : PromiseState} (h : s.promise p = some o) (ho : o ≠ .pending) :
    Settled s p := by
  obtain ⟨e, he, rfl⟩ := Option.map_eq_some_iff.mp h
  exact ⟨e, he, ho⟩

theorem begun_move (hd : s.links.find d.id = some d) (hm : LinkMove s d d')
    (hl : t.links = s.links.save d') {n : Nat} (h : Begun t n) (hn : ¬ Begun s n) {p : Nat}
    (hp : previousOf s n = some p) : Settled t p := by
  have hid : n = d.id := by
    by_contra hne
    obtain ⟨e, he, hb⟩ := h
    rw [find_move hm hl, if_neg hne] at he
    exact hn ⟨e, he, hb⟩
  subst hid
  have hprev : d.previous = some p := by simpa [previousOf, hd] using hp
  apply settled_move hd hm hl
  cases hm with
  | begin hb hs hq => exact settled_of_promise (hq p hprev) (by simp)
  | pass hb hs q hq hr =>
      obtain rfl : q = p := Option.some.inj (hq.symm.trans hprev)
      exact settled_of_promise hr (by simp)
  | run hb | fulfil hb | reject hb => exact absurd ⟨d, hd, .inl hb⟩ hn

theorem laneInv_move (hi : LaneInv s) (hd : s.links.find d.id = some d) (hm : LinkMove s d d')
    (hl : t.links = s.links.save d') (hn : t.lanes = s.lanes) (hf : t.inFlight = s.inFlight)
    (hp : t.counters.published = s.counters.published) : LaneInv t where
  fresh := by
    intro n e he
    rw [find_move hm hl] at he
    rw [hp]
    split at he
    · rename_i hn
      exact hn ▸ hi.fresh _ d hd
    · exact hi.fresh n e he
  chain := by
    intro k
    have hmem : Member t k = Member s k := by
      funext n
      exact propext (member_move hd hm hl k n)
    rw [hmem, previousOf_move hd hm hl]
    refine (hi.chain k).advance (fun l => settled_move hd hm hl) ?_ ?_
    · intro l _ hb hnb p hp
      exact begun_move hd hm hl hb hnb hp
    · rintro l ⟨e, he, hs⟩
      exact ⟨e, he, .inr hs⟩
  last := by
    intro k p h
    rw [hn] at h
    obtain ⟨hpm, hlast⟩ := hi.last k p h
    exact ⟨(member_move hd hm hl k p).mpr hpm, fun q hq => hlast q ((member_move hd hm hl k q).mp hq)⟩
  idle := by
    intro k h q hq
    rw [hn] at h
    exact settled_move hd hm hl (hi.idle k h q ((member_move hd hm hl k q).mp hq))
  flying := by
    intro n e he hs
    rw [hf]
    rw [find_move hm hl] at he
    split at he
    · rename_i hid
      cases he
      rw [hid]
      apply hi.flying d.id d hd
      by_contra hne
      exact hm.settled hne hs
    · exact hi.flying n e he hs

end Move

section Publish

variable {s t : State P} {event : DomainEvent P}

theorem find_publish (hl : t.links = s.links.save (chained s event)) (n : Nat) :
    t.links.find n = if n = s.counters.published then some (chained s event) else s.links.find n := by
  rw [hl, Table.find_save]
  rfl

theorem find_published (hi : LaneInv s) : s.links.find s.counters.published = none := by
  cases h : s.links.find s.counters.published with
  | none => rfl
  | some d => exact absurd (hi.fresh _ d h) (Nat.lt_irrefl _)

theorem find_publish_of_some (hi : LaneInv s) (hl : t.links = s.links.save (chained s event))
    {n : Nat} {d : Link P} (h : s.links.find n = some d) : t.links.find n = some d := by
  rw [find_publish hl, if_neg (hi.fresh n d h).ne, h]

theorem exists_publish (hi : LaneInv s) (hl : t.links = s.links.save (chained s event)) {n : Nat}
    {p : Link P → Prop} (hc : ¬ p (chained s event)) :
    (∃ d, t.links.find n = some d ∧ p d) ↔ ∃ d, s.links.find n = some d ∧ p d := by
  constructor
  · rintro ⟨d, hd, hpd⟩
    rw [find_publish hl] at hd
    split at hd
    · cases hd
      exact absurd hpd hc
    · exact ⟨d, hd, hpd⟩
  · rintro ⟨d, hd, hpd⟩
    exact ⟨d, find_publish_of_some hi hl hd, hpd⟩

theorem member_publish (hi : LaneInv s) (hl : t.links = s.links.save (chained s event)) (k : String)
    (n : Nat) : Member t k n ↔ Member s k n ∨ n = s.counters.published ∧ lane event = k := by
  constructor
  · rintro ⟨d, hd, hk⟩
    rw [find_publish hl] at hd
    split at hd
    · rename_i hn
      cases hd
      exact .inr ⟨hn, hk⟩
    · exact .inl ⟨d, hd, hk⟩
  · rintro (⟨d, hd, hk⟩ | ⟨rfl, hk⟩)
    · exact ⟨d, find_publish_of_some hi hl hd, hk⟩
    · exact ⟨chained s event, by rw [find_publish hl, if_pos rfl], hk⟩

theorem laneInv_publish (hi : LaneInv s) (hl : t.links = s.links.save (chained s event))
    (hn : t.lanes = s.lanes.set (lane event) s.counters.published)
    (hf : t.inFlight = s.counters.published :: s.inFlight)
    (hp : t.counters.published = s.counters.published + 1) : LaneInv t := by
  have hsettled (n : Nat) : Settled t n ↔ Settled s n :=
    exists_publish hi hl (p := fun d => d.state ≠ .pending) (by simp [chained])
  have hbegun (n : Nat) : Begun t n ↔ Begun s n :=
    exists_publish hi hl (p := fun d => d.started = true ∨ d.state ≠ .pending) (by simp [chained])
  have hold : ∀ n, n ≠ s.counters.published → previousOf t n = previousOf s n := by
    intro n hne
    rw [previousOf, find_publish hl, if_neg hne, previousOf]
  have hnew : previousOf t s.counters.published = s.lanes.get (lane event) := by
    rw [previousOf, find_publish hl, if_pos rfl]
    rfl
  have hlt : ∀ k n, Member s k n → n < s.counters.published := by
    rintro k n ⟨d, hd, _⟩
    exact hi.fresh n d hd
  constructor
  · intro n d hd
    rw [hp]
    rw [find_publish hl] at hd
    split at hd
    · omega
    · exact Nat.lt_succ_of_lt (hi.fresh n d hd)
  · intro k
    by_cases hk : lane event = k
    · refine (hi.chain k).push (hlt k) ?_ hold hbegun hsettled ?_ ?_ ?_
      · intro n
        rw [member_publish hi hl]
        simp [hk]
      · rintro ⟨d, hd, _⟩
        rw [find_published hi] at hd
        cases hd
      · intro p hpp
        rw [hnew, hk] at hpp
        exact hi.last k p hpp
      · intro hnone
        rw [hnew, hk] at hnone
        exact hi.idle k hnone
    · have hmem (n : Nat) : Member t k n ↔ Member s k n := by
        rw [member_publish hi hl]
        simp [hk]
      exact (hi.chain k).congr hmem (fun l hm => hold l (hlt k l hm).ne) hbegun hsettled
  · intro k p h
    rw [hn, Table.get_set] at h
    split at h
    · rename_i hk
      cases h
      refine ⟨(member_publish hi hl k _).mpr (.inr ⟨rfl, hk.symm⟩), ?_⟩
      intro q hq
      rcases (member_publish hi hl k q).mp hq with hq | ⟨rfl, _⟩
      · exact (hlt k q hq).le
      · exact le_rfl
    · rename_i hk
      obtain ⟨hpm, hlast⟩ := hi.last k p h
      refine ⟨(member_publish hi hl k p).mpr (.inl hpm), ?_⟩
      intro q hq
      rcases (member_publish hi hl k q).mp hq with hq | ⟨_, hk'⟩
      · exact hlast q hq
      · exact absurd hk'.symm hk
  · intro k h q hq
    rw [hn, Table.get_set] at h
    split at h
    · cases h
    · rename_i hk
      rcases (member_publish hi hl k q).mp hq with hq | ⟨_, hk'⟩
      · exact (hsettled q).mpr (hi.idle k h q hq)
      · exact absurd hk'.symm hk
  · intro n d hd hs
    rw [hf]
    rw [find_publish hl] at hd
    split at hd
    · rename_i hid
      exact hid ▸ List.mem_cons_self
    · exact List.mem_cons_of_mem _ (hi.flying n d hd hs)

end Publish

theorem laneInv_cleanup {s t : State P} {d : Link P} (hi : LaneInv s) (hd : s.links.find d.id = some d)
    (hs : d.state ≠ .pending) (hl : t.links = s.links) (hf : t.inFlight = s.inFlight.filter (· ≠ d.id))
    (hn : t.lanes = if s.lanes.get (lane d.event) = some d.id then s.lanes.erase (lane d.event) else s.lanes)
    (hp : t.counters.published = s.counters.published) : LaneInv t := by
  have hmem : Member t = Member s := by unfold Member; rw [hl]
  have hprev : previousOf t = previousOf s := by unfold previousOf; rw [hl]
  have hbegun : Begun t = Begun s := by unfold Begun; rw [hl]
  have hsettled : Settled t = Settled s := by unfold Settled; rw [hl]
  have hget (k : String) : t.lanes.get k = s.lanes.get k ∨
      t.lanes.get k = none ∧ k = lane d.event ∧ s.lanes.get k = some d.id := by
    rw [hn]
    split
    · rename_i hlast
      rw [Table.get_erase]
      split
      · rename_i hk
        exact .inr ⟨rfl, hk, hk ▸ hlast⟩
      · exact .inl rfl
    · exact .inl rfl
  refine ⟨?_, ?_, ?_, ?_, ?_⟩
  · intro n e he
    rw [hl] at he
    rw [hp]
    exact hi.fresh n e he
  · intro k
    rw [hmem, hprev, hbegun, hsettled]
    exact hi.chain k
  · intro k p h
    rw [hmem]
    rcases hget k with hk | ⟨hk, _⟩
    · exact hi.last k p (hk ▸ h)
    · rw [hk] at h
      cases h
  · intro k h q hq
    rw [hmem] at hq
    rw [hsettled]
    rcases hget k with hk | ⟨_, rfl, hlast⟩
    · exact hi.idle k (hk ▸ h) q hq
    · -- the removed entry was the last link of its lane, and it has settled
      obtain ⟨hdm, hmax⟩ := hi.last _ _ hlast
      rcases lt_or_eq_of_le (hmax q hq) with hlt | rfl
      · exact (hi.chain _).settled_before hdm ⟨d, hd, .inr hs⟩ hq hlt
      · exact ⟨d, hd, hs⟩
  · intro n e he hpe
    rw [hl] at he
    rw [hf, List.mem_filter]
    refine ⟨hi.flying n e he hpe, ?_⟩
    have hne : n ≠ d.id := by
      rintro rfl
      obtain rfl : d = e := Option.some.inj (hd.symm.trans he)
      exact hs hpe
    simpa using hne

theorem laneInv_step {s t : State P} {a : Action P} (hi : LaneInv s) (h : step s a = some t) : LaneInv t := by
  cases step_shape h with
  | still hl hn hf hp =>
      have hmem : Member t = Member s := by unfold Member; rw [hl]
      have hsettled : Settled t = Settled s := by unfold Settled; rw [hl]
      refine ⟨?_, ?_, ?_, ?_, ?_⟩
      · intro n d hd
        exact Nat.lt_of_lt_of_le (hi.fresh n d (hl ▸ hd)) hp
      · intro k
        have hprev : previousOf t = previousOf s := by unfold previousOf; rw [hl]
        have hbegun : Begun t = Begun s := by unfold Begun; rw [hl]
        rw [hmem, hprev, hbegun, hsettled]
        exact hi.chain k
      · rw [hn, hmem]
        exact hi.last
      · rw [hn, hmem, hsettled]
        exact hi.idle
      · rw [hl, hf]
        exact hi.flying
  | publish event ha hl hn hf hp => exact laneInv_publish hi hl hn hf hp
  | move hd hm hl hn hf hp => exact laneInv_move hi hd hm hl hn hf hp
  | cleanup hd hs hl hf hn hp => exact laneInv_cleanup hi hd hs hl hf hn hp

theorem laneInv_run {s : State P} {as : List (Action P)} (h : run step init as = some s) : LaneInv s :=
  invariant (fun _ _ _ hi hs => laneInv_step hi hs) h .init

end EspClawPlatform.Bus
