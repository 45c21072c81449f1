import Mathlib.Order.WellFounded
import Mathlib.Order.Basic

namespace EspClawPlatform

variable {ι : Type} [LinearOrder ι]

/-- One lane of chained promises. Each member is chained on the member just
before it, or on nothing when all earlier members had settled by then. A member
begins after the one it is chained on has settled. -/
structure Chain (member : ι → Prop) (previous : ι → Option ι) (begun settled : ι → Prop) : Prop where
  link : ∀ l, member l → ∀ p, previous l = some p → member p ∧ p < l ∧ ∀ q, member q → q < l → q ≤ p
  head : ∀ l, member l → previous l = none → ∀ q, member q → q < l → settled q
  waits : ∀ l, member l → begun l → ∀ p, previous l = some p → settled p
  begins : ∀ l, settled l → begun l

namespace Chain

variable {member begun settled member' begun' settled' : ι → Prop} {previous previous' : ι → Option ι}

/-- Strict order of a lane: nothing begins before everything ahead of it has settled. -/
theorem settled_before [WellFoundedLT ι] (c : Chain member previous begun settled) {l : ι}
    (hl : member l) (hb : begun l) {q : ι} (hq : member q) (hlt : q < l) : settled q := by
  induction l using WellFoundedLT.induction with
  | ind l ih =>
      cases hp : previous l with
      | none => exact c.head l hl hp q hq hlt
      | some p =>
          obtain ⟨hm, hpl, hlast⟩ := c.link l hl p hp
          have hs : settled p := c.waits l hl hb p hp
          rcases lt_or_eq_of_le (hlast q hq hlt) with h | rfl
          · exact ih p hpl hm (c.begins p hs) h
          · exact hs

theorem advance (c : Chain member previous begun settled) (hmono : ∀ l, settled l → settled' l)
    (hwaits : ∀ l, member l → begun' l → ¬ begun l → ∀ p, previous l = some p → settled' p)
    (hbegins : ∀ l, settled' l → begun' l) : Chain member previous begun' settled' where
  link := c.link
  head := fun l hl hp q hq hlt => hmono q (c.head l hl hp q hq hlt)
  waits := by
    intro l hl hb p hp
    by_cases h : begun l
    · exact hmono p (c.waits l hl h p hp)
    · exact hwaits l hl hb h p hp
  begins := hbegins

theorem congr (c : Chain member previous begun settled) (hmember : ∀ l, member' l ↔ member l)
    (hprevious : ∀ l, member l → previous' l = previous l) (hbegun : ∀ l, begun' l ↔ begun l)
    (hsettled : ∀ l, settled' l ↔ settled l) : Chain member' previous' begun' settled' where
  link := by
    intro l hl p hp
    rw [hmember] at hl
    rw [hprevious l hl] at hp
    obtain ⟨hm, hlt, hlast⟩ := c.link l hl p hp
    exact ⟨(hmember p).mpr hm, hlt, fun q hq => hlast q ((hmember q).mp hq)⟩
  head := by
    intro l hl hp q hq hlt
    rw [hmember] at hl hq
    rw [hprevious l hl] at hp
    exact (hsettled q).mpr (c.head l hl hp q hq hlt)
  waits := by
    intro l hl hb p hp
    rw [hmember] at hl
    rw [hprevious l hl] at hp
    exact (hsettled p).mpr (c.waits l hl ((hbegun l).mp hb) p hp)
  begins := fun l hs => (hbegun l).mpr (c.begins l ((hsettled l).mp hs))

theorem push (c : Chain member previous begun settled) {n : ι} (hn : ∀ l, member l → l < n)
    (hmember : ∀ l, member' l ↔ member l ∨ l = n) (hprevious : ∀ l, l ≠ n → previous' l = previous l)
    (hbegun : ∀ l, begun' l ↔ begun l) (hsettled : ∀ l, settled' l ↔ settled l) (hfresh : ¬ begun n)
    (hsome : ∀ p, previous' n = some p → member p ∧ ∀ q, member q → q ≤ p)
    (hnone : previous' n = none → ∀ q, member q → settled q) :
    Chain member' previous' begun' settled' where
  link := by
    intro l hl p hp
    rcases (hmember l).mp hl with h | rfl
    · rw [hprevious l (hn l h).ne] at hp
      obtain ⟨hm, hlt, hlast⟩ := c.link l h p hp
      refine ⟨(hmember p).mpr (.inl hm), hlt, ?_⟩
      intro q hq hql
      rcases (hmember q).mp hq with hq | rfl
      · exact hlast q hq hql
      · exact absurd (hn l h) hql.asymm
    · obtain ⟨hm, hlast⟩ := hsome p hp
      refine ⟨(hmember p).mpr (.inl hm), hn p hm, ?_⟩
      intro q hq hql
      rcases (hmember q).mp hq with hq | rfl
      · exact hlast q hq
      · exact absurd hql (lt_irrefl q)
  head := by
    intro l hl hp q hq hlt
    have hqm : member q := by
      rcases (hmember q).mp hq with hq | rfl
      · exact hq
      · rcases (hmember l).mp hl with h | rfl
        · exact absurd (hn l h) hlt.asymm
        · exact absurd hlt (lt_irrefl l)
    rw [hsettled]
    rcases (hmember l).mp hl with h | rfl
    · rw [hprevious l (hn l h).ne] at hp
      exact c.head l h hp q hqm hlt
    · exact hnone hp q hqm
  waits := by
    intro l hl hb p hp
    rw [hbegun] at hb
    rw [hsettled]
    rcases (hmember l).mp hl with h | rfl
    · rw [hprevious l (hn l h).ne] at hp
      exact c.waits l h hb p hp
    · exact absurd hb hfresh
  begins := fun l hs => (hbegun l).mpr (c.begins l ((hsettled l).mp hs))

end Chain

end EspClawPlatform
