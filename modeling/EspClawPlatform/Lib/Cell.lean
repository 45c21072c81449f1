import Mathlib.Logic.Function.Basic
import EspClawPlatform.Lib.Run

namespace EspClawPlatform

/-- A value that clients load, change in a copy of their own and store as a
whole. `stored` are the updates made by the stores, oldest first. -/
@[ext]
structure Cell (κ β σ : Type) where
  content : σ
  copies : κ → Option σ
  stored : List β

namespace Cell

open Run

variable {κ β σ : Type} [DecidableEq κ]

/-- `create` stores the value the cell began with and goes on from it. -/
inductive Op (κ β : Type)
  | load (k : κ)
  | create (k : κ)
  | store (k : κ) (b : β)

def hold (c : Cell κ β σ) (k : κ) (v : σ) : Cell κ β σ :=
  { c with content := v, copies := Function.update c.copies k (some v) }

def put (c : Cell κ β σ) (k : κ) (v : σ) (b : β) : Cell κ β σ where
  content := v
  copies := Function.update c.copies k none
  stored := c.stored ++ [b]

def step (f : β → σ → σ) (base : σ) (c : Cell κ β σ) : Op κ β → Option (Cell κ β σ)
  | .load k => if (c.copies k).isSome then none else some (c.hold k c.content)
  | .create k => if (c.copies k).isSome then none else some (c.hold k base)
  | .store k b => (c.copies k).map fun v => c.put k (f b v) b

def start (base : σ) : Cell κ β σ := { content := base, copies := fun _ => none, stored := [] }

def Fresh (base : σ) (c : Cell κ β σ) : Op κ β → Prop
  | .load _ => True
  | .create _ => c.content = base
  | .store k _ => c.copies k = some c.content

variable {f : β → σ → σ} {base : σ} {c d : Cell κ β σ} {ops : List (Op κ β)}

theorem copies_hold (c : Cell κ β σ) (j k : κ) (v : σ) :
    (c.hold k v).copies j = if j = k then some v else c.copies j := Function.update_apply _ _ _ _

theorem copies_put (c : Cell κ β σ) (j k : κ) (v : σ) (b : β) :
    (c.put k v b).copies j = if j = k then none else c.copies j := Function.update_apply _ _ _ _

@[simp]
theorem length_put (c : Cell κ β σ) (k : κ) (v : σ) (b : β) :
    (c.put k v b).stored.length = c.stored.length + 1 := by
  simp [put]

inductive Shape (f : β → σ → σ) (base : σ) (c : Cell κ β σ) : Op κ β → Cell κ β σ → Prop
  | load {k : κ} (hk : c.copies k = none) : Shape f base c (.load k) (c.hold k c.content)
  | create {k : κ} (hk : c.copies k = none) : Shape f base c (.create k) (c.hold k base)
  | store {k : κ} {b : β} {v : σ} (hk : c.copies k = some v) : Shape f base c (.store k b) (c.put k (f b v) b)

theorem step_shape {a : Op κ β} (h : step f base c a = some d) : Shape f base c a d := by
  cases a with
  | load k =>
      rw [step] at h
      split at h <;> cases h
      rename_i hk
      exact .load (Option.not_isSome_iff_eq_none.mp hk)
  | create k =>
      rw [step] at h
      split at h <;> cases h
      rename_i hk
      exact .create (Option.not_isSome_iff_eq_none.mp hk)
  | store k b =>
      obtain ⟨v, hk, rfl⟩ := Option.map_eq_some_iff.mp h
      exact .store hk

theorem foldl_step {a : Op κ β} (hi : c.content = c.stored.foldl (fun x b => f b x) base)
    (hC : Fresh base c a) (h : step f base c a = some d) :
    d.content = d.stored.foldl (fun x b => f b x) base := by
  cases step_shape h with
  | load => exact hi
  | create => exact hC.symm.trans hi
  | store hk =>
      obtain rfl := Option.some.inj (hk.symm.trans hC)
      simp [put, List.foldl_append, ← hi]

/-- When every store is fresh, none is lost: the content is what the updates
give one after another. -/
theorem content_eq_foldl (h : run (step f base) (start base) ops = some c)
    (hC : Along (step f base) (Fresh base) (start base) ops) :
    c.content = c.stored.foldl (fun x b => f b x) base :=
  invariant_along (P := fun c : Cell κ β σ => c.content = c.stored.foldl (fun x b => f b x) base)
    (fun _ _ _ hi hC hs => foldl_step hi hC hs) h hC rfl

section Counting

variable {μ : σ → Nat}

omit [DecidableEq κ] in
theorem measure_foldl (hμ : ∀ b x, μ (f b x) = μ x + 1) (bs : List β) (x : σ) :
    μ (bs.foldl (fun x b => f b x) x) = μ x + bs.length := by
  induction bs generalizing x with
  | nil => rfl
  | cons b bs ih =>
      rw [List.foldl_cons, ih, hμ, List.length_cons]
      omega

def Lacks (μ : σ → Nat) (base : σ) (c : Cell κ β σ) (x : σ) : Prop := μ x < μ base + c.stored.length

def Behind (μ : σ → Nat) (base : σ) (c : Cell κ β σ) : Prop := ∃ k x, c.copies k = some x ∧ Lacks μ base c x

/-- No value holds more updates than were stored, and when a copy is not the
content then some copy lacks an update. -/
structure CountInv (μ : σ → Nat) (base : σ) (c : Cell κ β σ) : Prop where
  content : μ c.content ≤ μ base + c.stored.length
  copies : ∀ k x, c.copies k = some x → μ x ≤ μ base + c.stored.length
  untouched : c.stored = [] → c.content = base
  stale : ∀ k x, c.copies k = some x → x ≠ c.content → Behind μ base c

def Lossy (μ : σ → Nat) (base : σ) (c : Cell κ β σ) : Prop :=
  Behind μ base c ∨ (∀ k, c.copies k = none) ∧ Lacks μ base c c.content

omit [DecidableEq κ] in
theorem countInv_start : CountInv μ base (start base : Cell κ β σ) where
  content := Nat.le_refl _
  copies := fun _ _ h => by cases h
  untouched := fun _ => rfl
  stale := fun _ _ h => by cases h

omit [DecidableEq κ] in
theorem lacks_base (hi : CountInv μ base c) (h : c.content ≠ base ∨ Lacks μ base c c.content) :
    Lacks μ base c base := by
  rw [Lacks, Nat.lt_add_right_iff_pos, List.length_pos_iff]
  intro hnil
  have hb := hi.untouched hnil
  rcases h with h | h
  · exact h hb
  · simp [Lacks, hb, hnil] at h

theorem behind_hold {k : κ} {v : σ} (hk : c.copies k = none) (h : Behind μ base c) :
    Behind μ base (c.hold k v) := by
  obtain ⟨j, x, hx, hlacks⟩ := h
  refine ⟨j, x, ?_, hlacks⟩
  rw [copies_hold, if_neg, hx]
  rintro rfl
  cases hk.symm.trans hx

theorem lacks_put {j k : κ} {v x : σ} {b : β} (hi : CountInv μ base c)
    (hx : (c.put k v b).copies j = some x) :
    Lacks μ base (c.put k v b) x := by
  rw [copies_put] at hx
  split at hx
  · cases hx
  · have := hi.copies j x hx
    rw [Lacks, length_put]
    omega

theorem countInv_hold {k : κ} {v : σ} (hi : CountInv μ base c) (hk : c.copies k = none)
    (hv : μ v ≤ μ base + c.stored.length) (hu : c.stored = [] → v = base)
    (hs : v ≠ c.content → Lacks μ base c v) : CountInv μ base (c.hold k v) where
  content := hv
  copies := by
    intro j x hx
    rw [copies_hold] at hx
    split at hx
    · cases hx; exact hv
    · exact hi.copies j x hx
  untouched := hu
  stale := by
    intro j x hx hne
    by_cases hc : v = c.content
    · rw [copies_hold] at hx
      split at hx
      · cases hx; exact absurd rfl hne
      · exact behind_hold hk (hi.stale j x hx (hc ▸ hne))
    · exact ⟨k, v, by rw [copies_hold, if_pos rfl], hs hc⟩

theorem countInv_step (hμ : ∀ b x, μ (f b x) = μ x + 1) {a : Op κ β} (hi : CountInv μ base c)
    (h : step f base c a = some d) : CountInv μ base d := by
  cases step_shape h with
  | load hk => exact countInv_hold hi hk hi.content hi.untouched fun hne => absurd rfl hne
  | create hk =>
      exact countInv_hold hi hk (Nat.le_add_right _ _) (fun _ => rfl) fun hne =>
        lacks_base hi (.inl (Ne.symm hne))
  | @store k b v hk =>
      refine ⟨?_, fun j x hx => Nat.le_of_lt (lacks_put hi hx), ?_,
        fun j x hx _ => ⟨j, x, hx, lacks_put hi hx⟩⟩
      · have := hi.copies k v hk
        rw [length_put]
        show μ (f b v) ≤ _
        rw [hμ]
        omega
      · exact fun hnil => absurd hnil (by simp [put])

theorem lossy_put (hμ : ∀ b x, μ (f b x) = μ x + 1) {k : κ} {b : β} {v : σ} (hi : CountInv μ base c)
    (hv : Lacks μ base c v) : Lossy μ base (c.put k (f b v) b) := by
  by_cases hnone : ∀ j, (c.put k (f b v) b).copies j = none
  · refine .inr ⟨hnone, ?_⟩
    rw [Lacks] at hv
    rw [Lacks, length_put]
    show μ (f b v) < _
    rw [hμ]
    omega
  · obtain ⟨j, hj⟩ := not_forall.mp hnone
    obtain ⟨x, hx⟩ := Option.ne_none_iff_exists'.mp hj
    exact .inl ⟨j, x, hx, lacks_put hi hx⟩

theorem lossy_step (hμ : ∀ b x, μ (f b x) = μ x + 1) {a : Op κ β} (hi : CountInv μ base c)
    (h : step f base c a = some d) (hl : Lossy μ base c) : Lossy μ base d := by
  have hhold {k : κ} {v : σ} (hk : c.copies k = none) (hv : Lacks μ base c c.content → Lacks μ base c v) :
      Lossy μ base (c.hold k v) := by
    rcases hl with hl | ⟨-, hlacks⟩
    · exact .inl (behind_hold hk hl)
    · exact .inl ⟨k, v, by rw [copies_hold, if_pos rfl], hv hlacks⟩
  cases step_shape h with
  | load hk => exact hhold hk id
  | create hk => exact hhold hk fun hlacks => lacks_base hi (.inr hlacks)
  | @store k b v hk =>
      rcases hl with ⟨j, x, hx, hlacks⟩ | ⟨hnone, -⟩
      · by_cases hj : j = k
        · obtain rfl : v = x := Option.some.inj (hk.symm.trans (hj ▸ hx))
          exact lossy_put hμ hi hlacks
        · exact .inl ⟨j, x, by rw [copies_put, if_neg hj, hx],
            lacks_put hi (by rw [copies_put, if_neg hj, hx])⟩
      · cases (hnone k).symm.trans hk

theorem lossy_of_stale (hμ : ∀ b x, μ (f b x) = μ x + 1) {a : Op κ β} (hi : CountInv μ base c)
    (h : step f base c a = some d) (hC : ¬ Fresh base c a) : Lossy μ base d := by
  cases step_shape h with
  | load => exact absurd trivial hC
  | @create k hk =>
      have hlacks : Lacks μ base c base := lacks_base hi (.inl hC)
      exact .inl ⟨k, base, by rw [copies_hold, if_pos rfl], hlacks⟩
  | @store k b v hk =>
      have hne : v ≠ c.content := fun he => hC (hk.trans (congrArg some he))
      exact lossy_step hμ hi h (.inl (hi.stale k v hk hne))

/-- When no copy is left, every store counts exactly when every one was fresh. -/
theorem measure_eq_iff_fresh (μ : σ → Nat) (hμ : ∀ b x, μ (f b x) = μ x + 1)
    (h : run (step f base) (start base) ops = some c) (hidle : ∀ k, c.copies k = none) :
    μ c.content = μ base + c.stored.length ↔ Along (step f base) (Fresh base) (start base) ops := by
  constructor
  · intro heq
    refine along_of_persistent (fun _ _ _ hi hs => countInv_step hμ hi hs)
      (fun _ _ _ hi hs => lossy_step hμ hi hs)
      (fun _ _ _ hi hs => lossy_of_stale hμ hi hs) h countInv_start ?_
    rintro (⟨k, x, hx, -⟩ | ⟨-, hlacks⟩)
    · cases (hidle k).symm.trans hx
    · rw [Lacks, heq] at hlacks
      exact absurd hlacks (Nat.lt_irrefl _)
  · intro hC
    rw [content_eq_foldl h hC, measure_foldl hμ]

end Counting

end Cell

end EspClawPlatform
