import Mathlib.Data.List.Basic

namespace EspClawPlatform.Journal

variable {σ ε : Type} {apply : σ → ε → σ} {P : σ → ε → Prop} {p : σ → ε → Bool} {start : σ}

/-- Every entry satisfies `P` in the state that the entries before it add up to. -/
def Each (apply : σ → ε → σ) (P : σ → ε → Prop) (start : σ) (entries : List ε) : Prop :=
  ∀ pre e post, entries = pre ++ e :: post → P (pre.foldl apply start) e

theorem each_nil : Each apply P start [] := by
  intro pre e post h
  cases (List.append_eq_nil_iff.mp h.symm).2

theorem each_concat {entries : List ε} {e : ε} :
    Each apply P start (entries ++ [e]) ↔ Each apply P start entries ∧ P (entries.foldl apply start) e := by
  constructor
  · intro h
    refine ⟨fun pre x post hx => h pre x (post ++ [e]) ?_, h entries e [] rfl⟩
    rw [hx, List.append_assoc]
    rfl
  · rintro ⟨heach, he⟩ pre x post hx
    rcases List.eq_nil_or_concat post with rfl | ⟨rest, y, rfl⟩
    · obtain ⟨rfl, hlast⟩ := List.append_inj' hx rfl
      exact (List.cons.inj hlast).1 ▸ he
    · have hsplit : entries ++ [e] = (pre ++ x :: rest) ++ [y] := by
        rw [hx, List.concat_eq_append, List.append_assoc]
        rfl
      exact heach pre x rest (List.append_inj' hsplit rfl).1

def count (apply : σ → ε → σ) (p : σ → ε → Bool) : σ → List ε → Nat
  | _, [] => 0
  | s, e :: entries => (p s e).toNat + count apply p (apply s e) entries

theorem count_concat (entries : List ε) (e : ε) :
    count apply p start (entries ++ [e]) =
      count apply p start entries + (p (entries.foldl apply start) e).toNat := by
  induction entries generalizing start with
  | nil => exact Nat.add_comm _ _
  | cons x entries ih =>
      rw [List.cons_append, count, count, ih, Nat.add_assoc]
      rfl

theorem foldl_filter {keep : ε → Bool} (h : ∀ e, keep e = false → ∀ s, apply s e = s) (entries : List ε)
    (s : σ) : (entries.filter keep).foldl apply s = entries.foldl apply s := by
  induction entries generalizing s with
  | nil => rfl
  | cons e entries ih =>
      cases hk : keep e with
      | true => rw [List.filter_cons_of_pos hk, List.foldl_cons, List.foldl_cons, ih]
      | false => rw [List.filter_cons_of_neg (by rw [hk]; exact Bool.false_ne_true), ih, List.foldl_cons, h e hk]

theorem filter_isPrefix {entries : List ε} {q : ε → Bool}
    (h : entries.Pairwise fun x y => q y = true → q x = true) : entries.filter q <+: entries := by
  induction entries with
  | nil => exact List.prefix_rfl
  | cons x entries ih =>
      obtain ⟨hx, hrest⟩ := List.pairwise_cons.mp h
      cases hq : q x with
      | true =>
          rw [List.filter_cons_of_pos hq]
          exact (List.prefix_cons_inj x).mpr (ih hrest)
      | false =>
          have hnone : (x :: entries).filter q = [] := by
            rw [List.filter_cons_of_neg (by rw [hq]; exact Bool.false_ne_true), List.filter_eq_nil_iff]
            intro y hy hqy
            rw [hx y hy hqy] at hq
            cases hq
          rw [hnone]
          exact List.nil_prefix

theorem map_filterMap {ρ τ : Type} {f : ε → Option ρ} {g : ρ → τ} {g' : ε → τ} {entries : List ε}
    (h : ∀ e ∈ entries, ∀ r, f e = some r → g r = g' e) :
    (entries.filterMap f).map g = (entries.filter fun e => (f e).isSome).map g' := by
  induction entries with
  | nil => rfl
  | cons e entries ih =>
      have hrest := ih fun x hx => h x (List.mem_cons_of_mem e hx)
      cases hf : f e with
      | none => rw [List.filterMap_cons_none hf, List.filter_cons_of_neg (by rw [hf]; exact Bool.false_ne_true), hrest]
      | some r =>
          rw [List.filterMap_cons_some hf, List.filter_cons_of_pos (by rw [hf]; rfl), List.map_cons, List.map_cons, hrest,
            h e List.mem_cons_self r hf]

end EspClawPlatform.Journal
