import Mathlib.Data.List.Nodup
import Mathlib.Data.List.Perm.Subperm

namespace EspClawPlatform.Page

variable {α : Type}

section

variable (key : α → Nat)

def newestFirst (rows : List α) : List α := rows.mergeSort fun a b => key b ≤ key a

/-- The `limit` newest of the rows, the newest first. -/
structure IsPage (limit : Nat) (rows items : List α) : Prop where
  descending : items.Pairwise fun a b => key b < key a
  subset : ∀ r ∈ items, r ∈ rows
  newest : ∀ r ∈ rows, r ∉ items → ∀ item ∈ items, key r < key item
  length : items.length = min limit rows.length

end

variable {key : α → Nat} {limit : Nat} {rows items : List α}

theorem newestFirst_perm (rows : List α) : (newestFirst key rows).Perm rows := List.mergeSort_perm rows _

theorem newestFirst_descending (h : (rows.map key).Nodup) :
    (newestFirst key rows).Pairwise fun a b => key b < key a := by
  have hle : (newestFirst key rows).Pairwise fun a b => (decide (key b ≤ key a)) = true :=
    List.pairwise_mergeSort (fun a b c => by simpa using fun hab hbc => Nat.le_trans hbc hab)
      (fun a b => by simpa using Nat.le_total (key b) (key a)) rows
  have hne : (newestFirst key rows).Pairwise fun a b => key a ≠ key b :=
    List.pairwise_map.mp (((newestFirst_perm rows).map key).nodup_iff.mpr h)
  exact hle.imp₂ (fun a b hab hne => Nat.lt_of_le_of_ne (of_decide_eq_true hab) hne.symm) hne

theorem eq_of_ascending {xs ys : List α} (hx : xs.Pairwise fun a b => key a < key b)
    (hy : ys.Pairwise fun a b => key a < key b) (h : ∀ a, a ∈ xs ↔ a ∈ ys) : xs = ys := by
  have hnodup {zs : List α} (hz : zs.Pairwise fun a b => key a < key b) : zs.Nodup := by
    refine hz.imp fun hlt => ?_
    rintro rfl
    exact Nat.lt_irrefl _ hlt
  have hperm := (List.perm_ext_iff_of_nodup (hnodup hx) (hnodup hy)).mpr h
  exact hperm.eq_of_pairwise (fun a b _ _ hab hba => absurd hab (Nat.lt_asymm hba)) hx hy

theorem isPage_take (h : (rows.map key).Nodup) (limit : Nat) :
    IsPage key limit rows ((newestFirst key rows).take limit) := by
  have hdescending := newestFirst_descending h
  rw [← List.take_append_drop limit (newestFirst key rows), List.pairwise_append] at hdescending
  refine ⟨hdescending.1, fun r hr => ?_, fun r hr hnot item hitem => ?_, ?_⟩
  · exact (newestFirst_perm rows).mem_iff.mp (List.mem_of_mem_take hr)
  · have hmem : r ∈ newestFirst key rows := (newestFirst_perm rows).mem_iff.mpr hr
    rw [← List.take_append_drop limit (newestFirst key rows)] at hmem
    exact hdescending.2.2 item hitem r ((List.mem_append.mp hmem).resolve_left hnot)
  · rw [List.length_take, (newestFirst_perm rows).length_eq]

theorem IsPage.nodup (h : IsPage key limit rows items) : items.Nodup := by
  refine h.descending.imp fun hlt => ?_
  rintro rfl
  exact Nat.lt_irrefl _ hlt

theorem IsPage.all_iff (h : IsPage key limit rows items) (hrows : (rows.map key).Nodup) :
    (∀ r ∈ rows, r ∈ items) ↔ rows.length ≤ limit := by
  have hlength := h.length
  constructor
  · intro hall
    have hsub : rows.Subperm items := (List.Nodup.of_map key hrows).subperm hall
    have := hsub.length_le
    omega
  · intro hle r hr
    have hperm : items.Perm rows := (h.nodup.subperm h.subset).perm_of_length_le (by omega)
    exact hperm.mem_iff.mpr hr

theorem IsPage.last_le (h : IsPage key limit rows items) {last : α} (hlast : items.getLast? = some last) :
    ∀ item ∈ items, key last ≤ key item := by
  obtain ⟨front, rfl⟩ := List.getLast?_eq_some_iff.mp hlast
  intro item hitem
  rcases List.mem_append.mp hitem with hitem | hitem
  · exact Nat.le_of_lt ((List.pairwise_append.mp h.descending).2.2 item hitem last List.mem_cons_self)
  · exact Nat.le_of_eq (congrArg key (List.mem_singleton.mp hitem).symm)

end EspClawPlatform.Page
