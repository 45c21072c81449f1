import Mathlib.Algebra.GroupWithZero.Nat
import Mathlib.Data.List.Basic
import Mathlib.Data.List.Nodup

namespace EspClawPlatform

class Keyed (ρ : Type) (κ : outParam Type) where
  key : ρ → κ

/-- Rows in insertion order, no two under one key: a database table, or the
entries of a JavaScript `Map`. -/
structure Table (ρ : Type) {κ : Type} [Keyed ρ κ] where
  rows : List ρ
  nodup : (rows.map Keyed.key).Nodup

instance {κ ν : Type} : Keyed (κ × ν) κ := ⟨Prod.fst⟩

namespace Table

open Keyed

variable {ρ κ : Type} [Keyed ρ κ] [DecidableEq κ]

omit [DecidableEq κ] in
@[ext]
theorem ext {t u : Table ρ} (h : t.rows = u.rows) : t = u := by
  cases t; cases u; cases h; rfl

instance [DecidableEq ρ] : DecidableEq (Table ρ) := fun t u =>
  decidable_of_iff (t.rows = u.rows) ⟨ext, fun h => h ▸ rfl⟩

def empty : Table ρ := ⟨[], by simp⟩

def find (t : Table ρ) (k : κ) : Option ρ := t.rows.find? fun r => key r = k

/-- Overwrite the row under the same key where it stands, or append. -/
def put (rows : List ρ) (r : ρ) : List ρ :=
  if rows.any fun x => key x = key r then rows.map fun x => if key x = key r then r else x
  else rows ++ [r]

theorem put_keys (rows : List ρ) (r : ρ) :
    (put rows r).map key = if key r ∈ rows.map key then rows.map key else rows.map key ++ [key r] := by
  by_cases h : ∃ x ∈ rows, key x = key r
  · have hm : key r ∈ rows.map key := by simpa using h
    rw [if_pos hm, put, if_pos (by simpa using h), List.map_map]
    apply List.map_congr_left
    intro x _
    by_cases hx : key x = key r <;> simp [hx]
  · have hm : key r ∉ rows.map key := by simpa using h
    rw [if_neg hm, put, if_neg (by simpa using h)]
    simp

theorem put_nodup {rows : List ρ} (h : (rows.map key).Nodup) (r : ρ) : ((put rows r).map key).Nodup := by
  rw [put_keys]
  split
  · exact h
  · exact List.nodup_append.mpr ⟨h, by simp, by grind⟩

def save (t : Table ρ) (r : ρ) : Table ρ := ⟨put t.rows r, put_nodup t.nodup r⟩

def filter (t : Table ρ) (p : ρ → Bool) : Table ρ :=
  ⟨t.rows.filter p, t.nodup.sublist ((List.filter_sublist).map _)⟩

def modify (t : Table ρ) (f : ρ → ρ) (hf : ∀ r, key (f r) = key r) : Table ρ :=
  ⟨t.rows.map f, by rw [List.map_map, show (key ∘ f : ρ → κ) = key from funext hf]; exact t.nodup⟩

def image {ρ' : Type} [Keyed ρ' κ] (t : Table ρ) (f : ρ → ρ') (hf : ∀ r, key (f r) = key r) : Table ρ' :=
  ⟨t.rows.map f, by rw [List.map_map, show (key ∘ f : ρ → κ) = key from funext hf]; exact t.nodup⟩

def erase (t : Table ρ) (k : κ) : Table ρ := t.filter fun r => key r ≠ k

/-- Forget the oldest `n` rows. -/
def drop (t : Table ρ) (n : Nat) : Table ρ :=
  ⟨t.rows.drop n, t.nodup.sublist ((List.drop_sublist n _).map _)⟩

def size (t : Table ρ) : Nat := t.rows.length

theorem key_of_find {t : Table ρ} {k : κ} {r : ρ} (h : t.find k = some r) : key r = k := by
  simpa using List.find?_some h

theorem mem_of_find {t : Table ρ} {k : κ} {r : ρ} (h : t.find k = some r) : r ∈ t.rows :=
  List.mem_of_find?_eq_some h

theorem find_rows {rows : List ρ} (hn : (rows.map key).Nodup) {r : ρ} (h : r ∈ rows) :
    (rows.find? fun x => key x = key r) = some r := by
  induction rows with
  | nil => cases h
  | cons x rows ih =>
      simp only [List.map_cons, List.nodup_cons] at hn
      rcases List.mem_cons.mp h with rfl | h
      · simp
      · have hx : key x ≠ key r := fun he => hn.1 (he ▸ List.mem_map_of_mem h)
        simpa [List.find?_cons, hx] using ih hn.2 h

theorem find_of_mem {t : Table ρ} {r : ρ} (h : r ∈ t.rows) : t.find (key r) = some r :=
  find_rows t.nodup h

theorem find_eq_some {t : Table ρ} {k : κ} {r : ρ} :
    t.find k = some r ↔ r ∈ t.rows ∧ key r = k :=
  ⟨fun h => ⟨mem_of_find h, key_of_find h⟩, fun ⟨h, hk⟩ => hk ▸ find_of_mem h⟩

theorem mem_put {rows : List ρ} {r x : ρ} : x ∈ put rows r ↔ x = r ∨ x ∈ rows ∧ key x ≠ key r := by
  unfold put
  split
  · rename_i h
    obtain ⟨y, hy, hk⟩ : ∃ y ∈ rows, key y = key r := by simpa using h
    grind
  · rename_i h
    have hk : ∀ y ∈ rows, key y ≠ key r := by simpa using h
    grind

theorem mem_save {t : Table ρ} {r x : ρ} : x ∈ (t.save r).rows ↔ x = r ∨ x ∈ t.rows ∧ key x ≠ key r :=
  mem_put

theorem save_of_empty {t : Table ρ} (h : t.rows = []) (r : ρ) : (t.save r).rows = [r] := by
  change put t.rows r = [r]
  rw [h]
  rfl

theorem rows_save_of_none {t : Table ρ} {r : ρ} (h : t.find (key r) = none) :
    (t.save r).rows = t.rows ++ [r] := by
  have hn : ∀ x ∈ t.rows, key x ≠ key r := by simpa [find] using h
  exact if_neg (by simpa using hn)

theorem save_of_mem {t : Table ρ} {r : ρ} (h : r ∈ t.rows) : t.save r = t := by
  apply ext
  change put t.rows r = t.rows
  rw [put, if_pos (List.any_eq_true.mpr ⟨r, h, decide_eq_true rfl⟩)]
  conv_rhs => rw [← List.map_id t.rows]
  apply List.map_congr_left
  intro x hx
  by_cases hk : key x = key r
  · rw [if_pos hk]
    exact Option.some.inj ((find_of_mem h).symm.trans (hk ▸ find_of_mem hx))
  · exact if_neg hk

theorem save_save (t : Table ρ) {r x : ρ} (h : key r = key x) : (t.save r).save x = t.save x := by
  apply ext
  change put (put t.rows r) x = put t.rows x
  have hany : (put t.rows r).any (fun y => key y = key x) = true := by
    rw [List.any_eq_true]
    exact ⟨r, mem_put.mpr (.inl rfl), by simpa using h⟩
  rw [put, if_pos hany, put, put]
  simp only [h]
  split
  · rw [List.map_map]
    apply List.map_congr_left
    intro y _
    by_cases hy : key y = key x <;> simp [hy, h]
  · rename_i hnone
    rw [List.map_append, List.map_singleton, if_pos h]
    congr 1
    conv_rhs => rw [← List.map_id t.rows]
    apply List.map_congr_left
    intro y hy
    exact if_neg fun he => hnone (List.any_eq_true.mpr ⟨y, hy, by simpa using he⟩)

theorem find_save (t : Table ρ) (r : ρ) (k : κ) :
    (t.save r).find k = if k = key r then some r else t.find k := by
  split
  · rename_i h
    rw [h, find_eq_some]
    exact ⟨mem_save.mpr (.inl rfl), rfl⟩
  · rename_i h
    apply Option.ext
    intro x
    rw [find_eq_some, find_eq_some, mem_save]
    grind

@[simp]
theorem find_save_self (t : Table ρ) (r : ρ) : (t.save r).find (key r) = some r := by
  rw [find_save, if_pos rfl]

theorem find_save_of_ne (t : Table ρ) {r : ρ} {k : κ} (h : k ≠ key r) :
    (t.save r).find k = t.find k := by
  rw [find_save, if_neg h]

theorem find_modify (t : Table ρ) (f : ρ → ρ) (hf : ∀ r, key (f r) = key r) (k : κ) :
    (t.modify f hf).find k = (t.find k).map f := by
  apply Option.ext
  intro x
  rw [find_eq_some, Option.map_eq_some_iff]
  constructor
  · rintro ⟨hx, rfl⟩
    obtain ⟨r, hr, rfl⟩ := List.mem_map.mp hx
    exact ⟨r, hf r ▸ find_of_mem hr, rfl⟩
  · rintro ⟨r, hr, rfl⟩
    exact ⟨List.mem_map_of_mem (mem_of_find hr), (hf r).trans (key_of_find hr)⟩

theorem find_image {ρ' : Type} [Keyed ρ' κ] (t : Table ρ) (f : ρ → ρ') (hf : ∀ r, key (f r) = key r) (k : κ) :
    (t.image f hf).find k = (t.find k).map f := by
  change (t.rows.map f).find? (fun r => key r = k) = _
  rw [List.find?_map]
  simp only [Function.comp_def, hf]
  rfl

theorem modify_save (t : Table ρ) (f : ρ → ρ) (hf : ∀ r, key (f r) = key r) (r : ρ) :
    (t.save r).modify f hf = (t.modify f hf).save (f r) := by
  apply ext
  change (put t.rows r).map f = put (t.rows.map f) (f r)
  simp only [put, List.any_map, Function.comp_def, hf]
  split
  · rw [List.map_map, List.map_map]
    apply List.map_congr_left
    intro x _
    simp only [Function.comp_apply, hf, apply_ite f]
  · rw [List.map_append, List.map_singleton]

theorem modify_erase (t : Table ρ) (f : ρ → ρ) (hf : ∀ r, key (f r) = key r) (k : κ) :
    (t.erase k).modify f hf = (t.modify f hf).erase k := by
  apply ext
  change (t.rows.filter fun r => key r ≠ k).map f = (t.rows.map f).filter fun r => key r ≠ k
  simp only [List.filter_map, Function.comp_def, hf]

omit [DecidableEq κ] in
theorem mem_filter {t : Table ρ} {p : ρ → Bool} {x : ρ} :
    x ∈ (t.filter p).rows ↔ x ∈ t.rows ∧ p x := List.mem_filter

theorem find_filter (t : Table ρ) (p : ρ → Bool) (k : κ) : (t.filter p).find k = (t.find k).filter p := by
  apply Option.ext
  intro x
  rw [find_eq_some, mem_filter, Option.filter_eq_some_iff, find_eq_some]
  exact and_right_comm

theorem mem_erase {t : Table ρ} {k : κ} {x : ρ} : x ∈ (t.erase k).rows ↔ x ∈ t.rows ∧ key x ≠ k := by
  simp [erase, mem_filter]

theorem find_erase (t : Table ρ) (k l : κ) :
    (t.erase k).find l = if l = k then none else t.find l := by
  apply Option.ext
  intro x
  split
  · rename_i h
    rw [find_eq_some, mem_erase]
    grind
  · rename_i h
    rw [find_eq_some, find_eq_some, mem_erase]
    grind

def count (t : Table ρ) (p : ρ → Bool) : Nat := t.rows.countP p

def total (t : Table ρ) (weight : ρ → Nat) : Nat := (t.rows.map weight).sum

theorem sum_put {rows : List ρ} (hn : (rows.map key).Nodup) (weight : ρ → Nat) (r : ρ) :
    ((put rows r).map weight).sum + (rows.find? fun x => key x = key r).elim 0 weight =
      (rows.map weight).sum + weight r := by
  induction rows with
  | nil => simp [put]
  | cons x rows ih =>
      simp only [List.map_cons, List.nodup_cons] at hn
      by_cases hx : key x = key r
      · have hrest : rows.map (fun y => if key y = key r then r else y) = rows := by
          rw [List.map_congr_left (g := id), List.map_id]
          intro y hy
          exact if_neg fun (he : key y = key r) => hn.1 (hx.trans he.symm ▸ List.mem_map_of_mem hy)
        simp only [put, hx, decide_true, List.any_cons, Bool.true_or, if_true, List.map_cons, hrest,
          List.sum_cons, List.find?_cons, Option.elim_some]
        omega
      · have hput : put (x :: rows) r = x :: put rows r := by
          unfold put
          by_cases h : ∃ y ∈ rows, key y = key r <;> simp [hx, h]
        rw [hput, List.map_cons, List.sum_cons, List.map_cons, List.sum_cons, List.find?_cons]
        simp only [hx, decide_false]
        have := ih hn.2
        omega

omit [Keyed ρ κ] [DecidableEq κ] in
theorem sum_set {rows : List ρ} {i : Nat} {r : ρ} (h : rows[i]? = some r) (weight : ρ → Nat) (r' : ρ) :
    ((rows.set i r').map weight).sum + weight r = (rows.map weight).sum + weight r' := by
  induction rows generalizing i with
  | nil => cases h
  | cons x rows ih =>
      cases i with
      | zero =>
          obtain rfl := Option.some.inj h
          simp only [List.set_cons_zero, List.map_cons, List.sum_cons]
          omega
      | succ i =>
          have := ih h
          simp only [List.set_cons_succ, List.map_cons, List.sum_cons]
          omega

theorem total_save (t : Table ρ) (weight : ρ → Nat) (r : ρ) :
    (t.save r).total weight + (t.find (key r)).elim 0 weight = t.total weight + weight r :=
  sum_put t.nodup weight r

theorem sum_erase {rows : List ρ} (hn : (rows.map key).Nodup) (weight : ρ → Nat) (k : κ) :
    ((rows.filter fun x => key x ≠ k).map weight).sum + (rows.find? fun x => key x = k).elim 0 weight =
      (rows.map weight).sum := by
  induction rows with
  | nil => rfl
  | cons x rows ih =>
      simp only [List.map_cons, List.nodup_cons] at hn
      by_cases hx : key x = k
      · have hrest : (rows.filter fun y => key y ≠ k) = rows := by
          apply List.filter_eq_self.mpr
          intro y hy
          have hne : key y ≠ k := fun he => hn.1 (hx.trans he.symm ▸ List.mem_map_of_mem hy)
          exact decide_eq_true hne
        rw [List.filter_cons_of_neg (by simp [hx]), hrest, List.find?_cons_of_pos (by simp [hx]), List.map_cons,
          List.sum_cons, Option.elim_some, Nat.add_comm]
      · have hlater := ih hn.2
        rw [List.filter_cons_of_pos (by simp [hx]), List.find?_cons_of_neg (by simp [hx]), List.map_cons, List.sum_cons,
          List.map_cons, List.sum_cons, Nat.add_assoc, hlater]

theorem total_erase (t : Table ρ) (weight : ρ → Nat) (k : κ) :
    (t.erase k).total weight + (t.find k).elim 0 weight = t.total weight :=
  sum_erase t.nodup weight k

omit [Keyed ρ κ] [DecidableEq κ] in
theorem countP_eq_sum (p : ρ → Bool) (rows : List ρ) : rows.countP p = (rows.map fun x => (p x).toNat).sum := by
  induction rows with
  | nil => rfl
  | cons x rows ih =>
      rw [List.countP_cons, ih, List.map_cons, List.sum_cons, Nat.add_comm]
      cases p x <;> rfl

theorem count_save (t : Table ρ) (p : ρ → Bool) (r : ρ) :
    (t.save r).count p + ((t.find (key r)).any p).toNat = t.count p + (p r).toNat := by
  have htotal := total_save t (fun x => (p x).toNat) r
  rw [total, total, ← countP_eq_sum, ← countP_eq_sum] at htotal
  cases hf : t.find (key r) with
  | none | some => rwa [hf] at htotal

theorem countP_erase {rows : List ρ} (hn : (rows.map key).Nodup) (p : ρ → Bool) (k : κ) :
    (rows.filter fun x => key x ≠ k).countP p + ((rows.find? fun x => key x = k).any p).toNat =
      rows.countP p := by
  induction rows with
  | nil => simp
  | cons x rows ih =>
      simp only [List.map_cons, List.nodup_cons] at hn
      by_cases hx : key x = k
      · have hrest : (rows.filter fun y => key y ≠ k) = rows := by
          apply List.filter_eq_self.mpr
          intro y hy
          have : key y ≠ k := fun he => hn.1 (hx.trans he.symm ▸ List.mem_map_of_mem hy)
          simpa using this
        cases h' : p x <;> simp [hx, h'] <;> simpa using congrArg (List.countP p) hrest
      · have := ih hn.2
        simp only [List.filter_cons, hx, ne_eq, not_false_eq_true, decide_true, if_true,
          List.countP_cons, List.find?_cons, decide_false]
        simp only [ne_eq] at this
        omega

theorem count_erase (t : Table ρ) (p : ρ → Bool) (k : κ) :
    (t.erase k).count p + ((t.find k).any p).toNat = t.count p :=
  countP_erase t.nodup p k

theorem exists_of_count {t : Table ρ} {p : ρ → Bool} (h : 0 < t.count p) :
    ∃ r, t.find (key r) = some r ∧ p r = true := by
  obtain ⟨r, hr, hp⟩ := List.countP_pos_iff.mp h
  exact ⟨r, find_of_mem hr, hp⟩

theorem exists_other {t : Table ρ} {p : ρ → Bool} (h : 1 < t.count p) (k : κ) :
    ∃ r, key r ≠ k ∧ t.find (key r) = some r ∧ p r = true := by
  have hc := count_erase t p k
  have hle : ((t.find k).any p).toNat ≤ 1 := Bool.toNat_le _
  obtain ⟨r, hr, hp⟩ := exists_of_count (t := t.erase k) (p := p) (by omega)
  rw [find_erase] at hr
  split at hr
  · cases hr
  · rename_i hk
    exact ⟨r, hk, hr, hp⟩

section Map

variable {ν : Type}

def get (t : Table (κ × ν)) (k : κ) : Option ν := (t.find k).map Prod.snd

def set (t : Table (κ × ν)) (k : κ) (v : ν) : Table (κ × ν) := t.save (k, v)

theorem get_set (t : Table (κ × ν)) (k l : κ) (v : ν) :
    (t.set k v).get l = if l = k then some v else t.get l := by
  unfold get set
  rw [find_save]
  split <;> rename_i h
  · rw [if_pos (show l = k from h)]; rfl
  · rw [if_neg (show ¬ l = k from h)]

@[simp]
theorem get_set_self (t : Table (κ × ν)) (k : κ) (v : ν) : (t.set k v).get k = some v := by
  rw [get_set, if_pos rfl]

theorem get_set_of_ne (t : Table (κ × ν)) {k l : κ} (v : ν) (h : l ≠ k) :
    (t.set k v).get l = t.get l := by
  rw [get_set, if_neg h]

theorem get_erase (t : Table (κ × ν)) (k l : κ) :
    (t.erase k).get l = if l = k then none else t.get l := by
  unfold get
  rw [find_erase]
  split <;> rfl

@[simp]
theorem get_erase_self (t : Table (κ × ν)) (k : κ) : (t.erase k).get k = none := by
  rw [get_erase, if_pos rfl]

theorem get_eq_some {t : Table (κ × ν)} {k : κ} {v : ν} : t.get k = some v ↔ (k, v) ∈ t.rows := by
  unfold get
  constructor
  · intro h
    obtain ⟨⟨l, w⟩, hf, rfl⟩ := Option.map_eq_some_iff.mp h
    obtain rfl : l = k := key_of_find hf
    exact mem_of_find hf
  · intro h
    have hf := find_of_mem h
    exact Option.map_eq_some_iff.mpr ⟨_, hf, rfl⟩

theorem get_of_perm {t u : Table (κ × ν)} (h : t.rows.Perm u.rows) (k : κ) : t.get k = u.get k := by
  ext v
  rw [get_eq_some, get_eq_some, h.mem_iff]

theorem total_set {t : Table (κ × ν)} {k : κ} {v : ν} (h : t.get k = some v) (weight : ν → Nat) (w : ν) :
    (t.set k w).total (fun row => weight row.2) + weight v = t.total (fun row => weight row.2) + weight w := by
  obtain ⟨row, hrow, rfl⟩ := Option.map_eq_some_iff.mp h
  have hsave := total_save t (fun row => weight row.2) (k, w)
  rwa [show key (k, w) = k from rfl, hrow] at hsave

theorem total_erase_of_get {t : Table (κ × ν)} {k : κ} {v : ν} (h : t.get k = some v) (weight : ν → Nat) :
    (t.erase k).total (fun row => weight row.2) + weight v = t.total (fun row => weight row.2) := by
  obtain ⟨row, hrow, rfl⟩ := Option.map_eq_some_iff.mp h
  have herase := total_erase t (fun row => weight row.2) k
  rwa [hrow] at herase

theorem get_foldl_set {rows : List (κ × ν)} (hn : (rows.map Prod.fst).Nodup) (t : Table (κ × ν)) (k : κ) :
    (rows.foldl (fun t r => t.set r.1 r.2) t).get k =
      ((rows.find? fun r => r.1 = k).map Prod.snd).or (t.get k) := by
  induction rows generalizing t with
  | nil => rfl
  | cons r rows ih =>
      obtain ⟨hfirst, hrest⟩ := List.nodup_cons.mp hn
      rw [List.foldl_cons, ih hrest, get_set]
      by_cases hk : k = r.1
      · have hnone : rows.find? (fun x => x.1 = k) = none := by
          rw [List.find?_eq_none]
          intro x hx he
          exact hfirst (List.mem_map.mpr ⟨x, hx, (of_decide_eq_true he).trans hk⟩)
        rw [hnone, if_pos hk, List.find?_cons, decide_eq_true hk.symm]
        rfl
      · rw [if_neg hk, List.find?_cons, decide_eq_false (Ne.symm hk)]

def mapValues (f : ν → ν) (t : Table (κ × ν)) : Table (κ × ν) := t.modify (fun r => (r.1, f r.2)) fun _ => rfl

theorem get_mapValues (f : ν → ν) (t : Table (κ × ν)) (k : κ) : (t.mapValues f).get k = (t.get k).map f := by
  unfold get mapValues
  rw [find_modify, Option.map_map, Option.map_map]
  rfl

theorem mapValues_set (f : ν → ν) (t : Table (κ × ν)) (k : κ) (v : ν) :
    (t.set k v).mapValues f = (t.mapValues f).set k (f v) :=
  modify_save ..

theorem mapValues_erase (f : ν → ν) (t : Table (κ × ν)) (k : κ) :
    (t.erase k).mapValues f = (t.mapValues f).erase k :=
  modify_erase ..

theorem get_foldl_last {σ α : Type} {f : σ → α → σ} (get : σ → Option ν) {write : α → Option ν} {xs : List α}
    (h : ∀ x ∈ xs, ∀ s, get (f s x) = (write x).or (get s)) (s : σ) :
    get (xs.foldl f s) = ((xs.filterMap write).getLast?).or (get s) := by
  induction xs generalizing s with
  | nil => rfl
  | cons x xs ih =>
      rw [List.foldl_cons, ih fun y hy => h y (List.mem_cons_of_mem x hy), h x List.mem_cons_self]
      cases hw : write x with
      | none => rw [List.filterMap_cons_none hw, Option.none_or]
      | some v =>
          rw [List.filterMap_cons_some hw, List.getLast?_cons]
          cases (xs.filterMap write).getLast? <;> rfl

end Map

end Table

end EspClawPlatform
