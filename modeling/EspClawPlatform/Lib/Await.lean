import EspClawPlatform.Lib.Table

namespace EspClawPlatform.Await

variable {φ ρ : Type}

/-- Where the end of an await brings a call: to its next one, or to its result. -/
inductive Next (φ ρ : Type)
  | await (frame : φ)
  | done (result : ρ)

namespace Next

def frame : Next φ ρ → Option φ
  | .await frame => some frame
  | .done _ => none

def frames (next : Next φ ρ) (call : Nat) (frames : Table (Nat × φ)) : Table (Nat × φ) :=
  match next with
  | .await frame => frames.set call frame
  | .done _ => frames.erase call

def results (next : Next φ ρ) (call : Nat) (results : Table (Nat × ρ)) : Table (Nat × ρ) :=
  match next with
  | .await _ => results
  | .done result => results.set call result

theorem get_frames (next : Next φ ρ) (call : Nat) (frames : Table (Nat × φ)) (c : Nat) :
    (next.frames call frames).get c = if c = call then next.frame else frames.get c := by
  cases next with
  | await frame => exact Table.get_set _ _ _ _
  | done result => exact Table.get_erase _ _ _

theorem results_get {next : Next φ ρ} {call c : Nat} {results : Table (Nat × ρ)} {r : ρ}
    (h : (next.results call results).get c = some r) : results.get c = some r ∨ c = call ∧ next = .done r := by
  cases next with
  | await frame => exact .inl h
  | done result =>
      rw [Next.results, Table.get_set] at h
      split at h
      · rename_i hc
        cases h
        exact .inr ⟨hc, rfl⟩
      · exact .inl h

end Next

end EspClawPlatform.Await
