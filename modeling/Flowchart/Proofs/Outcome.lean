/-! Computations that may fail. -/
namespace Flowchart
variable {ε α β : Type}

/-- What succeeds has a first step that succeeds. -/
theorem exists_of_bind_eq_ok {step : Except ε α} {next : α → Except ε β} {r : β}
    (h : step >>= next = .ok r) : ∃ mid, step = .ok mid ∧ next mid = .ok r := by
  cases step with
  | error fault => cases h
  | ok mid => exact ⟨mid, rfl, h⟩

theorem bind_eq_ok {step : Except ε α} {next : α → Except ε β} {mid : α} {r : β}
    (hstep : step = .ok mid) (hnext : next mid = .ok r) : step >>= next = .ok r := by
  rw [hstep]
  exact hnext

theorem bind_of_ok {step : Except ε α} {mid : α} (hstep : step = .ok mid)
    (next : α → Except ε β) : step >>= next = next mid := by
  rw [hstep]
  rfl

theorem exists_bind_eq_ok {step : Except ε α} {next : α → Except ε β} {mid : α}
    (hstep : step = .ok mid) (hnext : ∃ r, next mid = .ok r) : ∃ r, step >>= next = .ok r := by
  rw [hstep]
  exact hnext

theorem exists_of_any_toOption {r : Except ε α} {check : α → Bool}
    (h : r.toOption.any check = true) : ∃ a, r = .ok a ∧ check a = true := by
  cases r with
  | error fault => cases h
  | ok a => exact ⟨a, rfl, h⟩

end Flowchart
