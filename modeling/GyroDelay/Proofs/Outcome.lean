import GyroDelay.Fault

/-!
# Outcomes of runs

A run that succeeds has done so at each of its steps, and one that fails has failed at one of
them (`bind_eq_ok`, `bind_eq_error`).

Two runs agree when both succeed with results in a given relation, or both fail for the same
kind of fault. Agreement passes from the steps of two runs to the runs (`Agrees.bind`).
-/

namespace GyroDelay

/-! ## The steps of a run -/

section Steps

variable {ε β γ : Type}

theorem bind_eq_ok {x : Except ε β} {f : β → Except ε γ} {c : γ} (h : x >>= f = .ok c) :
    ∃ b, x = .ok b ∧ f b = .ok c := by
  cases x with
  | error e => cases h
  | ok b => exact ⟨b, rfl, h⟩

theorem bind_eq_error {x : Except ε β} {f : β → Except ε γ} {e : ε} (h : x >>= f = .error e) :
    x = .error e ∨ ∃ b, x = .ok b ∧ f b = .error e := by
  cases x with
  | error e' =>
    left
    cases h
    rfl
  | ok b => exact .inr ⟨b, rfl, h⟩

theorem map_eq_ok {x : Except ε β} {f : β → γ} {c : γ} (h : x.map f = .ok c) :
    ∃ b, x = .ok b ∧ f b = c := by
  cases x with
  | error e => cases h
  | ok b => exact ⟨b, rfl, Except.ok.inj h⟩

theorem map_eq_error {x : Except ε β} {f : β → γ} {e : ε} (h : x.map f = .error e) :
    x = .error e := by
  cases x with
  | error e' => exact congrArg _ (Except.error.inj h)
  | ok b => cases h

end Steps

/-! ## Agreement -/

/-- Both results succeed and are related, or both fail with a fault of the same kind. -/
inductive Agrees {α β γ : Type} (r : β → γ → Prop) :
    Except (Fault α) β → Except (Fault α) γ → Prop
  | ok {b : β} {c : γ} (h : r b c) : Agrees r (.ok b) (.ok c)
  | error {f g : Fault α} (h : g.kind = f.kind) : Agrees r (.error f) (.error g)

namespace Agrees

variable {α β γ δ ε : Type} {r : β → γ → Prop} {s : δ → ε → Prop}
  {x : Except (Fault α) β} {y : Except (Fault α) γ}

theorem of_eq_map {f : β → γ} (h : y = x.map f) : Agrees (fun b c => c = f b) x y := by
  subst h
  cases x with
  | error fault => exact error rfl
  | ok b => exact ok rfl

theorem bind (h : Agrees r x y) {f : β → Except (Fault α) δ} {g : γ → Except (Fault α) ε}
    (hfg : ∀ b c, r b c → Agrees s (f b) (g c)) : Agrees s (x >>= f) (y >>= g) := by
  cases h with
  | ok h => exact hfg _ _ h
  | error h => exact error h

end Agrees

end GyroDelay
