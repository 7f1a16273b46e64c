import Mathlib

/-!
# How a computation with failure ends

`Ends P Q x`: the computation `x` in `Except` ends in a value with `P` or in an error with `Q`.
It is the triple of a computation without precondition; sequencing is `Ends.bind`.

* `Ends.bind`, `Ends.mono`, `Ends.and`, `ends_ite`   the rules;
* `Ends.ok`, `Ends.error`  what is known of a given end.
-/

universe u v

section
variable {ε : Type u} {α β : Type v}

/-- the computation ends in a value with `P` or in an error with `Q` -/
def Ends (P : α → Prop) (Q : ε → Prop) : Except ε α → Prop
  | .ok a => P a
  | .error e => Q e

variable {P P' : α → Prop} {Q Q' : ε → Prop} {x y : Except ε α}

theorem Ends.ok (h : Ends P Q x) {a : α} (ha : x = .ok a) : P a := by
  rw [ha] at h
  exact h

theorem Ends.error (h : Ends P Q x) {e : ε} (he : x = .error e) : Q e := by
  rw [he] at h
  exact h

theorem Ends.mono (h : Ends P Q x) (hP : ∀ a, P a → P' a) (hQ : ∀ e, Q e → Q' e) : Ends P' Q' x := by
  cases x with
  | ok a => exact hP a h
  | error e => exact hQ e h

theorem Ends.imp (h : Ends P Q x) (hP : ∀ a, P a → P' a) : Ends P' Q x := h.mono hP fun _ hq => hq

theorem Ends.and (h : Ends P Q x) (h' : Ends P' Q' x) : Ends (fun a => P a ∧ P' a) Q x := by
  cases x with
  | ok a => exact ⟨h, h'⟩
  | error e => exact h

theorem Ends.bind {R : β → Prop} {f : α → Except ε β} (h : Ends P Q x)
    (hf : ∀ a, P a → Ends R Q (f a)) : Ends R Q (x >>= f) := by
  cases x with
  | ok a => exact hf a h
  | error e => exact h

theorem ends_ite {q : Prop} [Decidable q] (hx : q → Ends P Q x) (hy : ¬ q → Ends P Q y) :
    Ends P Q (if q then x else y) := by
  by_cases hq : q
  · rw [if_pos hq]
    exact hx hq
  · rw [if_neg hq]
    exact hy hq

end
