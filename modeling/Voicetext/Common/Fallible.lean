import Mathlib.Data.Option.Basic

/-!
# Fallible computations
-/

namespace Voicetext.Common

variable {ε α β : Type}

/-- A sequence succeeds when both of its parts do. -/
theorem bind_eq_ok {x : Except ε α} {f : α → Except ε β} {b : β} :
    x >>= f = .ok b ↔ ∃ a, x = .ok a ∧ f a = .ok b := by
  cases x with
  | error e => simp [bind, Except.bind]
  | ok a => simp [bind, Except.bind]

/-- What follows a value. -/
theorem ok_bind {a : α} {f : α → Except ε β} : Except.ok a >>= f = f a := rfl

/-- A check and what follows it. -/
theorem check_bind_eq_ok {x : Except ε Unit} {f : Unit → Except ε β} {b : β} :
    x >>= f = .ok b ↔ x = .ok () ∧ f () = .ok b := by
  cases x <;> simp [bind, Except.bind]

/-- A guarded computation succeeds when its guard lets it through. -/
theorem ite_error_eq_ok {condition : Prop} [Decidable condition] {e : ε} {x : Except ε α} {a : α} :
    (if condition then .error e else x) = .ok a ↔ ¬ condition ∧ x = .ok a := by
  by_cases h : condition <;> simp [h]

/-- A value under a condition is there when the condition holds. -/
theorem ite_ok_eq_ok {condition : Prop} [Decidable condition] {e : ε} {a b : α} :
    (if condition then .ok a else .error e) = Except.ok b ↔ condition ∧ a = b := by
  by_cases h : condition <;> simp [h]

/-- A required value succeeds when it is there. -/
theorem elim_eq_ok {x : Option α} {e : ε} {a : α} : x.elim (Except.error e) .ok = .ok a ↔ x = some a := by
  cases x <;> simp

/-- A computation which can be seen to succeed gives a value. -/
theorem isOk_iff {x : Except ε α} : x.isOk = true ↔ ∃ a, x = .ok a := by
  cases x <;> simp [Except.isOk, Except.toBool]

/-- A value which is mapped. -/
theorem map_eq_ok {x : Except ε α} {f : α → β} {b : β} : x.map f = .ok b ↔ ∃ a, x = .ok a ∧ f a = b := by
  cases x <;> simp [Except.map]

/-- A failure with another reason is a failure. -/
theorem mapError_eq_ok {ε' : Type} {x : Except ε α} {f : ε → ε'} {a : α} : x.mapError f = .ok a ↔ x = .ok a := by
  cases x <;> simp [Except.mapError]

/-- A list is mapped when each of its elements is. -/
theorem mapM_eq_ok_map {f : α → Except ε β} {valid : α → Prop} {g : α → β}
    (hf : ∀ a b, f a = .ok b ↔ valid a ∧ g a = b) {values : List α} {results : List β} :
    values.mapM f = .ok results ↔ (∀ a ∈ values, valid a) ∧ values.map g = results := by
  induction values generalizing results with
  | nil => simp [pure, Except.pure]
  | cons a rest ih =>
    rw [List.mapM_cons, bind_eq_ok]
    simp only [hf, bind_eq_ok, ih, List.forall_mem_cons, List.map_cons, pure, Except.pure, Except.ok.injEq]
    constructor
    · rintro ⟨_, ⟨ha, rfl⟩, _, ⟨hrest, rfl⟩, rfl⟩
      exact ⟨⟨ha, hrest⟩, rfl⟩
    · rintro ⟨⟨ha, hrest⟩, rfl⟩
      exact ⟨_, ⟨ha, rfl⟩, _, ⟨hrest, rfl⟩, rfl⟩

section Rules

/-- Whatever a computation gives meets a predicate, and so does whatever it fails with. -/
def Meets (p : ε → Prop) (q : α → Prop) : Except ε α → Prop
  | .error e => p e
  | .ok a => q a

variable {p : ε → Prop} {q : α → Prop} {r : β → Prop} {x : Except ε α}

theorem Meets.ok {a : α} (h : Meets p q x) (hx : x = .ok a) : q a := by
  subst hx
  exact h

theorem Meets.error {e : ε} (h : Meets p q x) (hx : x = .error e) : p e := by
  subst hx
  exact h

theorem Meets.mono {p' : ε → Prop} {q' : α → Prop} (h : Meets p q x)
    (hfailure : ∀ e, p e → p' e) (hsuccess : ∀ a, q a → q' a) :
    Meets p' q' x := by
  cases x with
  | error e => exact hfailure e h
  | ok a => exact hsuccess a h

/-- A sequence composes through the value of its first part. -/
theorem Meets.bind {f : α → Except ε β} (h : Meets p q x)
    (hf : ∀ a, q a → Meets p r (f a)) : Meets p r (x >>= f) := by
  cases x with
  | error e => exact h
  | ok a => exact hf a h

/-- A required value is followed by a computation, or fails when it is missing. -/
theorem Meets.required {value : Option α} {e : ε} {f : α → Except ε β} (hfailure : p e)
    (hf : ∀ a, value = some a → Meets p r (f a)) :
    Meets p r (value.elim (.error e) .ok >>= f) := by
  cases value with
  | none => exact hfailure
  | some a => exact hf a rfl

/-- Each element a list is mapped to meets what its own computation does. -/
theorem Meets.mapM {f : α → Except ε β} {values : List α} (h : ∀ a ∈ values, Meets p r (f a)) :
    Meets p (fun results => ∀ b ∈ results, r b) (values.mapM f) := by
  induction values with
  | nil => exact fun b hb => nomatch hb
  | cons a rest ih =>
    rw [List.mapM_cons]
    refine (h a List.mem_cons_self).bind fun b hb => ?_
    refine (ih fun c hc => h c (List.mem_cons_of_mem a hc)).bind fun results hresults => ?_
    exact List.forall_mem_cons.mpr ⟨hb, hresults⟩

/-- A walk keeps what each of its steps keeps. -/
theorem Meets.foldlM {f : β → α → Except ε β} {values : List α}
    (h : ∀ state, r state → ∀ a ∈ values, Meets p r (f state a)) {state : β}
    (hstate : r state) : Meets p r (values.foldlM f state) := by
  induction values generalizing state with
  | nil => exact hstate
  | cons a rest ih =>
    rw [List.foldlM_cons]
    refine (h state hstate a List.mem_cons_self).bind fun next hnext => ?_
    exact ih (fun state hstate c hc => h state hstate c (List.mem_cons_of_mem a hc)) hnext

end Rules

end Voicetext.Common
