import ContainerKeys.Gather
import ContainerKeys.Log
import Mathlib.Data.List.Forall2

/-!
# Attempts that succeed

What is known of the parts of an attempt from its success as a whole. All statements go through
`Attempt.outcome`, so log lines play no part in them.

* `Attempt.outcome_bind_eq_ok` — both steps of a sequence succeed.
* `Attempt.outcome_gather_eq_ok` — gathering appends what each element gives.
* `Attempt.outcome_mapM_eq_ok` — mapping gives one result for each element.
* `Succeeds` — there is a result, whatever it is.
-/

namespace ContainerKeys

theorem except_bind_eq_ok {x : Except ε α} {f : α → Except ε β} {b : β} :
    x >>= f = .ok b ↔ ∃ a, x = .ok a ∧ f a = .ok b := by
  cases x with
  | error e => simp [bind, Except.bind]
  | ok a => simp [bind, Except.bind]

namespace Attempt

variable {ε ε' α β : Type}

/-- What a successful attempt gives; nothing if it fails. -/
def items (x : Attempt ε (List α)) : List α :=
  match x.outcome with
  | .ok l => l
  | .error _ => []

theorem items_of_ok {x : Attempt ε (List α)} {l : List α} (h : x.outcome = .ok l) :
    x.items = l := by
  rw [items, h]

theorem outcome_bind_eq_ok {x : Attempt ε α} {f : α → Attempt ε β} {b : β} :
    (x >>= f).outcome = .ok b ↔ ∃ a, x.outcome = .ok a ∧ (f a).outcome = .ok b := by
  rw [outcome_bind, except_bind_eq_ok]

theorem outcome_adapt_eq_ok {x : Attempt ε α} {f : ε → ε'} {a : α} :
    Attempt.outcome (ExceptT.adapt f x) = .ok a ↔ x.outcome = .ok a := by
  show (x.run.value.mapError f) = .ok a ↔ x.run.value = .ok a
  cases x.run.value with
  | error e => simp [Except.mapError]
  | ok b => simp [Except.mapError]

/-- What is gathered is what each element gives, one after another. -/
theorem outcome_gather_eq_ok {f : α → Attempt ε (List β)} {l : List α} {r : List β}
    (h : (gather f l).outcome = .ok r) :
    r = l.flatMap (fun a => (f a).items) ∧ ∀ a ∈ l, ∃ here, (f a).outcome = .ok here := by
  induction l generalizing r with
  | nil =>
    cases h
    exact ⟨rfl, by simp⟩
  | cons a rest ih =>
    rw [gather, outcome_bind_eq_ok] at h
    obtain ⟨here, ha, h⟩ := h
    rw [outcome_bind_eq_ok] at h
    obtain ⟨more, hrest, h⟩ := h
    obtain ⟨rfl, all⟩ := ih hrest
    cases h
    refine ⟨by rw [List.flatMap_cons, items_of_ok ha], ?_⟩
    intro b hb
    rcases List.mem_cons.mp hb with rfl | hb
    · exact ⟨here, ha⟩
    · exact all b hb

/-- What is gathered comes from one of the elements. -/
theorem mem_of_outcome_gather_eq_ok {f : α → Attempt ε (List β)} {l : List α} {r : List β}
    (h : (gather f l).outcome = .ok r) {b : β} (hb : b ∈ r) :
    ∃ a ∈ l, ∃ here, (f a).outcome = .ok here ∧ b ∈ here := by
  obtain ⟨rfl, each⟩ := outcome_gather_eq_ok h
  obtain ⟨a, ha, hb⟩ := List.mem_flatMap.mp hb
  obtain ⟨here, given⟩ := each a ha
  rw [items_of_ok given] at hb
  exact ⟨a, ha, here, given, hb⟩

/-- Mapping gives one result for each element, in order. -/
theorem outcome_mapM_eq_ok {f : α → Attempt ε β} {l : List α} {r : List β}
    (h : (l.mapM f).outcome = .ok r) : List.Forall₂ (fun a b => (f a).outcome = .ok b) l r := by
  induction l generalizing r with
  | nil =>
    cases h
    exact List.Forall₂.nil
  | cons a rest ih =>
    rw [List.mapM_cons, outcome_bind_eq_ok] at h
    obtain ⟨b, ha, h⟩ := h
    rw [outcome_bind_eq_ok] at h
    obtain ⟨bs, hrest, h⟩ := h
    cases h
    exact List.Forall₂.cons ha (ih hrest)

end Attempt

/-- What is gathered without a log is what each element gives, one after another. -/
theorem eq_flatMap_of_gather_eq_ok {f : α → Except ε (List β)} {g : α → List β} {l : List α} {r : List β}
    (each : ∀ a ∈ l, ∀ r, f a = .ok r → r = g a) (h : gather f l = .ok r) : r = l.flatMap g := by
  induction l generalizing r with
  | nil =>
    cases h
    rfl
  | cons a rest ih =>
    rw [List.forall_mem_cons] at each
    rw [gather] at h
    rcases except_bind_eq_ok.mp h with ⟨here, first, h⟩
    rcases except_bind_eq_ok.mp h with ⟨more, later, h⟩
    cases h
    rw [List.flatMap_cons, each.1 here first, ih each.2 later]

/-- So each part of it is given by some element. -/
theorem mem_of_gather_eq_ok {f : α → Except ε (List β)} {l : List α} {r : List β}
    (h : gather f l = .ok r) {b : β} (hb : b ∈ r) : ∃ a ∈ l, ∃ here, f a = .ok here ∧ b ∈ here := by
  induction l generalizing r with
  | nil =>
    cases h
    simp at hb
  | cons a rest ih =>
    rw [gather, except_bind_eq_ok] at h
    obtain ⟨here, ha, h⟩ := h
    rw [except_bind_eq_ok] at h
    obtain ⟨more, hrest, h⟩ := h
    cases h
    rcases List.mem_append.mp hb with hb | hb
    · exact ⟨a, List.mem_cons_self, here, ha, hb⟩
    · obtain ⟨c, hc, found⟩ := ih hrest hb
      exact ⟨c, List.mem_cons_of_mem a hc, found⟩

/-! ## Success -/

/-- The computation gives a result. -/
def Succeeds (x : Except ε α) : Prop :=
  ∃ a, x = .ok a

@[simp] theorem succeeds_ok (a : α) : Succeeds (.ok a : Except ε α) :=
  ⟨a, rfl⟩

@[simp] theorem succeeds_pure (a : α) : Succeeds (pure a : Except ε α) :=
  ⟨a, rfl⟩

@[simp] theorem not_succeeds_error (e : ε) : ¬ Succeeds (.error e : Except ε α) := by
  rintro ⟨a, h⟩
  cases h

theorem succeeds_bind_iff {x : Except ε α} {f : α → Except ε β} :
    Succeeds (x >>= f) ↔ Succeeds x ∧ ∀ a, x = .ok a → Succeeds (f a) := by
  constructor
  · rintro ⟨b, h⟩
    rcases except_bind_eq_ok.mp h with ⟨a, first, second⟩
    refine ⟨⟨a, first⟩, ?_⟩
    intro a' first'
    rw [first] at first'
    cases first'
    exact ⟨b, second⟩
  · rintro ⟨⟨a, first⟩, later⟩
    rcases later a first with ⟨b, second⟩
    exact ⟨b, except_bind_eq_ok.mpr ⟨a, first, second⟩⟩

/-- What is made of a result does not matter. -/
@[simp] theorem succeeds_map_iff {x : Except ε α} {f : α → β} : Succeeds (f <$> x) ↔ Succeeds x := by
  cases x with
  | error e => simp [Functor.map, Except.map]
  | ok a => simp [Functor.map, Except.map]

/-- Two computations, one after another, that do not depend on each other. -/
theorem succeeds_bind_map_iff {x : Except ε α} {y : Except ε β} {f : α → β → γ} :
    Succeeds (x >>= fun a => f a <$> y) ↔ Succeeds x ∧ Succeeds y := by
  rw [succeeds_bind_iff]
  simp only [succeeds_map_iff]
  constructor
  · rintro ⟨⟨a, first⟩, later⟩
    exact ⟨⟨a, first⟩, later a first⟩
  · rintro ⟨first, second⟩
    exact ⟨first, fun _ _ => second⟩

theorem succeeds_gather_iff {f : α → Except ε (List β)} {l : List α} :
    Succeeds (gather f l) ↔ ∀ a ∈ l, Succeeds (f a) := by
  induction l with
  | nil => simp [gather]
  | cons a rest ih =>
    rw [gather, List.forall_mem_cons, ← ih]
    simp only [bind_pure_comp, succeeds_bind_map_iff]

theorem succeeds_mapError {x : Except ε α} {f : ε → ε'} : Succeeds (x.mapError f) ↔ Succeeds x := by
  cases x with
  | error e => simp [Except.mapError]
  | ok a => simp [Except.mapError]

theorem succeeds_adapt {x : Attempt ε α} {f : ε → ε'} :
    Succeeds (Attempt.outcome (ExceptT.adapt f x)) ↔ Succeeds x.outcome :=
  exists_congr fun _ => Attempt.outcome_adapt_eq_ok

end ContainerKeys
