import Mathlib.Data.List.Forall2

/-!
Computations that may end with a fault: what one that gave a result went through on the way.
-/
namespace EntityGraph.Results

variable {ε φ α β : Type}

theorem bind_eq_ok {x : Except ε α} {f : α → Except ε β} {b : β} :
    (x >>= f) = .ok b ↔ ∃ a, x = .ok a ∧ f a = .ok b := by
  cases x <;> simp [bind, Except.bind]

theorem map_eq_ok {x : Except ε α} {f : α → β} {b : β} :
    x.map f = .ok b ↔ ∃ a, x = .ok a ∧ f a = b := by
  cases x <;> simp [Except.map]

theorem mapError_eq_ok {x : Except ε α} {f : ε → φ} {a : α} :
    x.mapError f = .ok a ↔ x = .ok a := by
  cases x <;> simp [Except.mapError]

theorem ok_bind (a : α) (f : α → Except ε β) : (.ok a >>= f) = f a := rfl

theorem mapError_ok (f : ε → φ) (a : α) : (.ok a : Except ε α).mapError f = .ok a := rfl

theorem pure_eq_ok {a b : α} : (pure a : Except ε α) = .ok b ↔ a = b := by
  simp [pure, Except.pure]

theorem throw_ne_ok {e : ε} {a : α} : (throw e : Except ε α) ≠ .ok a := by
  simp [throw, throwThe, MonadExceptOf.throw]

/-- A computation for each member of a list gives the results in the same order. -/
theorem mapM_eq_ok {f : α → Except ε β} {xs : List α} {ys : List β} (done : xs.mapM f = .ok ys) :
    List.Forall₂ (fun x y => f x = .ok y) xs ys := by
  induction xs generalizing ys with
  | nil =>
    rw [List.mapM_nil, pure_eq_ok] at done
    exact done ▸ .nil
  | cons x rest ih =>
    simp only [List.mapM_cons, bind_eq_ok, pure_eq_ok] at done
    obtain ⟨y, first, ys, others, rfl⟩ := done
    exact .cons first (ih others)

theorem mapM_eq_ok_iff {f : α → Except ε β} {xs : List α} {ys : List β} :
    xs.mapM f = .ok ys ↔ List.Forall₂ (fun x y => f x = .ok y) xs ys := by
  refine ⟨mapM_eq_ok, fun related => ?_⟩
  induction related with
  | nil => rfl
  | cons first _ ih =>
    rw [List.mapM_cons, first, ih]
    rfl

theorem mapM_map {f : β → Except ε α} {g : α → β} {xs : List α}
    (each : ∀ x ∈ xs, f (g x) = .ok x) : (xs.map g).mapM f = .ok xs := by
  induction xs with
  | nil => rfl
  | cons x rest ih =>
    rw [List.map_cons, List.mapM_cons, each x List.mem_cons_self,
      ih fun x member => each x (List.mem_cons_of_mem _ member)]
    rfl

theorem mapM_congr {γ : Type} {f : α → Except ε γ} {g : β → Except ε γ} {xs : List α}
    {ys : List β} (same : List.Forall₂ (fun x y => f x = g y) xs ys) : xs.mapM f = ys.mapM g := by
  induction same with
  | nil => rfl
  | cons first _ ih => rw [List.mapM_cons, List.mapM_cons, first, ih]

theorem exists_of_mem_right {R : α → β → Prop} {xs : List α} {ys : List β} {y : β}
    (related : List.Forall₂ R xs ys) (member : y ∈ ys) : ∃ x ∈ xs, R x y := by
  induction related with
  | nil => simp at member
  | @cons x y' xs ys first _ ih =>
    rcases List.mem_cons.1 member with rfl | later
    · exact ⟨x, by simp, first⟩
    · obtain ⟨x, inside, holds⟩ := ih later
      exact ⟨x, by simp [inside], holds⟩

theorem map_eq_of_related {γ : Type} {R : α → β → Prop} {f : α → γ} {g : β → γ} {xs : List α}
    {ys : List β} (related : List.Forall₂ R xs ys) (same : ∀ x y, R x y → f x = g y) :
    xs.map f = ys.map g := by
  induction related with
  | nil => rfl
  | cons first _ ih => rw [List.map_cons, List.map_cons, same _ _ first, ih]

/-- Two relations one after the other relate lists through a list in the middle. -/
theorem forall₂_comp {γ : Type} {R : α → β → Prop} {S : β → γ → Prop} {xs : List α}
    {zs : List γ} : List.Forall₂ (fun x z => ∃ y, R x y ∧ S y z) xs zs ↔
      ∃ ys, List.Forall₂ R xs ys ∧ List.Forall₂ S ys zs := by
  constructor
  · intro related
    induction related with
    | nil => exact ⟨[], .nil, .nil⟩
    | cons first _ ih =>
      obtain ⟨y, here, there⟩ := first
      obtain ⟨ys, front, back⟩ := ih
      exact ⟨y :: ys, .cons here front, .cons there back⟩
  · rintro ⟨ys, front, back⟩
    induction front generalizing zs with
    | nil =>
      cases back
      exact .nil
    | cons here _ ih =>
      cases back with
      | cons there back => exact .cons ⟨_, here, there⟩ (ih back)

/-- Whatever fault a computation ends with has a property. -/
def FailsOnly (P : ε → Prop) (x : Except ε α) : Prop :=
  ∀ e, x = .error e → P e

namespace FailsOnly

variable {P : ε → Prop} {x : Except ε α}

theorem ok (a : α) : FailsOnly P (.ok a) := by
  rintro e ⟨⟩

theorem error {e : ε} (holds : P e) : FailsOnly P (.error e : Except ε α) := by
  rintro e' ⟨⟩
  exact holds

theorem bind {f : α → Except ε β} (first : FailsOnly P x)
    (next : ∀ a, x = .ok a → FailsOnly P (f a)) : FailsOnly P (x >>= f) := by
  cases x with
  | error e => exact error (first e rfl)
  | ok a => exact next a rfl

theorem map {f : α → β} (first : FailsOnly P x) : FailsOnly P (x.map f) := by
  cases x with
  | error e => exact error (first e rfl)
  | ok a => exact ok (f a)

theorem mapError {Q : φ → Prop} {f : ε → φ} (holds : ∀ e, x = .error e → Q (f e)) :
    FailsOnly Q (x.mapError f) := by
  cases x with
  | error e => exact error (holds e rfl)
  | ok a => exact ok a

theorem imp {Q : ε → Prop} (first : FailsOnly P x) (weaker : ∀ e, P e → Q e) : FailsOnly Q x :=
  fun e failed => weaker e (first e failed)

theorem mapM {f : α → Except ε β} {xs : List α} (each : ∀ a ∈ xs, FailsOnly P (f a)) :
    FailsOnly P (xs.mapM f) := by
  induction xs with
  | nil => exact ok []
  | cons a rest ih =>
    rw [List.mapM_cons]
    refine bind (each a List.mem_cons_self) fun b _ => ?_
    refine bind (ih fun a' member => each a' (List.mem_cons_of_mem _ member)) fun bs _ => ?_
    exact ok (b :: bs)

end FailsOnly

/-- Two computations that end with the same fault, or with related results. -/
inductive Related (R : α → β → Prop) : Except ε α → Except ε β → Prop
  | ok {a : α} {b : β} (related : R a b) : Related R (.ok a) (.ok b)
  | error (e : ε) : Related R (.error e) (.error e)

namespace Related

theorem refl {R : α → α → Prop} (same : ∀ a, R a a) (x : Except ε α) : Related R x x := by
  cases x with
  | error e => exact .error e
  | ok a => exact .ok (same a)

/-- A computation is related to itself if its result is. -/
theorem self {R : α → α → Prop} {x : Except ε α} (same : ∀ a, x = .ok a → R a a) :
    Related R x x := by
  cases x with
  | error e => exact .error e
  | ok a => exact .ok (same a rfl)

theorem bind {γ δ : Type} {R : α → β → Prop} {S : γ → δ → Prop} {x : Except ε α} {y : Except ε β}
    {f : α → Except ε γ} {g : β → Except ε δ} (first : Related R x y)
    (next : ∀ a b, R a b → Related S (f a) (g b)) : Related S (x >>= f) (y >>= g) := by
  cases first with
  | error e => exact .error e
  | ok related => exact next _ _ related

theorem bind_self {R : β → φ → Prop} {x : Except ε α} {f : α → Except ε β} {g : α → Except ε φ}
    (next : ∀ a, Related R (f a) (g a)) : Related R (x >>= f) (x >>= g) := by
  cases x with
  | error e => exact .error e
  | ok a => exact next a

theorem mapError {R : α → β → Prop} {x : Except ε α} {y : Except ε β} (related : Related R x y)
    (f : ε → φ) : Related R (x.mapError f) (y.mapError f) := by
  cases related with
  | error e => exact .error (f e)
  | ok related => exact .ok related

theorem eq {R : α → β → Prop} {x : Except ε α} {y : Except ε β} (related : Related R x y)
    {f : α → Except ε φ} {g : β → Except ε φ} (same : ∀ a b, R a b → f a = g b) :
    (x >>= f) = (y >>= g) := by
  cases related with
  | error e => rfl
  | ok related => exact same _ _ related

theorem mapM {γ δ : Type} {R : γ → δ → Prop} {f : α → Except ε γ} {g : β → Except ε δ}
    {xs : List α} {ys : List β} (each : List.Forall₂ (fun x y => Related R (f x) (g y)) xs ys) :
    Related (List.Forall₂ R) (xs.mapM f) (ys.mapM g) := by
  induction each with
  | nil => exact .ok .nil
  | cons first _ ih =>
    rw [List.mapM_cons, List.mapM_cons]
    apply first.bind
    intro a b here
    apply ih.bind
    intro as bs others
    exact .ok (.cons here others)

end Related

end EntityGraph.Results
