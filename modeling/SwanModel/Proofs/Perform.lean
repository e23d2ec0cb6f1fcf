import SwanModel.Error

/-!
# Performing computations

Conversions, work in a store, browsing of a model and work in an application are computations that
keep what they have changed when they fail.
-/

namespace SwanModel

/-- A computation with an environment and a state that outlives failure. -/
abbrev Effect (ρ σ : Type) := ReaderT ρ (ExceptT Error (StateM σ))

variable {ρ σ α β : Type}

theorem ok_bind (a : α) (f : α → Except Error β) : (Except.ok a >>= f) = f a := rfl

theorem ok_of_bind {x : Except Error α} {f : α → Except Error β} {b : β} (h : x >>= f = .ok b) :
    ∃ a, x = .ok a ∧ f a = .ok b := by
  cases x with
  | error e => cases h
  | ok a => exact ⟨a, rfl, h⟩

/-- What a computation gives in an environment and a state, and the state behind it. -/
def perform (x : Effect ρ σ α) (env : ρ) (s : σ) : Except Error α × σ := (x env).run s

@[simp] theorem perform_pure (a : α) (env : ρ) (s : σ) :
    perform (pure a : Effect ρ σ α) env s = (.ok a, s) := rfl

@[simp] theorem perform_throw (e : Error) (env : ρ) (s : σ) :
    perform (throw e : Effect ρ σ α) env s = (.error e, s) := rfl

@[simp] theorem perform_get (env : ρ) (s : σ) : perform (get : Effect ρ σ σ) env s = (.ok s, s) := rfl

@[simp] theorem perform_modify (f : σ → σ) (env : ρ) (s : σ) :
    perform (modify f : Effect ρ σ PUnit) env s = (.ok ⟨⟩, f s) := rfl

@[simp] theorem perform_read (env : ρ) (s : σ) :
    perform (read : Effect ρ σ ρ) env s = (.ok env, s) := rfl

theorem perform_bind (x : Effect ρ σ α) (f : α → Effect ρ σ β) (env : ρ) (s : σ) :
    perform (x >>= f) env s = match perform x env s with
      | (.ok a, s') => perform (f a) env s'
      | (.error e, s') => (.error e, s') := by
  simp only [perform, bind, ReaderT.bind, ExceptT.bind, ExceptT.mk, ExceptT.run, StateT.bind]
  rcases x env s with ⟨_ | _, _⟩ <;> rfl

theorem perform_bind_ok {x : Effect ρ σ α} {env : ρ} {s s' : σ} {a : α}
    (first : perform x env s = (.ok a, s')) (f : α → Effect ρ σ β) :
    perform (x >>= f) env s = perform (f a) env s' := by
  rw [perform_bind, first]

theorem perform_bind_error {x : Effect ρ σ α} {env : ρ} {s s' : σ} {e : Error}
    (first : perform x env s = (.error e, s')) (f : α → Effect ρ σ β) :
    perform (x >>= f) env s = (.error e, s') := by
  rw [perform_bind, first]

theorem perform_bind_congr {x y : Effect ρ σ α} {env : ρ} {s s' : σ}
    (same : perform x env s = perform y env s') (f : α → Effect ρ σ β) :
    perform (x >>= f) env s = perform (y >>= f) env s' := by
  rw [perform_bind, perform_bind, same]

theorem bind_ok {x : Effect ρ σ α} {f : α → Effect ρ σ β} {env : ρ} {s t : σ} {b : β}
    (h : perform (x >>= f) env s = (.ok b, t)) :
    ∃ a s', perform x env s = (.ok a, s') ∧ perform (f a) env s' = (.ok b, t) := by
  rw [perform_bind] at h
  rcases first : perform x env s with ⟨e | a, s'⟩
  · rw [first] at h
    cases h
  · rw [first] at h
    exact ⟨a, s', rfl, h⟩

theorem mapM_ok {f : α → Effect ρ σ β} {env : ρ} {xs : List α} {ys : List β} {s t : σ}
    (h : perform (xs.mapM f) env s = (.ok ys, t)) :
    ∀ y ∈ ys, ∃ x ∈ xs, ∃ s' t', perform (f x) env s' = (.ok y, t') := by
  induction xs generalizing ys s t with
  | nil =>
    cases h
    intro y member
    cases member
  | cons x xs ih =>
    rw [List.mapM_cons] at h
    obtain ⟨y, s₁, first, h⟩ := bind_ok h
    obtain ⟨rest, s₂, others, h⟩ := bind_ok h
    cases h
    intro z member
    rcases List.mem_cons.mp member with rfl | member
    · exact ⟨x, List.mem_cons_self, s, s₁, first⟩
    · obtain ⟨x', present, found⟩ := ih others z member
      exact ⟨x', List.mem_cons_of_mem _ present, found⟩

theorem perform_tryCatch (x : Effect ρ σ α) (handle : Error → Effect ρ σ α) (env : ρ) (s : σ) :
    perform (tryCatch x handle) env s = match perform x env s with
      | (.ok a, s') => (.ok a, s')
      | (.error e, s') => perform (handle e) env s' := by
  change (ExceptT.tryCatch (x env) fun e => handle e env).run s = _
  simp only [ExceptT.tryCatch, ExceptT.mk, ExceptT.run, bind, StateT.bind, perform]
  rcases x env s with ⟨_ | _, _⟩ <;> rfl

/-! ### When a computation succeeds -/

/-- A computation succeeds exactly when a condition holds, and then `post` holds of its result and
of the state behind it. -/
def SucceedsIff (x : Effect ρ σ α) (env : ρ) (s : σ) (condition : Prop) (post : α → σ → Prop) : Prop :=
  match perform x env s with
  | (.ok a, s') => condition ∧ post a s'
  | (.error _, _) => ¬ condition

namespace SucceedsIff

variable {x : Effect ρ σ α} {env : ρ} {s : σ} {condition : Prop} {post : α → σ → Prop}

theorem of_ok {a : α} {s' : σ} (h : SucceedsIff x env s condition post)
    (ran : perform x env s = (.ok a, s')) : condition ∧ post a s' := by
  rwa [SucceedsIff, ran] at h

theorem ok (h : SucceedsIff x env s condition post) (holds : condition) :
    ∃ a s', perform x env s = (.ok a, s') ∧ post a s' := by
  rcases ran : perform x env s with ⟨e | a, s'⟩
  · rw [SucceedsIff, ran] at h
    exact absurd holds h
  · exact ⟨a, s', rfl, (h.of_ok ran).2⟩

theorem ok_iff (h : SucceedsIff x env s condition post) : (∃ a s', perform x env s = (.ok a, s')) ↔
    condition := by
  constructor
  · rintro ⟨a, s', ran⟩
    exact (h.of_ok ran).1
  · intro holds
    obtain ⟨a, s', ran, -⟩ := h.ok holds
    exact ⟨a, s', ran⟩

theorem failure {e : Error} {s' : σ} (ran : perform x env s = (.error e, s')) (never : ¬ condition) :
    SucceedsIff x env s condition post := by
  rwa [SucceedsIff, ran]

theorem pure (a : α) (holds : post a s) :
    SucceedsIff (Pure.pure a : Effect ρ σ α) env s True post := ⟨trivial, holds⟩

theorem congr {condition' : Prop} (h : SucceedsIff x env s condition post)
    (same : condition ↔ condition') : SucceedsIff x env s condition' post := by
  rwa [← propext same]

theorem weaken {post' : α → σ → Prop} (h : SucceedsIff x env s condition post)
    (implies : ∀ a s', post a s' → post' a s') : SucceedsIff x env s condition post' := by
  rcases ran : perform x env s with ⟨e | a, s'⟩
  · rwa [SucceedsIff, ran] at h ⊢
  · obtain ⟨holds, reached⟩ := h.of_ok ran
    rw [SucceedsIff, ran]
    exact ⟨holds, implies a s' reached⟩

theorem holding (h : SucceedsIff x env s condition post) :
    SucceedsIff x env s condition fun a s' => condition ∧ post a s' := by
  rcases ran : perform x env s with ⟨e | a, s'⟩
  · rwa [SucceedsIff, ran] at h ⊢
  · rw [SucceedsIff, ran]
    exact ⟨(h.of_ok ran).1, h.of_ok ran⟩

theorem bind {f : α → Effect ρ σ β} {condition' : Prop} {post' : β → σ → Prop}
    (first : SucceedsIff x env s condition post)
    (rest : ∀ a s', post a s' → SucceedsIff (f a) env s' condition' post') :
    SucceedsIff (x >>= f) env s (condition ∧ condition') post' := by
  rw [SucceedsIff, perform_bind]
  rcases ran : perform x env s with ⟨e | a, s'⟩
  · rw [SucceedsIff, ran] at first
    exact fun both => first both.1
  · obtain ⟨holds, reached⟩ := first.of_ok ran
    have after := rest a s' reached
    rcases ran' : perform (f a) env s' with ⟨e | b, s''⟩
    · rw [SucceedsIff, ran'] at after
      simp only [ran']
      exact fun both => after both.2
    · obtain ⟨holds', reached'⟩ := after.of_ok ran'
      simp only [ran']
      exact ⟨⟨holds, holds'⟩, reached'⟩

theorem after {f : α → Effect ρ σ β} {a : α} {s' : σ} {post' : β → σ → Prop}
    (ran : perform x env s = (.ok a, s')) (rest : SucceedsIff (f a) env s' condition post') :
    SucceedsIff (x >>= f) env s condition post' := by
  rwa [SucceedsIff, perform_bind_ok ran]

theorem map {f : α → β} {post' : β → σ → Prop} (first : SucceedsIff x env s condition post)
    (implies : ∀ a s', post a s' → post' (f a) s') :
    SucceedsIff (x >>= fun a => Pure.pure (f a)) env s condition post' :=
  (first.bind fun a s' reached =>
    SucceedsIff.pure (f a) (implies a s' reached)).congr (and_iff_left trivial)

end SucceedsIff

/-! ### What a computation does to its state -/

/-- A relation between earlier and later states that holds over any number of steps. -/
class Lasting (R : ρ → σ → σ → Prop) : Prop where
  refl : ∀ env s, R env s s
  trans : ∀ {env s t u}, R env s t → R env t u → R env s u

/-- The state behind a computation stands in a relation to the state before it, also when it
fails. -/
class Keeps (R : ρ → σ → σ → Prop) (x : Effect ρ σ α) : Prop where
  keeps : ∀ env s, R env s (perform x env s).2

namespace Keeps

variable {R : ρ → σ → σ → Prop}

theorem after {x : Effect ρ σ α} [keeps : Keeps R x] {env : ρ} {s s' : σ} {result : Except Error α}
    (ran : perform x env s = (result, s')) : R env s s' := by
  have last := keeps.keeps env s
  rwa [ran] at last

variable [Lasting R]

instance (a : α) : Keeps R (pure a : Effect ρ σ α) := ⟨Lasting.refl⟩

instance (e : Error) : Keeps R (throw e : Effect ρ σ α) := ⟨Lasting.refl⟩

instance : Keeps R (get : Effect ρ σ σ) := ⟨Lasting.refl⟩

instance : Keeps R (read : Effect ρ σ ρ) := ⟨Lasting.refl⟩

theorem bind {x : Effect ρ σ α} {f : α → Effect ρ σ β} (first : Keeps R x) (rest : ∀ a, Keeps R (f a)) :
    Keeps R (x >>= f) where
  keeps env s := by
    have before := first.keeps env s
    rw [perform_bind]
    rcases ran : perform x env s with ⟨e | a, t⟩
    · rwa [ran] at before
    · rw [ran] at before
      exact Lasting.trans before ((rest a).keeps env t)

instance (x : Effect ρ σ α) (f : α → Effect ρ σ β) [first : Keeps R x] [rest : ∀ a, Keeps R (f a)] :
    Keeps R (x >>= f) := bind first rest

instance (c : Prop) [Decidable c] (x y : Effect ρ σ α) [Keeps R x] [Keeps R y] :
    Keeps R (if c then x else y) := by
  split <;> assumption

instance mapM (xs : List α) (f : α → Effect ρ σ β) [∀ a, Keeps R (f a)] : Keeps R (xs.mapM f) := by
  induction xs with
  | nil => rw [List.mapM_nil]; infer_instance
  | cons a rest ih => rw [List.mapM_cons]; infer_instance

instance forM (xs : List α) (f : α → Effect ρ σ PUnit) [∀ a, Keeps R (f a)] : Keeps R (xs.forM f) := by
  induction xs with
  | nil => exact inferInstanceAs (Keeps R (pure PUnit.unit : Effect ρ σ PUnit))
  | cons a rest ih => exact inferInstanceAs (Keeps R (f a >>= fun _ => rest.forM f))

instance foldlM (xs : List α) (f : β → α → Effect ρ σ β) (b : β) [∀ b a, Keeps R (f b a)] :
    Keeps R (xs.foldlM f b) := by
  induction xs generalizing b with
  | nil => rw [List.foldlM_nil]; infer_instance
  | cons a rest ih => rw [List.foldlM_cons]; infer_instance

end Keeps

end SwanModel
