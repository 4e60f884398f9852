import Mathlib.Data.List.Basic
import Mathlib.Order.Defs.Unbundled
import Mathlib.Tactic.Common

namespace Store

/-- A transaction body over a database `σ`: it yields a result and the new database, or it is
abandoned with an error and leaves nothing behind. -/
def Tx (ε σ α : Type) : Type := σ → Except ε (α × σ)

structure Lens (σ τ : Type) where
  get : σ → τ
  set : σ → τ → σ

namespace Tx

variable {ε σ τ α β : Type}

instance : Monad (Tx ε σ) where
  pure a := fun s => .ok (a, s)
  bind x f := fun s => match x s with
    | .ok (a, t) => f a t
    | .error e => .error e

def fail (e : ε) : Tx ε σ α := fun _ => .error e

def reads (f : σ → α) : Tx ε σ α := fun s => .ok (f s, s)

def modify (f : σ → σ) : Tx ε σ Unit := fun s => .ok ((), f s)

def require (p : Prop) [Decidable p] (e : ε) : Tx ε σ Unit := if p then pure () else fail e

def when (p : Prop) [Decidable p] (x : Tx ε σ Unit) : Tx ε σ Unit := if p then x else pure ()

def ofOption (o : Option α) (e : ε) : Tx ε σ α :=
  match o with
  | some a => pure a
  | none => fail e

def ofExcept (o : Except ε α) : Tx ε σ α :=
  match o with
  | .ok a => pure a
  | .error e => fail e

def void (x : Tx ε σ α) : Tx ε σ Unit := x >>= fun _ => pure ()

def forEach (f : α → Tx ε σ Unit) : List α → Tx ε σ Unit
  | [] => pure ()
  | x :: xs => f x >>= fun _ => forEach f xs

def query (f : σ → Except ε α) : Tx ε σ α := fun s =>
  match f s with
  | .ok a => .ok (a, s)
  | .error e => .error e

def zoom (L : Lens σ τ) (x : Tx ε τ α) : Tx ε σ α := fun s =>
  match x (L.get s) with
  | .ok (a, w) => .ok (a, L.set s w)
  | .error e => .error e

/-- `SAVEPOINT`: an error rolls the body back and runs the handler on the state before it. -/
def savepoint (x : Tx ε σ α) (handler : ε → Tx ε σ α) : Tx ε σ α := fun s =>
  match x s with
  | .ok r => .ok r
  | .error e => handler e s

def commit (x : Tx ε σ α) (s : σ) : σ :=
  match x s with
  | .ok (_, t) => t
  | .error _ => s

section Inversion

variable {s t : σ} {a : α} {b : β}

theorem pure_ok {a' : α} : (pure a : Tx ε σ α) s = .ok (a', t) ↔ a' = a ∧ t = s := by
  constructor
  · intro h
    cases h
    exact ⟨rfl, rfl⟩
  · rintro ⟨rfl, rfl⟩
    rfl

variable {e : ε} {x : Tx ε σ α} {f k : α → Tx ε σ β} {u : Unit} {p : Prop} {r : β × σ}

theorem fail_ok {r : α × σ} : (fail e : Tx ε σ α) s = .ok r ↔ False :=
  iff_of_false (fun h => nomatch h) id

theorem bind_ok : (x >>= f) s = .ok (b, t) ↔ ∃ a s₁, x s = .ok (a, s₁) ∧ f a s₁ = .ok (b, t) := by
  change (match x s with
    | .ok (a, t) => f a t
    | .error e => .error e) = _ ↔ _
  cases hx : x s with
  | error e => simp
  | ok r =>
    obtain ⟨c, w⟩ := r
    simp

theorem bind_of_ok (h : x s = .ok (a, t)) : (x >>= f) s = f a t := by
  change (match x s with
    | .ok (a, t) => f a t
    | .error e => .error e) = _
  rw [h]

theorem bind_error :
    (x >>= f) s = .error e ↔
      x s = .error e ∨ ∃ a s₁, x s = .ok (a, s₁) ∧ f a s₁ = .error e := by
  change (match x s with
    | .ok (a, t) => f a t
    | .error e => .error e) = _ ↔ _
  cases hx : x s with
  | error e => simp
  | ok r =>
    obtain ⟨c, w⟩ := r
    simp

theorem reads_ok {f : σ → α} : (reads f : Tx ε σ α) s = .ok (a, t) ↔ a = f s ∧ t = s := by
  simp only [reads, Except.ok.injEq, Prod.mk.injEq, eq_comm]

theorem modify_ok {f : σ → σ} : (modify f : Tx ε σ Unit) s = .ok (u, t) ↔ t = f s := by
  simp only [modify, Except.ok.injEq, Prod.mk.injEq, true_and, eq_comm]

theorem require_ok [Decidable p] : require p e s = .ok (u, t) ↔ p ∧ t = s := by
  by_cases hp : p
  · simp only [require, hp, if_true, pure_ok, true_and]
  · simp only [require, hp, if_false, fail_ok, false_and]

theorem reads_bind {f : σ → α} : (reads f >>= k) s = k (f s) s := rfl

theorem modify_bind {f : σ → σ} {k : Unit → Tx ε σ β} : (modify f >>= k) s = k () (f s) := rfl

theorem pure_bind : ((pure a : Tx ε σ α) >>= k) s = k a s := rfl

theorem require_bind_ok [Decidable p] {k : Unit → Tx ε σ β} :
    (require p e >>= k) s = .ok r ↔ p ∧ k () s = .ok r := by
  by_cases hp : p
  · simp only [require, hp, if_true, pure_bind, true_and]
  · simp only [require, hp, if_false, false_and, iff_false]
    exact fun h => nomatch h

theorem ofOption_bind_ok {o : Option α} :
    (ofOption o e >>= k) s = .ok r ↔ ∃ a, o = some a ∧ k a s = .ok r := by
  cases o with
  | none => exact iff_of_false (fun h => nomatch h) fun ⟨_, h, _⟩ => nomatch h
  | some c => simp only [ofOption, pure_bind, Option.some.injEq, exists_eq_left']

theorem ofExcept_bind_ok {o : Except ε α} :
    (ofExcept o >>= k) s = .ok r ↔ ∃ a, o = .ok a ∧ k a s = .ok r := by
  cases o with
  | error e => exact iff_of_false (fun h => nomatch h) fun ⟨_, h, _⟩ => nomatch h
  | ok c => simp only [ofExcept, pure_bind, Except.ok.injEq, exists_eq_left']

theorem when_ok [Decidable p] {x : Tx ε σ Unit} :
    when p x s = .ok (u, t) ↔ (p ∧ x s = .ok (u, t)) ∨ (¬p ∧ t = s) := by
  by_cases hp : p
  · simp only [when, hp, if_true, true_and, not_true_eq_false, false_and, or_false]
  · simp only [when, hp, if_false, pure_ok, true_and, false_and, not_false_eq_true, false_or]

theorem ite_ok [Decidable p] {y : Tx ε σ α} {r : α × σ} :
    (if p then x else y) s = .ok r ↔ (p ∧ x s = .ok r) ∨ (¬p ∧ y s = .ok r) := by
  by_cases hp : p <;> simp [hp]

theorem ofOption_ok {o : Option α} : ofOption o e s = .ok (a, t) ↔ o = some a ∧ t = s := by
  cases o with
  | none => simp [ofOption, fail_ok]
  | some c => rw [ofOption, pure_ok, Option.some.injEq, eq_comm (a := c)]

theorem ofExcept_ok {o : Except ε α} :
    ofExcept o s = .ok (a, t) ↔ o = .ok a ∧ t = s := by
  cases o with
  | error e => simp [ofExcept, fail_ok]
  | ok c => rw [ofExcept, pure_ok, Except.ok.injEq, eq_comm (a := c)]

theorem query_ok {f : σ → Except ε α} : query f s = .ok (a, t) ↔ f s = .ok a ∧ t = s := by
  simp only [query]
  cases f s with
  | error e => simp
  | ok c =>
    simp only [Except.ok.injEq, Prod.mk.injEq, and_congr_right_iff]
    exact fun _ => eq_comm

theorem query_bind_ok {f : σ → Except ε α} :
    (query f >>= k) s = .ok r ↔ ∃ a, f s = .ok a ∧ k a s = .ok r := by
  obtain ⟨b, w⟩ := r
  simp only [bind_ok, query_ok, and_assoc, exists_and_left, exists_eq_left]

theorem void_ok : void x s = .ok (u, t) ↔ ∃ a, x s = .ok (a, t) := by
  simp only [void, bind_ok, pure_ok, true_and]
  exact exists_congr fun a => ⟨fun ⟨_, h, ht⟩ => ht ▸ h, fun h => ⟨t, h, rfl⟩⟩

theorem zoom_ok {L : Lens σ τ} {x : Tx ε τ α} :
    zoom L x s = .ok (a, t) ↔ ∃ w, x (L.get s) = .ok (a, w) ∧ t = L.set s w := by
  simp only [zoom]
  cases x (L.get s) with
  | error e => simp
  | ok r =>
    obtain ⟨c, w⟩ := r
    constructor
    · intro h
      cases h
      exact ⟨w, rfl, rfl⟩
    · rintro ⟨w', h, rfl⟩
      cases h
      rfl

theorem savepoint_ok {k : ε → Tx ε σ α} {r : α × σ} :
    savepoint x k s = .ok r ↔ x s = .ok r ∨ ∃ e, x s = .error e ∧ k e s = .ok r := by
  simp only [savepoint]
  cases x s with
  | error e => simp
  | ok r => simp

theorem commit_of_ok (h : x s = .ok (a, t)) : commit x s = t := by
  simp only [commit, h]

theorem ok_of_isOk (h : (x s).isOk = true) : ∃ a, x s = .ok (a, commit x s) := by
  cases hx : x s with
  | error e => simp [hx, Except.isOk, Except.toBool] at h
  | ok r => exact ⟨r.1, by rw [commit_of_ok hx]⟩

theorem commit_of_error (h : x s = .error e) : commit x s = s := by
  simp only [commit, h]

theorem commit_cases (x : Tx ε σ α) (s : σ) :
    (∃ a, x s = .ok (a, commit x s)) ∨ commit x s = s := by
  cases h : x s with
  | error e => exact .inr (commit_of_error h)
  | ok r => exact .inl ⟨r.1, by rw [commit_of_ok h]⟩

end Inversion

/-- Whenever the body succeeds, the states before and after it are related by `R`. -/
def Does (R : σ → σ → Prop) (x : Tx ε σ α) : Prop := ∀ s a t, x s = .ok (a, t) → R s t

def Keeps (P : σ → Prop) (s t : σ) : Prop := P s → P t

instance (P : σ → Prop) : IsPreorder σ (Keeps P) where
  refl _ h := h
  trans _ _ _ h h' hp := h' (h hp)

section Does

variable {R : σ → σ → Prop}

variable {x : Tx ε σ α}

theorem Does.mono {R' : σ → σ → Prop} (h : ∀ s t, R s t → R' s t) (hx : Does R x) : Does R' x :=
  fun s a t hs => h s t (hx s a t hs)

theorem Does.modify {f : σ → σ} (hf : ∀ s, R s (f s)) : Does R (modify f : Tx ε σ Unit) := by
  intro s a t h
  rw [modify_ok.1 h]
  exact hf s

theorem Does.fail (e : ε) : Does R (fail e : Tx ε σ α) := fun _ _ _ h => nomatch h

theorem Does.ite {p : Prop} [Decidable p] {y : Tx ε σ α} (hx : p → Does R x) (hy : ¬p → Does R y) :
    Does R (if p then x else y) := by
  by_cases hp : p
  · rw [if_pos hp]
    exact hx hp
  · rw [if_neg hp]
    exact hy hp

theorem Does.void (hx : Does R x) : Does R (void x) := by
  intro s a t h
  obtain ⟨b, hb⟩ := void_ok.1 h
  exact hx s b t hb

theorem Does.zoom {L : Lens σ τ} {x : Tx ε τ α}
    (h : ∀ s a w, x (L.get s) = .ok (a, w) → R s (L.set s w)) : Does R (zoom L x) := by
  intro s a t hx
  obtain ⟨w, hw, rfl⟩ := zoom_ok.1 hx
  exact h s a w hw

variable [IsPreorder σ R]

theorem Does.pure (a : α) : Does R (pure a : Tx ε σ α) := by
  intro s a' t h
  rw [(pure_ok.1 h).2]
  exact refl_of R s

theorem Does.reads (f : σ → α) : Does R (reads f : Tx ε σ α) := by
  intro s a t h
  rw [(reads_ok.1 h).2]
  exact refl_of R s

theorem Does.require (p : Prop) [Decidable p] (e : ε) :
    Does R (require p e : Tx ε σ Unit) := by
  intro s a t h
  rw [(require_ok.1 h).2]
  exact refl_of R s

theorem Does.ofOption (o : Option α) (e : ε) :
    Does R (ofOption o e : Tx ε σ α) := by
  intro s a t h
  rw [(ofOption_ok.1 h).2]
  exact refl_of R s

theorem Does.ofExcept (o : Except ε α) : Does R (ofExcept o : Tx ε σ α) := by
  intro s a t h
  rw [(ofExcept_ok.1 h).2]
  exact refl_of R s

theorem Does.query (f : σ → Except ε α) : Does R (query f : Tx ε σ α) := by
  intro s a t h
  rw [(query_ok.1 h).2]
  exact refl_of R s

theorem Does.bind {f : α → Tx ε σ β} (hx : Does R x) (hf : ∀ a, Does R (f a)) :
    Does R (x >>= f) := by
  intro s b t h
  obtain ⟨a, s₁, h₁, h₂⟩ := bind_ok.1 h
  exact trans_of R (hx s a s₁ h₁) (hf a s₁ b t h₂)

theorem Does.when {p : Prop} [Decidable p] {x : Tx ε σ Unit}
    (hx : p → Does R x) : Does R (when p x) :=
  Does.ite hx fun _ => Does.pure ()

theorem Does.forEach {f : α → Tx ε σ Unit} {xs : List α} (hf : ∀ x ∈ xs, Does R (f x)) :
    Does R (forEach f xs) := by
  induction xs with
  | nil => exact Does.pure ()
  | cons x xs ih =>
    exact (hf x List.mem_cons_self).bind fun _ =>
      ih fun y hy => hf y (List.mem_cons_of_mem x hy)

theorem Does.commit (hx : Does R x) (s : σ) : R s (commit x s) := by
  rcases commit_cases x s with ⟨a, h⟩ | h
  · exact hx s a _ h
  · rw [h]
    exact refl_of R s

end Does

end Tx

end Store
