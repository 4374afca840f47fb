/-
Calls against a database: statements, exceptions and transactions.

A call runs statement by statement.
-/
import Mathlib.Data.List.Basic

namespace ForwardX.Tx

variable {σ ε α β : Type}

/-! ## Calls -/

/-- What surrounds a call: whether a transaction is open, and which statements,
counted from the start of the request, the database refuses. -/
structure Context (ε : Type) where
  inTransaction : Bool
  fault : ℕ → Option ε

/-- A database call, from the number of statements issued so far and the state. -/
def Call (σ ε α : Type) := Context ε → ℕ → σ → Except ε α × ℕ × σ

namespace Call

protected def pure (a : α) : Call σ ε α := fun _ n s => (.ok a, n, s)

protected def bind (x : Call σ ε α) (f : α → Call σ ε β) : Call σ ε β := fun c n s =>
  match x c n s with
  | (.ok a, n', s') => f a c n' s'
  | (.error e, n', s') => (.error e, n', s')

instance : Monad (Call σ ε) where
  pure := Call.pure
  bind := Call.bind

def throw (e : ε) : Call σ ε α := fun _ n s => (.error e, n, s)

/-- `if (p) throw e;` -/
def throwIf (p : Prop) [Decidable p] (e : ε) : Call σ ε Unit :=
  if p then throw e else Call.pure ()

/-- `if (!row) throw e;` with the row that is there otherwise. -/
def orThrow (e : ε) : Option α → Call σ ε α
  | some a => Call.pure a
  | none => throw e

def statement (f : σ → α × σ) : Call σ ε α := fun c n s =>
  match c.fault n with
  | some e => (.error e, n + 1, s)
  | none => (.ok (f s).1, n + 1, (f s).2)

def query (f : σ → α) : Call σ ε α := statement fun s => (f s, s)

def execute (f : σ → σ) : Call σ ε Unit := statement fun s => ((), f s)

/-- A query inside `try … catch`, with what is answered when it is refused. -/
def queryOr (f : σ → α) (a : α) : Call σ ε α := fun c n s =>
  match c.fault n with
  | some _ => (.ok a, n + 1, s)
  | none => (.ok (f s), n + 1, s)

/-- The outermost transaction commits with a statement of its own, and an error,
of the body or of that statement, rolls it back. -/
def withDatabaseTransaction (work : Call σ ε α) : Call σ ε α := fun c n s =>
  if c.inTransaction then work c n s
  else
    match work { c with inTransaction := true } n s with
    | (.error e, n', _) => (.error e, n', s)
    | (.ok a, n', s') =>
      match c.fault n' with
      | some e => (.error e, n' + 1, s)
      | none => (.ok a, n' + 1, s')

/-- `try { … } catch`: how the call ended, as a value. -/
def catching (m : Call σ ε α) : Call σ ε (Except ε α) := fun c n s =>
  (.ok (m c n s).1, (m c n s).2)

def rethrow : Except ε α → Call σ ε α
  | .ok a => Call.pure a
  | .error e => throw e

/-- `for (const a of as) await body(a);` -/
def forEach (body : α → Call σ ε Unit) : List α → Call σ ε Unit
  | [] => Call.pure ()
  | a :: as => Call.bind (body a) fun _ => forEach body as

/-- A request of its own: no transaction is open yet. -/
def run (m : Call σ ε α) (fault : ℕ → Option ε) (s : σ) : Except ε α × σ :=
  let out := m ⟨false, fault⟩ 0 s
  (out.1, out.2.2)

end Call

open Call

/-! ## What a call that came back did -/

/-- Some context lets `m` come back from `s` with `a`, leaving `s'`. -/
def Returns (m : Call σ ε α) (s : σ) (a : α) (s' : σ) : Prop :=
  ∃ c n n', m c n s = (.ok a, n', s')

section

variable {m : Call σ ε α} {s s' : σ} {a : α} {b : β}

theorem Returns.of_run {fault : ℕ → Option ε} (h : m.run fault s = (.ok a, s')) : Returns m s a s' := by
  refine ⟨⟨false, fault⟩, 0, (m ⟨false, fault⟩ 0 s).2.1, ?_⟩
  simp only [run, Prod.mk.injEq] at h
  rw [← h.1, ← h.2]

theorem Returns.of_pure {a' : α} (h : Returns (pure a' : Call σ ε α) s a s') : a = a' ∧ s' = s := by
  obtain ⟨c, n, n', h⟩ := h
  simp only [pure, Call.pure, Prod.mk.injEq, Except.ok.injEq] at h
  exact ⟨h.1.symm, h.2.2.symm⟩

theorem Returns.of_bind {f : α → Call σ ε β} (h : Returns (m >>= f) s b s') :
    ∃ a s₁, Returns m s a s₁ ∧ Returns (f a) s₁ b s' := by
  obtain ⟨c, n, n', h⟩ := h
  simp only [bind, Call.bind] at h
  split at h
  · rename_i a n₁ s₁ hm
    exact ⟨a, s₁, ⟨c, n, n₁, hm⟩, ⟨c, n₁, n', h⟩⟩
  · simp only [Prod.mk.injEq, reduceCtorEq, false_and] at h

theorem not_returns_throw {e : ε} : ¬ Returns (throw e : Call σ ε α) s a s' := by
  rintro ⟨c, n, n', h⟩
  simp only [Call.throw, Prod.mk.injEq, reduceCtorEq, false_and] at h

theorem Returns.of_throwIf {p : Prop} [Decidable p] {e : ε} {u : Unit}
    (h : Returns (throwIf p e : Call σ ε Unit) s u s') : ¬ p ∧ s' = s := by
  unfold throwIf at h
  split at h
  · exact absurd h not_returns_throw
  · rename_i hp
    exact ⟨hp, h.of_pure.2⟩

theorem Returns.of_orThrow {o : Option α} {e : ε}
    (h : Returns (orThrow e o : Call σ ε α) s a s') : o = some a ∧ s' = s := by
  cases o with
  | none => exact absurd h not_returns_throw
  | some a' =>
    obtain ⟨rfl, rfl⟩ := h.of_pure
    exact ⟨rfl, rfl⟩

theorem Returns.of_rethrow {answer : Except ε α} (h : Returns (rethrow answer : Call σ ε α) s a s') :
    answer = .ok a ∧ s' = s := by
  cases answer with
  | error e => exact absurd h not_returns_throw
  | ok a' =>
    obtain ⟨rfl, rfl⟩ := h.of_pure
    exact ⟨rfl, rfl⟩

theorem Returns.of_statement {f : σ → α × σ} (h : Returns (statement f : Call σ ε α) s a s') :
    f s = (a, s') := by
  obtain ⟨c, n, n', h⟩ := h
  simp only [statement] at h
  split at h
  · simp only [Prod.mk.injEq, reduceCtorEq, false_and] at h
  · simp only [Prod.mk.injEq, Except.ok.injEq] at h
    exact Prod.ext h.1 h.2.2

theorem Returns.of_query {f : σ → α} (h : Returns (query f : Call σ ε α) s a s') : a = f s ∧ s' = s := by
  have hs := h.of_statement
  simp only [Prod.mk.injEq] at hs
  exact ⟨hs.1.symm, hs.2.symm⟩

theorem Returns.of_queryOr {f : σ → α} {b : α} (h : Returns (queryOr f b : Call σ ε α) s a s') :
    (a = f s ∨ a = b) ∧ s' = s := by
  obtain ⟨c, n, n', h⟩ := h
  simp only [queryOr] at h
  split at h
  · simp only [Prod.mk.injEq, Except.ok.injEq] at h
    exact ⟨.inr h.1.symm, h.2.2.symm⟩
  · simp only [Prod.mk.injEq, Except.ok.injEq] at h
    exact ⟨.inl h.1.symm, h.2.2.symm⟩

theorem Returns.of_execute {f : σ → σ} {u : Unit}
    (h : Returns (execute f : Call σ ε Unit) s u s') : s' = f s := by
  have hs := h.of_statement
  simp only [Prod.mk.injEq, true_and] at hs
  exact hs.symm

theorem Returns.of_ite {p : Prop} [Decidable p] {x y : Call σ ε α} (h : Returns (if p then x else y) s a s') :
    (p ∧ Returns x s a s') ∨ (¬ p ∧ Returns y s a s') := by
  split at h
  · rename_i hp
    exact .inl ⟨hp, h⟩
  · rename_i hp
    exact .inr ⟨hp, h⟩

theorem Returns.of_transaction (h : Returns (withDatabaseTransaction m) s a s') : Returns m s a s' := by
  obtain ⟨c, n, n', h⟩ := h
  simp only [withDatabaseTransaction] at h
  split at h
  · exact ⟨c, n, n', h⟩
  · split at h
    · simp only [Prod.mk.injEq, reduceCtorEq, false_and] at h
    · rename_i a₁ n₁ s₁ hm
      split at h
      · simp only [Prod.mk.injEq, reduceCtorEq, false_and] at h
      · simp only [Prod.mk.injEq, Except.ok.injEq] at h
        obtain ⟨rfl, -, rfl⟩ := h
        exact ⟨_, n, n₁, hm⟩

/-! The same, for a call that goes on after its first step. -/

section

variable {k : α → Call σ ε β} {j : Unit → Call σ ε β}

theorem Returns.bind_query {f : σ → α} (h : Returns (query f >>= k) s b s') : Returns (k (f s)) s b s' := by
  obtain ⟨a, s₁, hq, hk⟩ := h.of_bind
  obtain ⟨rfl, rfl⟩ := hq.of_query
  exact hk

theorem Returns.bind_queryOr {f : σ → α} {a₀ : α} (h : Returns (queryOr f a₀ >>= k) s b s') :
    ∃ a, (a = f s ∨ a = a₀) ∧ Returns (k a) s b s' := by
  obtain ⟨a, s₁, hq, hk⟩ := h.of_bind
  obtain ⟨ha, rfl⟩ := hq.of_queryOr
  exact ⟨a, ha, hk⟩

theorem Returns.bind_execute {f : σ → σ} (h : Returns (execute f >>= j) s b s') :
    Returns (j ()) (f s) b s' := by
  obtain ⟨u, s₁, he, hk⟩ := h.of_bind
  obtain rfl := he.of_execute
  exact hk

theorem Returns.bind_statement {f : σ → α × σ} (h : Returns (statement f >>= k) s b s') :
    Returns (k (f s).1) (f s).2 b s' := by
  obtain ⟨a, s₁, hs, hk⟩ := h.of_bind
  rw [hs.of_statement]
  exact hk

theorem Returns.bind_throwIf {p : Prop} [Decidable p] {e : ε}
    (h : Returns (throwIf p e >>= j) s b s') : ¬ p ∧ Returns (j ()) s b s' := by
  obtain ⟨u, s₁, ht, hk⟩ := h.of_bind
  obtain ⟨hp, rfl⟩ := ht.of_throwIf
  exact ⟨hp, hk⟩

theorem Returns.bind_orThrow {o : Option α} {e : ε} (h : Returns (orThrow e o >>= k) s b s') :
    ∃ a, o = some a ∧ Returns (k a) s b s' := by
  obtain ⟨a, s₁, ho, hk⟩ := h.of_bind
  obtain ⟨hsome, rfl⟩ := ho.of_orThrow
  exact ⟨a, hsome, hk⟩

theorem Returns.bind_rethrow {answer : Except ε α} (h : Returns (rethrow answer >>= k) s b s') :
    ∃ a, answer = .ok a ∧ Returns (k a) s b s' := by
  obtain ⟨a, s₁, ho, hk⟩ := h.of_bind
  obtain ⟨hok, rfl⟩ := ho.of_rethrow
  exact ⟨a, hok, hk⟩

end

end

/-! ## Calls that come back when no statement is refused -/

/-- Without faults, `m` comes back from `s`, inside a transaction or not. -/
def Completes (m : Call σ ε α) (s : σ) : Prop :=
  ∀ c n, (∀ k, c.fault k = none) → ∃ a n' s', m c n s = (.ok a, n', s')

section

variable {m : Call σ ε α} {s : σ}

theorem Completes.run_eq (h : Completes m s) : ∃ a s', m.run (fun _ => none) s = (.ok a, s') := by
  obtain ⟨a, n', s', hm⟩ := h ⟨false, fun _ => none⟩ 0 (fun _ => rfl)
  exact ⟨a, s', by simp only [run, hm]⟩

theorem completes_pure (a : α) : Completes (pure a : Call σ ε α) s := fun _ n _ => ⟨a, n, s, rfl⟩

theorem completes_statement (f : σ → α × σ) : Completes (statement f : Call σ ε α) s := by
  intro c n hc
  exact ⟨(f s).1, n + 1, (f s).2, by simp only [statement, hc n]⟩

theorem completes_query (f : σ → α) : Completes (query f : Call σ ε α) s :=
  completes_statement _

theorem completes_execute (f : σ → σ) : Completes (execute f : Call σ ε Unit) s :=
  completes_statement _

theorem completes_throwIf {p : Prop} [Decidable p] {e : ε} (hp : ¬ p) :
    Completes (throwIf p e : Call σ ε Unit) s := by
  rw [throwIf, if_neg hp]
  exact completes_pure ()

theorem completes_ite {p : Prop} [Decidable p] {x y : Call σ ε α} (hx : p → Completes x s)
    (hy : ¬ p → Completes y s) : Completes (if p then x else y) s := by
  split
  · rename_i hp
    exact hx hp
  · rename_i hp
    exact hy hp

theorem Completes.bind {f : α → Call σ ε β} (hm : Completes m s)
    (hf : ∀ a s', Returns m s a s' → Completes (f a) s') : Completes (m >>= f) s := by
  intro c n hc
  obtain ⟨a, n₁, s₁, hm⟩ := hm c n hc
  obtain ⟨b, n₂, s₂, hf⟩ := hf a s₁ ⟨c, n, n₁, hm⟩ c n₁ hc
  exact ⟨b, n₂, s₂, by simp only [Bind.bind, Call.bind, hm, hf]⟩

theorem Completes.bind_query {f : σ → α} {k : α → Call σ ε β} (h : Completes (k (f s)) s) :
    Completes (query f >>= k) s := by
  apply (completes_query f).bind
  intro a s' hreturns
  obtain ⟨rfl, rfl⟩ := hreturns.of_query
  exact h

theorem Completes.bind_execute {f : σ → σ} {k : Unit → Call σ ε β} (h : Completes (k ()) (f s)) :
    Completes (execute f >>= k) s := by
  apply (completes_execute f).bind
  intro _ s' hreturns
  rw [hreturns.of_execute]
  exact h

theorem Completes.bind_throwIf {p : Prop} [Decidable p] {e : ε} {k : Unit → Call σ ε β} (hp : ¬ p)
    (h : Completes (k ()) s) : Completes (throwIf p e >>= k) s := by
  apply (completes_throwIf hp).bind
  intro _ s' hreturns
  rw [hreturns.of_throwIf.2]
  exact h

theorem Completes.bind_orThrow {o : Option α} {e : ε} {k : α → Call σ ε β} {a : α} (ho : o = some a)
    (h : Completes (k a) s) : Completes (orThrow e o >>= k) s := by
  subst ho
  apply (completes_pure a).bind
  intro b s' hreturns
  obtain ⟨rfl, rfl⟩ := hreturns.of_pure
  exact h

theorem Completes.transaction (hm : Completes m s) : Completes (withDatabaseTransaction m) s := by
  intro c n hc
  by_cases hin : c.inTransaction
  · obtain ⟨a, n', s', hm⟩ := hm c n hc
    exact ⟨a, n', s', by simp only [withDatabaseTransaction, hin, if_true, hm]⟩
  · obtain ⟨a, n', s', hm⟩ := hm { c with inTransaction := true } n hc
    exact ⟨a, n' + 1, s', by
      simp only [withDatabaseTransaction, hin, Bool.false_eq_true, if_false, hm, hc n']⟩

end

/-! ## Requests that fail without a trace -/

def FailsClean (m : Call σ ε α) : Prop :=
  ∀ fault n s e n' s', m ⟨false, fault⟩ n s = (.error e, n', s') → s' = s

section

variable {m : Call σ ε α}

theorem FailsClean.run_error (hm : FailsClean m) {fault : ℕ → Option ε} {s s' : σ} {e : ε}
    (h : m.run fault s = (.error e, s')) : s' = s := by
  simp only [run, Prod.mk.injEq] at h
  exact hm fault 0 s e _ s' (Prod.ext h.1 (Prod.ext rfl h.2))

theorem FailsClean.run_cases (hm : FailsClean m) (fault : ℕ → Option ε) (s : σ) :
    (m.run fault s).2 = s ∨ ∃ a, Returns m s a (m.run fault s).2 := by
  rcases hrun : m.run fault s with ⟨answer, s'⟩
  cases answer with
  | error e => exact .inl (hm.run_error hrun)
  | ok a => exact .inr ⟨a, Returns.of_run hrun⟩

theorem failsClean_transaction (m : Call σ ε α) : FailsClean (withDatabaseTransaction m) := by
  intro fault n s e n' s' h
  simp only [withDatabaseTransaction, Bool.false_eq_true, if_false] at h
  split at h
  · simp only [Prod.mk.injEq] at h
    exact h.2.2.symm
  · split at h
    · simp only [Prod.mk.injEq] at h
      exact h.2.2.symm
    · simp only [Prod.mk.injEq, reduceCtorEq, false_and] at h

theorem failsClean_statement (f : σ → α × σ) : FailsClean (statement f : Call σ ε α) := by
  intro fault n s e n' s' h
  simp only [statement] at h
  split at h
  · simp only [Prod.mk.injEq] at h
    exact h.2.2.symm
  · simp only [Prod.mk.injEq, reduceCtorEq, false_and] at h

theorem failsClean_query (f : σ → α) : FailsClean (query f : Call σ ε α) := failsClean_statement _

theorem failsClean_pure (a : α) : FailsClean (pure a : Call σ ε α) := by
  intro fault n s e n' s' h
  simp only [pure, Call.pure, Prod.mk.injEq, reduceCtorEq, false_and] at h

theorem failsClean_ite {p : Prop} [Decidable p] {x y : Call σ ε α} (hx : FailsClean x)
    (hy : FailsClean y) : FailsClean (if p then x else y) := by
  split
  · exact hx
  · exact hy

theorem FailsClean.query_bind {f : σ → α} {k : α → Call σ ε β} (hk : ∀ a, FailsClean (k a)) :
    FailsClean (query f >>= k) := by
  intro fault n s e n' s' h
  simp only [bind, Call.bind, query, statement] at h
  cases hf : fault n with
  | some e' =>
    simp only [hf, Prod.mk.injEq] at h
    exact h.2.2.symm
  | none =>
    simp only [hf] at h
    exact hk (f s) fault _ s e n' s' h

theorem FailsClean.throwIf_bind {p : Prop} [Decidable p] {e : ε} {k : Unit → Call σ ε β}
    (hk : FailsClean (k ())) : FailsClean (throwIf p e >>= k) := by
  intro fault n s e' n' s' h
  simp only [bind, Call.bind, throwIf] at h
  by_cases hp : p
  · simp only [hp, if_true, Call.throw, Prod.mk.injEq] at h
    exact h.2.2.symm
  · simp only [hp, if_false, Call.pure] at h
    exact hk fault n s e' n' s' h

theorem FailsClean.orThrow_bind {o : Option α} {e : ε} {k : α → Call σ ε β}
    (hk : ∀ a, FailsClean (k a)) : FailsClean (orThrow e o >>= k) := by
  intro fault n s e' n' s' h
  cases o with
  | none =>
    simp only [bind, Call.bind, orThrow, Call.throw, Prod.mk.injEq] at h
    exact h.2.2.symm
  | some a => exact hk a fault n s e' n' s' h

theorem FailsClean.rethrow_bind {answer : Except ε α} {k : α → Call σ ε β}
    (hk : ∀ a, FailsClean (k a)) : FailsClean (rethrow answer >>= k) := by
  intro fault n s e' n' s' h
  cases answer with
  | error e =>
    simp only [bind, Call.bind, rethrow, Call.throw, Prod.mk.injEq] at h
    exact h.2.2.symm
  | ok a => exact hk a fault n s e' n' s' h

theorem FailsClean.bind_pure (hm : FailsClean m) (f : α → β) : FailsClean (m >>= fun a => pure (f a)) := by
  intro fault n s e' n' s' h
  simp only [bind, Call.bind] at h
  split at h
  · simp only [pure, Call.pure, Prod.mk.injEq, reduceCtorEq, false_and] at h
  · rename_i e n₁ s₁ hcall
    simp only [Prod.mk.injEq] at h
    rw [← h.2.2]
    exact hm fault n s e n₁ s₁ hcall

end

/-! ## Properties that every statement keeps -/

/-- However `m` ends, `I` still holds if it held before. -/
def Preserves (I : σ → Prop) (m : Call σ ε α) : Prop :=
  ∀ c n s, I s → I (m c n s).2.2

section

variable {I : σ → Prop} {m : Call σ ε α}

theorem Preserves.run (hm : Preserves I m) (fault : ℕ → Option ε) {s : σ} (hs : I s) :
    I (m.run fault s).2 := hm ⟨false, fault⟩ 0 s hs

theorem Preserves.returns (hm : Preserves I m) {s s' : σ} {a : α} (h : Returns m s a s') (hs : I s) : I s' := by
  obtain ⟨c, n, n', h⟩ := h
  have hI := hm c n s hs
  rw [h] at hI
  exact hI

theorem preserves_pure (a : α) : Preserves I (pure a : Call σ ε α) := fun _ _ _ hs => hs

theorem preserves_throw (e : ε) : Preserves I (Call.throw e : Call σ ε α) := fun _ _ _ hs => hs

theorem preserves_orThrow (e : ε) (o : Option α) : Preserves I (orThrow e o : Call σ ε α) := by
  cases o with
  | none => exact preserves_throw e
  | some a => exact preserves_pure a

theorem preserves_statement {f : σ → α × σ} (hf : ∀ s, I s → I (f s).2) :
    Preserves I (statement f : Call σ ε α) := by
  intro c n s hs
  unfold statement
  split
  · exact hs
  · exact hf s hs

theorem preserves_query (f : σ → α) : Preserves I (query f : Call σ ε α) :=
  preserves_statement fun _ hs => hs

theorem preserves_execute {f : σ → σ} (hf : ∀ s, I s → I (f s)) :
    Preserves I (execute f : Call σ ε Unit) := preserves_statement hf

theorem Preserves.bind {f : α → Call σ ε β} (hm : Preserves I m) (hf : ∀ a, Preserves I (f a)) :
    Preserves I (m >>= f) := by
  intro c n s hs
  have hI := hm c n s hs
  simp only [Bind.bind, Call.bind]
  split
  · rename_i a n' s' h
    rw [h] at hI
    exact hf a c n' s' hI
  · rename_i e n' s' h
    rw [h] at hI
    exact hI

theorem preserves_ite {p : Prop} [Decidable p] {x y : Call σ ε α} (hx : Preserves I x)
    (hy : Preserves I y) : Preserves I (if p then x else y) := by
  split
  · exact hx
  · exact hy

theorem Preserves.transaction (hm : Preserves I m) : Preserves I (withDatabaseTransaction m) := by
  intro c n s hs
  unfold withDatabaseTransaction
  split
  · exact hm c n s hs
  · have hI := hm { c with inTransaction := true } n s hs
    split
    · exact hs
    · rename_i a n' s' h
      rw [h] at hI
      split
      · exact hs
      · exact hI

theorem preserves_forEach {body : α → Call σ ε Unit} (hbody : ∀ a, Preserves I (body a))
    (as : List α) : Preserves I (forEach body as) := by
  induction as with
  | nil => exact preserves_pure ()
  | cons a as ih => exact Preserves.bind (hbody a) fun _ => ih

end

/-! ## How a request ends -/

/-- Whatever is refused, the request `m` ends in an answer and a state that `Q` allows. -/
def Ends (m : Call σ ε α) (s : σ) (Q : Except ε α → σ → Prop) : Prop :=
  ∀ fault n, Q (m ⟨false, fault⟩ n s).1 (m ⟨false, fault⟩ n s).2.2

section

variable {m : Call σ ε α} {s : σ} {Q R : Except ε α → σ → Prop}

theorem Ends.run (h : Ends m s Q) (fault : ℕ → Option ε) : Q (m.run fault s).1 (m.run fault s).2 := h fault 0

theorem Ends.mono (h : Ends m s Q) (hQ : ∀ answer s', Q answer s' → R answer s') : Ends m s R :=
  fun fault n => hQ _ _ (h fault n)

theorem Ends.bind {f : α → Call σ ε β} {T : Except ε β → σ → Prop} (hm : Ends m s Q)
    (hok : ∀ a s', Q (.ok a) s' → Ends (f a) s' T)
    (herror : ∀ e s', Q (.error e) s' → T (.error e) s') : Ends (m >>= f) s T := by
  intro fault n
  have hQ := hm fault n
  simp only [Bind.bind, Call.bind]
  split
  · rename_i a n' s' heq
    rw [heq] at hQ
    exact hok a s' hQ fault n'
  · rename_i e n' s' heq
    rw [heq] at hQ
    exact herror e s' hQ

theorem ends_pure {a : α} (h : Q (.ok a) s) : Ends (pure a : Call σ ε α) s Q := fun _ _ => h

theorem ends_rethrow {answer : Except ε α} (h : Q answer s) : Ends (rethrow answer) s Q := by
  cases answer with
  | ok a => exact fun _ _ => h
  | error e => exact fun _ _ => h

section

variable {T : Except ε β → σ → Prop}

theorem Ends.bind_rethrow {answer : Except ε α} {k : α → Call σ ε β}
    (hok : ∀ a, answer = .ok a → Ends (k a) s T) (herror : ∀ e, T (.error e) s) :
    Ends (rethrow answer >>= k) s T := by
  cases answer with
  | ok a => exact hok a rfl
  | error e => exact fun _ _ => herror e

theorem Ends.bind_orThrow {o : Option α} {e : ε} {k : α → Call σ ε β}
    (hsome : ∀ a, o = some a → Ends (k a) s T) (hnone : o = none → T (.error e) s) :
    Ends (orThrow e o >>= k) s T := by
  cases o with
  | some a => exact hsome a rfl
  | none => exact fun _ _ => hnone rfl

theorem Ends.bind_throwIf {p : Prop} [Decidable p] {e : ε} {k : Unit → Call σ ε β}
    (hgo : ¬ p → Ends (k ()) s T) (hthrow : T (.error e) s) : Ends (throwIf p e >>= k) s T := by
  by_cases hp : p
  · rw [throwIf, if_pos hp]
    exact fun _ _ => hthrow
  · rw [throwIf, if_neg hp]
    exact hgo hp

end

theorem Ends.catching (h : Ends m s Q) : Ends (catching m) s fun answer s' => ∃ x, answer = .ok x ∧ Q x s' :=
  fun fault n => ⟨_, rfl, h fault n⟩

theorem FailsClean.ends (hm : FailsClean m) (s : σ) :
    Ends m s fun answer s' => (∃ e, answer = .error e ∧ s' = s) ∨
      ∃ a, answer = .ok a ∧ Returns m s a s' := by
  intro fault n
  rcases hrun : m ⟨false, fault⟩ n s with ⟨answer, n', s'⟩
  cases answer with
  | error e => exact .inl ⟨e, rfl, hm fault n s e n' s' hrun⟩
  | ok a => exact .inr ⟨a, rfl, ⟨false, fault⟩, n, n', hrun⟩

theorem Preserves.ends {I : σ → Prop} (hm : Preserves I m) (hs : I s) :
    Ends m s fun _ s' => I s' := fun fault n => hm ⟨false, fault⟩ n s hs

end

end ForwardX.Tx
