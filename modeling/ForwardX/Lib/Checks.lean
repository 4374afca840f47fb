/-
Computations that check as they go: `Except`, and the loops of it.
-/
import Mathlib.Data.List.Basic

namespace ForwardX.Checks

variable {ε α β ρ σ : Type}

theorem bind_eq_ok {checked : Except ε α} {rest : α → Except ε β} {result : β} :
    checked >>= rest = .ok result ↔ ∃ a, checked = .ok a ∧ rest a = .ok result := by
  rcases checked with e | a
  · exact iff_of_false nofun nofun
  · simp only [Except.ok.injEq, exists_eq_left']
    rfl

theorem map_eq_ok {checked : Except ε α} {f : α → β} {result : β} :
    checked.map f = .ok result ↔ ∃ a, checked = .ok a ∧ f a = result := by
  rcases checked with e | a
  · exact iff_of_false nofun nofun
  · simp only [Except.map, Except.ok.injEq, exists_eq_left']

theorem pure_eq_ok {a b : α} : (pure a : Except ε α) = .ok b ↔ a = b := by
  simp [pure, Except.pure]

/-- `for (const row of rows) { … }`, with everything that the body appends to a list. -/
def collectEach (body : ρ → Except ε (List β)) : List ρ → Except ε (List β)
  | [] => .ok []
  | row :: rows => do
    let found ← body row
    let rest ← collectEach body rows
    pure (found ++ rest)

variable {body : ρ → Except ε (List β)}

section

variable {rows : List ρ} {result : List β} (h : collectEach body rows = .ok result)

include h

theorem mem_collectEach {b : β} : b ∈ result ↔ ∃ row ∈ rows, ∃ found, body row = .ok found ∧ b ∈ found := by
  induction rows generalizing result with
  | nil =>
    obtain rfl := Except.ok.inj h
    simp
  | cons row rows ih =>
    simp only [collectEach, bind_eq_ok, pure_eq_ok] at h
    obtain ⟨found, hfound, rest, hrest, rfl⟩ := h
    rw [List.mem_append, ih hrest]
    simp [hfound]

theorem ok_of_collectEach {row : ρ} (hrow : row ∈ rows) : ∃ found, body row = .ok found := by
  induction rows generalizing result with
  | nil => cases hrow
  | cons first rows ih =>
    simp only [collectEach, bind_eq_ok] at h
    obtain ⟨found, hfound, rest, hrest, -⟩ := h
    rcases List.mem_cons.mp hrow with rfl | hrow
    · exact ⟨found, hfound⟩
    · exact ih hrest hrow

end

theorem exists_mem_collectEach_iff {rows : List ρ} {result : List β} {P : ρ → Prop} {Q : β → Prop}
    (hbody : ∀ row ∈ rows, ∀ found, body row = .ok found → ((∃ b ∈ found, Q b) ↔ P row))
    (h : collectEach body rows = .ok result) : (∃ b ∈ result, Q b) ↔ ∃ row ∈ rows, P row := by
  constructor
  · rintro ⟨b, hb, hQ⟩
    obtain ⟨row, hrow, found, hfound, hmem⟩ := (mem_collectEach h).mp hb
    exact ⟨row, hrow, (hbody row hrow found hfound).mp ⟨b, hmem, hQ⟩⟩
  · rintro ⟨row, hrow, hP⟩
    obtain ⟨found, hfound⟩ := ok_of_collectEach h hrow
    obtain ⟨b, hmem, hQ⟩ := (hbody row hrow found hfound).mpr hP
    exact ⟨b, (mem_collectEach h).mpr ⟨row, hrow, found, hfound, hmem⟩, hQ⟩

theorem foldlM_invariant {body : σ → ρ → Except ε σ} {I : List ρ → σ → Prop}
    {rows : List ρ} {s s' : σ} (h : rows.foldlM body s = .ok s') (hs : I [] s)
    (hbody : ∀ done row rest s s', done ++ row :: rest = rows → I done s → body s row = .ok s' →
      I (done ++ [row]) s') : I rows s' := by
  have hloop : ∀ (rest done : List ρ) (s : σ), done ++ rest = rows → I done s →
      rest.foldlM body s = .ok s' → I rows s' := by
    intro rest
    induction rest with
    | nil =>
      intro done s hsplit hI hend
      rw [List.foldlM_nil, pure_eq_ok] at hend
      rw [List.append_nil] at hsplit
      rwa [← hsplit, ← hend]
    | cons row rest ih =>
      intro done s hsplit hI hend
      rw [List.foldlM_cons, bind_eq_ok] at hend
      obtain ⟨s₁, hrow, hend⟩ := hend
      refine ih (done ++ [row]) s₁ ?_ (hbody done row rest s s₁ hsplit hI hrow) hend
      rw [List.append_assoc, List.singleton_append, hsplit]
  exact hloop rows [] s (List.nil_append rows) hs h

theorem bind_map_congr {γ δ : Type} {g : α → γ} {k : β → δ} {first first' : Except ε α}
    {rest rest' : α → Except ε β} (hfirst : first.map g = first'.map g)
    (hrest : ∀ a a', g a = g a' → (rest a).map k = (rest' a').map k) :
    (first >>= rest).map k = (first' >>= rest').map k := by
  cases first with
  | error e =>
    cases first' with
    | error e' => rw [Except.error.inj hfirst]; rfl
    | ok a' => cases hfirst
  | ok a =>
    cases first' with
    | error e' => cases hfirst
    | ok a' => exact hrest a a' (Except.ok.inj hfirst)

/-- **Two loops side by side.** Bodies that agree in what `g` shows of states that agree
in it make loops that agree in it, and in how they end. -/
theorem foldlM_map_congr {γ : Type} {g : σ → γ} {body body' : σ → ρ → Except ε σ}
    (hbody : ∀ s s' row, g s = g s' → (body s row).map g = (body' s' row).map g) (rows : List ρ) :
    ∀ s s', g s = g s' → (rows.foldlM body s).map g = (rows.foldlM body' s').map g := by
  induction rows with
  | nil =>
    intro s s' hs
    exact congrArg Except.ok hs
  | cons row rows ih =>
    intro s s' hs
    rw [List.foldlM_cons, List.foldlM_cons]
    exact bind_map_congr (hbody s s' row hs) ih

end ForwardX.Checks
