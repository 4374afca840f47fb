/-
A connection as the reads it will give: data as it arrives, a timeout, or an error.
-/
import Mathlib.Data.List.Infix

namespace ForwardX.Reads

variable {α : Type*}

/-! ## Reads -/

inductive NetError where
  | eof
  | timeout
  | failed
  deriving DecidableEq

inductive Arrival (α : Type*) where
  | data (bytes : List α)
  | error (e : NetError)

/-- `conn.Read` of at most `limit` bytes: the bytes, the error, and the connection after it. -/
def read (limit : ℕ) : List (Arrival α) → List α × Option NetError × List (Arrival α)
  | [] => ([], some .eof, [])
  | .error e :: rest => ([], some e, rest)
  | .data bytes :: rest =>
    (bytes.take limit, none, if bytes.length ≤ limit then rest else .data (bytes.drop limit) :: rest)

def stream (conn : List (Arrival α)) : List α :=
  conn.flatMap fun
    | .data bytes => bytes
    | .error _ => []

/-- Nothing but data arrives, some with each read. -/
def Flowing (conn : List (Arrival α)) : Prop := ∀ a ∈ conn, ∃ bytes, a = .data bytes ∧ bytes ≠ []

theorem read_flowing {conn : List (Arrival α)} (hflow : Flowing conn) (hdata : stream conn ≠ [])
    {limit : ℕ} (hlimit : 0 < limit) :
    ∃ more conn', read limit conn = (more, none, conn') ∧ more ≠ [] ∧ Flowing conn' ∧
      more ++ stream conn' = stream conn := by
  cases conn with
  | nil => exact absurd rfl hdata
  | cons a rest =>
    obtain ⟨bytes, rfl, hbytes⟩ := hflow a List.mem_cons_self
    have hrest : Flowing rest := fun x hx => hflow x (List.mem_cons_of_mem _ hx)
    have hmore : bytes.take limit ≠ [] := by
      cases bytes with
      | nil => exact absurd rfl hbytes
      | cons b bytes =>
        obtain ⟨k, rfl⟩ := Nat.exists_eq_succ_of_ne_zero hlimit.ne'
        exact List.cons_ne_nil _ _
    by_cases hfits : bytes.length ≤ limit
    · refine ⟨_, _, rfl, hmore, by rw [if_pos hfits]; exact hrest, ?_⟩
      rw [if_pos hfits, List.take_of_length_le hfits]
      rfl
    · refine ⟨_, _, rfl, hmore, ?_, ?_⟩
      · rw [if_neg hfits]
        intro x hx
        obtain rfl | hx := List.mem_cons.mp hx
        · refine ⟨_, rfl, fun hnil => hfits ?_⟩
          exact List.drop_eq_nil_iff.mp hnil
        · exact hrest x hx
      · rw [if_neg hfits]
        show bytes.take limit ++ (bytes.drop limit ++ stream rest) = bytes ++ stream rest
        rw [← List.append_assoc, List.take_append_drop]

/-! ## Readers -/

/-- How a reader ends: with its buffer, or with an error of its own or of the connection. -/
inductive Stop (ε : Type*) where
  | read (e : NetError)
  | other (e : ε)

/-- Read on while `more` asks for it. An error of a read goes to `onError` and a read of nothing to
`onNothing`; both may let the reader go on with what it has. Each turn adds to the buffer, so `fuel`
turns are enough for a buffer that is not to grow by more than that. -/
def readWhile {ε : Type*} (more : List α → Option ℕ) (onError : NetError → Option (Stop ε))
    (onNothing : Option (Stop ε)) : ℕ → List α → List (Arrival α) →
    Except (Stop ε) (List α) × List (Arrival α)
  | 0, buf, conn => (.ok buf, conn)
  | fuel + 1, buf, conn =>
    match more buf with
    | none => (.ok buf, conn)
    | some limit =>
      match read limit conn with
      | (got, some e, conn) =>
        match onError e with
        | some stop => (.error stop, conn)
        | none => (.ok (buf ++ got), conn)
      | (got, none, conn) =>
        if got = [] then
          match onNothing with
          | some stop => (.error stop, conn)
          | none => (.ok buf, conn)
        else readWhile more onError onNothing fuel (buf ++ got) conn

theorem readWhile_flowing {ε : Type*} {more : List α → Option ℕ}
    (onError : NetError → Option (Stop ε)) (onNothing : Option (Stop ε)) {s : List α} {enough : ℕ}
    (hmore : ∀ buf, buf <+: s → buf ≠ [] → ∀ limit, more buf = some limit →
      0 < limit ∧ buf.length < s.length)
    (hstop : ∀ buf, buf <+: s → enough ≤ buf.length → more buf = none)
    (fuel : ℕ) {buf : List α} {conn : List (Arrival α)} (hbuf : buf ≠ []) (hflow : Flowing conn)
    (hs : buf ++ stream conn = s) (hfuel : enough ≤ buf.length + fuel) :
    ∃ buf' conn', readWhile more onError onNothing fuel buf conn = (.ok buf', conn') ∧
      Flowing conn' ∧ buf' ++ stream conn' = s ∧ buf' ≠ [] ∧ more buf' = none := by
  induction fuel generalizing buf conn with
  | zero => exact ⟨buf, conn, rfl, hflow, hs, hbuf, hstop buf ⟨_, hs⟩ hfuel⟩
  | succ fuel ih =>
    unfold readWhile
    cases hask : more buf with
    | none => exact ⟨buf, conn, rfl, hflow, hs, hbuf, hask⟩
    | some limit =>
      obtain ⟨hlimit, hshort⟩ := hmore buf ⟨_, hs⟩ hbuf limit hask
      have hdata : stream conn ≠ [] := by
        intro hnil
        rw [← hs, hnil, List.append_nil] at hshort
        exact lt_irrefl _ hshort
      obtain ⟨got, conn', hread, hgot, hflow', hstream⟩ := read_flowing hflow hdata hlimit
      dsimp only
      rw [hread]
      dsimp only
      rw [if_neg hgot]
      have hpos := List.length_pos_iff.mpr hgot
      refine ih (fun hnil => hbuf (List.append_eq_nil_iff.mp hnil).1) hflow' ?_ ?_
      · rw [List.append_assoc, hstream, hs]
      · rw [List.length_append]
        omega

end ForwardX.Reads
