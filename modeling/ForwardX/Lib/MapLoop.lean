/-
A loop over a JavaScript `Map` that changes the map while it runs.

The map has a list of slots.
-/
import ForwardX.Lib.JsMap

namespace ForwardX

open List

structure MapData (κ ν : Type*) where
  slots : List (Option (κ × ν))
  distinct : slots.Pairwise fun a b => ∀ x ∈ a, ∀ y ∈ b, x.1 ≠ y.1

namespace MapData

variable {κ ν : Type*}

def toMap (m : MapData κ ν) : JsMap κ ν where
  entries := m.slots.filterMap id
  nodup := by
    rw [List.Nodup, pairwise_map, pairwise_filterMap]
    exact m.distinct.imp fun h x hx y hy => h x hx y hy

def ofMap (m : JsMap κ ν) : MapData κ ν where
  slots := m.entries.map some
  distinct := by
    rw [pairwise_map]
    refine (pairwise_map.mp m.nodup).imp ?_
    rintro a b hne x hx y hy
    obtain rfl := Option.some.inj hx
    obtain rfl := Option.some.inj hy
    exact hne

@[simp] theorem entries_toMap (m : MapData κ ν) : m.toMap.entries = m.slots.filterMap id := rfl

/-- `map.keys().next().value`. -/
def oldestKey (m : MapData κ ν) : Option κ := m.toMap.entries.head?.map Prod.fst

def size (m : MapData κ ν) : ℕ := m.toMap.entries.length

/-! ## The loop -/

/-- `for (const [k, v] of m) body`; `none` is a loop that is not over yet. -/
def loop (body : MapData κ ν → κ → ν → MapData κ ν) : ℕ → MapData κ ν → ℕ → Option (MapData κ ν)
  | 0, _, _ => none
  | fuel + 1, m, i =>
    match m.slots[i]? with
    | none => some m
    | some none => loop body fuel m (i + 1)
    | some (some e) => loop body fuel (body m e.1 e.2) (i + 1)

section

variable {body : MapData κ ν → κ → ν → MapData κ ν}

theorem loop_mono {fuel fuel' : ℕ} (hle : fuel ≤ fuel') :
    ∀ {m : MapData κ ν} {i : ℕ} {r : MapData κ ν}, loop body fuel m i = some r → loop body fuel' m i = some r := by
  induction fuel generalizing fuel' with
  | zero =>
    intro m i r h
    cases h
  | succ fuel ih =>
    intro m i r h
    cases fuel' with
    | zero => exact absurd hle (Nat.not_succ_le_zero fuel)
    | succ fuel' =>
      unfold loop at h ⊢
      rcases hslot : m.slots[i]? with _ | _ | e
      · rwa [hslot] at h
      · rw [hslot] at h
        exact ih (Nat.le_of_succ_le_succ hle) h
      · rw [hslot] at h
        exact ih (Nat.le_of_succ_le_succ hle) h

theorem loop_eq_none {I : MapData κ ν → ℕ → Prop}
    (hI : ∀ m i, I m i → ∃ slot, m.slots[i]? = some slot ∧ (slot = none → I m (i + 1)) ∧
      ∀ e, slot = some e → I (body m e.1 e.2) (i + 1)) (fuel : ℕ) :
    ∀ {m : MapData κ ν} {i : ℕ}, I m i → loop body fuel m i = none := by
  induction fuel with
  | zero => exact fun _ => rfl
  | succ fuel ih =>
    intro m i h
    obtain ⟨slot, hslot, hnone, hsome⟩ := hI m i h
    rw [loop, hslot]
    cases slot with
    | none => exact ih (hnone rfl)
    | some e => exact ih (hsome e rfl)

end

/-! ## Changes -/

variable [DecidableEq κ]

def has (m : MapData κ ν) (k : κ) : Bool := m.slots.any fun slot => slot.any fun e => e.1 = k

def delete (m : MapData κ ν) (k : κ) : MapData κ ν where
  slots := m.slots.map (Option.filter fun e => e.1 ≠ k)
  distinct := by
    rw [pairwise_map]
    refine m.distinct.imp fun h x hx y hy => h x ?_ y ?_
    · exact (Option.filter_eq_some_iff.mp hx).1
    · exact (Option.filter_eq_some_iff.mp hy).1

@[simp] theorem slots_delete (m : MapData κ ν) (k : κ) :
    (m.delete k).slots = m.slots.map (Option.filter fun e => e.1 ≠ k) := rfl

/-- A key that is there keeps its slot, a new one gets a slot at the end. -/
def set (m : MapData κ ν) (k : κ) (v : ν) : MapData κ ν :=
  if h : m.has k = true then
    { slots := m.slots.map (Option.map fun e => if e.1 = k then (k, v) else e)
      distinct := by
        rw [pairwise_map]
        refine m.distinct.imp fun hne x hx y hy => ?_
        obtain ⟨a, ha, rfl⟩ := Option.map_eq_some_iff.mp hx
        obtain ⟨b, hb, rfl⟩ := Option.map_eq_some_iff.mp hy
        have hkey : ∀ e : κ × ν, (if e.1 = k then (k, v) else e).1 = e.1 := by
          intro e
          split
          · rename_i hk
            exact hk.symm
          · rfl
        rw [hkey, hkey]
        exact hne a ha b hb }
  else
    { slots := m.slots ++ [some (k, v)]
      distinct := by
        rw [pairwise_append]
        refine ⟨m.distinct, pairwise_singleton _ _, ?_⟩
        intro slot hslot last hlast x hx y hy
        obtain rfl := mem_singleton.mp hlast
        obtain rfl := Option.some.inj hy
        intro hk
        apply h
        rw [has, any_eq_true]
        refine ⟨slot, hslot, ?_⟩
        rw [Option.mem_def] at hx
        rw [hx]
        exact decide_eq_true hk }

/-! ## Loops that delete -/

section

variable {body : MapData κ ν → κ → ν → MapData κ ν}

theorem map_filter_of_absent {slots : List (Option (κ × ν))} {k : κ}
    (h : ∀ slot ∈ slots, ∀ x ∈ slot, x.1 ≠ k) : slots.map (Option.filter fun e => e.1 ≠ k) = slots := by
  conv_rhs => rw [← map_id slots]
  refine map_congr_left fun slot hslot => ?_
  cases slot with
  | none => rfl
  | some e => exact Option.filter_some_pos (by simpa using h _ hslot e rfl)

theorem slots_delete_of_eq {m : MapData κ ν} {done todo : List (Option (κ × ν))} {e : κ × ν}
    (h : m.slots = done ++ some e :: todo) : (m.delete e.1).slots = done ++ none :: todo := by
  have hdistinct := m.distinct
  rw [h, pairwise_append, pairwise_cons] at hdistinct
  obtain ⟨-, ⟨htodo, -⟩, hdone⟩ := hdistinct
  rw [slots_delete, h, map_append, map_cons, map_filter_of_absent, map_filter_of_absent,
    Option.filter_some_neg (by simp)]
  · exact fun slot hslot x hx => (htodo slot hslot e rfl x hx).symm
  · exact fun slot hslot x hx => hdone slot hslot _ mem_cons_self x hx e rfl

theorem loop_delete {p : κ → ν → Bool} :
    ∀ {todo done : List (Option (κ × ν))} {m : MapData κ ν}, m.slots = done ++ todo →
      (∀ (m' : MapData κ ν) (e : κ × ν), some e ∈ todo →
        body m' e.1 e.2 = if p e.1 e.2 then m'.delete e.1 else m') →
      ∃ r, loop body (todo.length + 1) m done.length = some r ∧
        r.slots = done ++ todo.map (Option.filter fun e => !p e.1 e.2) := by
  intro todo
  induction todo with
  | nil =>
    intro done m hslots _
    refine ⟨m, ?_, by simpa using hslots⟩
    rw [length_nil, loop, hslots, append_nil, getElem?_eq_none le_rfl]
  | cons slot todo ih =>
    intro done m hslots hbody
    have hnext : m.slots[done.length]? = some slot := by rw [hslots]; simp
    -- the loop goes on behind the slot, whatever became of it
    have hgo : ∀ (m' : MapData κ ν) (slot' : Option (κ × ν)), m'.slots = done ++ slot' :: todo →
        ∃ r, loop body (todo.length + 1) m' (done.length + 1) = some r ∧
          r.slots = done ++ slot' :: todo.map (Option.filter fun e => !p e.1 e.2) := by
      intro m' slot' hslots'
      rw [append_cons] at hslots'
      obtain ⟨r, hloop, hr⟩ := ih hslots' fun m' e he => hbody m' e (mem_cons_of_mem _ he)
      rw [length_append, length_singleton] at hloop
      exact ⟨r, hloop, by rw [hr, append_assoc]; rfl⟩
    rw [length_cons, loop, hnext, map_cons]
    cases slot with
    | none => exact hgo m none hslots
    | some e =>
      dsimp only
      rw [hbody m e mem_cons_self]
      by_cases hp : p e.1 e.2 = true
      · rw [if_pos hp, Option.filter_some_neg (by simp [hp])]
        exact hgo _ none (slots_delete_of_eq hslots)
      · rw [if_neg hp, Option.filter_some_pos (by simp [hp])]
        exact hgo m (some e) hslots

end

/-! ## What deletions and a new key do to the slots -/

theorem has_iff {m : MapData κ ν} {k : κ} : m.has k = true ↔ ∃ v, some (k, v) ∈ m.slots := by
  simp only [has, any_eq_true, Option.any_eq_true, decide_eq_true_eq]
  constructor
  · rintro ⟨slot, hslot, ⟨k', v⟩, rfl, rfl⟩
    exact ⟨v, hslot⟩
  · rintro ⟨v, hv⟩
    exact ⟨_, hv, _, rfl, rfl⟩

theorem mem_slots_delete {m : MapData κ ν} {k : κ} {e : κ × ν} :
    some e ∈ (m.delete k).slots ↔ some e ∈ m.slots ∧ e.1 ≠ k := by
  rw [slots_delete, mem_map]
  constructor
  · rintro ⟨slot, hslot, hfilter⟩
    obtain ⟨rfl, hk⟩ := Option.filter_eq_some_iff.mp hfilter
    exact ⟨hslot, by simpa using hk⟩
  · rintro ⟨hslot, hk⟩
    exact ⟨some e, hslot, Option.filter_some_pos (by simpa using hk)⟩

theorem slots_set_of_absent {m : MapData κ ν} {k : κ} (h : m.has k = false) (v : ν) :
    (m.set k v).slots = m.slots ++ [some (k, v)] := by
  rw [set, dif_neg (by simp [h])]

end MapData

end ForwardX
