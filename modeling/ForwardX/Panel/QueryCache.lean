/-
The cache of queries of `server/queryCache.ts`.

A query is answered from an entry, from a load that is on its way, or by a new load, and `clear`
drops both. The entries are related to a history: which load made an entry, when it was started, and
what was cleared since. An answer is stale when its load was started before a `clear` and came back
after it, so the theorem excludes exactly the completion of such loads; sizes and times to live are
kept beside it.
-/
import ForwardX.Lib.Chain
import ForwardX.Lib.JsMap
import ForwardX.Lib.Run
import Mathlib.Data.List.Sort
import Mathlib.Data.Rat.Defs

namespace ForwardX.Panel.QueryCache

open Chain Run Option

variable {κ V : Type}

/-! ## The cache -/

/-- A value, with the number of the load it came from, which the code does not keep. -/
structure Loaded (V : Type) where
  value : V
  load : ℕ
  deriving DecidableEq

structure CacheEntry (V : Type) where
  freshUntil : ℚ
  staleUntil : ℚ
  value : Option (Loaded V) := none
  promise : Option ℕ := none

structure CacheQueryOptions where
  ttlMs : ℚ
  staleMs : Option ℚ := none

/-- The options with the default that `get` puts in. -/
structure Required where
  ttlMs : ℚ
  staleMs : ℚ

def CacheQueryOptions.required (options : CacheQueryOptions) : Required :=
  ⟨options.ttlMs, options.staleMs.getD options.ttlMs⟩

/-- A load that was started: `clears` is the number of clears before, which the code does
not keep. -/
structure Load (κ : Type) where
  key : κ
  opts : Required
  clears : ℕ
  settled : Bool := false

inductive Answer (V : Type) where
  | value (v : Loaded V)
  | promise (load : ℕ)
  | threw
  deriving DecidableEq

def Answer.load : Answer V → Option ℕ
  | .value v => some v.load
  | .promise load => some load
  | .threw => none

/-- `clears` and `answers`, what each `get` has returned and after how many clears, are
about the history only. -/
structure State (κ V : Type) where
  cache : JsMap κ (CacheEntry V) := ∅
  loads : List (Load κ) := []
  clears : ℕ := 0
  answers : List (ℕ × Answer V) := []

section

variable [DecidableEq κ]

def prune (maxEntries : ℕ) (now : ℚ) (cache : JsMap κ (CacheEntry V)) : JsMap κ (CacheEntry V) :=
  let cache := cache.filter fun _ entry => !(entry.promise.isNone && entry.staleUntil ≤ now)
  if cache.size ≤ maxEntries then cache
  else
    let removable := (cache.entries.filter fun e => e.2.promise.isNone).mergeSort
      fun a b => a.2.staleUntil ≤ b.2.staleUntil
    (removable.take (cache.size - maxEntries)).foldl (fun cache e => cache.delete e.1) cache

/-- What `refresh` does once the load is started. -/
def State.refresh (s : State κ V) (key : κ) (opts : Required) : State κ V :=
  let existing := s.cache.get key
  { s with
    loads := s.loads ++ [⟨key, opts, s.clears, false⟩]
    cache := s.cache.set key {
      value := existing.bind CacheEntry.value
      promise := some s.loads.length
      freshUntil := (existing.map CacheEntry.freshUntil).getD 0
      staleUntil := (existing.map CacheEntry.staleUntil).getD 0 } }

/-- `throws` is whether the load fails before it returns a promise, if it is started. -/
def State.get (s : State κ V) (key : κ) (opts : Required) (now : ℚ) (throws : Bool) : State κ V × Answer V :=
  match s.cache.get key with
  | none => if throws then (s, .threw) else (s.refresh key opts, .promise s.loads.length)
  | some cached =>
    match cached.value.filter fun _ => now < cached.freshUntil,
        cached.value.filter fun _ => now < cached.staleUntil, cached.promise with
    | some value, _, _ => (s, .value value)
    | none, some value, some _ => (s, .value value)
    | none, some value, none => if throws then (s, .threw) else (s.refresh key opts, .value value)
    | none, none, some promise => (s, .promise promise)
    | none, none, none => if throws then (s, .threw) else (s.refresh key opts, .promise s.loads.length)

def State.settle (s : State κ V) (load : ℕ) : State κ V :=
  { s with loads := s.loads.modify load fun l => { l with settled := true } }

/-- A load completes. `undefined` is no value. -/
def State.complete (s : State κ V) (maxEntries : ℕ) (load : ℕ) (l : Load κ) (value : Option V)
    (now pruneNow : ℚ) : State κ V :=
  let cache := s.cache.set l.key {
    value := value.map fun v => ⟨v, load⟩
    freshUntil := now + l.opts.ttlMs
    staleUntil := now + l.opts.ttlMs + l.opts.staleMs }
  { s.settle load with cache := prune maxEntries pruneNow cache }

def State.fail (s : State κ V) (load : ℕ) (l : Load κ) : State κ V :=
  let cache := match s.cache.get l.key with
    | none => s.cache
    | some cached =>
      if cached.value.isSome then s.cache.set l.key { cached with promise := none }
      else if cached.promise = some load then s.cache.delete l.key
      else s.cache
  { s.settle load with cache }

inductive Event (κ V : Type) where
  | get (key : κ) (options : CacheQueryOptions) (now : ℚ) (throws : Bool)
  | clear
  | prune (now : ℚ)
  | loaded (load : ℕ) (value : Option V) (now pruneNow : ℚ)
  | failed (load : ℕ)

def inFlight (s : State κ V) (load : ℕ) : Option (Load κ) := s.loads[load]?.filter fun l => !l.settled

def State.clearsBefore (s : State κ V) (load : ℕ) : Option ℕ := s.loads[load]?.map Load.clears

def step (maxEntries : ℕ) (s : State κ V) : Event κ V → State κ V
  | .get key options now throws =>
    let (s', answer) := s.get key options.required now throws
    { s' with answers := s.answers ++ [(s.clears, answer)] }
  | .clear => { s with cache := ∅, clears := s.clears + 1 }
  | .prune now => { s with cache := prune maxEntries now s.cache }
  | .loaded load value now pruneNow =>
    match inFlight s load with
    | some l => s.complete maxEntries load l value now pruneNow
    | none => s
  | .failed load =>
    match inFlight s load with
    | some l => s.fail load l
    | none => s

end

/-! ## Invalidation -/

/-- What was loaded before a `clear` is not returned after it, and between two clears a key
is loaded once at a time. -/
structure Invalidates (s : State κ V) : Prop where
  answers : ∀ a ∈ s.answers, ∀ load ∈ a.2.load, ∃ c ∈ s.clearsBefore load, a.1 ≤ c
  single : ∀ load load' l l', inFlight s load = some l → inFlight s load' = some l' →
    l.clears = s.clears → l'.clears = s.clears → l.key = l'.key → load = load'

/-- No load that was on its way at a `clear` completes after it. It may fail, unless there is
a value by then, and a promise to replace it. -/
def NoLateLoad [DecidableEq κ] (s : State κ V) : Event κ V → Prop
  | .loaded load _ _ _ => ∀ l ∈ inFlight s load, l.clears = s.clears
  | .failed load => ∀ l ∈ inFlight s load, l.clears = s.clears ∨
      ∀ cached ∈ s.cache.get l.key, cached.value = none ∨ cached.promise = none
  | _ => True

/-! ## What the runs keep -/

/-- An entry has come from the loads since the last `clear`. -/
structure EntryOk (s : State κ V) (key : κ) (e : CacheEntry V) : Prop where
  value : ∀ v ∈ e.value, s.clearsBefore v.load = some s.clears
  promise : ∀ p ∈ e.promise, ∃ l, inFlight s p = some l ∧ l.key = key ∧ l.clears = s.clears

structure Kept [DecidableEq κ] (s : State κ V) : Prop where
  entries : ∀ key e, s.cache.get key = some e → EntryOk s key e
  /-- A load that is on its way since the last `clear` is the promise of its key. -/
  awaited : ∀ load l, inFlight s load = some l → l.clears = s.clears →
    ∃ e, s.cache.get l.key = some e ∧ e.promise = some load
  past : ∀ load, ∀ c ∈ s.clearsBefore load, c ≤ s.clears
  answers : ∀ a ∈ s.answers, ∀ load ∈ a.2.load, ∃ c ∈ s.clearsBefore load, a.1 ≤ c

section

variable {l : Load κ} {s : State κ V}

theorem inFlight_eq_some_iff {load : ℕ} :
    inFlight s load = some l ↔ s.loads[load]? = some l ∧ l.settled = false := by
  rw [inFlight, filter_eq_some_iff, Bool.not_eq_true']

theorem clearsBefore_of_inFlight {load : ℕ} (h : inFlight s load = some l) :
    s.clearsBefore load = some l.clears := by
  rw [State.clearsBefore, (inFlight_eq_some_iff.mp h).1, map_some]

@[simp] theorem clearsBefore_settle (s : State κ V) (load load' : ℕ) :
    (s.settle load).clearsBefore load' = s.clearsBefore load' := by
  have hclears : Load.clears ∘ (fun l : Load κ => if load = load' then { l with settled := true } else l)
      = Load.clears := by
    funext l
    simp only [Function.comp_apply]
    split <;> rfl
  rw [State.clearsBefore, State.settle, List.getElem?_modify, Option.map_eq_map, Option.map_map, hclears]
  rfl

theorem inFlight_settle {load load' : ℕ} :
    inFlight (s.settle load) load' = some l ↔ load' ≠ load ∧ inFlight s load' = some l := by
  rw [inFlight_eq_some_iff, inFlight_eq_some_iff, State.settle, getElem?_modify_iff]
  constructor
  · rintro ⟨⟨l', hl', rfl⟩, hopen⟩
    by_cases heq : load' = load
    · simp [heq] at hopen
    · simp only [if_neg heq] at hopen ⊢
      exact ⟨heq, hl', hopen⟩
  · rintro ⟨hne, hl, hopen⟩
    exact ⟨⟨l, hl, (if_neg hne).symm⟩, hopen⟩

variable [DecidableEq κ] (s : State κ V) (key : κ) (opts : Required)

theorem clearsBefore_refresh {load c : ℕ} (h : s.clearsBefore load = some c) :
    (s.refresh key opts).clearsBefore load = some c := by
  obtain ⟨l, hl, rfl⟩ := map_eq_some_iff.mp h
  exact map_eq_some_iff.mpr ⟨l, getElem?_concat_of_some hl, rfl⟩

theorem clearsBefore_refresh_new : (s.refresh key opts).clearsBefore s.loads.length = some s.clears := by
  simp [State.clearsBefore, State.refresh]

theorem inFlight_refresh {load : ℕ} :
    inFlight (s.refresh key opts) load = some l ↔
      inFlight s load = some l ∨ (load = s.loads.length ∧ l = ⟨key, opts, s.clears, false⟩) := by
  rw [inFlight_eq_some_iff, inFlight_eq_some_iff]
  simp only [State.refresh, getElem?_concat_iff]
  constructor
  · rintro ⟨hl | hl, hopen⟩
    · exact .inl ⟨hl, hopen⟩
    · exact .inr hl
  · rintro (⟨hl, hopen⟩ | ⟨hload, rfl⟩)
    · exact ⟨.inl hl, hopen⟩
    · exact ⟨.inr ⟨hload, rfl⟩, rfl⟩

end

/-! Entries that are pruned have no promise. -/

section

variable [DecidableEq κ]

structure Trimmed (cache cache' : JsMap κ (CacheEntry V)) : Prop where
  sub : ∀ key e, cache'.get key = some e → cache.get key = some e
  keeps : ∀ key e, cache.get key = some e → e.promise ≠ none → cache'.get key = some e

theorem Trimmed.refl (cache : JsMap κ (CacheEntry V)) : Trimmed cache cache :=
  ⟨fun _ _ h => h, fun _ _ h _ => h⟩

theorem Trimmed.trans {a b c : JsMap κ (CacheEntry V)} (h : Trimmed a b) (h' : Trimmed b c) : Trimmed a c :=
  ⟨fun key e hget => h.sub key e (h'.sub key e hget),
    fun key e hget hp => h'.keeps key e (h.keeps key e hget hp) hp⟩

theorem Trimmed.delete {cache cache' : JsMap κ (CacheEntry V)} (h : Trimmed cache cache') {key : κ}
    (hkey : ∃ e, cache.get key = some e ∧ e.promise = none) : Trimmed cache (cache'.delete key) where
  sub key' e hget := by
    rw [JsMap.get_delete] at hget
    split_ifs at hget
    exact h.sub key' e hget
  keeps key' e hget hp := by
    have hne : key' ≠ key := by
      rintro rfl
      obtain ⟨e', hget', hp'⟩ := hkey
      obtain rfl := Option.some.inj (hget.symm.trans hget')
      exact hp hp'
    rw [JsMap.get_delete, if_neg hne]
    exact h.keeps key' e hget hp

/-- **What is pruned** was promised by nobody. -/
theorem trimmed_prune (maxEntries : ℕ) (now : ℚ) (cache : JsMap κ (CacheEntry V)) :
    Trimmed cache (prune maxEntries now cache) := by
  have hexpired : Trimmed cache
      (cache.filter fun _ entry => !(entry.promise.isNone && entry.staleUntil ≤ now)) := by
    constructor
    · intro key e hget
      rw [JsMap.get_filter, filter_eq_some_iff] at hget
      exact hget.1
    · intro key e hget hp
      rw [JsMap.get_filter, filter_eq_some_iff]
      exact ⟨hget, by simp [isSome_iff_ne_none.mpr hp]⟩
  rw [prune]
  split_ifs with hsize
  · exact hexpired
  · refine hexpired.trans ?_
    set expired := cache.filter fun _ entry => !(entry.promise.isNone && entry.staleUntil ≤ now)
    -- the loop deletes entries of `expired` that have no promise
    have hloop : ∀ (removable : List (κ × CacheEntry V)) (cache' : JsMap κ (CacheEntry V)),
        (∀ e ∈ removable, expired.get e.1 = some e.2 ∧ e.2.promise = none) → Trimmed expired cache' →
        Trimmed expired (removable.foldl (fun cache e => cache.delete e.1) cache') := by
      intro removable
      induction removable with
      | nil => exact fun _ _ h => h
      | cons e rest ih =>
        intro cache' hall h
        refine ih _ (fun e' he' => hall e' (List.mem_cons_of_mem _ he')) (h.delete ?_)
        exact ⟨e.2, hall e List.mem_cons_self⟩
    refine hloop _ _ (fun e he => ?_) (Trimmed.refl _)
    have hmem := List.mem_mergeSort.mp (List.mem_of_mem_take he)
    obtain ⟨hentry, hp⟩ := List.mem_filter.mp hmem
    exact ⟨JsMap.get_eq_some_iff.mpr hentry, isNone_iff_eq_none.mp hp⟩

end

/-! ## One step -/

section

variable [DecidableEq κ] {s : State κ V}

theorem kept_nil : Kept ({} : State κ V) where
  entries _ _ h := absurd h nofun
  awaited _ _ h := absurd h nofun
  past _ _ h := absurd h nofun
  answers := List.forall_mem_nil _

theorem Kept.trim (h : Kept s) {cache : JsMap κ (CacheEntry V)} (htrim : Trimmed s.cache cache) :
    Kept { s with cache } where
  entries key e hget :=
    have he := h.entries key e (htrim.sub key e hget)
    ⟨he.value, he.promise⟩
  awaited load l hl hnow := by
    obtain ⟨e, hget, hp⟩ := h.awaited load l hl hnow
    exact ⟨e, htrim.keeps _ e hget (by simp [hp]), hp⟩
  past := h.past
  answers := h.answers

theorem Kept.answer (h : Kept s) {answer : Answer V}
    (hanswer : ∀ load ∈ answer.load, s.clearsBefore load = some s.clears) {answers : List (ℕ × Answer V)}
    (hanswers : answers = s.answers ++ [(s.clears, answer)]) : Kept { s with answers } where
  entries key e hget :=
    have he := h.entries key e hget
    ⟨he.value, he.promise⟩
  awaited := h.awaited
  past := h.past
  answers := by
    intro a ha load hload
    obtain ha | ha := List.mem_append.mp (hanswers ▸ ha)
    · exact h.answers a ha load hload
    · rw [List.mem_singleton.mp ha] at hload ⊢
      exact ⟨s.clears, hanswer load hload, le_rfl⟩

/-- **A load is started** when its key has no promise. -/
theorem Kept.refresh (h : Kept s) {key : κ} (opts : Required)
    (hnone : ∀ e, s.cache.get key = some e → e.promise = none) : Kept (s.refresh key opts) where
  entries key' e hget := by
    have hold : ∀ v ∈ (s.cache.get key).bind CacheEntry.value, s.clearsBefore v.load = some s.clears := by
      intro v hv
      obtain ⟨e', hget', hv⟩ := bind_eq_some_iff.mp hv
      exact (h.entries key e' hget').value v hv
    simp only [State.refresh, JsMap.get_set] at hget
    split_ifs at hget with hkey
    · cases hget
      refine ⟨fun v hv => clearsBefore_refresh s key opts (hold v hv), ?_⟩
      rintro p ⟨rfl⟩
      exact ⟨_, (inFlight_refresh s key opts).mpr (.inr ⟨rfl, rfl⟩), hkey.symm, rfl⟩
    · have he := h.entries key' e hget
      refine ⟨fun v hv => clearsBefore_refresh s key opts (he.value v hv), fun p hp => ?_⟩
      obtain ⟨l, hl, hrest⟩ := he.promise p hp
      exact ⟨l, (inFlight_refresh s key opts).mpr (.inl hl), hrest⟩
  awaited load l hl hnow := by
    simp only [State.refresh, JsMap.get_set]
    obtain hl | ⟨rfl, rfl⟩ := (inFlight_refresh s key opts).mp hl
    · obtain ⟨e, hget, hp⟩ := h.awaited load l hl hnow
      have hne : l.key ≠ key := by
        rintro rfl
        cases hp.symm.trans (hnone e hget)
      exact ⟨e, (if_neg hne).trans hget, hp⟩
    · exact ⟨_, if_pos rfl, rfl⟩
  past load c hc := by
    obtain ⟨l, hl, rfl⟩ := map_eq_some_iff.mp hc
    obtain hl | ⟨-, rfl⟩ := getElem?_concat_iff.mp hl
    · exact h.past load _ (map_eq_some_iff.mpr ⟨l, hl, rfl⟩)
    · exact le_rfl
  answers a ha load hload := by
    obtain ⟨c, hc, hle⟩ := h.answers a ha load hload
    exact ⟨c, clearsBefore_refresh s key opts hc, hle⟩

theorem get_cases (s : State κ V) (key : κ) (opts : Required) (now : ℚ) (throws : Bool) :
    s.get key opts now throws = (s, .threw) ∨
    (∃ e, s.cache.get key = some e ∧ ((∃ v ∈ e.value, s.get key opts now throws = (s, .value v)) ∨
      ∃ p ∈ e.promise, s.get key opts now throws = (s, .promise p))) ∨
    ((∀ e, s.cache.get key = some e → e.promise = none) ∧
      (s.get key opts now throws = (s.refresh key opts, .promise s.loads.length) ∨
        ∃ e, s.cache.get key = some e ∧
          ∃ v ∈ e.value, s.get key opts now throws = (s.refresh key opts, .value v))) := by
  cases hget : s.cache.get key with
  | none => cases throws <;> simp [State.get, hget]
  | some cached =>
    cases hfresh : cached.value.filter fun _ => decide (now < cached.freshUntil) with
    | some value =>
      have hvalue := (filter_eq_some_iff.mp hfresh).1
      exact .inr (.inl ⟨cached, rfl, .inl ⟨value, hvalue, by simp only [State.get, hget, hfresh]⟩⟩)
    | none =>
      cases hstale : cached.value.filter fun _ => decide (now < cached.staleUntil) with
      | some value =>
        have hvalue := (filter_eq_some_iff.mp hstale).1
        cases hp : cached.promise with
        | some promise =>
          exact .inr (.inl ⟨cached, rfl, .inl ⟨value, hvalue, by simp only [State.get, hget, hfresh, hstale, hp]⟩⟩)
        | none =>
          have hrest : s.get key opts now throws =
              if throws then (s, .threw) else (s.refresh key opts, .value value) := by
            simp only [State.get, hget, hfresh, hstale, hp]
          cases throws with
          | true => exact .inl hrest
          | false =>
            refine .inr (.inr ⟨?_, .inr ⟨cached, rfl, value, hvalue, hrest⟩⟩)
            rintro e ⟨rfl⟩
            exact hp
      | none =>
        cases hp : cached.promise <;> cases throws <;> simp [State.get, hget, hfresh, hstale, hp]

section

variable (h : Kept s)

include h

theorem get_spec (key : κ) (opts : Required) (now : ℚ) (throws : Bool) :
    Kept (s.get key opts now throws).1 ∧ (s.get key opts now throws).1.clears = s.clears ∧
      (s.get key opts now throws).1.answers = s.answers ∧
      ∀ load ∈ (s.get key opts now throws).2.load,
        (s.get key opts now throws).1.clearsBefore load = some s.clears := by
  obtain heq | ⟨e, hget, ⟨v, hv, heq⟩ | ⟨p, hp, heq⟩⟩ | ⟨hnone, heq | ⟨e, hget, v, hv, heq⟩⟩ :=
    get_cases s key opts now throws <;> rw [heq]
  · exact ⟨h, rfl, rfl, nofun⟩
  · refine ⟨h, rfl, rfl, ?_⟩
    rintro load ⟨rfl⟩
    exact (h.entries key e hget).value v hv
  · refine ⟨h, rfl, rfl, ?_⟩
    rintro load ⟨rfl⟩
    obtain ⟨l, hl, -, hnow⟩ := (h.entries key e hget).promise p hp
    rw [clearsBefore_of_inFlight hl, hnow]
  · refine ⟨h.refresh opts hnone, rfl, rfl, ?_⟩
    rintro load ⟨rfl⟩
    exact clearsBefore_refresh_new s key opts
  · refine ⟨h.refresh opts hnone, rfl, rfl, ?_⟩
    rintro load ⟨rfl⟩
    exact clearsBefore_refresh s key opts ((h.entries key e hget).value v hv)

variable {cache : JsMap κ (CacheEntry V)} {l : Load κ} {load : ℕ}

/-- **A load of now settles**, and leaves at most a value of now at its key. -/
theorem Kept.settle (hl : inFlight s load = some l)
    (hnow : l.clears = s.clears)
    (hothers : ∀ key, key ≠ l.key → cache.get key = s.cache.get key)
    (hown : ∀ e, cache.get l.key = some e →
      e.promise = none ∧ ∀ v ∈ e.value, s.clearsBefore v.load = some s.clears) :
    Kept { s.settle load with cache } where
  entries key e hget := by
    by_cases hkey : key = l.key
    · subst hkey
      obtain ⟨hp, hvalue⟩ := hown e hget
      refine ⟨fun v hv => (clearsBefore_settle s load v.load).trans (hvalue v hv), fun p hmem => ?_⟩
      exact absurd (hp.symm.trans hmem) nofun
    · have he := h.entries key e ((hothers key hkey).symm.trans hget)
      refine ⟨fun v hv => (clearsBefore_settle s load v.load).trans (he.value v hv), fun p hmem => ?_⟩
      obtain ⟨l', hl', hkey', hnow'⟩ := he.promise p hmem
      have hne : p ≠ load := by
        rintro rfl
        obtain rfl := Option.some.inj (hl.symm.trans hl')
        exact hkey hkey'.symm
      exact ⟨l', inFlight_settle.mpr ⟨hne, hl'⟩, hkey', hnow'⟩
  awaited load' l' hl' hnow' := by
    obtain ⟨hne, hl'⟩ := inFlight_settle.mp hl'
    obtain ⟨e', hget', hp'⟩ := h.awaited load' l' hl' hnow'
    have hkey : l'.key ≠ l.key := by
      intro hkey
      obtain ⟨e, hget, hp⟩ := h.awaited load l hl hnow
      obtain rfl := Option.some.inj (hget.symm.trans (hkey ▸ hget'))
      exact hne (Option.some.inj (hp'.symm.trans hp))
    exact ⟨e', (hothers _ hkey).trans hget', hp'⟩
  past load' c hc := h.past load' c ((clearsBefore_settle s load load').symm.trans hc)
  answers a ha load' hload' := by
    obtain ⟨c, hc, hle⟩ := h.answers a ha load' hload'
    exact ⟨c, (clearsBefore_settle s load load').trans hc, hle⟩

theorem Kept.settle_late (hl : inFlight s load = some l)
    (hlate : l.clears ≠ s.clears)
    (hsame : ∀ key, cache.get key = s.cache.get key) : Kept { s.settle load with cache } where
  entries key e hget := by
    have he := h.entries key e ((hsame key).symm.trans hget)
    refine ⟨fun v hv => (clearsBefore_settle s load v.load).trans (he.value v hv), fun p hmem => ?_⟩
    obtain ⟨l', hl', hrest⟩ := he.promise p hmem
    have hne : p ≠ load := by
      rintro rfl
      obtain rfl := Option.some.inj (hl.symm.trans hl')
      exact hlate hrest.2
    exact ⟨l', inFlight_settle.mpr ⟨hne, hl'⟩, hrest⟩
  awaited load' l' hl' hnow' := by
    obtain ⟨e, hget, hp⟩ := h.awaited load' l' (inFlight_settle.mp hl').2 hnow'
    exact ⟨e, (hsame _).trans hget, hp⟩
  past load' c hc := h.past load' c ((clearsBefore_settle s load load').symm.trans hc)
  answers a ha load' hload' := by
    obtain ⟨c, hc, hle⟩ := h.answers a ha load' hload'
    exact ⟨c, (clearsBefore_settle s load load').trans hc, hle⟩

theorem Kept.complete (maxEntries : ℕ)
    (hl : inFlight s load = some l) (hnow : l.clears = s.clears) (value : Option V) (now pruneNow : ℚ) :
    Kept (s.complete maxEntries load l value now pruneNow) := by
  have hset : Kept { s.settle load with cache := s.cache.set l.key {
      value := value.map fun v => ⟨v, load⟩
      freshUntil := now + l.opts.ttlMs
      staleUntil := now + l.opts.ttlMs + l.opts.staleMs } } := by
    refine h.settle hl hnow (fun key hkey => by rw [JsMap.get_set, if_neg hkey]) fun e hget => ?_
    rw [JsMap.get_set, if_pos rfl] at hget
    cases hget
    refine ⟨rfl, fun v hv => ?_⟩
    obtain ⟨v', -, rfl⟩ := map_eq_some_iff.mp hv
    rw [clearsBefore_of_inFlight hl, hnow]
  exact hset.trim (trimmed_prune maxEntries pruneNow _)

theorem Kept.fail (hl : inFlight s load = some l)
    (hnow : l.clears = s.clears) : Kept (s.fail load l) := by
  obtain ⟨cached, hget, hp⟩ := h.awaited load l hl hnow
  rw [State.fail, hget]
  by_cases hvalue : cached.value.isSome
  · simp only [if_pos hvalue]
    refine h.settle hl hnow (fun key hkey => by rw [JsMap.get_set, if_neg hkey]) fun e he => ?_
    rw [JsMap.get_set, if_pos rfl] at he
    cases he
    exact ⟨rfl, (h.entries _ _ hget).value⟩
  · simp only [if_neg hvalue, if_pos hp]
    refine h.settle hl hnow (fun key hkey => by rw [JsMap.get_delete, if_neg hkey]) fun e he => ?_
    rw [JsMap.get_delete, if_pos rfl] at he
    exact absurd he nofun

theorem Kept.fail_late (hl : inFlight s load = some l) (hlate : l.clears ≠ s.clears)
    (hone : ∀ cached ∈ s.cache.get l.key, cached.value = none ∨ cached.promise = none) :
    Kept (s.fail load l) := by
  refine h.settle_late hl hlate fun key => ?_
  cases hget : s.cache.get l.key with
  | none => rfl
  | some cached =>
    dsimp only
    split_ifs with hvalue hp
    · have hnone : cached.promise = none :=
        (hone cached hget).resolve_left (isSome_iff_ne_none.mp hvalue)
      rw [JsMap.get_set]
      split_ifs with hkey
      · rw [hkey, hget, ← hnone]
      · rfl
    · -- the promise of the entry is of a load of now
      obtain ⟨l', hl', -, hnow'⟩ := (h.entries _ _ hget).promise load hp
      obtain rfl := Option.some.inj (hl.symm.trans hl')
      exact absurd hnow' hlate
    · rfl

theorem Kept.clear : Kept { s with cache := ∅, clears := s.clears + 1 } where
  entries _ _ hget := absurd hget nofun
  awaited load l hl hnow := by
    have hle := h.past load _ (clearsBefore_of_inFlight hl)
    rw [hnow] at hle
    exact absurd hle (Nat.not_succ_le_self _)
  past load c hc := (h.past load c hc).trans (Nat.le_succ _)
  answers := h.answers

/-- **A step without a late load** keeps the cache to what was loaded since the last
`clear`. -/
theorem Kept.step (maxEntries : ℕ) (event : Event κ V) (hok : NoLateLoad s event) :
    Kept (QueryCache.step maxEntries s event) := by
  cases event with
  | get key options now throws =>
    obtain ⟨hkept, hclears, hanswers, hanswer⟩ := get_spec h key options.required now throws
    rw [← hclears] at hanswer
    have hnext : s.answers ++ [(s.clears, (s.get key options.required now throws).2)]
        = (s.get key options.required now throws).1.answers ++
          [((s.get key options.required now throws).1.clears, (s.get key options.required now throws).2)] := by
      rw [hclears, hanswers]
    exact hkept.answer hanswer hnext
  | clear => exact h.clear
  | prune now => exact h.trim (trimmed_prune maxEntries now s.cache)
  | loaded load value now pruneNow =>
    rw [QueryCache.step]
    cases hl : inFlight s load with
    | none => exact h
    | some l => exact h.complete maxEntries hl (hok l hl) value now pruneNow
  | failed load =>
    rw [QueryCache.step]
    cases hl : inFlight s load with
    | none => exact h
    | some l =>
      by_cases hnow : l.clears = s.clears
      · exact h.fail hl hnow
      · exact h.fail_late hl hnow ((hok l hl).resolve_left hnow)

theorem Kept.invalidates : Invalidates s where
  answers := h.answers
  single load load' l l' hl hl' hnow hnow' hkey := by
    obtain ⟨e, hget, hp⟩ := h.awaited load l hl hnow
    obtain ⟨e', hget', hp'⟩ := h.awaited load' l' hl' hnow'
    obtain rfl := Option.some.inj (hget.symm.trans (hkey ▸ hget'))
    exact Option.some.inj (hp.symm.trans hp')

end

end

/-- **Cleared queries are fresh**, in every run in which no load that was on its way at a
`clear` completes after it. -/
theorem cleared_queries_are_fresh [DecidableEq κ] (maxEntries : ℕ) (events : List (Event κ V))
    (hok : Admissible NoLateLoad (step maxEntries) {} events) :
    Invalidates (run (step maxEntries) ({} : State κ V) events) :=
  (run_invariant_of_admissible (fun _ event hok h => h.step maxEntries event hok) events _ hok kept_nil).invalidates

/-- One load fails after the `clear`, and another one was started after it. -/
theorem cleared_queries_are_fresh_failed :
    Invalidates (run (step 300) ({} : State String ℕ) [.get "rules" ⟨10, none⟩ 0 false, .clear,
      .get "rules" ⟨10, none⟩ 1 false, .failed 0, .loaded 1 (some 5) 2 2]) := by
  refine cleared_queries_are_fresh 300 _ ⟨trivial, trivial, trivial, ?_, ?_, trivial⟩
  · rintro l ⟨rfl⟩
    refine .inr ?_
    rintro cached ⟨rfl⟩
    exact .inl rfl
  · rintro l ⟨rfl⟩
    rfl

/-- The value of a load from before the `clear` is returned after it. -/
theorem stale_after_clear : ¬ ∀ events : List (Event String ℕ),
    Invalidates (run (step 300) ({} : State String ℕ) events) := by
  intro h
  set s := run (step 300) ({} : State String ℕ) [.get "rules" ⟨10, none⟩ 0 false, .clear,
    .loaded 0 (some 5) 1 1, .get "rules" ⟨10, none⟩ 2 false] with hs
  have hrun : (1, .value ⟨5, 0⟩) ∈ s.answers ∧ s.clearsBefore 0 = some 0 := by decide +kernel
  obtain ⟨c, hc, hle⟩ := (h _).answers _ (hs ▸ hrun.1) 0 rfl
  rw [← Option.some.inj (hrun.2.symm.trans hc)] at hle
  exact absurd hle (by decide)

end ForwardX.Panel.QueryCache
