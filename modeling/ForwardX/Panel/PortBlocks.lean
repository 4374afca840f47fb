/-
The search for a block of ports: `findAvailableSubscriptionPortBlock` in
`server/repositories/billingRepository.ts`.
-/
import ForwardX.Panel.Subscriptions

namespace ForwardX.Panel

/-- The starts of the blocks of `count` unused ports within a range. -/
def freeBlocks (used : ℤ → Bool) (count first last : ℤ) : Set ℤ :=
  {start | first ≤ start ∧ start + count - 1 ≤ last ∧ ∀ p, start ≤ p → p < start + count → used p = false}

section

variable {used : ℤ → Bool} {count fuel : ℕ} {first last : ℤ}

theorem not_mem_freeBlocks {start p : ℤ} (hlow : start ≤ p) (hhigh : p < start + count)
    (hused : used p = true) : start ∉ freeBlocks used count first last := by
  intro hfree
  rw [hfree.2.2 p hlow hhigh] at hused
  exact absurd hused nofun

theorem freeBlocks_jump {q : ℤ} (hlow : first ≤ q) (hhigh : q < first + count) (hused : used q = true) :
    freeBlocks used count first last = freeBlocks used count (q + 1) last := by
  ext start
  refine ⟨fun h => ⟨?_, h.2⟩, fun h => ⟨?_, h.2⟩⟩
  · have hfrom := h.1
    by_contra hbehind
    exact not_mem_freeBlocks (by omega) (by omega) hused h
  · have hfrom := h.1
    omega

/-- **First fit**: with a step for each port, the search returns the least free block,
and nothing only if there is none. -/
theorem findBlock_spec (used : ℤ → Bool) (hfuel : last - count + 2 - first ≤ fuel) :
    match findBlock used count (last - count + 1) fuel first with
    | some start => IsLeast (freeBlocks used count first last) start
    | none => freeBlocks used count first last = ∅ := by
  induction fuel generalizing first with
  | zero =>
    ext start
    refine iff_of_false (fun h => ?_) (Set.notMem_empty start)
    have hfrom := h.1
    have hto := h.2.1
    omega
  | succ fuel ih =>
    rw [findBlock]
    split_ifs with hpast
    · ext start
      refine iff_of_false (fun h => ?_) (Set.notMem_empty start)
      have hfrom := h.1
      have hto := h.2.1
      omega
    · cases hscan : firstUsed used count first with
      | none => exact ⟨⟨le_rfl, by omega, firstUsed_eq_none hscan⟩, fun start h => h.1⟩
      | some q =>
        obtain ⟨hlow, hhigh, hused⟩ := firstUsed_eq_some hscan
        rw [freeBlocks_jump hlow hhigh hused]
        exact ih (by omega)

theorem findBlock_eq_some_iff (hfuel : last - count + 2 - first ≤ fuel) {start : ℤ} :
    findBlock used count (last - count + 1) fuel first = some start ↔
      IsLeast (freeBlocks used count first last) start := by
  have hspec := findBlock_spec used hfuel
  cases hfound : findBlock used count (last - count + 1) fuel first with
  | none =>
    rw [hfound] at hspec
    refine iff_of_false nofun fun h => ?_
    exact Set.notMem_empty start (hspec ▸ h.1)
  | some found =>
    rw [hfound] at hspec
    rw [Option.some.injEq]
    exact ⟨fun h => h ▸ hspec, fun h => hspec.unique h⟩

theorem findBlock_eq_none_iff (hfuel : last - count + 2 - first ≤ fuel) :
    findBlock used count (last - count + 1) fuel first = none ↔ freeBlocks used count first last = ∅ := by
  have hspec := findBlock_spec used hfuel
  cases hfound : findBlock used count (last - count + 1) fuel first with
  | none =>
    rw [hfound] at hspec
    exact iff_of_true rfl hspec
  | some found =>
    rw [hfound] at hspec
    refine iff_of_false nofun fun h => ?_
    exact Set.notMem_empty found (h ▸ hspec.1)

theorem freeBlocks_of_short {count : ℤ} (hcount : 0 < count)
    (h : last < first ∨ last - first + 1 < count) : freeBlocks used count first last = ∅ := by
  ext start
  refine iff_of_false (fun hfree => ?_) (Set.notMem_empty start)
  have hfrom := hfree.1
  have hto := hfree.2.1
  omega

end

/-- **The search for a block of ports is first fit**: the loop, on any range, block size and set of used
ports, and the function, on what the hosts, tunnels and groups offer. -/
theorem port_block_first_fit :
    (∀ (used : ℤ → Bool) (count fuel : ℕ) (first last : ℤ), last - count + 2 - first ≤ fuel →
      (∀ start, findBlock used count (last - count + 1) fuel first = some start ↔
        IsLeast (freeBlocks used count first last) start) ∧
      (findBlock used count (last - count + 1) fuel first = none ↔
        freeBlocks used count first last = ∅)) ∧
    ∀ (env : Env) (now portCount : ℤ) (hostIds tunnelIds forwardGroupIds : List ℤ) (db : Database) ranges,
      offeredRanges env hostIds tunnelIds forwardGroupIds db = .ok ranges →
      ∃ found, findAvailableSubscriptionPortBlock env now portCount hostIds tunnelIds forwardGroupIds db
          = .ok found ∧
        (∀ block, found = some block ↔ 0 < commonStart ranges ∧
          IsLeast (freeBlocks (portUsed now db) (max 1 portCount) (commonStart ranges) (commonEnd ranges))
            block.1 ∧ block.2 = block.1 + max 1 portCount - 1) ∧
        (found = none ↔ commonStart ranges ≤ 0 ∨
          freeBlocks (portUsed now db) (max 1 portCount) (commonStart ranges) (commonEnd ranges) = ∅) := by
  refine ⟨fun used count fuel first last hfuel =>
    ⟨fun start => findBlock_eq_some_iff hfuel, findBlock_eq_none_iff hfuel⟩, ?_⟩
  intro env now portCount hostIds tunnelIds forwardGroupIds db ranges hranges
  simp only [findAvailableSubscriptionPortBlock, hranges, bind, Except.bind]
  obtain ⟨count, hcount⟩ : ∃ count : ℕ, max 1 portCount = count :=
    ⟨(max 1 portCount).toNat, by omega⟩
  have hpos : 0 < (count : ℤ) := by omega
  generalize commonStart ranges = first
  generalize commonEnd ranges = last
  rw [hcount]
  split_ifs with hshort
  · refine ⟨none, rfl, fun block => iff_of_false nofun fun ⟨hfirst, hleast, _⟩ => ?_, iff_of_true rfl ?_⟩
    · have hempty : freeBlocks (portUsed now db) count first last = ∅ :=
        freeBlocks_of_short hpos (by omega)
      exact Set.notMem_empty block.1 (hempty ▸ hleast.1)
    · rw [or_iff_not_imp_left]
      exact fun hfirst => freeBlocks_of_short hpos (by omega)
  · have hfuel : last - count + 2 - first ≤ ((last - count + 2 - first).toNat : ℤ) := by omega
    refine ⟨_, rfl, fun block => ?_, ?_⟩
    · rw [Option.map_eq_some_iff, Int.toNat_natCast]
      simp only [findBlock_eq_some_iff hfuel]
      constructor
      · rintro ⟨start, hleast, rfl⟩
        exact ⟨by omega, hleast, rfl⟩
      · rintro ⟨-, hleast, hend⟩
        exact ⟨block.1, hleast, Prod.ext rfl hend.symm⟩
    · rw [Option.map_eq_none_iff, Int.toNat_natCast, findBlock_eq_none_iff hfuel,
        or_iff_right (by omega)]

theorem port_block_first_fit_behind_used :
    IsLeast (freeBlocks (fun p => p = 11) 2 10 20) 12 ∧
      ∃ found, findAvailableSubscriptionPortBlock quietEnv 0 5 [] [] [] {} = .ok found :=
  ⟨((port_block_first_fit.1 (fun p => p = 11) 2 10 10 20 (by decide)).1 12).mp (by decide),
    (port_block_first_fit.2 quietEnv 0 5 [] [] [] {} [] rfl).imp fun _ h => h.1⟩

end ForwardX.Panel
