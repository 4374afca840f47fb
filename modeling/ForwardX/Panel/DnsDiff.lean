/-
The DNS records of a quick configuration, `server/xrayQuickConfigDnsDiff.ts`.

Desired records are matched with existing ones in two passes, equal tuples first, and the plan is
read off the matching: an equal record that is owned and alone of its kind is reused, every other
matched one is replaced, and what is left is deleted. That no pairing has more equal tuples is shown
by counting tuple by tuple; that the plan leaves the desired records, by following each match.
-/
import ForwardX.Panel.JsValues
import Mathlib.Algebra.Order.Ring.Rat
import Mathlib.Data.Multiset.UnionInter

namespace ForwardX.Panel.DnsDiff

open List

structure DnsTuple where
  recordType : JsString
  providerLineId : JsString
  value : JsString
  ttl : ℚ
  deriving DecidableEq

def sameTuple (a b : DnsTuple) : Bool :=
  a.recordType = b.recordType && a.providerLineId = b.providerLineId && a.value = b.value && a.ttl = b.ttl

structure DomainRecordProjection extends DnsTuple where
  recordRef : JsString
  lineName : JsString
  deriving DecidableEq

section

variable {A D E : Type}

/-- `remaining.delete(previous)`. -/
def without (remaining : List (E × ℕ)) : Option (E × ℕ) → List (E × ℕ)
  | none => remaining
  | some taken => remaining.filter fun candidate => candidate.2 ≠ taken.2

/-- A pass: each takes what it chooses from the remaining records. -/
def assign (choose : A → List (E × ℕ) → Option (E × ℕ)) :
    List A → List (E × ℕ) → List (A × Option (E × ℕ)) × List (E × ℕ)
  | [], remaining => ([], remaining)
  | a :: rest, remaining =>
    let previous := choose a remaining
    let done := assign choose rest (without remaining previous)
    ((a, previous) :: done.1, done.2)

variable (ofD : D → DnsTuple) (ofE : E → DnsTuple)

def exactChoice (record : D) (remaining : List (E × ℕ)) : Option (E × ℕ) :=
  remaining.find? fun candidate => sameTuple (ofE candidate.1) (ofD record)

/-- For a record without an exact match: one of its type and line, or else of its type. -/
def typeChoice (found : D × Option (E × ℕ)) (remaining : List (E × ℕ)) : Option (E × ℕ) :=
  if found.2.isSome then none
  else
    (remaining.find? fun candidate =>
        (ofE candidate.1).recordType = (ofD found.1).recordType &&
          (ofE candidate.1).providerLineId = (ofD found.1).providerLineId).or
      (remaining.find? fun candidate => (ofE candidate.1).recordType = (ofD found.1).recordType)

structure Match (D E : Type) where
  record : D
  previous : Option (E × ℕ)
  exact : Bool

structure Matching (D E : Type) where
  found : List (Match D E)
  removed : List (E × ℕ)

def matchQuickConfigDnsRecords (desired : List D) (existing : List E) : Matching D E :=
  let first := assign (exactChoice ofD ofE) desired existing.zipIdx
  let second := assign (typeChoice ofD ofE) first.1 first.2
  { found := second.1.map fun m => { record := m.1.1, previous := m.1.2.or m.2, exact := m.1.2.isSome }
    removed := second.2 }

end

inductive Action where
  | CREATE | REPLACE | REUSE | DELETE
  deriving DecidableEq

structure DnsPlan (D : Type) where
  dnsRecords : List (D × Action)
  conflictingRecords : List ((DomainRecordProjection × ℕ) × Action)

section

variable {D : Type} (ofD : D → DnsTuple) (existing : List DomainRecordProjection)
  (ownedRecordRefs : List JsString)

def reuses (m : Match D DomainRecordProjection) : Bool :=
  match m.previous with
  | none => false
  | some previous => m.exact && previous.1.recordRef ∈ ownedRecordRefs &&
    (existing.filter fun candidate => sameTuple candidate.toDnsTuple (ofD m.record)).length = 1

def action (m : Match D DomainRecordProjection) : Action :=
  if reuses ofD existing ownedRecordRefs m then .REUSE else if m.previous.isSome then .REPLACE else .CREATE

def planQuickConfigDnsDiff (desired : List D) : DnsPlan D :=
  let found := (matchQuickConfigDnsRecords ofD DomainRecordProjection.toDnsTuple desired existing).found
  let reused := (found.filter (reuses ofD existing ownedRecordRefs)).filterMap Match.previous
  let replaced := (found.filter fun m => !reuses ofD existing ownedRecordRefs m).filterMap Match.previous
  { dnsRecords := found.map fun m => (m.record, action ofD existing ownedRecordRefs m)
    conflictingRecords := (existing.zipIdx.filter fun c => c ∉ reused).map fun c =>
      (c, if c ∈ replaced then .REPLACE else .DELETE) }

/-- The records that the plan leaves alone. -/
def kept (plan : DnsPlan D) : List (DomainRecordProjection × ℕ) :=
  existing.zipIdx.filter fun c => c ∉ plan.conflictingRecords.map Prod.fst

/-- The records after the plan: those kept, and those replaced or created. -/
def executed (plan : DnsPlan D) : List DnsTuple :=
  (kept existing plan).map (fun c => c.1.toDnsTuple) ++
    (plan.dnsRecords.filter fun entry => entry.2 ≠ .REUSE).map fun entry => ofD entry.1

end

/-! ## A pass -/

section

variable {A D E : Type} {choose : A → List (E × ℕ) → Option (E × ℕ)}

theorem sameTuple_iff {a b : DnsTuple} : sameTuple a b = true ↔ a = b := by
  cases a
  cases b
  simp [sameTuple, and_assoc]

variable {remaining : List (E × ℕ)}

theorem perm_without (hnodup : (remaining.map Prod.snd).Nodup) {taken : E × ℕ}
    (hmem : taken ∈ remaining) : remaining.Perm (taken :: without remaining (some taken)) := by
  obtain ⟨before, after, rfl⟩ := append_of_mem hmem
  have hperm : (before ++ taken :: after).Perm (taken :: (before ++ after)) := perm_middle
  have hothers : ∀ c ∈ before ++ after, c.2 ≠ taken.2 := fun c hc heq =>
    (nodup_cons.mp ((hperm.map Prod.snd).nodup_iff.mp hnodup)).1 (heq ▸ mem_map_of_mem hc)
  have hfilter := hperm.filter fun c => c.2 ≠ taken.2
  rw [filter_cons_of_neg (by simp),
    filter_eq_self.mpr fun c hc => decide_eq_true (hothers c hc)] at hfilter
  exact hperm.trans (hfilter.symm.cons taken)

/-- **A pass** takes each record once at most. -/
theorem assign_spec (hchoose : ∀ a remaining c, choose a remaining = some c → c ∈ remaining) (items : List A) :
    ∀ remaining : List (E × ℕ), (remaining.map Prod.snd).Nodup →
      ((assign choose items remaining).1.filterMap Prod.snd ++
          (assign choose items remaining).2).Perm remaining ∧
        (assign choose items remaining).1.map Prod.fst = items ∧
        ∀ m ∈ (assign choose items remaining).1, ∃ rest, choose m.1 rest = m.2 := by
  induction items with
  | nil => exact fun remaining _ => ⟨.refl _, rfl, nofun⟩
  | cons a items ih =>
    intro remaining hnodup
    rw [assign]
    cases hprevious : choose a remaining with
    | none =>
      obtain ⟨hperm, hitems, hchosen⟩ := ih remaining hnodup
      exact ⟨hperm, congrArg (a :: ·) hitems, forall_mem_cons.mpr ⟨⟨_, hprevious⟩, hchosen⟩⟩
    | some taken =>
      have htaken := perm_without hnodup (hchoose a remaining taken hprevious)
      have hrest := ((htaken.map Prod.snd).nodup_iff.mp hnodup).of_cons
      obtain ⟨hperm, hitems, hchosen⟩ := ih _ hrest
      exact ⟨(hperm.cons taken).trans htaken.symm, congrArg (a :: ·) hitems,
        forall_mem_cons.mpr ⟨⟨_, hprevious⟩, hchosen⟩⟩

variable {ofD : D → DnsTuple} {ofE : E → DnsTuple}

theorem mem_of_exactChoice {record : D} {c : E × ℕ}
    (h : exactChoice ofD ofE record remaining = some c) : c ∈ remaining := mem_of_find?_eq_some h

theorem mem_of_typeChoice {found : D × Option (E × ℕ)} {c : E × ℕ}
    (h : typeChoice ofD ofE found remaining = some c) : c ∈ remaining := by
  rw [typeChoice] at h
  split at h
  · cases h
  · obtain h | ⟨-, h⟩ := Option.or_eq_some_iff.mp h
    · exact mem_of_find?_eq_some h
    · exact mem_of_find?_eq_some h

/-- **The exact matches** are as many as there are common tuples. -/
theorem countP_exact (desired : List D) : ∀ remaining : List (E × ℕ), (remaining.map Prod.snd).Nodup →
    (assign (exactChoice ofD ofE) desired remaining).1.countP (fun m => m.2.isSome) =
      Multiset.card ((desired.map ofD : Multiset DnsTuple) ∩ (remaining.map fun c => ofE c.1)) := by
  induction desired with
  | nil => intro remaining _; simp [assign]
  | cons record desired ih =>
    intro remaining hnodup
    rw [assign, countP_cons, map_cons, ← Multiset.cons_coe]
    cases hprevious : exactChoice ofD ofE record remaining with
    | none =>
      have hmissing : ofD record ∉ (remaining.map fun c => ofE c.1 : Multiset DnsTuple) := by
        rw [Multiset.mem_coe, mem_map]
        rintro ⟨c, hc, heq⟩
        exact find?_eq_none.mp hprevious c hc (sameTuple_iff.mpr heq)
      rw [Multiset.cons_inter_of_neg _ hmissing]
      exact ih remaining hnodup
    | some taken =>
      have htuple : ofE taken.1 = ofD record := sameTuple_iff.mp
        (find?_some (p := fun candidate : E × ℕ => sameTuple (ofE candidate.1) (ofD record)) hprevious)
      have htaken := perm_without hnodup (mem_of_exactChoice hprevious)
      have hrest := ((htaken.map Prod.snd).nodup_iff.mp hnodup).of_cons
      have htuples : (remaining.map fun c => ofE c.1 : Multiset DnsTuple) =
          ofD record ::ₘ ((without remaining (some taken)).map fun c => ofE c.1) := by
        rw [Multiset.coe_eq_coe.mpr (htaken.map _), map_cons, htuple, Multiset.cons_coe]
      rw [htuples, Multiset.cons_inter_of_pos _ (Multiset.mem_cons_self _ _), Multiset.erase_cons_head,
        Multiset.card_cons]
      exact congrArg (· + 1) (ih _ hrest)

theorem subperm_places {α : Type} (f : α → DnsTuple) {l : List α} {places : List ℕ} (hplaces : places.Nodup)
    (hthere : ∀ i ∈ places, ∃ a, l[i]? = some a) :
    (places.filterMap fun i => l[i]?.map f).Subperm (l.map f) := by
  have hsubset : places.Subperm (l.zipIdx.map Prod.snd) := by
    refine subperm_of_subset hplaces fun i hi => ?_
    obtain ⟨a, ha⟩ := hthere i hi
    exact mem_map.mpr ⟨(a, i), mem_zipIdx_iff_getElem?.mpr ha, rfl⟩
  have hall : (l.zipIdx.map Prod.snd).filterMap (fun i => l[i]?.map f) = l.map f := by
    rw [filterMap_map, filterMap_congr (g := fun c => some (f c.1)), filterMap_eq_map']
    · conv_rhs => rw [← zipIdx_map_fst 0 l, map_map]
      rfl
    · rintro ⟨a, i⟩ hmem
      rw [Function.comp_apply, mem_zipIdx_iff_getElem?.mp hmem]
      rfl
  obtain ⟨chosen, hperm, hsub⟩ := hsubset
  exact hall ▸ ⟨_, hperm.filterMap _, hsub.filterMap _⟩

theorem length_pairs_le {desired : List D} {existing : List E} {pairs : List (ℕ × ℕ)}
    (hfirst : (pairs.map Prod.fst).Nodup) (hsecond : (pairs.map Prod.snd).Nodup)
    (hsame : ∀ p ∈ pairs, ∃ record candidate, desired[p.1]? = some record ∧ existing[p.2]? = some candidate ∧
      sameTuple (ofE candidate) (ofD record) = true) :
    pairs.length ≤ Multiset.card ((desired.map ofD : Multiset DnsTuple) ∩ (existing.map ofE)) := by
  have hleft := subperm_places ofD (l := desired) hfirst (forall_mem_map.mpr fun p hp => by
    obtain ⟨record, _, hrecord, -, -⟩ := hsame p hp
    exact ⟨record, hrecord⟩)
  have hright := subperm_places ofE (l := existing) hsecond (forall_mem_map.mpr fun p hp => by
    obtain ⟨_, candidate, -, hcandidate, -⟩ := hsame p hp
    exact ⟨candidate, hcandidate⟩)
  rw [filterMap_map] at hleft hright
  have htuples : pairs.filterMap ((fun i => existing[i]?.map ofE) ∘ Prod.snd) =
      pairs.filterMap ((fun i => desired[i]?.map ofD) ∘ Prod.fst) := by
    refine filterMap_congr fun p hp => ?_
    obtain ⟨record, candidate, hrecord, hcandidate, htuple⟩ := hsame p hp
    simp [hrecord, hcandidate, sameTuple_iff.mp htuple]
  have hlength : (pairs.filterMap ((fun i => desired[i]?.map ofD) ∘ Prod.fst)).length = pairs.length := by
    refine filterMap_length_eq_length.mpr fun p hp => ?_
    obtain ⟨record, _, hrecord, -, -⟩ := hsame p hp
    simp [hrecord]
  rw [← hlength, ← Multiset.coe_card]
  exact Multiset.card_le_card
    (Multiset.le_inter (Multiset.coe_le.mpr hleft) (Multiset.coe_le.mpr (htuples ▸ hright)))

theorem perm_filterMap_or {A B : Type} (f g : A → Option B) (l : List A)
    (h : ∀ a ∈ l, (f a).isSome = true → g a = none) :
    (l.filterMap fun a => (f a).or (g a)).Perm (l.filterMap f ++ l.filterMap g) := by
  induction l with
  | nil => exact .refl _
  | cons a l ih =>
    obtain ⟨ha, hl⟩ := forall_mem_cons.mp h
    have hrest := ih hl
    cases hf : f a with
    | some b =>
      rw [hf] at ha
      simpa [filterMap_cons, hf, ha rfl] using hrest
    | none =>
      cases hg : g a with
      | none => simpa [filterMap_cons, hf, hg] using hrest
      | some b =>
        simp only [filterMap_cons, hf, hg, Option.none_or]
        exact (hrest.cons b).trans perm_middle.symm

/-- **The matching**: each existing record is taken once or left over. -/
theorem matchQuickConfigDnsRecords_spec (desired : List D) (existing : List E) :
    let matching := matchQuickConfigDnsRecords ofD ofE desired existing
    (matching.found.filterMap Match.previous ++ matching.removed).Perm existing.zipIdx ∧
      matching.found.map Match.record = desired ∧
      (∀ m ∈ matching.found, m.exact = true → ∃ c, m.previous = some c ∧ ofE c.1 = ofD m.record) ∧
      matching.found.countP Match.exact =
        Multiset.card ((desired.map ofD : Multiset DnsTuple) ∩ (existing.map ofE)) := by
  have hnodup : (existing.zipIdx.map Prod.snd).Nodup := by
    rw [zipIdx_map_snd]
    exact nodup_range'
  intro matching
  obtain ⟨hperm₁, hitems₁, hchosen₁⟩ := @assign_spec D E (exactChoice ofD ofE)
    (fun _ _ _ => mem_of_exactChoice) desired existing.zipIdx hnodup
  have hcount := @countP_exact D E ofD ofE desired existing.zipIdx hnodup
  set first := assign (exactChoice ofD ofE) desired existing.zipIdx
  have hnodup₂ : (first.2.map Prod.snd).Nodup := by
    have := (hperm₁.map Prod.snd).nodup_iff.mpr hnodup
    rw [map_append] at this
    exact this.of_append_right
  obtain ⟨hperm₂, hitems₂, hchosen₂⟩ := @assign_spec _ E (typeChoice ofD ofE)
    (fun _ _ _ => mem_of_typeChoice) first.1 first.2 hnodup₂
  have hmatching : matching.found = (assign (typeChoice ofD ofE) first.1 first.2).1.map fun m =>
    { record := m.1.1, previous := m.1.2.or m.2, exact := m.1.2.isSome } := rfl
  set second := assign (typeChoice ofD ofE) first.1 first.2 with hsecond
  refine ⟨?_, ?_, ?_, ?_⟩
  · have heach : ∀ m ∈ second.1, m.1.2.isSome = true → m.2 = none := by
      intro m hm hsome
      obtain ⟨rest, hrest⟩ := hchosen₂ m hm
      rw [← hrest, typeChoice, if_pos hsome]
    have hprevious : matching.found.filterMap Match.previous =
        second.1.filterMap fun m => m.1.2.or m.2 := by
      rw [hmatching, filterMap_map]
      rfl
    have hfirst : second.1.filterMap (fun m => m.1.2) = first.1.filterMap Prod.snd := by
      rw [← hitems₂, filterMap_map]
      rfl
    rw [hprevious]
    refine ((perm_filterMap_or _ _ _ heach).append_right _).trans ?_
    rw [append_assoc, hfirst]
    exact (hperm₂.append_left _).trans hperm₁
  · rw [hmatching, map_map, ← hitems₁, ← hitems₂, map_map]
    rfl
  · intro m hm hexact
    rw [hmatching] at hm
    obtain ⟨m, hthere, rfl⟩ := mem_map.mp hm
    obtain ⟨taken, htaken⟩ := Option.isSome_iff_exists.mp hexact
    have hmem : m.1 ∈ first.1 := hitems₂ ▸ mem_map_of_mem hthere
    obtain ⟨rest, hrest⟩ := hchosen₁ m.1 hmem
    rw [htaken] at hrest
    refine ⟨taken, by rw [htaken, Option.some_or], sameTuple_iff.mp ?_⟩
    exact (find?_some (p := fun candidate : E × ℕ => sameTuple (ofE candidate.1) (ofD m.1.1)) hrest)
  · rw [hmatching, countP_map]
    have hsame : second.1.countP (Match.exact ∘ fun m => ⟨m.1.1, m.1.2.or m.2, m.1.2.isSome⟩) =
        first.1.countP fun m => m.2.isSome := by
      conv_rhs => rw [← hitems₂, countP_map]
      rfl
    rw [hsame, hcount]
    congr 2
    rw [← zipIdx_map_fst 0 existing, map_map]
    rw [zipIdx_map_fst]
    rfl

end

/-! ## The plan -/

section

variable {D : Type} {ofD : D → DnsTuple} {existing : List DomainRecordProjection}
  {ownedRecordRefs : List JsString}

variable {m : Match D DomainRecordProjection}

theorem action_eq_reuse_iff :
    action ofD existing ownedRecordRefs m = .REUSE ↔ reuses ofD existing ownedRecordRefs m = true := by
  rw [action]
  split_ifs <;> simp_all

theorem action_eq_replace_iff :
    action ofD existing ownedRecordRefs m = .REPLACE ↔
      reuses ofD existing ownedRecordRefs m = false ∧ m.previous.isSome = true := by
  rw [action]
  split_ifs <;> simp_all

theorem of_reuses (h : reuses ofD existing ownedRecordRefs m = true) :
    ∃ c, m.previous = some c ∧ m.exact = true ∧ c.1.recordRef ∈ ownedRecordRefs ∧
      (existing.filter fun candidate => sameTuple candidate.toDnsTuple (ofD m.record)).length = 1 := by
  rw [reuses] at h
  cases hprevious : m.previous with
  | none => simp [hprevious] at h
  | some c =>
    rw [hprevious] at h
    simp only [Bool.and_eq_true, decide_eq_true_eq] at h
    exact ⟨c, rfl, h.1.1, h.1.2, h.2⟩

theorem eq_of_length_filter {p : DomainRecordProjection → Bool} (h : (existing.filter p).length = 1)
    {c c' : DomainRecordProjection × ℕ} (hc : c ∈ existing.zipIdx) (hc' : c' ∈ existing.zipIdx)
    (hp : p c.1 = true) (hp' : p c'.1 = true) : c' = c := by
  have hone : (existing.zipIdx.filter fun c => p c.1).length = 1 := by
    rw [← h]
    conv_rhs => rw [← zipIdx_map_fst 0 existing, filter_map, length_map]
    rfl
  obtain ⟨only, honly⟩ := length_eq_one_iff.mp hone
  have hmem : c ∈ existing.zipIdx.filter fun c => p c.1 := mem_filter.mpr ⟨hc, hp⟩
  have hmem' : c' ∈ existing.zipIdx.filter fun c => p c.1 := mem_filter.mpr ⟨hc', hp'⟩
  rw [honly, mem_singleton] at hmem hmem'
  rw [hmem, hmem']

variable (ofD existing ownedRecordRefs) in
/-- What is replaced, by the records that replace it. -/
theorem map_fst_replacements (found : List (Match D DomainRecordProjection)) :
    ((found.filter fun m => !reuses ofD existing ownedRecordRefs m).filterMap fun m =>
        m.previous.map (m.record, ·)).map Prod.fst =
      ((found.map fun m => (m.record, action ofD existing ownedRecordRefs m)).filter
        fun entry => entry.2 = .REPLACE).map Prod.fst := by
  rw [List.filter_map, List.map_map, List.map_filterMap]
  induction found with
  | nil => rfl
  | cons m found ih =>
    have haction := @action_eq_replace_iff D ofD existing ownedRecordRefs m
    cases hreuses : reuses ofD existing ownedRecordRefs m <;> cases hprevious : m.previous <;>
      simp_all

/-- **The plan is right**: each existing record is matched once at most, and no pairing has more exact
matches. Carrying the plan out leaves the desired records and no others, what is replaced are the records
matched to the ones that replace them, and what is reused is owned and the only one of its kind. -/
theorem dns_plan_correct (ofD : D → DnsTuple) (existing : List DomainRecordProjection)
    (ownedRecordRefs : List JsString) (desired : List D) :
    let matching := matchQuickConfigDnsRecords ofD DomainRecordProjection.toDnsTuple desired existing
    let plan := planQuickConfigDnsDiff ofD existing ownedRecordRefs desired
    (matching.found.map Match.record = desired ∧
        (matching.found.filterMap Match.previous ++ matching.removed).Perm existing.zipIdx ∧
        ∀ m ∈ matching.found, m.exact = true → ∃ c, m.previous = some c ∧ c.1.toDnsTuple = ofD m.record) ∧
      (∀ pairs : List (ℕ × ℕ), (pairs.map Prod.fst).Nodup → (pairs.map Prod.snd).Nodup →
        (∀ p ∈ pairs, ∃ record candidate, desired[p.1]? = some record ∧ existing[p.2]? = some candidate ∧
          sameTuple candidate.toDnsTuple (ofD record) = true) →
        pairs.length ≤ matching.found.countP Match.exact) ∧
      (executed ofD existing plan).Perm (desired.map ofD) ∧
      (∃ replacements : List (D × (DomainRecordProjection × ℕ)),
        (∀ p ∈ replacements, ∃ m ∈ matching.found, m.record = p.1 ∧ m.previous = some p.2) ∧
        replacements.map Prod.fst = (plan.dnsRecords.filter fun entry => entry.2 = .REPLACE).map Prod.fst ∧
        (replacements.map Prod.snd).Perm
          ((plan.conflictingRecords.filter fun entry => entry.2 = .REPLACE).map Prod.fst)) ∧
      ∀ c ∈ kept existing plan, c.1.recordRef ∈ ownedRecordRefs ∧
        ∀ c' ∈ existing.zipIdx, sameTuple c'.1.toDnsTuple c.1.toDnsTuple = true → c' = c := by
  intro matching plan
  obtain ⟨hperm, hrecords, hexact, hcount⟩ :=
    @matchQuickConfigDnsRecords_spec D _ ofD DomainRecordProjection.toDnsTuple desired existing
  have hplaces : existing.zipIdx.Nodup := by
    refine List.Nodup.of_map Prod.snd ?_
    rw [List.zipIdx_map_snd]
    exact List.nodup_range'
  set reused := (matching.found.filter (reuses ofD existing ownedRecordRefs)).filterMap
    Match.previous with hreused
  set replaced := (matching.found.filter fun m => !reuses ofD existing ownedRecordRefs m).filterMap
    Match.previous with hreplaced
  have hsplit : (reused ++ replaced ++ matching.removed).Perm existing.zipIdx := by
    refine List.Perm.trans (.append_right _ ?_) hperm
    rw [hreused, hreplaced, ← List.filterMap_append]
    exact (List.filter_append_perm _ matching.found).filterMap _
  have hnodup := (hsplit.nodup_iff.mpr hplaces).of_append_left
  have hmem : ∀ c ∈ reused ++ replaced, c ∈ existing.zipIdx := fun c hc =>
    hsplit.mem_iff.mp (List.mem_append_left _ hc)
  have hconflicting : plan.conflictingRecords = (existing.zipIdx.filter fun c => c ∉ reused).map fun c =>
      (c, if c ∈ replaced then .REPLACE else .DELETE) := rfl
  have hrest : plan.conflictingRecords.map Prod.fst = existing.zipIdx.filter fun c => c ∉ reused := by
    rw [hconflicting, List.map_map]
    exact List.map_id _
  have hkept : (kept existing plan).Perm reused := by
    refine (List.perm_ext_iff_of_nodup (hplaces.filter _) hnodup.of_append_left).mpr fun c => ?_
    have hin : c ∈ reused → c ∈ existing.zipIdx := fun hc => hmem c (List.mem_append_left _ hc)
    simp only [hrest, List.mem_filter, decide_eq_true_eq]
    tauto
  have hreuse : ∀ m ∈ matching.found.filter (reuses ofD existing ownedRecordRefs),
      ∃ c, m.previous = some c ∧ c.1.toDnsTuple = ofD m.record ∧ c.1.recordRef ∈ ownedRecordRefs ∧
        (existing.filter fun candidate => sameTuple candidate.toDnsTuple (ofD m.record)).length = 1 := by
    intro m hm
    obtain ⟨hfound, hreuses⟩ := List.mem_filter.mp hm
    obtain ⟨c, hprevious, hexactly, howned, halone⟩ := of_reuses hreuses
    obtain ⟨c', hprevious', htuple⟩ := hexact m hfound hexactly
    obtain rfl := Option.some.inj (hprevious.symm.trans hprevious')
    exact ⟨c, hprevious, htuple, howned, halone⟩
  refine ⟨⟨hrecords, hperm, hexact⟩, fun pairs hfirst hsecond hsame => ?_, ?_, ?_, fun c hc => ?_⟩
  · exact hcount ▸ length_pairs_le hfirst hsecond hsame
  · have htuples : reused.map (fun c => c.1.toDnsTuple) =
        (matching.found.filter (reuses ofD existing ownedRecordRefs)).map fun m => ofD m.record := by
      rw [hreused, List.map_filterMap, List.filterMap_congr (g := fun m => some (ofD m.record)),
        List.filterMap_eq_map']
      intro m hm
      obtain ⟨c, hprevious, htuple, -⟩ := hreuse m hm
      rw [hprevious, Option.map_some, htuple]
    have hothers : (plan.dnsRecords.filter fun entry => entry.2 ≠ .REUSE).map (fun entry => ofD entry.1) =
        (matching.found.filter fun m => !reuses ofD existing ownedRecordRefs m).map fun m => ofD m.record := by
      change ((matching.found.map fun m =>
        (m.record, action ofD existing ownedRecordRefs m)).filter _).map _ = _
      rw [List.filter_map, List.map_map]
      refine congrArg (List.map _) (List.filter_congr fun m _ => ?_)
      simp [action_eq_reuse_iff]
    have hdesired : desired.map ofD = matching.found.map fun m => ofD m.record := by
      rw [← hrecords, List.map_map]
      rfl
    rw [executed, hothers, hdesired]
    refine ((hkept.map _).append_right _).trans ?_
    rw [htuples, ← List.map_append]
    exact (List.filter_append_perm _ matching.found).map _
  · refine ⟨(matching.found.filter fun m => !reuses ofD existing ownedRecordRefs m).filterMap fun m =>
      m.previous.map (m.record, ·), fun p hp => ?_, ?_, ?_⟩
    · obtain ⟨m, hm, hpair⟩ := List.mem_filterMap.mp hp
      obtain ⟨c, hprevious, rfl⟩ := Option.map_eq_some_iff.mp hpair
      exact ⟨m, (List.mem_filter.mp hm).1, rfl, hprevious⟩
    · exact map_fst_replacements ofD existing ownedRecordRefs matching.found
    · rw [List.map_filterMap]
      have hpick : (fun m : Match D DomainRecordProjection => (m.previous.map (m.record, ·)).map Prod.snd) =
          Match.previous := by
        funext m
        rw [Option.map_map]
        exact Option.map_id'
      rw [hpick, hconflicting, List.filter_map, List.map_map]
      refine (List.perm_ext_iff_of_nodup hnodup.of_append_right ?_).mpr fun c => ?_
      · exact (List.map_id _).symm ▸ (hplaces.filter _).filter _
      · have hin : c ∈ replaced → c ∈ existing.zipIdx := fun hc => hmem c (List.mem_append_right _ hc)
        have hapart : c ∈ replaced → c ∉ reused := fun hc hc' =>
          (List.nodup_append.mp hnodup).2.2 c hc' c hc rfl
        simp only [List.mem_map, List.mem_filter, Function.comp_apply, decide_eq_true_eq]
        constructor
        · exact fun hc => ⟨c, ⟨⟨hin hc, hapart hc⟩, if_pos hc⟩, rfl⟩
        · rintro ⟨c', ⟨-, haction⟩, rfl⟩
          by_contra hnot
          rw [if_neg hnot] at haction
          cases haction
  · have hc' := hkept.mem_iff.mp hc
    obtain ⟨m, hm, hprevious⟩ := List.mem_filterMap.mp hc'
    obtain ⟨c', hprevious', htuple, howned, halone⟩ := hreuse m hm
    obtain rfl := Option.some.inj (hprevious.symm.trans hprevious')
    refine ⟨howned, fun c' hthere hsame => ?_⟩
    rw [htuple] at hsame
    exact eq_of_length_filter halone (hmem c (List.mem_append_left _ hc')) hthere
      (sameTuple_iff.mpr htuple) hsame

end

end ForwardX.Panel.DnsDiff
