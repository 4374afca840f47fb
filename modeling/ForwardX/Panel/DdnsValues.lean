/-
The records of one name and type at a provider of DNS, `server/ddns.ts`.

The provider has records and the panel wants values. The plan keeps one record of each wanted value,
turns the others into what is missing, creates the rest and removes what is left over. A provider
may fail after any of the calls, so the proofs are about its records after every prefix of them.
-/
import ForwardX.Panel.JsValues
import Mathlib.Data.List.Nodup
import Mathlib.Data.List.Perm.Subperm

namespace ForwardX.Panel.DdnsValues

open List

variable {ρ : Type}

/-! ## The plan -/

def uniqueDdnsValues (values : List JsString) : List JsString :=
  values.foldl (fun out value =>
    let text := trim value
    if text = [] ∨ text ∈ out then out else out ++ [text]) []

/-- A record as the provider lists it, with its id and what `valueOf` reads. -/
structure DdnsRecord (ρ : Type) where
  id : ρ
  value : JsString

def DdnsRecord.text (record : DdnsRecord ρ) : JsString := trim record.value

structure DdnsPlan (ρ : Type) where
  updates : List (DdnsRecord ρ × JsString)
  creates : List JsString
  removals : List (DdnsRecord ρ)

/-- The values `covered`, and the records `reusable`. -/
def coverage (desired : List JsString) (records : List (DdnsRecord ρ)) : List JsString × List (DdnsRecord ρ) :=
  records.foldl (fun s record =>
    if record.text ∈ desired ∧ record.text ∉ s.1 then (s.1 ++ [record.text], s.2) else (s.1, s.2 ++ [record]))
    ([], [])

/-- The loop that shifts `reusable` and `missing`. -/
def pairUp : List (DdnsRecord ρ) → List JsString → DdnsPlan ρ
  | record :: reusable, value :: missing =>
    { pairUp reusable missing with updates := (record, value) :: (pairUp reusable missing).updates }
  | reusable, missing => { updates := [], creates := missing, removals := reusable }

def planDdnsValueChanges (records : List (DdnsRecord ρ)) (desiredValues : List JsString) : DdnsPlan ρ :=
  let desired := uniqueDdnsValues desiredValues
  let found := coverage desired records
  pairUp found.2 (desired.filter fun value => value ∉ found.1)

/-! ## The provider -/

inductive Call (ρ : Type) where
  | update (id : ρ) (value : JsString)
  | create (value : JsString)
  | remove (id : ρ)

def Call.writes : Call ρ → Option JsString
  | .update _ value => some value
  | .create value => some value
  | .remove _ => none

def Call.target : Call ρ → Option ρ
  | .update id _ => some id
  | .create _ => none
  | .remove id => some id

/-- The calls of `updateCloudflareValues` and `updateAliyunValues`, in their order. -/
def DdnsPlan.calls (plan : DdnsPlan ρ) : List (Call ρ) :=
  plan.updates.map (fun change => .update change.1.id change.2) ++ plan.creates.map .create ++
    plan.removals.map fun record => .remove record.id

/-- What a call makes of the records; a new one has an id of its own. -/
inductive Performs [DecidableEq ρ] : List (DdnsRecord ρ) → Call ρ → List (DdnsRecord ρ) → Prop
  | update (records : List (DdnsRecord ρ)) (id : ρ) (value : JsString) :
    Performs records (.update id value) (records.map fun r => if r.id = id then ⟨id, value⟩ else r)
  | create (records : List (DdnsRecord ρ)) (value : JsString) {id : ρ} (hnew : id ∉ records.map DdnsRecord.id) :
    Performs records (.create value) (records ++ [⟨id, value⟩])
  | remove (records : List (DdnsRecord ρ)) (id : ρ) :
    Performs records (.remove id) (records.filter fun r => r.id ≠ id)

inductive Runs [DecidableEq ρ] : List (DdnsRecord ρ) → List (Call ρ) → List (DdnsRecord ρ) → Prop
  | nil (records : List (DdnsRecord ρ)) : Runs records [] records
  | cons {records next final : List (DdnsRecord ρ)} {call : Call ρ} {calls : List (Call ρ)}
    (hfirst : Performs records call next) (hrest : Runs next calls final) : Runs records (call :: calls) final

def Holds (records : List (DdnsRecord ρ)) (value : JsString) : Prop := value ∈ records.map DdnsRecord.text

/-- One record for each value, and no other. -/
def Settled (desired : List JsString) (records : List (DdnsRecord ρ)) : Prop :=
  (records.map DdnsRecord.text).Perm desired

/-! ## Values -/

theorem trim_trim (s : JsString) : trim (trim s) = trim s := by
  have hhead : (trim s).dropWhile isJsSpace = trim s := by
    rw [dropWhile_eq_self_iff]
    intro hpos
    obtain ⟨rest, hrest⟩ := rdropWhile_prefix isJsSpace (l := s.dropWhile isJsSpace)
    obtain ⟨u, us, hus⟩ := exists_cons_of_ne_nil (ne_nil_of_length_pos hpos)
    have hdrop : s.dropWhile isJsSpace = u :: (us ++ rest) := by
      rw [← hrest, show (s.dropWhile isJsSpace).rdropWhile isJsSpace = u :: us from hus, cons_append]
    have hfirst := head?_dropWhile_not isJsSpace s
    simpa [hus, hdrop] using hfirst
  conv_lhs => rw [trim, hhead]
  exact rdropWhile_idempotent isJsSpace _

theorem uniqueDdnsValues_concat (values : List JsString) (value : JsString) :
    uniqueDdnsValues (values ++ [value]) =
      if trim value = [] ∨ trim value ∈ uniqueDdnsValues values then uniqueDdnsValues values
      else uniqueDdnsValues values ++ [trim value] := by
  rw [uniqueDdnsValues, foldl_append]
  rfl

theorem uniqueDdnsValues_spec (values : List JsString) :
    (uniqueDdnsValues values).Nodup ∧ ∀ value ∈ uniqueDdnsValues values, trim value = value := by
  induction values using List.reverseRecOn with
  | nil => exact ⟨nodup_nil, nofun⟩
  | append_singleton values value ih =>
    rw [uniqueDdnsValues_concat]
    split_ifs with h
    · exact ih
    · refine ⟨nodup_append.mpr ⟨ih.1, nodup_singleton _, ?_⟩, fun value' hmem => ?_⟩
      · rintro a ha b hb rfl
        exact h (.inr (mem_singleton.mp hb ▸ ha))
      · obtain hmem | hmem := mem_append.mp hmem
        · exact ih.2 value' hmem
        · rw [mem_singleton.mp hmem, trim_trim]

theorem coverage_spec (desired : List JsString) (records : List (DdnsRecord ρ)) :
    ∃ kept, records.Perm (kept ++ (coverage desired records).2) ∧
      kept.map DdnsRecord.text = (coverage desired records).1 ∧ (coverage desired records).1.Nodup ∧
      (∀ value ∈ (coverage desired records).1, value ∈ desired) ∧
      ∀ r ∈ (coverage desired records).2, r.text ∈ desired → r.text ∈ (coverage desired records).1 := by
  induction records using List.reverseRecOn with
  | nil => exact ⟨[], .refl _, rfl, nodup_nil, nofun, nofun⟩
  | append_singleton records record ih =>
    obtain ⟨kept, hperm, htexts, hnodup, hdesired, hleft⟩ := ih
    have hconcat : coverage desired (records ++ [record]) =
        if record.text ∈ desired ∧ record.text ∉ (coverage desired records).1 then
          ((coverage desired records).1 ++ [record.text], (coverage desired records).2)
        else ((coverage desired records).1, (coverage desired records).2 ++ [record]) := by
      rw [coverage, foldl_append]
      rfl
    rw [hconcat]
    split_ifs with h
    · refine ⟨kept ++ [record], ?_, by rw [map_append, htexts]; rfl, ?_, ?_, ?_⟩
      · calc (records ++ [record]).Perm (kept ++ (coverage desired records).2 ++ [record]) :=
            hperm.append_right _
          _ |>.Perm (kept ++ [record] ++ (coverage desired records).2) := by
            rw [append_assoc, append_assoc]
            exact perm_append_comm.append_left kept
      · refine nodup_append.mpr ⟨hnodup, nodup_singleton _, ?_⟩
        rintro a ha b hb rfl
        exact h.2 (mem_singleton.mp hb ▸ ha)
      · intro value hmem
        obtain hmem | hmem := mem_append.mp hmem
        · exact hdesired value hmem
        · exact mem_singleton.mp hmem ▸ h.1
      · exact fun r hr hwanted => mem_append_left _ (hleft r hr hwanted)
    · refine ⟨kept, (hperm.append_right _).trans (.of_eq (append_assoc ..)), htexts, hnodup, hdesired, ?_⟩
      intro r hr hwanted
      obtain hr | hr := mem_append.mp hr
      · exact hleft r hr hwanted
      · obtain rfl := mem_singleton.mp hr
        exact not_not.mp fun hmissing => h ⟨hwanted, hmissing⟩

theorem nodup_create {records : List (DdnsRecord ρ)} {id : ρ} (hids : (records.map DdnsRecord.id).Nodup)
    (hnew : id ∉ records.map DdnsRecord.id) (value : JsString) :
    ((records ++ [DdnsRecord.mk id value]).map DdnsRecord.id).Nodup := by
  rw [map_append]
  refine nodup_append.mpr ⟨hids, nodup_singleton _, ?_⟩
  rintro a ha b hb rfl
  rw [map_singleton, mem_singleton] at hb
  rw [hb] at ha
  exact hnew ha

/-! ## The calls of a plan -/

section

variable {desired : List JsString} {kept reusable records s s' : List (DdnsRecord ρ)} {missing : List JsString}

/-- The records `kept` have their values, the values `missing` have none, and the plan has `reusable`
to go on with. -/
structure Going (desired : List JsString) (kept reusable : List (DdnsRecord ρ)) (missing : List JsString)
    (s : List (DdnsRecord ρ)) : Prop where
  ids : (s.map DdnsRecord.id).Nodup
  perm : s.Perm (kept ++ reusable)
  values : (kept.map DdnsRecord.text ++ missing).Perm desired
  clean : ∀ r ∈ reusable, r.text ∉ missing

theorem going_plan (hids : (records.map DdnsRecord.id).Nodup) (hdesired : desired.Nodup) :
    ∃ kept, Going desired kept (coverage desired records).2
        (desired.filter fun value => value ∉ (coverage desired records).1) records ∧
      ∀ value ∈ desired, Holds records value → value ∈ kept.map DdnsRecord.text := by
  obtain ⟨kept, hperm, htexts, hnodup, hsub, hleft⟩ := coverage_spec desired records
  refine ⟨kept, ⟨hids, hperm, ?_, fun r hr hmissing => ?_⟩, fun value hwanted hholds => ?_⟩
  · rw [htexts]
    refine (perm_ext_iff_of_nodup ?_ hdesired).mpr fun value => ?_
    · refine nodup_append.mpr ⟨hnodup, hdesired.filter _, ?_⟩
      rintro a ha b hb rfl
      exact absurd ha (by simpa using (mem_filter.mp hb).2)
    · by_cases hmem : value ∈ (coverage desired records).1
      · simp [hmem, hsub value hmem]
      · simp [hmem]
  · obtain ⟨hwanted, hnot⟩ := mem_filter.mp hmissing
    exact absurd (hleft r hr hwanted) (by simpa using hnot)
  · obtain ⟨r, hr, rfl⟩ := mem_map.mp hholds
    rw [htexts]
    obtain hr | hr := mem_append.mp (hperm.mem_iff.mp hr)
    · exact htexts ▸ mem_map_of_mem hr
    · exact hleft r hr hwanted

variable {value : JsString}

theorem Going.not_holds (h : Going desired kept reusable missing s) (hdesired : desired.Nodup)
    (hmissing : value ∈ missing) : ¬ Holds s value := by
  intro hholds
  obtain ⟨r, hr, rfl⟩ := mem_map.mp hholds
  obtain hr | hr := mem_append.mp (h.perm.mem_iff.mp hr)
  · have hnodup := (h.values.nodup_iff.mpr hdesired)
    exact (nodup_append.mp hnodup).2.2 _ (mem_map_of_mem hr) _ hmissing rfl
  · exact h.clean r hr hmissing

variable {record : DdnsRecord ρ}

theorem Going.split (h : Going desired kept (record :: reusable) missing s) :
    s.Perm (record :: (kept ++ reusable)) ∧ ∀ r ∈ kept ++ reusable, r.id ≠ record.id := by
  have hperm : s.Perm (record :: (kept ++ reusable)) := h.perm.trans perm_middle
  have hnodup := (hperm.map DdnsRecord.id).nodup_iff.mp h.ids
  exact ⟨hperm, fun r hr heq => (nodup_cons.mp hnodup).1 (heq ▸ mem_map_of_mem hr)⟩

variable [DecidableEq ρ]

theorem Going.update
    (h : Going desired kept (record :: reusable) (value :: missing) s) (htrimmed : trim value = value) :
    Going desired (kept ++ [⟨record.id, value⟩]) reusable missing
      (s.map fun r => if r.id = record.id then ⟨record.id, value⟩ else r) := by
  obtain ⟨hperm, hothers⟩ := h.split
  refine ⟨?_, ?_, ?_, fun r hr hmem => h.clean r (mem_cons_of_mem _ hr) (mem_cons_of_mem _ hmem)⟩
  · have hsame : (s.map fun r => if r.id = record.id then ⟨record.id, value⟩ else r).map DdnsRecord.id =
        s.map DdnsRecord.id := by
      rw [map_map]
      refine map_congr_left fun r _ => ?_
      rw [Function.comp_apply]
      split_ifs with heq
      · exact heq.symm
      · rfl
    exact hsame ▸ h.ids
  · refine (hperm.map _).trans ?_
    rw [map_cons, if_pos rfl, map_congr_left fun r hr => if_neg (hothers r hr), map_id',
      append_assoc]
    exact perm_middle.symm
  · have hvalues := h.values
    rwa [map_append, append_assoc, map_singleton, DdnsRecord.text, htrimmed]

omit [DecidableEq ρ] in
theorem Going.create {id : ρ} (h : Going desired kept [] (value :: missing) s)
    (hnew : id ∉ s.map DdnsRecord.id) (htrimmed : trim value = value) :
    Going desired (kept ++ [⟨id, value⟩]) [] missing (s ++ [⟨id, value⟩]) := by
  refine ⟨?_, ?_, ?_, nofun⟩
  · exact nodup_create h.ids hnew value
  · have hperm := h.perm
    rw [append_nil] at hperm ⊢
    exact hperm.append_right _
  · have hvalues := h.values
    rwa [map_append, append_assoc, map_singleton, DdnsRecord.text, htrimmed]

theorem Going.remove (h : Going desired kept (record :: reusable) [] s) :
    Going desired kept reusable [] (s.filter fun r => r.id ≠ record.id) := by
  obtain ⟨hperm, hothers⟩ := h.split
  refine ⟨h.ids.sublist (filter_sublist.map _), ?_, h.values, nofun⟩
  refine (hperm.filter _).trans ?_
  rw [filter_cons_of_neg (by simp), filter_eq_self.mpr fun r hr => decide_eq_true (hothers r hr)]

/-- **The next call** of a plan writes a value that has no record, to a record that is there, and the
plan goes on. -/
theorem Going.step (h : Going desired kept reusable missing s) (hdesired : desired.Nodup)
    (htrimmed : ∀ value ∈ desired, trim value = value) {call : Call ρ} {left : List (Call ρ)}
    (hcalls : (pairUp reusable missing).calls = call :: left) :
    (∀ value, call.writes = some value → ¬ Holds s value) ∧
      (∀ id, call.target = some id → id ∈ s.map DdnsRecord.id) ∧
      ∀ s', Performs s call s' → ∃ kept' reusable' missing', Going desired kept' reusable' missing' s' ∧
        (pairUp reusable' missing').calls = left ∧
        (∀ value ∈ kept.map DdnsRecord.text, value ∈ kept'.map DdnsRecord.text) ∧
        (s' = [] → desired = []) := by
  have htrim {value : JsString} (hvalue : value ∈ missing) : trim value = value :=
    htrimmed value (h.values.mem_iff.mp (mem_append_right _ hvalue))
  have hstays (record : DdnsRecord ρ) : ∀ value ∈ kept.map DdnsRecord.text,
      value ∈ (kept ++ [record]).map DdnsRecord.text := by
    intro value hvalue
    rw [map_append]
    exact mem_append_left _ hvalue
  cases reusable with
  | nil =>
    cases missing with
    | nil => cases hcalls
    | cons value missing =>
      obtain ⟨rfl, rfl⟩ := List.cons.inj (show Call.create value :: _ = _ from hcalls)
      refine ⟨?_, nofun, fun s' hperforms => ?_⟩
      · rintro _ ⟨⟩
        exact h.not_holds hdesired mem_cons_self
      · cases hperforms with
        | create _ hnew => exact ⟨_, _, _, h.create hnew (htrim mem_cons_self), rfl, hstays _, by simp⟩
  | cons record reusable =>
    have hthere : record.id ∈ s.map DdnsRecord.id :=
      mem_map_of_mem (h.split.1.mem_iff.mpr mem_cons_self)
    cases missing with
    | nil =>
      obtain ⟨rfl, rfl⟩ := List.cons.inj (show Call.remove record.id :: _ = _ from hcalls)
      refine ⟨nofun, ?_, fun s' hperforms => ?_⟩
      · rintro _ ⟨⟩
        exact hthere
      · cases hperforms
        have hnext := h.remove
        refine ⟨_, _, _, hnext, ?_, fun _ hvalue => hvalue, fun hempty => ?_⟩
        · cases reusable <;> rfl
        · have hkept := append_eq_nil_iff.mp (hempty ▸ hnext.perm).nil_eq.symm
          have hvalues := hnext.values
          rw [hkept.1] at hvalues
          exact hvalues.nil_eq.symm
    | cons value missing =>
      obtain ⟨rfl, rfl⟩ := List.cons.inj (show Call.update record.id value :: _ = _ from hcalls)
      refine ⟨?_, ?_, fun s' hperforms => ?_⟩
      · rintro _ ⟨⟩
        exact h.not_holds hdesired mem_cons_self
      · rintro _ ⟨⟩
        exact hthere
      · cases hperforms
        refine ⟨_, _, _, h.update (htrim mem_cons_self), rfl, hstays _, fun hempty => ?_⟩
        rw [map_eq_nil_iff.mp hempty] at hthere
        cases hthere

theorem going_run (hdesired : desired.Nodup) (htrimmed : ∀ value ∈ desired, trim value = value)
    {done left : List (Call ρ)} (hrun : Runs records done s) :
    ∀ {kept reusable : List (DdnsRecord ρ)} {missing : List JsString},
      Going desired kept reusable missing records → (pairUp reusable missing).calls = done ++ left →
        ∃ kept' reusable' missing', Going desired kept' reusable' missing' s ∧
          (pairUp reusable' missing').calls = left ∧
          (∀ value ∈ kept.map DdnsRecord.text, value ∈ kept'.map DdnsRecord.text) ∧
          (records ≠ [] → desired ≠ [] → s ≠ []) := by
  induction hrun with
  | nil => exact fun h hcalls => ⟨_, _, _, h, hcalls, fun _ hvalue => hvalue, fun hne _ => hne⟩
  | cons hfirst _ ih =>
    intro kept reusable missing h hcalls
    obtain ⟨-, -, hnext⟩ := h.step hdesired htrimmed hcalls
    obtain ⟨kept₁, reusable₁, missing₁, h₁, hcalls₁, hstays₁, hempty⟩ := hnext _ hfirst
    obtain ⟨kept₂, reusable₂, missing₂, h₂, hcalls₂, hstays₂, hthere⟩ := ih h₁ hcalls₁
    exact ⟨kept₂, reusable₂, missing₂, h₂, hcalls₂, fun value hvalue => hstays₂ value (hstays₁ value hvalue),
      fun _ hwanted => hthere (mt hempty hwanted) hwanted⟩

omit [DecidableEq ρ] in
theorem Going.settled (h : Going desired kept reusable missing s)
    (hcalls : (pairUp reusable missing).calls = []) : Settled desired s := by
  cases reusable with
  | nil =>
    cases missing with
    | nil => exact (h.perm.map _).trans (by simpa using h.values)
    | cons => cases hcalls
  | cons => cases missing <;> cases hcalls

end

/-! ## The fewest calls -/

section

variable [DecidableEq ρ] {desired : List JsString} {s s' final : List (DdnsRecord ρ)} {call : Call ρ}
  {calls : List (Call ρ)}

/-- How many of the values have a record. -/
def held (desired : List JsString) (s : List (DdnsRecord ρ)) : ℕ :=
  desired.countP fun value => value ∈ s.map DdnsRecord.text

omit [DecidableEq ρ] in
theorem held_le (hdesired : desired.Nodup) (value : JsString)
    (h : ∀ text ∈ s'.map DdnsRecord.text, text ∈ s.map DdnsRecord.text ∨ text = value) :
    held desired s' ≤ held desired s + 1 := by
  have hcount : desired.count value ≤ 1 := nodup_iff_count_le_one.mp hdesired value
  refine le_trans ?_ (Nat.add_le_add_left hcount _)
  rw [held, held, List.count]
  clear hcount hdesired
  induction desired with
  | nil => exact le_rfl
  | cons text desired ih =>
    have hone := h text
    simp only [countP_cons, decide_eq_true_eq, beq_iff_eq]
    split_ifs <;> first | omega | (exfalso; tauto)

theorem Performs.ids (h : Performs s call s') (hids : (s.map DdnsRecord.id).Nodup) :
    (s'.map DdnsRecord.id).Nodup := by
  cases h with
  | update id value =>
    rw [map_map]
    refine (map_congr_left fun r _ => ?_) ▸ hids
    rw [Function.comp_apply]
    split_ifs with heq
    · exact heq
    · rfl
  | create value hnew => exact nodup_create hids hnew value
  | remove id => exact hids.sublist (filter_sublist.map _)

theorem Performs.gains (h : Performs s call s') (hids : (s.map DdnsRecord.id).Nodup)
    (hdesired : desired.Nodup) :
    held desired s' ≤ held desired s + 1 ∧ s.length + held desired s' ≤ s'.length + held desired s + 1 := by
  cases h with
  | update id value =>
    have hle := @held_le _ desired s (s.map fun r => if r.id = id then ⟨id, value⟩ else r) hdesired
      (trim value) fun text htext => by
        rw [map_map] at htext
        obtain ⟨r, hr, rfl⟩ := mem_map.mp htext
        rw [Function.comp_apply]
        split_ifs
        · exact .inr rfl
        · exact .inl (mem_map_of_mem hr)
    rw [length_map]
    omega
  | @create value id =>
    have hle := @held_le _ desired s (s ++ [⟨id, value⟩]) hdesired (trim value) fun text htext => by
      rw [map_append, mem_append] at htext
      exact htext.imp_right mem_singleton.mp
    rw [length_append, length_singleton]
    omega
  | remove id =>
    have hle : held desired (s.filter fun r => r.id ≠ id) ≤ held desired s :=
      countP_mono_left fun text _ htext => by
        simp only [decide_eq_true_eq] at htext ⊢
        exact (filter_sublist.map _).subset htext
    have hone : (s.filter fun r => decide (r.id = id)).length ≤ 1 := by
      have hcount := nodup_iff_count_le_one.mp hids id
      rw [List.count, countP_map, countP_eq_length_filter] at hcount
      exact hcount
    have hsplit := length_eq_length_filter_add (l := s) fun r => decide (r.id = id)
    have hsame : (s.filter fun r => decide (r.id ≠ id)) = s.filter fun r => !decide (r.id = id) :=
      filter_congr fun r _ => by simp
    rw [hsame] at hle ⊢
    omega

theorem length_of_settled (hrun : Runs s calls final) (hids : (s.map DdnsRecord.id).Nodup)
    (hdesired : desired.Nodup) (hfinal : Settled desired final) :
    desired.length ≤ held desired s + calls.length ∧ s.length ≤ held desired s + calls.length := by
  induction hrun with
  | nil s =>
    have hall : held desired s = desired.length :=
      countP_eq_length.mpr fun value hvalue => decide_eq_true (hfinal.mem_iff.mpr hvalue)
    have hsize := hfinal.length_eq
    rw [length_map] at hsize
    rw [hall, hsize]
    exact ⟨le_rfl, le_rfl⟩
  | cons hfirst _ ih =>
    have hgains := hfirst.gains hids hdesired
    have hrest := ih (hfirst.ids hids) hfinal
    rw [length_cons]
    omega

omit [DecidableEq ρ] in
theorem length_calls_pairUp (reusable : List (DdnsRecord ρ)) :
    ∀ missing, (pairUp reusable missing).calls.length = max reusable.length missing.length := by
  induction reusable with
  | nil => intro missing; cases missing <;> simp [pairUp, DdnsPlan.calls]
  | cons record reusable ih =>
    intro missing
    cases missing with
    | nil => simp [pairUp, DdnsPlan.calls]
    | cons value missing =>
      have hcalls : (pairUp (record :: reusable) (value :: missing)).calls =
          .update record.id value :: (pairUp reusable missing).calls := rfl
      rw [hcalls, length_cons, ih, length_cons, length_cons, Nat.succ_max_succ]

end

/-! ## The provider, call by call -/

variable [DecidableEq ρ]

/-- **Reconciling the records of a name.** After any part `done` of the calls: no wanted value that was
there is gone, the name keeps a record, the next call writes no value that a record has, and a new plan
ends with one record for each value. -/
theorem ddns_values_reconciled {records : List (DdnsRecord ρ)} (hids : (records.map DdnsRecord.id).Nodup)
    (desiredValues : List JsString) :
    let desired := uniqueDdnsValues desiredValues
    let calls := (planDdnsValueChanges records desiredValues).calls
    (∀ done left s, calls = done ++ left → Runs records done s →
      (left = [] → Settled desired s) ∧
      (∀ value ∈ desired, Holds records value → Holds s value) ∧
      (records ≠ [] → desired ≠ [] → s ≠ []) ∧
      (∀ call ∈ left.head?, (∀ value, call.writes = some value → ¬ Holds s value) ∧
        ∀ id, call.target = some id → id ∈ s.map DdnsRecord.id) ∧
      ∀ listed final, listed.Perm s → Runs listed (planDdnsValueChanges listed desiredValues).calls final →
        Settled desired final) ∧
    ∀ calls' final, Runs records calls' final → Settled desired final → calls.length ≤ calls'.length := by
  intro desired calls
  obtain ⟨hdesired, htrimmed⟩ := uniqueDdnsValues_spec desiredValues
  have hsettles {listed final : List (DdnsRecord ρ)} (hids : (listed.map DdnsRecord.id).Nodup)
      (hrun : Runs listed (planDdnsValueChanges listed desiredValues).calls final) : Settled desired final := by
    obtain ⟨kept, h, -⟩ := going_plan hids hdesired
    obtain ⟨_, _, _, hend, hcalls, -, -⟩ := going_run hdesired htrimmed hrun h (List.append_nil _).symm
    exact hend.settled hcalls
  obtain ⟨kept, h, hkept⟩ := going_plan hids hdesired
  refine ⟨fun done left s hcalls hrun => ?_, fun calls' final hrun hfinal => ?_⟩
  · obtain ⟨kept', reusable', missing', h', hleft, hstays, hthere⟩ := going_run hdesired htrimmed hrun h hcalls
    refine ⟨fun hnil => h'.settled (hleft.trans hnil), fun value hwanted hholds => ?_, hthere,
      fun call hcall => ?_, fun listed final hlisted hagain => hsettles ?_ hagain⟩
    · have hmem := hstays value (hkept value hwanted hholds)
      refine (h'.perm.map _).mem_iff.mpr ?_
      rw [List.map_append]
      exact List.mem_append_left _ hmem
    · obtain ⟨rest, rfl⟩ := List.head?_eq_some_iff.mp hcall
      obtain ⟨hwrites, htarget, -⟩ := h'.step hdesired htrimmed hleft
      exact ⟨hwrites, htarget⟩
    · exact (hlisted.map _).nodup_iff.mpr h'.ids
  · obtain ⟨hvalues, hrecords⟩ := length_of_settled hrun hids hdesired hfinal
    have hheld : held (uniqueDdnsValues desiredValues) records ≤ kept.length := by
      rw [held, List.countP_eq_length_filter, ← List.length_map (f := DdnsRecord.text)]
      refine (List.subperm_of_subset (hdesired.filter _) fun value hvalue => ?_).length_le
      obtain ⟨hwanted, hholds⟩ := List.mem_filter.mp hvalue
      exact hkept value hwanted (show value ∈ records.map DdnsRecord.text by simpa using hholds)
    have hsize := h.perm.length_eq
    have hcount := h.values.length_eq
    rw [List.length_append] at hsize hcount
    rw [List.length_map] at hcount
    change (pairUp _ _).calls.length ≤ _
    rw [length_calls_pairUp]
    exact max_le (by omega) (by omega)

theorem ddns_values_reconciled_two :
    (planDdnsValueChanges [⟨1, js "a"⟩, ⟨2, js "b"⟩, ⟨3, js "b"⟩] [js "b"]).calls.length ≤ 2 := by
  have h := (@ddns_values_reconciled _ _ [⟨1, js "a"⟩, ⟨2, js "b"⟩, ⟨3, js "b"⟩] (by decide) [js "b"]).2
  refine h [.remove 1, .remove 3] [⟨2, js "b"⟩] ?_ (.refl _)
  exact .cons (.remove _ 1) (.cons (.remove _ 3) (.nil _))

end ForwardX.Panel.DdnsValues
