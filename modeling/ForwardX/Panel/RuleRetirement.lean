/-
`retireRuleIf` of `server/forwardGroupRuleIntegrity.ts`: a forwarding rule that its group no longer
backs is settled and marked for deletion.

The settlement charges the user, the conditional `UPDATE` marks the rule, and another request may
change the row between the two.
-/
import ForwardX.Panel.TrafficBilling

namespace ForwardX.Panel

open Table Tx Call

/-! ## The function -/

def positiveId (id : ℤ) : ℤ := max 0 id

def trafficBillingResourceCandidatesForRule (rule : ForwardRule) : List ResourceKey :=
  (if rule.forwardGroupId > 0 then [(.forwardGroup, rule.forwardGroupId)] else []) ++
  (if rule.tunnelId > 0 then [(.tunnel, rule.tunnelId)] else []) ++
  (if rule.hostId > 0 then [(.host, rule.hostId)] else [])

def findTrafficBillingResourceForRule (rule : ForwardRule) (db : Database) : Option ResourceKey :=
  (trafficBillingResourceCandidatesForRule rule).find? fun c =>
    (findTrafficBillingConfig c db).isSome

/-- What the rule is settled under; a rule that forwards nothing has no resource. -/
def settlementTarget (rule : ForwardRule) (db : Database) : Option BillingTarget :=
  ((findTrafficBillingResourceForRule rule db).or
      (trafficBillingResourceCandidatesForRule rule).head?).map fun resource =>
    ⟨positiveId rule.userId, rule.id, (resource.1, positiveId resource.2)⟩

/-- `WHERE id = ? AND pendingDelete = false AND updatedAt = ?`. -/
def stillAsRead (current rule : ForwardRule) : Bool :=
  rule.id = current.id ∧ rule.pendingDelete = false ∧ rule.updatedAt = current.updatedAt

/-- The conditional `UPDATE`, and the number of rows it hit. -/
def markPendingDelete (now : ℤ) (current : ForwardRule) (db : Database) : ℕ × Database :=
  (db.forwardRules.countP (stillAsRead current),
    { db with
      forwardRules := updateWhere (stillAsRead current)
        (fun r => { r with
          isEnabled := false, isRunning := true, pendingDelete := true, updatedAt := seconds now })
        db.forwardRules })

def getForwardRuleById (ruleId : ℤ) (db : Database) : Option ForwardRule :=
  byKey ForwardRule.id ruleId db.forwardRules

def settleRule (now : ℤ) (current : ForwardRule) : Db (Option ChargeResult) := do
  let target ← query (settlementTarget current)
  match target with
  | none => pure none
  | some t => settleTrafficBillingRuleOnDelete now t

/-- The transaction. `edits` is what other requests commit to the rules after the
rule was read; it is taken back with everything else when the transaction fails,
which no statement below looks at. -/
def retireInTransaction (now ruleId : ℤ) (stillManagedAndInvalid : Database → Bool)
    (edits : List ForwardRule → List ForwardRule) : Db Bool := do
  let row ← query (getForwardRuleById ruleId)
  match row with
  | none => pure false
  | some current =>
    let invalid ← query stillManagedAndInvalid
    if current.pendingDelete ∨ invalid = false then pure false
    else
      let _billed ← settleRule now current
      execute fun db => { db with forwardRules := edits db.forwardRules }
      let affected ← statement (markPendingDelete now current)
      if affected = 0 then pure false
      else
        execute fun db => { db with
          forwardRuleTunnelExits := db.forwardRuleTunnelExits.filter (· ≠ ruleId) }
        pure true

/-- `retireRuleIf`, up to its answer; the audit entry and the refreshes that
follow a retirement are left out. -/
def retireRuleIf (now ruleId : ℤ) (stillManagedAndInvalid : Database → Bool)
    (edits : List ForwardRule → List ForwardRule) : Db Bool := do
  let row ← query (getForwardRuleById ruleId)
  match row with
  | none => pure false
  | some preview =>
    let invalid ← query stillManagedAndInvalid
    if preview.pendingDelete ∨ invalid = false then pure false
    else withDatabaseTransaction (retireInTransaction now ruleId stillManagedAndInvalid edits)

/-! ## Atomicity -/

structure SameBooks (db db' : Database) : Prop where
  users : db'.users = db.users
  transactions : db'.balanceTransactions = db.balanceTransactions
  usage : db'.trafficBillingUsage = db.trafficBillingUsage
  ruleUsage : db'.trafficBillingRuleUsage = db.trafficBillingRuleUsage
  records : db'.trafficBillingRecords = db.trafficBillingRecords

/-- What the call promises: the settlement is committed with the mark, and
without the mark the books are as before. -/
def RetiresAtomically (now ruleId : ℤ) (db : Database) : Except String Bool × Database → Prop
  | (.ok true, db') =>
    (∃ rule ∈ db'.forwardRules, rule.id = ruleId ∧ rule.pendingDelete) ∧
      ∃ current r db₁, getForwardRuleById ruleId db = some current ∧
        Returns (settleRule now current) db r db₁ ∧ SameBooks db₁ db'
  | (.ok false, db') => SameBooks db db'
  | (.error _, db') => SameBooks db db'

/-- The rule is there, not marked yet, and no longer valid. -/
def Retirable (ruleId : ℤ) (stillManagedAndInvalid : Database → Bool) (db : Database)
    (rule : ForwardRule) : Prop :=
  getForwardRuleById ruleId db = some rule ∧ rule.pendingDelete = false ∧ stillManagedAndInvalid db

/-- There is something to settle: an open position, or statistics to make one from. -/
def OpenPosition (t : BillingTarget) (db : Database) : Prop :=
  db.trafficBillingEnabled ∧ (0 < t.userId → (db.user? t.userId).isSome) ∧
    ((∃ row ∈ ruleUsages t.ruleId db, row.settled = false) ∨
      (ruleUsages t.ruleId db = [] ∧
        byKey TrafficBillingUsage.key t.usageKey db.trafficBillingUsage ≠ none ∧
        0 < getHistoricalRuleTrafficBytes t.ruleId db))

section

variable {db db' : Database} {now : ℤ} {t : BillingTarget} {r : Option ChargeResult}

theorem settle_rules (h : Returns (settleTrafficBillingRuleOnDelete now t) db r db') :
    db'.forwardRules = db.forwardRules ∧
      db'.forwardRuleTunnelExits = db.forwardRuleTunnelExits := by
  apply settleTrafficBillingRuleOnDelete_preserves (I := fun d =>
    d.forwardRules = db.forwardRules ∧ d.forwardRuleTunnelExits = db.forwardRuleTunnelExits) _ _ _ h
  · exact ⟨rfl, rfl⟩
  · intro d b hd
    exact hd
  · intro d usage hd
    exact hd
  · intro d c r' d' hd hcharge
    obtain ⟨-, rfl, -⟩ | ⟨user, -, -, -, rfl⟩ := insertTrafficBillingCharge_spec hcharge
    · exact hd
    · exact hd

/-- Every open position of the rule is one of `rows`, as it was read. -/
def CoveredBy (ruleId : ℤ) (rows : List TrafficBillingRuleUsage) (db : Database) : Prop :=
  ∀ row ∈ ruleUsages ruleId db, row.settled = false →
    ∃ usage ∈ rows, usage.key = row.key ∧ usage.settled = false

theorem coveredBy_settleRuleUsage {usage : TrafficBillingRuleUsage}
    {rows : List TrafficBillingRuleUsage} (h : Returns (settleRuleUsage now t usage) db r db')
    (hcov : CoveredBy t.ruleId (usage :: rows) db) : CoveredBy t.ruleId rows db' := by
  have hmark : usage.settled = false → CoveredBy t.ruleId rows (markSettled now usage db) := by
    intro _ row hrow hopen
    rw [ruleUsages, markSettled, List.mem_filter, updateWhere, List.mem_map] at hrow
    obtain ⟨⟨old, hold, rfl⟩, hid⟩ := hrow
    by_cases hkey : old.key = usage.key
    · -- the flag of this row has just been set
      simp [hkey] at hopen
    · simp only [hkey, decide_false, Bool.false_eq_true, if_false] at hid hopen ⊢
      obtain ⟨u, hu, huk, hus⟩ := hcov old (List.mem_filter.mpr ⟨hold, hid⟩) hopen
      rw [List.mem_cons] at hu
      rcases hu with rfl | hu
      · exact absurd huk.symm hkey
      · exact ⟨u, hu, huk, hus⟩
  obtain ⟨hset, -, rfl⟩ | ⟨hset, ⟨-, -, rfl⟩ | ⟨-, hcharge⟩⟩ := settleRuleUsage_spec h
  · intro row hrow hopen
    obtain ⟨u, hu, huk, hus⟩ := hcov row hrow hopen
    rw [List.mem_cons] at hu
    rcases hu with rfl | hu
    · rw [hset] at hus
      cases hus
    · exact ⟨u, hu, huk, hus⟩
  · exact hmark hset
  · obtain ⟨-, rfl, -⟩ | ⟨user, -, -, -, rfl⟩ := insertTrafficBillingCharge_spec hcharge
    · exact hmark hset
    · exact hmark hset

theorem coveredBy_settleRuleUsages (rows : List TrafficBillingRuleUsage) :
    ∀ {db : Database} {total : ℤ} {balance : Option ℤ} {out : ℤ × Option ℤ} {db' : Database},
      Returns (settleRuleUsages now t rows total balance) db out db' →
      CoveredBy t.ruleId rows db → CoveredBy t.ruleId [] db' := by
  induction rows with
  | nil =>
    intro db total balance out db' h hcov
    obtain ⟨-, rfl⟩ := h.of_pure
    exact hcov
  | cons usage rows ih =>
    intro db total balance out db' h hcov
    obtain ⟨charged, db₁, hone, hrest⟩ := h.of_bind
    have hcov₁ := coveredBy_settleRuleUsage hone hcov
    cases charged with
    | none => exact ih hrest hcov₁
    | some c => exact ih hrest hcov₁

theorem settle_closes (h : Returns (settleTrafficBillingRuleOnDelete now t) db r db')
    (hon : db.trafficBillingEnabled) : CoveredBy t.ruleId [] db' := by
  obtain ⟨hoff, -, -⟩ | ⟨-, -, rows, db₁, total, balance, hrows, hloop, -⟩ :=
    settleTrafficBillingRuleOnDelete_spec h
  · rw [hon] at hoff
    cases hoff
  · apply coveredBy_settleRuleUsages rows hloop
    intro row hrow hopen
    obtain ⟨rfl, rfl, -⟩ | ⟨-, -, -, rfl, -⟩ := settlementRows_spec hrows
    · exact ⟨row, hrow, rfl, hopen⟩
    · exact ⟨row, hrow, rfl, hopen⟩

theorem settleRuleUsages_of_settled (rows : List TrafficBillingRuleUsage)
    (hset : ∀ usage ∈ rows, usage.settled) :
    ∀ {db : Database} {total : ℤ} {balance : Option ℤ} {out : ℤ × Option ℤ} {db' : Database},
      Returns (settleRuleUsages now t rows total balance) db out db' → db' = db := by
  induction rows with
  | nil =>
    intro db total balance out db' h
    exact h.of_pure.2
  | cons usage rows ih =>
    intro db total balance out db' h
    obtain ⟨charged, db₁, hone, hrest⟩ := h.of_bind
    have hrows : ∀ u ∈ rows, u.settled := fun u hu => hset u (List.mem_cons_of_mem _ hu)
    obtain ⟨-, rfl, rfl⟩ | ⟨hopen, -⟩ := settleRuleUsage_spec hone
    · exact ih hrows hrest
    · rw [hset usage List.mem_cons_self] at hopen
      cases hopen

theorem settle_of_closed (h : Returns (settleTrafficBillingRuleOnDelete now t) db r db')
    (hnone : ¬ OpenPosition t db) : db' = db := by
  obtain ⟨-, -, rfl⟩ | ⟨hon, hu, rows, db₁, total, balance, hrows, hloop, -⟩ :=
    settleTrafficBillingRuleOnDelete_spec h
  · rfl
  obtain ⟨rfl, rfl, -⟩ | ⟨hnil, husage, hstats, -, -⟩ := settlementRows_spec hrows
  · apply settleRuleUsages_of_settled _ _ hloop
    intro row hrow
    by_contra hopen
    exact hnone ⟨hon, hu, .inl ⟨row, hrow, by simpa using hopen⟩⟩
  · exact absurd ⟨hon, hu, .inr ⟨hnil, husage, hstats⟩⟩ hnone

theorem settle_changes (h : Returns (settleTrafficBillingRuleOnDelete now t) db r db')
    (hopen : OpenPosition t db) : db'.trafficBillingRuleUsage ≠ db.trafficBillingRuleUsage := by
  intro heq
  obtain ⟨hon, -, ⟨row, hrow, hunset⟩ | ⟨hnil, husage, hstats⟩⟩ := hopen
  · have hrow' : row ∈ ruleUsages t.ruleId db' := by rw [ruleUsages, heq]; exact hrow
    obtain ⟨u, hu, -⟩ := settle_closes h hon row hrow' hunset
    cases hu
  · obtain ⟨hoff, -, -⟩ | ⟨-, -, rows, db₁, total, balance, hrows, hloop, -⟩ :=
      settleTrafficBillingRuleOnDelete_spec h
    · rw [hon] at hoff
      cases hoff
    obtain ⟨-, -, hne | hno | hle⟩ | ⟨-, -, -, -, rfl⟩ := settlementRows_spec hrows
    · exact hne hnil
    · exact husage hno
    · omega
    -- the new position makes the table longer, and the loop keeps its length
    have hlen : db'.trafficBillingRuleUsage.length = db.trafficBillingRuleUsage.length + 1 := by
      apply settleRuleUsages_preserves
        (I := fun d => d.trafficBillingRuleUsage.length = db.trafficBillingRuleUsage.length + 1)
        _ _ rows hloop
      · simp
      · intro d usage hd
        simpa [markSettled, updateWhere] using hd
      · intro d c r' d' hd hcharge
        obtain ⟨-, rfl, -⟩ | ⟨user, -, -, -, rfl⟩ := insertTrafficBillingCharge_spec hcharge
        · exact hd
        · exact hd
    rw [heq] at hlen
    omega

end

/-! ## What the transaction does -/

section

variable {db db' : Database} {now ruleId : ℤ} {check : Database → Bool}
  {edits : List ForwardRule → List ForwardRule}

section

variable {current : ForwardRule} {r : Option ChargeResult} (h : Returns (settleRule now current) db r db')

include h

theorem settleRule_spec :
    (settlementTarget current db = none ∧ db' = db) ∨
      ∃ t, settlementTarget current db = some t ∧
        Returns (settleTrafficBillingRuleOnDelete now t) db r db' := by
  replace h := h.bind_query
  cases htarget : settlementTarget current db with
  | none =>
    rw [htarget] at h
    exact .inl ⟨rfl, h.of_pure.2⟩
  | some t =>
    rw [htarget] at h
    exact .inr ⟨t, rfl, h⟩

theorem settleRule_rules : db'.forwardRules = db.forwardRules := by
  obtain ⟨-, rfl⟩ | ⟨t, -, h⟩ := settleRule_spec h
  · rfl
  · exact (settle_rules h).1

end

theorem not_retirable_of_missing (hrow : getForwardRuleById ruleId db = none) (rule : ForwardRule) :
    ¬ Retirable ruleId check db rule := by
  rintro ⟨hget, -⟩
  rw [hget] at hrow
  cases hrow

theorem not_retirable_of_skipped {current : ForwardRule} (hrow : getForwardRuleById ruleId db = some current)
    (hno : current.pendingDelete ∨ check db = false) (rule : ForwardRule) :
    ¬ Retirable ruleId check db rule := by
  rintro ⟨hget, hpending, hcheck⟩
  rw [hget] at hrow
  obtain rfl := Option.some.inj hrow
  rcases hno with hno | hno
  · rw [hpending] at hno
    cases hno
  · rw [hcheck] at hno
    cases hno

theorem retireInTransaction_spec {b : Bool}
    (h : Returns (retireInTransaction now ruleId check edits) db b db') :
    ((∀ rule, ¬ Retirable ruleId check db rule) ∧ b = false ∧ db' = db) ∨
      ∃ current r db₁, Retirable ruleId check db current ∧
        Returns (settleRule now current) db r db₁ ∧ SameBooks db₁ db' ∧
        ((b = false ∧ ∀ rule ∈ edits db.forwardRules, stillAsRead current rule = false) ∨
          (b = true ∧ (∃ rule ∈ edits db.forwardRules, stillAsRead current rule) ∧
            ∃ rule ∈ db'.forwardRules, rule.id = ruleId ∧ rule.pendingDelete)) := by
  replace h := h.bind_query
  cases hrow : getForwardRuleById ruleId db with
  | none =>
    rw [hrow] at h
    obtain ⟨rfl, rfl⟩ := h.of_pure
    exact .inl ⟨not_retirable_of_missing hrow, rfl, rfl⟩
  | some current =>
    rw [hrow] at h
    obtain ⟨hno, h⟩ | ⟨hyes, h⟩ := h.bind_query.of_ite
    · obtain ⟨rfl, rfl⟩ := h.of_pure
      exact .inl ⟨not_retirable_of_skipped hrow hno, rfl, rfl⟩
    · rw [not_or] at hyes
      have hret : Retirable ruleId check db current :=
        ⟨hrow, by simpa using hyes.1, by simpa using hyes.2⟩
      obtain ⟨r, db₁, hsettle, hrest⟩ := h.of_bind
      have hrules := settleRule_rules hsettle
      refine .inr ⟨current, r, db₁, hret, hsettle, ?_⟩
      obtain ⟨hmiss, hdone⟩ | ⟨hhit, hdone⟩ := hrest.bind_execute.bind_statement.of_ite
      · obtain ⟨rfl, rfl⟩ := hdone.of_pure
        refine ⟨⟨rfl, rfl, rfl, rfl, rfl⟩, .inl ⟨rfl, ?_⟩⟩
        intro rule hrule
        have hcount : (edits db₁.forwardRules).countP (stillAsRead current) = 0 := hmiss
        rw [List.countP_eq_zero, hrules] at hcount
        simpa using hcount rule hrule
      · obtain ⟨rfl, rfl⟩ := hdone.bind_execute.of_pure
        have hcount : (edits db₁.forwardRules).countP (stillAsRead current) ≠ 0 := hhit
        obtain ⟨rule, hrule, hstill⟩ := List.countP_pos_iff.mp (Nat.pos_of_ne_zero hcount)
        refine ⟨⟨rfl, rfl, rfl, rfl, rfl⟩, .inr ⟨rfl, ⟨rule, hrules ▸ hrule, hstill⟩, ?_⟩⟩
        refine ⟨_, List.mem_map.mpr ⟨rule, hrule, rfl⟩, ?_⟩
        have hid : rule.id = ruleId := by
          simp only [stillAsRead, decide_eq_true_eq] at hstill
          rw [hstill.1]
          exact byKey_key hrow
        simp [hstill, hid]

theorem completes_retireInTransaction
    (hsettle : ∀ current, Retirable ruleId check db current → Completes (settleRule now current) db) :
    Completes (retireInTransaction now ruleId check edits) db := by
  apply (completes_query _).bind
  intro row db₁ hq
  obtain ⟨rfl, rfl⟩ := hq.of_query
  cases hrow : getForwardRuleById ruleId db₁ with
  | none => exact completes_pure _
  | some current =>
    apply (completes_query _).bind
    intro invalid db₂ hq
    obtain ⟨rfl, rfl⟩ := hq.of_query
    apply completes_ite <;> intro hyes
    · exact completes_pure _
    rw [not_or] at hyes
    apply (hsettle current ⟨hrow, by simpa using hyes.1, by simpa using hyes.2⟩).bind
    intro _ _ _
    apply (completes_execute _).bind
    intro _ _ _
    apply (completes_statement _).bind
    intro affected _ _
    apply completes_ite <;> intro _
    · exact completes_pure _
    · apply (completes_execute _).bind
      intro _ _ _
      exact completes_pure _

theorem failsClean_retireRuleIf : FailsClean (retireRuleIf now ruleId check edits) := by
  apply FailsClean.query_bind
  intro row
  cases row with
  | none => exact failsClean_pure _
  | some preview =>
    apply FailsClean.query_bind
    intro invalid
    exact failsClean_ite (failsClean_pure _) (failsClean_transaction _)

theorem retireRuleIf_spec {b : Bool} (h : Returns (retireRuleIf now ruleId check edits) db b db') :
    ((∀ rule, ¬ Retirable ruleId check db rule) ∧ b = false ∧ db' = db) ∨
      Returns (retireInTransaction now ruleId check edits) db b db' := by
  replace h := h.bind_query
  cases hrow : getForwardRuleById ruleId db with
  | none =>
    rw [hrow] at h
    exact .inl ⟨not_retirable_of_missing hrow, h.of_pure⟩
  | some preview =>
    rw [hrow] at h
    obtain ⟨hno, h⟩ | ⟨-, h⟩ := h.bind_query.of_ite
    · exact .inl ⟨not_retirable_of_skipped hrow hno, h.of_pure⟩
    · exact .inr h.of_transaction

theorem completes_retireRuleIf
    (hsettle : ∀ current, Retirable ruleId check db current → Completes (settleRule now current) db) :
    Completes (retireRuleIf now ruleId check edits) db := by
  apply (completes_query _).bind
  intro row db₁ hq
  obtain ⟨-, rfl⟩ := hq.of_query
  cases row with
  | none => exact completes_pure _
  | some preview =>
    apply (completes_query _).bind
    intro invalid db₂ hq
    obtain ⟨-, rfl⟩ := hq.of_query
    apply completes_ite <;> intro _
    · exact completes_pure _
    · exact (completes_retireInTransaction hsettle).transaction

end

theorem SameBooks.refl (db : Database) : SameBooks db db := ⟨rfl, rfl, rfl, rfl, rfl⟩

section

variable {db db' : Database} {now ruleId : ℤ} {check : Database → Bool}
  {edits : List ForwardRule → List ForwardRule} {rule : ForwardRule} {t : BillingTarget}

theorem completes_settleRule (htarget : settlementTarget rule db = some t)
    (howner : 0 < t.userId → (db.user? t.userId).isSome) :
    Completes (settleRule now rule) db := by
  apply (completes_query _).bind
  intro target db₁ hq
  obtain ⟨rfl, rfl⟩ := hq.of_query
  rw [htarget]
  exact completes_settleTrafficBillingRuleOnDelete howner

section

variable {b : Bool} (h : Returns (retireRuleIf now ruleId check edits) db b db')

include h

theorem answers_false_settled
    (hret : Retirable ruleId check db rule) (htarget : settlementTarget rule db = some t)
    (hopen : OpenPosition t db) (hmiss : ¬ ∃ r ∈ edits db.forwardRules, stillAsRead rule r) :
    b = false ∧ ¬ SameBooks db db' := by
  obtain ⟨hno, -⟩ | h := retireRuleIf_spec h
  · exact absurd hret (hno rule)
  obtain ⟨hno, -⟩ | ⟨current, r, db₁, hcur, hsettle, hbooks, hmark⟩ := retireInTransaction_spec h
  · exact absurd hret (hno rule)
  obtain rfl : current = rule := Option.some.inj (hcur.1.symm.trans hret.1)
  obtain ⟨rfl, -⟩ | ⟨-, hhit, -⟩ := hmark
  · refine ⟨rfl, fun hsame => ?_⟩
    obtain ⟨hnone, -⟩ | ⟨t', ht', hsettle⟩ := settleRule_spec hsettle
    · rw [hnone] at htarget
      cases htarget
    · obtain rfl : t' = t := Option.some.inj (ht'.symm.trans htarget)
      apply settle_changes hsettle hopen
      rw [← hbooks.ruleUsage, hsame.ruleUsage]
  · exact absurd hhit hmiss

theorem retiresAtomically_of_returns
    (hcond : ∀ rule t, Retirable ruleId check db rule → settlementTarget rule db = some t →
      OpenPosition t db → ∃ r ∈ edits db.forwardRules, stillAsRead rule r) :
    RetiresAtomically now ruleId db (.ok b, db') := by
  obtain ⟨-, rfl, rfl⟩ | h := retireRuleIf_spec h
  · exact SameBooks.refl _
  obtain ⟨-, rfl, rfl⟩ | ⟨current, r, db₁, hcur, hsettle, hbooks, ⟨rfl, hmiss⟩ | ⟨rfl, -, hmark⟩⟩ :=
    retireInTransaction_spec h
  · exact SameBooks.refl _
  · -- the mark was lost, so there was nothing to settle
    have hsame : db₁ = db := by
      obtain ⟨-, rfl⟩ | ⟨t, ht, hsettle⟩ := settleRule_spec hsettle
      · rfl
      apply settle_of_closed hsettle
      intro hopen
      obtain ⟨rule, hrule, hstill⟩ := hcond current t hcur ht hopen
      rw [hmiss rule hrule] at hstill
      cases hstill
    rw [hsame] at hbooks
    exact hbooks
  · exact ⟨hmark, current, r, db₁, hcur.1, hsettle, hbooks⟩

end

end

/-- **A retirement is atomic exactly when the mark cannot be lost after a
settlement**: the rule is not to be retired, or it has no open position to settle,
or its row is still as it was read when the `UPDATE` runs. -/
theorem retires_atomically_iff (now ruleId : ℤ) (check : Database → Bool)
    (edits : List ForwardRule → List ForwardRule) (db : Database) :
    (∀ fault, RetiresAtomically now ruleId db
        ((retireRuleIf now ruleId check edits).run fault db)) ↔
      ∀ rule t, Retirable ruleId check db rule → settlementTarget rule db = some t →
        OpenPosition t db → ∃ r ∈ edits db.forwardRules, stillAsRead rule r := by
  constructor
  · intro hall rule t hret htarget hopen
    by_contra hmiss
    -- without faults the call comes back, so its answer is there to look at
    have hcomp : Completes (retireRuleIf now ruleId check edits) db := by
      apply completes_retireRuleIf
      intro current hcur
      obtain rfl : current = rule := Option.some.inj (hcur.1.symm.trans hret.1)
      exact completes_settleRule htarget hopen.2.1
    obtain ⟨b, db', hrun⟩ := hcomp.run_eq
    obtain ⟨rfl, hmoved⟩ :=
      answers_false_settled (Returns.of_run hrun) hret htarget hopen hmiss
    have hatom := hall fun _ => none
    rw [hrun] at hatom
    exact hmoved hatom
  · intro hcond fault
    rcases hrun : (retireRuleIf now ruleId check edits).run fault db with ⟨answer, db'⟩
    cases answer with
    | ok b => exact retiresAtomically_of_returns (Returns.of_run hrun) hcond
    | error e =>
      obtain rfl := failsClean_retireRuleIf.run_error hrun
      exact SameBooks.refl _

def halfUsedRule : Database where
  users := [{ id := 7, balanceCents := 500 }]
  trafficBillingEnabled := true
  trafficBillingConfigs :=
    [{ resourceType := .host, resourceId := 1, pricePerGbMilliCents := 100000 }]
  trafficBillingRuleUsage :=
    [{ userId := 7, ruleId := 3, resourceType := .host, resourceId := 1, totalBytes := 536870912,
       billedGb := 0, pendingMilliCents := 0, settled := false, updatedAt := 10 }]
  forwardRules := [{ id := 3, userId := 7, hostId := 1, updatedAt := 10 }]

/-- Another request saves the rule a second after it was read. -/
def savedMeanwhile : List ForwardRule → List ForwardRule :=
  List.map fun r => { r with updatedAt := 20 }

theorem settled_but_not_retired :
    ¬ ∀ fault, RetiresAtomically 20000 3 halfUsedRule
      ((retireRuleIf 20000 3 (fun _ => true) savedMeanwhile).run fault halfUsedRule) := by
  intro hall
  have hrun : ((retireRuleIf 20000 3 (fun _ => true) savedMeanwhile).run
      (fun _ => none) halfUsedRule).1.toOption = some false ∧
    ((retireRuleIf 20000 3 (fun _ => true) savedMeanwhile).run
      (fun _ => none) halfUsedRule).2.users = [{ id := 7, balanceCents := 450 }] := by
    decide +kernel
  have hatom := hall fun _ => none
  rcases h : (retireRuleIf 20000 3 (fun _ => true) savedMeanwhile).run
    (fun _ => none) halfUsedRule with ⟨answer, db'⟩
  rw [h] at hatom hrun
  obtain ⟨hanswer, husers⟩ := hrun
  cases answer with
  | error e => cases hanswer
  | ok b =>
    obtain rfl : b = false := Option.some.inj hanswer
    have hsame : db'.users = halfUsedRule.users := SameBooks.users hatom
    rw [husers] at hsame
    exact absurd hsame (by decide)

end ForwardX.Panel
