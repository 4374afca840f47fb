/-
What traffic billing charges over many calls.

A report is billed by the whole gigabytes that it completes; the bytes beyond them wait for the next
one. All results come from one formula for what a rule has paid and still owes.
-/
import ForwardX.Lib.Run
import ForwardX.Panel.TrafficBilling

namespace ForwardX.Panel

open Table Tx Run Call TrafficBillingRuleUsage List

/-! ## Reports

The route that receives a traffic report writes the statistics first and bills
then, in one transaction. -/

structure Report where
  now : ℤ
  bytesIn : ℤ
  bytesOut : ℤ

def Report.bytes (rep : Report) : ℤ := rep.bytesIn + rep.bytesOut

def insertTrafficStat (ruleId : ℤ) (rep : Report) (db : Database) : Database :=
  { db with trafficStats := db.trafficStats ++ [⟨ruleId, rep.bytesIn, rep.bytesOut⟩] }

def reportUsage (t : BillingTarget) (rep : Report) : Db (Option ChargeResult) :=
  withDatabaseTransaction do
    execute (insertTrafficStat t.ruleId rep)
    billTrafficUsage rep.now t rep.bytes

def startPosition (db : Database) (t : BillingTarget) : RulePosition := rulePosition db t 0

theorem rulePosition_insertTrafficStat (db : Database) (t : BillingTarget) (rep : Report) :
    rulePosition (insertTrafficStat t.ruleId rep db) t rep.bytes = startPosition db t := by
  have hstats : getHistoricalRuleTrafficBytes t.ruleId (insertTrafficStat t.ruleId rep db)
      = getHistoricalRuleTrafficBytes t.ruleId db + rep.bytes := by
    simp [getHistoricalRuleTrafficBytes, insertTrafficStat, Report.bytes]
  have hrow : ∀ b, rulePosition (insertTrafficStat t.ruleId rep db) t b
      = rulePosition db t (b - rep.bytes) := by
    intro b
    simp only [rulePosition, hstats]
    have hsub : getHistoricalRuleTrafficBytes t.ruleId db + rep.bytes - b
        = getHistoricalRuleTrafficBytes t.ruleId db - (b - rep.bytes) := by ring
    rw [hsub]
    rfl
  rw [hrow, sub_self]
  rfl

/-! ## Amounts -/

section

variable {price multiplier : ℤ}

/-- The price of a gigabyte in hundred-thousandths of a cent. -/
def unitPrice (price multiplier : ℤ) : ℤ :=
  normalizePrice price * normalizeTrafficMultiplier multiplier

theorem unitPrice_nonneg (price multiplier : ℤ) : 0 ≤ unitPrice price multiplier := by
  apply mul_nonneg
  · exact le_max_left _ _
  · simp only [normalizeTrafficMultiplier]; omega

theorem unitPrice_eq (hprice : 0 < price) (hm : 1 ≤ multiplier ∧ multiplier ≤ 5000) :
    unitPrice price multiplier = price * multiplier := by
  have h₁ : normalizePrice price = price := by simp only [normalizePrice]; omega
  have h₂ : normalizeTrafficMultiplier multiplier = multiplier := by
    simp only [normalizeTrafficMultiplier]; omega
  rw [unitPrice, h₁, h₂]

theorem effectiveAmountCentsForGb_eq {gb : ℤ} (hgb : 0 ≤ gb) :
    effectiveAmountCentsForGb gb price multiplier
      = gb * unitPrice price multiplier / billingDenominator := by
  rw [effectiveAmountCentsForGb, max_eq_right hgb, mul_assoc, unitPrice]

theorem effectiveAmountCentsForBytes_eq {bytes : ℤ} (hbytes : 0 ≤ bytes) :
    effectiveAmountCentsForBytes bytes price multiplier
      = bytes * unitPrice price multiplier / (gbBytes * billingDenominator) := by
  rw [effectiveAmountCentsForBytes, max_eq_right hbytes, mul_assoc, unitPrice]

theorem effectiveAmountCentsForGb_nonneg (gb : ℤ) : 0 ≤ effectiveAmountCentsForGb gb price multiplier := by
  rw [effectiveAmountCentsForGb, mul_assoc]
  exact Int.ediv_nonneg (mul_nonneg (le_max_left _ _) (unitPrice_nonneg price multiplier)) (by decide)

theorem effectiveAmountCentsForBytes_nonneg (bytes : ℤ) :
    0 ≤ effectiveAmountCentsForBytes bytes price multiplier := by
  rw [effectiveAmountCentsForBytes, mul_assoc]
  exact Int.ediv_nonneg (mul_nonneg (le_max_left _ _) (unitPrice_nonneg price multiplier)) (by decide)

theorem billedFullGb_nonneg (b : ℤ) : 0 ≤ billedFullGb b := le_max_left _ _

theorem billedFullGb_mono {a b : ℤ} (h : a ≤ b) : billedFullGb a ≤ billedFullGb b := by
  apply max_le_max (le_refl _)
  exact Int.ediv_le_ediv (by decide) (max_le_max (le_refl _) h)

theorem newlyBilledGb_nonneg (p : RulePosition) (b : ℤ) : 0 ≤ p.newlyBilledGb b := le_max_left _ _

theorem newlyBilledGb_add (p : RulePosition) {b b' : ℤ} (hb' : 0 ≤ b') :
    p.newlyBilledGb b + (p.advance b).newlyBilledGb b' = p.newlyBilledGb (b + b') := by
  have hmono : billedFullGb (p.totalBytes + b) ≤ billedFullGb (p.totalBytes + b + b') :=
    billedFullGb_mono (by omega)
  simp only [RulePosition.newlyBilledGb, RulePosition.advance, ← add_assoc]
  omega

end

/-! ## One report -/

/-- The rule is billed, at this price and multiplier. -/
structure Tariff (t : BillingTarget) (price multiplier : ℤ) (db : Database) : Prop where
  enabled : db.trafficBillingEnabled
  price_eq : billingPrice t.resource db = price
  multiplier_eq : billingMultiplier t.resource db = multiplier

theorem Tariff.of_same {t : BillingTarget} {price multiplier : ℤ} {db db' : Database}
    (h : Tariff t price multiplier db) (hs : SameTariff db db') : Tariff t price multiplier db' :=
  ⟨hs.enabled.trans h.enabled, (hs.billingPrice_eq _).trans h.price_eq,
    (hs.billingMultiplier_eq _).trans h.multiplier_eq⟩

theorem key_ruleUsageRow (now : ℤ) (t : BillingTarget) (p : RulePosition) :
    (ruleUsageRow now t p).key = t.ruleKey := rfl

section

variable {t : BillingTarget} {price multiplier : ℤ} {db db' : Database} {rep : Report}
  {r : Option ChargeResult}

theorem reportUsage_spec (ht : Tariff t price multiplier db) (hprice : 0 < price)
    (hbytes : 0 < rep.bytes) (h : Returns (reportUsage t rep) db r db') :
    chargedCents r ≤ effectiveAmountCentsForGb ((startPosition db t).newlyBilledGb rep.bytes)
        price multiplier ∧
      ((db.user? t.userId).isSome → chargedCents r =
        effectiveAmountCentsForGb ((startPosition db t).newlyBilledGb rep.bytes) price multiplier) ∧
      OnlyCharges (recordedUsage rep.now t rep.bytes (insertTrafficStat t.ruleId rep db)) db' := by
  have hsame : SameTariff db (insertTrafficStat t.ruleId rep db) := ⟨rfl, rfl, rfl, rfl⟩
  have ht' := ht.of_same hsame
  rw [← rulePosition_insertTrafficStat db t rep]
  obtain ⟨hnot, -, -⟩ | ⟨-, -, hcases⟩ := billTrafficUsage_spec h.of_transaction.bind_execute
  · exact absurd ⟨hbytes, ht'.enabled, by rw [ht'.price_eq]; exact hprice⟩ hnot
  rw [ht'.price_eq, ht'.multiplier_eq] at hcases
  obtain ⟨hgb, rfl, rfl⟩ | ⟨-, hcharge⟩ := hcases
  · -- no gigabyte completed: nothing is charged, and nothing would be
    have hzero : (rulePosition (insertTrafficStat t.ruleId rep db) t rep.bytes).newlyBilledGb rep.bytes
        = 0 := le_antisymm hgb (newlyBilledGb_nonneg _ _)
    have hfree : effectiveAmountCentsForGb 0 price multiplier = 0 := by
      rw [effectiveAmountCentsForGb_eq (le_refl 0), zero_mul, Int.zero_ediv]
    rw [hzero, hfree]
    exact ⟨le_refl _, fun _ => rfl, ⟨⟨rfl, rfl, rfl, rfl⟩, rfl, rfl, rfl, fun _ => rfl⟩⟩
  · exact charge_spec hcharge (effectiveAmountCentsForGb_nonneg _)

theorem byKey_of_onlyCharges {now bytes : ℤ} {db₀ : Database}
    (h : OnlyCharges (recordedUsage now t bytes db₀) db') :
    byKey key t.ruleKey db'.trafficBillingRuleUsage
      = some (ruleUsageRow now t ((rulePosition db₀ t bytes).advance bytes)) := by
  rw [h.ruleUsage]
  show byKey key t.ruleKey (upsert key _ _) = _
  rw [byKey_upsert, if_pos (key_ruleUsageRow _ _ _).symm]

theorem startPosition_of_onlyCharges
    (h : OnlyCharges (recordedUsage rep.now t rep.bytes (insertTrafficStat t.ruleId rep db)) db') :
    startPosition db' t = (startPosition db t).advance rep.bytes := by
  rw [startPosition, rulePosition, byKey_of_onlyCharges h, rulePosition_insertTrafficStat]
  rfl

theorem completes_reportUsage (hu : (db.user? t.userId).isSome) : Completes (reportUsage t rep) db := by
  apply Completes.transaction
  apply (completes_execute _).bind
  intro x db₁ hstat
  obtain rfl := hstat.of_execute
  apply Completes.transaction
  apply completes_ite <;> intro _
  · exact completes_pure _
  apply (completes_query _).bind
  intro enabled db₂ henabled
  obtain ⟨rfl, rfl⟩ := henabled.of_query
  apply completes_ite <;> intro _
  · exact completes_pure _
  apply (completes_query _).bind
  intro _ db₃ hprice
  obtain ⟨-, rfl⟩ := hprice.of_query
  apply completes_ite <;> intro _
  · exact completes_pure _
  -- the only exception of the function is a user who is gone
  have hu' : ((insertTrafficStat t.ruleId rep db).user? t.userId).isSome := hu
  apply (completes_lockTrafficBillingUserRows fun _ => hu').bind
  intro _ _ _
  apply (completes_query _).bind
  intro _ _ _
  apply (completes_query _).bind
  intro _ _ _
  apply (completes_query _).bind
  intro _ _ _
  apply (completes_execute _).bind
  intro _ _ _
  apply (completes_execute _).bind
  intro _ _ _
  apply completes_ite <;> intro _
  · exact completes_pure _
  · exact completes_insertTrafficBillingCharge

end

/-! ## A rule's traffic in one report or in many -/

/-- The reports of one rule, in order, and the cents they charge together. -/
def reportAll (t : BillingTarget) : List Report → Db ℤ
  | [] => pure 0
  | rep :: reps => do
    let r ← reportUsage t rep
    let rest ← reportAll t reps
    pure (chargedCents r + rest)

/-- The same total, from the positions alone. -/
def chargesFrom (price multiplier : ℤ) : RulePosition → List ℤ → ℤ
  | _, [] => 0
  | p, b :: bs => effectiveAmountCentsForGb (p.newlyBilledGb b) price multiplier
      + chargesFrom price multiplier (p.advance b) bs

section

variable {t : BillingTarget} {price multiplier : ℤ} {db : Database}

theorem reportAll_spec (hprice : 0 < price) (reps : List Report) (hreps : ∀ rep ∈ reps, 0 < rep.bytes) :
    ∀ {db : Database} {total : ℤ} {db' : Database}, Tariff t price multiplier db →
      (db.user? t.userId).isSome → Returns (reportAll t reps) db total db' →
      total = chargesFrom price multiplier (startPosition db t) (reps.map Report.bytes) := by
  induction reps with
  | nil =>
    intro db total db' _ _ h
    exact h.of_pure.1
  | cons rep reps ih =>
    intro db total db' ht hu h
    obtain ⟨r, db₁, hrep, hcont⟩ := h.of_bind
    obtain ⟨rest, db₂, hrest, hsum⟩ := hcont.of_bind
    obtain ⟨rfl, -⟩ := hsum.of_pure
    obtain ⟨-, hcharge, honly⟩ :=
      reportUsage_spec ht hprice (hreps rep mem_cons_self) hrep
    have ht₁ : Tariff t price multiplier db₁ :=
      ht.of_same ⟨honly.enabled, honly.configs, honly.tunnels, honly.groups⟩
    have hu₁ : (db₁.user? t.userId).isSome := by rw [honly.users]; exact hu
    have htail := ih (fun rep' hrep' => hreps rep' (mem_cons_of_mem _ hrep')) ht₁ hu₁ hrest
    rw [hcharge hu, htail, startPosition_of_onlyCharges honly]
    rfl

theorem completes_reportAll (hprice : 0 < price) (reps : List Report) (hreps : ∀ rep ∈ reps, 0 < rep.bytes) :
    ∀ {db : Database}, Tariff t price multiplier db → (db.user? t.userId).isSome →
      Completes (reportAll t reps) db := by
  induction reps with
  | nil =>
    intro db _ _
    exact completes_pure _
  | cons rep reps ih =>
    intro db ht hu
    apply (completes_reportUsage hu).bind
    intro r db₁ hrep
    obtain ⟨-, -, honly⟩ := reportUsage_spec ht hprice (hreps rep mem_cons_self) hrep
    have htail := ih (fun rep' hrep' => hreps rep' (mem_cons_of_mem _ hrep'))
      (ht.of_same ⟨honly.enabled, honly.configs, honly.tunnels, honly.groups⟩)
      (by rw [honly.users]; exact hu)
    apply htail.bind
    intro _ _ _
    exact completes_pure _

theorem effectiveAmountCentsForGb_add (hdvd : billingDenominator ∣ unitPrice price multiplier)
    {g g' : ℤ} (hg : 0 ≤ g) (hg' : 0 ≤ g') :
    effectiveAmountCentsForGb g price multiplier + effectiveAmountCentsForGb g' price multiplier
      = effectiveAmountCentsForGb (g + g') price multiplier := by
  rw [effectiveAmountCentsForGb_eq hg, effectiveAmountCentsForGb_eq hg',
    effectiveAmountCentsForGb_eq (add_nonneg hg hg'), add_mul]
  exact (Int.add_ediv_of_dvd_left (hdvd.mul_left g)).symm

theorem chargesFrom_of_dvd (hdvd : billingDenominator ∣ unitPrice price multiplier) (bs : List ℤ)
    (hne : bs ≠ []) (hbs : ∀ b ∈ bs, 0 < b) : ∀ p : RulePosition,
      chargesFrom price multiplier p bs
        = effectiveAmountCentsForGb (p.newlyBilledGb bs.sum) price multiplier := by
  induction bs with
  | nil => exact absurd rfl hne
  | cons b bs ih =>
    intro p
    by_cases htail : bs = []
    · simp [htail, chargesFrom]
    · have hpos : ∀ b' ∈ bs, 0 < b' := fun b' hb' => hbs b' (mem_cons_of_mem _ hb')
      have hsum : 0 ≤ bs.sum := sum_nonneg fun b' hb' => (hpos b' hb').le
      rw [chargesFrom, ih htail hpos, sum_cons, ← newlyBilledGb_add p hsum]
      exact effectiveAmountCentsForGb_add hdvd (newlyBilledGb_nonneg _ _) (newlyBilledGb_nonneg _ _)

theorem effectiveAmountCentsForGb_add_bounds (price multiplier : ℤ) {g g' : ℤ} (hg : 0 ≤ g)
    (hg' : 0 ≤ g') :
    effectiveAmountCentsForGb g price multiplier + effectiveAmountCentsForGb g' price multiplier
        ≤ effectiveAmountCentsForGb (g + g') price multiplier ∧
      effectiveAmountCentsForGb (g + g') price multiplier ≤ effectiveAmountCentsForGb g price multiplier
        + effectiveAmountCentsForGb g' price multiplier + 1 := by
  rw [effectiveAmountCentsForGb_eq hg, effectiveAmountCentsForGb_eq hg',
    effectiveAmountCentsForGb_eq (add_nonneg hg hg'), add_mul]
  generalize g * unitPrice price multiplier = x
  generalize g' * unitPrice price multiplier = y
  unfold billingDenominator milliCentsPerCent
  omega

theorem chargesFrom_bounds (price multiplier : ℤ) (bs : List ℤ) (hne : bs ≠ [])
    (hbs : ∀ b ∈ bs, 0 < b) : ∀ p : RulePosition,
    chargesFrom price multiplier p bs
        ≤ effectiveAmountCentsForGb (p.newlyBilledGb bs.sum) price multiplier ∧
      effectiveAmountCentsForGb (p.newlyBilledGb bs.sum) price multiplier
        < chargesFrom price multiplier p bs + bs.length := by
  induction bs with
  | nil => exact absurd rfl hne
  | cons b bs ih =>
    intro p
    by_cases htail : bs = []
    · simp [htail, chargesFrom]
    · have hpos : ∀ b' ∈ bs, 0 < b' := fun b' hb' => hbs b' (mem_cons_of_mem _ hb')
      have hsum : 0 ≤ bs.sum := sum_nonneg fun b' hb' => (hpos b' hb').le
      obtain ⟨hle, hlt⟩ := ih htail hpos (p.advance b)
      have hadd := effectiveAmountCentsForGb_add_bounds price multiplier
        (newlyBilledGb_nonneg p b) (newlyBilledGb_nonneg (p.advance b) bs.sum)
      rw [newlyBilledGb_add p hsum] at hadd
      rw [chargesFrom, sum_cons, length_cons]
      push_cast
      omega

theorem chargesFrom_replicate (n : ℕ) : ∀ k : ℤ, 0 ≤ k →
    chargesFrom price multiplier ⟨k * gbBytes, k⟩ (List.replicate n gbBytes)
      = n * effectiveAmountCentsForGb 1 price multiplier := by
  induction n with
  | zero =>
    intro k _
    simp [chargesFrom]
  | succ n ih =>
    intro k hk
    have hfull : billedFullGb (k * gbBytes + gbBytes) = k + 1 := by
      simp only [billedFullGb, gbBytes]
      omega
    have hnew : RulePosition.newlyBilledGb ⟨k * gbBytes, k⟩ gbBytes = 1 := by
      simp only [RulePosition.newlyBilledGb, hfull]
      omega
    have hnext : RulePosition.advance ⟨k * gbBytes, k⟩ gbBytes = ⟨(k + 1) * gbBytes, k + 1⟩ := by
      simp only [RulePosition.advance, hfull, RulePosition.mk.injEq]
      constructor
      · ring
      · omega
    rw [replicate_succ, chargesFrom, hnew, hnext, ih (k + 1) (by omega)]
    push_cast
    ring

def noFault : ℕ → Option String := fun _ => none

/-- The reports charge, within less than a cent, what one report of all their
bytes charges. -/
def SplitInvariant (t : BillingTarget) (reps : List Report) (single : Report) (db : Database) : Prop :=
  ∃ total db₁ one db₂, (reportAll t reps).run noFault db = (.ok total, db₁) ∧
    (reportAll t [single]).run noFault db = (.ok one, db₂) ∧ |total - one| < 1

section

variable {reps : List Report} {single : Report} (ht : Tariff t price multiplier db) (hprice : 0 < price)
  (hu : (db.user? t.userId).isSome) (hreps : ∀ rep ∈ reps, 0 < rep.bytes)
  (hsingle : single.bytes = (reps.map Report.bytes).sum) (hne : reps ≠ [])

include ht hprice hu hreps hsingle hne

theorem reportAll_run : ∃ db₁ db₂,
    (reportAll t reps).run noFault db
        = (.ok (chargesFrom price multiplier (startPosition db t) (reps.map Report.bytes)), db₁) ∧
      (reportAll t [single]).run noFault db
        = (.ok (effectiveAmountCentsForGb
            ((startPosition db t).newlyBilledGb (reps.map Report.bytes).sum) price multiplier), db₂) := by
  have hpos : ∀ rep ∈ [single], 0 < rep.bytes := by
    intro rep hrep
    rw [mem_singleton] at hrep
    rw [hrep, hsingle]
    obtain ⟨rep₀, rest, rfl⟩ := exists_cons_of_ne_nil hne
    have hrest : 0 ≤ (rest.map Report.bytes).sum := by
      apply sum_nonneg
      simp only [mem_map]
      rintro _ ⟨rep', hrep', rfl⟩
      exact (hreps rep' (mem_cons_of_mem _ hrep')).le
    have hhead := hreps rep₀ mem_cons_self
    simp only [map_cons, sum_cons]
    omega
  obtain ⟨total, db₁, htotal⟩ := (completes_reportAll hprice reps hreps ht hu).run_eq
  obtain ⟨one, db₂, hone⟩ := (completes_reportAll hprice [single] hpos ht hu).run_eq
  have htot := reportAll_spec hprice reps hreps ht hu (.of_run htotal)
  have hon := reportAll_spec hprice [single] hpos ht hu (.of_run hone)
  simp only [map_cons, map_nil, chargesFrom, add_zero, hsingle] at hon
  rw [← htot, ← hon]
  exact ⟨db₁, db₂, htotal, hone⟩

theorem splitInvariant_iff : SplitInvariant t reps single db ↔
    chargesFrom price multiplier (startPosition db t) (reps.map Report.bytes)
      = effectiveAmountCentsForGb
          ((startPosition db t).newlyBilledGb (reps.map Report.bytes).sum) price multiplier := by
  obtain ⟨db₁, db₂, htotal, hone⟩ := reportAll_run ht hprice hu hreps hsingle hne
  constructor
  · rintro ⟨total', db₁', one', db₂', htotal', hone', hlt⟩
    have h₁ := htotal.symm.trans htotal'
    have h₂ := hone.symm.trans hone'
    simp only [Prod.mk.injEq, Except.ok.injEq] at h₁ h₂
    rw [← h₁.1, ← h₂.1, Int.abs_lt_one_iff] at hlt
    omega
  · intro heq
    exact ⟨_, db₁, _, db₂, htotal, hone, by rw [heq, sub_self, abs_zero]; exact one_pos⟩

/-- **What splitting costs the operator.** Cut into reports, the traffic is never charged more than in
one, and each report loses less than a cent. -/
theorem split_loses_under_a_cent_each : ∃ total db₁ one db₂,
    (reportAll t reps).run noFault db = (.ok total, db₁) ∧
      (reportAll t [single]).run noFault db = (.ok one, db₂) ∧
      total ≤ one ∧ one < total + reps.length := by
  obtain ⟨db₁, db₂, htotal, hone⟩ := reportAll_run ht hprice hu hreps hsingle hne
  have hbounds := chargesFrom_bounds price multiplier
    (reps.map Report.bytes) (by simpa using hne) (by simpa using hreps) (startPosition db t)
  rw [List.length_map] at hbounds
  exact ⟨_, db₁, _, db₂, htotal, hone, hbounds⟩

end

theorem splitInvariant_nil (hu : (db.user? t.userId).isSome) {single : Report}
    (hsingle : single.bytes = 0) : SplitInvariant t [] single db := by
  have hcomp : Completes (reportAll t [single]) db := by
    apply (completes_reportUsage hu).bind
    intro r db₁ _
    apply (completes_pure _).bind
    intro _ _ _
    exact completes_pure _
  obtain ⟨one, db₂, hone⟩ := hcomp.run_eq
  obtain ⟨r, db₃, hrep, hrest⟩ := (Returns.of_run hone).of_bind
  obtain ⟨rest, db₄, hnil, hsum⟩ := hrest.of_bind
  obtain ⟨rfl, -⟩ := hsum.of_pure
  obtain ⟨rfl, -⟩ := hnil.of_pure
  obtain ⟨-, rfl, -⟩ | ⟨hb, -⟩ := billTrafficUsage_spec hrep.of_transaction.bind_execute
  · exact ⟨0, db, _, db₂, rfl, hone, by decide⟩
  · have hbytes := hb.1
    omega

end

/-- A host that costs `price` a gigabyte, and its only customer. -/
def hostTariff (price multiplier : ℤ) : Database :=
  { users := [{ id := 1, balanceCents := 100000 }]
    trafficBillingEnabled := true
    trafficBillingConfigs :=
      [{ resourceType := .host, resourceId := 7, pricePerGbMilliCents := price, multiplier }] }

def hostTarget : BillingTarget := ⟨1, 5, (.host, 7)⟩

theorem tariff_hostTariff {price multiplier : ℤ} (hprice : 0 < price)
    (hm : 1 ≤ multiplier ∧ multiplier ≤ 5000) :
    Tariff hostTarget price multiplier (hostTariff price multiplier) := by
  have hfind : findTrafficBillingConfig hostTarget.resource (hostTariff price multiplier)
      = some { resourceType := .host, resourceId := 7, pricePerGbMilliCents := price, multiplier } := by
    simp [findTrafficBillingConfig, hostTariff, hostTarget, TrafficBillingConfig.key]
  refine ⟨rfl, ?_, ?_⟩
  · simp only [billingPrice, hfind, Option.map_some, Option.getD_some, configPriceMilliCents,
      normalizePrice]
    omega
  · rw [billingMultiplier, hfind]
    simp only [hostTarget, getBillingResourceMultiplier, Option.map_some, Option.getD_some,
      orElseZero, normalizeTrafficMultiplier]
    omega

/-- **Splitting a rule's traffic into reports changes what it costs, unless a
gigabyte costs whole cents.** At a given price and multiplier, every way to cut
the traffic charges the same as a single report exactly when the price times the
multiplier is a multiple of a hundred thousand. -/
theorem split_invariant_iff_whole_cents (price multiplier : ℤ) (hprice : 0 < price)
    (hm : 1 ≤ multiplier ∧ multiplier ≤ 5000) :
    (∀ (db : Database) (t : BillingTarget) (reps : List Report) (single : Report),
      Tariff t price multiplier db → (db.user? t.userId).isSome →
      (∀ rep ∈ reps, 0 < rep.bytes) → single.bytes = (reps.map Report.bytes).sum →
      SplitInvariant t reps single db) ↔ billingDenominator ∣ price * multiplier := by
  rw [← unitPrice_eq hprice hm]
  constructor
  · intro hall
    -- a hundred thousand reports of one gigabyte each, against one of them all
    let reps : List Report := List.replicate 100000 ⟨0, gbBytes, 0⟩
    have hreps : ∀ rep ∈ reps, 0 < rep.bytes := by
      intro rep hrep
      rw [List.eq_of_mem_replicate hrep]
      decide
    have hbytes : reps.map Report.bytes = List.replicate 100000 gbBytes := List.map_replicate
    have hsum : (List.replicate 100000 gbBytes).sum = 100000 * gbBytes := by
      rw [List.sum_replicate]; rfl
    have ht := tariff_hostTariff hprice hm
    have hne : reps ≠ [] := by
      intro hnil
      have hlen := congrArg List.length hnil
      rw [List.length_replicate, List.length_nil] at hlen
      omega
    have hsplit := hall (hostTariff price multiplier) hostTarget reps ⟨0, 100000 * gbBytes, 0⟩ ht rfl
      hreps (by rw [hbytes, hsum]; rfl)
    rw [splitInvariant_iff ht hprice rfl hreps (by rw [hbytes, hsum]; rfl) hne, hbytes, hsum] at hsplit
    have hstart : startPosition (hostTariff price multiplier) hostTarget = ⟨0 * gbBytes, 0⟩ := rfl
    rw [hstart, chargesFrom_replicate _ _ (le_refl 0)] at hsplit
    have hnew : RulePosition.newlyBilledGb ⟨0 * gbBytes, 0⟩ (100000 * gbBytes) = 100000 := by decide
    rw [hnew, effectiveAmountCentsForGb_eq (by decide), effectiveAmountCentsForGb_eq (by decide),
      one_mul] at hsplit
    have hcancel : (100000 : ℤ) * unitPrice price multiplier / billingDenominator
        = unitPrice price multiplier := Int.mul_ediv_cancel_left _ (by decide)
    rw [hcancel] at hsplit
    exact ⟨_, hsplit.symm⟩
  · intro hdvd db t reps single ht hu hreps hsingle
    by_cases hne : reps = []
    · subst hne
      exact splitInvariant_nil hu hsingle
    · rw [splitInvariant_iff ht hprice hu hreps hsingle hne]
      apply chargesFrom_of_dvd hdvd
      · simpa using hne
      · simp only [List.mem_map]
        rintro _ ⟨rep, hrep, rfl⟩
        exact hreps rep hrep

theorem split_invariant_at_one_cent :
    SplitInvariant hostTarget [⟨0, 500, 0⟩, ⟨1, gbBytes, 7⟩, ⟨2, 3 * gbBytes, 0⟩]
      ⟨3, 4 * gbBytes, 507⟩ (hostTariff 1000 100) :=
  (split_invariant_iff_whole_cents 1000 100 (by decide) (by decide)).mpr (by decide) _ _ _ _
    (tariff_hostTariff (by decide) (by decide)) rfl (by decide) (by decide)

/-- Half a cent a gigabyte: two reports of a gigabyte are free, one of two costs a cent. -/
theorem split_charges_differ :
    ¬ SplitInvariant hostTarget [⟨0, gbBytes, 0⟩, ⟨1, gbBytes, 0⟩] ⟨1, 2 * gbBytes, 0⟩
      (hostTariff 500 100) := by
  rw [splitInvariant_iff (tariff_hostTariff (by decide) (by decide)) (by decide) rfl (by decide)
    (by decide) (by decide)]
  decide

theorem split_loses_under_a_cent_each_at_half_a_cent : ∃ total db₁ one db₂,
    (reportAll hostTarget [⟨0, gbBytes, 0⟩, ⟨1, gbBytes, 0⟩]).run noFault (hostTariff 500 100)
        = (.ok total, db₁) ∧
      (reportAll hostTarget [⟨1, 2 * gbBytes, 0⟩]).run noFault (hostTariff 500 100) = (.ok one, db₂) ∧
      total ≤ one ∧ one < total + 2 :=
  split_loses_under_a_cent_each (tariff_hostTariff (by decide) (by decide)) (by decide) rfl (by decide)
    (by decide) (by decide)

/-! ## Reports and settlements of one rule -/

/-- The database, the cents charged for the rule so far, and its billed bytes. -/
structure BillingRun where
  db : Database
  chargedCents : ℤ
  billedBytes : ℤ

/-- A report or a settlement, with the statements the database refuses in it. -/
inductive BillingEvent where
  | usage (rep : Report) (fault : ℕ → Option String)
  | settle (now : ℤ) (fault : ℕ → Option String)

/-- A call that fails charges nothing; its database is what the transaction left. -/
def BillingRun.step (t : BillingTarget) (s : BillingRun) : BillingEvent → BillingRun
  | .usage rep fault =>
    match (reportUsage t rep).run fault s.db with
    | (.ok r, db) => ⟨db, s.chargedCents + Panel.chargedCents r, s.billedBytes + max 0 rep.bytes⟩
    | (.error _, db) => { s with db }
  | .settle now fault =>
    match (settleTrafficBillingRuleOnDelete now t).run fault s.db with
    | (.ok r, db) => { s with db, chargedCents := s.chargedCents + Panel.chargedCents r }
    | (.error _, db) => { s with db }

/-- The rule has neither a position nor statistics yet. -/
def NoHistory (t : BillingTarget) (db : Database) : Prop :=
  ruleUsages t.ruleId db = [] ∧ getHistoricalRuleTrafficBytes t.ruleId db = 0

instance (t : BillingTarget) (db : Database) : Decidable (NoHistory t db) :=
  inferInstanceAs (Decidable (_ ∧ _))

/-- A report comes while the position is open, or while what a settlement charged
for it is nothing. -/
def ReportsBeforeSettlement (t : BillingTarget) (price multiplier : ℤ) (s : BillingRun) :
    BillingEvent → Prop
  | .usage _ _ => ∀ row ∈ ruleUsages t.ruleId s.db, row.settled →
      effectiveAmountCentsForBytes row.remainingBytes price multiplier = 0
  | .settle _ _ => True

instance (t : BillingTarget) (price multiplier : ℤ) (s : BillingRun) :
    ∀ e, Decidable (ReportsBeforeSettlement t price multiplier s e)
  | .usage _ _ => inferInstanceAs (Decidable (∀ row ∈ ruleUsages t.ruleId s.db, row.settled →
      effectiveAmountCentsForBytes row.remainingBytes price multiplier = 0))
  | .settle _ _ => .isTrue trivial

/-- The only position of the rule, and a bound on what was charged for it: the
completed gigabytes, and the bytes past them once they are settled. -/
structure Metered (t : BillingTarget) (price multiplier charged bytes : ℤ)
    (row : TrafficBillingRuleUsage) : Prop where
  key_eq : row.key = t.ruleKey
  totalBytes_eq : row.totalBytes = bytes
  billedGb_eq : row.billedGb = billedFullGb bytes
  bytes_nonneg : 0 ≤ bytes
  charged_le : charged ≤ effectiveAmountCentsForGb row.billedGb price multiplier +
    if row.settled then effectiveAmountCentsForBytes row.remainingBytes price multiplier else 0

structure BillingRun.Inv (t : BillingTarget) (price multiplier : ℤ) (s : BillingRun) : Prop where
  tariff : Tariff t price multiplier s.db
  rows : (ruleUsages t.ruleId s.db = [] ∧ getHistoricalRuleTrafficBytes t.ruleId s.db ≤ 0 ∧
      s.chargedCents = 0 ∧ s.billedBytes = 0) ∨
    ∃ row, ruleUsages t.ruleId s.db = [row] ∧
      Metered t price multiplier s.chargedCents s.billedBytes row

section

variable {t : BillingTarget} {price multiplier : ℤ} {db db' : Database}

theorem effectiveAmountCents_add_le {gb rest : ℤ} (hgb : 0 ≤ gb) (hrest : 0 ≤ rest) :
    effectiveAmountCentsForGb gb price multiplier + effectiveAmountCentsForBytes rest price multiplier
      ≤ effectiveAmountCentsForBytes (gb * gbBytes + rest) price multiplier := by
  have hG : (0 : ℤ) < gbBytes := by decide
  have hD : (0 : ℤ) < gbBytes * billingDenominator := by decide
  rw [effectiveAmountCentsForGb_eq hgb, effectiveAmountCentsForBytes_eq hrest,
    effectiveAmountCentsForBytes_eq (by positivity), Int.le_ediv_iff_mul_le hD]
  have h₁ := Int.ediv_mul_le (gb * unitPrice price multiplier) (b := billingDenominator) (by decide)
  have h₂ := Int.ediv_mul_le (rest * unitPrice price multiplier)
    (b := gbBytes * billingDenominator) (by decide)
  have h₃ := mul_le_mul_of_nonneg_right h₁ hG.le
  calc _ = gb * unitPrice price multiplier / billingDenominator * billingDenominator * gbBytes
        + rest * unitPrice price multiplier / (gbBytes * billingDenominator)
          * (gbBytes * billingDenominator) := by ring
    _ ≤ gb * unitPrice price multiplier * gbBytes + rest * unitPrice price multiplier :=
        add_le_add h₃ h₂
    _ = _ := by ring

variable {row : TrafficBillingRuleUsage}

section

variable {charged bytes : ℤ} (h : Metered t price multiplier charged bytes row)

include h

theorem Metered.bytes_split : bytes = row.billedGb * gbBytes + row.remainingBytes ∧ 0 ≤ row.remainingBytes := by
  have hb := h.bytes_nonneg
  simp only [remainingBytes, h.totalBytes_eq, h.billedGb_eq, billedFullGb,
    gbBytes]
  omega

theorem Metered.charged_le_price : charged ≤ effectiveAmountCentsForBytes bytes price multiplier := by
  obtain ⟨hbytes, hrest⟩ := h.bytes_split
  have hgb : 0 ≤ row.billedGb := by rw [h.billedGb_eq]; exact billedFullGb_nonneg _
  have hle : _ ≤ effectiveAmountCentsForBytes _ price multiplier :=
    effectiveAmountCents_add_le hgb hrest
  have hnn : 0 ≤ effectiveAmountCentsForBytes row.remainingBytes price multiplier :=
    effectiveAmountCentsForBytes_nonneg _
  have hch := h.charged_le
  rw [hbytes]
  split at hch <;> omega

end

/-! ### The positions of the rule -/

theorem ruleId_of_key (h : row.key = t.ruleKey) : row.ruleId = t.ruleId := congrArg Prod.fst h

theorem byKey_ruleUsages (db : Database) :
    byKey key t.ruleKey (ruleUsages t.ruleId db)
      = byKey key t.ruleKey db.trafficBillingRuleUsage := by
  apply byKey_filter
  intro row hrow
  simpa using ruleId_of_key hrow

theorem startPosition_of_nil (hnil : ruleUsages t.ruleId db = [])
    (hstats : getHistoricalRuleTrafficBytes t.ruleId db ≤ 0) : startPosition db t = ⟨0, 0⟩ := by
  have hnone : byKey key t.ruleKey db.trafficBillingRuleUsage = none := by
    rw [← byKey_ruleUsages, hnil]
    rfl
  have hmax : max 0 (getHistoricalRuleTrafficBytes t.ruleId db - 0) = 0 := by omega
  rw [startPosition, rulePosition, hnone]
  simp only [hmax, RulePosition.ofHistory]
  split <;> rfl

theorem startPosition_of_singleton (hrow : ruleUsages t.ruleId db = [row]) (hkey : row.key = t.ruleKey) :
    startPosition db t = ⟨row.totalBytes, row.billedGb⟩ := by
  have hsome : byKey key t.ruleKey db.trafficBillingRuleUsage = some row := by
    rw [← byKey_ruleUsages, hrow, byKey, find?_cons_of_pos]
    simpa using hkey
  rw [startPosition, rulePosition, hsome]

theorem ruleUsages_putRuleUsage {new : TrafficBillingRuleUsage} (hnew : new.key = t.ruleKey)
    (hrows : ruleUsages t.ruleId db = [] ∨ ∃ old, ruleUsages t.ruleId db = [old] ∧ old.key = t.ruleKey) :
    ruleUsages t.ruleId (db.putRuleUsage new) = [new] := by
  have hid := ruleId_of_key hnew
  show (upsert key new db.trafficBillingRuleUsage).filter _ = _
  rw [upsert, hnew, ← byKey_ruleUsages]
  rcases hrows with hnil | ⟨old, hold, hkey⟩
  · rw [hnil]
    simp only [byKey, find?_nil, Option.isNone_none, if_true, filter_append]
    rw [show db.trafficBillingRuleUsage.filter _ = [] from hnil]
    simp [hid]
  · have hfound : byKey key t.ruleKey (ruleUsages t.ruleId db) = some old := by
      rw [hold, byKey, find?_cons_of_pos]
      simpa using hkey
    rw [hfound]
    simp only [Option.isNone_some, Bool.false_eq_true, if_false]
    rw [filter_updateWhere]
    · rw [show db.trafficBillingRuleUsage.filter _ = [old] from hold]
      simp [updateWhere, hkey]
    · intro row hrow
      simp only [decide_eq_true_eq] at hrow
      simp [hid, ruleId_of_key hrow]

theorem ruleUsages_markSettled {now : ℤ} (hrow : ruleUsages t.ruleId db = [row]) :
    ruleUsages t.ruleId (markSettled now row db)
      = [{ row with pendingMilliCents := 0, settled := true, updatedAt := seconds now }] := by
  show (updateWhere _ _ db.trafficBillingRuleUsage).filter _ = _
  rw [filter_updateWhere]
  · rw [show db.trafficBillingRuleUsage.filter _ = [row] from hrow]
    simp [updateWhere]
  · intro row _
    rfl

/-! ### The two steps -/

variable {s : BillingRun} {r : Option ChargeResult}

theorem inv_usage_billed (hprice : 0 < price) {rep : Report} (hbytes : 0 < rep.bytes)
    (hI : s.Inv t price multiplier)
    (hopen : ∀ row ∈ ruleUsages t.ruleId s.db, row.settled →
      effectiveAmountCentsForBytes row.remainingBytes price multiplier = 0)
    (h : Returns (reportUsage t rep) s.db r db') :
    BillingRun.Inv t price multiplier
      ⟨db', s.chargedCents + chargedCents r, s.billedBytes + rep.bytes⟩ := by
  obtain ⟨hcharge, -, honly⟩ := reportUsage_spec hI.tariff hprice hbytes h
  refine ⟨hI.tariff.of_same ⟨honly.enabled, honly.configs, honly.tunnels, honly.groups⟩, .inr ?_⟩
  -- the position before the report, and what was charged up to it
  have hbefore : ∃ b, startPosition s.db t = ⟨b, billedFullGb b⟩ ∧ 0 ≤ b ∧ s.billedBytes = b ∧
      s.chargedCents ≤ effectiveAmountCentsForGb (billedFullGb b) price multiplier ∧
      (ruleUsages t.ruleId s.db = [] ∨
        ∃ old, ruleUsages t.ruleId s.db = [old] ∧ old.key = t.ruleKey) := by
    rcases hI.rows with ⟨hnil, hstats, hcharged, hbilled⟩ | ⟨row, hrow, hm⟩
    · refine ⟨0, startPosition_of_nil hnil hstats, le_refl _, hbilled, ?_, .inl hnil⟩
      rw [hcharged]
      exact effectiveAmountCentsForGb_nonneg _
    · refine ⟨s.billedBytes, ?_, hm.bytes_nonneg, rfl, ?_, .inr ⟨row, hrow, hm.key_eq⟩⟩
      · rw [startPosition_of_singleton hrow hm.key_eq, hm.totalBytes_eq, hm.billedGb_eq]
      · have hle := hm.charged_le
        rw [hm.billedGb_eq] at hle
        split at hle
        · rename_i hset
          rw [hopen row (by rw [hrow]; exact mem_singleton_self row) hset] at hle
          omega
        · omega
  obtain ⟨b, hstart, hb, hbilled, hcharged, hrows⟩ := hbefore
  have hmono : billedFullGb b ≤ billedFullGb (b + rep.bytes) := billedFullGb_mono (by omega)
  refine ⟨ruleUsageRow rep.now t ((startPosition s.db t).advance rep.bytes), ?_, ?_⟩
  · rw [show ruleUsages t.ruleId db' = ruleUsages t.ruleId (recordedUsage rep.now t rep.bytes
      (insertTrafficStat t.ruleId rep s.db)) by simp only [ruleUsages, honly.ruleUsage]]
    rw [recordedUsage, rulePosition_insertTrafficStat]
    exact ruleUsages_putRuleUsage (key_ruleUsageRow _ _ _) hrows
  · rw [hstart] at hcharge ⊢
    have hgb : max (billedFullGb b) (billedFullGb (b + rep.bytes)) = billedFullGb (b + rep.bytes) := by
      omega
    have hnew : RulePosition.newlyBilledGb ⟨b, billedFullGb b⟩ rep.bytes
        = billedFullGb (b + rep.bytes) - billedFullGb b := by
      simp only [RulePosition.newlyBilledGb]
      omega
    rw [hnew] at hcharge
    have hadd : effectiveAmountCentsForGb (billedFullGb b) price multiplier
        + effectiveAmountCentsForGb (billedFullGb (b + rep.bytes) - billedFullGb b) price multiplier
        ≤ effectiveAmountCentsForGb (billedFullGb b + (billedFullGb (b + rep.bytes) - billedFullGb b))
          price multiplier :=
      (effectiveAmountCentsForGb_add_bounds _ _ (billedFullGb_nonneg b) (by omega)).1
    rw [add_sub_cancel] at hadd
    have hnonneg : 0 ≤ s.billedBytes + rep.bytes := by omega
    refine ⟨rfl, by rw [hbilled]; rfl, ?_, hnonneg, ?_⟩
    · rw [hbilled]
      exact hgb
    · simp only [ruleUsageRow, RulePosition.advance, hgb, Bool.false_eq_true, if_false, add_zero]
      omega

theorem inv_usage_empty {rep : Report} (hbytes : ¬ 0 < rep.bytes)
    (hI : s.Inv t price multiplier) (h : Returns (reportUsage t rep) s.db r db') :
    BillingRun.Inv t price multiplier ⟨db', s.chargedCents + chargedCents r, s.billedBytes⟩ := by
  obtain ⟨-, rfl, rfl⟩ | ⟨hb, -⟩ := billTrafficUsage_spec h.of_transaction.bind_execute
  · refine ⟨hI.tariff.of_same ⟨rfl, rfl, rfl, rfl⟩, ?_⟩
    rw [show chargedCents none = 0 from rfl, add_zero]
    rcases hI.rows with ⟨hnil, hstats, hzero⟩ | hrow
    · refine .inl ⟨hnil, ?_, hzero⟩
      have hadd : getHistoricalRuleTrafficBytes t.ruleId (insertTrafficStat t.ruleId rep s.db)
          = getHistoricalRuleTrafficBytes t.ruleId s.db + rep.bytes := by
        simp [getHistoricalRuleTrafficBytes, insertTrafficStat, Report.bytes]
      show getHistoricalRuleTrafficBytes t.ruleId (insertTrafficStat t.ruleId rep s.db) ≤ 0
      omega
    · exact .inr hrow
  · exact absurd hb.1 hbytes

theorem inv_settle (hprice : 0 < price) {now : ℤ} (hI : s.Inv t price multiplier)
    (h : Returns (settleTrafficBillingRuleOnDelete now t) s.db r db') :
    BillingRun.Inv t price multiplier ⟨db', s.chargedCents + chargedCents r, s.billedBytes⟩ := by
  have hsame : BillingRun.Inv t price multiplier
      ⟨s.db, s.chargedCents + chargedCents none, s.billedBytes⟩ := by
    rw [show chargedCents none = 0 from rfl, add_zero]
    exact hI
  obtain ⟨hoff, -, -⟩ | ⟨-, -, rows, db₁, total, balance, hrows, hloop, rfl⟩ :=
    settleTrafficBillingRuleOnDelete_spec h
  · rw [hI.tariff.enabled] at hoff
    cases hoff
  obtain ⟨rfl, rfl, -⟩ | ⟨hnil, -, hpos, -, -⟩ := settlementRows_spec hrows
  swap
  · -- a position is never made from statistics here: there are none without one
    rcases hI.rows with ⟨-, hstats, -⟩ | ⟨row, hrow, -⟩
    · omega
    · rw [hnil] at hrow
      cases hrow
  rcases hI.rows with ⟨hnil, -⟩ | ⟨row, hrow, hm⟩
  · rw [hnil] at hloop
    obtain ⟨heq, rfl⟩ := hloop.of_pure
    obtain ⟨rfl, rfl⟩ := Prod.mk.inj heq
    exact hsame
  rw [hrow] at hloop
  obtain ⟨charged, db₂, hone, hrest⟩ := hloop.of_bind
  have hresource : settlementResource t row = t.resource := by
    have hkey : (row.resourceType, row.resourceId) = t.resource := congrArg Prod.snd hm.key_eq
    rw [settlementResource, ← hkey, orElseZero]
    split
    · rename_i hzero
      rw [hzero]
    · rfl
  have hspec := settleRuleUsage_spec hone
  rw [hresource, hI.tariff.price_eq, hI.tariff.multiplier_eq,
    show settlementAmount row price multiplier
      = effectiveAmountCentsForBytes row.remainingBytes price multiplier from if_pos hprice] at hspec
  have hnn : 0 ≤ effectiveAmountCentsForBytes row.remainingBytes price multiplier :=
    effectiveAmountCentsForBytes_nonneg _
  -- the row after the settlement, and the bound with what it may have charged
  have hclosed : ∀ (db'' : Database) (c : ℤ), SameTariff s.db db'' →
      db''.trafficBillingRuleUsage = (markSettled now row s.db).trafficBillingRuleUsage →
      row.settled = false →
      c ≤ effectiveAmountCentsForBytes row.remainingBytes price multiplier →
      BillingRun.Inv t price multiplier ⟨db'', s.chargedCents + c, s.billedBytes⟩ := by
    intro db'' c hta husage hset hc
    refine ⟨hI.tariff.of_same hta,
      .inr ⟨{ row with pendingMilliCents := 0, settled := true, updatedAt := seconds now }, ?_,
        hm.key_eq, hm.totalBytes_eq, hm.billedGb_eq, hm.bytes_nonneg, ?_⟩⟩
    · rw [show ruleUsages t.ruleId db'' = ruleUsages t.ruleId (markSettled now row s.db) by
        simp only [ruleUsages, husage]]
      exact ruleUsages_markSettled hrow
    · have hle := hm.charged_le
      simp only [hset, Bool.false_eq_true, if_false, add_zero] at hle
      show s.chargedCents + c ≤ effectiveAmountCentsForGb row.billedGb price multiplier
        + effectiveAmountCentsForBytes row.remainingBytes price multiplier
      omega
  obtain ⟨-, rfl, rfl⟩ | ⟨hset, ⟨-, rfl, rfl⟩ | ⟨-, hcharge⟩⟩ := hspec
  · obtain ⟨heq, rfl⟩ := hrest.of_pure
    obtain ⟨rfl, rfl⟩ := Prod.mk.inj heq
    exact hsame
  · obtain ⟨heq, rfl⟩ := hrest.of_pure
    obtain ⟨rfl, rfl⟩ := Prod.mk.inj heq
    exact hclosed _ 0 ⟨rfl, rfl, rfl, rfl⟩ rfl hset hnn
  · obtain ⟨hle, -, honly⟩ := charge_spec hcharge hnn
    have hta : SameTariff s.db db₂ := ⟨honly.enabled, honly.configs, honly.tunnels, honly.groups⟩
    cases charged with
    | none =>
      obtain ⟨heq, rfl⟩ := hrest.of_pure
      obtain ⟨rfl, rfl⟩ := Prod.mk.inj heq
      exact hclosed _ 0 hta honly.ruleUsage hset hnn
    | some c =>
      obtain ⟨heq, rfl⟩ := hrest.of_pure
      obtain ⟨rfl, rfl⟩ := Prod.mk.inj heq
      have hc : chargedCents (some c) = c.amountCents := rfl
      rw [hc] at hle
      apply hclosed _ _ hta honly.ruleUsage hset
      simp only [Option.bind_some, zero_add]
      split
      · exact hnn
      · exact hle

theorem inv_step (hprice : 0 < price) (s : BillingRun) (e : BillingEvent)
    (hok : ReportsBeforeSettlement t price multiplier s e) (hI : s.Inv t price multiplier) :
    (s.step t e).Inv t price multiplier := by
  cases e with
  | usage rep fault =>
    rw [BillingRun.step]
    split
    · rename_i r db' hrun
      by_cases hbytes : 0 < rep.bytes
      · rw [max_eq_right hbytes.le]
        exact inv_usage_billed hprice hbytes hI hok (.of_run hrun)
      · rw [max_eq_left (not_lt.mp hbytes), add_zero]
        exact inv_usage_empty hbytes hI (.of_run hrun)
    · rename_i e db' hrun
      rw [(failsClean_transaction _).run_error hrun]
      exact hI
  | settle now fault =>
    rw [BillingRun.step]
    split
    · rename_i r db' hrun
      exact inv_settle hprice hI (.of_run hrun)
    · rename_i e db' hrun
      rw [(failsClean_transaction _).run_error hrun]
      exact hI

end

/-- **No byte is charged twice, as long as no traffic is reported after a
settlement that charged for the rule.** In any order of reports and settlements,
failed ones included, the rule has paid at most the prorated price of its bytes. -/
theorem charged_le_prorated (t : BillingTarget) (price multiplier : ℤ) (hprice : 0 < price)
    (db : Database) (ht : Tariff t price multiplier db) (hnew : NoHistory t db) (es : List BillingEvent)
    (hes : Admissible (ReportsBeforeSettlement t price multiplier) (BillingRun.step t) ⟨db, 0, 0⟩ es) :
    (run (BillingRun.step t) ⟨db, 0, 0⟩ es).chargedCents
      ≤ effectiveAmountCentsForBytes (run (BillingRun.step t) ⟨db, 0, 0⟩ es).billedBytes
          price multiplier := by
  have hinit : BillingRun.Inv t price multiplier ⟨db, 0, 0⟩ :=
    ⟨ht, .inl ⟨hnew.1, hnew.2.le, rfl, rfl⟩⟩
  have hI := run_invariant_of_admissible (inv_step hprice) es _ hes hinit
  rcases hI.rows with ⟨-, -, hcharged, -⟩ | ⟨row, -, hm⟩
  · rw [hcharged]
    exact effectiveAmountCentsForBytes_nonneg _
  · exact hm.charged_le_price

/-- A gigabyte and a half in two reports, then the rule is deleted. -/
theorem charged_le_prorated_on_delete :
    (run (BillingRun.step hostTarget) ⟨hostTariff 1000000 100, 0, 0⟩
        [.usage ⟨0, gbBytes, 0⟩ noFault, .usage ⟨1, gbBytes / 2, 0⟩ noFault, .settle 2 noFault]).chargedCents
      ≤ effectiveAmountCentsForBytes
        (run (BillingRun.step hostTarget) ⟨hostTariff 1000000 100, 0, 0⟩
          [.usage ⟨0, gbBytes, 0⟩ noFault, .usage ⟨1, gbBytes / 2, 0⟩ noFault,
            .settle 2 noFault]).billedBytes 1000000 100 :=
  charged_le_prorated hostTarget 1000000 100 (by decide) _ (tariff_hostTariff (by decide) (by decide))
    (by decide) _ (by decide +kernel)

def settledThenReported : BillingRun :=
  run (BillingRun.step hostTarget) ⟨hostTariff 1000000 100, 0, 0⟩
    [.usage ⟨0, gbBytes / 2, 0⟩ noFault, .settle 1 noFault, .usage ⟨2, gbBytes / 2, 0⟩ noFault]

/-- At ten yuan a gigabyte, that gigabyte costs fifteen. -/
theorem settled_bytes_charged_twice :
    Tariff hostTarget 1000000 100 (hostTariff 1000000 100) ∧
      NoHistory hostTarget (hostTariff 1000000 100) ∧
      settledThenReported.chargedCents = 1500 ∧
      ¬ settledThenReported.chargedCents
        ≤ effectiveAmountCentsForBytes settledThenReported.billedBytes 1000000 100 :=
  ⟨tariff_hostTariff (by decide) (by decide), by decide, by decide +kernel, by decide +kernel⟩

end ForwardX.Panel
