/-
A boundary resets a user once.

Panels in any number run the monthly reset, recharge cycles and sell add-ons at once, statement by
statement. A conditional `UPDATE` on the last reset decides who resets; the invariant relates that
column to the boundaries of the calendar, and the log of resets to the column.
-/
import Mathlib.Data.Int.ConditionallyCompleteOrder
import ForwardX.Lib.Run
import ForwardX.Panel.TrafficCycleBooks

namespace ForwardX.Panel

open Run Table Tx Call List

/-! ## The recorded reset -/

/-- The last automatic reset of a user. A user who never had one comes before every
time, so that `IS NULL OR … < ?` is `<`. -/
def Database.lastAutoReset (db : Database) (u : ℤ) : WithBot ℤ :=
  ((db.user? u).bind User.lastAutoTrafficReset).elim ⊥ WithBot.some

section

variable {u day : ℤ} {own : List (ℤ × ℤ × Option ℤ)} {db db' : Database}

theorem all_lt_iff (o : Option ℤ) (b : ℤ) : o.all (· < b) = true ↔ o.elim ⊥ WithBot.some < (b : WithBot ℤ) := by
  cases o with
  | none => simp
  | some t => simp

theorem lastAutoReset_of_sameCycles (h : CycleBooks u day own db) (hsame : SameCycles db db') :
    db'.lastAutoReset u = db.lastAutoReset u := by
  obtain ⟨r, hr, -⟩ := h.user
  obtain ⟨r', hr', hcolumns⟩ := byKey_congr (g := User.resetColumns)
    (fun _ _ heq => congrArg Prod.fst heq) hsame.users hr
  simp only [User.resetColumns, Prod.mk.injEq] at hcolumns
  have hr'' : db'.user? u = some r' := hr'
  simp only [Database.lastAutoReset, hr, hr'', Option.bind_some, hcolumns.2.2.2]

theorem lastAutoReset_reset (h : CycleBooks u day own db) (userId boundary resetAt : ℤ) :
    (resetUserTrafficForCycle userId boundary resetAt db).2.lastAutoReset u =
      if u = userId ∧ db.lastAutoReset u < seconds boundary then (seconds resetAt : WithBot ℤ)
      else db.lastAutoReset u := by
  obtain ⟨r, hr, -⟩ := h.user
  simp only [Database.lastAutoReset, user_resetUserTrafficForCycle, hr, Option.map_some,
    Option.bind_some, all_lt_iff]
  split
  · rfl
  · rfl

theorem resetUserTrafficForCycle_affected (h : CycleBooks u day own db) (boundary resetAt : ℤ) :
    0 < (resetUserTrafficForCycle u boundary resetAt db).1 ↔
      db.lastAutoReset u < seconds boundary := by
  obtain ⟨r, hr, -⟩ := h.user
  rw [Database.lastAutoReset, hr, Option.bind_some, ← all_lt_iff]
  simp only [resetUserTrafficForCycle, countP_pos_iff, decide_eq_true_eq]
  constructor
  · rintro ⟨v, hv, hid, hall⟩
    have hread := byKey_of_mem h.userIds hv
    rw [hid] at hread
    obtain rfl := Option.some.inj (hr.symm.trans hread)
    exact hall
  · intro hall
    exact ⟨r, byKey_mem hr, byKey_key hr, hall⟩

/-- Every boundary up to `n` is covered by the recorded reset. -/
def Settled (day n : ℤ) (last : WithBot ℤ) : Prop :=
  ∀ i, boundaryAt day i ≤ n → (seconds (boundaryAt day i) : WithBot ℤ) ≤ last

theorem Settled.mono {n : ℤ} {last last' : WithBot ℤ} (h : Settled day n last) (hle : last ≤ last') :
    Settled day n last' := fun i hi => (h i hi).trans hle

theorem settled_of_latest {n j : ℤ} {last : WithBot ℤ} (hnext : n < boundaryAt day (j + 1))
    (h : (seconds (boundaryAt day j) : WithBot ℤ) ≤ last) : Settled day n last := by
  intro i hi
  have hij : i < j + 1 := (boundaryAt_strictMono day).lt_iff_lt.mp (lt_of_le_of_lt hi hnext)
  have hle : boundaryAt day i ≤ boundaryAt day j := (boundaryAt_strictMono day).monotone (by omega)
  exact (WithBot.coe_le_coe.mpr (seconds_mono hle)).trans h

end

/-! ## Where a call stands -/

def SettleCaller.monthlyRun : SettleCaller → Option ℤ
  | .recharge _ started _ => started
  | .purchase _ => none

def CycleTask.monthlyRun : CycleTask → Option ℤ
  | .resetting now _ | .restoring now _ _ => some now
  | .recharging started | .listedUsers started _ | .rechargingUsers _ started _
  | .recovering _ _ started _ => started
  | .settling _ _ caller _ => caller.monthlyRun
  | .monthly | .listing _ | .purchasing _ _ | .buying _ _ _ | .purchased _ => none

def CycleTask.listed : CycleTask → List User
  | .resetting _ users | .restoring _ _ users => users
  | _ => []

/-- What a call holds is right, and what its monthly run has passed is settled. -/
structure TaskOk (u day : ℤ) (own : List (ℤ × ℤ × Option ℤ)) (clock : ℤ) (last : WithBot ℤ)
    (t : CycleTask) : Prop where
  holds : t.Ok u day own clock
  reached : ∀ n ∈ t.monthlyRun, (∃ v ∈ t.listed, v.id = u) ∨ Settled day n last

theorem TaskOk.mono {u day clock clock' : ℤ} {own : List (ℤ × ℤ × Option ℤ)} {last last' : WithBot ℤ}
    {t : CycleTask} (h : TaskOk u day own clock last t) (hclock : clock ≤ clock')
    (hlast : last ≤ last') : TaskOk u day own clock' last' t :=
  ⟨h.holds.mono hclock, fun n hn => (h.reached n hn).imp_right fun hs => hs.mono hlast⟩

/-! ## What a step needs to find -/

/-- When a monthly run reads its list, a user whose latest boundary is open is on it:
the boundary lies in the month of its clock reading, and the recorded reset before that
month. -/
def ListsOverdue (day now : ℤ) (last : WithBot ℤ) : Prop :=
  if day ≤ (billingCalendarParts now).date.day then
    last < seconds (billingMonthStart now) ∨ seconds (billingMonthlyBoundary now day) ≤ last
  else seconds (billingMonthlyBoundary now day (-1)) ≤ last

/-- The list of a monthly run has the user on it if it has to, an alignment does not end
an add-on before its purchase, and no boundary comes in the middle of a purchase. -/
def CycleTask.Meets (u day clock : ℤ) (db : Database) : CycleTask → Prop
  | .listing now => ListsOverdue day now (db.lastAutoReset u)
  | .settling userId now _ (.alignAddons row _) =>
    userId = u → ∀ a ∈ db.userTrafficAddons, a.subscriptionId = row.sub.id → a.status = .active →
      ∀ r ∈ row.alignedTo now, a.createdAt < seconds r
  | .buying openedAt req _ => req.userId = u → clock < nextMonthlyBoundary day openedAt
  | _ => True

-- The order of ℤ is found as a complete one first, which does not compute.
instance decidableLTRecorded : DecidableLT (WithBot ℤ) :=
  @WithBot.decidableLT ℤ Int.instLTInt Int.decLt

instance decidableLERecorded : DecidableLE (WithBot ℤ) :=
  @WithBot.decidableLE ℤ Int.instLEInt Int.decLe

instance ListsOverdue.decidable (day now : ℤ) (last : WithBot ℤ) : Decidable (ListsOverdue day now last) :=
  inferInstanceAs (Decidable (if day ≤ (billingCalendarParts now).date.day then
    last < seconds (billingMonthStart now) ∨ seconds (billingMonthlyBoundary now day) ≤ last
    else seconds (billingMonthlyBoundary now day (-1)) ≤ last))

instance CycleTask.Meets.decidable (u day clock : ℤ) (db : Database) :
    ∀ t : CycleTask, Decidable (t.Meets u day clock db)
  | .listing now => inferInstanceAs (Decidable (ListsOverdue day now (db.lastAutoReset u)))
  | .settling userId now _ (.alignAddons row _) =>
    inferInstanceAs (Decidable (userId = u → ∀ a ∈ db.userTrafficAddons, a.subscriptionId = row.sub.id →
      a.status = .active → ∀ r ∈ row.alignedTo now, a.createdAt < seconds r))
  | .buying openedAt req _ =>
    inferInstanceAs (Decidable (req.userId = u → clock < nextMonthlyBoundary day openedAt))
  | .monthly | .resetting _ _ | .restoring _ _ _ | .recharging _ | .listedUsers _ _
  | .rechargingUsers _ _ _ | .recovering _ _ _ _ | .purchasing _ _ | .purchased _ => .isTrue trivial
  | .settling _ _ _ .align | .settling _ _ _ (.alignNext _ _) | .settling _ _ _ .due
  | .settling _ _ _ (.reset _) | .settling _ _ _ (.expire _ _) | .settling _ _ _ (.update _) =>
    .isTrue trivial

/-! ## What a step does -/

section

variable {u day clock : ℤ} {own : List (ℤ × ℤ × Option ℤ)} {gone : List UserTrafficAddon} {env : Env}
  {fault : ℕ → Option String} {db : Database}

/-- A step from `db` that found everything in order. -/
structure CycleOutcome.Ok (u day : ℤ) (own : List (ℤ × ℤ × Option ℤ)) (gone : List UserTrafficAddon)
    (clock : ℤ) (db : Database) (out : CycleOutcome) : Prop where
  books : CycleBooks u day own out.db
  addons : AddonsOk u day own gone clock out.db.userTrafficAddons
  task : ∀ t ∈ out.task, TaskOk u day own clock (out.db.lastAutoReset u) t
  finished : ∀ n ∈ out.finished, Settled day n (out.db.lastAutoReset u)
  grows : db.lastAutoReset u ≤ out.db.lastAutoReset u
  reset : ∀ e ∈ out.reset, e.userId = u → Monthly day e.boundary ∧ e.writtenAt = clock ∧
    db.lastAutoReset u < e.boundary ∧ (e.boundary : WithBot ℤ) ≤ out.db.lastAutoReset u ∧
    out.db.lastAutoReset u ≤ seconds clock
  silent : (∀ e ∈ out.reset, e.userId ≠ u) → out.db.lastAutoReset u = db.lastAutoReset u

theorem CycleOutcome.Ok.quiet {out : CycleOutcome} (hbooks : CycleBooks u day own out.db)
    (haddons : AddonsOk u day own gone clock out.db.userTrafficAddons)
    (hlast : out.db.lastAutoReset u = db.lastAutoReset u) (hreset : out.reset = none)
    (htask : ∀ t ∈ out.task, TaskOk u day own clock (db.lastAutoReset u) t)
    (hfinished : ∀ n ∈ out.finished, Settled day n (db.lastAutoReset u)) :
    out.Ok u day own gone clock db where
  books := hbooks
  addons := haddons
  task := hlast.symm ▸ htask
  finished := hlast.symm ▸ hfinished
  grows := hlast.ge
  reset := by simp [hreset]
  silent := fun _ => hlast

theorem CycleOutcome.Ok.local (hbooks : CycleBooks u day own db)
    (haddons : AddonsOk u day own gone clock db.userTrafficAddons) {task : Option CycleTask}
    {finished : Option ℤ} (htask : ∀ t ∈ task, TaskOk u day own clock (db.lastAutoReset u) t)
    (hfinished : ∀ n ∈ finished, Settled day n (db.lastAutoReset u)) :
    CycleOutcome.Ok u day own gone clock db { task, db, finished } :=
  .quiet hbooks haddons rfl rfl htask hfinished

theorem attemptCycle_ok {α : Type} {m : Db α} {caught : Option CycleTask}
    {next : α → Option CycleTask} (hclean : FailsClean m) (hbooks : CycleBooks u day own db)
    (haddons : AddonsOk u day own gone clock db.userTrafficAddons)
    (hcaught : ∀ t ∈ caught, TaskOk u day own clock (db.lastAutoReset u) t)
    (hm : ∀ a db', Returns m db a db' → CycleBooks u day own db' ∧
      AddonsOk u day own gone clock db'.userTrafficAddons ∧
      db'.lastAutoReset u = db.lastAutoReset u ∧
      ∀ t ∈ next a, TaskOk u day own clock (db.lastAutoReset u) t) :
    (attemptCycle m fault db caught next).Ok u day own gone clock db := by
  unfold attemptCycle
  split
  · rename_i a db' hrun
    obtain ⟨hbooks', haddons', hlast, htask⟩ := hm a db' (.of_run hrun)
    exact .quiet hbooks' haddons' hlast rfl htask (by simp)
  · rename_i e db' hrun
    obtain rfl := hclean.run_error hrun
    exact .quiet hbooks haddons rfl rfl hcaught (by simp)

variable {userId boundary resetAt : ℤ}

theorem lastAutoReset_reset_ge (hbooks : CycleBooks u day own db)
    (hle : userId = u → boundary ≤ resetAt) :
    db.lastAutoReset u ≤ (resetUserTrafficForCycle userId boundary resetAt db).2.lastAutoReset u ∧
      (userId = u → (seconds boundary : WithBot ℤ) ≤
        (resetUserTrafficForCycle userId boundary resetAt db).2.lastAutoReset u) := by
  rw [lastAutoReset_reset hbooks]
  split
  · rename_i hhit
    have hb : (seconds boundary : WithBot ℤ) ≤ seconds resetAt :=
      WithBot.coe_le_coe.mpr (seconds_mono (hle hhit.1.symm))
    exact ⟨(hhit.2.trans_le hb).le, fun _ => hb⟩
  · rename_i hmiss
    exact ⟨le_rfl, fun hu => not_lt.mp fun hlt => hmiss ⟨hu.symm, hlt⟩⟩

theorem attemptReset_ok {next : ℕ → Option CycleTask}
    (hbooks : CycleBooks u day own db)
    (haddons : AddonsOk u day own gone clock db.userTrafficAddons) (hresetAt : resetAt ≤ clock)
    (hboundary : userId = u → (∃ i, boundary = boundaryAt day i) ∧ boundary ≤ resetAt)
    (hnext : ∀ last, db.lastAutoReset u ≤ last → (userId = u → (seconds boundary : WithBot ℤ) ≤ last) →
      ∀ k, ∀ t ∈ next k, TaskOk u day own clock last t) :
    (attemptReset clock userId boundary resetAt fault db next).Ok u day own gone clock db := by
  unfold attemptReset
  split
  · rename_i affected db' hrun
    have hstmt := (Returns.of_run hrun).of_statement
    obtain ⟨rfl, rfl⟩ : affected = (resetUserTrafficForCycle userId boundary resetAt db).1 ∧
        db' = (resetUserTrafficForCycle userId boundary resetAt db).2 := by simp [hstmt]
    have hge := lastAutoReset_reset_ge hbooks (fun hu => (hboundary hu).2)
    refine
      { books := hbooks.reset userId boundary resetAt
        addons := haddons
        task := hnext _ hge.1 hge.2 _
        finished := by simp
        grows := hge.1
        reset := ?_
        silent := ?_ }
    · intro e he hu
      simp only [Option.mem_ite_none_right] at he
      obtain ⟨hhit, he⟩ := he
      obtain rfl := Option.some.inj he
      simp only at hu
      subst hu
      rw [resetUserTrafficForCycle_affected hbooks] at hhit
      obtain ⟨⟨i, hi⟩, hle⟩ := hboundary rfl
      refine ⟨⟨i, hi ▸ rfl⟩, rfl, hhit, hge.2 rfl, ?_⟩
      rw [lastAutoReset_reset hbooks, if_pos ⟨rfl, hhit⟩]
      exact WithBot.coe_le_coe.mpr (seconds_mono hresetAt)
    · intro hsilent
      rw [lastAutoReset_reset hbooks, if_neg]
      rintro ⟨rfl, hlt⟩
      have hhit := (resetUserTrafficForCycle_affected hbooks boundary resetAt).mpr hlt
      exact hsilent _ (if_pos hhit) rfl
  · rename_i e db' hrun
    obtain rfl := (failsClean_statement _).run_error hrun
    exact .quiet hbooks haddons rfl rfl (by simp) (by simp)

/-! ### Settling -/

section

variable {userId now : ℤ} {caller : SettleCaller} {pc pc' : SettleStep} {last : WithBot ℤ}

theorem TaskOk.settling (ht : TaskOk u day own clock last (.settling userId now caller pc))
    (hpc : pc'.Ok u day own userId now) :
    TaskOk u day own clock last (.settling userId now caller pc') :=
  ⟨⟨ht.holds.1, hpc, ht.holds.2.2⟩, ht.reached⟩

theorem TaskOk.resume (ht : TaskOk u day own clock last (.settling userId now caller pc))
    (settled : Bool) : TaskOk u day own clock last (caller.resume userId settled) := by
  cases caller with
  | recharge now' started rest =>
    cases settled with
    | false | true => exact ⟨ht.holds.2.2, ht.reached⟩
  | purchase req => exact ⟨trivial, ht.reached⟩

theorem alignFrom_ok {rows : List CycleRow} (h : ∀ r ∈ rows, RowOk u day own userId r) :
    (alignFrom rows).Ok u day own userId now := by
  cases rows with
  | nil => trivial
  | cons row rest => exact h

theorem sameCycles_updateActiveTrafficAddonCycleEnd (db : Database) (id : ℤ) (next expiresAt : Option ℤ) :
    SameCycles db (updateActiveTrafficAddonCycleEnd id next expiresAt db) :=
  ⟨by rw [users_updateActiveTrafficAddonCycleEnd], subscriptions_updateActiveTrafficAddonCycleEnd ..⟩

theorem sameCycles_expireTrafficAddonsForCycle (clock : ℤ) (db : Database) (cycle : CycleUpdate) :
    SameCycles db (expireTrafficAddonsForCycle clock cycle db) := by
  unfold expireTrafficAddonsForCycle
  split
  · exact .refl db
  · exact ⟨rfl, rfl⟩

variable (hday : 1 ≤ day ∧ day ≤ 28) (hbooks : CycleBooks u day own db)
  (haddons : AddonsOk u day own gone clock db.userTrafficAddons)

include hbooks haddons

theorem stepSettle_align
    (ht : TaskOk u day own clock (db.lastAutoReset u) (.settling userId now caller .align)) :
    (stepSettle clock fault db userId now caller .align).Ok u day own gone clock db := by
  apply attemptCycle_ok (failsClean_query _) hbooks haddons (by simp)
  intro rows db' h
  obtain ⟨rfl, rfl⟩ := h.of_query
  refine ⟨hbooks, haddons, rfl, ?_⟩
  rintro t ⟨⟩
  apply ht.settling
  apply alignFrom_ok
  intro row hrow
  exact rowOk_rowsToAlign hbooks hrow

include hday

theorem stepSettle_alignAddons {row : CycleRow} {rest : List CycleRow}
    (ht : TaskOk u day own clock (db.lastAutoReset u)
      (.settling userId now caller (.alignAddons row rest)))
    (hmeets : (CycleTask.settling userId now caller (.alignAddons row rest)).Meets u day clock db) :
    (stepSettle clock fault db userId now caller (.alignAddons row rest)).Ok u day own gone clock
      db := by
  have hrows : ∀ r ∈ row :: rest, RowOk u day own userId r := ht.holds.2.1
  apply attemptCycle_ok (failsClean_statement _) hbooks haddons (by simp)
  intro a db' h
  obtain rfl := h.of_execute
  have hsame := sameCycles_updateActiveTrafficAddonCycleEnd db row.sub.id (row.alignedTo now)
    (row.sub.expiresAt.map milliseconds)
  have hlasts := haddons.cycleEnd hday (hrows row mem_cons_self) hmeets
  refine ⟨hbooks.of_sameCycles hsame, hlasts, lastAutoReset_of_sameCycles hbooks hsame, ?_⟩
  rintro t ⟨⟩
  apply ht.settling
  split
  · exact alignFrom_ok fun r hr => hrows r (mem_cons_of_mem _ hr)
  · exact hrows

theorem stepSettle_alignNext {row : CycleRow} {rest : List CycleRow}
    (ht : TaskOk u day own clock (db.lastAutoReset u)
      (.settling userId now caller (.alignNext row rest))) :
    (stepSettle clock fault db userId now caller (.alignNext row rest)).Ok u day own gone clock db := by
  have hrows : ∀ r ∈ row :: rest, RowOk u day own userId r := ht.holds.2.1
  have hrow := hrows row mem_cons_self
  apply attemptCycle_ok (failsClean_statement _) hbooks haddons (by simp)
  intro a db' h
  obtain rfl := h.of_execute
  refine ⟨hbooks.updateSubscription (fun _ => rfl) ?_, haddons, rfl, ?_⟩
  · intro x hx hid hu s e he
    have huser : userId = u := by rw [← hu, hrow.owned x hx hid]
    obtain ⟨r, hr, rfl⟩ := Option.map_eq_some_iff.mp he
    obtain ⟨i, rfl⟩ := alignedTo_boundary hday hrow huser hr
    exact ⟨i, rfl⟩
  · rintro t ⟨⟩
    apply ht.settling
    exact alignFrom_ok fun r hr => hrows r (mem_cons_of_mem _ hr)

theorem stepSettle_due (ht : TaskOk u day own clock (db.lastAutoReset u) (.settling userId now caller .due)) :
    (stepSettle clock fault db userId now caller .due).Ok u day own gone clock db := by
  apply attemptCycle_ok (failsClean_query _) hbooks haddons (by simp)
  intro cycles db' h
  obtain ⟨rfl, rfl⟩ := h.of_query
  refine ⟨hbooks, haddons, rfl, ?_⟩
  intro t ht'
  split at ht'
  · obtain rfl := Option.some.inj ht'
    exact ht.resume false
  · rename_i hne
    obtain rfl := Option.some.inj ht'
    apply ht.settling
    exact ⟨hne, fun c hc => cycleOk_dueCycles hday hbooks hc⟩

omit hday

theorem stepSettle_reset {cycles : List CycleUpdate}
    (ht : TaskOk u day own clock (db.lastAutoReset u) (.settling userId now caller (.reset cycles))) :
    (stepSettle clock fault db userId now caller (.reset cycles)).Ok u day own gone clock db := by
  obtain ⟨hnow, ⟨hne, hcycles⟩, -⟩ := ht.holds
  obtain ⟨c, hc, hlatest⟩ := latestBoundary_mem hne
  apply attemptReset_ok hbooks haddons hnow
  · intro hu
    rw [hlatest]
    exact (hcycles c hc).due hu
  · rintro last hlast - k t ⟨⟩
    apply (ht.mono le_rfl hlast).settling
    intro c' hc'
    rw [mem_append, or_self] at hc'
    exact hcycles c' hc'

theorem stepSettle_expire {todo cycles : List CycleUpdate}
    (ht : TaskOk u day own clock (db.lastAutoReset u)
      (.settling userId now caller (.expire todo cycles))) :
    (stepSettle clock fault db userId now caller (.expire todo cycles)).Ok u day own gone clock db := by
  obtain ⟨hnow, hcycles, -⟩ := ht.holds
  cases todo with
  | nil =>
    apply CycleOutcome.Ok.local hbooks haddons _ (by simp)
    rintro t ⟨⟩
    exact ht.settling hcycles
  | cons cycle todo =>
    apply attemptCycle_ok (failsClean_statement _) hbooks haddons (by simp)
    intro a db' h
    obtain rfl := h.of_execute
    have hsame := sameCycles_expireTrafficAddonsForCycle clock db cycle
    have houtlived := haddons.expireCycle (hcycles cycle mem_cons_self) hnow
    refine ⟨hbooks.of_sameCycles hsame, houtlived, lastAutoReset_of_sameCycles hbooks hsame, ?_⟩
    rintro t ⟨⟩
    apply ht.settling
    exact fun c hc => hcycles c (mem_cons_of_mem _ hc)

theorem stepSettle_update {todo : List CycleUpdate}
    (ht : TaskOk u day own clock (db.lastAutoReset u) (.settling userId now caller (.update todo))) :
    (stepSettle clock fault db userId now caller (.update todo)).Ok u day own gone clock db := by
  have hcycles : ∀ c ∈ todo, CycleOk u day own userId now c := ht.holds.2.1
  cases todo with
  | nil =>
    apply CycleOutcome.Ok.local hbooks haddons _ (by simp)
    rintro t ⟨⟩
    exact ht.resume true
  | cons cycle todo =>
    have hcycle := hcycles cycle mem_cons_self
    apply attemptCycle_ok (failsClean_statement _) hbooks haddons (by simp)
    intro a db' h
    obtain rfl := h.of_execute
    refine ⟨hbooks.updateSubscription (fun _ => rfl) ?_, haddons, rfl, ?_⟩
    · intro x hx hid hu s e he
      have huser : userId = u := (hcycle.owned x hx hid).symm.trans hu
      obtain ⟨r, hr, rfl⟩ := Option.map_eq_some_iff.mp he
      obtain ⟨i, rfl⟩ := hcycle.next huser r hr
      exact ⟨i, rfl⟩
    · rintro t ⟨⟩
      apply ht.settling
      exact fun c hc => hcycles c (mem_cons_of_mem _ hc)

include hday

theorem stepSettle_ok (ht : TaskOk u day own clock (db.lastAutoReset u) (.settling userId now caller pc))
    (hmeets : (CycleTask.settling userId now caller pc).Meets u day clock db) :
    (stepSettle clock fault db userId now caller pc).Ok u day own gone clock db := by
  cases pc with
  | align => exact stepSettle_align hbooks haddons ht
  | alignAddons row rest => exact stepSettle_alignAddons hday hbooks haddons ht hmeets
  | alignNext row rest => exact stepSettle_alignNext hday hbooks haddons ht
  | due => exact stepSettle_due hday hbooks haddons ht
  | reset cycles => exact stepSettle_reset hbooks haddons ht
  | expire todo cycles => exact stepSettle_expire hbooks haddons ht
  | update todo => exact stepSettle_update hbooks haddons ht

end

/-! ### Monthly runs -/

theorem clampResetDay_eq (hday : 1 ≤ day ∧ day ≤ 28) : clampResetDay day = day := by
  unfold clampResetDay
  omega

variable {now : ℤ}

theorem listedOk_getUsersForAutoReset (hbooks : CycleBooks u day own db) :
    ListedOk u day now (getUsersForAutoReset now db) := by
  intro v hv hid
  rw [getUsersForAutoReset, mem_filter, decide_eq_true_eq] at hv
  obtain ⟨r, hr, -, hday⟩ := hbooks.user
  have hread := byKey_of_mem hbooks.userIds hv.1
  rw [hid] at hread
  obtain rfl := Option.some.inj (hr.symm.trans hread)
  refine ⟨hday, ?_⟩
  rw [boundaryAt_le_iff, ← hday]
  exact hv.2.2.1

theorem listed_or_settled (hday : 1 ≤ day ∧ day ≤ 28) (hbooks : CycleBooks u day own db)
    (hlists : ListsOverdue day now (db.lastAutoReset u)) :
    (∃ v ∈ getUsersForAutoReset now db, v.id = u) ∨ Settled day now (db.lastAutoReset u) := by
  unfold ListsOverdue at hlists
  split at hlists
  · rename_i hcome
    rcases hlists with hbefore | hcovered
    · left
      obtain ⟨r, hr, hauto, hd⟩ := hbooks.user
      rw [Database.lastAutoReset, hr, Option.bind_some, ← all_lt_iff] at hbefore
      refine ⟨r, ?_, byKey_key hr⟩
      rw [getUsersForAutoReset, mem_filter, decide_eq_true_eq]
      exact ⟨byKey_mem hr, hauto, hd.symm ▸ hcome, hbefore⟩
    · right
      rw [billingMonthlyBoundary_eq hday, add_zero] at hcovered
      exact settled_of_latest (boundaryAt_next hday.1 now) hcovered
  · rename_i hopen
    right
    rw [billingMonthlyBoundary_eq hday, ← sub_eq_add_neg] at hlists
    rw [← boundaryAt_le_iff, not_le] at hopen
    apply settled_of_latest _ hlists
    rw [sub_add_cancel]
    exact hopen

theorem TaskOk.next (hday : 1 ≤ day ∧ day ≤ 28) {user : User} {users : List User}
    {last last' : WithBot ℤ}
    (ht : TaskOk u day own clock last (.resetting now (user :: users))) (hlast : last ≤ last')
    (hdone : user.id = u → (seconds (boundaryAt day (billingMonth now)) : WithBot ℤ) ≤ last') :
    TaskOk u day own clock last' (.resetting now users) := by
  refine ⟨⟨ht.holds.1, fun v hv => ht.holds.2 v (mem_cons_of_mem _ hv)⟩, ?_⟩
  rintro n ⟨⟩
  obtain ⟨v, hv, hid⟩ | hsettled := ht.reached now rfl
  · obtain rfl | hv := mem_cons.mp hv
    · exact .inr (settled_of_latest (boundaryAt_next hday.1 now) (hdone hid))
    · exact .inl ⟨v, hv, hid⟩
  · exact .inr (hsettled.mono hlast)

theorem step_resetting_ok (hday : 1 ≤ day ∧ day ≤ 28) (hbooks : CycleBooks u day own db)
    (haddons : AddonsOk u day own gone clock db.userTrafficAddons) {user : User} {users : List User}
    (ht : TaskOk u day own clock (db.lastAutoReset u) (.resetting now (user :: users))) :
    ((CycleTask.resetting now (user :: users)).step env clock fault db).Ok u day own gone clock db := by
  have hboundary : user.id = u →
      billingMonthlyBoundary now (clampResetDay user.trafficResetDay) =
        boundaryAt day (billingMonth now) := by
    intro hu
    rw [(ht.holds.2 user mem_cons_self hu).1, clampResetDay_eq hday,
      billingMonthlyBoundary_eq hday, add_zero]
  apply attemptReset_ok hbooks haddons ht.holds.1
  · intro hu
    rw [hboundary hu]
    exact ⟨⟨_, rfl⟩, (ht.holds.2 user mem_cons_self hu).2⟩
  · intro last hlast hdone k t ht'
    have hnext : TaskOk u day own clock last (.resetting now users) := by
      apply ht.next hday hlast
      intro hu
      rw [← hboundary hu]
      exact hdone hu
    split at ht'
    · obtain rfl := Option.some.inj ht'
      exact ⟨hnext.holds, hnext.reached⟩
    · obtain rfl := Option.some.inj ht'
      exact hnext

theorem attemptRecovery_ok (hbooks : CycleBooks u day own db)
    (haddons : AddonsOk u day own gone clock db.userTrafficAddons) {userId : ℤ}
    {next : Option CycleTask} (hnext : ∀ t ∈ next, TaskOk u day own clock (db.lastAutoReset u) t) :
    (attemptCycle (recoverUserForwardAccessIfEligible env clock userId) fault db none
      fun _ => next).Ok u day own gone clock db := by
  apply attemptCycle_ok (failsClean_transaction _) hbooks haddons (by simp)
  intro limit db' h
  obtain ⟨hsame, haddons'⟩ := recoverUserForwardAccessIfEligible_cycles h
  refine ⟨hbooks.of_sameCycles hsame, ?_, lastAutoReset_of_sameCycles hbooks hsame, hnext⟩
  rw [haddons']
  exact haddons.expireDue le_rfl userId

theorem CycleTask.step_ok (hday : 1 ≤ day ∧ day ≤ 28) (hbooks : CycleBooks u day own db)
    (haddons : AddonsOk u day own gone clock db.userTrafficAddons) {t : CycleTask}
    (ht : TaskOk u day own clock (db.lastAutoReset u) t) (hmeets : t.Meets u day clock db) :
    (t.step env clock fault db).Ok u day own gone clock db := by
  cases t with
  | monthly =>
    apply CycleOutcome.Ok.local hbooks haddons _ (by simp)
    rintro t ⟨⟩
    exact ⟨le_rfl, ht.reached⟩
  | listing now =>
    apply attemptCycle_ok (failsClean_query _) hbooks haddons (by simp)
    intro users db' h
    obtain ⟨rfl, rfl⟩ := h.of_query
    refine ⟨hbooks, haddons, rfl, ?_⟩
    rintro t ⟨⟩
    refine ⟨⟨ht.holds, listedOk_getUsersForAutoReset hbooks⟩, ?_⟩
    rintro n ⟨⟩
    exact listed_or_settled hday hbooks hmeets
  | resetting now users =>
    cases users with
    | nil =>
      apply CycleOutcome.Ok.local hbooks haddons _ (by simp)
      rintro t ⟨⟩
      refine ⟨trivial, fun n hn => ?_⟩
      exact (ht.reached n hn).imp_left fun ⟨v, hv, _⟩ => absurd hv not_mem_nil
    | cons user users => exact step_resetting_ok hday hbooks haddons ht
  | restoring now userId users =>
    apply attemptRecovery_ok hbooks haddons
    rintro t ⟨⟩
    exact ⟨ht.holds, ht.reached⟩
  | recharging started =>
    apply attemptCycle_ok (failsClean_query _) hbooks haddons (by simp)
    intro rows db' h
    obtain ⟨rfl, rfl⟩ := h.of_query
    refine ⟨hbooks, haddons, rfl, ?_⟩
    rintro t ⟨⟩
    exact ⟨trivial, ht.reached⟩
  | listedUsers started userIds =>
    apply CycleOutcome.Ok.local hbooks haddons _ (by simp)
    rintro t ⟨⟩
    exact ⟨le_rfl, ht.reached⟩
  | rechargingUsers now started userIds =>
    cases userIds with
    | nil =>
      apply CycleOutcome.Ok.local hbooks haddons (by simp)
      intro n hn
      exact (ht.reached n hn).resolve_left fun ⟨v, hv, _⟩ => absurd hv not_mem_nil
    | cons userId rest =>
      apply CycleOutcome.Ok.local hbooks haddons _ (by simp)
      rintro t ⟨⟩
      exact ⟨⟨ht.holds, trivial, ht.holds⟩, ht.reached⟩
  | settling userId now caller pc => exact stepSettle_ok hday hbooks haddons ht hmeets
  | recovering now userId started rest =>
    apply attemptRecovery_ok hbooks haddons
    rintro t ⟨⟩
    exact ⟨ht.holds, ht.reached⟩
  | purchasing req settled =>
    apply CycleOutcome.Ok.local hbooks haddons _ (by simp)
    rintro t ⟨⟩
    exact ⟨le_rfl, ht.reached⟩
  | buying openedAt req settled =>
    have hbought : TaskOk u day own clock (db.lastAutoReset u) (.purchased req.userId) :=
      ⟨trivial, by simp [CycleTask.monthlyRun]⟩
    apply attemptCycle_ok (failsClean_transaction _) hbooks haddons
    · intro t ht'
      split at ht'
      · obtain rfl := Option.some.inj ht'
        exact hbought
      · cases ht'
    · intro r db' h
      obtain ⟨hsame, haddons'⟩ := buyTrafficAddon_cycles hday hbooks haddons ht.holds hmeets h
      refine ⟨hbooks.of_sameCycles hsame, haddons', lastAutoReset_of_sameCycles hbooks hsame, ?_⟩
      rintro t ⟨⟩
      exact hbought
  | purchased userId => exact attemptRecovery_ok hbooks haddons (by simp)

end

/-! ## Runs -/

/-- Every step of a call finds what it needs to. -/
def StepMeets (u day : ℤ) (w : CyclePanel) : CycleEvent → Prop
  | .step i _ _ => ∀ t ∈ w.tasks[i]?, t.Meets u day w.now w.db
  | _ => True

instance StepMeets.decidable (u day : ℤ) (w : CyclePanel) : ∀ e, Decidable (StepMeets u day w e)
  | .step i _ _ => inferInstanceAs (Decidable (∀ t ∈ w.tasks[i]?, t.Meets u day w.now w.db))
  | .tick _ | .call _ | .crash _ | .other _ _ => .isTrue trivial

/-- The books, the calls in flight and the log. `opening` is the recorded reset at the
start. -/
structure ResetInv (u day : ℤ) (own : List (ℤ × ℤ × Option ℤ)) (gone : List UserTrafficAddon)
    (opening : WithBot ℤ) (w : CyclePanel) : Prop where
  books : CycleBooks u day own w.db
  addons : AddonsOk u day own gone w.now w.db.userTrafficAddons
  tasks : ∀ t ∈ w.tasks, TaskOk u day own w.now (w.db.lastAutoReset u) t
  finished : ∀ n ∈ w.finished, Settled day n (w.db.lastAutoReset u)
  log : ∀ e ∈ w.resets, e.userId = u → Monthly day e.boundary ∧ e.boundary ≤ seconds e.writtenAt ∧
    (e.boundary : WithBot ℤ) ≤ w.db.lastAutoReset u
  ordered : w.resets.Pairwise fun e e' => e.userId = u → e'.userId = u → e.boundary < e'.boundary
  recorded : w.db.lastAutoReset u = opening ∨
    ∃ e ∈ w.resets, e.userId = u ∧ w.db.lastAutoReset u ≤ seconds e.writtenAt

section

variable {u day : ℤ} {own : List (ℤ × ℤ × Option ℤ)} {gone : List UserTrafficAddon}
  {opening : WithBot ℤ} {w : CyclePanel}

theorem ResetInv.keep (h : ResetInv u day own gone opening w) {now : ℤ} {tasks : List CycleTask}
    (hnow : w.now ≤ now) (htasks : ∀ t ∈ tasks, TaskOk u day own now (w.db.lastAutoReset u) t) :
    ResetInv u day own gone opening { w with now, tasks } where
  books := h.books
  addons := h.addons.mono hnow
  tasks := htasks
  finished := h.finished
  log := h.log
  ordered := h.ordered
  recorded := h.recorded

theorem start_ok (clock : ℤ) (last : WithBot ℤ) (c : CycleCall) :
    TaskOk u day own clock last (c.start clock) := by
  cases c with
  | runMonthlyTrafficReset => exact ⟨trivial, by simp [CycleCall.start, CycleTask.monthlyRun]⟩
  | rechargeSubscriptionTrafficCycles =>
    exact ⟨trivial, by simp [CycleCall.start, CycleTask.monthlyRun]⟩
  | purchaseTrafficAddonWithBalance req =>
    exact ⟨⟨le_rfl, trivial, trivial⟩,
      by simp [CycleCall.start, CycleTask.monthlyRun, SettleCaller.monthlyRun]⟩

theorem ResetInv.outcome (h : ResetInv u day own gone opening w) {out : CycleOutcome} (i : ℕ)
    (hout : out.Ok u day own gone w.now w.db) :
    ResetInv u day own gone opening
      { w with
        db := out.db
        tasks := w.tasks.eraseIdx i ++ out.task.toList
        resets := w.resets ++ out.reset.toList
        finished := w.finished ++ out.finished.toList } := by
  refine
    { books := hout.books
      addons := hout.addons
      tasks := ?_
      finished := ?_
      log := ?_
      ordered := ?_
      recorded := ?_ }
  · intro t ht
    rw [mem_append, Option.mem_toList] at ht
    rcases ht with ht | ht
    · exact (h.tasks t (mem_of_mem_eraseIdx ht)).mono le_rfl hout.grows
    · exact hout.task t ht
  · intro n hn
    rw [mem_append, Option.mem_toList] at hn
    rcases hn with hn | hn
    · exact (h.finished n hn).mono hout.grows
    · exact hout.finished n hn
  · intro e he hu
    rw [mem_append, Option.mem_toList] at he
    rcases he with he | he
    · obtain ⟨hmonthly, hwritten, hle⟩ := h.log e he hu
      exact ⟨hmonthly, hwritten, hle.trans hout.grows⟩
    · obtain ⟨hmonthly, hclock, -, hle, hbound⟩ := hout.reset e he hu
      exact ⟨hmonthly, hclock ▸ WithBot.coe_le_coe.mp (hle.trans hbound), hle⟩
  · rw [pairwise_append]
    refine ⟨h.ordered, ?_, ?_⟩
    · cases out.reset with
      | none => exact List.Pairwise.nil
      | some e => exact pairwise_singleton _ e
    · -- the new boundary is past the recorded reset, and with it past every old one
      intro e he e' he' hu hu'
      rw [Option.mem_toList] at he'
      obtain ⟨-, -, hlt, -⟩ := hout.reset e' he' hu'
      exact WithBot.coe_lt_coe.mp ((h.log e he hu).2.2.trans_lt hlt)
  · by_cases hreset : ∃ e ∈ out.reset, e.userId = u
    · obtain ⟨e, he, hu⟩ := hreset
      obtain ⟨-, hclock, -, -, hbound⟩ := hout.reset e he hu
      refine .inr ⟨e, ?_, hu, hclock ▸ hbound⟩
      rw [mem_append, Option.mem_toList]
      exact .inr he
    · simp only [not_exists, not_and] at hreset
      rw [hout.silent hreset]
      refine h.recorded.imp_right ?_
      rintro ⟨e, he, hu, hle⟩
      exact ⟨e, mem_append_left _ he, hu, hle⟩

theorem sameCycles_other (db : Database) (edit : Database → Database) (user : User → User) :
    SameCycles db { edit db with
      users := db.users.map (editUser user)
      userSubscriptions := db.userSubscriptions
      userTrafficAddons := db.userTrafficAddons } := by
  refine ⟨?_, rfl⟩
  rw [map_map]
  rfl

theorem ResetInv.step (hday : 1 ≤ day ∧ day ≤ 28) (e : CycleEvent) (hmeets : StepMeets u day w e)
    (h : ResetInv u day own gone opening w) :
    ResetInv u day own gone opening (stepCycle w e) := by
  cases e with
  | tick ms =>
    apply h.keep (by omega)
    intro t ht
    exact (h.tasks t ht).mono (by omega) le_rfl
  | call c =>
    apply h.keep le_rfl
    intro t ht
    rw [mem_append, mem_singleton] at ht
    rcases ht with ht | rfl
    · exact h.tasks t ht
    · exact start_ok _ _ c
  | step i env fault =>
    rw [stepCycle]
    cases htask : w.tasks[i]? with
    | none => exact h
    | some t =>
      apply h.outcome i
      exact CycleTask.step_ok hday h.books h.addons (h.tasks t (mem_of_getElem? htask))
        (hmeets t htask)
  | crash i =>
    apply h.keep le_rfl
    intro t ht
    exact h.tasks t (mem_of_mem_eraseIdx ht)
  | other edit user =>
    have hsame := sameCycles_other w.db edit user
    have hlast := lastAutoReset_of_sameCycles h.books hsame
    exact
      { books := h.books.of_sameCycles hsame
        addons := h.addons
        tasks := hlast.symm ▸ h.tasks
        finished := hlast.symm ▸ h.finished
        log := hlast.symm ▸ h.log
        ordered := h.ordered
        recorded := hlast.symm ▸ h.recorded }

end

/-! ## One reset per boundary -/

/-- Where a run begins: no call in flight and nothing in the log, an auto-reset user
whose subscriptions wait for a boundary of the reset day, and add-ons in force that
last to one. -/
structure CyclesOpen (u day : ℤ) (w : CyclePanel) : Prop where
  books : CycleBooks u day (w.db.userSubscriptions.map UserSubscription.owner) w.db
  addons : ∀ a ∈ w.db.userTrafficAddons, a.status = .active → ∀ s ∈ w.db.userSubscriptions,
    s.id = a.subscriptionId → s.userId = u → Lasts day s.expiresAt a
  idle : w.tasks = [] ∧ w.resets = [] ∧ w.finished = []

/-- What a run from `w₀` has come to: resets on boundaries, one at most for each. -/
structure ResetsOnce (u day : ℤ) (w₀ w : CyclePanel) : Prop where
  onBoundary : ∀ e ∈ w.resets, e.userId = u →
    ∃ i, e.boundary = seconds (boundaryAt day i) ∧ boundaryAt day i ≤ e.writtenAt
  atMostOnce : ∀ i, w.resets.countP (fun e =>
    e.userId = u ∧ e.boundary = seconds (boundaryAt day i)) ≤ 1
  done : ∀ n ∈ w.finished, ∀ i, boundaryAt day i ≤ n →
    seconds (boundaryAt day i) ≤ w₀.db.lastAutoReset u ∨
      ∃ e ∈ w.resets, e.userId = u ∧ boundaryAt day i ≤ e.writtenAt
  notBefore : w.resets.Pairwise fun e e' => e.userId = u → e'.userId = u →
    ∀ i, e.boundary = seconds (boundaryAt day i) → boundaryAt day (i + 1) ≤ e'.writtenAt
  addons : ∀ a ∈ w.db.userTrafficAddons, ∀ s ∈ w.db.userSubscriptions, s.id = a.subscriptionId →
    s.userId = u → s.expiresAt.all (seconds w.now < ·) → ∀ i, seconds (boundaryAt day i) ≤ a.createdAt →
      w.now < boundaryAt day (i + 1) → a.status = .active ∨ a ∈ w₀.db.userTrafficAddons

section

variable {u day : ℤ} {w₀ w : CyclePanel}

theorem CyclesOpen.inv (h : CyclesOpen u day w₀) :
    ResetInv u day (w₀.db.userSubscriptions.map UserSubscription.owner) w₀.db.userTrafficAddons
      (w₀.db.lastAutoReset u) w₀ where
  books := h.books
  addons := by
    intro a ha x hx hid hu
    obtain ⟨s, hs, rfl⟩ := mem_map.mp hx
    exact ⟨fun hactive => h.addons a ha hactive s hs hid hu, fun _ => .inl ha⟩
  tasks := by simp [h.idle.1]
  finished := by simp [h.idle.2.2]
  log := by simp [h.idle.2.1]
  ordered := by simp [h.idle.2.1]
  recorded := .inl rfl

variable {own : List (ℤ × ℤ × Option ℤ)} {gone : List UserTrafficAddon} {opening : WithBot ℤ}

section

variable (h : ResetInv u day own gone opening w)

include h

theorem ResetInv.atMostOnce (b : ℤ) : w.resets.countP (fun e => e.userId = u ∧ e.boundary = b) ≤ 1 := by
  rw [countP_eq_length_filter]
  have hordered := h.ordered.filter fun e => decide (e.userId = u ∧ e.boundary = b)
  have hall : ∀ e ∈ w.resets.filter (fun e => decide (e.userId = u ∧ e.boundary = b)),
      e.userId = u ∧ e.boundary = b := by
    intro e he
    exact of_decide_eq_true (mem_filter.mp he).2
  generalize w.resets.filter (fun e => decide (e.userId = u ∧ e.boundary = b)) = es at *
  match es, hordered, hall with
  | [], _, _ | [_], _, _ => simp
  | e :: e' :: _, hordered, hall =>
    have hlt := (pairwise_cons.mp hordered).1 e' mem_cons_self
    obtain ⟨hu, hb⟩ := hall e mem_cons_self
    obtain ⟨hu', hb'⟩ := hall e' (mem_cons_of_mem _ mem_cons_self)
    have habs := hlt hu hu'
    omega

theorem ResetInv.onBoundary {e : TrafficReset} (he : e ∈ w.resets) (hu : e.userId = u) :
    ∃ i, e.boundary = seconds (boundaryAt day i) ∧ boundaryAt day i ≤ e.writtenAt := by
  obtain ⟨⟨i, hi⟩, hwritten, -⟩ := h.log e he hu
  exact ⟨i, hi, le_of_seconds_boundaryAt_le (hi ▸ hwritten)⟩

theorem ResetInv.done {n i : ℤ} (hn : n ∈ w.finished) (hi : boundaryAt day i ≤ n) :
    seconds (boundaryAt day i) ≤ opening ∨
      ∃ e ∈ w.resets, e.userId = u ∧ boundaryAt day i ≤ e.writtenAt := by
  have hcovered := h.finished n hn i hi
  refine h.recorded.imp ?_ ?_
  · intro hopening
    exact hopening ▸ hcovered
  · rintro ⟨e, he, hu, hle⟩
    have hsec := WithBot.coe_le_coe.mp (hcovered.trans hle)
    exact ⟨e, he, hu, le_of_seconds_boundaryAt_le hsec⟩

theorem ResetInv.notBefore :
    w.resets.Pairwise fun e e' => e.userId = u → e'.userId = u →
      ∀ i, e.boundary = seconds (boundaryAt day i) → boundaryAt day (i + 1) ≤ e'.writtenAt := by
  apply h.ordered.imp_of_mem
  intro e e' _ he' hlt hu hu' i hi
  obtain ⟨j, hj, hle⟩ := h.onBoundary he' hu'
  have hij := hlt hu hu'
  rw [hi, hj, seconds_boundaryAt_lt] at hij
  exact ((boundaryAt_strictMono day).monotone (by omega)).trans hle

theorem ResetInv.addonActive {a : UserTrafficAddon}
    (ha : a ∈ w.db.userTrafficAddons) {s : UserSubscription} (hs : s ∈ w.db.userSubscriptions)
    (hid : s.id = a.subscriptionId) (hu : s.userId = u) (hend : s.expiresAt.all (seconds w.now < ·)) {i : ℤ}
    (hcreated : seconds (boundaryAt day i) ≤ a.createdAt) (hnow : w.now < boundaryAt day (i + 1)) :
    a.status = .active ∨ a ∈ gone := by
  cases hstatus : a.status with
  | active => exact .inl rfl
  | expired =>
    right
    obtain hgone | ⟨j, hafter, hpast⟩ | ⟨e, he, hpast⟩ :=
      (h.addons a ha _ (h.books.mem_own hs) hid hu).2 hstatus
    · exact hgone
    · have hij := seconds_boundaryAt_lt.mp (hcreated.trans_lt hafter)
      have hji := (boundaryAt_strictMono day).lt_iff_lt.mp (hpast.trans_lt hnow)
      omega
    · have hends : s.expiresAt = some e := he
      rw [hends, Option.all_some, decide_eq_true_eq] at hend
      omega

end

/-! ### What a line of the log stands for -/

/-- A line that the step writes is that of a user whose traffic it has set to zero. -/
def CycleOutcome.Zeroes (out : CycleOutcome) : Prop :=
  ∀ line ∈ out.reset, ∃ v ∈ out.db.users, v.id = line.userId ∧ v.trafficUsed = 0

section

variable {fault : ℕ → Option String} {db : Database}

theorem zeroes_attemptCycle {α : Type} (m : Db α) (caught : Option CycleTask)
    (next : α → Option CycleTask) : (attemptCycle m fault db caught next).Zeroes := by
  unfold attemptCycle
  split <;> exact nofun

theorem zeroes_attemptReset (clock userId boundary resetAt : ℤ) (next : ℕ → Option CycleTask) :
    (attemptReset clock userId boundary resetAt fault db next).Zeroes := by
  unfold attemptReset
  split
  · rename_i affected db' hrun
    obtain ⟨rfl, rfl⟩ := Prod.mk.inj (Returns.of_run hrun).of_statement
    intro line hline
    simp only [Option.mem_ite_none_right] at hline
    obtain ⟨hhit, hline⟩ := hline
    obtain rfl := Option.some.inj hline
    -- one row is hit at least, and a row that is hit is zeroed
    obtain ⟨v, hv, hp⟩ := countP_pos_iff.mp hhit
    refine ⟨v.trafficResetAt resetAt, mem_updateWhere.mpr ⟨v, hv, if_pos hp⟩, ?_, rfl⟩
    rw [decide_eq_true_eq] at hp
    exact hp.1
  · exact nofun

theorem zeroes_step (env : Env) (clock : ℤ) (t : CycleTask) : (t.step env clock fault db).Zeroes := by
  cases t with
  | settling userId now caller pc =>
    cases pc with
    | reset cycles => exact zeroes_attemptReset clock userId _ now _
    | expire todo cycles =>
      cases todo with
      | nil => exact nofun
      | cons cycle todo => exact zeroes_attemptCycle _ none _
    | update todo =>
      cases todo with
      | nil => exact nofun
      | cons cycle todo => exact zeroes_attemptCycle _ none _
    | _ => exact zeroes_attemptCycle _ none _
  | resetting now users =>
    cases users with
    | nil => exact nofun
    | cons user users => exact zeroes_attemptReset clock user.id _ now _
  | rechargingUsers now run userIds => cases userIds <;> exact nofun
  | monthly | listedUsers run userIds | purchasing req settled => exact nofun
  | _ => exact zeroes_attemptCycle _ _ _

end

/-- **A line of the log is a reset**: the step that writes it leaves the user's traffic at zero. -/
theorem logged_reset_zeroes {w : CyclePanel} {e : CycleEvent} {line : TrafficReset}
    (h : (stepCycle w e).resets = w.resets ++ [line]) :
    ∃ v ∈ (stepCycle w e).db.users, v.id = line.userId ∧ v.trafficUsed = 0 := by
  have hgrows : w.resets ≠ w.resets ++ [line] := by simp
  cases e with
  | step i env fault =>
    unfold stepCycle at h ⊢
    dsimp only at h ⊢
    split at h
    · exact absurd h hgrows
    · rename_i t ht
      have hline : line ∈ (t.step env w.now fault w.db).reset := by
        have hlist := append_cancel_left h
        exact Option.mem_toList.mp (hlist ▸ mem_singleton_self line)
      exact zeroes_step env w.now t line hline
  | _ => exact absurd h hgrows

/-- **One reset per boundary**, over every run whose steps find what they need. -/
theorem resets_once_per_boundary (hday : 1 ≤ day ∧ day ≤ 28) (hopen : CyclesOpen u day w₀)
    (es : List CycleEvent) (hadm : Admissible (StepMeets u day) stepCycle w₀ es) :
    ResetsOnce u day w₀ (Run.run stepCycle w₀ es) := by
  have hinv := run_invariant_of_admissible (fun w e => ResetInv.step (w := w) hday e) es w₀ hadm
    hopen.inv
  exact
    { onBoundary := fun e he hu => hinv.onBoundary he hu
      atMostOnce := fun i => hinv.atMostOnce _
      done := fun n hn i hi => hinv.done hn hi
      notBefore := hinv.notBefore
      addons := fun a ha s hs hid hu hend i hcreated hnow =>
        hinv.addonActive ha hs hid hu hend hcreated hnow }

end

/-! ### Fixed runs -/

/-- A step of the `i`-th call in which nothing goes wrong. -/
def quietStep (i : ℕ) : CycleEvent := .step i quietEnv fun _ => none

/-- Ten seconds before April: reset day 1, the last reset in March, a subscription that
waits for the 1st and traffic to buy. -/
def panelAtMonthEnd : CyclePanel where
  now := 1774972790000
  db :=
    { users := [{ id := 1, trafficUsed := 700, trafficAutoReset := true, trafficResetDay := 1,
                  lastAutoTrafficReset := some 1772294410 }]
      subscriptionPlans := [{ id := 1, trafficLimit := 1000 }]
      subscriptionPlanTrafficAddons := [{ id := 1, planId := 1, trafficBytes := 500 }]
      userSubscriptions := [{ id := 1, userId := 1, planId := 1, planSnapshot := some ⟨1000⟩,
                              startedAt := 1768449600, nextTrafficResetAt := some 1774972800,
                              lastTrafficResetAt := some 1772294410 }] }

theorem panelAtMonthEnd_open : CyclesOpen 1 1 panelAtMonthEnd where
  books :=
    { userIds := by decide
      user := ⟨_, rfl, rfl, rfl⟩
      ids := by decide
      owners := rfl
      nexts := by
        intro s hs _ e he
        obtain rfl := mem_singleton.mp hs
        obtain rfl := Option.some.inj he
        exact ⟨24315, by decide⟩ }
  addons := by simp [panelAtMonthEnd]
  idle := ⟨rfl, rfl, rfl⟩

/-- A monthly run right after the boundary, and a purchase after it. -/
def aprilRun : List CycleEvent :=
  [.tick 20000, .call .runMonthlyTrafficReset] ++ List.replicate 16 (quietStep 0) ++
    [.call (.purchaseTrafficAddonWithBalance { userId := 1, addonId := 1 })] ++
    List.replicate 7 (quietStep 0)

theorem resets_once_in_april :
    (Run.run stepCycle panelAtMonthEnd aprilRun).resets = [⟨1, 1774972800, 1774972810000⟩] ∧
      ResetsOnce 1 1 panelAtMonthEnd (Run.run stepCycle panelAtMonthEnd aprilRun) :=
  ⟨by decide +kernel,
    resets_once_per_boundary (by decide) panelAtMonthEnd_open aprilRun (by decide +kernel)⟩

/-- Reset day 28 and the last reset in January: the panel was down over the 28th of
February and is back on the 1st of March. -/
def panelAfterOutage : CyclePanel where
  now := 1772294410000
  db :=
    { users := [{ id := 1, trafficUsed := 700, trafficAutoReset := true, trafficResetDay := 28,
                  lastAutoTrafficReset := some 1769529630 }] }

def marchRun : List CycleEvent := .call .runMonthlyTrafficReset :: List.replicate 6 (quietStep 0)

/-- **A missed boundary.** The run asks whether the 28th has come this month and goes
by without the reset of February. -/
theorem boundary_missed_after_outage :
    CyclesOpen 1 28 panelAfterOutage ∧
      ¬ ResetsOnce 1 28 panelAfterOutage (Run.run stepCycle panelAfterOutage marchRun) := by
  refine ⟨?_, ?_⟩
  · exact
      { books :=
          { userIds := by decide
            user := ⟨_, rfl, rfl, rfl⟩
            ids := by decide
            owners := rfl
            nexts := by simp [panelAfterOutage] }
        addons := by simp [panelAfterOutage]
        idle := ⟨rfl, rfl, rfl⟩ }
  · intro h
    have hfinished : (Run.run stepCycle panelAfterOutage marchRun).finished = [1772294410000] := by
      decide +kernel
    have hresets : (Run.run stepCycle panelAfterOutage marchRun).resets = [] := by decide +kernel
    have hdone := h.done 1772294410000 (hfinished ▸ List.mem_singleton_self _) 24313 (by decide)
    rw [hresets] at hdone
    rcases hdone with hbefore | ⟨e, he, -⟩
    · exact absurd hbefore (by decide)
    · cases he

/-- One instance has read the rows for an alignment; before it writes, another one
settles the boundary and sells an add-on, and both go on. -/
def overtakenRun : List CycleEvent :=
  [.call .rechargeSubscriptionTrafficCycles] ++ List.replicate 4 (quietStep 0) ++
    [.tick 20000, .call (.purchaseTrafficAddonWithBalance { userId := 1, addonId := 1 })] ++
    List.replicate 9 (quietStep 1) ++ [quietStep 0, quietStep 0]

/-- A purchase that opens before the boundary and pays after it. -/
def straddlingRun : List CycleEvent :=
  .call (.purchaseTrafficAddonWithBalance { userId := 1, addonId := 1 }) ::
    List.replicate 4 (quietStep 0) ++ [.tick 20000, quietStep 0]

theorem addon_lost_at_boundary (es : List CycleEvent) (hes : es = overtakenRun ∨ es = straddlingRun) :
    ¬ ResetsOnce 1 1 panelAtMonthEnd (Run.run stepCycle panelAtMonthEnd es) := by
  intro h
  have hlost : ∃ a ∈ (Run.run stepCycle panelAtMonthEnd es).db.userTrafficAddons,
      ∃ s ∈ (Run.run stepCycle panelAtMonthEnd es).db.userSubscriptions, s.id = a.subscriptionId ∧
        s.userId = 1 ∧ s.expiresAt.all (seconds (Run.run stepCycle panelAtMonthEnd es).now < ·) ∧
        seconds (boundaryAt 1 24315) ≤ a.createdAt ∧
        (Run.run stepCycle panelAtMonthEnd es).now < boundaryAt 1 (24315 + 1) ∧
        a.status ≠ .active ∧ a ∉ panelAtMonthEnd.db.userTrafficAddons := by
    rcases hes with rfl | rfl
    · decide +kernel
    · decide +kernel
  obtain ⟨a, ha, s, hs, hid, hu, hend, hcreated, hnow, hstatus, hnew⟩ := hlost
  exact (h.addons a ha s hs hid hu hend 24315 hcreated hnow).elim hstatus hnew

end ForwardX.Panel
