/-
Crashes in the middle of an Apply: what `recoverInterruptedApply` of `agent/xray_persistence.go`
finds on the disk, wherever `Apply` of `agent/xray_runtime.go` was interrupted.

Every file operation may be the last one. The marker and the last good config say what to put back,
so the order of the writes matters; the invariant lists what the disk can hold at each point, and
recovery is a function of that list.
-/
import ForwardX.Agent.XrayApply
import ForwardX.Lib.Writes

namespace ForwardX.Agent.XrayCrashes

open XrayTypes XrayApply Run Writes XrayRuntime List

/-! ## Disks -/

section

variable (tools : XrayTools)

/-- The config, its hash, the current link and state.json belong to this state. -/
structure Whole (d : Disk) (state : XrayRuntimeState) : Prop where
  committed : d.state = some state
  valid : state.Validate = true
  config : ∃ config, d.config = some config ∧ tools.hashXrayBytes config = state.appliedConfigHash
  configHash : d.configHash = some state.appliedConfigHash
  current : d.current = some state.currentVersion
  binary : tools.binary state.currentVersion = some state.currentBinarySHA256

/-- The marker and the last good config are enough to complete this state. -/
structure Restorable (d : Disk) (state : XrayRuntimeState) : Prop where
  marker : d.marker = some state
  valid : state.Validate = true
  lastGood : ∃ config, d.lastGood = some config ∧ tools.hashXrayBytes config = state.appliedConfigHash
  lastGoodHash : d.lastGoodHash = some state.appliedConfigHash
  binary : tools.binary state.currentVersion = some state.currentBinarySHA256

/-- No Apply is half done, and this state is committed. -/
def Settled (d : Disk) : Option XrayRuntimeState → Prop
  | none => d.marker = none ∧ d.state = none
  | some state => d.marker = none ∧ Whole tools d state

/-- The recovery leads to this state. -/
def Stable (d : Disk) : Option XrayRuntimeState → Prop
  | none => d.marker = none ∧ d.state = none
  | some state => (Whole tools d state ∧ ∀ previousState ∈ d.marker, previousState.Validate = true ∧ previousState ≠ state) ∨
      (Restorable tools d state ∧ d.state = some state)

/-- The way back to this state is on the disk. -/
def Marked (d : Disk) : Option XrayRuntimeState → Prop
  | none => d.marker = none
  | some state => Restorable tools d state

/-- The link leads to an installed version, if it is there. -/
def Linked (d : Disk) : Prop :=
  ∀ version ∈ d.current, xrayVersionPattern version = true ∧ (tools.binary version).isSome = true

end

variable {tools : XrayTools} {d : Disk} {o : Option XrayRuntimeState}

theorem Settled.stable (h : Settled tools d o) : Stable tools d o := by
  cases o with
  | none => exact h
  | some state => exact .inl ⟨h.2, fun p hp => by simp [h.1] at hp⟩

theorem Marked.stable (h : Marked tools d o) (hstate : d.state = o) : Stable tools d o := by
  cases o with
  | none => exact ⟨h, hstate⟩
  | some state => exact .inr ⟨h, hstate⟩

variable {state : XrayRuntimeState}

theorem Whole.stable (h : Whole tools d state)
    (hmarked : Marked tools d o) : Stable tools d (some state) := by
  cases o with
  | none => exact .inl ⟨h, fun p hp => by simp [show d.marker = none from hmarked] at hp⟩
  | some p =>
    by_cases hp : p = state
    · exact .inr ⟨hp ▸ hmarked, h.committed⟩
    · refine .inl ⟨h, fun q hq => ?_⟩
      obtain rfl : p = q := by simpa [hmarked.marker] using hq
      exact ⟨hmarked.valid, hp⟩

theorem marked_of_same {d' : Disk} (h : Marked tools d o) (hmarker : d'.marker = d.marker)
    (hgood : d'.lastGood = d.lastGood) (hgoodHash : d'.lastGoodHash = d.lastGoodHash) : Marked tools d' o := by
  cases o with
  | none => exact hmarker.trans h
  | some p =>
    exact ⟨hmarker.trans h.marker, h.valid, hgood ▸ h.lastGood, hgoodHash.trans h.lastGoodHash, h.binary⟩

theorem Whole.settled (h : Whole tools d state) :
    Settled tools (FileOp.run d .removeMarker) (some state) :=
  ⟨rfl, h.committed, h.valid, h.config, h.configHash, h.current, h.binary⟩

/-! ## Reads -/

theorem hash_of_validate (h : state.Validate = true) :
    xraySHA256Pattern state.appliedConfigHash = true := by
  simp only [XrayRuntimeState.Validate, Bool.and_eq_true] at h
  exact h.1.1.1.1.2

theorem readState_of_valid (hstate : d.state = o)
    (hvalid : ∀ state ∈ o, state.Validate = true) : readState d = some o := by
  subst hstate
  unfold readState
  cases hstate : d.state with
  | none => rfl
  | some state =>
    dsimp only
    rw [if_pos (hvalid state hstate)]

theorem readMarker_of_valid (hmarker : d.marker = o)
    (hvalid : ∀ state ∈ o, state.Validate = true) : readMarker d = some o := by
  subst hmarker
  unfold readMarker
  cases hmarker : d.marker with
  | none => rfl
  | some state =>
    dsimp only
    rw [if_pos (hvalid state hmarker)]

theorem readCurrent_of_linked (h : Linked tools d) : readCurrent tools d = some d.current := by
  unfold readCurrent
  cases hcurrent : d.current with
  | none => rfl
  | some version =>
    obtain ⟨hpattern, hbinary⟩ := h version hcurrent
    dsimp only
    rw [if_pos (by rw [hpattern, hbinary]; rfl)]

/-- What `snapshot` makes of a whole state. -/
def wholeSnapshot (state : XrayRuntimeState) (config : String) : XrayApply.Snapshot :=
  ⟨some state, config, state.appliedConfigHash, true, state.currentVersion, true⟩

theorem snapshot_of_whole (h : Whole tools d state) :
    ∃ config, tools.hashXrayBytes config = state.appliedConfigHash ∧
      snapshot tools d = some (wholeSnapshot state config) := by
  obtain ⟨config, hconfig, hhash⟩ := h.config
  have hlinked : Linked tools d := by
    intro version hversion
    obtain rfl : state.currentVersion = version := by simpa [h.current] using hversion
    exact ⟨XrayRuntimeState.version_of_validate h.valid, by simp [h.binary]⟩
  have hread : readState d = some (some state) :=
    readState_of_valid h.committed fun s hs => by
      obtain rfl : state = s := by simpa using hs
      exact h.valid
  refine ⟨config, hhash, ?_⟩
  unfold snapshot
  rw [hread, readCurrent_of_linked hlinked, h.current]
  dsimp only
  rw [hconfig, h.configHash]
  dsimp only
  rw [if_pos ⟨hash_of_validate h.valid, hhash⟩]
  unfold compareFiles
  dsimp only
  rw [if_pos ⟨rfl, h.binary, rfl⟩]
  rfl

theorem snapshot_of_none (hstate : d.state = none) (hlinked : Linked tools d) : snapshot tools d = some {} := by
  unfold snapshot
  rw [readState_of_valid hstate (by simp), readCurrent_of_linked hlinked]

theorem snapshot_of_settled (h : Settled tools d o) (hlinked : Linked tools d) :
    ∃ snap, snapshot tools d = some snap ∧ snap.state = o := by
  cases o with
  | none => exact ⟨_, snapshot_of_none h.2 hlinked, rfl⟩
  | some state =>
    obtain ⟨config, -, hsnap⟩ := snapshot_of_whole h.2
    exact ⟨_, hsnap, rfl⟩

/-! ## The recovery -/

/-- File operations that are not refused, `P` between any two of them and `Q` in the end. -/
def Leads (tools : XrayTools) (P Q : Disk → Prop) (d : Disk) (ops : List FileOp) : Prop :=
  Through (fun op : FileOp => op.allowed tools = true) FileOp.run P Q d ops

theorem runAll_of_leads {P Q : Disk → Prop} {ops : List FileOp} (h : Leads tools P Q d ops) :
    runAll tools d ops = some (ops.foldl FileOp.run d) := by
  induction ops generalizing d with
  | nil => rfl
  | cons op ops ih =>
    rw [runAll, if_pos h.head]
    exact ih h.tail

theorem current_allowed (hvalid : state.Validate = true)
    (hbinary : tools.binary state.currentVersion = some state.currentBinarySHA256) :
    (FileOp.current state.currentVersion).allowed tools = true := by
  simp [FileOp.allowed, XrayRuntimeState.version_of_validate hvalid, hbinary]

theorem leads_restore {config : String} (h : Restorable tools d state)
    (hstate : d.state = some state) (hconfig : tools.hashXrayBytes config = state.appliedConfigHash) :
    Leads tools (Stable tools · (some state)) (Settled tools · (some state)) d
      (restoreOps config state ++ [.removeMarker]) := by
  have hkept {d' : Disk} (hmarker : d'.marker = d.marker) (hgood : d'.lastGood = d.lastGood)
      (hgoodHash : d'.lastGoodHash = d.lastGoodHash) (hstate : d'.state = some state) : Stable tools d' (some state) :=
    .inr ⟨⟨hmarker ▸ h.marker, h.valid, hgood ▸ h.lastGood, hgoodHash ▸ h.lastGoodHash, h.binary⟩, hstate⟩
  have hsettled {d' : Disk} (hmarker : d'.marker = none) (hstate : d'.state = some state) (hcurrent : d'.config = some config)
      (hhash : d'.configHash = some state.appliedConfigHash) (hcurrent : d'.current = some state.currentVersion) :
      Settled tools d' (some state) :=
    ⟨hmarker, ⟨hstate, h.valid, ⟨config, ‹_›, hconfig⟩, hhash, hcurrent, h.binary⟩⟩
  refine ⟨hkept rfl rfl rfl hstate, rfl, hkept rfl rfl rfl hstate, rfl, hkept rfl rfl rfl hstate,
    current_allowed h.valid h.binary, hkept rfl rfl rfl hstate, h.valid, hkept rfl rfl rfl rfl, rfl, ?_, ?_⟩
  · exact (hsettled rfl rfl rfl rfl rfl).stable
  · exact hsettled rfl rfl rfl rfl rfl

theorem recoverOps_of_stable (h : Stable tools d o) :
    ∃ ops, recoverOps tools d = some ops ∧ Leads tools (Stable tools · o) (Settled tools · o) d ops := by
  unfold recoverOps
  cases o with
  | none =>
    rw [readMarker_of_valid h.1 (by simp)]
    exact ⟨[], rfl, h, h⟩
  | some state =>
    rcases h with ⟨hwhole, hmarker⟩ | ⟨hrestorable, hstate⟩
    · cases hm : d.marker with
      | none =>
        rw [readMarker_of_valid hm (by simp)]
        exact ⟨[], rfl, .inl ⟨hwhole, hmarker⟩, hm, hwhole⟩
      | some p =>
        obtain ⟨hvalid, hne⟩ := hmarker p hm
        obtain ⟨config, -, hsnap⟩ := snapshot_of_whole hwhole
        rw [readMarker_of_valid hm (by simpa using hvalid), readState_of_valid hwhole.committed (by simpa using hwhole.valid)]
        have hside : ((some state).all fun x => decide (x = p)) = false := by simpa using Ne.symm hne
        dsimp only
        rw [hside, hsnap]
        exact ⟨_, rfl, .inl ⟨hwhole, hmarker⟩, rfl, hwhole.settled.stable, hwhole.settled⟩
    · obtain ⟨config, hgood, hhash⟩ := hrestorable.lastGood
      rw [readMarker_of_valid hrestorable.marker (by simpa using hrestorable.valid),
        readState_of_valid hstate (by simpa using hrestorable.valid)]
      dsimp only
      rw [if_pos (by simp), hgood, hrestorable.lastGoodHash]
      dsimp only
      rw [if_pos ⟨rfl, hhash, hrestorable.binary⟩]
      exact ⟨_, rfl, leads_restore hrestorable hstate hhash⟩

theorem linked_run {op : FileOp} (hallowed : op.allowed tools = true) (h : Linked tools d) :
    Linked tools (op.run d) := by
  cases op with
  | current version =>
    intro v hv
    obtain rfl : version = v := by simpa [FileOp.run] using hv
    simpa [FileOp.allowed] using hallowed
  | removeCurrent =>
    intro v hv
    simp [FileOp.run] at hv
  | _ => exact h

theorem linked_foldl {P Q : Disk → Prop} {ops : List FileOp} (h : Leads tools P Q d ops) (hlinked : Linked tools d) :
    Linked tools (ops.foldl FileOp.run d) := by
  induction ops generalizing d with
  | nil => exact hlinked
  | cons op ops ih => exact ih h.tail (linked_run h.head hlinked)

section

variable {o : Option XrayRuntimeState} (h : Stable tools d o) (hlinked : Linked tools d)

include h hlinked

theorem recover_of_stable :
    ∃ d', recoverInterruptedApply tools d = some d' ∧ Settled tools d' o ∧ Linked tools d' := by
  obtain ⟨ops, hops, hleads⟩ := recoverOps_of_stable h
  refine ⟨ops.foldl FileOp.run d, ?_, hleads.done, linked_foldl hleads hlinked⟩
  rw [recoverInterruptedApply, hops]
  exact runAll_of_leads hleads

theorem committed_of_stable : committed tools d = o := by
  obtain ⟨d', hrecover, hsettled, hlinked'⟩ := recover_of_stable h hlinked
  obtain ⟨snap, hsnap, hstate⟩ := snapshot_of_settled hsettled hlinked'
  simp [committed, hrecover, hsnap, hstate]

end

/-! ## The condition -/

/-- A rollback after a doubtful write of state.json goes on until it has restored or removed
state.json, once it has touched another file. -/
def TameStep (w : XrayRuntime) (out : Outcome) : Prop :=
  match w.pc with
  | .restoring _ _ (_ :: ops) => w.doubtful = true →
      (out.file = .failedBefore → w.torn = false) ∧ (out.file = .failedAfter → ops = [])
  | .cleaning _ _ [_] _ => w.torn = true → out.file ≠ .failedBefore
  | _ => True

instance (w : XrayRuntime) (out : Outcome) : Decidable (TameStep w out) := by
  cases w
  unfold TameStep
  dsimp only
  split <;> infer_instance

def Tame (w : XrayRuntime) : XrayApply.Event → Prop
  | .apply _ => True
  | .step out => TameStep w out
  | .crash _ => w.torn = false

instance (w : XrayRuntime) : (e : XrayApply.Event) → Decidable (Tame w e)
  | .apply _ => .isTrue trivial
  | .step out => inferInstanceAs (Decidable (TameStep w out))
  | .crash _ => inferInstanceAs (Decidable (_ = _))

/-! ## What an Apply keeps -/

section

variable (tools : XrayTools)

/-- The recovery leads to the state before the Apply, or to the one it applies. -/
def Safe (d : Disk) (before : Option XrayRuntimeState) (desired : XrayDesiredState) : Prop :=
  Stable tools d before ∨ ∃ binarySHA256, tools.binary desired.targetVersion = some binarySHA256 ∧
    Stable tools d (some (XrayRuntime.newState desired binarySHA256))

structure Checked (desired : XrayDesiredState) : Prop where
  valid : desired.Validate tools = true
  hash : tools.hashXrayBytes desired.configJSON = desired.configHash

/-- The snapshot is that of the state before the Apply. -/
def Read (before : Option XrayRuntimeState) (snap : XrayApply.Snapshot) : Prop :=
  match before with
  | none => snap = {}
  | some p => ∃ config, tools.hashXrayBytes config = p.appliedConfigHash ∧ snap = wholeSnapshot p config

structure Readied (desired : XrayDesiredState) (before : Option XrayRuntimeState) (ctx : Context) : Prop
    extends Checked tools desired where
  read : Read tools before ctx.snapshot
  binary : tools.binary desired.targetVersion = some ctx.binarySHA256
  pattern : xraySHA256Pattern ctx.binarySHA256 = true

/-- No file of the old side but the active ones has been replaced. -/
def Based (d : Disk) (o : Option XrayRuntimeState) : Prop := Marked tools d o ∧ d.state = o

def Activated (desired : XrayDesiredState) (d : Disk) : Prop :=
  d.config = some desired.configJSON ∧ d.configHash = some desired.configHash ∧ d.current = some desired.targetVersion

def Calm (w : XrayRuntime) : Prop := w.doubtful = false ∧ w.torn = false

/-- In a rollback, the old state is in place or the new one is whole, unless the disk is torn. -/
structure Halfway (d : Disk) (before : Option XrayRuntimeState) (applied : XrayRuntimeState) (doubtful torn : Bool) :
    Prop where
  marked : Marked tools d before
  sure : doubtful = false → d.state = before ∧ torn = false
  whole : doubtful = true → torn = false → Whole tools d applied

def RollingBack (w : XrayRuntime) (ctx : Context) : Prop :=
  Halfway tools w.disk w.before (XrayRuntime.newState w.desired ctx.binarySHA256) w.doubtful w.torn

/-- The removals of a rollback without an old side. -/
def withdrawOps : List FileOp := [.removeConfig, .removeConfigHash, .removeCurrent, .removeState]

def Facts (w : XrayRuntime) : Prop :=
  match w.pc with
  | .idle | .returned _ => Safe tools w.disk w.before w.desired
  | .entered => Calm w ∧ Stable tools w.disk w.before
  | .recovering ops => Calm w ∧ Checked tools w.desired ∧ Leads tools (Stable tools · w.before) (Settled tools · w.before) w.disk ops
  | .deciding => Calm w ∧ Checked tools w.desired ∧ Settled tools w.disk w.before
  | .preparing snap => Calm w ∧ Checked tools w.desired ∧ Read tools w.before snap ∧ Settled tools w.disk w.before
  | .saving ctx ops => Calm w ∧ Readied tools w.desired w.before ctx ∧ Leads tools (Stable tools · w.before) (Based tools · w.before) w.disk ops
  | .activating ctx ops => Calm w ∧ Readied tools w.desired w.before ctx ∧
      Leads tools (Based tools · w.before) (Activated w.desired) w.disk ops
  | .stopping ctx | .starting ctx | .probing ctx | .committing ctx =>
      Calm w ∧ Readied tools w.desired w.before ctx ∧ Based tools w.disk w.before ∧ Activated w.desired w.disk
  | .finishing ctx => Readied tools w.desired w.before ctx ∧ Marked tools w.disk w.before ∧
      Whole tools w.disk (XrayRuntime.newState w.desired ctx.binarySHA256)
  | .restoring ctx _ ops => Readied tools w.desired w.before ctx ∧ RollingBack tools w ctx ∧ (ops = [] → w.torn = false) ∧
      ∃ p config, w.before = some p ∧ ops <:+ restoreOps config p ∧
        Leads tools (Restorable tools · p) (Whole tools · p) w.disk ops
  | .restarting _ _ | .reprobing _ _ | .refinishing _ _ =>
      ∃ p, w.before = some p ∧ Restorable tools w.disk p ∧ Whole tools w.disk p
  | .withdrawing ctx _ => Readied tools w.desired w.before ctx ∧ RollingBack tools w ctx ∧ w.before = none ∧ w.torn = false
  | .cleaning ctx _ ops _ => Readied tools w.desired w.before ctx ∧ RollingBack tools w ctx ∧ w.before = none ∧ (ops = [] → w.torn = false) ∧
      ops <:+ withdrawOps

structure Kept (w : XrayRuntime) : Prop where
  linked : Linked tools w.disk
  facts : Facts tools w

end

variable {w : XrayRuntime} {before : Option XrayRuntimeState} {desired : XrayDesiredState} {ctx : Context}

theorem Halfway.safe {doubtful torn : Bool}
    (h : Halfway tools d before (newState desired ctx.binarySHA256) doubtful torn)
    (hready : Readied tools desired before ctx) (htorn : torn = false) : Safe tools d before desired := by
  cases hdoubtful : doubtful with
  | false => exact .inl (h.marked.stable (h.sure hdoubtful).1)
  | true => exact .inr ⟨_, hready.binary, (h.whole hdoubtful htorn).stable h.marked⟩

theorem safe_of_restored
    (h : ∃ p, before = some p ∧ Restorable tools d p ∧ Whole tools d p) : Safe tools d before desired := by
  obtain ⟨p, rfl, hrestorable, hwhole⟩ := h
  exact .inl (.inr ⟨hrestorable, hwhole.committed⟩)

theorem safe_of_facts (htorn : w.torn = false) (h : Facts tools w) : Safe tools w.disk w.before w.desired := by
  unfold Facts at h
  split at h
  case h_1 | h_2 => exact h
  case h_3 => exact .inl h.2
  case h_4 => exact .inl h.2.2.here
  case h_5 => exact .inl h.2.2.stable
  case h_6 => exact .inl h.2.2.2.stable
  case h_7 => exact .inl h.2.2.here
  case h_8 =>
    obtain ⟨hmarked, hstate⟩ := h.2.2.here
    exact .inl (hmarked.stable hstate)
  case h_9 | h_10 | h_11 | h_12 => exact .inl (h.2.2.1.1.stable h.2.2.1.2)
  case h_13 => exact .inr ⟨_, h.1.binary, h.2.2.stable h.2.1⟩
  case h_14 => exact Halfway.safe h.2.1 h.1 htorn
  case h_15 | h_16 | h_17 => exact safe_of_restored h
  case h_18 | h_19 => exact Halfway.safe h.2.1 h.1 htorn

/-! ## Steps -/

theorem leads_activate
    (hready : Readied tools desired before ctx) (hbased : Based tools d before) :
    Leads tools (Based tools · before) (Activated desired) d
      [.current desired.targetVersion, .config desired.configJSON, .configHash desired.configHash] := by
  have hkept {d' : Disk} (hmarker : d'.marker = d.marker) (hgood : d'.lastGood = d.lastGood)
      (hgoodHash : d'.lastGoodHash = d.lastGoodHash) (hstate : d'.state = d.state) : Based tools d' before :=
    ⟨marked_of_same hbased.1 hmarker hgood hgoodHash, hstate.trans hbased.2⟩
  have hallowed : (FileOp.current desired.targetVersion).allowed tools = true := by
    simp [FileOp.allowed, XrayDesiredState.version_of_validate hready.valid, hready.binary]
  exact ⟨hbased, hallowed, hkept rfl rfl rfl rfl, rfl, hkept rfl rfl rfl rfl, rfl, hkept rfl rfl rfl rfl, rfl, rfl, rfl⟩

theorem kept_fail (hlinked : Linked tools w.disk) (hsafe : Safe tools w.disk w.before w.desired) (code : XrayAgentErrorCode) (rolledBack : Bool) :
    Kept tools (w.fail code rolledBack) := ⟨hlinked, hsafe⟩

theorem kept_goto {pc : Pc} (hlinked : Linked tools w.disk) (hfacts : Facts tools (w.goto pc)) : Kept tools (w.goto pc) :=
  ⟨hlinked, hfacts⟩

variable {op : FileOp} {out : Outcome}

theorem kept_perform {next failed : XrayRuntime → XrayRuntime}
    (hallowed : op.allowed tools = true)
    (hok : out.file = .ok → Kept tools (next { w with disk := op.run w.disk }))
    (hbefore : out.file = .failedBefore → Kept tools (failed w))
    (hafter : out.file = .failedAfter → Kept tools (failed { w with disk := op.run w.disk })) :
    Kept tools (w.perform tools op out next failed) := by
  unfold perform FileOp.attempt
  rw [if_pos hallowed]
  cases hfile : out.file with
  | ok => exact hok hfile
  | failedBefore => exact hbefore hfile
  | failedAfter => exact hafter hfile

theorem kept_leads {P Q : Disk → Prop} {ops : List FileOp}
    {next failed : XrayRuntime → XrayRuntime} (hlinked : Linked tools w.disk) (hleads : Leads tools P Q w.disk (op :: ops))
    (hnext : Linked tools (op.run w.disk) → Leads tools P Q (op.run w.disk) ops →
      Kept tools (next { w with disk := op.run w.disk }))
    (hfailed : ∀ disk, Linked tools disk → P disk → Kept tools (failed { w with disk })) :
    Kept tools (w.perform tools op out next failed) := by
  have hlinked' := linked_run hleads.head hlinked
  refine kept_perform hleads.head (fun _ => ?_) (fun _ => ?_) fun _ => ?_
  · exact hnext hlinked' hleads.tail
  · exact hfailed _ hlinked hleads.here
  · exact hfailed _ hlinked' hleads.tail.here

theorem kept_call {result : Supervisor × Bool} {next failed : XrayRuntime → XrayRuntime}
    (hnext : Kept tools (next { w with supervisor := result.1 }))
    (hfailed : Kept tools (failed { w with supervisor := result.1 })) :
    Kept tools (w.callSupervisor result next failed) := by
  unfold callSupervisor
  split
  · exact hnext
  · exact hfailed

theorem Readied.whole
    (h : Readied tools desired before ctx) (hactivated : Activated desired d) :
    Whole tools (FileOp.run d (.state (newState desired ctx.binarySHA256)))
      (newState desired ctx.binarySHA256) :=
  ⟨rfl, XrayDesiredState.state_validate h.valid h.pattern _, ⟨_, hactivated.1, h.hash⟩, hactivated.2.1, hactivated.2.2,
    h.binary⟩

theorem leads_rollback {p : XrayRuntimeState} {config : String} (h : Restorable tools d p)
    (hconfig : tools.hashXrayBytes config = p.appliedConfigHash) :
    Leads tools (Restorable tools · p) (Whole tools · p) d (restoreOps config p) := by
  have hkept {d' : Disk} (hmarker : d'.marker = d.marker) (hgood : d'.lastGood = d.lastGood)
      (hgoodHash : d'.lastGoodHash = d.lastGoodHash) : Restorable tools d' p :=
    ⟨hmarker ▸ h.marker, h.valid, hgood ▸ h.lastGood, hgoodHash ▸ h.lastGoodHash, h.binary⟩
  exact ⟨h, rfl, hkept rfl rfl rfl, rfl, hkept rfl rfl rfl, current_allowed h.valid h.binary, hkept rfl rfl rfl, h.valid,
    hkept rfl rfl rfl, rfl, h.valid, ⟨config, rfl, hconfig⟩, rfl, rfl, h.binary⟩

theorem kept_rollback (hlinked : Linked tools w.disk) (hready : Readied tools w.desired w.before ctx)
    (hhalfway : RollingBack tools w ctx) (htorn : w.torn = false) (code : XrayAgentErrorCode) :
    Kept tools (w.rollbackAfterFailure ctx code) := by
  have hread := hready.read
  unfold Read at hread
  unfold rollbackAfterFailure
  cases hbefore : w.before with
  | none =>
    rw [hbefore] at hread
    rw [hread]
    exact kept_goto hlinked ⟨hready, hhalfway, hbefore, htorn⟩
  | some p =>
    rw [hbefore] at hread
    obtain ⟨config, hconfig, hsnap⟩ := hread
    have hmarked := hhalfway.marked
    rw [hbefore] at hmarked
    rw [hsnap]
    exact kept_goto hlinked ⟨hready, hhalfway, fun _ => htorn, p, config, hbefore, suffix_refl _,
      leads_rollback hmarked hconfig⟩

theorem kept_rollback_calm (hlinked : Linked tools w.disk) (hcalm : Calm w) (hready : Readied tools w.desired w.before ctx)
    (hbased : Based tools w.disk w.before) (code : XrayAgentErrorCode) : Kept tools (w.rollbackAfterFailure ctx code) :=
  kept_rollback hlinked hready ⟨hbased.1, fun _ => ⟨hbased.2, hcalm.2⟩, fun h => by simp [hcalm.1] at h⟩ hcalm.2 code

theorem kept_enter (h : Kept tools w) (hpc : w.pc = .entered) (out : Outcome) : Kept tools (w.enter tools out) := by
  have hfacts := h.facts
  unfold Facts at hfacts
  rw [hpc] at hfacts
  obtain ⟨hcalm, hstable⟩ := hfacts
  have hsafe : Safe tools w.disk w.before w.desired := .inl hstable
  obtain ⟨ops, hops, hleads⟩ := recoverOps_of_stable hstable
  unfold enter
  rw [hops]
  split
  · rename_i hvalid
    split
    · rename_i hhash
      split
      · exact kept_goto h.linked ⟨hcalm, ⟨hvalid.1, hhash⟩, hleads⟩
      · exact kept_fail h.linked hsafe _ _
    · exact kept_fail h.linked hsafe _ _
  · exact kept_fail h.linked hsafe _ _

theorem read_of_settled (hlinked : Linked tools w.disk) (h : Settled tools w.disk w.before) {snap : XrayApply.Snapshot}
    (hsnap : snapshot tools w.disk = some snap) : Read tools w.before snap := by
  unfold Read
  cases hbefore : w.before with
  | none =>
    rw [hbefore] at h
    rw [snapshot_of_none h.2 hlinked] at hsnap
    exact (Option.some.inj hsnap).symm
  | some p =>
    rw [hbefore] at h
    obtain ⟨config, hconfig, hwhole⟩ := snapshot_of_whole h.2
    rw [hwhole] at hsnap
    exact ⟨config, hconfig, (Option.some.inj hsnap).symm⟩

theorem kept_decide (h : Kept tools w) (hpc : w.pc = .deciding) (out : Outcome) : Kept tools (w.decide tools out) := by
  have hfacts := h.facts
  unfold Facts at hfacts
  rw [hpc] at hfacts
  obtain ⟨hcalm, hchecked, hsettled⟩ := hfacts
  have hsafe : Safe tools w.disk w.before w.desired := .inl hsettled.stable
  unfold XrayRuntime.decide
  split
  · exact kept_fail h.linked hsafe _ _
  rename_i snap hsnap
  have hprepare : Kept tools (w.goto (.preparing snap)) :=
    kept_goto h.linked ⟨hcalm, hchecked, read_of_settled h.linked hsettled hsnap, hsettled⟩
  split
  · exact hprepare
  split
  · exact kept_fail h.linked hsafe _ _
  split
  · exact kept_fail h.linked hsafe _ _
  split
  · split
    · exact kept_goto h.linked hsafe
    · split
      · exact kept_goto h.linked hsafe
      · exact hprepare
  · exact hprepare

theorem leads_save {p : XrayRuntimeState} {config : String} (h : Settled tools d (some p))
    (hconfig : tools.hashXrayBytes config = p.appliedConfigHash) :
    Leads tools (Stable tools · (some p)) (Based tools · (some p)) d
      [.lastGood config, .lastGoodHash p.appliedConfigHash, .marker p] := by
  obtain ⟨hmarker, hwhole⟩ := h
  have hkept {d' : Disk} (hstate : d'.state = d.state) (hconfig : d'.config = d.config)
      (hhash : d'.configHash = d.configHash) (hcurrent : d'.current = d.current) (hmarker : d'.marker = none) :
      Stable tools d' (some p) :=
    Settled.stable ⟨hmarker, hstate.trans hwhole.committed, hwhole.valid, hconfig ▸ hwhole.config,
      hhash.trans hwhole.configHash, hcurrent.trans hwhole.current, hwhole.binary⟩
  have hbased {d' : Disk} (hstate : d'.state = d.state) (hmarker : d'.marker = some p)
      (hgood : d'.lastGood = some config) (hgoodHash : d'.lastGoodHash = some p.appliedConfigHash) :
      Based tools d' (some p) :=
    ⟨⟨hmarker, hwhole.valid, ⟨config, hgood, hconfig⟩, hgoodHash, hwhole.binary⟩, hstate.trans hwhole.committed⟩
  have hend : Based tools ([.lastGood config, .lastGoodHash p.appliedConfigHash, .marker p].foldl FileOp.run d) (some p) :=
    hbased rfl rfl rfl rfl
  exact ⟨hkept rfl rfl rfl rfl hmarker, rfl, hkept rfl rfl rfl rfl hmarker, rfl, hkept rfl rfl rfl rfl hmarker, rfl,
    hend.1.stable hend.2, hend⟩

theorem kept_prepare (h : Kept tools w) {snap : XrayApply.Snapshot} (hpc : w.pc = .preparing snap) (out : Outcome) :
    Kept tools (w.prepare tools snap out) := by
  have hfacts := h.facts
  unfold Facts at hfacts
  rw [hpc] at hfacts
  obtain ⟨hcalm, hchecked, hread, hsettled⟩ := hfacts
  have hsafe : Safe tools w.disk w.before w.desired := .inl hsettled.stable
  unfold prepare
  split
  · exact kept_fail h.linked hsafe _ _
  rename_i binarySHA256 hbinary
  split
  · rename_i hpattern
    split
    · split
      · refine kept_goto h.linked ⟨hcalm, ⟨hchecked, hread, hbinary, hpattern.2⟩, ?_⟩
        change Leads tools (Stable tools · w.before) (Based tools · w.before) w.disk _
        unfold Read at hread
        cases hbefore : w.before with
        | none =>
          rw [hbefore] at hread hsettled
          rw [hread]
          exact ⟨hsettled, hsettled⟩
        | some p =>
          rw [hbefore] at hread hsettled
          obtain ⟨config, hconfig, rfl⟩ := hread
          exact leads_save hsettled hconfig
      · exact kept_fail h.linked hsafe _ _
    · exact kept_fail h.linked hsafe _ _
  · exact kept_fail h.linked hsafe _ _

/-! ## The rollback -/

theorem restoreStep_before (w : XrayRuntime) (op : FileOp) (isState : Bool) :
    w.restoreStep tools op isState .failedBefore = w := by
  simp [restoreStep, effective]

theorem restoreStep_effective (hallowed : op.allowed tools = true) {out : FileOutcome}
    (hout : out ≠ .failedBefore) (isState : Bool) :
    w.restoreStep tools op isState out =
      { w with doubtful := !isState && w.doubtful, torn := !isState && w.doubtful } := by
  have heffective : effective tools op out = true := by simp [effective, hallowed, hout]
  unfold restoreStep
  rw [if_pos heffective]
  cases isState <;> rfl

theorem kept_restoreStep {last : Bool} {next failed : XrayRuntime → XrayRuntime}
    (hallowed : op.allowed tools = true)
    (hnext : Kept tools (next { w with disk := op.run w.disk, doubtful := !last && w.doubtful, torn := !last && w.doubtful }))
    (hbefore : out.file = .failedBefore → Kept tools (failed w))
    (hafter : out.file = .failedAfter → Kept tools
      (failed { w with disk := op.run w.disk, doubtful := !last && w.doubtful, torn := !last && w.doubtful })) :
    Kept tools ((w.restoreStep tools op last out.file).perform tools op out next failed) := by
  refine kept_perform hallowed (fun hfile => ?_) (fun hfile => ?_) fun hfile => ?_
  · rw [restoreStep_effective hallowed (by simp [hfile])]
    exact hnext
  · rw [hfile, restoreStep_before]
    exact hbefore hfile
  · rw [restoreStep_effective hallowed (by simp [hfile])]
    exact hafter hfile

theorem halfway_file {applied : XrayRuntimeState} {doubtful torn : Bool}
    (h : Halfway tools d before applied doubtful torn) (hmarked : Marked tools (op.run d) before)
    (hstate : (op.run d).state = d.state) : Halfway tools (op.run d) before applied (!false && doubtful) (!false && doubtful) := by
  refine ⟨hmarked, fun hsure => ?_, fun hdoubt hwhole => ?_⟩
  · have hdoubtful : doubtful = false := by simpa using hsure
    exact ⟨hstate.trans (h.sure hdoubtful).1, hsure⟩
  · rw [hdoubt] at hwhole
    cases hwhole

theorem halfway_state (applied : XrayRuntimeState) (doubtful : Bool)
    (hmarked : Marked tools (op.run d) before) (hstate : (op.run d).state = before) :
    Halfway tools (op.run d) before applied (!true && doubtful) (!true && doubtful) :=
  ⟨hmarked, fun _ => ⟨hstate, rfl⟩, fun h => by simp at h⟩

section

variable (h : Kept tools w) {ctx : Context} {code : XrayAgentErrorCode} {op : FileOp} {ops : List FileOp}

include h

theorem kept_restoring (hpc : w.pc = .restoring ctx code (op :: ops)) {out : Outcome} (htame : TameStep w out) :
    Kept tools ((w.restoreStep tools op ops.isEmpty out.file).perform tools op out (·.goto (.restoring ctx code ops))
      (·.fail .rollbackFailed)) := by
  have hfacts := h.facts
  unfold Facts at hfacts
  rw [hpc] at hfacts
  obtain ⟨hready, hrolling, -, p, config, hbefore, hsuffix, hleads⟩ := hfacts
  unfold TameStep at htame
  rw [hpc] at htame
  have hlinked := linked_run hleads.head h.linked
  have hmarked : Marked tools (op.run w.disk) w.before := by
    rw [hbefore]
    exact hleads.tail.here
  have hrest : ops <:+ restoreOps config p := (suffix_cons op ops).trans hsuffix
  -- the last of the operations is that of state.json
  have hop : (ops = [] ∧ op = .state p) ∨ (ops ≠ [] ∧ (op.run w.disk).state = w.disk.state) := by
    simp only [restoreOps, suffix_cons_iff, List.cons.injEq, suffix_nil, reduceCtorEq, or_false] at hsuffix
    rcases hsuffix with ⟨rfl, rfl⟩ | ⟨rfl, rfl⟩ | ⟨rfl, rfl⟩ | ⟨rfl, rfl⟩
    · exact .inr ⟨cons_ne_nil _ _, rfl⟩
    · exact .inr ⟨cons_ne_nil _ _, rfl⟩
    · exact .inr ⟨cons_ne_nil _ _, rfl⟩
    · exact .inl ⟨rfl, rfl⟩
  have hbefore' : out.file = .failedBefore → Kept tools (w.fail .rollbackFailed) := by
    intro hfile
    refine kept_fail h.linked ?_ _ _
    cases hdoubtful : w.doubtful with
    | false => exact Halfway.safe hrolling hready (Halfway.sure hrolling hdoubtful).2
    | true => exact Halfway.safe hrolling hready ((htame hdoubtful).1 hfile)
  rcases hop with ⟨rfl, rfl⟩ | ⟨hne, hstate⟩
  · have hhalfway := halfway_state (newState w.desired ctx.binarySHA256) w.doubtful
      hmarked hbefore.symm
    refine kept_restoreStep hleads.head ?_ hbefore' fun _ => ?_
    · exact kept_goto hlinked ⟨hready, hhalfway, fun _ => rfl, p, config, hbefore, hrest, hleads.tail⟩
    · exact ⟨hlinked, Halfway.safe hhalfway hready rfl⟩
  · have hhalfway := halfway_file hrolling hmarked hstate
    have hempty : ops.isEmpty = false := by simpa using hne
    rw [hempty]
    refine kept_restoreStep hleads.head ?_ hbefore' fun hfile => ?_
    · exact kept_goto hlinked ⟨hready, hhalfway, fun hnil => absurd hnil hne, p, config, hbefore, hrest, hleads.tail⟩
    · have hdoubtful : w.doubtful = false := by
        cases hdoubtful : w.doubtful with
        | false => rfl
        | true => exact absurd ((htame hdoubtful).2 hfile) hne
      exact ⟨hlinked, Halfway.safe hhalfway hready (by simpa using hdoubtful)⟩

theorem kept_cleaning
    {failed : Bool} (hpc : w.pc = .cleaning ctx code (op :: ops) failed) {out : Outcome} (htame : TameStep w out) :
    Kept tools ((w.restoreStep tools op ops.isEmpty out.file).perform tools op out (·.goto (.cleaning ctx code ops failed))
      (·.goto (.cleaning ctx code ops true))) := by
  have hfacts := h.facts
  unfold Facts at hfacts
  rw [hpc] at hfacts
  obtain ⟨hready, hrolling, hbefore, -, hsuffix⟩ := hfacts
  unfold TameStep at htame
  rw [hpc] at htame
  have hrest : ops <:+ withdrawOps := (suffix_cons op ops).trans hsuffix
  have hmarker : w.disk.marker = none := by
    have hmarked := hrolling.marked
    rwa [hbefore] at hmarked
  have hop : op.allowed tools = true ∧ (op.run w.disk).marker = w.disk.marker ∧
      ((ops = [] ∧ (op.run w.disk).state = none) ∨ (ops ≠ [] ∧ (op.run w.disk).state = w.disk.state)) := by
    simp only [withdrawOps, suffix_cons_iff, List.cons.injEq, suffix_nil, reduceCtorEq, or_false] at hsuffix
    rcases hsuffix with ⟨rfl, rfl⟩ | ⟨rfl, rfl⟩ | ⟨rfl, rfl⟩ | ⟨rfl, rfl⟩
    · exact ⟨rfl, rfl, .inr ⟨cons_ne_nil _ _, rfl⟩⟩
    · exact ⟨rfl, rfl, .inr ⟨cons_ne_nil _ _, rfl⟩⟩
    · exact ⟨rfl, rfl, .inr ⟨cons_ne_nil _ _, rfl⟩⟩
    · exact ⟨rfl, rfl, .inl ⟨rfl, rfl⟩⟩
  obtain ⟨hallowed, hkeeps, hop⟩ := hop
  have hlinked := linked_run hallowed h.linked
  have hmarked : Marked tools (op.run w.disk) w.before := by
    rw [hbefore]
    exact hkeeps.trans hmarker
  have hbefore' : out.file = .failedBefore → Kept tools (w.goto (.cleaning ctx code ops true)) := by
    intro hfile
    refine ⟨h.linked, hready, hrolling, hbefore, fun hnil => ?_, hrest⟩
    subst hnil
    by_contra htorn
    exact htame (by simpa [goto] using htorn) hfile
  rcases hop with ⟨rfl, hstate⟩ | ⟨hne, hstate⟩
  · have hhalfway := halfway_state (newState w.desired ctx.binarySHA256) w.doubtful
      hmarked (hstate.trans hbefore.symm)
    refine kept_restoreStep hallowed ?_ hbefore' fun _ => ?_
    · exact ⟨hlinked, hready, hhalfway, hbefore, fun _ => rfl, hrest⟩
    · exact ⟨hlinked, hready, hhalfway, hbefore, fun _ => rfl, hrest⟩
  · have hhalfway := halfway_file hrolling hmarked hstate
    have hempty : ops.isEmpty = false := by simpa using hne
    rw [hempty]
    refine kept_restoreStep hallowed ?_ hbefore' fun _ => ?_
    · exact ⟨hlinked, hready, hhalfway, hbefore, fun hnil => absurd hnil hne, hrest⟩
    · exact ⟨hlinked, hready, hhalfway, hbefore, fun hnil => absurd hnil hne, hrest⟩

end

theorem kept_commit (h : Kept tools w) {ctx : Context} (hpc : w.pc = .committing ctx) (out : Outcome) :
    Kept tools (w.commit tools ctx out) := by
  have hfacts := h.facts
  unfold Facts at hfacts
  rw [hpc] at hfacts
  obtain ⟨hcalm, hready, hbased, hactivated⟩ := hfacts
  have hallowed : (FileOp.state (newState w.desired ctx.binarySHA256)).allowed tools = true :=
    XrayDesiredState.state_validate hready.valid hready.pattern _
  have hwhole := hready.whole hactivated
  have hlinked := linked_run hallowed h.linked
  have hmarked : Marked tools (FileOp.run w.disk (.state (newState w.desired ctx.binarySHA256))) w.before :=
    marked_of_same hbased.1 rfl rfl rfl
  unfold commit
  refine kept_perform hallowed (fun _ => ?_) (fun hfile => ?_) fun hfile => ?_
  · exact ⟨hlinked, hready, hmarked, hwhole⟩
  · rw [hfile]
    refine kept_rollback ?_ ?_ ?_ ?_ _
    · exact h.linked
    · exact hready
    · exact ⟨hbased.1, fun _ => ⟨hbased.2, hcalm.2⟩, fun hdoubtful => by simp at hdoubtful⟩
    · exact hcalm.2
  · -- the write took effect, which is doubtful unless it changed nothing
    rw [hfile]
    refine kept_rollback ?_ ?_ ?_ ?_ _
    · exact hlinked
    · exact hready
    · refine ⟨hmarked, fun hsure => ⟨?_, hcalm.2⟩, fun _ _ => hwhole⟩
      have hsame : w.before = some (newState w.desired ctx.binarySHA256) := by simpa using hsure
      exact hsame.symm
    · exact hcalm.2

theorem kept_step (h : Kept tools w) {out : Outcome} (htame : TameStep w out) : Kept tools (w.step tools out) := by
  have hfacts := h.facts
  unfold Facts at hfacts
  unfold XrayRuntime.step
  split
  case h_1 | h_2 => exact h
  case h_3 heq => exact kept_enter h heq out
  case h_4 heq =>
    rw [heq] at hfacts
    obtain ⟨hcalm, hchecked, hleads⟩ := hfacts
    exact ⟨h.linked, hcalm, hchecked, hleads.done⟩
  case h_5 op ops heq =>
    rw [heq] at hfacts
    obtain ⟨hcalm, hchecked, hleads⟩ := hfacts
    refine kept_leads h.linked hleads (fun hlinked hrest => ?_) fun disk hlinked hstable => ?_
    · exact ⟨hlinked, hcalm, hchecked, hrest⟩
    · exact ⟨hlinked, .inl hstable⟩
  case h_6 heq => exact kept_decide h heq out
  case h_7 snap heq => exact kept_prepare h heq out
  case h_8 ctx heq =>
    rw [heq] at hfacts
    obtain ⟨hcalm, hready, hleads⟩ := hfacts
    exact ⟨h.linked, hcalm, hready, leads_activate hready hleads.done⟩
  case h_9 ctx op ops heq =>
    rw [heq] at hfacts
    obtain ⟨hcalm, hready, hleads⟩ := hfacts
    refine kept_leads h.linked hleads (fun hlinked hrest => ?_) fun disk hlinked hstable => ?_
    · exact ⟨hlinked, hcalm, hready, hrest⟩
    · exact ⟨hlinked, .inl hstable⟩
  case h_10 ctx heq =>
    rw [heq] at hfacts
    obtain ⟨hcalm, hready, hleads⟩ := hfacts
    split
    · exact ⟨h.linked, hcalm, hready, hleads.here, hleads.done⟩
    · exact ⟨h.linked, hcalm, hready, hleads.here, hleads.done⟩
  case h_11 ctx op ops heq =>
    rw [heq] at hfacts
    obtain ⟨hcalm, hready, hleads⟩ := hfacts
    refine kept_leads h.linked hleads (fun hlinked hrest => ?_) fun disk hlinked hbased => ?_
    · exact ⟨hlinked, hcalm, hready, hrest⟩
    · refine kept_rollback_calm ?_ ?_ ?_ ?_ _
      · exact hlinked
      · exact hcalm
      · exact hready
      · exact hbased
  case h_12 ctx heq =>
    rw [heq] at hfacts
    obtain ⟨hcalm, hready, hbased, hactivated⟩ := hfacts
    refine kept_call ?_ ?_
    · exact ⟨h.linked, hcalm, hready, hbased, hactivated⟩
    · refine kept_rollback_calm ?_ ?_ ?_ ?_ _
      · exact h.linked
      · exact hcalm
      · exact hready
      · exact hbased
  case h_13 ctx heq =>
    rw [heq] at hfacts
    obtain ⟨hcalm, hready, hbased, hactivated⟩ := hfacts
    refine kept_call ?_ ?_
    · exact ⟨h.linked, hcalm, hready, hbased, hactivated⟩
    · refine kept_rollback_calm ?_ ?_ ?_ ?_ _
      · exact h.linked
      · exact hcalm
      · exact hready
      · exact hbased
  case h_14 ctx heq =>
    rw [heq] at hfacts
    obtain ⟨hcalm, hready, hbased, hactivated⟩ := hfacts
    split
    · exact ⟨h.linked, hcalm, hready, hbased, hactivated⟩
    · exact kept_rollback_calm h.linked hcalm hready hbased _
  case h_15 ctx heq => exact kept_commit h heq out
  case h_16 ctx heq =>
    rw [heq] at hfacts
    obtain ⟨hready, hmarked, hwhole⟩ := hfacts
    have hremoved := hwhole.settled
    refine kept_perform rfl (fun _ => ?_) (fun _ => ?_) fun _ => ?_
    · exact ⟨h.linked, .inr ⟨_, hready.binary, hremoved.stable⟩⟩
    · exact ⟨h.linked, .inr ⟨_, hready.binary, hwhole.stable hmarked⟩⟩
    · exact ⟨h.linked, .inr ⟨_, hready.binary, hremoved.stable⟩⟩
  case h_17 ctx code heq =>
    rw [heq] at hfacts
    obtain ⟨-, -, -, p, config, hbefore, -, hleads⟩ := hfacts
    exact ⟨h.linked, p, hbefore, hleads.here, hleads.done⟩
  case h_18 ctx code op ops heq => exact kept_restoring h heq htame
  case h_19 ctx code heq =>
    rw [heq] at hfacts
    split
    · exact h
    · refine kept_call ?_ ?_
      · exact ⟨h.linked, hfacts⟩
      · exact ⟨h.linked, safe_of_restored hfacts⟩
  case h_20 ctx code heq =>
    rw [heq] at hfacts
    split
    · exact ⟨h.linked, hfacts⟩
    · exact ⟨h.linked, safe_of_restored hfacts⟩
  case h_21 ctx code heq =>
    rw [heq] at hfacts
    have hsafe : Safe tools w.disk w.before w.desired := safe_of_restored hfacts
    obtain ⟨p, hbefore, hrestorable, hwhole⟩ := hfacts
    have hremoved : Safe tools (FileOp.run w.disk .removeMarker) w.before w.desired := by
      rw [hbefore]
      exact .inl hwhole.settled.stable
    refine kept_perform rfl (fun _ => ?_) (fun _ => ?_) fun _ => ?_
    · exact ⟨h.linked, hremoved⟩
    · exact ⟨h.linked, hsafe⟩
    · exact ⟨h.linked, hremoved⟩
  case h_22 ctx code heq =>
    rw [heq] at hfacts
    obtain ⟨hready, hrolling, hbefore, htorn⟩ := hfacts
    refine kept_call ?_ ?_
    · exact ⟨h.linked, hready, hrolling, hbefore, fun _ => htorn, suffix_refl _⟩
    · exact ⟨h.linked, Halfway.safe hrolling hready htorn⟩
  case h_23 ctx code failed heq =>
    rw [heq] at hfacts
    obtain ⟨hready, hrolling, -, htorn, -⟩ := hfacts
    exact ⟨h.linked, Halfway.safe hrolling hready (htorn rfl)⟩
  case h_24 ctx code op ops failed heq => exact kept_cleaning h heq htame

theorem kept_next (w : XrayRuntime) (e : XrayApply.Event) (htame : Tame w e) (h : Kept tools w) : Kept tools (next tools w e) := by
  cases e with
  | apply desired =>
    rw [XrayApply.next]
    split
    · rename_i hresting
      have hsafe : Safe tools w.disk w.before w.desired := by
        have hfacts := h.facts
        unfold Facts at hfacts
        cases hpc : w.pc with
        | idle | returned =>
          rw [hpc] at hfacts
          exact hfacts
        | _ =>
          rw [hpc] at hresting
          exact hresting.elim
      obtain ⟨o, hstable⟩ : ∃ o, Stable tools w.disk o := by
        rcases hsafe with hstable | ⟨_, -, hstable⟩
        · exact ⟨_, hstable⟩
        · exact ⟨_, hstable⟩
      refine ⟨h.linked, ⟨rfl, rfl⟩, ?_⟩
      change Stable tools w.disk (committed tools w.disk)
      rw [committed_of_stable hstable h.linked]
      exact hstable
    · exact h
  | step out => exact kept_step h htame
  | crash supervisor =>
    have hsafe := safe_of_facts htame h.facts
    exact ⟨h.linked, hsafe⟩

/-! ## The result -/

/-- The recovery succeeds, and what it leaves is read as one state whose files are all there: the one
before the last Apply, or the one that it applied. -/
def Consistent (tools : XrayTools) (w : XrayRuntime) : Prop :=
  ∃ d snap, recoverInterruptedApply tools w.disk = some d ∧ snapshot tools d = some snap ∧
    (∀ state ∈ snap.state, Whole tools d state) ∧
    (snap.state = w.before ∨ ∃ binarySHA256, tools.binary w.desired.targetVersion = some binarySHA256 ∧
      snap.state = some (XrayRuntime.newState w.desired binarySHA256))

theorem consistent_of_safe (hlinked : Linked tools w.disk) (h : Safe tools w.disk w.before w.desired) :
    Consistent tools w := by
  have hrecover {o : Option XrayRuntimeState} (hstable : Stable tools w.disk o) :
      ∃ d snap, recoverInterruptedApply tools w.disk = some d ∧ snapshot tools d = some snap ∧
        (∀ state ∈ snap.state, Whole tools d state) ∧ snap.state = o := by
    obtain ⟨d, hd, hsettled, hlinked'⟩ := recover_of_stable hstable hlinked
    obtain ⟨snap, hsnap, rfl⟩ := snapshot_of_settled hsettled hlinked'
    refine ⟨d, snap, hd, hsnap, fun state hstate => ?_, rfl⟩
    rw [Option.mem_def.mp hstate] at hsettled
    exact hsettled.2
  rcases h with hstable | ⟨binarySHA256, hbinary, hstable⟩
  · obtain ⟨d, snap, hd, hsnap, hwhole, hstate⟩ := hrecover hstable
    exact ⟨d, snap, hd, hsnap, hwhole, .inl hstate⟩
  · obtain ⟨d, snap, hd, hsnap, hwhole, hstate⟩ := hrecover hstable
    exact ⟨d, snap, hd, hsnap, hwhole, .inr ⟨binarySHA256, hbinary, hstate⟩⟩

/-- **An interrupted Apply is recovered from**, in every run in which no Apply ends, or crashes,
between the first file that a rollback replaces after a doubtful write of state.json and state.json
itself. -/
theorem recovery_consistent (tools : XrayTools) {disk : Disk} {before : Option XrayRuntimeState}
    (hstable : Stable tools disk before) (hlinked : Linked tools disk) (supervisor : Supervisor) (es : List XrayApply.Event)
    (htame : Admissible Tame (next tools) { disk, supervisor, before } es)
    (hresting : (run (next tools) { disk, supervisor, before } es).pc.Resting) :
    Consistent tools (run (next tools) { disk, supervisor, before } es) := by
  have hkept := run_invariant_of_admissible (I := Kept tools) kept_next es _ htame ⟨hlinked, .inl hstable⟩
  refine consistent_of_safe hkept.linked ?_
  have hfacts := hkept.facts
  unfold Facts at hfacts
  cases hpc : (run (next tools) { disk, supervisor, before } es).pc with
  | idle | returned =>
    rw [hpc] at hfacts
    exact hfacts
  | _ =>
    rw [hpc] at hresting
    exact hresting.elim

/-- The agent crashes when the second generation's config is in place, and its hash is not. -/
def crashedRun : List XrayApply.Event := applied stoppedDesired 12 ++ applied runningDesired 10 ++ [.crash {}]

theorem recovery_consistent_crashed : Consistent sampleTools (run (next sampleTools) {} crashedRun) := by
  have hempty : Stable sampleTools {} none := ⟨rfl, rfl⟩
  have hlinked : Linked sampleTools {} := fun version hversion => by simp at hversion
  have hrun : Admissible Tame (next sampleTools) {} crashedRun ∧
      (run (next sampleTools) {} crashedRun).pc.Resting := by decide +kernel
  exact recovery_consistent sampleTools hempty hlinked {} crashedRun hrun.1 hrun.2

/-- The new state.json is in place when its write reports a failure, and the agent crashes when the
rollback has restored the old config. -/
def tornRun : List XrayApply.Event :=
  applied stoppedDesired 12 ++ applied runningDesired 14 ++ [.step { file := .failedAfter }, .step {}, .crash {}]

theorem torn_by_rollback :
    (run (next sampleTools) {} tornRun).pc = .idle ∧
      recoverInterruptedApply sampleTools (run (next sampleTools) {} tornRun).disk = none ∧
      ¬ Consistent sampleTools (run (next sampleTools) {} tornRun) := by
  have hrun : (run (next sampleTools) {} tornRun).pc = .idle ∧
      recoverInterruptedApply sampleTools (run (next sampleTools) {} tornRun).disk = none := by decide +kernel
  refine ⟨hrun.1, hrun.2, fun ⟨d, _, hd, _⟩ => ?_⟩
  rw [hrun.2] at hd
  cases hd

end ForwardX.Agent.XrayCrashes
