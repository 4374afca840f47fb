/-
The record set of an entry group: `syncEntryGroupDdns` and `preserveForwardGroupDdns` in
`server/repositories/forwardGroupRepository.ts`.
-/
import ForwardX.Panel.GroupHealth

namespace ForwardX.Panel.EntryGroupDdns

open GroupHealth

inductive RecordType where
  | A
  | AAAA
  | CNAME
  deriving DecidableEq

structure Entry where
  member : Member
  value : String
  liveness : MemberAgentLiveness

/-- What the evaluation depends on besides the rows: the settings, whether the liveness and the rows
are still the same each time it looks again, and whether the provider accepts the update. -/
structure Outcome where
  domain : Bool := true
  autoResolve : Bool := true
  ddnsEnabled : Bool := true
  forceSync : Bool := false
  reconciliationDue : Bool := false
  currentFirst : Bool := true
  currentBefore : Bool := true
  currentAfter : Bool := true
  updated : Bool := true

/-! ## The members -/

structure Sweep where
  values : List String := []
  pending : Bool := false
  stopped : Bool := false

def includeMember (values : List String) (value : String) : List String :=
  if values.contains value then values else values ++ [value]

def wasUnhealthy (member : Member) : Bool := member.healthStatus = .unhealthy || member.failureSince.isSome

/-- Whether the address of the member stays in the record set or gets into it. -/
def isIncluded (member : Member) (health : Health) (previouslyIncluded : Bool) : Bool :=
  if health.healthPending then previouslyIncluded
  else if health.healthy then previouslyIncluded || !wasUnhealthy member || health.recoveredLongEnough
  else previouslyIncluded && !health.failedLongEnough

def Entry.considered (entry : Entry) : Bool :=
  entry.member.isEnabled && entry.member.memberType = .host && entry.value != ""

/-- A member in the loop, and its health if it was judged. A CNAME has one target. -/
def sweepEntry (group : Group) (recordType : RecordType) (previous : List String) (now : ℤ) (sweep : Sweep) (entry : Entry) :
    Sweep × Entry × Option Health :=
  if sweep.stopped || !entry.considered then (sweep, entry, none)
  else
    let (health, member) := evaluateEntryMember group entry.member entry.liveness now
    let included := isIncluded entry.member health (previous.contains entry.value)
    ({ values := if included then includeMember sweep.values entry.value else sweep.values
       pending := sweep.pending || health.healthPending
       stopped := recordType = .CNAME && included }, { entry with member }, some health)

def sweepEntries (group : Group) (recordType : RecordType) (previous : List String) (now : ℤ) :
    Sweep → List Entry → Sweep × List (Entry × Option Health)
  | sweep, [] => (sweep, [])
  | sweep, entry :: entries =>
    let (sweep, judged) := sweepEntry group recordType previous now sweep entry
    let (sweep, rest) := sweepEntries group recordType previous now sweep entries
    (sweep, judged :: rest)

/-! ## The record set -/

structure Commit where
  sent : List String := []
  recorded : List String

def fallbackValue (previous : List String) (entries : List Entry) : Option String :=
  previous.head?.or ((entries.find? fun entry => entry.member.isEnabled && entry.value != "").map Entry.value)

def preserve (previous : List String) (entries : List Entry) (out : Outcome) : Commit :=
  match fallbackValue previous entries with
  | none => { recorded := previous }
  | some retained =>
    if !out.ddnsEnabled then { recorded := [retained] }
    else if !(out.forceSync || out.reconciliationDue) then { recorded := [retained] }
    else if out.updated then { sent := [retained], recorded := [retained] }
    else { sent := [retained], recorded := previous }

/-- What an entry group without a China health check compares when it looks at the rows again. -/
def statusesKept (group : Group) (entries : List Entry) (judged : List (Entry × Option Health)) : Bool :=
  group.chinaHealthCheckEnabled ||
    entries.map (fun entry => entry.member.healthStatus) = judged.map fun result => result.1.member.healthStatus

def commit (group : Group) (previous : List String) (entries : List Entry) (sweep : Sweep)
    (judged : List (Entry × Option Health)) (out : Outcome) : Commit :=
  let kept := statusesKept group entries judged
  if sweep.pending && (sweep.values.isEmpty || sweep.values = previous) then { recorded := previous }
  else if !out.domain then { recorded := previous }
  else if !(out.currentFirst && kept) then { recorded := previous }
  else if sweep.values.isEmpty then
    if !out.autoResolve then { recorded := previous } else preserve previous entries out
  else if !out.autoResolve then { recorded := sweep.values }
  else if !out.ddnsEnabled then { recorded := sweep.values }
  else if !out.forceSync && previous = sweep.values && !out.reconciliationDue then { recorded := previous }
  else if !(out.currentBefore && kept) then { recorded := previous }
  else if out.updated && out.currentAfter && kept then { sent := sweep.values, recorded := sweep.values }
  else { sent := sweep.values, recorded := previous }

/-- `syncEntryGroupDdns`: the rows, the health of the members that were judged, and the record set. -/
def syncEntryGroupDdns (group : Group) (recordType : RecordType) (previous : List String) (entries : List Entry)
    (now : ℤ) (out : Outcome) : List (Entry × Option Health) × Commit :=
  let (sweep, judged) := sweepEntries group recordType previous now {} entries
  (judged, commit group previous entries sweep judged out)

end ForwardX.Panel.EntryGroupDdns
