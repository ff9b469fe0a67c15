import Orcastork.DataPoints.Canonical
import Orcastork.Adapters.Memory.Store

/-!
# The Redis DataPoint store

`RedisDataPointStore` keeps a session in hashes keyed by identity strings. Every mutating
operation is one Lua script, which is atomic and guarded by the session's epoch, and after
it the refresh of the keys' lifetimes; `write` reads all DataPoints first and decides with
that snapshot what the script is to store.

Each command of an operation may fail without effect; the operation then raises. The
numbers of the hashes are kept as numbers here, DataPoints, effect marks and session meta
are the strings the store writes. Keys do not expire. A hash has no order of its own.
-/

namespace Orcastork

/-- What the store takes from libraries: the literals of `repr`, the JSON of DataPoints and
the text of timestamps. -/
structure Wire extends Literals where
  /-- `orjson.dumps` of the model's dump. -/
  dumps : BaseDataPoint → String
  /-- `parse_data_point` of `orjson.loads`. -/
  parse : String → Except OrchestrationError BaseDataPoint
  isoformat : Timestamp → String
  fromisoformat : String → Timestamp

/-- The commands of an operation: the read of all DataPoints, the script, and the pipeline
that slides the lifetimes. -/
inductive RedisCommand where
  | hgetall
  | script
  | slideTtl
  deriving DecidableEq, Repr

/-- What an operation of the store raises: an error of the framework, or that of a command
that failed. -/
inductive RedisError where
  | orchestration (error : OrchestrationError)
  | commandFailed (command : RedisCommand)
  deriving DecidableEq, Repr

/-- The mode of a triple: a new identity, or one observed again. -/
inductive WriteMode where
  | a
  | u
  deriving DecidableEq, Repr

/-- What the write script stores for one identity. -/
structure Triple where
  identity : String
  mode : WriteMode
  json : String
  deriving DecidableEq, Repr

/-- The keys of one session. A number that is absent is `0`. -/
structure RedisSession where
  epoch : Epoch
  rev : Revision
  dp : Dict String String
  added : Dict String Revision
  upd : Dict String Revision
  wm : Dict OperatorId Revision
  fx : Dict String String
  metaFields : Dict String String

/-- `_identity`: a DataPoint's field in the hashes. -/
def Wire.identity (wire : Wire) (dataPoint : BaseDataPoint) : String :=
  dataPoint.type ++ "\x00" ++ wire.canonicalValue dataPoint

/-- `EFFECT_COMMITTED`. -/
def effectCommitted : String := "committed"

/-- `effect_pending_state`: the stored form of a claim in flight. -/
def effectPendingState (epoch : Epoch) : String := "pending:" ++ toString epoch

/-- The string an effect's state is stored as. -/
def EffectState.text : EffectState → String
  | .pending epoch => effectPendingState epoch
  | .committed => effectCommitted

namespace RedisSession

/-- The session nothing was written to. -/
def initial : RedisSession where
  epoch := 0
  rev := 0
  dp := .empty
  added := .empty
  upd := .empty
  wm := .empty
  fx := .empty
  metaFields := .empty

/-! ### The scripts

A script returns `-1` if the epoch is stale, and then has changed nothing. -/

/-- The guard every script starts with, and what it does once the epoch is accepted. -/
def guarded (session : RedisSession) (epoch : Epoch) (body : RedisSession → ℤ × RedisSession) :
    ℤ × RedisSession :=
  if epoch < session.epoch then (-1, session)
  else body (if epoch > session.epoch then { session with epoch := epoch } else session)

/-- One turn of the write script's loop. -/
def storeTriple (rev : Revision) (session : RedisSession) (triple : Triple) : RedisSession :=
  { session with
    dp := session.dp.set triple.identity triple.json
    upd := session.upd.set triple.identity rev
    added := if triple.mode = .a then session.added.set triple.identity rev else session.added }

/-- `_WRITE_SCRIPT`. -/
def writeScript (triples : List Triple) (epoch : Epoch) (session : RedisSession) :
    ℤ × RedisSession :=
  session.guarded epoch fun session =>
    if triples.isEmpty then (session.rev, session)
    else
      let rev := session.rev + 1
      (rev, triples.foldl (storeTriple rev) { session with rev := rev })

/-- `_GUARDED_FIELD_SCRIPT` on the hash of watermarks. -/
def watermarkScript (operatorId : OperatorId) (revision : Revision) (epoch : Epoch)
    (session : RedisSession) : ℤ × RedisSession :=
  session.guarded epoch fun session =>
    (0, { session with wm := session.wm.set operatorId revision })

/-- `_GUARDED_FIELD_SCRIPT` on the session meta. -/
def metaScript (field value : String) (epoch : Epoch) (session : RedisSession) :
    ℤ × RedisSession :=
  session.guarded epoch fun session =>
    (0, { session with metaFields := session.metaFields.set field value })

/-- `_CLAIM_EFFECT_SCRIPT`. -/
def claimEffectScript (effectKey : String) (reclaimStale : Bool) (epoch : Epoch)
    (session : RedisSession) : ℤ × RedisSession :=
  session.guarded epoch fun session =>
    let pending := "pending:" ++ toString epoch
    let claimed := { session with fx := session.fx.set effectKey pending }
    match session.fx.get? effectKey with
    | none => (1, claimed)
    | some state =>
      if state = "committed" then (2, session)
      else if state = pending then (3, session)
      else if reclaimStale then (1, claimed)
      else (4, session)

/-- `_COMMIT_EFFECT_SCRIPT`. -/
def commitEffectScript (effectKey : String) (epoch : Epoch) (session : RedisSession) :
    ℤ × RedisSession :=
  session.guarded epoch fun session =>
    if session.fx.get? effectKey = some ("pending:" ++ toString epoch) then
      (0, { session with fx := session.fx.set effectKey "committed" })
    else (0, session)

/-- `_REVERT_EFFECT_SCRIPT`. -/
def revertEffectScript (effectKey : String) (epoch : Epoch) (session : RedisSession) :
    ℤ × RedisSession :=
  session.guarded epoch fun session =>
    if session.fx.get? effectKey = some ("pending:" ++ toString epoch) then
      (0, { session with fx := session.fx.erase effectKey })
    else (0, session)

/-! ### The operations

`failing` is the command of the call that fails, if one does. -/

/-- A script, the check of its result, and the refresh of the lifetimes: what `_apply`,
`_run_effect_script` and the setters have in common. -/
def runScript (session : RedisSession) (sessionId : SessionId) (epoch : Epoch)
    (script : Epoch → RedisSession → ℤ × RedisSession) (failing : Option RedisCommand) :
    Except RedisError ℤ × RedisSession :=
  if failing = some .script then (.error (.commandFailed .script), session)
  else
    let (result, session) := script epoch session
    if result = -1 then
      (.error (.orchestration (.staleEpoch s!"epoch {epoch} is stale for session {sessionId}")),
        session)
    else if failing = some .slideTtl then (.error (.commandFailed .slideTtl), session)
    else (.ok result, session)

/-- `_apply`. -/
def apply (session : RedisSession) (sessionId : SessionId) (triples : List Triple)
    (epoch : Epoch) (failing : Option RedisCommand) : Except RedisError Revision × RedisSession :=
  let (result, session) := session.runScript sessionId epoch (writeScript triples) failing
  (result.map Int.toNat, session)

/-- What `write` stores for one DataPoint, by the snapshot it has read. -/
def tripleOf (wire : Wire) (current : Dict String String) (dataPoint : BaseDataPoint) :
    Except OrchestrationError (Option Triple) :=
  let identity := wire.identity dataPoint
  match current.get? identity with
  | none => .ok (some ⟨identity, .a, wire.dumps dataPoint⟩)
  | some existingRaw => do
    let existingDp ← wire.parse existingRaw
    if dataPoint.lastRetrieved > existingDp.lastRetrieved then
      return some ⟨identity, .u, wire.dumps (existingDp.reobserved dataPoint.lastRetrieved)⟩
    return none

/-- The triples of `write`. -/
def writeTriples (wire : Wire) (current : Dict String String) :
    List BaseDataPoint → Except OrchestrationError (List Triple)
  | [] => .ok []
  | dataPoint :: dataPoints => do
    let triple ← tripleOf wire current dataPoint
    return triple.toList ++ (← writeTriples wire current dataPoints)

/-- `write`. -/
def write (wire : Wire) (session : RedisSession) (sessionId : SessionId)
    (dataPoints : List BaseDataPoint) (epoch : Epoch) (failing : Option RedisCommand) :
    Except RedisError Revision × RedisSession :=
  if failing = some .hgetall then (.error (.commandFailed .hgetall), session)
  else
    match writeTriples wire session.dp dataPoints with
    | .error error => (.error (.orchestration error), session)
    | .ok triples => session.apply sessionId triples epoch failing

/-- The triples of `apply_resolved`: the given split is the mode. -/
def resolvedTriples (wire : Wire) (added updated : List BaseDataPoint) : List Triple :=
  added.map (fun dataPoint => ⟨wire.identity dataPoint, .a, wire.dumps dataPoint⟩)
    ++ updated.map (fun dataPoint => ⟨wire.identity dataPoint, .u, wire.dumps dataPoint⟩)

/-- `apply_resolved`. -/
def applyResolved (wire : Wire) (session : RedisSession) (sessionId : SessionId)
    (added updated : List BaseDataPoint) (epoch : Epoch) (failing : Option RedisCommand) :
    Except RedisError Revision × RedisSession :=
  session.apply sessionId (resolvedTriples wire added updated) epoch failing

/-- `set_watermark`. -/
def setWatermark (session : RedisSession) (sessionId : SessionId) (operatorId : OperatorId)
    (revision : Revision) (epoch : Epoch) (failing : Option RedisCommand) :
    Except RedisError Unit × RedisSession :=
  let (result, session) :=
    session.runScript sessionId epoch (watermarkScript operatorId revision) failing
  (result.map (fun _ => ()), session)

/-- `_CLAIM_RESULTS`. -/
def claimResult : ℤ → EffectClaim
  | 1 => .acquired
  | 2 => .alreadyCommitted
  | 3 => .pendingSameEpoch
  | _ => .pendingStaleEpoch

/-- `claim_effect`. -/
def claimEffect (session : RedisSession) (sessionId : SessionId) (effectKey : String)
    (epoch : Epoch) (reclaimStale : Bool) (failing : Option RedisCommand) :
    Except RedisError EffectClaim × RedisSession :=
  let (result, session) :=
    session.runScript sessionId epoch (claimEffectScript effectKey reclaimStale) failing
  (result.map claimResult, session)

/-- `commit_effect`. -/
def commitEffect (session : RedisSession) (sessionId : SessionId) (effectKey : String)
    (epoch : Epoch) (failing : Option RedisCommand) : Except RedisError Unit × RedisSession :=
  let (result, session) := session.runScript sessionId epoch (commitEffectScript effectKey) failing
  (result.map (fun _ => ()), session)

/-- `revert_effect`. -/
def revertEffect (session : RedisSession) (sessionId : SessionId) (effectKey : String)
    (epoch : Epoch) (failing : Option RedisCommand) : Except RedisError Unit × RedisSession :=
  let (result, session) := session.runScript sessionId epoch (revertEffectScript effectKey) failing
  (result.map (fun _ => ()), session)

/-- `set_session_deadline`. -/
def setSessionDeadline (wire : Wire) (session : RedisSession) (sessionId : SessionId)
    (deadline : Timestamp) (epoch : Epoch) (failing : Option RedisCommand) :
    Except RedisError Unit × RedisSession :=
  let (result, session) :=
    session.runScript sessionId epoch (metaScript "deadline" (wire.isoformat deadline)) failing
  (result.map (fun _ => ()), session)

/-- `set_flow_fingerprint`. -/
def setFlowFingerprint (session : RedisSession) (sessionId : SessionId) (fingerprint : String)
    (epoch : Epoch) (failing : Option RedisCommand) : Except RedisError Unit × RedisSession :=
  let (result, session) :=
    session.runScript sessionId epoch (metaScript "flow_fingerprint" fingerprint) failing
  (result.map (fun _ => ()), session)

/-! ### Reads -/

/-- One item of the DataPoint hash, with its stamps. -/
def readEntry (wire : Wire) (session : RedisSession) (item : String × String) :
    Except OrchestrationError Entry := do
  let dataPoint ← wire.parse item.2
  return ⟨dataPoint, (session.added.get? item.1).getD 0, (session.upd.get? item.1).getD 0⟩

/-- `_entries`: the stored DataPoints with their stamps. -/
def entries (wire : Wire) (session : RedisSession) : Except OrchestrationError (List Entry) :=
  session.dp.items.mapM (session.readEntry wire)

/-- `snapshot`. -/
def snapshot (wire : Wire) (session : RedisSession) : Except OrchestrationError DataPointView := do
  let entries ← session.entries wire
  return entries.map Entry.dataPoint

/-- `change_set_since`. -/
def changeSetSince (wire : Wire) (session : RedisSession) (since : Revision) :
    Except OrchestrationError ChangeSet := do
  let entries ← session.entries wire
  return {
    added := (entries.filter (fun e => e.addedRev > since)).map Entry.dataPoint
    updated :=
      (entries.filter (fun e => ¬e.addedRev > since ∧ e.updatedRev > since)).map Entry.dataPoint }

/-- `get_watermark`. -/
def getWatermark (session : RedisSession) (operatorId : OperatorId) : Option Revision :=
  session.wm.get? operatorId

/-- `get_effect_state`. -/
def getEffectState (session : RedisSession) (effectKey : String) : Option String :=
  session.fx.get? effectKey

/-- `get_session_deadline`. -/
def getSessionDeadline (wire : Wire) (session : RedisSession) : Option Timestamp :=
  (session.metaFields.get? "deadline").map wire.fromisoformat

/-- `get_flow_fingerprint`. -/
def getFlowFingerprint (session : RedisSession) : Option String :=
  session.metaFields.get? "flow_fingerprint"

/-! ### What a guarded script does -/

/-- A script whose epoch is stale changes nothing. -/
theorem guarded_of_lt {session : RedisSession} {epoch : Epoch} (h : epoch < session.epoch)
    (body : RedisSession → ℤ × RedisSession) :
  session.guarded epoch body = (-1, session)
  := by
  rw [guarded, if_pos h]

/-- A script whose epoch is accepted runs with the epoch recorded. -/
theorem guarded_of_le {session : RedisSession} {epoch : Epoch} (h : session.epoch ≤ epoch)
    (body : RedisSession → ℤ × RedisSession) :
  session.guarded epoch body = body { session with epoch := epoch }
  := by
  rw [guarded, if_neg (Nat.not_lt.mpr h)]
  split
  · rfl
  · rename_i hle
    have heq : session.epoch = epoch := Nat.le_antisymm h (Nat.le_of_not_lt hle)
    rw [← heq]

section

variable {session session' : RedisSession} {sessionId : SessionId} {epoch : Epoch}
variable {script : Epoch → RedisSession → ℤ × RedisSession} {result : ℤ}
variable {failing : Option RedisCommand}

/-- A script that fails has no effect. -/
theorem runScript_failed :
  session.runScript sessionId epoch script (some .script)
    = (.error (.commandFailed .script), session)
  := by
  rw [runScript, if_pos rfl]

/-- A script that reports a stale epoch makes the operation raise `StaleEpochError`. -/
theorem runScript_stale (hfailing : failing ≠ some .script)
    (hscript : script epoch session = (-1, session)) :
  session.runScript sessionId epoch script failing
    = (.error (.orchestration (.staleEpoch s!"epoch {epoch} is stale for session {sessionId}")),
        session)
  := by
  rw [runScript, if_neg hfailing, hscript]
  rfl

/-- A script that is accepted is in effect, also when the refresh after it fails. -/
theorem runScript_slideTtl (hscript : script epoch session = (result, session'))
    (hresult : result ≠ -1) :
  session.runScript sessionId epoch script (some .slideTtl)
    = (.error (.commandFailed .slideTtl), session')
  := by
  rw [runScript, if_neg (by decide), hscript]
  simp only [hresult, if_false, if_true]

/-- With no command failing, the result of an accepted script is returned. -/
theorem runScript_accepted (hscript : script epoch session = (result, session'))
    (hresult : result ≠ -1) (hfailing : failing ≠ some .script ∧ failing ≠ some .slideTtl) :
  session.runScript sessionId epoch script failing = (.ok result, session')
  := by
  rw [runScript, if_neg hfailing.1, hscript]
  simp only [hresult, if_false, hfailing.2]

end

/-- An accepted write script without triples only records the epoch. -/
theorem writeScript_nil {session : RedisSession} {epoch : Epoch} (h : session.epoch ≤ epoch) :
  writeScript [] epoch session = ((session.rev : ℤ), { session with epoch := epoch })
  := by
  rw [writeScript, guarded_of_le h]
  rfl

/-- An accepted write script stores its triples at the next revision. -/
theorem writeScript_of_le {session : RedisSession} {epoch : Epoch} (h : session.epoch ≤ epoch)
    {triples : List Triple} (htriples : triples.isEmpty = false) :
  writeScript triples epoch session
    = (((session.rev + 1 : ℕ) : ℤ), triples.foldl (storeTriple (session.rev + 1))
        { session with epoch := epoch, rev := session.rev + 1 })
  := by
  rw [writeScript, guarded_of_le h]
  simp only [htriples, Bool.false_eq_true, if_false]

end RedisSession

end Orcastork
