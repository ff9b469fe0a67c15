import Orcastork.Adapters.Memory.Archive
import Orcastork.DataPoints.Canonical

/-!
# Archiving and replaying a DataPoint

A DataPoint is archived as an `ArchivedDataPoint`: its value as JSON, its leaf's `pii` flag
and the epoch of the writer. An archive keys an entry by a hash of its plaintext value and
then seals the value, if it is PII; reading unseals it, and replay parses the DataPoint back.

What the leaf classes decide (`Leaves`), the cipher, `sha256` and the JSON text of a value
are taken as they are. Where they invert one another on a DataPoint (`Restores`), sealing,
unsealing and reconstructing it gives it back (`reconstruct_unsealEntry`).
-/

namespace Orcastork

/-! ### Leaves -/

/-- `DataPointTypeConfig`: the class-level classification of a DataPoint type. -/
structure DataPointTypeConfig where
  pii : Bool
  ephemeral : Bool
  auditEveryEmission : Bool
  deriving DecidableEq, Repr

/-- What the registered leaf classes decide: the classification of a type, the JSON form of
a value (`model_dump(mode='json')`), and the value that validating a JSON form gives
(`parse_data_point`). -/
structure Leaves where
  config : DataPointType → DataPointTypeConfig
  dump : DataPointType → Value → Value
  parse : DataPointType → Value → Except OrchestrationError Value

namespace Leaves

/-- `is_pii`. -/
def isPii (leaves : Leaves) (dataPoint : BaseDataPoint) : Bool :=
  (leaves.config dataPoint.type).pii

/-- `is_ephemeral`. -/
def isEphemeral (leaves : Leaves) (dataPoint : BaseDataPoint) : Bool :=
  (leaves.config dataPoint.type).ephemeral

/-- `audits_every_emission`. -/
def auditsEveryEmission (leaves : Leaves) (dataPoint : BaseDataPoint) : Bool :=
  (leaves.config dataPoint.type).auditEveryEmission

end Leaves

/-- `ArchivedDataPoint.from_data_point`: a DataPoint as its archive document. The value hash
is left to the archive. -/
def ArchivedDataPoint.fromDataPoint (leaves : Leaves) (dataPoint : BaseDataPoint)
    (epoch : Epoch) : ArchivedDataPoint where
  type := dataPoint.type
  valueHash := ""
  value := leaves.dump dataPoint.type dataPoint.value
  retrievedBy := dataPoint.retrievedBy
  firstRetrieved := dataPoint.firstRetrieved
  lastRetrieved := dataPoint.lastRetrieved
  isPii := leaves.isPii dataPoint
  epoch := epoch

/-! ### Sealing -/

/-- `ValueCipher`. -/
structure ValueCipher where
  encrypt : String → String
  decrypt : String → String
  mac : String → String

/-- What sealing the entries of a session uses: the cipher, `sha256` as a digest in hex, and
the JSON text of a value and its inverse. -/
structure Sealing where
  sessionId : SessionId
  literals : Literals
  cipher : ValueCipher
  sha256 : String → String
  dumps : Value → String
  loads : String → Value

namespace Sealing

/-- `canonical_value` of a JSON value. A JSON value always has a normalization: the keys of
its objects are strings, each key once. -/
def canonicalValue (sealing : Sealing) (value : Value) : String :=
  match makeHashable value with
  | .ok hashed => String.ofList (sealing.literals.repr hashed)
  | .error _ => ""

/-- `value_hash`: a keyed digest of the session and the value for PII, else a plain one. -/
def valueHash (sealing : Sealing) (entry : ArchivedDataPoint) : String :=
  if entry.isPii then
    sealing.cipher.mac
      (sealing.sessionId ++ "\x00" ++ sealing.canonicalValue entry.value)
  else
    sealing.sha256 (sealing.canonicalValue entry.value)

/-- `seal`: a PII value encrypted. -/
def sealEntry (sealing : Sealing) (entry : ArchivedDataPoint) : ArchivedDataPoint :=
  if entry.isPii then
    { entry with value := .str (sealing.cipher.encrypt (sealing.dumps entry.value)) }
  else
    entry

/-- `unseal`: a PII value decrypted. A sealed value is always a text. -/
def unsealEntry (sealing : Sealing) (entry : ArchivedDataPoint) : ArchivedDataPoint :=
  if entry.isPii then
    match entry.value with
    | .str ciphertext =>
      { entry with value := sealing.loads (sealing.cipher.decrypt ciphertext) }
    | _ => entry
  else
    entry

/-- An entry as an archive buffers it: keyed by its plaintext value, then sealed. -/
def sealer (sealing : Sealing) : Sealer := fun entry =>
  { sealing.sealEntry entry with valueHash := sealing.valueHash entry }

/-- The document an archive buffers for a DataPoint. -/
def archived (sealing : Sealing) (leaves : Leaves) (dataPoint : BaseDataPoint)
    (epoch : Epoch) : ArchivedDataPoint :=
  sealing.sealer (.fromDataPoint leaves dataPoint epoch)

/-- The key a DataPoint is archived under. -/
def archiveKey (sealing : Sealing) (leaves : Leaves) (dataPoint : BaseDataPoint) :
    DataPointType × String :=
  (dataPoint.type, sealing.valueHash (.fromDataPoint leaves dataPoint 0))

variable (sealing : Sealing) (leaves : Leaves)

/-- Sealing changes the value only. -/
theorem sealEntry_eq (entry : ArchivedDataPoint) :
  sealing.sealEntry entry
    = { entry with
        value := if entry.isPii then .str (sealing.cipher.encrypt (sealing.dumps entry.value))
          else entry.value }
  := by
  rw [sealEntry]
  split
  · rfl
  · rfl

/-- Unsealing changes the value only. -/
theorem unsealEntry_eq (entry : ArchivedDataPoint) :
  sealing.unsealEntry entry
    = { entry with
        value :=
          if entry.isPii then
            match entry.value with
            | .str ciphertext => sealing.loads (sealing.cipher.decrypt ciphertext)
            | value => value
          else entry.value }
  := by
  obtain ⟨type, valueHash, value, retrievedBy, firstRetrieved, lastRetrieved, isPii, epoch⟩ :=
    entry
  cases isPii with
  | false => rfl
  | true =>
      cases value with
      | str ciphertext => rfl
      | _ => rfl

@[simp]
theorem key_archived (dataPoint : BaseDataPoint) (epoch : Epoch) :
  (sealing.archived leaves dataPoint epoch).key = sealing.archiveKey leaves dataPoint
  := by
  rw [archived, sealer, sealEntry_eq]
  rfl

@[simp]
theorem lastRetrieved_archived (dataPoint : BaseDataPoint) (epoch : Epoch) :
  (sealing.archived leaves dataPoint epoch).lastRetrieved = dataPoint.lastRetrieved
  := by
  rw [archived, sealer, sealEntry_eq]
  rfl

@[simp]
theorem epoch_archived (dataPoint : BaseDataPoint) (epoch : Epoch) :
  (sealing.archived leaves dataPoint epoch).epoch = epoch
  := by
  rw [archived, sealer, sealEntry_eq]
  rfl

/-- Observing a DataPoint again does not change the key it is archived under. -/
@[simp]
theorem archiveKey_reobserved (dataPoint : BaseDataPoint) (at' : Timestamp) :
  sealing.archiveKey leaves (dataPoint.reobserved at') = sealing.archiveKey leaves dataPoint
  := rfl

/-- The document of a DataPoint observed again, at a later epoch, is the old one with its
last retrieval and its epoch moved. -/
theorem archived_reobserved (dataPoint : BaseDataPoint) (at' : Timestamp)
    (epoch epoch' : Epoch) :
  sealing.archived leaves (dataPoint.reobserved at') epoch'
    = { sealing.archived leaves dataPoint epoch with
        lastRetrieved := max dataPoint.lastRetrieved at'
        epoch := epoch' }
  := by
  simp only [archived, sealer, sealEntry_eq]
  rfl

end Sealing

/-! ### Replay -/

/-- `_reconstruct`: the DataPoint of an unsealed entry. A value that validates but has no
normalization fails where its DataPoint is first merged. -/
def reconstruct (leaves : Leaves) (entry : ArchivedDataPoint) :
    Except OrchestrationError BaseDataPoint := do
  let value ← leaves.parse entry.type entry.value
  match h : makeHashable value with
  | .error error => .error error
  | .ok hashed =>
    return {
      type := entry.type
      value := value
      retrievedBy := entry.retrievedBy
      firstRetrieved := entry.firstRetrieved
      lastRetrieved := entry.lastRetrieved
      hashed := hashed
      hashable := h }

/-- On a DataPoint, decrypting inverts encrypting, reading a JSON text inverts writing it,
and parsing the JSON form of the value gives the value. -/
structure Restores (sealing : Sealing) (leaves : Leaves) (dataPoint : BaseDataPoint) : Prop where
  decrypt_encrypt :
    let text := sealing.dumps (leaves.dump dataPoint.type dataPoint.value)
    sealing.cipher.decrypt (sealing.cipher.encrypt text) = text
  loads_dumps :
    let value := leaves.dump dataPoint.type dataPoint.value
    sealing.loads (sealing.dumps value) = value
  parse_dump :
    leaves.parse dataPoint.type (leaves.dump dataPoint.type dataPoint.value)
      = .ok dataPoint.value

namespace Restores

variable {sealing : Sealing} {leaves : Leaves} {dataPoint : BaseDataPoint}

theorem reobserved (h : Restores sealing leaves dataPoint) (at' : Timestamp) :
  Restores sealing leaves (dataPoint.reobserved at')
  := ⟨h.decrypt_encrypt, h.loads_dumps, h.parse_dump⟩

/-- An unsealed entry is the document of the DataPoint, keyed. -/
theorem unsealEntry_archived (h : Restores sealing leaves dataPoint) (epoch : Epoch) :
  sealing.unsealEntry (sealing.archived leaves dataPoint epoch)
    = { ArchivedDataPoint.fromDataPoint leaves dataPoint epoch with
        valueHash := (sealing.archiveKey leaves dataPoint).2 }
  := by
  have htext := h.decrypt_encrypt
  have hvalue := h.loads_dumps
  simp only at htext hvalue
  simp only [Sealing.archived, Sealing.sealer, Sealing.sealEntry_eq, Sealing.unsealEntry,
    ArchivedDataPoint.fromDataPoint]
  split
  · simp only [htext, hvalue]
    rfl
  · rfl

/-- What is archived, unsealed and replayed is the DataPoint that was observed. -/
theorem reconstruct_unsealEntry (h : Restores sealing leaves dataPoint) (epoch : Epoch) :
  reconstruct leaves (sealing.unsealEntry (sealing.archived leaves dataPoint epoch))
    = .ok dataPoint
  := by
  rw [h.unsealEntry_archived, reconstruct]
  simp only [ArchivedDataPoint.fromDataPoint, h.parse_dump, bind, Except.bind, pure, Except.pure]
  split
  · rename_i error herror
    rw [dataPoint.hashable] at herror
    cases herror
  · rename_i hashed hhashed
    rw [dataPoint.hashable, Except.ok.injEq] at hhashed
    subst hhashed
    rfl

end Restores

end Orcastork
