import Mathlib.Data.List.Infix
import Mathlib.Logic.Relation

/-! The secret handoff files of `runner.py`: two names of one file in a directory,
the system calls of `_write_secret_handoff` one by one, what a crash leaves of
them, and the functions that recover and read what is there. -/

namespace Anva.Handoff

abbrev Bytes := List UInt8

abbrev Inode := ℕ

/-- What `lstat` tells of a file, with its content. -/
structure File where
  regular : Bool
  owned : Bool
  mode : ℕ
  /-- Names of the file besides the two of the handoff. -/
  otherLinks : ℕ
  content : Bytes
deriving DecidableEq, Repr

/-- The handoff directory, whether it is its owner's alone, and the two names in it. -/
structure Disk where
  parent : Option Bool
  pending : Option Inode
  final : Option Inode
  files : Inode → File

def Disk.links (d : Disk) (i : Inode) : ℕ :=
  (d.files i).otherLinks + (if d.pending = some i then 1 else 0) + (if d.final = some i then 1 else 0)

/-- `0o600`. -/
def ownerOnly : ℕ := 384

/-- The mode that `open(.., 0o600)` leaves under a umask. -/
def createdMode (umask : ℕ) : ℕ := ownerOnly - (ownerOnly &&& umask)

/-- `_secure_owned_handoff_file`. -/
def Disk.secureOwned (d : Disk) (i : Inode) (links : List ℕ) : Bool :=
  (d.files i).regular ∧ (d.files i).owned ∧ (d.files i).mode = ownerOnly ∧ d.links i ∈ links

/-- `AcceptanceRunnerError`. -/
structure AcceptanceRunnerError where
  message : String
deriving DecidableEq, Repr

/-- What `json.loads` gives for the bytes of a file. -/
inductive Loaded (Payload : Type) where
  | object (payload : Payload)
  | other
  | undecodable
deriving DecidableEq, Repr

/-- `json.dumps` with the newline that is written after it, and `json.loads`. -/
structure Codec (Payload : Type) where
  dumps : Payload → Bytes
  loads : Bytes → Loaded Payload
  loads_dumps : ∀ payload, loads (dumps payload) = .object payload

def maxHandoffBytes : ℕ := 1500000

/-! ### Recovering and reading -/

section

variable {Payload : Type}

/-- `_secret_handoff_parent`, for a directory that is not created. -/
def requireParent (d : Disk) : Except AcceptanceRunnerError Unit :=
  match d.parent with
  | none => .error ⟨"Secret handoff directory is unavailable"⟩
  | some false => .error ⟨"Secret handoff directory is unsafe"⟩
  | some true => .ok ()

def Disk.unlinkPending (d : Disk) : Disk := { d with pending := none }

/-- `_cleanup_secret_handoff_pending`. -/
def cleanupPending (d : Disk) : Except AcceptanceRunnerError Disk :=
  match d.pending with
  | none => .ok d
  | some i =>
    if d.secureOwned i [1, 2] = false then .error ⟨"Secret handoff pending path is unsafe"⟩
    else if d.links i = 2 ∧ ¬ (d.final = some i ∧ d.secureOwned i [2] = true) then
      .error ⟨"Secret handoff pending hard link is unsafe"⟩
    else .ok d.unlinkPending

/-- `_discard_owned_incomplete_handoff`. -/
def discardIncomplete (d : Disk) (i : Inode) : Except AcceptanceRunnerError Disk :=
  if d.secureOwned i [1] = false then .error ⟨"External-review handoff is unsafe"⟩
  else .ok { d with final := none }

def rejectContent (d : Disk) (i : Inode) (recoverIncomplete : Bool) (message : String) :
    Except AcceptanceRunnerError (Disk × Option Payload) :=
  if recoverIncomplete then do
    let d ← discardIncomplete d i
    return (d, none)
  else .error ⟨message⟩

/-- `_load_secret_handoff`. -/
def loadSecretHandoff (codec : Codec Payload) (d : Disk) (recoverIncomplete : Bool) :
    Except AcceptanceRunnerError (Disk × Option Payload) := do
  requireParent d
  let d ← cleanupPending d
  match d.final with
  | none => return (d, none)
  | some i =>
    if d.secureOwned i [1] = false then .error ⟨"External-review handoff is unsafe"⟩
    else if maxHandoffBytes < (d.files i).content.length then
      rejectContent d i recoverIncomplete "External-review handoff exceeds its bound"
    else match codec.loads (d.files i).content with
      | .undecodable => rejectContent d i recoverIncomplete "External-review handoff is invalid"
      | .other => rejectContent d i recoverIncomplete "External-review handoff is invalid"
      | .object payload => return (d, some payload)

/-- `_recover_secret_handoff`. -/
def recoverSecretHandoff (codec : Codec Payload) (d : Disk) :
    Except AcceptanceRunnerError (Disk × Option Payload) :=
  match d.parent with
  | none => .ok (d, none)
  | some _ => loadSecretHandoff codec d true

/-- `_read_secret_handoff`. -/
def readSecretHandoff (codec : Codec Payload) (d : Disk) : Except AcceptanceRunnerError Payload := do
  let (_, value) ← loadSecretHandoff codec d false
  match value with
  | none => .error ⟨"External-review handoff is unavailable"⟩
  | some payload => return payload

end

/-! ### Writing -/

/-- The disk as processes see it, the names as they were last synced, and the file that has not been
synced yet with the mode it was created with. -/
structure Volume where
  now : Disk
  stored : Disk
  unsynced : Option (Inode × ℕ)

/-- Where `_write_secret_handoff` stands between two system calls. -/
inductive Stage where
  | begun | cleaned | ready | opened | restricted | synced | linked | published | removed | returned
  | discarded | raised
deriving DecidableEq, Repr

def Disk.write (d : Disk) (i : Inode) (file : File) : Disk :=
  { d with files := fun j => if j = i then file else d.files j }

def Volume.syncNames (v : Volume) : Volume := { v with stored := v.now }

/-- A file that neither name is on and that no other has. -/
def Disk.Unnamed (d : Disk) (i : Inode) : Prop := d.pending ≠ some i ∧ d.final ≠ some i

/-- The pending file after `open`. -/
def createdFile (umask : ℕ) : File where
  regular := true
  owned := true
  mode := createdMode umask
  otherLinks := 0
  content := []

/-- One system call of `_write_secret_handoff`, or an exception before the file is published. -/
inductive Step (umask : ℕ) (text : Bytes) : Stage × Volume → Stage × Volume → Prop
  | mkdir {v : Volume} (h : v.now.parent = none) :
      Step umask text (.begun, v) (.begun, { v with now := { v.now with parent := some true } })
  | cleanup {v : Volume} {i : Inode} {d : Disk} (hparent : v.now.parent = some true)
      (hpending : v.now.pending = some i) (h : cleanupPending v.now = .ok d) :
      Step umask text (.begun, v) (.cleaned, { v with now := d })
  | syncCleanup {v : Volume} : Step umask text (.cleaned, v) (.ready, v.syncNames)
  | noPending {v : Volume} (hparent : v.now.parent = some true) (hpending : v.now.pending = none) :
      Step umask text (.begun, v) (.ready, v)
  | openPending {v : Volume} {i : Inode} (hfinal : v.now.final = none) (hpending : v.now.pending = none)
      (hnew : v.now.Unnamed i ∧ v.stored.Unnamed i) :
      Step umask text (.ready, v) (.opened, { v with
        now := { v.now.write i (createdFile umask) with pending := some i }
        unsynced := some (i, createdMode umask) })
  | write {v : Volume} {i : Inode} {content : Bytes} (hpending : v.now.pending = some i)
      (hmore : (v.now.files i).content <+: content) (htext : content <+: text) :
      Step umask text (.opened, v) (.opened,
        { v with now := v.now.write i { v.now.files i with content := content } })
  | fchmod {v : Volume} {i : Inode} (hpending : v.now.pending = some i)
      (hwritten : (v.now.files i).content = text) :
      Step umask text (.opened, v) (.restricted,
        { v with now := v.now.write i { v.now.files i with mode := ownerOnly } })
  | fsync {v : Volume} : Step umask text (.restricted, v) (.synced, { v with unsynced := none })
  | link {v : Volume} {i : Inode} (hpending : v.now.pending = some i)
      (hsecure : v.now.secureOwned i [1] = true) (hfinal : v.now.final = none) :
      Step umask text (.synced, v) (.linked, { v with now := { v.now with final := some i } })
  | syncLink {v : Volume} : Step umask text (.linked, v) (.published, v.syncNames)
  | unlink {v : Volume} :
      Step umask text (.published, v) (.removed, { v with now := v.now.unlinkPending })
  | syncUnlink {v : Volume} : Step umask text (.removed, v) (.returned, v.syncNames)
  | discard {stage : Stage} {v : Volume} {i : Inode} (hstage : stage ∈ [.opened, .restricted, .synced])
      (hpending : v.now.pending = some i) (hsecure : v.now.secureOwned i [1] = true) :
      Step umask text (stage, v) (.discarded, { v with now := v.now.unlinkPending })
  | leave {stage : Stage} {v : Volume} {i : Inode} (hstage : stage ∈ [.opened, .restricted, .synced])
      (hpending : v.now.pending = some i) (hsecure : v.now.secureOwned i [1] = false) :
      Step umask text (stage, v) (.raised, v)
  | syncDiscard {v : Volume} : Step umask text (.discarded, v) (.raised, v.syncNames)

/-- What a crash may leave: each name as it is or as it was synced, a file that was not synced with any
content and its mode of now or of its creation. -/
structure Survives (v : Volume) (d : Disk) : Prop where
  parent : d.parent = v.now.parent ∨ d.parent = v.stored.parent
  pending : d.pending = v.now.pending ∨ d.pending = v.stored.pending
  final : d.final = v.now.final ∨ d.final = v.stored.final
  files : ∀ i, d.files i = v.now.files i ∨ ∃ mode content, v.unsynced = some (i, mode) ∧
    (d.files i = { v.now.files i with content := content } ∨
      d.files i = { v.now.files i with content := content, mode := mode })
  inside : d.parent = none → d.pending = none ∧ d.final = none

structure Volume.Settled (v : Volume) : Prop where
  stored : v.stored = v.now
  unsynced : v.unsynced = none
  inside : v.now.parent = none → v.now.pending = none ∧ v.now.final = none

/-- The checks that the write makes before it changes anything. -/
def Admits (d : Disk) : Prop := d.parent ≠ some false ∧ ∃ d', cleanupPending d = .ok d'

/-- The points that a write comes to, each of which a crash may follow. -/
def Reaches (umask : ℕ) (text : Bytes) (v₀ : Volume) (point : Stage × Volume) : Prop :=
  Relation.ReflTransGen (Step umask text) (.begun, v₀) point

/-- What a handoff promises for a payload. -/
structure Atomic {Payload : Type} (codec : Codec Payload) (umask : ℕ) (payload : Payload) : Prop where
  recovered : ∀ (v₀ v : Volume) (stage : Stage) (d : Disk), v₀.Settled → Admits v₀.now → v₀.now.final = none →
    Reaches umask (codec.dumps payload) v₀ (stage, v) → Survives v d →
    ∃ d' value, recoverSecretHandoff codec d = .ok (d', value) ∧ d'.pending = none ∧
      (value = none ∨ value = some payload)
  whole : ∀ (v₀ v : Volume) (stage : Stage) (d : Disk), v₀.Settled → v₀.now.final = none →
    Reaches umask (codec.dumps payload) v₀ (stage, v) → Survives v d →
    ∀ i, d.final = some i → (d.files i).content = codec.dumps payload
  kept : ∀ (v₀ v : Volume) (stage : Stage) (d : Disk) (i : Inode), v₀.Settled → v₀.now.final = some i →
    Reaches umask (codec.dumps payload) v₀ (stage, v) → Survives v d →
    stage ≠ .returned ∧ d.final = some i ∧ d.files i = v₀.now.files i
  readable : ∀ (v₀ v : Volume), v₀.Settled → Admits v₀.now →
    Reaches umask (codec.dumps payload) v₀ (.returned, v) → readSecretHandoff codec v.now = .ok payload

end Anva.Handoff
