/-
  The key ring as processes that share a directory (`keyring.py`), one file operation at a
  time. `publish`, `activate` and `retire` work under `flock`; `active_kid`, `sign_claims`,
  `verification_key` and `jwks` read without it. A file that is opened for writing is cut until
  its content is written, `os.replace` is atomic, and a killed process leaves its files as they
  are and drops its lock.

  `keyring.json` and the temporary files of `_save` are inodes: a reader that has opened
  `keyring.json` reads the inode it opened, also after a replace. JSON and PEM texts are their
  contents. `chmod` and `fsync` change no content and are left out.

  The history records each `os.replace` with the ticket its process drew when it got the lock,
  and each answer with the length of the history at the call and at the answer.
-/
import TemisLab.Lib.Lock
import TemisLab.Keyring.Records

namespace TemisLab.Keyring

open TemisLab.Lib TemisLab.Sso

/-- A file's content: opened and not yet written, or all of it. -/
inductive Content (α : Type) where
  | cut
  | whole (a : α)
  deriving DecidableEq, Repr

/-- The ring's directory. -/
structure Dir where
  metadata : Option ℕ
  inodes : ℕ → Content (List KeyRecord)
  unused : ℕ
  privatePem : String → Option (Content KeyPair)
  publicPem : String → Option (Content PublicKey)

def Dir.empty : Dir := ⟨none, fun _ => .cut, 0, fun _ => none, fun _ => none⟩

/-- What `_records` reads of a directory at rest; `none` is an error. -/
def Dir.records (dir : Dir) : Option (List KeyRecord) :=
  match dir.metadata with
  | none => some []
  | some inode =>
      match dir.inodes inode with
      | .cut => none
      | .whole records => some records

/-- The functions that only read. -/
inductive Reader where
  | activeKid
  | signClaims
  | verificationKey (kid : String)
  | jwks
  deriving DecidableEq, Repr

inductive Answer where
  | kid (kid : String)
  | signature (kid : String) (key : KeyPair)
  | key (key : PublicKey)
  | keys (keys : List Jwk)
  deriving DecidableEq, Repr

/-- The answer from a ring at rest. -/
def Reader.answer (ring : Ring) : Reader → Except RingError Answer
  | .activeKid => (Keyring.activeKid ring).map .kid
  | .signClaims => (Keyring.signClaims ring).map fun p => .signature p.1 p.2
  | .verificationKey kid => (Keyring.verificationKey ring kid).map .key
  | .jwks => (Keyring.jwks ring).map .keys

/-- An operation that reached `os.replace`: its ticket, its process, and the clock it read. -/
structure Entry where
  ticket : ℕ
  process : ℕ
  time : Time
  op : RingOp
  deriving DecidableEq, Repr

/-- A reader that returned or raised, with the history's length when it began and ended. -/
structure Served where
  reader : Reader
  since : ℕ
  till : ℕ
  answer : Except RingError Answer
  deriving DecidableEq

/-- The directory and the history. `maker` is the process that generated a kid. -/
structure Disk where
  dir : Dir
  tickets : ℕ
  log : List Entry
  maker : String → Option ℕ
  answers : List Served

def Disk.empty : Disk := ⟨.empty, 0, [], fun _ => none, []⟩

/-- A call of one of the seven functions. -/
inductive Job where
  | change (op : RingOp)
  | read (reader : Reader)
  deriving DecidableEq, Repr

/-- Who calls `_records`: an operation with its ticket, or a reader. -/
inductive Caller where
  | change (ticket : ℕ) (op : RingOp)
  | read (since : ℕ) (reader : Reader)
  deriving DecidableEq, Repr

/-- A reader that has read the record list of the history's first `seen` entries. -/
structure View where
  reader : Reader
  since : ℕ
  seen : ℕ
  deriving DecidableEq, Repr

/-- A change to be saved: the new list and what it is made of. -/
structure Draft where
  ticket : ℕ
  op : RingOp
  time : Time
  records : List KeyRecord
  deriving DecidableEq, Repr

/-- What a process does next. -/
inductive Task where
  | idle
  | flock (op : RingOp)
  | openPrivate (ticket : ℕ) (kid : String) (pair : KeyPair)
  | writePrivate (ticket : ℕ) (kid : String) (pair : KeyPair)
  | openPublic (ticket : ℕ) (kid : String) (pair : KeyPair)
  | writePublic (ticket : ℕ) (kid : String) (pair : KeyPair)
  | metadataExists (caller : Caller)
  | openMetadata (caller : Caller)
  | readMetadata (caller : Caller) (seen inode : ℕ)
  | openTemporary (draft : Draft)
  | writeTemporary (draft : Draft) (inode : ℕ)
  | replace (draft : Draft) (inode : ℕ)
  | unlock
  | openSigning (view : View) (kid : String)
  | readSigning (view : View) (kid : String)
  | openKey (view : View) (keys : List (String × PublicKey)) (kid : String) (rest : List String)
  | readKey (view : View) (keys : List (String × PublicKey)) (kid : String) (rest : List String)
  deriving DecidableEq

def Task.free : Task → Bool
  | .idle => true
  | _ => false

/-- The process holds the lock. -/
def Task.inside : Task → Bool
  | .openPrivate .. | .writePrivate .. | .openPublic .. | .writePublic .. => true
  | .metadataExists (.change ..) | .openMetadata (.change ..)
  | .readMetadata (.change ..) .. => true
  | .openTemporary .. | .writeTemporary .. | .replace .. | .unlock => true
  | _ => false

/-- The process waits for the lock. -/
def Task.waits : Task → Bool
  | .flock _ => true
  | _ => false

/-! ## File operations -/

/-- The reader returns or raises. -/
def Disk.serve (d : Disk) (view : View) (answer : Except RingError Answer) : Disk × Task :=
  ({ d with answers := ⟨view.reader, view.since, d.log.length, answer⟩ :: d.answers }, .idle)

/-- What `verification_key` and `jwks` return once they have read their PEM files. -/
def Reader.fromKeys : Reader → List (String × PublicKey) → Answer
  | .verificationKey _, [(_, key)] => .key key
  | _, keys => .keys (keys.map fun p => Jwk.of p.1 p.2)

/-- The next PEM file, or the end. -/
def Disk.nextKey (d : Disk) (view : View) (keys : List (String × PublicKey)) :
    List String → Disk × Task
  | [] => d.serve view (.ok (view.reader.fromKeys keys))
  | kid :: rest => (d, .openKey view keys kid rest)

/-- A reader goes on with the record list. -/
def Disk.consult (d : Disk) (view : View) (records : List KeyRecord) : Disk × Task :=
  match view.reader with
  | .activeKid =>
      match activeRecord records with
      | none => d.serve view (.error .noActiveSigningKey)
      | some active => d.serve view (.ok (.kid active.kid))
  | .signClaims =>
      match activeRecord records with
      | none => d.serve view (.error .noActiveSigningKey)
      | some active => (d, .openSigning view active.kid)
  | .verificationKey kid =>
      match records.find? fun r => r.kid = kid && r.state ≠ .retired with
      | none => d.serve view (.error .notVerifiable)
      | some _ => d.nextKey view [] [kid]
  | .jwks => d.nextKey view [] ((listed records).map KeyRecord.kid)

/-- `_records` returns. An operation makes its change of the list, or raises and unlocks. -/
def Disk.loaded (keyRing : KeyRing) (d : Disk) (caller : Caller) (seen : ℕ)
    (records : List KeyRecord) (now : Time) : Disk × Task :=
  match caller with
  | .change ticket op =>
      match op.records keyRing.overlapSeconds records now with
      | .error _ => (d, .unlock)
      | .ok records' => (d, .openTemporary ⟨ticket, op, now, records'⟩)
  | .read since reader => d.consult ⟨reader, since, seen⟩ records

/-- `_records` raises. -/
def Disk.failed (d : Disk) (caller : Caller) (error : RingError) : Disk × Task :=
  match caller with
  | .change _ _ => (d, .unlock)
  | .read since reader => d.serve ⟨reader, since, d.log.length⟩ (.error error)

/-- A call begins. `publish` has generated its key when it comes to the lock. -/
def Disk.begin (p : ℕ) (d : Disk) : Job → Disk × Task
  | .change (.publish kid pair) =>
      ({ d with maker := Function.update d.maker kid (some p) }, .flock (.publish kid pair))
  | .change op => (d, .flock op)
  | .read reader => (d, .metadataExists (.read d.log.length reader))

def Disk.setPrivate (d : Disk) (kid : String) (c : Content KeyPair) : Disk :=
  { d with dir.privatePem := Function.update d.dir.privatePem kid (some c) }

def Disk.setPublic (d : Disk) (kid : String) (c : Content PublicKey) : Disk :=
  { d with dir.publicPem := Function.update d.dir.publicPem kid (some c) }

/-- The next file operation of a process, at a reading of its clock. -/
def Disk.fileOp (rings : ℕ → KeyRing) (p : ℕ) (now : Time) (d : Disk) : Task → Disk × Task
  | .idle => (d, .idle)
  | .flock op =>
      let d' := { d with tickets := d.tickets + 1 }
      match op with
      | .publish kid pair => (d', .openPrivate d.tickets kid pair)
      | _ => (d', .metadataExists (.change d.tickets op))
  | .openPrivate ticket kid pair => (d.setPrivate kid .cut, .writePrivate ticket kid pair)
  | .writePrivate ticket kid pair => (d.setPrivate kid (.whole pair), .openPublic ticket kid pair)
  | .openPublic ticket kid pair => (d.setPublic kid .cut, .writePublic ticket kid pair)
  | .writePublic ticket kid pair =>
      (d.setPublic kid (.whole pair.publicKey),
        .metadataExists (.change ticket (.publish kid pair)))
  | .metadataExists caller =>
      match d.dir.metadata with
      | none => d.loaded (rings p) caller d.log.length [] now
      | some _ => (d, .openMetadata caller)
  | .openMetadata caller =>
      match d.dir.metadata with
      | none => d.failed caller .missingFile
      | some inode => (d, .readMetadata caller d.log.length inode)
  | .readMetadata caller seen inode =>
      match d.dir.inodes inode with
      | .cut => d.failed caller .brokenFile
      | .whole records => d.loaded (rings p) caller seen records now
  | .openTemporary draft =>
      ({ d with
          dir.inodes := Function.update d.dir.inodes d.dir.unused .cut
          dir.unused := d.dir.unused + 1 }, .writeTemporary draft d.dir.unused)
  | .writeTemporary draft inode =>
      ({ d with dir.inodes := Function.update d.dir.inodes inode (.whole draft.records) },
        .replace draft inode)
  | .replace draft inode =>
      ({ d with
          dir.metadata := some inode
          log := d.log ++ [⟨draft.ticket, p, draft.time, draft.op⟩] }, .unlock)
  | .unlock => (d, .idle)
  | .openSigning view kid =>
      match d.dir.privatePem kid with
      | none => d.serve view (.error .missingFile)
      | some _ => (d, .readSigning view kid)
  | .readSigning view kid =>
      match d.dir.privatePem kid with
      | some (.whole pair) => d.serve view (.ok (.signature kid pair))
      | _ => d.serve view (.error .brokenFile)
  | .openKey view keys kid rest =>
      match d.dir.publicPem kid with
      | none => d.serve view (.error .missingFile)
      | some _ => (d, .readKey view keys kid rest)
  | .readKey view keys kid rest =>
      match d.dir.publicPem kid with
      | some (.whole key) => d.nextKey view (keys ++ [(kid, key)]) rest
      | _ => d.serve view (.error .brokenFile)

/-- Any number of processes, each with a `KeyRing` of its own on the directory. -/
def processes (rings : ℕ → KeyRing) : Program ℕ Disk Task Job Time where
  idle := .idle
  free := Task.free
  begin := Disk.begin
  step := Disk.fileOp rings
  waits := Task.waits
  inside := Task.inside

/-- A generated kid is new. -/
def Generates (h : Host ℕ Disk Task) : Signal ℕ Job Time → Prop
  | .call _ (.change (.publish kid _)) => h.shared.maker kid = none
  | _ => True

instance (h : Host ℕ Disk Task) (e : Signal ℕ Job Time) : Decidable (Generates h e) := by
  unfold Generates
  split <;> infer_instance

end TemisLab.Keyring
