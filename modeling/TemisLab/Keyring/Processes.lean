/-
  Concurrency and crashes of the key ring. Processes run `publish`, `activate`, `retire` and the
  readers in any interleaving of their file operations and may be killed between any two.

  * `Survives`: `keyring.json` is the serial ring of the operations that reached `os.replace`,
    in the order of their locks; each reader answered as the serial ring did at one moment of
    its call; each listed record has both PEM files.
  * `ring_survives`: it holds after every run whose generated kids are new.

  Only the holder of the lock writes, and what it writes is not yet reachable: the PEM files of
  a kid that is not listed, and an inode that is not `keyring.json`. So a reader needs no lock,
  and a kill leaves files that nothing refers to.
-/
import TemisLab.Keyring.Serial

namespace TemisLab.Keyring

open TemisLab.Lib TemisLab.Sso

/-! ## The guarantee -/

/-- What holds of the directory and the history at every point of a run. -/
structure Survives (rings : ℕ → KeyRing) (d : Disk) : Prop where
  json : ∃ ring, replay rings d.log = .ok ring ∧ d.dir.records = some ring.records
  lockOrder : d.log.Pairwise fun e e' => e.ticket < e'.ticket
  readers : ∀ a ∈ d.answers, ∃ n ring, a.since ≤ n ∧ n ≤ a.till ∧ a.till ≤ d.log.length ∧
    replay rings (d.log.take n) = .ok ring ∧ a.answer = a.reader.answer ring
  files : ∀ records, d.dir.records = some records → ∀ r ∈ records, ∃ pair,
    d.dir.privatePem r.kid = some (.whole pair) ∧
      d.dir.publicPem r.kid = some (.whole pair.publicKey)
  noMissing : ∀ a ∈ d.answers,
    a.answer ≠ .error .missingFile ∧ a.answer ≠ .error .brokenFile

/-! ## What holds of the directory -/

/-- Both PEM files of a key are fully written. -/
def Dir.Stored (dir : Dir) (kid : String) (pair : KeyPair) : Prop :=
  dir.privatePem kid = some (.whole pair) ∧ dir.publicPem kid = some (.whole pair.publicKey)

structure Ordered (rings : ℕ → KeyRing) (d : Disk) : Prop where
  ring : ∃ ring, replay rings d.log = .ok ring ∧ d.dir.records = some ring.records
  tickets : ∀ e ∈ d.log, e.ticket < d.tickets
  order : d.log.Pairwise fun e e' => e.ticket < e'.ticket
  linked : ∀ inode, d.dir.metadata = some inode → inode < d.dir.unused
  stored : ∀ e ∈ d.log, ∀ kid pair, e.op = .publish kid pair → d.dir.Stored kid pair
  made : ∀ e ∈ d.log, ∀ kid pair, e.op = .publish kid pair → d.maker kid ≠ none
  answers : ∀ a ∈ d.answers, a.Faithful rings d.log

/-! ## What holds of a process -/

/-- The process generated the key of its `publish`, which is in no earlier entry. -/
def Mine (p : ℕ) (d : Disk) (op : RingOp) : Prop :=
  ∀ kid pair, op = .publish kid pair →
    d.maker kid = some p ∧ ∀ e ∈ d.log, ∀ pair', e.op ≠ .publish kid pair'

/-- The ticket is later than those of the history. -/
def Latest (d : Disk) (ticket : ℕ) : Prop :=
  ticket < d.tickets ∧ ∀ e ∈ d.log, e.ticket < ticket

/-- An operation under the lock, its key files written. -/
structure Ready (p : ℕ) (d : Disk) (ticket : ℕ) (op : RingOp) : Prop where
  mine : Mine p d op
  latest : Latest d ticket
  stored : ∀ kid pair, op = .publish kid pair → d.dir.Stored kid pair

/-- A change made of the list that `keyring.json` still holds. -/
structure Drafted (rings : ℕ → KeyRing) (p : ℕ) (d : Disk) (draft : Draft) : Prop where
  ready : Ready p d draft.ticket draft.op
  saves : ∃ old, d.dir.records = some old ∧
    draft.op.records (rings p).overlapSeconds old draft.time = .ok draft.records

def View.Collects (rings : ℕ → KeyRing) (log : List Entry) (view : View)
    (keys : List (String × PublicKey)) (todo : List String) : Prop :=
  ∃ ring, Snapshot rings log view.since view.seen ring ∧
    Keyring.Collects ring view.reader keys todo

def View.Signs (rings : ℕ → KeyRing) (log : List Entry) (view : View) (kid : String) : Prop :=
  ∃ ring, Snapshot rings log view.since view.seen ring ∧ view.reader = .signClaims ∧
    ∃ active, activeRecord ring.records = some active ∧ active.kid = kid

/-- What holds of a process at each point of its code. -/
def Holds (rings : ℕ → KeyRing) (p : ℕ) (d : Disk) : Task → Prop
  | .idle | .unlock => True
  | .flock op => Mine p d op
  | .openPrivate ticket kid pair | .writePrivate ticket kid pair =>
      Mine p d (.publish kid pair) ∧ Latest d ticket
  | .openPublic ticket kid pair | .writePublic ticket kid pair =>
      Mine p d (.publish kid pair) ∧ Latest d ticket ∧ d.dir.privatePem kid = some (.whole pair)
  | .metadataExists (.change ticket op) => Ready p d ticket op
  | .metadataExists (.read since _) => since ≤ d.log.length
  | .openMetadata (.change ticket op) => Ready p d ticket op
  | .openMetadata (.read since _) => since ≤ d.log.length ∧ d.dir.metadata ≠ none
  | .readMetadata (.change ticket op) _ inode =>
      Ready p d ticket op ∧ d.dir.metadata = some inode
  | .readMetadata (.read since _) seen inode =>
      inode < d.dir.unused ∧
        ∃ ring, Snapshot rings d.log since seen ring ∧ d.dir.inodes inode = .whole ring.records
  | .openTemporary draft => Drafted rings p d draft
  | .writeTemporary draft inode =>
      Drafted rings p d draft ∧ inode < d.dir.unused ∧ d.dir.inodes inode = .cut
  | .replace draft inode =>
      Drafted rings p d draft ∧ inode < d.dir.unused ∧ d.dir.inodes inode = .whole draft.records
  | .openSigning view kid | .readSigning view kid => view.Signs rings d.log kid
  | .openKey view keys kid rest | .readKey view keys kid rest =>
      view.Collects rings d.log keys (kid :: rest)

/-- What a step leaves: the order of the ring, and a process that goes on with what holds of it. -/
def Kept (rings : ℕ → KeyRing) (p : ℕ) (r : Disk × Task) : Prop :=
  Ordered rings r.1 ∧ Holds rings p r.1 r.2

/-! ## Readers -/

/-- A list that `keyring.json` holds now. -/
theorem Ordered.snapshot {rings : ℕ → KeyRing} {d : Disk} (h : Ordered rings d) {since : ℕ}
    (hsince : since ≤ d.log.length) {records : List KeyRecord}
    (hr : d.dir.records = some records) :
    ∃ ring, Snapshot rings d.log since d.log.length ring ∧ ring.records = records := by
  obtain ⟨ring, hreplay, hrecords⟩ := h.ring
  rw [hr, Option.some.injEq] at hrecords
  refine ⟨ring, ⟨hsince, le_refl _, ?_⟩, hrecords.symm⟩
  rw [List.take_length]
  exact hreplay

/-- The key files of a snapshot's records are in the directory. -/
theorem Ordered.files {rings : ℕ → KeyRing} {d : Disk} (h : Ordered rings d) {since seen : ℕ}
    {ring : Ring} (hs : Snapshot rings d.log since seen ring) {r : KeyRecord}
    (hr : r ∈ ring.records) :
    ∃ pair, ring.privatePem r.kid = some pair ∧ ring.publicPem r.kid = some pair.publicKey ∧
      d.dir.Stored r.kid pair := by
  have hsup := supplied hs.2.2
  obtain ⟨pair, hpriv, hpub⟩ := hsup.files r hr
  obtain ⟨e, he, hop⟩ := hsup.published r.kid pair hpriv
  exact ⟨pair, hpriv, hpub, h.stored e (List.mem_of_mem_take he) r.kid pair hop⟩

theorem Ordered.serve {rings : ℕ → KeyRing} {d : Disk} (h : Ordered rings d) {view : View}
    {ring : Ring} (hs : Snapshot rings d.log view.since view.seen ring)
    {answer : Except RingError Answer} (ha : answer = view.reader.answer ring) :
    Ordered rings (d.serve view answer).1 := by
  refine ⟨h.ring, h.tickets, h.order, h.linked, h.stored, h.made, ?_⟩
  intro a hmem
  rcases List.mem_cons.mp hmem with rfl | hmem
  · exact ⟨view.seen, ring, hs, hs.2.1, le_refl _, ha⟩
  · exact h.answers a hmem

theorem nextKey_keeps {rings : ℕ → KeyRing} {p : ℕ} {d : Disk} (h : Ordered rings d) {view : View}
    {keys : List (String × PublicKey)} {todo : List String}
    (hc : view.Collects rings d.log keys todo) : Kept rings p (d.nextKey view keys todo) := by
  cases todo with
  | nil =>
      obtain ⟨ring, hs, hc⟩ := hc
      exact ⟨h.serve hs (fromKeys_eq hc), trivial⟩
  | cons kid rest => exact ⟨h, hc⟩

/-- A reader that has read a snapshot's records goes on. -/
theorem consult_keeps {rings : ℕ → KeyRing} {p : ℕ} {d : Disk} (h : Ordered rings d) (view : View)
    {ring : Ring} (hs : Snapshot rings d.log view.since view.seen ring) :
    Kept rings p (d.consult view ring.records) := by
  obtain ⟨reader, since, seen⟩ := view
  cases reader with
  | activeKid =>
      simp only [Disk.consult]
      cases ha : activeRecord ring.records with
      | none =>
          refine ⟨h.serve hs ?_, trivial⟩
          simp only [Reader.answer, activeKid, ha, Except.map]
      | some active =>
          refine ⟨h.serve hs ?_, trivial⟩
          simp only [Reader.answer, activeKid, ha, Except.map]
  | signClaims =>
      simp only [Disk.consult]
      cases ha : activeRecord ring.records with
      | none =>
          refine ⟨h.serve hs ?_, trivial⟩
          simp only [Reader.answer, signClaims, ha, Except.map]
      | some active => exact ⟨h, ring, hs, rfl, active, ha, rfl⟩
  | verificationKey kid =>
      simp only [Disk.consult]
      cases ha : ring.records.find? fun r => r.kid = kid && r.state ≠ .retired with
      | none =>
          refine ⟨h.serve hs ?_, trivial⟩
          simp only [Reader.answer, verificationKey, ha, Except.map]
      | some r => exact nextKey_keeps h ⟨ring, hs, by simp, rfl, r, ha⟩
  | jwks => exact nextKey_keeps h ⟨ring, hs, by simp, rfl⟩

/-! ## Writers -/

theorem Dir.records_of_none {dir : Dir} (h : dir.metadata = none) : dir.records = some [] := by
  simp only [Dir.records, h]

theorem Dir.records_of_whole {dir : Dir} {inode : ℕ} {records : List KeyRecord}
    (h : dir.metadata = some inode) (hw : dir.inodes inode = .whole records) :
    dir.records = some records := by
  simp only [Dir.records, h, hw]

/-- `keyring.json` is never cut. -/
theorem Ordered.not_cut {rings : ℕ → KeyRing} {d : Disk} (h : Ordered rings d) {inode : ℕ}
    (hm : d.dir.metadata = some inode) : d.dir.inodes inode ≠ .cut := by
  intro hcut
  obtain ⟨ring, -, hr⟩ := h.ring
  simp only [Dir.records, hm, hcut] at hr
  cases hr

/-- A kid that is about to be published is in no change of the history. -/
theorem Mine.fresh {p : ℕ} {d : Disk} {kid : String} {pair : KeyPair}
    (hmine : Mine p d (.publish kid pair)) {e : Entry} (he : e ∈ d.log) {k : String}
    {pair' : KeyPair} (hop : e.op = .publish k pair') : k ≠ kid := by
  intro hk
  exact (hmine kid pair rfl).2 e he pair' (hk ▸ hop)

/-- A key file of a kid that is not in the history may be written. -/
theorem Ordered.setPrivate {rings : ℕ → KeyRing} {p : ℕ} {d : Disk} (h : Ordered rings d)
    {kid : String} {pair : KeyPair} (hmine : Mine p d (.publish kid pair))
    (c : Content KeyPair) : Ordered rings (d.setPrivate kid c) := by
  refine ⟨h.ring, h.tickets, h.order, h.linked, ?_, h.made, h.answers⟩
  intro e he k pair' hop
  obtain ⟨hpriv, hpub⟩ := h.stored e he k pair' hop
  exact ⟨(Function.update_of_ne (hmine.fresh he hop) _ _).trans hpriv, hpub⟩

theorem Ordered.setPublic {rings : ℕ → KeyRing} {p : ℕ} {d : Disk} (h : Ordered rings d)
    {kid : String} {pair : KeyPair} (hmine : Mine p d (.publish kid pair))
    (c : Content PublicKey) : Ordered rings (d.setPublic kid c) := by
  refine ⟨h.ring, h.tickets, h.order, h.linked, ?_, h.made, h.answers⟩
  intro e he k pair' hop
  obtain ⟨hpriv, hpub⟩ := h.stored e he k pair' hop
  exact ⟨hpriv, (Function.update_of_ne (hmine.fresh he hop) _ _).trans hpub⟩

/-- An inode that is not `keyring.json` may be written. -/
theorem Dir.records_update {dir : Dir} {inode : ℕ} (hne : dir.metadata ≠ some inode)
    (unused : ℕ) (c : Content (List KeyRecord)) :
    ({ dir with inodes := Function.update dir.inodes inode c, unused } : Dir).records =
      dir.records := by
  unfold Dir.records
  cases hm : dir.metadata with
  | none => rfl
  | some i =>
      have hi : i ≠ inode := by
        intro he
        exact hne (by rw [hm, he])
      simp only [Function.update_of_ne hi]

/-- The operation that replaces `keyring.json` is the last of the history. -/
theorem Ordered.replace {rings : ℕ → KeyRing} {p : ℕ} {d : Disk} (h : Ordered rings d)
    {draft : Draft} {inode : ℕ} (hd : Drafted rings p d draft) (hlt : inode < d.dir.unused)
    (hw : d.dir.inodes inode = .whole draft.records) :
    Ordered rings { d with
      dir.metadata := some inode
      log := d.log ++ [⟨draft.ticket, p, draft.time, draft.op⟩] } := by
  obtain ⟨ring, hreplay, hring⟩ := h.ring
  obtain ⟨old, hold, hsaves⟩ := hd.saves
  rw [hring, Option.some.injEq] at hold
  subst hold
  obtain ⟨ring', happly, hrecords⟩ := RingOp.apply_of_records hsaves
  refine ⟨⟨ring', ?_, ?_⟩, ?_, ?_, ?_, ?_, ?_, ?_⟩
  · rw [replay_append, hreplay]
    exact happly
  · rw [hrecords]
    exact Dir.records_of_whole rfl hw
  · intro e he
    rcases List.mem_append.mp he with he | he
    · exact h.tickets e he
    · rw [List.mem_singleton.mp he]
      exact hd.ready.latest.1
  · rw [List.pairwise_append]
    refine ⟨h.order, List.pairwise_singleton _ _, ?_⟩
    intro e he e' he'
    rw [List.mem_singleton.mp he']
    exact hd.ready.latest.2 e he
  · intro i hi
    rw [← Option.some.inj hi]
    exact hlt
  · intro e he kid pair hop
    rcases List.mem_append.mp he with he | he
    · exact h.stored e he kid pair hop
    · rw [List.mem_singleton.mp he] at hop
      exact hd.ready.stored kid pair hop
  · intro e he kid pair hop
    rcases List.mem_append.mp he with he | he
    · exact h.made e he kid pair hop
    · rw [List.mem_singleton.mp he] at hop
      rw [(hd.ready.mine kid pair hop).1]
      simp
  · intro a ha
    obtain ⟨seen, r, hs, hle, hlen, hans⟩ := h.answers a ha
    refine ⟨seen, r, hs.append _, hle, ?_, hans⟩
    rw [List.length_append]
    omega

/-- An operation that has read the list makes its change of it, or raises. -/
theorem loaded_keeps {rings : ℕ → KeyRing} {p : ℕ} {d : Disk} (h : Ordered rings d)
    {ticket : ℕ} {op : RingOp} (hr : Ready p d ticket op) {records : List KeyRecord}
    (hrec : d.dir.records = some records) (seen : ℕ) (now : Time) :
    Kept rings p (d.loaded (rings p) (.change ticket op) seen records now) := by
  unfold Disk.loaded
  simp only
  cases hop : op.records (rings p).overlapSeconds records now with
  | error e => exact ⟨h, trivial⟩
  | ok records' => exact ⟨h, hr, records, hrec, hop⟩

/-- The lock is taken with the next ticket. -/
theorem Ordered.draw {rings : ℕ → KeyRing} {d : Disk} (h : Ordered rings d) :
    Ordered rings { d with tickets := d.tickets + 1 } ∧
      Latest { d with tickets := d.tickets + 1 } d.tickets := by
  refine ⟨⟨h.ring, ?_, h.order, h.linked, h.stored, h.made, h.answers⟩, ?_, h.tickets⟩
  · intro e he
    exact Nat.lt_succ_of_lt (h.tickets e he)
  · exact Nat.lt_succ_self _

/-! ## One file operation -/

/-- A temporary file may be written. -/
theorem Ordered.writeInode {rings : ℕ → KeyRing} {d : Disk} (h : Ordered rings d) {inode : ℕ}
    (hne : d.dir.metadata ≠ some inode) {unused : ℕ} (hle : d.dir.unused ≤ unused)
    (c : Content (List KeyRecord)) :
    Ordered rings { d with
      dir.inodes := Function.update d.dir.inodes inode c
      dir.unused := unused } := by
  refine ⟨?_, h.tickets, h.order, ?_, h.stored, h.made, h.answers⟩
  · obtain ⟨ring, hreplay, hring⟩ := h.ring
    exact ⟨ring, hreplay, (Dir.records_update hne unused c).trans hring⟩
  · intro i hi
    exact lt_of_lt_of_le (h.linked i hi) hle

theorem Drafted.writeInode {rings : ℕ → KeyRing} {p : ℕ} {d : Disk} {draft : Draft}
    (h : Drafted rings p d draft) {inode : ℕ} (hne : d.dir.metadata ≠ some inode) (unused : ℕ)
    (c : Content (List KeyRecord)) :
    Drafted rings p { d with
      dir.inodes := Function.update d.dir.inodes inode c
      dir.unused := unused } draft := by
  refine ⟨⟨h.ready.mine, h.ready.latest, h.ready.stored⟩, ?_⟩
  obtain ⟨old, hold, hsaves⟩ := h.saves
  exact ⟨old, (Dir.records_update hne unused c).trans hold, hsaves⟩

/-- `_records` finds no file, or one to open. -/
theorem metadataExists_keeps {rings : ℕ → KeyRing} {p : ℕ} {d : Disk} (now : Time)
    (h : Ordered rings d) {caller : Caller} (ht : Holds rings p d (.metadataExists caller)) :
    Kept rings p (d.fileOp rings p now (.metadataExists caller)) := by
  simp only [Disk.fileOp]
  cases hm : d.dir.metadata with
  | none =>
      have hrec := Dir.records_of_none hm
      cases caller with
      | change ticket op => exact loaded_keeps h ht hrec _ now
      | read since reader =>
          obtain ⟨ring, hs, hring⟩ := h.snapshot ht hrec
          rw [← hring]
          exact consult_keeps h ⟨reader, since, d.log.length⟩ hs
  | some inode =>
      cases caller with
      | change ticket op => exact ⟨h, ht⟩
      | read since reader => exact ⟨h, ht, by simp [hm]⟩

/-- The list a reader will read is fixed when it opens the file. -/
theorem openMetadata_keeps {rings : ℕ → KeyRing} {p : ℕ} {d : Disk} (now : Time)
    (h : Ordered rings d) {caller : Caller} (ht : Holds rings p d (.openMetadata caller)) :
    Kept rings p (d.fileOp rings p now (.openMetadata caller)) := by
  simp only [Disk.fileOp]
  cases hm : d.dir.metadata with
  | none =>
      cases caller with
      | change ticket op => exact ⟨h, trivial⟩
      | read since reader => exact absurd hm ht.2
  | some inode =>
      cases caller with
      | change ticket op => exact ⟨h, ht, hm⟩
      | read since reader =>
          obtain ⟨ring, hreplay, hrec⟩ := h.ring
          obtain ⟨ring', hs, hring⟩ := h.snapshot ht.1 hrec
          refine ⟨h, h.linked inode hm, ring', hs, ?_⟩
          cases hw : d.dir.inodes inode with
          | cut => exact absurd hw (h.not_cut hm)
          | whole records =>
              rw [Dir.records_of_whole hm hw, Option.some.injEq] at hrec
              rw [hring, hrec]

theorem readMetadata_keeps {rings : ℕ → KeyRing} {p : ℕ} {d : Disk} (now : Time)
    (h : Ordered rings d) {caller : Caller} {seen inode : ℕ}
    (ht : Holds rings p d (.readMetadata caller seen inode)) :
    Kept rings p (d.fileOp rings p now (.readMetadata caller seen inode)) := by
  simp only [Disk.fileOp]
  cases caller with
  | change ticket op =>
      cases hw : d.dir.inodes inode with
      | cut => exact ⟨h, trivial⟩
      | whole records => exact loaded_keeps h ht.1 (Dir.records_of_whole ht.2 hw) _ now
  | read since reader =>
      obtain ⟨-, ring, hs, hw⟩ := ht
      rw [hw]
      exact consult_keeps h ⟨reader, since, seen⟩ hs

/-- A process keeps the order of the ring and what holds of itself. -/
theorem fileOp_keeps {rings : ℕ → KeyRing} {p : ℕ} {d : Disk} (now : Time)
    (h : Ordered rings d) {t : Task} (ht : Holds rings p d t) :
    Kept rings p (d.fileOp rings p now t) := by
  cases t with
  | idle => exact ⟨h, trivial⟩
  | unlock => exact ⟨h, trivial⟩
  | flock op =>
      obtain ⟨hordered, hlatest⟩ := h.draw
      cases op with
      | publish kid pair => exact ⟨hordered, ht, hlatest⟩
      | activate kid => exact ⟨hordered, ht, hlatest, nofun⟩
      | retire kid => exact ⟨hordered, ht, hlatest, nofun⟩
  | openPrivate ticket kid pair => exact ⟨h.setPrivate ht.1 .cut, ht⟩
  | writePrivate ticket kid pair =>
      exact ⟨h.setPrivate ht.1 (.whole pair), ht.1, ht.2, Function.update_self ..⟩
  | openPublic ticket kid pair => exact ⟨h.setPublic ht.1 .cut, ht⟩
  | writePublic ticket kid pair =>
      obtain ⟨hmine, hlatest, hpriv⟩ := ht
      refine ⟨h.setPublic hmine (.whole pair.publicKey), hmine, hlatest, ?_⟩
      intro k pair' hop
      cases hop
      exact ⟨hpriv, Function.update_self ..⟩
  | metadataExists caller => exact metadataExists_keeps now h ht
  | openMetadata caller => exact openMetadata_keeps now h ht
  | readMetadata caller seen inode => exact readMetadata_keeps now h ht
  | openTemporary draft =>
      have hne : d.dir.metadata ≠ some d.dir.unused := fun he =>
        Nat.lt_irrefl _ (h.linked _ he)
      exact ⟨h.writeInode hne (Nat.le_succ _) .cut, ht.writeInode hne _ .cut, Nat.lt_succ_self _,
        Function.update_self ..⟩
  | writeTemporary draft inode =>
      obtain ⟨hdraft, hlt, hcut⟩ := ht
      have hne : d.dir.metadata ≠ some inode := fun he => h.not_cut he hcut
      exact ⟨h.writeInode hne (le_refl _) (.whole draft.records),
        hdraft.writeInode hne d.dir.unused _, hlt, Function.update_self ..⟩
  | replace draft inode => exact ⟨h.replace ht.1 ht.2.1 ht.2.2, trivial⟩
  | openSigning view kid =>
      simp only [Disk.fileOp]
      obtain ⟨ring, hs, hreader, active, ha, rfl⟩ := ht
      obtain ⟨pair, -, -, hpriv, -⟩ := h.files hs (activeRecord_eq_some ha).1
      rw [hpriv]
      exact ⟨h, ring, hs, hreader, active, ha, rfl⟩
  | readSigning view kid =>
      simp only [Disk.fileOp]
      obtain ⟨ring, hs, hreader, active, ha, rfl⟩ := ht
      obtain ⟨pair, hring, -, hpriv, -⟩ := h.files hs (activeRecord_eq_some ha).1
      rw [hpriv]
      refine ⟨h.serve hs ?_, trivial⟩
      simp only [hreader, Reader.answer, signClaims, ha, hring, Except.map]
  | openKey view keys kid rest =>
      simp only [Disk.fileOp]
      obtain ⟨ring, hs, hc⟩ := ht
      obtain ⟨r, hr, rfl⟩ := mem_of_wants hc.2 (List.mem_append_right _ List.mem_cons_self)
      obtain ⟨pair, -, -, -, hpub⟩ := h.files hs hr
      rw [hpub]
      exact ⟨h, ring, hs, hc⟩
  | readKey view keys kid rest =>
      simp only [Disk.fileOp]
      obtain ⟨ring, hs, hc⟩ := ht
      obtain ⟨r, hr, rfl⟩ := mem_of_wants hc.2 (List.mem_append_right _ List.mem_cons_self)
      obtain ⟨pair, -, hring, -, hpub⟩ := h.files hs hr
      rw [hpub]
      exact nextKey_keeps h ⟨ring, hs, hc.snoc hring⟩

/-! ## What others see of it -/

/-- The changes a process can make under the lock: the history grows by operations whose keys
    it generated, and files that are written and linked stay. -/
structure Extends (p : ℕ) (d d' : Disk) : Prop where
  log : ∃ new, d'.log = d.log ++ new ∧
    ∀ e ∈ new, ∀ kid pair, e.op = .publish kid pair → d.maker kid = some p
  maker : ∀ kid q, d.maker kid = some q → d'.maker kid = some q
  unused : d.dir.unused ≤ d'.dir.unused
  whole : ∀ inode records, inode < d.dir.unused → d.dir.inodes inode = .whole records →
    d'.dir.inodes inode = .whole records
  linked : d.dir.metadata ≠ none → d'.dir.metadata ≠ none

/-- The changes it can make without the lock. -/
structure Frozen (d d' : Disk) : Prop where
  dir : d'.dir = d.dir
  log : d'.log = d.log
  tickets : d.tickets ≤ d'.tickets
  maker : ∀ kid q, d.maker kid = some q → d'.maker kid = some q

theorem Frozen.extends {p : ℕ} {d d' : Disk} (h : Frozen d d') : Extends p d d' := by
  refine ⟨⟨[], ?_, by simp⟩, h.maker, ?_, ?_, ?_⟩
  · rw [h.log, List.append_nil]
  · rw [h.dir]
  · intro inode records _ hw
    rw [h.dir]
    exact hw
  · rw [h.dir]
    exact id

theorem Frozen.refl (d : Disk) : Frozen d d := ⟨rfl, rfl, le_refl _, fun _ _ hk => hk⟩

theorem frozen_serve (d : Disk) (view : View) (answer : Except RingError Answer) :
    Frozen d (d.serve view answer).1 := ⟨rfl, rfl, le_refl _, fun _ _ hk => hk⟩

theorem frozen_nextKey (d : Disk) (view : View) (keys : List (String × PublicKey))
    (todo : List String) : Frozen d (d.nextKey view keys todo).1 := by
  cases todo with
  | nil => exact frozen_serve d view _
  | cons kid rest => exact .refl d

theorem frozen_consult (d : Disk) (view : View) (records : List KeyRecord) :
    Frozen d (d.consult view records).1 := by
  unfold Disk.consult
  split
  · split <;> exact frozen_serve d view _
  · split
    · exact frozen_serve d view _
    · exact .refl d
  · split
    · exact frozen_serve d view _
    · exact frozen_nextKey d view _ _
  · exact frozen_nextKey d view _ _

theorem frozen_loaded (keyRing : KeyRing) (d : Disk) (caller : Caller) (seen : ℕ)
    (records : List KeyRecord) (now : Time) :
    Frozen d (d.loaded keyRing caller seen records now).1 := by
  unfold Disk.loaded
  split
  · split <;> exact .refl d
  · exact frozen_consult d _ records

theorem frozen_failed (d : Disk) (caller : Caller) (error : RingError) :
    Frozen d (d.failed caller error).1 := by
  unfold Disk.failed
  split
  · exact .refl d
  · exact frozen_serve d _ _

/-- The file operations that change the directory. -/
def Task.writes : Task → Bool
  | .openPrivate .. | .writePrivate .. | .openPublic .. | .writePublic .. => true
  | .openTemporary .. | .writeTemporary .. | .replace .. => true
  | _ => false

theorem writes_of_outside {t : Task} (h : t.inside = false) : t.writes = false := by
  cases t with
  | openPrivate => cases h
  | writePrivate => cases h
  | openPublic => cases h
  | writePublic => cases h
  | openTemporary => cases h
  | writeTemporary => cases h
  | replace => cases h
  | _ => rfl

theorem frozen_fileOp {rings : ℕ → KeyRing} {p : ℕ} {now : Time} {d : Disk} {t : Task}
    (ht : t.writes = false) : Frozen d (d.fileOp rings p now t).1 := by
  cases t with
  | idle => exact .refl d
  | unlock => exact .refl d
  | flock op => cases op <;> exact ⟨rfl, rfl, Nat.le_succ _, fun _ _ hk => hk⟩
  | metadataExists caller =>
      simp only [Disk.fileOp]
      split
      · exact frozen_loaded _ d caller _ _ now
      · exact .refl d
  | openMetadata caller =>
      simp only [Disk.fileOp]
      split
      · exact frozen_failed d caller _
      · exact .refl d
  | readMetadata caller seen inode =>
      simp only [Disk.fileOp]
      split
      · exact frozen_failed d caller _
      · exact frozen_loaded _ d caller _ _ now
  | openSigning view kid =>
      simp only [Disk.fileOp]
      split
      · exact frozen_serve d view _
      · exact .refl d
  | readSigning view kid =>
      simp only [Disk.fileOp]
      split <;> exact frozen_serve d view _
  | openKey view keys kid rest =>
      simp only [Disk.fileOp]
      split
      · exact frozen_serve d view _
      · exact .refl d
  | readKey view keys kid rest =>
      simp only [Disk.fileOp]
      split
      · exact frozen_nextKey d view _ rest
      · exact frozen_serve d view _
  | _ => cases ht

/-- A change of inodes that are not written yet, or of key files. -/
theorem Extends.of_dir {p : ℕ} {d : Disk} {dir : Dir} (hunused : d.dir.unused ≤ dir.unused)
    (hwhole : ∀ inode records, inode < d.dir.unused → d.dir.inodes inode = .whole records →
      dir.inodes inode = .whole records)
    (hlinked : d.dir.metadata ≠ none → dir.metadata ≠ none) :
    Extends p d { d with dir } :=
  ⟨⟨[], (List.append_nil _).symm, by simp⟩, fun _ _ hk => hk, hunused, hwhole, hlinked⟩

theorem extends_fileOp {rings : ℕ → KeyRing} {p : ℕ} {now : Time} {d : Disk} {t : Task}
    (ht : Holds rings p d t) : Extends p d (d.fileOp rings p now t).1 := by
  have hkeys : ∀ privatePem publicPem,
      Extends p d { d with dir := { d.dir with privatePem, publicPem } } := by
    intro privatePem publicPem
    exact .of_dir (le_refl _) (fun _ _ _ hw => hw) id
  have hinode : ∀ inode c unused, d.dir.unused ≤ unused →
      (inode < d.dir.unused → d.dir.inodes inode = .cut) →
      Extends p d { d with
        dir.inodes := Function.update d.dir.inodes inode c
        dir.unused := unused } := by
    intro inode c unused hle hcut
    refine .of_dir hle ?_ id
    intro i records hi hw
    have hne : i ≠ inode := by
      intro he
      rw [he] at hi hw
      rw [hcut hi] at hw
      cases hw
    simp only [Function.update_of_ne hne]
    exact hw
  cases t with
  | openPrivate ticket kid pair => exact hkeys _ d.dir.publicPem
  | writePrivate ticket kid pair => exact hkeys _ d.dir.publicPem
  | openPublic ticket kid pair => exact hkeys d.dir.privatePem _
  | writePublic ticket kid pair => exact hkeys d.dir.privatePem _
  | openTemporary draft =>
      exact hinode _ _ _ (Nat.le_succ _) fun hlt => absurd hlt (Nat.lt_irrefl _)
  | writeTemporary draft inode => exact hinode _ _ _ (le_refl _) fun _ => ht.2.2
  | replace draft inode =>
      refine ⟨⟨[_], rfl, ?_⟩, fun _ _ hk => hk, le_refl _, fun _ _ _ hw => hw,
        fun _ => Option.some_ne_none _⟩
      intro e he kid pair hop
      rw [List.mem_singleton.mp he] at hop
      exact (ht.1.ready.mine kid pair hop).1
  | _ => exact (frozen_fileOp rfl).extends

theorem Mine.extends {p q : ℕ} {d d' : Disk} {op : RingOp} (h : Mine q d op) (hq : q ≠ p)
    (he : Extends p d d') : Mine q d' op := by
  intro kid pair hop
  obtain ⟨hmaker, hlog⟩ := h kid pair hop
  obtain ⟨new, hnew, hmade⟩ := he.log
  refine ⟨he.maker kid q hmaker, ?_⟩
  intro e hmem pair' hop'
  rw [hnew] at hmem
  rcases List.mem_append.mp hmem with hmem | hmem
  · exact hlog e hmem pair' hop'
  · have hp := hmade e hmem kid pair' hop'
    rw [hmaker] at hp
    exact hq (Option.some.inj hp)

/-- What holds of a process without the lock stays, whatever another does. -/
theorem holds_extends {rings : ℕ → KeyRing} {p q : ℕ} {d d' : Disk} {t : Task}
    (h : Holds rings q d t) (hq : q ≠ p) (ht : t.inside = false) (he : Extends p d d') :
    Holds rings q d' t := by
  obtain ⟨new, hnew, -⟩ := he.log
  have hlen : d.log.length ≤ d'.log.length := by
    rw [hnew, List.length_append]
    omega
  have hsnap : ∀ {since seen ring}, Snapshot rings d.log since seen ring →
      Snapshot rings d'.log since seen ring := by
    intro since seen ring hs
    rw [hnew]
    exact hs.append new
  cases t with
  | idle => trivial
  | flock op => exact Mine.extends h hq he
  | metadataExists caller =>
      cases caller with
      | change ticket op => cases ht
      | read since reader => exact le_trans h hlen
  | openMetadata caller =>
      cases caller with
      | change ticket op => cases ht
      | read since reader => exact ⟨le_trans h.1 hlen, he.linked h.2⟩
  | readMetadata caller seen inode =>
      cases caller with
      | change ticket op => cases ht
      | read since reader =>
          obtain ⟨hlt, ring, hs, hw⟩ := h
          exact ⟨lt_of_lt_of_le hlt he.unused, ring, hsnap hs, he.whole inode _ hlt hw⟩
  | openSigning view kid =>
      obtain ⟨ring, hs, hr⟩ := h
      exact ⟨ring, hsnap hs, hr⟩
  | readSigning view kid =>
      obtain ⟨ring, hs, hr⟩ := h
      exact ⟨ring, hsnap hs, hr⟩
  | openKey view keys kid rest =>
      obtain ⟨ring, hs, hc⟩ := h
      exact ⟨ring, hsnap hs, hc⟩
  | readKey view keys kid rest =>
      obtain ⟨ring, hs, hc⟩ := h
      exact ⟨ring, hsnap hs, hc⟩
  | _ => cases ht

theorem Mine.frozen {q : ℕ} {d d' : Disk} {op : RingOp} (h : Mine q d op) (hf : Frozen d d') :
    Mine q d' op := by
  intro kid pair hop
  refine ⟨hf.maker kid q (h kid pair hop).1, ?_⟩
  rw [hf.log]
  exact (h kid pair hop).2

theorem Latest.frozen {d d' : Disk} {ticket : ℕ} (h : Latest d ticket) (hf : Frozen d d') :
    Latest d' ticket := by
  refine ⟨lt_of_lt_of_le h.1 hf.tickets, ?_⟩
  rw [hf.log]
  exact h.2

theorem Ready.frozen {q : ℕ} {d d' : Disk} {ticket : ℕ} {op : RingOp}
    (h : Ready q d ticket op) (hf : Frozen d d') : Ready q d' ticket op := by
  refine ⟨h.mine.frozen hf, h.latest.frozen hf, ?_⟩
  rw [hf.dir]
  exact h.stored

theorem Drafted.frozen {rings : ℕ → KeyRing} {q : ℕ} {d d' : Disk} {draft : Draft}
    (h : Drafted rings q d draft) (hf : Frozen d d') : Drafted rings q d' draft := by
  refine ⟨h.ready.frozen hf, ?_⟩
  rw [hf.dir]
  exact h.saves

/-- What holds under the lock stays while the others run without it. -/
theorem holds_frozen {rings : ℕ → KeyRing} {q : ℕ} {d d' : Disk} {t : Task}
    (h : Holds rings q d t) (ht : t.inside = true) (hf : Frozen d d') : Holds rings q d' t := by
  cases t with
  | openPrivate ticket kid pair => exact ⟨h.1.frozen hf, h.2.frozen hf⟩
  | writePrivate ticket kid pair => exact ⟨h.1.frozen hf, h.2.frozen hf⟩
  | openPublic ticket kid pair | writePublic ticket kid pair =>
      refine ⟨h.1.frozen hf, h.2.1.frozen hf, ?_⟩
      rw [hf.dir]
      exact h.2.2
  | metadataExists caller =>
      cases caller with
      | change ticket op => exact Ready.frozen h hf
      | read since reader => cases ht
  | openMetadata caller =>
      cases caller with
      | change ticket op => exact Ready.frozen h hf
      | read since reader => cases ht
  | readMetadata caller seen inode =>
      cases caller with
      | change ticket op => exact ⟨h.1.frozen hf, by rw [hf.dir]; exact h.2⟩
      | read since reader => cases ht
  | openTemporary draft => exact Drafted.frozen h hf
  | writeTemporary draft inode => exact ⟨h.1.frozen hf, by rw [hf.dir]; exact h.2⟩
  | replace draft inode => exact ⟨h.1.frozen hf, by rw [hf.dir]; exact h.2⟩
  | unlock => trivial
  | _ => cases ht

/-! ## Runs -/

theorem outside_nextKey (d : Disk) (view : View) (keys : List (String × PublicKey))
    (todo : List String) : (d.nextKey view keys todo).2.inside = false := by
  cases todo <;> rfl

theorem outside_consult (d : Disk) (view : View) (records : List KeyRecord) :
    (d.consult view records).2.inside = false := by
  unfold Disk.consult
  split
  · split <;> rfl
  · split <;> rfl
  · split
    · rfl
    · exact outside_nextKey d view _ _
  · exact outside_nextKey d view _ _

/-- A reader never comes to hold the lock. -/
theorem outside_fileOp (rings : ℕ → KeyRing) (p : ℕ) (now : Time) (d : Disk) {t : Task}
    (hin : t.inside = false) (hw : t.waits = false) :
    (d.fileOp rings p now t).2.inside = false := by
  cases t with
  | idle => rfl
  | flock op => cases hw
  | metadataExists caller =>
      cases caller with
      | change ticket op => cases hin
      | read since reader =>
          simp only [Disk.fileOp]
          split
          · exact outside_consult d _ _
          · rfl
  | openMetadata caller =>
      cases caller with
      | change ticket op => cases hin
      | read since reader =>
          simp only [Disk.fileOp]
          split <;> rfl
  | readMetadata caller seen inode =>
      cases caller with
      | change ticket op => cases hin
      | read since reader =>
          simp only [Disk.fileOp]
          split
          · rfl
          · exact outside_consult d _ _
  | openSigning view kid =>
      simp only [Disk.fileOp]
      split <;> rfl
  | readSigning view kid =>
      simp only [Disk.fileOp]
      split <;> rfl
  | openKey view keys kid rest =>
      simp only [Disk.fileOp]
      split <;> rfl
  | readKey view keys kid rest =>
      simp only [Disk.fileOp]
      split
      · exact outside_nextKey d view _ rest
      · rfl
  | _ => cases hin

theorem frozen_begin (p : ℕ) (d : Disk) (job : Job)
    (hnew : ∀ kid pair, job = .change (.publish kid pair) → d.maker kid = none) :
    Frozen d (d.begin p job).1 := by
  unfold Disk.begin
  split
  · next kid pair =>
      refine ⟨rfl, rfl, le_refl _, ?_⟩
      intro k q hk
      have hne : k ≠ kid := by
        intro he
        rw [he, hnew kid pair rfl] at hk
        cases hk
      exact (Function.update_of_ne hne _ _).trans hk
  · exact .refl d
  · exact .refl d

theorem ordered_begin {rings : ℕ → KeyRing} {p : ℕ} {d : Disk} (h : Ordered rings d) (job : Job)
    (hnew : ∀ kid pair, job = .change (.publish kid pair) → d.maker kid = none) :
    Ordered rings (d.begin p job).1 ∧ Holds rings p (d.begin p job).1 (d.begin p job).2 ∧
      (d.begin p job).2.inside = false := by
  cases job with
  | read reader => exact ⟨h, le_refl _, rfl⟩
  | change op =>
      cases op with
      | activate kid => exact ⟨h, nofun, rfl⟩
      | retire kid => exact ⟨h, nofun, rfl⟩
      | publish kid pair =>
          have hf := frozen_begin p d (.change (.publish kid pair)) hnew
          have hunmade : ∀ e ∈ d.log, ∀ pair', e.op ≠ .publish kid pair' := by
            intro e he pair' hop
            exact h.made e he kid pair' hop (hnew kid pair rfl)
          refine ⟨⟨h.ring, h.tickets, h.order, h.linked, h.stored, ?_, h.answers⟩, ?_, rfl⟩
          · intro e he k pair' hop
            obtain ⟨q, hq⟩ := Option.ne_none_iff_exists'.mp (h.made e he k pair' hop)
            rw [hf.maker k q hq]
            simp
          · intro k pair' hop
            cases hop
            exact ⟨Function.update_self .., hunmade⟩

theorem processes_keeps (rings : ℕ → KeyRing) :
    (processes rings).Keeps (Ordered rings) (Holds rings) Generates where
  idle := fun _ _ => trivial
  free := by
    refine ⟨rfl, ?_⟩
    intro t ht
    cases t with
    | idle => rfl
    | _ => cases ht
  begins := by
    intro h p c hq hinv
    refine ordered_begin hinv c ?_
    intro kid pair hc
    subst hc
    exact hq
  begins_others := by
    intro h p c q u hq hinv hne hown
    have hf : Frozen h.shared (h.shared.begin p c).1 := by
      refine frozen_begin p h.shared c ?_
      intro kid pair hc
      subst hc
      exact hq
    cases hu : u.inside with
    | false => exact holds_extends hown hne hu hf.extends
    | true => exact holds_frozen hown hu hf
  enters := by
    intro p now d t hin
    by_contra hout
    simp only [not_or, Bool.not_eq_true] at hout
    have hstay := outside_fileOp rings p now d hout.1 hout.2
    exact absurd hin (by simpa [processes] using hstay)
  goes := by
    intro h p now _ hinv hown
    exact fileOp_keeps now hinv hown
  goes_others := by
    intro h p now q u _ hinv hown hne hother hlock
    cases hu : u.inside with
    | false => exact holds_extends hother hne hu (extends_fileOp hown)
    | true =>
        have hout : (h.task p).inside = false := by
          by_contra hin
          have hin' : (h.task p).inside = true := by simpa using hin
          have hu' : u.inside = false := hlock (Or.inl hin')
          rw [hu'] at hu
          cases hu
        exact holds_frozen hother hu (frozen_fileOp (writes_of_outside hout))

theorem ordered_empty (rings : ℕ → KeyRing) : Ordered rings .empty :=
  ⟨⟨.empty, rfl, rfl⟩, nofun, .nil, nofun, nofun, nofun, nofun⟩

theorem Ordered.survives {rings : ℕ → KeyRing} {d : Disk} (h : Ordered rings d) :
    Survives rings d := by
  refine ⟨h.ring, h.order, ?_, ?_, ?_⟩
  · intro a ha
    obtain ⟨seen, ring, ⟨hsince, -, hreplay⟩, hle, hlen, hans⟩ := h.answers a ha
    exact ⟨seen, ring, hsince, hle, hlen, hreplay, hans⟩
  · intro records hrec r hr
    obtain ⟨ring, hs, rfl⟩ := h.snapshot (Nat.zero_le _) hrec
    obtain ⟨pair, -, -, hstored⟩ := h.files hs hr
    exact ⟨pair, hstored⟩
  · intro a ha
    obtain ⟨seen, ring, hs, -, -, hans⟩ := h.answers a ha
    rw [hans]
    exact answer_of_supplied (supplied hs.2.2) a.reader

/-- The key ring survives concurrency and crashes, in every run with fresh keys. -/
theorem ring_survives (rings : ℕ → KeyRing) (events : List (Signal ℕ Job Time))
    (hfresh : Along (processes rings).signal Generates ((processes rings).start .empty) events) :
    Survives rings
      (run (processes rings).signal ((processes rings).start .empty) events).shared :=
  ((processes_keeps rings).run (ordered_empty rings) hfresh).shared.survives

/-- `n` file operations of a process. -/
def fileOps (p n : ℕ) : List (Signal ℕ Job Time) := List.replicate n (.go p 0)

/-- Process 0 is killed while it writes a key file; process 1 has waited for its lock and
    publishes; process 2 opens `keyring.json` before a second publish replaces it. -/
def crashed : List (Signal ℕ Job Time) :=
  [.call 0 (.change (.publish "a" ⟨⟨3233, 17⟩, 2753⟩))] ++ fileOps 0 4 ++
  [.call 1 (.change (.publish "b" ⟨⟨2773, 17⟩, 157⟩))] ++ fileOps 1 2 ++
  [.kill 0] ++ fileOps 1 10 ++
  [.call 2 (.read .jwks)] ++ fileOps 2 2 ++
  [.call 3 (.change (.publish "c" ⟨⟨3127, 3⟩, 2011⟩))] ++ fileOps 3 12 ++ fileOps 2 3

/-- The reader lists the first publish only; the serial ring has both. -/
theorem ring_survives_a_kill :
    let d := (run (processes fun _ => .default).signal
      ((processes fun _ => .default).start .empty) crashed).shared
    Survives (fun _ => .default) d ∧ d.dir.records.map (List.map KeyRecord.kid) = some ["b", "c"] ∧
      d.answers.map Served.answer = [.ok (.keys [Jwk.of "b" ⟨2773, 17⟩])] :=
  ⟨ring_survives _ crashed (by decide +kernel), by decide +kernel, by decide +kernel⟩

end TemisLab.Keyring
