import KnitOS.Fs.State

/-!
# The metadata journal

A transaction is copied to the log, announced in the superblock, copied to its
home sectors and retired again, all through the cache, before one sync.
-/

namespace KnitOS.Fs

open Lib.Program Storage

/-- Set `log_next` in memory and write the superblock. -/
def announceLog (logNext : Nat) : FsProgram Unit := do
  modifyBoot fun boot => { boot with logNext := logNext }
  writeBoot

/-- `fs_recover` after the header was accepted: copy every logged sector that
can be read to its home; write errors are ignored. -/
def replayLog (logStart : Nat) (header : TxnHeader) : FsProgram Unit :=
  forRange
    (fun index => do
      let logged ← attempt (dRead (u32 (logStart + 1 + index)))
      match logged with
      | none => pure ()
      | some bytes => do
          let _ ← attempt (dWrite (header.lba.getD index 0) bytes)
          pure ())
    0 header.nsec

/-- Whether `fs_recover` accepts the first sector of the log. -/
def headerAccepted (sector : Sector) : Bool :=
  let header := TxnHeader.decode sector
  header.magic == txnMagic && header.nsec != 0 &&
    decide (header.nsec ≤ journalMax) &&
    fsCsum32 sector (4 * (2 + header.nsec)) == header.csum

def fsRecover : FsProgram Unit := do
  let boot ← reads FsState.boot
  if boot.logSize = 0 ∨ boot.logNext = 0 then
    pure ()
  else
    let sector ← dRead boot.logStartSector
    if headerAccepted sector then
      replayLog boot.logStartSector (TxnHeader.decode sector)
      let _ ← attempt (announceLog 0)
      let _ ← attempt cacheSync
      pure ()
    else
      let _ ← attempt (announceLog 0)
      pure ()

def dWriteAll : List (Nat × Sector) → FsProgram Unit
  | [] => pure ()
  | write :: rest => do
      dWrite write.1 write.2
      dWriteAll rest

def txnHeader (homes : List (Nat × Sector)) : TxnHeader :=
  let unsigned : TxnHeader :=
    { magic := txnMagic
      nsec := homes.length
      lba := homes.map Prod.fst
      csum := 0 }
  { unsigned with
    csum := fsCsum32 unsigned.encode (4 * (2 + homes.length)) }

/-- The log sectors of a transaction: its header and its contents. -/
def logWrites (boot : BootSector) (homes : List (Nat × Sector)) : List (Nat × Sector) :=
  (boot.logStartSector, (txnHeader homes).encode) ::
    homes.mapIdx fun index home =>
      (u32 (boot.logStartSector + 1 + index), home.2)

/-- `fs_journal_commit`; the arrays `lbas` and `sectors` are one list of home
sectors with their new contents. -/
def fsJournalCommit (homes : List (Nat × Sector)) : FsProgram Unit := do
  let boot ← reads FsState.boot
  require (homes.length ≠ 0 ∧ homes.length ≤ journalMax)
  require (homes.length + 1 ≤ boot.logSize)
  dWriteAll (logWrites boot homes)
  announceLog (homes.length + 1)
  dWriteAll homes
  announceLog 0
  cacheSync

/-- The home sectors `fs_persist_meta` puts into the journal: the first
sectors of the inode table and the first sector of the bitmap. -/
def journaledHomes (fs : FsState) : List (Nat × Sector) :=
  let take := min fs.boot.inodeSectors (journalMax - 2)
  ((List.range take).map fun index =>
      (u32 (fs.boot.inodeTableSector + index), tableSector fs.inodes index)) ++
    (match fs.bitmap with
    | some bits =>
      if 0 < fs.bitmapSectors then
        [(fs.boot.freeBitmapSector, bitmapSector bits 0)]
      else
        []
    | none => [])

/-- The part of the bitmap that `fs_persist_meta` writes without the
journal. -/
def writeBitmapTail : FsProgram Unit := do
  let fs ← reads id
  match fs.bitmap with
  | some bits =>
    dWriteN (u32 (fs.boot.freeBitmapSector + 1)) (fs.bitmapSectors - 1)
      fun index => bitmapSector bits (index + 1)
  | none => pure ()

def fsPersistMeta : FsProgram Unit := do
  let homes ← reads journaledHomes
  fsJournalCommit homes
  let fs ← reads id
  let tsec := fs.boot.inodeSectors
  let take := min tsec (journalMax - 2)
  dWriteN (u32 (fs.boot.inodeTableSector + take)) (tsec - take)
    fun index => tableSector fs.inodes (take + index)
  writeBitmapTail
  writeBoot
  cacheSync

end KnitOS.Fs
