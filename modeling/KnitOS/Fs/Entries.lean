import KnitOS.Fs.Lookups

/-!
# The records of a directory

The blob of a directory is a sequence of records.  The scanning loops of
`dir_find_name`, `dir_remove_entry` and `fs_readdir` read such a blob record by
record, whatever the padding holds.
-/

namespace KnitOS.Fs

open Storage

/-- The bytes of a directory record; the padding is arbitrary. -/
structure IsRecord (record : List UInt8) (entry : Dirent) : Prop where
  bytes : ∃ padding, record = wordBytes entry.ino ++
    UInt8.ofNat entry.name.length :: (entry.name ++ padding)
  size : record.length = entry.size
  short : entry.name.length < 256
  small : entry.ino < 4294967296

/-- A blob that is a sequence of records. -/
inductive Records : List UInt8 → List Dirent → Prop
  | nil : Records [] []
  | cons {record blob : List UInt8} {entry : Dirent} {entries : List Dirent}
      (first : IsRecord record entry) (rest : Records blob entries) :
      Records (record ++ blob) (entry :: entries)

theorem recordSize_le (nameLength : Nat) : direntHdr + nameLength ≤ recordSize nameLength := by
  change 5 + nameLength ≤ (5 + nameLength + 3) / 4 * 4
  omega

theorem recordSize_le_of_short {length : Nat} (short : length ≤ 255) : recordSize length ≤ 264 := by
  change (5 + length + 3) / 4 * 4 ≤ 264
  omega

theorem Dirent.size_pos (entry : Dirent) : 0 < entry.size := by
  have large := recordSize_le entry.name.length
  change 5 + entry.name.length ≤ entry.size at large
  omega

namespace IsRecord

variable {record : List UInt8} {entry : Dirent} (isRecord : IsRecord record entry)

include isRecord

theorem direntNext (rest : List UInt8) : direntNext (record ++ rest) = some entry := by
  obtain ⟨padding, bytes⟩ := isRecord.bytes
  have nameLength : (UInt8.ofNat entry.name.length).toNat = entry.name.length := by
    rw [UInt8.toNat_ofNat', Nat.mod_eq_of_lt isRecord.short]
  have fits : recordSize entry.name.length ≤ (record ++ rest).length := by
    have size := isRecord.size
    change record.length = recordSize entry.name.length at size
    rw [List.length_append]
    omega
  have ino : wordOf (UInt8.ofNat entry.ino) (UInt8.ofNat (entry.ino / 256))
      (UInt8.ofNat (entry.ino / 65536)) (UInt8.ofNat (entry.ino / 16777216)) = entry.ino := by
    rw [wordOf_wordBytes, u32_of_lt isRecord.small]
  have name : ((entry.name ++ padding) ++ rest).take
      (UInt8.ofNat entry.name.length).toNat = entry.name := by
    rw [nameLength, List.append_assoc, List.take_left]
  rw [bytes] at fits ⊢
  change (if recordSize (UInt8.ofNat entry.name.length).toNat ≤ _ then
    some (Dirent.mk _ _) else none) = _
  rw [nameLength, if_pos fits, ino]
  rw [nameLength] at name
  change some (Dirent.mk entry.ino (((entry.name ++ padding) ++ rest).take
    entry.name.length)) = some entry
  rw [name]

theorem drop (rest : List UInt8) : (record ++ rest).drop entry.size = rest := by
  rw [← isRecord.size, List.drop_left]

theorem take (rest : List UInt8) : (record ++ rest).take entry.size = record := by
  rw [← isRecord.size, List.take_left]

end IsRecord

theorem Dirent.length_encode (entry : Dirent) : entry.encode.length = entry.size := by
  have large := recordSize_le entry.name.length
  change 5 + entry.name.length ≤ entry.size at large
  have four : (wordBytes entry.ino).length = 4 := rfl
  rw [Dirent.encode, List.length_append, List.length_append, List.length_cons,
    List.length_replicate, four]
  change 4 + (entry.name.length + 1) + (entry.size - 5 - entry.name.length) = entry.size
  omega

theorem Dirent.isRecord_encode {entry : Dirent}
    (short : entry.name.length < 256) (small : entry.ino < 4294967296) :
    IsRecord entry.encode entry := ⟨⟨_, List.append_assoc _ _ _⟩, entry.length_encode, short, small⟩

theorem length_removeDirent_le (name : List UInt8) : ∀ (rounds : Nat) {blob shorter : List UInt8},
    removeDirent name rounds blob = some shorter → shorter.length ≤ blob.length := by
  intro rounds
  induction rounds with
  | zero =>
    intro blob shorter removed
    cases removed
  | succ rounds ih =>
    intro blob shorter removed
    rw [removeDirent] at removed
    cases next : direntNext blob with
    | none =>
      rw [next] at removed
      cases removed
    | some entry =>
      rw [next] at removed
      dsimp only at removed
      by_cases named : entry.isNamed name = true
      · rw [if_pos named] at removed
        cases removed
        rw [List.length_drop]
        omega
      · rw [if_neg named] at removed
        obtain ⟨rest, removedRest, rfl⟩ := Option.map_eq_some_iff.mp removed
        have shorterRest := ih removedRest
        rw [List.length_drop] at shorterRest
        rw [List.length_append, List.length_take]
        omega

namespace Records

theorem single {record : List UInt8} {entry : Dirent}
    (isRecord : IsRecord record entry) : Records record [entry] := by
  have one := Records.cons isRecord Records.nil
  rw [List.append_nil] at one
  exact one

variable {entries : List Dirent}

theorem append {first second : List UInt8} {others : List Dirent}
    (records : Records first entries) (more : Records second others) :
    Records (first ++ second) (entries ++ others) := by
  induction records with
  | nil => exact more
  | cons isRecord _ ih =>
    rw [List.append_assoc]
    exact Records.cons isRecord ih

variable {blob : List UInt8} (records : Records blob entries)
include records

theorem short : ∀ entry ∈ entries, entry.name.length < 256 := by
  induction records with
  | nil => simp
  | cons isRecord _ ih =>
    exact List.forall_mem_cons.mpr ⟨isRecord.short, ih⟩

theorem length_eq : blob.length = (entries.map Dirent.size).sum := by
  induction records with
  | nil => rfl
  | cons isRecord _ ih =>
    rw [List.length_append, isRecord.size, ih, List.map_cons, List.sum_cons]

theorem direntsOf_append {part : List UInt8} (cut : direntNext part = none) :
    ∀ rounds, blob.length ≤ rounds → direntsOf rounds (blob ++ part) = entries := by
  induction records with
  | nil =>
    intro rounds _
    cases rounds with
    | zero => rfl
    | succ rounds => rw [direntsOf, List.nil_append, cut]
  | @cons record blob entry entries isRecord _ ih =>
    intro rounds enough
    have positive := entry.size_pos
    have size := isRecord.size
    rw [List.length_append] at enough
    obtain ⟨fewer, rfl⟩ : ∃ fewer, rounds = fewer + 1 := ⟨rounds - 1, by omega⟩
    rw [direntsOf, List.append_assoc, isRecord.direntNext]
    dsimp only
    rw [isRecord.drop, ih fewer (by omega)]

theorem direntsOf_eq (rounds : Nat)
    (enough : blob.length ≤ rounds) : direntsOf rounds blob = entries := by
  have all := records.direntsOf_append (rfl : direntNext [] = none) rounds enough
  rw [List.append_nil] at all
  exact all

theorem entryNamed_eq (name : List UInt8) : entryNamed blob name =
    (entries.find? fun entry => entry.isNamed name).bind fun entry =>
      if entry.ino < 2147483648 then some entry.ino else none := by
  unfold entryNamed
  rw [records.direntsOf_eq _ (Nat.le_refl _)]

theorem removeDirent_eq (name : List UInt8) : ∀ rounds, blob.length ≤ rounds →
    (∀ entry ∈ entries, entry.isNamed name = false) ∧ removeDirent name rounds blob = none ∨
      (∃ entry ∈ entries, entry.isNamed name = true) ∧
        ∃ shorter, removeDirent name rounds blob = some shorter ∧ Records shorter
            (entries.eraseP fun entry => entry.isNamed name) := by
  induction records with
  | nil =>
    intro rounds _
    left
    refine ⟨by simp, ?_⟩
    cases rounds with
    | zero => rfl
    | succ rounds => rfl
  | @cons record blob entry entries isRecord rest ih =>
    intro rounds enough
    have positive := entry.size_pos
    have size := isRecord.size
    rw [List.length_append] at enough
    obtain ⟨fewer, rfl⟩ : ∃ fewer, rounds = fewer + 1 := ⟨rounds - 1, by omega⟩
    rw [removeDirent, isRecord.direntNext]
    dsimp only
    rw [isRecord.drop, isRecord.take]
    by_cases named : entry.isNamed name = true
    · right
      have erased : (entry :: entries).eraseP (fun entry =>
          entry.isNamed name) = entries :=
        List.eraseP_cons_of_pos named
      rw [if_pos named, erased]
      exact ⟨⟨entry, List.mem_cons_self, named⟩, blob, rfl, rest⟩
    · have erased : (entry :: entries).eraseP (fun entry =>
          entry.isNamed name) = entry :: entries.eraseP fun entry => entry.isNamed name :=
        List.eraseP_cons_of_neg named
      rw [if_neg named, erased]
      rcases ih fewer (by omega) with
        ⟨absent, removed⟩ | ⟨⟨found, member, isFound⟩, shorter, removed, left⟩
      · left
        rw [removed]
        refine ⟨?_, rfl⟩
        exact List.forall_mem_cons.mpr ⟨by simpa using named, absent⟩
      · right
        rw [removed]
        exact ⟨⟨found, List.mem_cons_of_mem _ member, isFound⟩,
          record ++ shorter, rfl, Records.cons isRecord left⟩

end Records

end KnitOS.Fs
