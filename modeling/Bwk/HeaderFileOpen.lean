import Bwk.HeaderFileMap
import Bwk.HeaderRuns

namespace Bwk

/-!
# Opening a header cache

What `HeaderStore::from_file` does with whatever it finds: the bytes become
rows, the rows a store, and the store is judged before anyone reads it.  Only
the numbering of the records runs before any check of what they say.
-/

namespace HeaderFile

open FixedRecords

/-- `Header::SIZE`. -/
def headerSize : Nat := 80

/-- `decode_header`: exactly one header's worth of bytes. -/
def decodeHeader (bytes : Bytes) : Option Bytes :=
  if bytes.length = headerSize then some bytes else none

/-- `RamStore::open` on the rows of the file. -/
def openRows :
    HeaderMap Bytes → List (String × Bytes) → Option (HeaderMap Bytes)
  | cache, [] => some cache
  | cache, (key, bytes) :: rest => do
      let height ← parseHeight key
      let raw ← decodeHeader bytes
      openRows (cache.insert height raw) rest

/-- `HeaderStore::from_file`: rows that do not decode count as none. -/
def fromFile
    (btc : Bitcoin Bytes)
    (nowSecs : Nat)
    (network : Network)
    (checkpoint : Option Checkpoint)
    (faults : List Bool) :
    FileM (HeaderStore (HeaderBackend Bytes) Bytes) := do
  let rows ← getRows headerSize
  pure (HeaderStore.withCheckpoint btc nowSecs network checkpoint
    { rows := (openRows ∅ rows).getD ∅
      faults := faults })

/-- Too short for the prefix, without the magic, or with a partial record. -/
def Malformed (bytes : Bytes) : Prop :=
  bytes.length < cachePrefixLen ∨ bytes.take 4 ≠ cacheMagic ∨
    (bytes.drop cachePrefixLen).length % headerSize ≠ 0

/-- The lowest height a file claims to store. -/
def minStored (bytes : Bytes) : Nat :=
  fromLeBytes ((bytes.drop 4).take 4)

/-- The number of records of a file. -/
def recordCount (bytes : Bytes) : Nat :=
  (bytes.drop cachePrefixLen).length / headerSize

/-- The last record of a well-framed file is at a height a `u32` holds. -/
def HeightsFit (file : Option Bytes) : Prop :=
  ∀ bytes, file = some bytes → ¬Malformed bytes →
    minStored bytes + min (recordCount bytes) (u32Max + 1) ≤ u32Max + 1

/-- A store is empty or holds a chain that passes both open-time checks. -/
def Settled
    (btc : Bitcoin Bytes)
    (nowSecs : Nat)
    (network : Network)
    (checkpoint : Option Checkpoint)
    (store : HeaderStore (HeaderBackend Bytes) Bytes) :
    Prop :=
  store.chain = ∅ ∨
    sanityCheck btc network checkpoint store.chain = .ok () ∧
      replayValidate btc network store.chain nowSecs = .ok ()

theorem collectRows_panics
    {minStored index : Nat}
    {chunks : List Bytes}
    {offset : Nat}
    (inside : offset < chunks.length)
    (overflows :
      u32Max < minStored + (index + offset) % (u32Max + 1))
    (out : HeaderMap Bytes)
    (file : Option Bytes) :
    collectRows minStored index chunks out file = .error .panic file := by
  induction chunks generalizing index offset out with
  | nil =>
      cases inside
  | cons chunk rest inductionHypothesis =>
      by_cases fits : minStored + index % (u32Max + 1) ≤ u32Max
      · have later : offset ≠ 0 := by
          intro first
          subst first
          rw [Nat.add_zero] at overflows
          omega
        have shift : index + offset = index + 1 + (offset - 1) := by omega
        rw [shift] at overflows
        rw [List.length_cons] at inside
        have panics :=
          inductionHypothesis (by omega) overflows
            (out.insert (minStored + index % (u32Max + 1)) chunk)
        simp only [collectRows, addHeights, if_pos fits, bind, EStateM.bind,
          pure, EStateM.pure]
        exact panics
      · simp only [collectRows, addHeights, if_neg fits, bind, EStateM.bind]
        rfl

theorem collectRows_ok
    {minStored index : Nat}
    {chunks : List Bytes}
    (fits :
      ∀ offset < chunks.length,
        minStored + (index + offset) % (u32Max + 1) ≤ u32Max)
    (out : HeaderMap Bytes)
    (file : Option Bytes) :
    ∃ rows, collectRows minStored index chunks out file = .ok rows file ∧
      ∀ (height : Nat) (raw : Bytes), rows[height]? = some raw →
        height ≤ u32Max ∧ raw ∈ chunks ∨ out[height]? = some raw := by
  induction chunks generalizing index out with
  | nil =>
      exact ⟨out, rfl, fun height raw present => Or.inr present⟩
  | cons chunk rest inductionHypothesis =>
      have here := fits 0 (by simp)
      rw [Nat.add_zero] at here
      have later :
          ∀ offset < rest.length,
            minStored + (index + 1 + offset) % (u32Max + 1) ≤ u32Max := by
        intro offset inside
        have shifted := fits (offset + 1) (by simpa using inside)
        have same : index + (offset + 1) = index + 1 + offset := by omega
        rwa [same] at shifted
      rcases inductionHypothesis later
          (out.insert (minStored + index % (u32Max + 1)) chunk) with
        ⟨rows, collected, found⟩
      refine ⟨rows, ?_, ?_⟩
      · simp only [collectRows, addHeights, if_pos here, bind, EStateM.bind,
          pure, EStateM.pure]
        exact collected
      · intro height raw present
        rcases found height raw present with ⟨small, member⟩ | before
        · exact Or.inl ⟨small, List.mem_cons_of_mem _ member⟩
        · rw [BTreeMap.getElem?_insert_eq] at before
          split at before
          · rename_i same
            cases before
            exact Or.inl ⟨same ▸ here, List.mem_cons_self⟩
          · exact Or.inr before

theorem offsets_fit_iff
    {low count : Nat}
    (bounded : low ≤ u32Max) :
    (∀ offset < count, low + (0 + offset) % (u32Max + 1) ≤ u32Max) ↔
      low + min count (u32Max + 1) ≤ u32Max + 1 := by
  constructor
  · intro fits
    by_cases none : count = 0
    · omega
    · have last := fits (min count (u32Max + 1) - 1) (by omega)
      rw [Nat.zero_add, Nat.mod_eq_of_lt (by omega)] at last
      omega
  · intro fits offset inside
    rw [Nat.zero_add]
    have wrapped : offset % (u32Max + 1) < u32Max + 1 :=
      Nat.mod_lt _ (by decide)
    have smaller := Nat.mod_le offset (u32Max + 1)
    omega

theorem fromLeBytes_le (bytes : Bytes) : fromLeBytes bytes ≤ u32Max := by
  unfold fromLeBytes
  split
  · rename_i first second third fourth
    have firstSmall := first.toNat_lt
    have secondSmall := second.toNat_lt
    have thirdSmall := third.toNat_lt
    have fourthSmall := fourth.toNat_lt
    rw [u32Max]
    omega
  · exact Nat.zero_le _

theorem minStored_le (bytes : Bytes) : minStored bytes ≤ u32Max :=
  fromLeBytes_le _

section Loading

variable {bytes : Bytes}

theorem loadMap_malformed (malformed : Malformed bytes) :
    loadMap headerSize (some bytes) = .ok ∅ none := by
  simp only [loadMap, bind, EStateM.bind, get, getThe, MonadStateOf.get,
    EStateM.get]
  by_cases unframed :
      bytes.length < cachePrefixLen ∨ bytes.take 4 ≠ cacheMagic
  · rw [if_pos unframed]
    rfl
  · have partialRecord :
        (bytes.drop cachePrefixLen).length % headerSize ≠ 0 := by
      rcases malformed with short | magic | partialRecord
      · exact absurd (Or.inl short) unframed
      · exact absurd (Or.inr magic) unframed
      · exact partialRecord
    rw [if_neg unframed, if_pos partialRecord]
    rfl

theorem loadMap_framed (framed : ¬Malformed bytes) :
    loadMap headerSize (some bytes) =
      collectRows (minStored bytes) 0
        (chunksExact headerSize (recordCount bytes)
          (bytes.drop cachePrefixLen)) ∅ (some bytes) := by
  have prefixed :
      ¬(bytes.length < cachePrefixLen ∨ bytes.take 4 ≠ cacheMagic) := by
    rintro (short | magic)
    · exact framed (Or.inl short)
    · exact framed (Or.inr (Or.inl magic))
  have whole :
      ¬(bytes.drop cachePrefixLen).length % headerSize ≠ 0 :=
    fun partialRecord => framed (Or.inr (Or.inr partialRecord))
  simp only [loadMap, bind, EStateM.bind, get, getThe, MonadStateOf.get,
    EStateM.get, if_neg prefixed, if_neg whole]
  rfl

theorem loadMap_panics
    (framed : ¬Malformed bytes)
    (overflows :
      ¬minStored bytes + min (recordCount bytes) (u32Max + 1) ≤
        u32Max + 1) :
    loadMap headerSize (some bytes) = .error .panic (some bytes) := by
  rw [← offsets_fit_iff (minStored_le bytes)] at overflows
  push Not at overflows
  rcases overflows with ⟨offset, inside, past⟩
  rw [loadMap_framed framed]
  exact collectRows_panics (by rwa [length_chunksExact]) past ∅ _

/-- A file whose heights fit gives rows of one header at heights that fit. -/
theorem loadMap_fits
    {file : Option Bytes}
    (fits : HeightsFit file) :
    ∃ rows after, loadMap headerSize file = .ok rows after ∧
      ∀ (height : Nat) (raw : Bytes), rows[height]? = some raw →
        height ≤ u32Max ∧ raw.length = headerSize := by
  cases file with
  | none =>
      exact ⟨∅, none, rfl, by simp⟩
  | some bytes =>
      by_cases malformed : Malformed bytes
      · exact ⟨∅, none, loadMap_malformed malformed, by simp⟩
      · have offsets :=
          (offsets_fit_iff (minStored_le bytes)).mpr
            (fits bytes rfl malformed)
        have within :
            ∀ offset < (chunksExact headerSize (recordCount bytes)
                (bytes.drop cachePrefixLen)).length,
              minStored bytes + (0 + offset) % (u32Max + 1) ≤ u32Max := by
          rwa [length_chunksExact]
        rcases collectRows_ok within ∅ (some bytes) with
          ⟨rows, collected, found⟩
        refine ⟨rows, some bytes, ?_, ?_⟩
        · rw [loadMap_framed malformed]
          exact collected
        · intro height raw present
          rcases found height raw present with ⟨small, member⟩ | impossible
          · refine ⟨small, uniform_chunksExact ?_ raw member⟩
            exact Nat.div_mul_le_self _ _
          · simp at impossible

theorem openRows_getRows
    {rows : HeaderMap Bytes}
    (shaped :
      ∀ (height : Nat) (raw : Bytes), rows[height]? = some raw →
        height ≤ u32Max ∧ raw.length = headerSize) :
    openRows ∅ (rows.toList.map (fun row => (toString row.1, row.2))) =
      some rows := by
  have entries :
      ∀ (listed : List (Nat × Bytes)) (cache : HeaderMap Bytes),
        (∀ row ∈ listed,
          row.1 ≤ u32Max ∧ row.2.length = headerSize) →
        openRows cache
            (listed.map (fun row => (toString row.1, row.2))) =
          some (cache.insertAll listed) := by
    intro listed
    induction listed with
    | nil =>
        intro cache within
        rfl
    | cons row rest inductionHypothesis =>
        intro cache within
        have here := within row List.mem_cons_self
        have later :=
          inductionHypothesis (cache.insert row.1 row.2)
            (fun other member => within other (List.mem_cons_of_mem _ member))
        simp only [List.map_cons, openRows, parseHeight_toString here.1,
          decodeHeader, if_pos here.2, Option.bind_eq_bind,
          Option.bind_some]
        exact later
  rw [entries, BTreeMap.insertAll_toList]
  intro row member
  exact shaped row.1 row.2
    (Std.ExtTreeMap.mem_toList_iff_getElem?_eq_some.mp member)

end Loading

section Opening

variable (btc : Bitcoin Bytes) (nowSecs : Nat) (network : Network)
variable (checkpoint : Option Checkpoint) (faults : List Bool)

/--
Opening a cache ends with a settled store, empty when the file is malformed,
exactly when the records of a well-framed file end at a height a `u32` holds.
-/
theorem fromFile_settles_iff (file : Option Bytes) :
    (∃ store after,
      fromFile btc nowSecs network checkpoint faults file =
          .ok store after ∧
        Settled btc nowSecs network checkpoint store ∧
        ∀ bytes, file = some bytes → Malformed bytes →
          store.chain = ∅ ∧ after = none) ↔
      HeightsFit file := by
  constructor
  · rintro ⟨store, after, opened, -, -⟩ bytes present framed
    subst present
    by_contra overflows
    have panics := loadMap_panics framed overflows
    simp only [fromFile, getRows, bind, EStateM.bind, panics] at opened
    cases opened
  · intro fits
    rcases loadMap_fits fits with ⟨rows, after, loaded, shaped⟩
    have opened :
        fromFile btc nowSecs network checkpoint faults file =
          .ok (HeaderStore.withCheckpoint btc nowSecs network checkpoint
            { rows := rows, faults := faults }) after := by
      simp only [fromFile, getRows, bind, EStateM.bind, loaded, pure,
        EStateM.pure, openRows_getRows shaped, Option.getD_some]
    refine ⟨_, after, opened, ?_, ?_⟩
    · rcases chain_withCheckpoint btc nowSecs network checkpoint
          ({ rows := rows, faults := faults } : HeaderBackend Bytes) with
        empty | ⟨same, sane, replayed⟩
      · exact Or.inl empty
      · refine Or.inr ?_
        rw [same]
        exact ⟨sane, replayed⟩
    · intro bytes present malformed
      subst present
      rw [loadMap_malformed malformed] at loaded
      cases loaded
      refine ⟨?_, rfl⟩
      rcases chain_withCheckpoint btc nowSecs network checkpoint
          ({ rows := ∅, faults := faults } : HeaderBackend Bytes) with
        empty | ⟨same, -, -⟩
      · exact empty
      · rw [same]
        rfl

end Opening

/-- A crate that decodes no header. -/
def blankBitcoin : Bitcoin Bytes where
  deserialize _ := none
  blockHash := Bitcoin.sample.blockHash
  target := Bitcoin.sample.target
  toWork := Bitcoin.sample.toWork
  fromNextWorkRequired := Bitcoin.sample.fromNextWorkRequired
  maxAttainableTarget := Bitcoin.sample.maxAttainableTarget
  genesisBlock := Bitcoin.sample.genesisBlock

/-- Two blank records, the first of them at the last height of a `u32`. -/
def topFile : Bytes :=
  fileOf u32Max [List.replicate 80 0, List.replicate 80 0]

/-- The second record of that file has no height, and opening panics. -/
theorem fromFile_topFile_panics :
    ¬∃ store after,
      fromFile blankBitcoin 0 .bitcoin none [] (some topFile) =
          .ok store after ∧
        Settled blankBitcoin 0 .bitcoin none store := by
  rintro ⟨store, after, opened, -⟩
  have panics :
      loadMap headerSize (some topFile) = .error .panic (some topFile) :=
    loadMap_panics
      (by
        rintro (short | magic | partialRecord)
        · exact absurd short (by decide +kernel)
        · exact magic rfl
        · exact partialRecord (by decide +kernel))
      (by decide +kernel)
  simp only [fromFile, getRows, bind, EStateM.bind, panics] at opened
  cases opened

end HeaderFile

end Bwk
