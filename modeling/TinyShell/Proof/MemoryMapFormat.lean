import TinyShell.Proof.MemoryMap

/-!
# The format of the memory map

A `MapRecord` is one record as a list of bytes: its size, base, length and type in
little-endian order and any padding. A buffer is walked to its end exactly when its
bytes are a non-empty concatenation of such records (`Records.bytes`, `records_of_bytes`),
and the walk loads nothing outside the buffer (`walkLoopChecked_restrict`).
-/

namespace TinyShell

open Machine

variable {m : Memory} {σ : Type*}

/-! ## The walk stays inside its buffer -/

/-- The loads of the loop body, for a cursor in the buffer: the size once it fits, the
other fields once the record does. -/
theorem checkedLoads {a n : ℕ} {mmapEnd cursor : U32} (hend : mmapEnd.toNat ≤ a + n) (hcur : a ≤ cursor.toNat)
    (hlt : cursor < mmapEnd) (hsize : ¬mmapEnd - cursor < 4) :
    checkedLoad32 (restrict m a n) cursor.toNat = some (load32 m cursor.toNat) ∧
      (¬(load32 m cursor.toNat < 20 ∨ load32 m cursor.toNat > 0xFFFFFFFF - 4) →
        ¬load32 m cursor.toNat + 4 > mmapEnd - cursor →
        checkedLoad64 (restrict m a n) (cursor.toNat + 12) = some (entryRegion m cursor.toNat).length ∧
          checkedLoad64 (restrict m a n) (cursor.toNat + 4) = some (entryRegion m cursor.toNat).base ∧
          checkedLoad32 (restrict m a n) (cursor.toNat + 20) = some (entryRegion m cursor.toNat).type) := by
  refine ⟨checkedLoad32_restrict hcur (by bv_omega), fun hp hr => ?_⟩
  generalize hv : load32 m cursor.toNat = payload at hp hr
  have hfits : cursor.toNat + 24 ≤ a + n := by bv_omega
  exact ⟨checkedLoad64_restrict (by omega) (by omega), checkedLoad64_restrict (by omega) (by omega),
    checkedLoad32_restrict (by omega) (by omega)⟩

/-- The rest of the loop body, once the record fits. -/
theorem walkLoopChecked_record (visitor : Option (RegionVisitor σ)) {a n : ℕ} {mmapEnd cursor : U32}
    (count : U32) (context : σ) (hend : mmapEnd.toNat ≤ a + n) (hcur : a ≤ cursor.toNat)
    (hlt : cursor < mmapEnd) (hsize : ¬mmapEnd - cursor < 4)
    (hp : ¬(load32 m cursor.toNat < 20 ∨ load32 m cursor.toNat > 0xFFFFFFFF - 4))
    (hr : ¬load32 m cursor.toNat + 4 > mmapEnd - cursor) :
    walkLoopChecked (restrict m a n) visitor mmapEnd cursor count context =
      if (entryRegion m cursor.toNat).length = 0 then some (none, context)
      else if (entryRegion m cursor.toNat).base > 0xFFFFFFFFFFFFFFFF - (entryRegion m cursor.toNat).length ∨
          count = 0xFFFFFFFF then some (none, context)
      else if (visitRegion visitor context (entryRegion m cursor.toNat)).1 then
        walkLoopChecked (restrict m a n) visitor mmapEnd (cursor + (load32 m cursor.toNat + 4)) (count + 1)
          (visitRegion visitor context (entryRegion m cursor.toNat)).2
      else some (none, (visitRegion visitor context (entryRegion m cursor.toNat)).2) := by
  obtain ⟨hload, hloads⟩ := checkedLoads (m := m) hend hcur hlt hsize
  obtain ⟨hlength, hbase, htype⟩ := hloads hp hr
  conv_lhs => rw [walkLoopChecked]
  simp only [if_pos hlt, if_neg hsize, hload, if_neg hp, if_neg hr, hlength, hbase, htype]

/-- **Every load of the loop is inside the buffer**: a memory restricted to it answers
them all. -/
theorem walkLoopChecked_restrict (visitor : Option (RegionVisitor σ)) {a n : ℕ} {mmapEnd : U32}
    (hend : mmapEnd.toNat ≤ a + n) (cursor count : U32) (context : σ) (hcur : a ≤ cursor.toNat) :
    walkLoopChecked (restrict m a n) visitor mmapEnd cursor count context =
      some (walkLoop m visitor mmapEnd cursor count context) := by
  fun_induction walkLoop m visitor mmapEnd cursor count context with
  | case1 cursor count context hlt remaining hsize => rw [walkLoopChecked, if_pos hlt, if_pos hsize]
  | case2 cursor count context hlt remaining hsize payloadSize hp =>
    have hload := (checkedLoads (m := m) hend hcur hlt hsize).1
    rw [walkLoopChecked, if_pos hlt, if_neg hsize]
    simp only [hload]
    exact if_pos hp
  | case3 cursor count context hlt remaining hsize payloadSize hp recordSize region hr =>
    by_cases hfit : recordSize > remaining
    · have hload := (checkedLoads (m := m) hend hcur hlt hsize).1
      rw [walkLoopChecked, if_pos hlt, if_neg hsize]
      simp only [hload]
      rw [if_neg hp]
      exact if_pos hfit
    · rw [walkLoopChecked_record visitor count context hend hcur hlt hsize hp hfit]
      exact if_pos (hr.resolve_left hfit)
  | case4 cursor count context hlt remaining hsize payloadSize hp recordSize region hr hb =>
    rw [not_or] at hr
    rw [walkLoopChecked_record visitor count context hend hcur hlt hsize hp hr.1, if_neg hr.2, if_pos hb]
  | case5 cursor count context hlt remaining hsize payloadSize hp recordSize region hr hb visited hv ih =>
    rw [not_or] at hr
    have hnext : a ≤ (cursor + recordSize).toNat := by
      simp only [recordSize, payloadSize, remaining] at hr hp hsize ⊢
      generalize load32 m cursor.toNat = payload at *
      bv_omega
    rw [walkLoopChecked_record visitor count context hend hcur hlt hsize hp hr.1, if_neg hr.2, if_neg hb,
      if_pos hv, ← ih hnext]
  | case6 cursor count context hlt remaining hsize payloadSize hp recordSize region hr hb visited hv =>
    rw [not_or] at hr
    rw [walkLoopChecked_record visitor count context hend hcur hlt hsize hp hr.1, if_neg hr.2, if_neg hb,
      if_neg hv]
  | case7 cursor count context hlt => rw [walkLoopChecked, if_neg hlt]

theorem walkMemoryMapChecked_restrict (visitor : Option (RegionVisitor σ)) (info : U32) (context : σ) :
    walkMemoryMapChecked (restrict m (infoMmapAddr m info).toNat (infoMmapLength m info).toNat)
        (infoMmapAddr m info) (infoMmapLength m info) visitor context =
      some (walkMemoryMap m info visitor context) := by
  have hend : (infoMmapAddr m info + infoMmapLength m info).toNat ≤
      (infoMmapAddr m info).toNat + (infoMmapLength m info).toNat := by bv_omega
  unfold walkMemoryMapChecked walkMemoryMap
  rw [walkLoopChecked_restrict visitor hend _ _ _ le_rfl]
  dsimp only
  rcases walkLoop m visitor _ _ _ _ with ⟨_ | count, context⟩ <;> rfl

/-! ## Records as bytes -/

/-- One record of the map: a region that is not empty and ends by `UINT64_MAX`, and
padding with which the size is at most `2 ^ 32 - 5`. -/
structure MapRecord where
  region : BootMemoryRegion
  padding : List U8
  length_ne_zero : region.length ≠ 0
  region_fits : region.base.toNat + region.length.toNat ≤ 2 ^ 64 - 1
  size_fits : 20 + padding.length ≤ 2 ^ 32 - 5

/-- The bytes of a region in a record, without the size. -/
def regionBytes (r : BootMemoryRegion) : List U8 := le64 r.base ++ le64 r.length ++ le32 r.type

def MapRecord.bytes (r : MapRecord) : List U8 :=
  le32 (word (20 + r.padding.length)) ++ (regionBytes r.region ++ r.padding)

@[simp] theorem length_regionBytes (r : BootMemoryRegion) : (regionBytes r).length = 20 := rfl

theorem MapRecord.length_bytes (r : MapRecord) : r.bytes.length = 24 + r.padding.length := by
  simp only [bytes, List.length_append, length_le32, length_regionBytes]
  omega

theorem regionBytes_inj {r s : BootMemoryRegion} (h : regionBytes r = regionBytes s) : r = s := by
  obtain ⟨h, htype⟩ := List.append_inj h rfl
  obtain ⟨hbase, hlength⟩ := List.append_inj h rfl
  cases r
  cases s
  rw [BootMemoryRegion.mk.injEq]
  exact ⟨le64_inj hbase, le64_inj hlength, le32_inj htype⟩

/-- The bytes at a record's address, as the walk reads them. -/
theorem bytesFrom_record (m : Memory) (a k : ℕ) :
    bytesFrom m a (24 + k) = le32 (load32 m a) ++ (regionBytes (entryRegion m a) ++ bytesFrom m (a + 24) k) := by
  rw [show 24 + k = 4 + (8 + (8 + (4 + k))) by omega, bytesFrom_add, bytesFrom_add, bytesFrom_add, bytesFrom_add,
    bytesFrom_word, bytesFrom_long, bytesFrom_long, bytesFrom_word]
  simp [regionBytes, entryRegion, Nat.add_assoc]

/-- The records that the walk goes through are bytes of the format. -/
theorem Records.bytes {stop cursor : ℕ} {rs : List BootMemoryRegion} (h : Records m stop cursor rs)
    (hstop : stop < 2 ^ 32) : ∀ n, stop = cursor + n →
      ∃ records : List MapRecord, bytesFrom m cursor n = records.flatMap MapRecord.bytes ∧
        records.map MapRecord.region = rs := by
  induction h with
  | done =>
    intro n hn
    obtain rfl : n = 0 := by omega
    exact ⟨[], rfl, rfl⟩
  | record h1 h2 h3 h4 _ ih =>
    rename_i cursor rs _
    intro n hn
    obtain ⟨k, hk⟩ : ∃ k, (load32 m cursor).toNat = 20 + k := ⟨_, (Nat.add_sub_cancel' h1).symm⟩
    obtain ⟨records, hbytes, hregions⟩ := ih (n - (24 + k)) (by omega)
    let r : MapRecord := ⟨entryRegion m cursor, bytesFrom m (cursor + 24) k, h3, by omega, by simp; omega⟩
    have hword : word (20 + r.padding.length) = load32 m cursor := by
      rw [length_bytesFrom, ← hk, word, BitVec.ofNat_toNat, BitVec.setWidth_eq]
    refine ⟨r :: records, ?_, by rw [List.map_cons, hregions]⟩
    rw [List.flatMap_cons, ← hbytes, MapRecord.bytes, hword, ← bytesFrom_record m cursor k,
      show cursor + 4 + (load32 m cursor).toNat = cursor + (24 + k) by omega, ← bytesFrom_add,
      show 24 + k + (n - (24 + k)) = n by omega]

/-- Bytes of the format are records that the walk goes through. -/
theorem records_of_bytes (records : List MapRecord) : ∀ cursor n : ℕ,
    bytesFrom m cursor n = records.flatMap MapRecord.bytes →
      Records m (cursor + n) cursor (records.map MapRecord.region) := by
  induction records with
  | nil =>
    intro cursor n h
    obtain rfl : n = 0 := by simpa using congrArg List.length h
    exact .done
  | cons r records ih =>
    intro cursor n h
    have hlen := congrArg List.length h
    rw [length_bytesFrom, List.flatMap_cons, List.length_append, r.length_bytes] at hlen
    rw [hlen, bytesFrom_add, List.flatMap_cons] at h
    obtain ⟨hrecord, hrest⟩ := List.append_inj h (by rw [length_bytesFrom, r.length_bytes])
    rw [bytesFrom_record] at hrecord
    obtain ⟨hsize, hbody⟩ := List.append_inj hrecord rfl
    obtain ⟨hregion, -⟩ := List.append_inj hbody rfl
    have hregion := regionBytes_inj hregion
    have hsize : (load32 m cursor).toNat = 20 + r.padding.length := by
      rw [le32_inj hsize, toNat_word]
      have := r.size_fits
      omega
    have hnonempty := r.length_ne_zero
    have hfits := r.region_fits
    rw [← hregion] at hnonempty hfits
    have htail := ih _ _ hrest
    rw [show cursor + (24 + r.padding.length) = cursor + 4 + (load32 m cursor).toNat by omega,
      show cursor + 4 + (load32 m cursor).toNat + (records.flatMap MapRecord.bytes).length = cursor + n by omega]
      at htail
    rw [List.map_cons, ← hregion]
    exact .record (by omega) (by omega) hnonempty (by omega) htail

/-- The bytes of the buffer. -/
def mapBytes (m : Memory) (info : U32) : List U8 :=
  bytesFrom m (infoMmapAddr m info).toNat (infoMmapLength m info).toNat

/-- The bytes are a non-empty concatenation of records. -/
def MapFormat (bytes : List U8) (records : List MapRecord) : Prop :=
  records ≠ [] ∧ bytes = records.flatMap MapRecord.bytes

theorem MapFormat.memoryMap {info : U32} {records : List MapRecord} (h : MapFormat (mapBytes m info) records)
    (hz : infoMmapAddr m info ≠ 0)
    (hfit : (infoMmapAddr m info).toNat + (infoMmapLength m info).toNat < 2 ^ 32) :
    MemoryMap m info (records.map MapRecord.region) :=
  ⟨hz, hfit, records_of_bytes records _ _ h.2, by simpa using h.1⟩

theorem MemoryMap.mapFormat {info : U32} {rs : List BootMemoryRegion} (h : MemoryMap m info rs) :
    ∃ records, MapFormat (mapBytes m info) records := by
  obtain ⟨records, hbytes, hregions⟩ := h.records.bytes h.buffer_fits _ rfl
  refine ⟨records, ?_, hbytes⟩
  rintro rfl
  exact h.nonempty hregions.symm

/-! ## The parser -/

/-- A visitor that never refuses a region; `NULL` is one. -/
def AlwaysTrue (visitor : Option (RegionVisitor σ)) : Prop :=
  ∀ context region, (visitRegion visitor context region).1 = true

theorem AlwaysTrue.visitAll {visitor : Option (RegionVisitor σ)} (h : AlwaysTrue visitor)
    (rs : List BootMemoryRegion) (context : σ) :
    visitAll (visitRegion visitor) rs context =
      (true, rs.foldl (fun context region => (visitRegion visitor context region).2) context) := by
  induction rs generalizing context with
  | nil => rfl
  | cons r rs ih => rw [TinyShell.visitAll, if_pos (h context r), ih, List.foldl_cons]

/-- On a buffer of the format, a visitor that never refuses receives the regions of the
records, once each and in order. -/
theorem walk_of_mapFormat {visitor : Option (RegionVisitor σ)} (hv : AlwaysTrue visitor) (context : σ)
    {info : U32} {records : List MapRecord} (h : MapFormat (mapBytes m info) records)
    (hz : infoMmapAddr m info ≠ 0)
    (hfit : (infoMmapAddr m info).toNat + (infoMmapLength m info).toNat < 2 ^ 32) :
    ∃ count : U32, count.toNat = records.length ∧
      walkMemoryMap m info visitor context =
        (some count, (records.map MapRecord.region).foldl
          (fun context region => (visitRegion visitor context region).2) context) := by
  have hmap := h.memoryMap hz hfit
  have hlen := hmap.records.length_le
  rw [List.length_map] at hlen
  refine ⟨word records.length, toNat_word (by omega), ?_⟩
  rw [walkMemoryMap_records visitor hmap, hv.visitAll, if_pos rfl, List.length_map]

/-- The visitor that writes down what it receives. -/
def collect : RegionVisitor (List BootMemoryRegion) := fun seen region => (true, seen ++ [region])

theorem foldl_collect (rs seen : List BootMemoryRegion) :
    rs.foldl (fun seen region => (visitRegion (some collect) seen region).2) seen = seen ++ rs := by
  induction rs generalizing seen with
  | nil => rw [List.foldl_nil, List.append_nil]
  | cons r rs ih => rw [List.foldl_cons, ih, visitRegion, collect, List.append_assoc, List.singleton_append]

/-- The memory with a list of records in the buffer. -/
def serialised (m : Memory) (info : U32) (records : List MapRecord) : Memory :=
  place m (infoMmapAddr m info).toNat (records.flatMap MapRecord.bytes)

/-- The records fill the buffer, which is not inside the info structure. -/
structure FillsBuffer (m : Memory) (info : U32) (records : List MapRecord) : Prop where
  length_eq : (records.flatMap MapRecord.bytes).length = (infoMmapLength m info).toNat
  disjoint : (infoMmapAddr m info).toNat + (infoMmapLength m info).toNat ≤ info.toNat ∨
    info.toNat + multibootInfoSize.toNat ≤ (infoMmapAddr m info).toNat

/-- The info structure is as before. -/
theorem FillsBuffer.info_unchanged {info : U32} {records : List MapRecord}
    (h : FillsBuffer m info records) {i : ℕ} (hi : i + 4 ≤ multibootInfoSize.toNat) :
    load32 (serialised m info records) (info.toNat + i) = load32 m (info.toNat + i) := by
  refine load32_place_of_disjoint ?_
  rw [h.length_eq]
  have := h.disjoint
  omega

/-- What the parser does with the memory map of a validated info structure. -/
structure ParsesMap (m : Memory) (magic info : U32) : Prop where
  /-- The walk answers as if nothing but the buffer could be read. -/
  reads_buffer : ∀ {σ : Type} (visitor : Option (RegionVisitor σ)) (context : σ),
    walkMemoryMapChecked (restrict m (infoMmapAddr m info).toNat (infoMmapLength m info).toNat)
        (infoMmapAddr m info) (infoMmapLength m info) visitor context =
      some (walkMemoryMap m info visitor context)
  accepts : ∀ {σ : Type} (visitor : Option (RegionVisitor σ)) (context : σ), AlwaysTrue visitor →
    ((walkMemoryMap m info visitor context).1.isSome = true ↔ ∃ records, MapFormat (mapBytes m info) records)
  visits : ∀ {σ : Type} (visitor : Option (RegionVisitor σ)) (context : σ), AlwaysTrue visitor →
    ∀ records, MapFormat (mapBytes m info) records → ∃ count : U32, count.toNat = records.length ∧
      walkMemoryMap m info visitor context =
        (some count, (records.map MapRecord.region).foldl
          (fun context region => (visitRegion visitor context region).2) context)
  round_trip : ∀ records : List MapRecord, records ≠ [] → FillsBuffer m info records →
    validateMultibootInfo (serialised m info records) magic info = some info ∧
      ∃ count : U32, count.toNat = records.length ∧
        walkMemoryMap (serialised m info records) info (some collect) [] =
          (some count, records.map MapRecord.region)

/-- **The parser accepts exactly its format and reads only its buffer.** The words of
the info structure that say where the buffer is are read to validate it; `reads_buffer`
is about the map. -/
theorem memory_map_format {magic infoAddress info : U32}
    (h : validateMultibootInfo m magic infoAddress = some info) : ParsesMap m magic info := by
  obtain ⟨rfl, -, -, -, hz, -, hfit⟩ := validateMultibootInfo_eq_some h
  refine ⟨fun visitor context => walkMemoryMapChecked_restrict visitor info context, ?_,
    fun visitor context hv records hformat => walk_of_mapFormat hv context hformat hz hfit, ?_⟩
  · intro σ visitor context hv
    constructor
    · intro hsome
      obtain ⟨n, hn⟩ := Option.isSome_iff_exists.1 hsome
      obtain ⟨rs, hmap⟩ := memoryMap_of_walk hz hfit hn
      exact hmap.mapFormat
    · rintro ⟨records, hformat⟩
      obtain ⟨count, -, hwalk⟩ := walk_of_mapFormat hv context hformat hz hfit
      rw [hwalk]
      rfl
  · intro records hne hfills
    have hflags : infoFlags (serialised m info records) info = infoFlags m info :=
      hfills.info_unchanged (i := 0) (by decide)
    have haddr : infoMmapAddr (serialised m info records) info = infoMmapAddr m info :=
      hfills.info_unchanged (by decide)
    have hlength : infoMmapLength (serialised m info records) info = infoMmapLength m info :=
      hfills.info_unchanged (by decide)
    have hformat : MapFormat (mapBytes (serialised m info records) info) records := by
      refine ⟨hne, ?_⟩
      rw [mapBytes, haddr, hlength, ← hfills.length_eq]
      exact bytesFrom_place _ _ _
    constructor
    · unfold validateMultibootInfo at h ⊢
      rw [hflags, haddr, hlength]
      exact h
    · have hcollect : AlwaysTrue (some collect) := fun _ _ => rfl
      obtain ⟨count, hcount, hwalk⟩ :=
        walk_of_mapFormat hcollect [] hformat (by rwa [haddr]) (by rwa [haddr, hlength])
      rw [foldl_collect, List.nil_append] at hwalk
      exact ⟨count, hcount, hwalk⟩

/-- An info structure at 4 with a buffer of one record at 64: `[0, 4096)`, available. -/
def oneRecordMap : Memory :=
  place (place (fun _ => 0#8) 4 (le32 65#32)) 48 (le32 24#32 ++ le32 64#32 ++
    List.replicate 8 0#8 ++ le32 20#32 ++ le64 0#64 ++ le64 4096#64 ++ le32 1#32)

theorem memory_map_format_one : validateMultibootInfo oneRecordMap multibootBootloaderMagic 4 = some 4 ∧
    ParsesMap oneRecordMap multibootBootloaderMagic 4 :=
  have h : validateMultibootInfo oneRecordMap multibootBootloaderMagic 4 = some 4 := by decide
  ⟨h, memory_map_format h⟩

end TinyShell
