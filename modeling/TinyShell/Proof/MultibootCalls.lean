import TinyShell.Proof.MemoryMapFormat

/-!
# The entry points of the memory map

The three calls walk the buffer once without a visitor, and so accept the same inputs;
only then is the visitor shown a region.

* `validateMultibootInfo_ne_none`: which information they look at further.
* `mapRejected`, `mapAccepted`: all three refuse, or all three go on over the same records.
* `visitAll_logged`: which regions a visitor has been called with.
* `entry_points_agree`: the calls agree, and visiting is all or nothing.
-/

namespace TinyShell

open Machine

variable {m : Memory} {magic infoAddress : U32} {σ : Type}

/-! ## Counting the calls -/

/-- The visitor with the regions that it has been called with. -/
def logged (visit : RegionVisitor σ) : RegionVisitor (σ × List BootMemoryRegion) :=
  fun context region => ((visit context.1 region).1, (visit context.1 region).2, context.2 ++ [region])

/-- The visitor accepts the regions `before` and refuses the one behind them. -/
def RefusesAfter (visit : RegionVisitor σ) (context : σ) (before : List BootMemoryRegion)
    (region : BootMemoryRegion) : Prop :=
  (visitAll visit before context).1 = true ∧ (visit (visitAll visit before context).2 region).1 = false

theorem visitAll_logged_cons (visit : RegionVisitor σ) (r : BootMemoryRegion) (rs seen : List BootMemoryRegion)
    (context : σ) :
    visitAll (logged visit) (r :: rs) (context, seen) =
      if (visit context r).1 then visitAll (logged visit) rs ((visit context r).2, seen ++ [r])
      else (false, (visit context r).2, seen ++ [r]) := rfl

/-- Logging does not change what the visitor does. -/
theorem visitAll_logged (visit : RegionVisitor σ) (rs seen : List BootMemoryRegion) (context : σ) :
    (visitAll (logged visit) rs (context, seen)).1 = (visitAll visit rs context).1 ∧
      (visitAll (logged visit) rs (context, seen)).2.1 = (visitAll visit rs context).2 := by
  induction rs generalizing context seen with
  | nil => exact ⟨rfl, rfl⟩
  | cons r rs ih =>
    rw [visitAll_logged_cons, visitAll]
    split_ifs
    · exact ih (seen ++ [r]) (visit context r).2
    · exact ⟨rfl, rfl⟩

/-- A visitor that accepts a list has accepted its head. -/
theorem visitAll_head {visit : RegionVisitor σ} {r : BootMemoryRegion} {rs : List BootMemoryRegion} {context : σ}
    (h : (visitAll visit (r :: rs) context).1 = true) : (visit context r).1 = true := by
  by_contra hr
  rw [visitAll, if_neg hr] at h
  exact Bool.false_ne_true h

theorem visitAll_accepted {visit : RegionVisitor σ} {rs : List BootMemoryRegion} {context : σ}
    (h : (visitAll visit rs context).1 = true) (seen : List BootMemoryRegion) :
    (visitAll (logged visit) rs (context, seen)).2.2 = seen ++ rs := by
  induction rs generalizing context seen with
  | nil => exact (List.append_nil seen).symm
  | cons r rs ih =>
    have hr := visitAll_head h
    rw [visitAll, if_pos hr] at h
    rw [visitAll_logged_cons, if_pos hr, ih h, List.append_assoc, List.singleton_append]

/-- A visitor that has accepted `before` and refuses the next region is called with no
other. -/
theorem visitAll_refused {visit : RegionVisitor σ} {before : List BootMemoryRegion} {region : BootMemoryRegion}
    {context : σ} (h : RefusesAfter visit context before region) (after seen : List BootMemoryRegion) :
    (visitAll visit (before ++ region :: after) context).1 = false ∧
      (visitAll (logged visit) (before ++ region :: after) (context, seen)).2.2 = seen ++
        (before ++ [region]) := by
  induction before generalizing context seen with
  | nil =>
    have hr : ¬(visit context region).1 = true := by simpa [visitAll] using h.2
    rw [List.nil_append, visitAll_logged_cons, visitAll, if_neg hr, if_neg hr]
    exact ⟨rfl, rfl⟩
  | cons r before ih =>
    have hr := visitAll_head h.1
    rw [RefusesAfter, visitAll, if_pos hr] at h
    obtain ⟨hresult, hseen⟩ := ih h (seen ++ [r])
    rw [List.cons_append, visitAll_logged_cons, visitAll, if_pos hr, if_pos hr, hseen]
    exact ⟨hresult, by simp⟩

/-! ## The information -/

/-- Information that the calls go on with: from a loader, with a structure inside the address space
that has the memory sizes and a map, and a map buffer inside the address space. -/
structure InfoUsable (m : Memory) (magic infoAddress : U32) : Prop where
  loader : magic = multibootBootloaderMagic
  present : infoAddress ≠ 0
  fits : infoAddress.toNat + 52 < 2 ^ 32
  sizes : (infoFlags m infoAddress).getLsbD 0 = true
  map : (infoFlags m infoAddress).getLsbD 6 = true
  buffer : infoMmapAddr m infoAddress ≠ 0
  buffer_nonempty : infoMmapLength m infoAddress ≠ 0
  buffer_fits : (infoMmapAddr m infoAddress).toNat + (infoMmapLength m infoAddress).toNat < 2 ^ 32

theorem requiredFlags_iff (flags : U32) :
    flags &&& (1 ||| 64) = (1 ||| 64) ↔ flags.getLsbD 0 = true ∧ flags.getLsbD 6 = true := by
  constructor
  · intro h
    have h0 := congrArg (BitVec.getLsbD · 0) h
    have h6 := congrArg (BitVec.getLsbD · 6) h
    simp only [BitVec.getLsbD_and] at h0 h6
    exact ⟨(Bool.and_eq_true_iff.1 h0).1, (Bool.and_eq_true_iff.1 h6).1⟩
  · rintro ⟨h0, h6⟩
    have hbits : ∀ i < 32, (1 ||| 64 : U32).getLsbD i = true → i = 0 ∨ i = 6 := by decide
    apply BitVec.eq_of_getLsbD_eq
    intro i hi
    rw [BitVec.getLsbD_and, Bool.and_eq_right_iff_imp]
    intro hbit
    rcases hbits i hi hbit with rfl | rfl
    · exact h0
    · exact h6

/-- `validate_multiboot_info` succeeds on exactly this information. -/
theorem validateMultibootInfo_ne_none :
    validateMultibootInfo m magic infoAddress ≠ none ↔ InfoUsable m magic infoAddress := by
  have hsize : multibootInfoSize = 52 := rfl
  constructor
  · intro h
    obtain ⟨info, hinfo⟩ := Option.ne_none_iff_exists'.1 h
    obtain ⟨rfl, hloader, hpresent, hfits, hbuffer, hnonempty, hbufferFits⟩ := validateMultibootInfo_eq_some hinfo
    -- the flags are the one test that the lemma leaves out
    have hflags : infoFlags m info &&& (1 ||| 64) = (1 ||| 64) := by
      by_contra hne
      unfold validateMultibootInfo at h
      rw [if_pos (Or.inl hne), ite_self] at h
      exact h rfl
    obtain ⟨hsizes, hmap⟩ := (requiredFlags_iff _).1 hflags
    exact ⟨hloader, hpresent, hfits, hsizes, hmap, hbuffer, hnonempty, hbufferFits⟩
  · intro h
    have hfits := h.fits
    have hbufferFits := h.buffer_fits
    unfold validateMultibootInfo
    rw [if_neg, if_neg]
    · exact Option.some_ne_none _
    · rw [not_or, not_not, not_or, not_or]
      exact ⟨(requiredFlags_iff _).2 ⟨h.sizes, h.map⟩, h.buffer, h.buffer_nonempty, by bv_omega⟩
    · rw [not_or, not_not, not_or]
      exact ⟨h.loader, h.present, by rw [hsize]; bv_omega⟩

/-! ## The entry points -/

/-- All calls refuse the input. -/
structure MapRejected (m : Memory) (magic infoAddress : U32) : Prop where
  parse : ∀ summary, multibootParse m magic infoAddress (some summary) = (false, some summary)
  ranges : ∀ ranges, multibootGetOwnedRanges m magic infoAddress (some ranges) = (false, some ranges)
  visit : ∀ {σ : Type} (visit : RegionVisitor σ) (context : σ),
    multibootForEachMemoryRegion m magic infoAddress (some visit) context = (false, context)

/-- All calls go on over the same records. -/
structure MapAccepted (m : Memory) (magic infoAddress : U32) (records : List MapRecord) : Prop where
  parse : ∀ summary, multibootParse m magic infoAddress (some summary) =
    (true, some ⟨infoMemLower m infoAddress, infoMemUpper m infoAddress, word records.length⟩)
  ranges : ∀ ranges, multibootGetOwnedRanges m magic infoAddress (some ranges) =
    (true, some ⟨infoAddress, multibootInfoSize, infoMmapAddr m infoAddress, infoMmapLength m infoAddress⟩)
  visit : ∀ {σ : Type} (visit : RegionVisitor σ) (context : σ),
    multibootForEachMemoryRegion m magic infoAddress (some visit) context =
      visitAll visit (records.map MapRecord.region) context
  length_lt : records.length < 2 ^ 32

theorem visitRegion_some (visit : RegionVisitor σ) : visitRegion (some visit) = visit := rfl

theorem mapAccepted {info : U32} (hinfo : validateMultibootInfo m magic infoAddress = some info)
    {records : List MapRecord} (hformat : MapFormat (mapBytes m infoAddress) records) :
    MapAccepted m magic infoAddress records := by
  obtain ⟨rfl, -, -, -, hz, -, hfit⟩ := validateMultibootInfo_eq_some hinfo
  have hmap := hformat.memoryMap hz hfit
  have hlength : records.length < 2 ^ 32 := by
    have := hmap.records.length_le
    rw [List.length_map] at this
    omega
  have hwalk : (walkMemoryMap m info (none : Option (RegionVisitor Unit)) ()).1 = some (word records.length) := by
    rw [walkMemoryMap_records none hmap, visitAll_none, List.length_map]
    rfl
  refine ⟨fun summary => ?_, fun ranges => ?_, fun visit context => ?_, hlength⟩
  · simp only [multibootParse, hinfo, hwalk]
  · simp only [multibootGetOwnedRanges, hinfo, hwalk]
  · simp only [multibootForEachMemoryRegion, hinfo, hwalk]
    rw [walkMemoryMap_records (some visit) hmap, visitRegion_some]
    refine Prod.ext ?_ rfl
    cases (visitAll visit (records.map MapRecord.region) context).1 <;> rfl

theorem mapRejected (h : validateMultibootInfo m magic infoAddress = none ∨
    ∀ records, ¬MapFormat (mapBytes m infoAddress) records) : MapRejected m magic infoAddress := by
  cases hinfo : validateMultibootInfo m magic infoAddress with
  | none =>
    refine ⟨fun summary => ?_, fun ranges => ?_, fun visit context => ?_⟩
    · rw [multibootParse, hinfo]
    · rw [multibootGetOwnedRanges, hinfo]
    · rw [multibootForEachMemoryRegion, hinfo]
  | some info =>
    obtain ⟨rfl, -, -, -, hz, -, hfit⟩ := validateMultibootInfo_eq_some hinfo
    have hformat := h.resolve_left (by simp [hinfo])
    have hwalk : (walkMemoryMap m info (none : Option (RegionVisitor Unit)) ()).1 = none := by
      rw [Option.eq_none_iff_forall_ne_some]
      intro n hn
      obtain ⟨rs, hmap⟩ := memoryMap_of_walk hz hfit hn
      obtain ⟨records, hrecords⟩ := hmap.mapFormat
      exact hformat records hrecords
    refine ⟨fun summary => ?_, fun ranges => ?_, fun visit context => ?_⟩
    · simp only [multibootParse, hinfo, hwalk]
    · simp only [multibootGetOwnedRanges, hinfo, hwalk]
    · simp only [multibootForEachMemoryRegion, hinfo, hwalk]

/-- The regions that a visitor is called with. -/
def visited (m : Memory) (magic infoAddress : U32) (visit : RegionVisitor σ)
    (context : σ) : List BootMemoryRegion :=
  (multibootForEachMemoryRegion m magic infoAddress (some (logged visit)) (context, [])).2.2

/-- How the calls go together, for one memory, magic and address. -/
structure EntryPointsAgree (m : Memory) (magic infoAddress : U32) : Prop where
  accepts_iff : ∀ summary, (multibootParse m magic infoAddress (some summary)).1 = true ↔
    InfoUsable m magic infoAddress ∧ ∃ records, MapFormat (mapBytes m infoAddress) records
  ranges_iff : ∀ summary ranges, (multibootParse m magic infoAddress (some summary)).1 =
    (multibootGetOwnedRanges m magic infoAddress (some ranges)).1
  visit_iff : ∀ {σ : Type} (visit : RegionVisitor σ) (context : σ) summary, AlwaysTrue (some visit) →
    (multibootParse m magic infoAddress (some summary)).1 =
      (multibootForEachMemoryRegion m magic infoAddress (some visit) context).1
  /-- `visited` is about the visitor itself. -/
  same : ∀ {σ : Type} (visit : RegionVisitor σ) (context : σ),
    (multibootForEachMemoryRegion m magic infoAddress (some (logged visit)) (context, [])).1 =
        (multibootForEachMemoryRegion m magic infoAddress (some visit) context).1 ∧
      (multibootForEachMemoryRegion m magic infoAddress (some (logged visit)) (context, [])).2.1 =
        (multibootForEachMemoryRegion m magic infoAddress (some visit) context).2
  /-- A map with a malformed record is refused, and the visitor is not called. -/
  malformed : (∀ records, ¬MapFormat (mapBytes m infoAddress) records) → ∀ {σ : Type} (visit : RegionVisitor σ)
    (context : σ), multibootForEachMemoryRegion m magic infoAddress (some visit) context = (false, context) ∧
      visited m magic infoAddress visit context = []
  /-- So is every input that is refused for another reason. -/
  rejected : ∀ summary, (multibootParse m magic infoAddress (some summary)).1 = false →
    ∀ {σ : Type} (visit : RegionVisitor σ) (context : σ),
      multibootForEachMemoryRegion m magic infoAddress (some visit) context = (false, context) ∧
        visited m magic infoAddress visit context = []
  /-- A visitor that refuses the region behind `before` is called with these regions and that one. -/
  refused : InfoUsable m magic infoAddress → ∀ records, MapFormat (mapBytes m infoAddress) records →
    ∀ {σ : Type} (visit : RegionVisitor σ) (context : σ) before region after,
      records.map MapRecord.region = before ++ region :: after → RefusesAfter visit context before region →
      (multibootForEachMemoryRegion m magic infoAddress (some visit) context).1 = false ∧
        visited m magic infoAddress visit context = before ++ [region]
  /-- A visitor that refuses none is called with all of them, as many as `multiboot_parse` counts. -/
  counted : InfoUsable m magic infoAddress → ∀ records, MapFormat (mapBytes m infoAddress) records →
    ∀ before, ∃ after, multibootParse m magic infoAddress (some before) = (true, some after) ∧
      ∀ {σ : Type} (visit : RegionVisitor σ) (context : σ), AlwaysTrue (some visit) →
        visited m magic infoAddress visit context = records.map MapRecord.region ∧
          (visited m magic infoAddress visit context).length = after.mmapEntryCount.toNat
  parse_unchanged : ∀ summary, (multibootParse m magic infoAddress (some summary)).1 = false →
    (multibootParse m magic infoAddress (some summary)).2 = some summary
  ranges_unchanged : ∀ ranges, (multibootGetOwnedRanges m magic infoAddress (some ranges)).1 = false →
    (multibootGetOwnedRanges m magic infoAddress (some ranges)).2 = some ranges

theorem MapRejected.agree (h : MapRejected m magic infoAddress)
    (hnot : ¬(InfoUsable m magic infoAddress ∧ ∃ records, MapFormat (mapBytes m infoAddress) records)) :
    EntryPointsAgree m magic infoAddress := by
  have hvisit : ∀ {σ : Type} (visit : RegionVisitor σ) (context : σ),
      multibootForEachMemoryRegion m magic infoAddress (some visit) context = (false, context) ∧
        visited m magic infoAddress visit context = [] := by
    intro σ visit context
    rw [visited, h.visit, h.visit]
    exact ⟨rfl, rfl⟩
  constructor
  case accepts_iff => intro summary; rw [h.parse]; exact iff_of_false Bool.false_ne_true hnot
  case ranges_iff => intro summary ranges; rw [h.parse, h.ranges]
  case visit_iff => intro σ visit context summary _; rw [h.parse, h.visit]
  case same => intro σ visit context; rw [h.visit, h.visit]; exact ⟨rfl, rfl⟩
  case malformed => exact fun _ => hvisit
  case rejected => exact fun _ _ => hvisit
  case refused => intro hinfo records hformat; exact absurd ⟨hinfo, records, hformat⟩ hnot
  case counted => intro hinfo records hformat; exact absurd ⟨hinfo, records, hformat⟩ hnot
  case parse_unchanged => intro summary _; rw [h.parse]
  case ranges_unchanged => intro ranges _; rw [h.ranges]

theorem MapAccepted.agree {records : List MapRecord} (hinfo : InfoUsable m magic infoAddress)
    (hformat : MapFormat (mapBytes m infoAddress) records)
    (h : ∀ records, MapFormat (mapBytes m infoAddress) records → MapAccepted m magic infoAddress records) :
    EntryPointsAgree m magic infoAddress := by
  have hmap := h records hformat
  have hall : ∀ (records : List MapRecord) {σ : Type} (visit : RegionVisitor σ) (context : σ),
      AlwaysTrue (some visit) → (visitAll visit (records.map MapRecord.region) context).1 = true := by
    intro records σ visit context hvisit
    rw [← visitRegion_some visit, hvisit.visitAll]
  have hparse : ∀ summary, (multibootParse m magic infoAddress (some summary)).1 ≠ false := by
    intro summary
    rw [hmap.parse]
    exact nofun
  constructor
  case accepts_iff => intro summary; rw [hmap.parse]; exact iff_of_true rfl ⟨hinfo, records, hformat⟩
  case ranges_iff => intro summary ranges; rw [hmap.parse, hmap.ranges]
  case visit_iff => intro σ visit context summary hvisit; rw [hmap.parse, hmap.visit, hall _ visit context hvisit]
  case same =>
    intro σ visit context
    rw [hmap.visit, hmap.visit]
    exact visitAll_logged visit _ [] context
  case malformed => exact fun hnone => absurd hformat (hnone records)
  case rejected => exact fun summary hfalse => absurd hfalse (hparse summary)
  case refused =>
    intro _ records' hformat' σ visit context before region after hregions hrefuses
    obtain ⟨hresult, hseen⟩ := visitAll_refused hrefuses after []
    have hmap' := h records' hformat'
    rw [visited, hmap'.visit, hmap'.visit, hregions]
    exact ⟨hresult, hseen⟩
  case counted =>
    intro _ records' hformat' before
    have hmap' := h records' hformat'
    refine ⟨_, hmap'.parse before, fun visit context hvisit => ?_⟩
    have hvisited : visited m magic infoAddress visit context = records'.map MapRecord.region := by
      rw [visited, hmap'.visit]
      exact visitAll_accepted (hall records' visit context hvisit) []
    rw [hvisited, List.length_map]
    exact ⟨rfl, (toNat_word hmap'.length_lt).symm⟩
  case parse_unchanged => exact fun summary hfalse => absurd hfalse (hparse summary)
  case ranges_unchanged => intro ranges hfalse; rw [hmap.ranges] at hfalse; cases hfalse

/-- **The three entry points agree and visiting is all or nothing.** -/
theorem entry_points_agree (m : Memory) (magic infoAddress : U32) : EntryPointsAgree m magic infoAddress := by
  by_cases haccepted : InfoUsable m magic infoAddress ∧ ∃ records, MapFormat (mapBytes m infoAddress) records
  · obtain ⟨husable, records, hformat⟩ := haccepted
    obtain ⟨info, hinfo⟩ := Option.ne_none_iff_exists'.1 (validateMultibootInfo_ne_none.2 husable)
    exact MapAccepted.agree husable hformat fun records hrecords => mapAccepted hinfo hrecords
  · refine (mapRejected ?_).agree haccepted
    by_cases husable : InfoUsable m magic infoAddress
    · exact .inr fun records hformat => haccepted ⟨husable, records, hformat⟩
    · exact .inl (not_not.1 (mt validateMultibootInfo_ne_none.1 husable))

end TinyShell
