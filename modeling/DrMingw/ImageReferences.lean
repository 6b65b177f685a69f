import DrMingw.CStrings
import DrMingw.NearestSymbol

/-! References out of an image that has been accepted: the section headers and names
its symbols lead to, the names and the data its section headers lead to. -/
namespace DrMingw
namespace PeImage

variable (b : Build) (image : Image) (base Addr : DWORD64)

/-- The headers and the section table lie in the file, which the check lets through. -/
structure Accepted : Prop where
  view : FitsView b image
  dos : 64 ≤ image.length
  nt : 0 ≤ ntHeaders image
  sections : ntHeaders image + 24 + (SizeOfOptionalHeader image).toNat +
    40 * (NumberOfSections image).toNat ≤ image.length
  table : symbolTableExtendsBeyond b image image.length = false

/-- The string at the offset lies in the file, with the NUL that ends it. -/
def StringInside (image : Image) (offset : ℤ) : Prop :=
  ∀ k ≤ (stringAt image offset).length, Inside image (offset + k) 1

/-- Where the name of a symbol lies that has no short name. -/
def longName (i : DWORD) : ℤ :=
  pointer b (stringTable b image + (dwordAt image (symbol b image i + 4)).toNat)

/-- Where `as_name` points for a section other than 0. -/
def sectionName (section_index : ℕ) : ℤ :=
  let pSection := sectionHeader b image (section_index - 1)
  if (stringAt image pSection).head? = some 47 then
    pointer b (stringTable b image + atoi (stringAt image pSection).tail)
  else pSection

/-- What `pe_find_symbol` follows out of the record of a function lies in the file. -/
structure SymbolRefsInside (i : DWORD) : Prop where
  sectionHeader : 0 < SectionNumber b image i →
    Inside image (sectionHeader b image ((SectionNumber b image i).toInt - 1)) 40
  shortName : dwordAt image (symbol b image i) ≠ 0 → Inside image (symbol b image i) 8
  longName : dwordAt image (symbol b image i) = 0 → StringInside image (longName b image i)

/-- The names of a section, in its header and where that leads to, and the data handed
to libdwarf lie in the file. -/
structure SectionRefsInside (section_index : ℕ) : Prop where
  headerName : StringInside image (sectionHeader b image (section_index - 1))
  name : StringInside image (sectionName b image section_index)
  data : ∀ return_data ∈ pe_load_section b image section_index,
    ∀ k < (pe_get_section_info b image section_index).1.toNat, Inside image (return_data + k) 1

/-- All references followed by a lookup of the address, and by libdwarf. -/
structure ReferencesInside : Prop where
  symbols : ∀ base, ImageBase image = some base → ∀ i, ReadsSymbol b image base Addr i →
    ISFCN (wordAt image (symbol b image i + 14)) = true → SymbolRefsInside b image i
  sections : ∀ section_index, 0 < section_index → section_index < pe_get_section_count image →
    SectionRefsInside b image section_index

/-- The walk over the table gets to the record without a hit on the way. -/
def OnCourse (i : DWORD) : Prop :=
  i < NumberOfSymbols image ∧ ∃ n, (nextSymbol b image)^[n] 0 = i ∧
    ∀ m < n, (nextSymbol b image)^[m] 0 < NumberOfSymbols image ∧
      ¬Hits b image base Addr ((nextSymbol b image)^[m] 0)

/-- The bounds on the fields of a symbol: no section behind the end of the file, and a
NUL behind the place of a long name. -/
structure SymbolBounds (i : DWORD) : Prop where
  sectionNumber : ntHeaders image + 24 + (SizeOfOptionalHeader image).toNat +
    40 * (SectionNumber b image i).toInt ≤ image.length
  longName : dwordAt image (symbol b image i) = 0 → 0 ∈ image.drop (longName b image i).toNat

/-- The bounds on the fields of a section header: a NUL follows its name in the file, the
place that leads to is not in front of the file and has a NUL behind it, and its raw data
ends in the file. -/
structure SectionBounds (section_index : ℕ) : Prop where
  headerName : 0 ∈ image.drop (sectionHeader b image (section_index - 1)).toNat
  start : 0 ≤ sectionName b image section_index
  name : 0 ∈ image.drop (sectionName b image section_index).toNat
  data : (pe_get_section_info b image section_index).1 ≠ 0 →
    (dwordAt image (sectionHeader b image (section_index - 1) + 20)).toNat +
      (pe_get_section_info b image section_index).1.toNat ≤ image.length

/-- The bounds on all fields that lead out of the tables. -/
structure FieldsInBounds : Prop where
  symbols : ∀ base, ImageBase image = some base → ∀ i, OnCourse b image base Addr i →
    ISFCN (wordAt image (symbol b image i + 14)) = true → SymbolBounds b image i
  sections : ∀ section_index, 0 < section_index → section_index < pe_get_section_count image →
    SectionBounds b image section_index

variable {b image base Addr} {i : DWORD} {best : Nearest} {section_index : ℕ}

/-- The name of a section is the string there. -/
theorem pe_get_section_info_name (h : 0 < section_index) :
    (pe_get_section_info b image section_index).2 =
      stringAt image (sectionName b image section_index) := by
  rw [pe_get_section_info,if_neg (by omega),sectionName]
  dsimp only
  split <;> rfl

/-- A string lies in the file if it does not start in front of it and a NUL follows. -/
theorem stringInside_iff (offset : ℤ) :
    StringInside image offset ↔ 0 ≤ offset ∧ 0 ∈ image.drop offset.toNat := by
  by_cases hneg : offset < 0
  · refine ⟨fun h => ?_,fun h => absurd h.1 (by omega)⟩
    obtain ⟨h₀,-⟩ := h 0 (Nat.zero_le _)
    omega
  · have hlen : (stringAt image offset).length = (cstr (image.drop offset.toNat)).length := by
      rw [stringAt,if_neg hneg]
    rw [← cstr_length_lt_iff,List.length_drop]
    constructor
    · intro h
      obtain ⟨-,hend⟩ := h _ (Nat.le_refl _)
      refine ⟨by omega,?_⟩
      omega
    · rintro ⟨-,hlt⟩ k hk
      exact ⟨by omega,by omega⟩

/-- Before a hit the index is an iterate of its first value. -/
theorem course_of_reached (hr : Reached b image base Addr i best) :
    best.Displacement ≠ 0 ∧ ∃ n, (nextSymbol b image)^[n] 0 = i ∧
      ∀ m < n, (nextSymbol b image)^[m] 0 < NumberOfSymbols image ∧
        ¬Hits b image base Addr ((nextSymbol b image)^[m] 0) := by
  induction hr with
  | start => exact ⟨by decide,0,rfl,fun m hm => absurd hm (Nat.not_lt_zero m)⟩
  | @next i best hr hi hd ih =>
    obtain ⟨hbest,n,rfl,hno⟩ := ih
    refine ⟨hd,n + 1,Function.iterate_succ_apply' _ n 0,fun m hm => ?_⟩
    rcases (Nat.le_of_lt_succ hm).lt_or_eq with hlt | rfl
    · exact hno m hlt
    · exact ⟨hi,by rwa [← considerSymbol_eq_zero hbest]⟩

theorem reached_of_course {n : ℕ}
    (hno : ∀ m < n, (nextSymbol b image)^[m] 0 < NumberOfSymbols image ∧
      ¬Hits b image base Addr ((nextSymbol b image)^[m] 0)) :
    ∃ best, Reached b image base Addr ((nextSymbol b image)^[n] 0) best ∧
      best.Displacement ≠ 0 := by
  induction n with
  | zero => exact ⟨{},.start,by decide⟩
  | succ n ih =>
    obtain ⟨best,hr,hd⟩ := ih fun m hm => hno m (Nat.lt_succ_of_lt hm)
    obtain ⟨hi,hh⟩ := hno n (Nat.lt_succ_self n)
    have hd' : (considerSymbol b image base Addr ((nextSymbol b image)^[n] 0)
        best).Displacement ≠ 0 := by rwa [ne_eq,considerSymbol_eq_zero hd]
    rw [Function.iterate_succ_apply']
    exact ⟨_,hr.next hi hd',hd'⟩

/-- The loop reads exactly the records on its course. -/
theorem readsSymbol_iff : ReadsSymbol b image base Addr i ↔ OnCourse b image base Addr i := by
  refine and_congr_right fun _ => ⟨fun ⟨_,hr⟩ => (course_of_reached hr).2,?_⟩
  rintro ⟨n,rfl,hno⟩
  exact (reached_of_course hno).imp fun _ hr => hr.1

/-- In an accepted image the section headers do not wrap. -/
theorem Accepted.sectionHeader_eq (h : Accepted b image) {n : ℤ} (h₀ : 0 ≤ n) (hn : n < 2^16) :
    sectionHeader b image n =
      ntHeaders image + 24 + (SizeOfOptionalHeader image).toNat + 40 * n := by
  have hopt := (SizeOfOptionalHeader image).toNat_lt
  have hnt := h.nt
  have hlfanew := Int32.toInt_lt (dwordAt image 0x3C).toInt32
  simp only [sectionHeader,pointer]
  split
  · rfl
  · simp only [ntHeaders] at hnt ⊢
    omega

theorem pointer_nonneg {offset : ℤ} (h : 0 ≤ offset) : 0 ≤ pointer b offset := by
  simp only [pointer]
  split
  · exact h
  · exact Int.emod_nonneg _ (by decide)

theorem symbol_nonneg (i : DWORD) : 0 ≤ symbol b image i := pointer_nonneg (by omega)

/-- The record of a function is in the file with its type, and so with its short name. -/
theorem shortName_inside (hf : ISFCN (wordAt image (symbol b image i + 14)) = true) :
    Inside image (symbol b image i) 8 := by
  refine ⟨symbol_nonneg i,?_⟩
  by_contra hout
  have hz : wordAt image (symbol b image i + 14) = 0 := by
    rw [wordAt,byteAt_behind (by omega),byteAt_behind (by omega)]
    rfl
  rw [hz] at hf
  exact absurd hf (by decide)

theorem symbolBounds_iff (h : Accepted b image)
    (hf : ISFCN (wordAt image (symbol b image i + 14)) = true) :
    SymbolRefsInside b image i ↔ SymbolBounds b image i := by
  have hlong : 0 ≤ longName b image i :=
    pointer_nonneg (Int.add_nonneg (symbol_nonneg _) (Int.natCast_nonneg _))
  have hsec : (0 < SectionNumber b image i →
      Inside image (sectionHeader b image ((SectionNumber b image i).toInt - 1)) 40) ↔
      ntHeaders image + 24 + (SizeOfOptionalHeader image).toNat +
        40 * (SectionNumber b image i).toInt ≤ image.length := by
    have hnt := h.nt
    have htable := h.sections
    have hlt := Int16.toInt_lt (SectionNumber b image i)
    have hpos : 0 < SectionNumber b image i ↔ 0 < (SectionNumber b image i).toInt :=
      Int16.lt_iff_toInt_lt
    by_cases hs : 0 < (SectionNumber b image i).toInt
    · rw [hpos,h.sectionHeader_eq (by omega) (by omega),Inside]
      exact ⟨fun hin => by have := (hin hs).2; omega,fun hle _ => ⟨by omega,by omega⟩⟩
    · exact ⟨fun _ => by omega,fun _ hp => absurd (hpos.mp hp) hs⟩
  constructor
  · rintro ⟨h₁,-,h₃⟩
    exact ⟨hsec.mp h₁,fun hl => ((stringInside_iff _).mp (h₃ hl)).2⟩
  · rintro ⟨h₁,h₃⟩
    exact ⟨hsec.mpr h₁,fun _ => shortName_inside hf,
      fun hl => (stringInside_iff _).mpr ⟨hlong,h₃ hl⟩⟩

theorem sectionBounds_iff (hacc : Accepted b image) (h : 0 < section_index) :
    SectionRefsInside b image section_index ↔ SectionBounds b image section_index := by
  have hnt := hacc.nt
  have hnonneg : 0 ≤ sectionHeader b image (section_index - 1) := pointer_nonneg (by omega)
  have hdata : (∀ return_data ∈ pe_load_section b image section_index,
      ∀ k < (pe_get_section_info b image section_index).1.toNat,
        Inside image (return_data + k) 1) ↔
      ((pe_get_section_info b image section_index).1 ≠ 0 →
        (dwordAt image (sectionHeader b image (section_index - 1) + 20)).toNat +
          (pe_get_section_info b image section_index).1.toNat ≤ image.length) := by
    generalize hsize : (pe_get_section_info b image section_index).1 = as_size
    have hzero : as_size = 0 ↔ as_size.toNat = 0 := by rw [← UInt32.toNat_inj]; rfl
    rw [pe_load_section,if_neg (by omega),ne_eq,hzero]
    simp only [Option.mem_some_iff,forall_eq',Inside]
    constructor
    · intro hin hne
      have hlast := (hin (as_size.toNat - 1) (by omega)).2
      omega
    · intro hle k hk
      have hend := hle (by omega)
      exact ⟨by omega,by omega⟩
  constructor
  · rintro ⟨hheader,hname,h₂⟩
    obtain ⟨hstart,hnul⟩ := (stringInside_iff _).mp hname
    exact ⟨((stringInside_iff _).mp hheader).2,hstart,hnul,hdata.mp h₂⟩
  · rintro ⟨hheader,hstart,hnul,h₂⟩
    exact ⟨(stringInside_iff _).mpr ⟨hnonneg,hheader⟩,(stringInside_iff _).mpr ⟨hstart,hnul⟩,
      hdata.mpr h₂⟩

/-- The references out of an accepted file stay in it exactly if the fields they are
taken from obey their bounds. -/
theorem references_inside_iff (h : Accepted b image) (Addr : DWORD64) :
    ReferencesInside b image Addr ↔ FieldsInBounds b image Addr := by
  constructor
  · rintro ⟨hsym,hsec⟩
    exact ⟨fun base hb i hi hf =>
        (symbolBounds_iff h hf).mp (hsym base hb i (readsSymbol_iff.mpr hi) hf),
      fun n h₀ hn => (sectionBounds_iff h h₀).mp (hsec n h₀ hn)⟩
  · rintro ⟨hsym,hsec⟩
    exact ⟨fun base hb i hi hf =>
        (symbolBounds_iff h hf).mpr (hsym base hb i (readsSymbol_iff.mp hi) hf),
      fun n h₀ hn => (sectionBounds_iff h h₀).mpr (hsec n h₀ hn)⟩

theorem references_inside_twoFunctions :
    Accepted {} twoFunctions ∧ ∀ Addr, ReferencesInside {} twoFunctions Addr := by
  have h : Accepted {} twoFunctions :=
    ⟨.inl rfl,by decide +kernel,by decide +kernel,by decide +kernel,by decide +kernel⟩
  refine ⟨h,fun Addr => (references_inside_iff h Addr).mpr ⟨fun base hb i hi hf => ?_,?_⟩⟩
  · rcases twoFunctions_functions hi.1 hf with rfl | rfl
    · exact ⟨by decide +kernel,fun hl => absurd hl (by decide +kernel)⟩
    · exact ⟨by decide +kernel,fun hl => absurd hl (by decide +kernel)⟩
  · intro section_index h₀ hn
    have hcount : pe_get_section_count twoFunctions = 2 := by decide +kernel
    obtain rfl : section_index = 1 := by omega
    exact ⟨by decide +kernel,by decide +kernel,by decide +kernel,
      fun hne => absurd hne (by decide +kernel)⟩

/-- A section named `/99999` with its data at 1M, and a function in section 32767 whose
name is at 64K of the string table. -/
def wildReferences : Image :=
  imageHeaders 1 368 1 ++ sectionBytes [47,57,57,57,57,57] 0x1000 0x1000 0x1000 0x100000 ++
    symbolBytes [0,0,0,0,0,0,1,0] 0x10 0x7FFF 0x20 0 ++ littleEndian 4 4

/-- A file of 390 bytes is accepted, and each kind of reference leads out of it. -/
theorem wild_references_followed :
    Accepted {} wildReferences ∧ ReadsSymbol {} wildReferences 0x140000000 0 0 ∧
      ¬Inside wildReferences (sectionHeader {} wildReferences (0x7FFF - 1)) 40 ∧
      ¬StringInside wildReferences (longName {} wildReferences 0) ∧
      ¬StringInside wildReferences (sectionName {} wildReferences 1) ∧
      pe_load_section {} wildReferences 1 = some 0x100000 ∧ ¬Inside wildReferences 0x100000 1 ∧
      ¬ReferencesInside {} wildReferences 0 := by
  have h : Accepted {} wildReferences :=
    ⟨.inl rfl,by decide +kernel,by decide +kernel,by decide +kernel,by decide +kernel⟩
  have hreads : ReadsSymbol {} wildReferences 0x140000000 0 0 := ⟨by decide +kernel,{},.start⟩
  have hname : ¬StringInside wildReferences (longName {} wildReferences 0) := by
    rw [stringInside_iff]
    decide +kernel
  have hsection : ¬StringInside wildReferences (sectionName {} wildReferences 1) := by
    rw [stringInside_iff]
    decide +kernel
  have hbase : ImageBase wildReferences = some 0x140000000 := by decide +kernel
  refine ⟨h,hreads,fun hin => absurd hin.2 (by decide +kernel),hname,hsection,by decide +kernel,
    fun hin => absurd hin.2 (by decide +kernel),fun hall => ?_⟩
  exact hname ((hall.symbols _ hbase 0 hreads (by decide +kernel)).longName (by decide +kernel))

end PeImage
end DrMingw
