import DrMingw.SymbolScan

/-! The check that the symbol table lies in the file, in both widths of `SIZE_T`:
which tables that it lets through are safe to scan. -/
namespace DrMingw

/-- The values of a `SIZE_T`. -/
abbrev Build.SIZE_T (b : Build) : Type := { n : ℕ // n < if b.win64 then 2^64 else 2^32 }

namespace PeImage

/-- The bytes lie in the file. -/
def Inside (image : Image) (offset : ℤ) (size : ℕ) : Prop :=
  0 ≤ offset ∧ offset + size ≤ image.length

/-- Where the symbol table ends, as the check computes it. -/
def symbolTableEnd (b : Build) (P N : DWORD) : ℕ :=
  if b.win64 then P.toNat + N.toNat * 18 else (P.toNat + N.toNat * 18) % 2^32

/-- Each record read lies in the file, the index does not wrap, and the scan ends. -/
structure ScanSafe (b : Build) (image : Image) (base Addr : DWORD64) : Prop where
  inside : ∀ i, ReadsSymbol b image base Addr i → Inside image (symbol b image i) 18
  fits : ∀ i, PassesSymbol b image base Addr i →
    i.toNat + (NumberOfAuxSymbols b image i).toNat + 1 < 2^32
  returns : (pe_find_symbol b image image.length Addr).isSome = true

/-- Every file of the size with these two header fields that the check lets through
has the start of its string table in it, and is safe to scan, whatever else it holds. -/
def CheckSound (b : Build) (P N : DWORD) (nFileSize : b.SIZE_T) : Prop :=
  ∀ image : Image, image.length = nFileSize.val → PointerToSymbolTable image = P →
    NumberOfSymbols image = N → symbolTableExtendsBeyond b image nFileSize.val = false →
    stringTable b image ≤ nFileSize.val ∧
      ∀ base Addr, ImageBase image = some base → ScanSafe b image base Addr

/-- The file has no room for the magic number of the optional header, or the check
refuses it, or the arithmetic of the build is exact: the end of the table does not
wrap in 32 bits, and 255 auxiliary records behind its last record do not either. -/
def CheckExact (b : Build) (P N : DWORD) (nFileSize : b.SIZE_T) : Prop :=
  nFileSize.val < 26 ∨ nFileSize.val < symbolTableEnd b P N ∨
    if b.win64 then N.toNat + 255 < 2^32 else P.toNat + N.toNat * 18 < 2^32

variable {b : Build} {image : Image} {base Addr : DWORD64} {i : DWORD}

theorem symbolTableExtendsBeyond_eq (n : ℕ) : symbolTableExtendsBeyond b image n =
    decide (n < symbolTableEnd b (PointerToSymbolTable image) (NumberOfSymbols image)) := rfl

/-- The string table starts where the check has the symbol table end. -/
theorem stringTable_eq : stringTable b image =
    symbolTableEnd b (PointerToSymbolTable image) (NumberOfSymbols image) := by
  simp only [stringTable,symbol,pointer,symbolTableEnd]
  split
  · push_cast
    omega
  · push_cast
    omega

theorem nextRecord_toNat (b : Build) (image : Image) (i : DWORD) : nextRecord b image i.toNat =
    i.toNat + (NumberOfAuxSymbols b image i).toNat + 1 := by
  rw [nextRecord,UInt32.ofNat_toNat]

/-- Offsets of the table do not wrap up to the end of the address space. -/
theorem symbol_eq (h : b.win64 = true ∨
    (PointerToSymbolTable image).toNat + 18 * i.toNat < 2^32) :
    symbol b image i = (PointerToSymbolTable image).toNat + 18 * i.toNat := by
  simp only [symbol,pointer]
  split
  · rfl
  · next hw =>
    have hlt := h.resolve_left hw
    omega

/-- A table that really ends in the file, and is not too long for the index, is safe. -/
theorem scanSafe_of_inside (hview : FitsView b image)
    (hin : (PointerToSymbolTable image).toNat + 18 * (NumberOfSymbols image).toNat ≤ image.length)
    (hN : (NumberOfSymbols image).toNat + 255 < 2^32) (hbase : ImageBase image = some base)
    (hb : symbolTableExtendsBeyond b image image.length = false) :
    ScanSafe b image base Addr := by
  have hfit : ∀ i, PassesSymbol b image base Addr i → nextRecord b image i.toNat < 2^32 := by
    intro i hp
    have hi := UInt32.lt_iff_toNat_lt.mp hp.1
    have hle := nextRecord_le b image i.toNat
    omega
  refine ⟨fun i hr => ?_,fun i hp => nextRecord_toNat b image i ▸ hfit i hp,?_⟩
  · have hi := UInt32.lt_iff_toNat_lt.mp hr.1
    rw [symbol_eq (hview.imp_right fun hlt => by omega)]
    exact ⟨by omega,by omega⟩
  · have hsome : (scanSymbols b image base Addr (2^32 + 1) 0 {}).isSome = true :=
      scanSymbols_isSome hfit .start (by omega) (by omega)
    simpa [pe_find_symbol,hb,hbase] using hsome

/-- The bytes of headers at `e`: `e_lfanew`, the place and length of the symbol table,
and the magic number of a 32-bit image. -/
def headerByte (e : ℕ) (P N : DWORD) (k : ℕ) : CHAR :=
  if k = 60 then UInt8.ofNat e
  else if e + 12 ≤ k ∧ k < e + 16 then UInt8.ofNat (P.toNat / 256^(k - (e + 12)))
  else if e + 16 ≤ k ∧ k < e + 20 then UInt8.ofNat (N.toNat / 256^(k - (e + 16)))
  else if k = e + 24 then 0x0B
  else if k = e + 25 then 0x01
  else 0

/-- A file that is zero but for its headers and one more byte. -/
def tableImage (e : ℕ) (P N : DWORD) (size marked : ℕ) : Image :=
  (List.range size).map fun k => if k = marked then 0xFF else headerByte e P N k

variable {e size marked : ℕ} {P N : DWORD}

theorem length_tableImage : (tableImage e P N size marked).length = size := by
  simp [tableImage]

theorem byteAt_tableImage {offset : ℤ} (h : 0 ≤ offset) :
    byteAt (tableImage e P N size marked) offset =
      if offset.toNat < size then
        if offset.toNat = marked then 0xFF else headerByte e P N offset.toNat
      else 0 := by
  rw [byteAt,if_neg (by omega),List.getD_eq_getElem?_getD,tableImage,List.getElem?_map]
  by_cases hlt : offset.toNat < size
  · rw [if_pos hlt,List.getElem?_range hlt,Option.map_some,Option.getD_some]
  · rw [if_neg hlt,List.getElem?_eq_none (by simpa using hlt),Option.map_none,Option.getD_none]

theorem headerByte_of_lt {k : ℕ} (he : e ≤ 64) (hk : 90 ≤ k) : headerByte e P N k = 0 := by
  simp only [headerByte]
  rw [if_neg (by omega),if_neg (by omega),if_neg (by omega),if_neg (by omega),if_neg (by omega)]

/-- Behind the headers only the marked byte is not zero. -/
theorem byteAt_tableImage_zero {offset : ℤ} (he : e ≤ 64) (h : 90 ≤ offset)
    (hm : offset.toNat ≠ marked) : byteAt (tableImage e P N size marked) offset = 0 := by
  rw [byteAt_tableImage (by omega),if_neg hm,headerByte_of_lt he (by omega),ite_self]

/-- The headers are where they should be: in front of the file or behind a DOS header,
with the marked byte out of the way. -/
structure Placed (e size marked : ℕ) : Prop where
  place : e = 0 ∨ e = 64
  room : e + 26 ≤ size
  marked : 120 ≤ marked ∨ size ≤ marked

theorem byteAt_header (h : Placed e size marked) {offset : ℤ} (h₀ : 0 ≤ offset)
    (hk : offset < 64 ∨ offset < e + 56) :
    byteAt (tableImage e P N size marked) offset = headerByte e P N offset.toNat := by
  have hp := h.place
  have hr := h.room
  have hm := h.marked
  rw [byteAt_tableImage h₀]
  by_cases hlt : offset.toNat < size
  · rw [if_pos hlt,if_neg (by omega)]
  · rw [if_neg hlt]
    simp only [headerByte]
    rcases hp with rfl | rfl
    · by_cases h60 : offset.toNat = 60
      · rw [if_pos h60]
        rfl
      · rw [if_neg h60,if_neg (by omega),if_neg (by omega),if_neg (by omega),if_neg (by omega)]
    · rw [if_neg (by omega),if_neg (by omega),if_neg (by omega),if_neg (by omega),
        if_neg (by omega)]

theorem wordAt_header (h : Placed e size marked) {k : ℕ} (hk : k + 1 < 64 ∨ k + 1 < e + 56) :
    (wordAt (tableImage e P N size marked) k).toNat =
      (headerByte e P N k).toNat + 256 * (headerByte e P N (k + 1)).toNat := by
  rw [wordAt_toNat,byteAt_header h (by omega) (by omega),byteAt_header h (by omega) (by omega)]
  norm_cast

theorem dwordAt_header (h : Placed e size marked) {k : ℕ} (hk : k + 3 < 64 ∨ k + 3 < e + 56) :
    (dwordAt (tableImage e P N size marked) k).toNat =
      (headerByte e P N k).toNat + 256 * (headerByte e P N (k + 1)).toNat +
        65536 * ((headerByte e P N (k + 2)).toNat + 256 * (headerByte e P N (k + 3)).toNat) := by
  have h₂ := wordAt_header (P:=P) (N:=N) h (k:=k + 2) (by omega)
  push_cast at h₂
  rw [dwordAt_toNat,wordAt_header h (by omega),h₂]

/-- A number is made of its bytes. -/
theorem digits (x : DWORD) : (UInt8.ofNat (x.toNat / 256^0)).toNat +
    256 * (UInt8.ofNat (x.toNat / 256^1)).toNat + 65536 * ((UInt8.ofNat (x.toNat / 256^2)).toNat +
      256 * (UInt8.ofNat (x.toNat / 256^3)).toNat) = x.toNat := by
  have hx := x.toNat_lt
  simp only [UInt8.toNat_ofNat']
  omega

theorem ntHeaders_tableImage (h : Placed e size marked) :
    ntHeaders (tableImage e P N size marked) = e := by
  have hd := dwordAt_header (P:=P) (N:=N) h (k:=60) (by omega)
  rcases h.place with rfl | rfl
  · have hz : dwordAt (tableImage 0 P N size marked) 60 = 0 := UInt32.toNat.inj hd
    rw [ntHeaders,hz]
    rfl
  · have hz : dwordAt (tableImage 64 P N size marked) 60 = 64 := UInt32.toNat.inj hd
    rw [ntHeaders,hz]
    rfl

/-- A field of the headers holds the number its bytes spell. -/
theorem dwordAt_field (h : Placed e size marked) {k : ℕ} {x : DWORD}
    (hk : k + 3 < 64 ∨ k + 3 < e + 56)
    (hb : ∀ j < 4, headerByte e P N (k + j) = UInt8.ofNat (x.toNat / 256^j)) :
    dwordAt (tableImage e P N size marked) k = x := by
  have hd := dwordAt_header (P:=P) (N:=N) h hk
  have h₀ := hb 0 (by omega)
  rw [Nat.add_zero] at h₀
  rw [h₀,hb 1 (by omega),hb 2 (by omega),hb 3 (by omega),digits] at hd
  exact UInt32.toNat.inj hd

theorem PointerToSymbolTable_tableImage (h : Placed e size marked) :
    PointerToSymbolTable (tableImage e P N size marked) = P := by
  have hp := h.place
  have hfield : dwordAt (tableImage e P N size marked) (e + 12 : ℕ) = P := by
    refine dwordAt_field h (by omega) fun j hj => ?_
    rw [headerByte,if_neg (by omega),if_pos (by omega),Nat.add_sub_cancel_left]
  rw [PointerToSymbolTable,ntHeaders_tableImage h]
  exact_mod_cast hfield

theorem NumberOfSymbols_tableImage (h : Placed e size marked) :
    NumberOfSymbols (tableImage e P N size marked) = N := by
  have hp := h.place
  have hfield : dwordAt (tableImage e P N size marked) (e + 16 : ℕ) = N := by
    refine dwordAt_field h (by omega) fun j hj => ?_
    rw [headerByte,if_neg (by omega),if_neg (by omega),if_pos (by omega),Nat.add_sub_cancel_left]
  rw [NumberOfSymbols,ntHeaders_tableImage h]
  exact_mod_cast hfield

theorem ImageBase_tableImage (h : Placed e size marked) :
    ImageBase (tableImage e P N size marked) = some 0 := by
  have hp := h.place
  have hmagic : Magic (tableImage e P N size marked) = IMAGE_NT_OPTIONAL_HDR32_MAGIC := by
    have hd := wordAt_header (P:=P) (N:=N) h (k:=e + 24) (by omega)
    rw [headerByte,headerByte,if_neg (by omega),if_neg (by omega),if_neg (by omega),if_pos rfl,
      if_neg (by omega),if_neg (by omega),if_neg (by omega),if_neg (by omega),if_pos rfl] at hd
    rw [Magic,optionalHeader,ntHeaders_tableImage h]
    exact UInt16.toNat.inj (by exact_mod_cast hd)
  have hbase : dwordAt (tableImage e P N size marked) (e + 52 : ℕ) = 0 := by
    refine dwordAt_field h (by omega) fun j hj => ?_
    rw [headerByte,if_neg (by omega),if_neg (by omega),if_neg (by omega),if_neg (by omega),
      if_neg (by omega),UInt32.toNat_zero,Nat.zero_div]
    rfl
  have hplace : (e : ℤ) + 24 + 28 = (e + 52 : ℕ) := by
    push_cast
    ring
  rw [ImageBase,if_pos hmagic,optionalHeader,ntHeaders_tableImage h,hplace,hbase]
  rfl

/-- In an image based at 0 no symbol is at the last address. -/
theorem not_hits_last (i : DWORD) : ¬Hits b image 0 0xFFFFFFFFFFFFFFFF i := by
  rintro ⟨-,ha⟩
  have hadd : ∀ x y : DWORD, (x.toUInt64 + (0 + y.toUInt64)).toNat < 2^33 := by
    intro x y
    have hx := x.toNat_lt
    have hy := y.toNat_lt
    rw [UInt64.toNat_add,UInt64.zero_add,UInt32.toNat_toUInt64,UInt32.toNat_toUInt64]
    omega
  have hlast : (0xFFFFFFFFFFFFFFFF : DWORD64).toNat = 2^64 - 1 := rfl
  simp only [symbolAddr] at ha
  split at ha
  · have hlt := hadd (dwordAt image (symbol b image i + 8)) (dwordAt image (sectionHeader b image
      ((wordAt image (symbol b image i + 12)).toInt16.toInt - 1) + 12))
    rw [ha] at hlt
    omega
  · have hlt := (dwordAt image (symbol b image i + 8)).toNat_lt
    rw [← UInt32.toNat_toUInt64,ha] at hlt
    omega

/-- The loop comes by all records behind the headers, up to the marked byte. -/
theorem isPrimary_tableImage (h : Placed e size marked) (hi : i < N)
    (hsym : b.win64 = true ∨ P.toNat + 18 * i.toNat < 2^32)
    (hm : ∀ n < i.toNat, P.toNat + 18 * n + 17 ≠ marked) (hlong : 90 ≤ P.toNat ∨ 261 ≤ i.toNat) :
    IsPrimary b (tableImage e P N size marked) i := by
  have hone : ∀ n, 90 ≤ P.toNat + 18 * n + 17 → n < i.toNat →
      nextRecord b (tableImage e P N size marked) n = n + 1 := by
    intro n hn hlt
    have hp := h.place
    have hin := i.toNat_lt
    have hnat : (UInt32.ofNat n).toNat = n :=
      UInt32.toNat_ofNat_of_lt' (by simp only [UInt32.size]; omega)
    have hs : symbol b (tableImage e P N size marked) (UInt32.ofNat n) = P.toNat + 18 * n := by
      rw [symbol_eq,PointerToSymbolTable_tableImage h,hnat]
      rw [PointerToSymbolTable_tableImage h,hnat]
      exact hsym.imp_right fun hlt' => by omega
    have hz : byteAt (tableImage e P N size marked) (P.toNat + 18 * n + 17) = 0 := by
      refine byteAt_tableImage_zero (by omega) (by omega) ?_
      have := hm n hlt
      omega
    rw [nextRecord,NumberOfAuxSymbols,hs,hz]
    rfl
  refine ⟨by rwa [NumberOfSymbols_tableImage h],?_⟩
  rcases hlong with hP | hi
  · exact Walk.visits_zero.run (Nat.zero_le _) fun n _ hlt => hone n (by omega) hlt
  · -- The records in the headers may skip others, but not past the 261st.
    obtain ⟨n,hv,hn,hle⟩ := Walk.exists_visits (f:=nextRecord b (tableImage e P N size marked))
      (lt_nextRecord b _) (nextRecord_le b _) 5
    exact hv.run (by omega) fun m hm hlt => hone m (by omega) hlt

theorem tableImage_passes (h : Placed e size marked) (hend : symbolTableEnd b P N ≤ size) :
    symbolTableExtendsBeyond b (tableImage e P N size marked) size = false := by
  rw [symbolTableExtendsBeyond_eq,PointerToSymbolTable_tableImage h,NumberOfSymbols_tableImage h]
  simpa using hend

theorem symbolTableEnd_64 (hw : b.win64 = true) :
    symbolTableEnd b P N = P.toNat + N.toNat * 18 := if_pos hw

theorem symbolTableEnd_32 (hw : ¬b.win64 = true) :
    symbolTableEnd b P N = (P.toNat + N.toNat * 18) % 2^32 := if_neg hw

/-- The last record announces 255 auxiliary records. -/
theorem passes_wrapping (h : Placed e size (P.toNat + 18 * N.toNat - 1)) (hw : b.win64 = true)
    (hsize : P.toNat + N.toNat * 18 ≤ size) (hN : 2^32 ≤ N.toNat + 255) :
    PassesSymbol b (tableImage e P N size (P.toNat + 18 * N.toNat - 1)) 0 0xFFFFFFFFFFFFFFFF
        (N - 1) ∧
      nextRecord b (tableImage e P N size (P.toNat + 18 * N.toNat - 1)) (N - 1).toNat =
        N.toNat + 255 := by
  have hNlt := N.toNat_lt
  have hlast : (N - 1).toNat = N.toNat - 1 :=
    UInt32.toNat_sub_of_le N 1 (by rw [UInt32.le_iff_toNat_le,UInt32.toNat_one]; omega)
  have hprim : IsPrimary b (tableImage e P N size (P.toNat + 18 * N.toNat - 1)) (N - 1) :=
    isPrimary_tableImage h (by rw [UInt32.lt_iff_toNat_lt]; omega) (.inl hw)
      (fun n hn => by omega) (.inr (by omega))
  refine ⟨passes_of_primary (fun j _ _ => not_hits_last j) hprim,?_⟩
  rw [nextRecord_toNat,NumberOfAuxSymbols,symbol_eq (.inl hw),PointerToSymbolTable_tableImage h,
    byteAt_tableImage (by omega),if_pos (by omega),if_pos (by omega),hlast]
  simp only [UInt8.reduceToNat]
  omega

/-- A 64-bit build lets a table through whose last record leads the index to wrap. -/
theorem not_checkSound_wrap (hw : b.win64 = true) {nFileSize : b.SIZE_T}
    (hend : symbolTableEnd b P N ≤ nFileSize.val) (hN : 2^32 ≤ N.toNat + 255) :
    ¬CheckSound b P N nFileSize := by
  intro hs
  have hend' := hend
  rw [symbolTableEnd_64 hw] at hend'
  have h : Placed 0 nFileSize.val (P.toNat + 18 * N.toNat - 1) :=
    ⟨.inl rfl,by omega,.inl (by omega)⟩
  have hsafe := (hs _ length_tableImage (PointerToSymbolTable_tableImage h)
    (NumberOfSymbols_tableImage h) (tableImage_passes h hend)).2 0 0xFFFFFFFFFFFFFFFF
    (ImageBase_tableImage h)
  obtain ⟨hpass,hnext⟩ := passes_wrapping h hw hend' hN
  have hfit := hsafe.fits (N - 1) hpass
  rw [← nextRecord_toNat,hnext] at hfit
  omega

/-- A 32-bit build lets a table through that runs over the end of the address space. -/
theorem not_checkSound_overflow (hw : ¬b.win64 = true) {nFileSize : b.SIZE_T}
    (hroom : 26 ≤ nFileSize.val) (hend : symbolTableEnd b P N ≤ nFileSize.val)
    (hover : 2^32 ≤ P.toNat + N.toNat * 18) : ¬CheckSound b P N nFileSize := by
  intro hs
  have hP := P.toNat_lt
  have hlt : nFileSize.val < 2^32 := by simpa [hw] using nFileSize.property
  have h : Placed 0 nFileSize.val (2^32) := ⟨.inl rfl,by omega,.inl (by omega)⟩
  -- The record that holds the last byte of the address space.
  obtain ⟨t,ht⟩ : ∃ t, t = (2^32 - 1 - P.toNat) / 18 := ⟨_,rfl⟩
  have hnat : (UInt32.ofNat t).toNat = t :=
    UInt32.toNat_ofNat_of_lt' (by simp only [UInt32.size]; omega)
  have hprim : IsPrimary b (tableImage 0 P N nFileSize.val (2^32)) (UInt32.ofNat t) :=
    isPrimary_tableImage h (by rw [UInt32.lt_iff_toNat_lt]; omega) (.inr (by omega))
      (fun n hn => by omega) (by omega)
  have hsafe := (hs _ length_tableImage (PointerToSymbolTable_tableImage h)
    (NumberOfSymbols_tableImage h) (tableImage_passes h hend)).2 0 0xFFFFFFFFFFFFFFFF
    (ImageBase_tableImage h)
  have hpass := passes_of_primary (fun j _ _ => not_hits_last j) hprim
  obtain ⟨-,hin⟩ := hsafe.inside _ ⟨hpass.1,hpass.2.imp fun _ hb => hb.1⟩
  rw [symbol_eq (.inr (by rw [PointerToSymbolTable_tableImage h]; omega)),
    PointerToSymbolTable_tableImage h,length_tableImage] at hin
  omega

/-- In a file without room for it there is no magic number. -/
theorem ImageBase_of_short (h : image.length < 26) : ImageBase image = none := by
  have hnt : ntHeaders image = 0 := by
    have hd : dwordAt image 0x3C = 0 := by
      apply UInt32.toNat.inj
      rw [dwordAt_toNat,wordAt_toNat,wordAt_toNat,byteAt_behind (k:=0x3C) (by omega),
        byteAt_behind (k:=0x3C + 1) (by omega),byteAt_behind (k:=0x3C + 2) (by omega),
        byteAt_behind (k:=0x3C + 2 + 1) (by omega)]
      rfl
    rw [ntHeaders,hd]
    rfl
  have hmagic : (Magic image).toNat < 256 := by
    have hlt := (byteAt image (0 + 24)).toNat_lt
    rw [Magic,optionalHeader,hnt,wordAt_toNat,
      byteAt_behind (k:=0 + 24 + 1) (by omega)]
    simpa using hlt
  rw [ImageBase,if_neg (fun he => ?_),if_neg (fun he => ?_)]
  · rw [he] at hmagic
    simp [IMAGE_NT_OPTIONAL_HDR64_MAGIC] at hmagic
  · rw [he] at hmagic
    simp [IMAGE_NT_OPTIONAL_HDR32_MAGIC] at hmagic

/-- The check of the symbol table is sound for exactly these places, lengths and sizes. -/
theorem check_sound_iff (b : Build) (P N : DWORD) (nFileSize : b.SIZE_T) :
    CheckSound b P N nFileSize ↔ CheckExact b P N nFileSize := by
  constructor
  · intro hs
    by_contra hne
    simp only [CheckExact,not_or,not_lt] at hne
    obtain ⟨hroom,hend,hbound⟩ := hne
    by_cases hw : b.win64 = true
    · rw [if_pos hw] at hbound
      exact not_checkSound_wrap hw hend (by omega) hs
    · rw [if_neg hw] at hbound
      exact not_checkSound_overflow hw hroom hend (by omega) hs
  · rintro hex image hlen rfl rfl hpass
    have hend : symbolTableEnd b (PointerToSymbolTable image) (NumberOfSymbols image) ≤
        nFileSize.val := by
      simpa [symbolTableExtendsBeyond_eq] using hpass
    refine ⟨by rw [stringTable_eq]; exact_mod_cast hend,fun base Addr hbase => ?_⟩
    have hview : FitsView b image := by
      by_cases hw : b.win64 = true
      · exact .inl hw
      · exact .inr (by simpa [hw,hlen] using nFileSize.property)
    rcases hex with hshort | hrefused | hbound
    · rw [ImageBase_of_short (by omega)] at hbase
      simp at hbase
    · omega
    · rw [← hlen] at hpass
      by_cases hw : b.win64 = true
      · rw [if_pos hw] at hbound
        rw [symbolTableEnd_64 hw] at hend
        exact scanSafe_of_inside hview (by omega) hbound hbase hpass
      · rw [if_neg hw] at hbound
        rw [symbolTableEnd_32 hw] at hend
        exact scanSafe_of_inside hview (by omega) (by omega) hbase hpass

/-- A file of 530 bytes with one symbol, at 512, whose header announces 2^31 of them. -/
def overflowImage : Image := tableImage 64 512 0x80000000 530 (2^32)

/-- The table of 2^31 symbols passes the check of a 32-bit build, and the second one
is read behind the file. -/
theorem overflow_accepted :
    symbolTableExtendsBeyond { win64 := false } overflowImage 530 = false ∧
      ReadsSymbol { win64 := false } overflowImage 0 0xFFFFFFFFFFFFFFFF 1 ∧
      ¬Inside overflowImage (symbol { win64 := false } overflowImage 1) 18 ∧
      ¬CheckSound { win64 := false } 512 0x80000000 ⟨530,by decide⟩ := by
  have h : Placed 64 530 (2^32) := ⟨.inr rfl,by decide,.inl (by decide)⟩
  have hpass : symbolTableExtendsBeyond { win64 := false } overflowImage 530 = false :=
    tableImage_passes h (by decide)
  have hprim : IsPrimary { win64 := false } overflowImage 1 :=
    isPrimary_tableImage h (by decide) (.inr (by decide))
      (fun n hn => by have h1 : n < 1 := hn; have hP : (512 : DWORD).toNat = 512 := rfl; omega)
      (.inl (by decide))
  have hreads : ReadsSymbol { win64 := false } overflowImage 0 0xFFFFFFFFFFFFFFFF 1 :=
    ⟨hprim.1,(reached_of_primary (fun j _ _ => not_hits_last j) hprim).imp fun _ hr => hr.1⟩
  have hout : ¬Inside overflowImage (symbol { win64 := false } overflowImage 1) 18 := by
    rintro ⟨-,hin⟩
    rw [overflowImage,symbol_eq (.inr (by rw [PointerToSymbolTable_tableImage h]; decide)),
      PointerToSymbolTable_tableImage h,length_tableImage] at hin
    exact absurd hin (by decide)
  refine ⟨hpass,hreads,hout,fun hs => ?_⟩
  have hsafe := (hs overflowImage length_tableImage (PointerToSymbolTable_tableImage h)
    (NumberOfSymbols_tableImage h) hpass).2 0 0xFFFFFFFFFFFFFFFF (ImageBase_tableImage h)
  exact hout (hsafe.inside 1 hreads)

end PeImage
end DrMingw
