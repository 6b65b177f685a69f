import DrMingw.Strings

/-! The PE/COFF image in a mapped view: its headers, its sections, and the search
of its symbol table. Offsets count from the start of the view; what lies outside
the file reads as zero. -/
namespace DrMingw
namespace PeImage

/-- The contents of an image file. -/
abbrev Image := List CHAR

def byteAt (image : Image) (offset : ℤ) : CHAR :=
  if offset < 0 then 0 else image.getD offset.toNat 0

def wordAt (image : Image) (offset : ℤ) : UInt16 :=
  (byteAt image offset).toUInt16 ||| (byteAt image (offset + 1)).toUInt16 <<< 8

def dwordAt (image : Image) (offset : ℤ) : DWORD :=
  (wordAt image offset).toUInt32 ||| (wordAt image (offset + 2)).toUInt32 <<< 16

def qwordAt (image : Image) (offset : ℤ) : DWORD64 :=
  (dwordAt image offset).toUInt64 ||| (dwordAt image (offset + 4)).toUInt64 <<< 32

/-- The string that starts at the offset; the zeros behind the file end it. -/
def stringAt (image : Image) (offset : ℤ) : List CHAR :=
  if offset < 0 then [] else cstr (image.drop offset.toNat)

/-- `pNtHeaders`; `e_lfanew` is signed. -/
def ntHeaders (image : Image) : ℤ := (dwordAt image 0x3C).toInt32.toInt

def NumberOfSections (image : Image) : UInt16 := wordAt image (ntHeaders image + 6)
def PointerToSymbolTable (image : Image) : DWORD := dwordAt image (ntHeaders image + 12)
def NumberOfSymbols (image : Image) : DWORD := dwordAt image (ntHeaders image + 16)
def SizeOfOptionalHeader (image : Image) : UInt16 := wordAt image (ntHeaders image + 20)

def IMAGE_NT_OPTIONAL_HDR32_MAGIC : UInt16 := 0x10B
def IMAGE_NT_OPTIONAL_HDR64_MAGIC : UInt16 := 0x20B

def optionalHeader (image : Image) : ℤ := ntHeaders image + 24

/-- `OptionalHeader.Magic`. -/
def Magic (image : Image) : UInt16 := wordAt image (optionalHeader image)

/-- `ImageBase` of the optional header the magic number selects. -/
def ImageBase (image : Image) : Option DWORD64 :=
  if Magic image = IMAGE_NT_OPTIONAL_HDR32_MAGIC then
    some (dwordAt image (optionalHeader image + 28)).toUInt64
  else if Magic image = IMAGE_NT_OPTIONAL_HDR64_MAGIC then
    some (qwordAt image (optionalHeader image + 24))
  else none

/-- `PEGetImageBase`; without the assertion an unknown magic number gives 0. -/
def PEGetImageBase (b : Build) (image : Image) : Option DWORD64 :=
  match ImageBase image with
  | some base => some base
  | none => if b.ndebug then some 0 else none

/-- Offsets are pointer sums, and wrap in a 32-bit build. -/
def pointer (b : Build) (offset : ℤ) : ℤ := if b.win64 then offset else offset % 2^32

/-- `Sections + n`. -/
def sectionHeader (b : Build) (image : Image) (n : ℤ) : ℤ :=
  pointer b (ntHeaders image + 24 + (SizeOfOptionalHeader image).toNat + 40 * n)

/-- `&pSymbolTable[i]`; a symbol takes 18 bytes. -/
def symbol (b : Build) (image : Image) (i : DWORD) : ℤ :=
  pointer b ((PointerToSymbolTable image).toNat + 18 * i.toNat)

/-- `pStringTable`, right behind the symbol table. -/
def stringTable (b : Build) (image : Image) : ℤ := symbol b image (NumberOfSymbols image)

/-- A file size as the `SIZE_T` field `nFileSize` keeps it. -/
def fileSize (b : Build) (image : Image) : Option ℕ :=
  if b.win64 then some image.length
  else if image.length < 2^32 ∨ b.ndebug = true then some (image.length % 2^32)
  else none

/-- The symbol table ends behind the file, in `SIZE_T` arithmetic. -/
def symbolTableExtendsBeyond (b : Build) (image : Image) (nFileSize : ℕ) : Bool :=
  let size := (PointerToSymbolTable image).toNat + (NumberOfSymbols image).toNat * 18
  (if b.win64 then size else size % 2^32) > nFileSize

/-- `as_size` and `as_name` of `pe_get_section_info`. The name is read up to a NUL,
which the field need not contain. -/
def pe_get_section_info (b : Build) (image : Image) (section_index : ℕ) : DWORD × List CHAR :=
  if section_index = 0 then (0,[])
  else
    let pSection := sectionHeader b image (section_index - 1)
    let VirtualSize := dwordAt image (pSection + 8)
    let SizeOfRawData := dwordAt image (pSection + 16)
    let name := stringAt image pSection
    (if VirtualSize < SizeOfRawData then VirtualSize else SizeOfRawData,
      if name.head? = some 47 then stringAt image (pointer b (stringTable b image + atoi name.tail))
      else name)

/-- The offset of the data of a section, which section 0 does not have. -/
def pe_load_section (b : Build) (image : Image) (section_index : ℕ) : Option ℤ :=
  if section_index = 0 then none
  else
    let pSection := sectionHeader b image (section_index - 1)
    some (dwordAt image (pSection + 20)).toNat

def pe_get_section_count (image : Image) : ℕ := (NumberOfSections image).toNat + 1

/-- `.gnu_debuglink`. -/
def debuglinkName : List CHAR := [46,103,110,117,95,100,101,98,117,103,108,105,110,107]

/-- The file name in the first non-empty `.gnu_debuglink` section. -/
def gnu_debuglink (b : Build) (image : Image) : Option (List CHAR) :=
  (List.range (pe_get_section_count image)).findSome? fun section_index =>
    let info := pe_get_section_info b image section_index
    if info.1 = 0 ∨ info.2 ≠ debuglinkName then none
    else (pe_load_section b image section_index).map (stringAt image)

/-- `ISFCN`: the first derived type is a function. -/
def ISFCN (Type_ : UInt16) : Bool := Type_ &&& 0x30 = 0x20

/-- `SymbolAddr`. A section number up to 0 leaves `Value` as it is. -/
def symbolAddr (b : Build) (image : Image) (base : DWORD64) (i : DWORD) : DWORD64 :=
  let pSymbol := symbol b image i
  let Value := (dwordAt image (pSymbol + 8)).toUInt64
  let SectionNumber := (wordAt image (pSymbol + 12)).toInt16
  if 0 < SectionNumber then
    let pSection := sectionHeader b image (SectionNumber.toInt - 1)
    Value + (base + (dwordAt image (pSection + 12)).toUInt64)
  else Value

/-- `SymbolName`, without the underscore that leads names in 32-bit images. -/
def symbolName (b : Build) (image : Image) (i : DWORD) : List CHAR :=
  let pSymbol := symbol b image i
  let name := if dwordAt image pSymbol ≠ 0 then
      cstr ((List.range 8).map fun k => byteAt image (pSymbol + k))
    else stringAt image (pointer b (stringTable b image + (dwordAt image (pSymbol + 4)).toNat))
  let bUnderscore := Magic image = IMAGE_NT_OPTIONAL_HDR32_MAGIC
  if bUnderscore ∧ name.head? = some 95 then name.tail else name

/-- The nearest symbol so far. -/
structure Nearest where
  name : Option (List CHAR) := none
  Displacement : DWORD64 := 0xFFFFFFFFFFFFFFFF
  deriving DecidableEq

/-- The body of the loop of `pe_find_symbol`. -/
def considerSymbol (b : Build) (image : Image) (base Addr : DWORD64) (i : DWORD)
    (best : Nearest) : Nearest :=
  if ISFCN (wordAt image (symbol b image i + 14)) then
    let SymbolAddr := symbolAddr b image base i
    let SymbolName := symbolName b image i
    let SymbolDisp := Addr - SymbolAddr
    if SymbolAddr ≤ Addr ∧ SymbolName.head? ≠ some 46 ∧ SymbolDisp < best.Displacement then
      ⟨some SymbolName,SymbolDisp⟩
    else best
  else best

/-- The loop, with the number of iterations it may still make. The index skips the
auxiliary records of each symbol and is a `DWORD`. -/
def scanSymbols (b : Build) (image : Image) (base Addr : DWORD64) :
    ℕ → DWORD → Nearest → Option Nearest
  | 0, _, _ => none
  | fuel + 1, i, best =>
    if i < NumberOfSymbols image then
      let best := considerSymbol b image base Addr i best
      if best.Displacement = 0 then some best
      else
        let NumberOfAuxSymbols := byteAt image (symbol b image i + 17)
        scanSymbols b image base Addr fuel (i + NumberOfAuxSymbols.toUInt32 + 1) best
    else some best

/-- How `pe_find_symbol` returns. -/
inductive PeAnswer
  /-- `FALSE` with nothing written. -/
  | refused
  /-- After the loop, with `*pDisplacement` written whether or not a symbol was found. -/
  | scanned (best : Nearest)
  deriving DecidableEq

/-- `none` when it does not return: an index repeats after 2^32 iterations, and
then the loop goes on for ever. -/
def pe_find_symbol (b : Build) (image : Image) (nFileSize : ℕ) (Addr : DWORD64) :
    Option PeAnswer :=
  if symbolTableExtendsBeyond b image nFileSize then some .refused
  else
    match ImageBase image with
    | none => if b.ndebug then some .refused else none
    | some base => (scanSymbols b image base Addr (2^32 + 1) 0 {}).map .scanned

/-- The symbol found, if one was. -/
def PeAnswer.name : PeAnswer → Option (List CHAR)
  | .refused => none
  | .scanned best => best.name

/-- `*pDisplacement` is written. -/
def PeAnswer.isScanned : PeAnswer → Bool
  | .refused => false
  | .scanned _ => true

/-- Behind the file there are zeros. -/
theorem byteAt_behind {image : Image} {k : ℤ} (h : image.length ≤ k) : byteAt image k = 0 := by
  rw [byteAt,if_neg (by omega),List.getD_eq_getElem?_getD,List.getElem?_eq_none (by omega)]
  rfl

theorem wordAt_toNat (image : Image) (offset : ℤ) : (wordAt image offset).toNat =
    (byteAt image offset).toNat + 256 * (byteAt image (offset + 1)).toNat := by
  have h₀ := (byteAt image offset).toNat_lt
  have h₁ := (byteAt image (offset + 1)).toNat_lt
  have hor := Nat.shiftLeft_add_eq_or_of_lt h₀ (byteAt image (offset + 1)).toNat
  rw [Nat.shiftLeft_eq] at hor
  simp only [wordAt,UInt16.toNat_or,UInt8.toNat_toUInt16,UInt16.toNat_shiftLeft,Nat.shiftLeft_eq,
    UInt16.reduceToNat,Nat.reduceMod]
  rw [Nat.mod_eq_of_lt (by omega),Nat.or_comm,← hor]
  omega

theorem dwordAt_toNat (image : Image) (offset : ℤ) : (dwordAt image offset).toNat =
    (wordAt image offset).toNat + 65536 * (wordAt image (offset + 2)).toNat := by
  have h₀ := (wordAt image offset).toNat_lt
  have h₁ := (wordAt image (offset + 2)).toNat_lt
  have hor := Nat.shiftLeft_add_eq_or_of_lt h₀ (wordAt image (offset + 2)).toNat
  rw [Nat.shiftLeft_eq] at hor
  simp only [dwordAt,UInt32.toNat_or,UInt16.toNat_toUInt32,UInt32.toNat_shiftLeft,Nat.shiftLeft_eq,
    UInt32.reduceToNat,Nat.reduceMod]
  rw [Nat.mod_eq_of_lt (by omega),Nat.or_comm,← hor]
  omega

/-- A displacement has been found with each name, and none without. -/
theorem scanSymbols_nameless {b : Build} {image : Image} {base Addr : DWORD64} {fuel : ℕ}
    {i : DWORD} {best last : Nearest} (hs : scanSymbols b image base Addr fuel i best = some last)
    (hbest : best.name = none → best.Displacement = 0xFFFFFFFFFFFFFFFF) :
    last.name = none → last.Displacement = 0xFFFFFFFFFFFFFFFF := by
  induction fuel generalizing i best with
  | zero => simp [scanSymbols] at hs
  | succ fuel ih =>
    simp only [scanSymbols] at hs
    have hnext : (considerSymbol b image base Addr i best).name = none →
        (considerSymbol b image base Addr i best).Displacement = 0xFFFFFFFFFFFFFFFF := by
      simp only [considerSymbol]
      split
      · split
        · simp
        · exact hbest
      · exact hbest
    split at hs
    · split at hs
      · obtain rfl := Option.some.inj hs
        exact hnext
      · exact ih hs hnext
    · obtain rfl := Option.some.inj hs
      exact hbest

/-- Without a symbol found `*pDisplacement` is all ones, if it is written at all. -/
theorem pe_find_symbol_nameless {b : Build} {image : Image} {nFileSize : ℕ} {Addr : DWORD64}
    {best : Nearest} (h : pe_find_symbol b image nFileSize Addr = some (.scanned best))
    (hn : best.name = none) : best.Displacement = 0xFFFFFFFFFFFFFFFF := by
  simp only [pe_find_symbol] at h
  split at h
  · simp at h
  · split at h
    · split at h <;> simp at h
    · obtain ⟨last,hs,hl⟩ := Option.map_eq_some_iff.mp h
      obtain rfl : last = best := by simpa using hl
      exact scanSymbols_nameless hs (fun _ => rfl) hn

/-- The symbols are gone through if the table lies in the file and the kind of the
image is known. -/
theorem pe_find_symbol_scanned {b : Build} {image : Image} {nFileSize : ℕ} {Addr : DWORD64}
    {answer : PeAnswer} (h : pe_find_symbol b image nFileSize Addr = some answer) :
    (!symbolTableExtendsBeyond b image nFileSize && (ImageBase image).isSome) =
      answer.isScanned := by
  simp only [pe_find_symbol] at h
  split at h
  · next he =>
    obtain rfl : PeAnswer.refused = answer := by simpa using h
    simp [he,PeAnswer.isScanned]
  · next he =>
    split at h
    · next hb =>
      split at h
      · obtain rfl : PeAnswer.refused = answer := by simpa using h
        simp [hb,PeAnswer.isScanned]
      · simp at h
    · next base hb =>
      obtain ⟨last,-,rfl⟩ := Option.map_eq_some_iff.mp h
      simp [he,hb,PeAnswer.isScanned]

/-- The `n` lowest bytes of a number, as they stand in a file. -/
def littleEndian : ℕ → ℕ → List CHAR
  | 0, _ => []
  | n + 1, x => UInt8.ofNat x :: littleEndian n (x / 256)

/-- The headers of a 64-bit image based at 0x140000000, 328 bytes in all. -/
def imageHeaders (NumberOfSections PointerToSymbolTable NumberOfSymbols : ℕ) : List CHAR :=
  List.replicate 60 0 ++ littleEndian 4 64 ++ littleEndian 6 0x866400004550 ++
    littleEndian 2 NumberOfSections ++ littleEndian 4 0 ++ littleEndian 4 PointerToSymbolTable ++
    littleEndian 4 NumberOfSymbols ++ littleEndian 2 240 ++ littleEndian 2 0 ++
    littleEndian 24 0x20B ++ littleEndian 8 0x140000000 ++ List.replicate 208 0

/-- The 40 bytes of a section header. -/
def sectionBytes (Name : List CHAR)
    (VirtualSize VirtualAddress SizeOfRawData PointerToRawData : ℕ) : List CHAR :=
  strncpy Name 8 ++ littleEndian 4 VirtualSize ++ littleEndian 4 VirtualAddress ++
    littleEndian 4 SizeOfRawData ++ littleEndian 4 PointerToRawData ++ List.replicate 16 0

/-- The 18 bytes of a symbol with a short name. -/
def symbolBytes (Name : List CHAR) (Value SectionNumber Type_ NumberOfAuxSymbols : ℕ) : List CHAR :=
  strncpy Name 8 ++ littleEndian 4 Value ++ littleEndian 2 SectionNumber ++ littleEndian 2 Type_ ++
    [2,UInt8.ofNat NumberOfAuxSymbols]

end PeImage
end DrMingw
