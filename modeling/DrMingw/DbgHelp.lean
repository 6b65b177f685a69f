import DrMingw.Strings
import DrMingw.PeImage

/-! What `MgwHelp` relies on: the functions of `DbgHelp` it wraps, with the records
they fill in, the dwarfstack library, and the demangler. -/
namespace DrMingw
open PeImage

/-- The numeric fields of `SYMBOL_INFO` that describe a symbol. -/
structure SymbolData where
  TypeIndex : DWORD := 0
  Index : DWORD := 0
  Size : DWORD := 0
  ModBase : DWORD64 := 0
  Flags : DWORD := 0
  Value : DWORD64 := 0
  Address : DWORD64 := 0
  Register : DWORD := 0
  Scope : DWORD := 0
  Tag : DWORD := 0
  deriving DecidableEq

/-- `SYMBOL_INFO` and `SYMBOL_INFOW`. `Name` is the buffer of the caller. -/
structure SymbolInfo (C : Type) where
  data : SymbolData
  NameLen : DWORD
  MaxNameLen : DWORD
  Name : List C
  deriving DecidableEq

/-- `IMAGEHLP_LINE64` and `IMAGEHLP_LINEW64`. `FileName` is the string it points to,
if it points to one. -/
structure Line (C : Type) where
  Key : HANDLE := NULL
  LineNumber : DWORD := 0
  FileName : Option (List C) := none
  Address : DWORD64 := 0
  deriving DecidableEq

/-- A return value with the contents of the output fields; the displacement is
`none` where the caller passes `NULL` for it. -/
structure Reply (D R : Type) where
  ret : Bool
  Displacement : Option D
  record : R
  deriving DecidableEq

/-- The arguments of `SymLoadModuleEx` and `SymLoadModuleExW`. -/
structure LoadRequest (C : Type) where
  hProcess : HANDLE
  hFile : HANDLE := NULL
  ImageName : Option (List C) := none
  ModuleName : Option (List C) := none
  BaseOfDll : DWORD64
  DllSize : DWORD := 0
  Data : HANDLE := NULL
  Flags : DWORD := 0

/-- The functions of `DbgHelp` as one call of `MgwHelp` finds them. -/
structure DbgHelp where
  SymInitialize : HANDLE → Bool
  SymInitializeW : HANDLE → Bool
  SymCleanup : HANDLE → Bool
  SymGetOptions : DWORD
  SymLoadModuleEx : LoadRequest CHAR → DWORD64
  SymLoadModuleExW : LoadRequest WCHAR → DWORD64
  SymFromAddr : HANDLE → DWORD64 → Option DWORD64 → SymbolInfo CHAR →
    Reply DWORD64 (SymbolInfo CHAR)
  SymFromAddrW : HANDLE → DWORD64 → Option DWORD64 → SymbolInfo WCHAR →
    Reply DWORD64 (SymbolInfo WCHAR)
  SymGetLineFromAddr64 : HANDLE → DWORD64 → Option DWORD → Line CHAR → Reply DWORD (Line CHAR)
  SymGetLineFromAddrW64 : HANDLE → DWORD64 → Option DWORD → Line WCHAR →
    Reply DWORD (Line WCHAR)

/-- The line numbers by which dwarfstack reports a status instead of a line. -/
inductive DwstStatus
  | DWST_BASE_ADDR
  | DWST_NOT_FOUND
  | DWST_NO_DBG_SYM
  | DWST_NO_SRC_FILE
  deriving DecidableEq

/-- One call of the callback of `dwstOfDwarfDebugW`. -/
inductive DwstEvent
  | status (status : DwstStatus)
  | line (addr : DWORD64) (filename : Option (List WCHAR)) (lineno : DWORD) (funcname : List CHAR)
  deriving DecidableEq

def DMGL_NO_OPTS : ℕ := 0
def DMGL_PARAMS : ℕ := 1
def DMGL_TYPES : ℕ := 16

def UNDNAME_NAME_ONLY : DWORD := 0x1000
def UNDNAME_NO_ARGUMENTS : DWORD := 0x2000
def SYMOPT_UNDNAME : DWORD := 0x2

/-- The libraries linked in. What dwarfstack reports depends on the image the debug
information comes from, the link-time base, name and load address of the module,
and the address looked up. -/
structure Libraries where
  dwstOfDwarfDebugW : Image → DWORD64 → List WCHAR → DWORD64 → DWORD64 → List DwstEvent
  cplus_demangle_v3 : List CHAR → ℕ → Option (List CHAR)

/-- The mangled names of C++ begin with `_Z`. -/
def demangle (l : Libraries) (mangled : List CHAR) (Flags : DWORD) : Option (List CHAR) :=
  if mangled.take 2 ≠ [95,90] then none
  else
    let options := if Flags &&& UNDNAME_NAME_ONLY ≠ 0 then DMGL_NO_OPTS
      else DMGL_PARAMS + DMGL_TYPES
    l.cplus_demangle_v3 mangled
      (if Flags &&& UNDNAME_NO_ARGUMENTS ≠ 0 then options &&& DMGL_TYPES else options)

/-- `dwarf_symbol_info`. -/
structure DwarfSymbolInfo where
  functionname : List CHAR := []
  offset_addr : DWORD := 0

def find_symbol_cbW (info : DwarfSymbolInfo) : DwstEvent → DwarfSymbolInfo
  | .status _ => info
  | .line addr _ _ funcname => ⟨funcname,addr.toUInt32⟩

/-- `dwarf_line_info`. -/
structure DwarfLineInfo where
  filename : List WCHAR := []
  line : DWORD := 0
  offset_addr : DWORD := 0
  deriving DecidableEq

def find_line_cbW (info : DwarfLineInfo) : DwstEvent → DwarfLineInfo
  | .status _ => info
  | .line addr filename lineno _ => ⟨filename.getD [],lineno,addr.toUInt32⟩

/-- `dwarf_find_symbol` on the reported events, with the record it fills in. -/
def dwarf_find_symbol (events : List DwstEvent) : Option DwarfSymbolInfo :=
  let info := events.foldl find_symbol_cbW {}
  if info.functionname = [] then none else some info

/-- `dwarf_find_line` on the reported events; `info` is what the record held before. -/
def dwarf_find_line (events : List DwstEvent) (info : DwarfLineInfo) : Bool × DwarfLineInfo :=
  let info := events.foldl find_line_cbW info
  (info.filename ≠ [],info)

end DrMingw
