import DrMingw.Machine
import DrMingw.DbgHelp
import DrMingw.ModuleRegistry

/-! The functions `MgwHelp` exports in place of those of `DbgHelp`. A result of
`none` means that the call does not return. -/
namespace DrMingw
open PeImage

/-- The global data of `MgwHelp`. -/
structure MgwHelp where
  registry : Registry := {}
  /-- The `static` record of `MgwSymGetLineFromAddrW64`. -/
  info : DwarfLineInfo := {}

/-- Everything that does not change from call to call. -/
structure Environment extends Setting, Libraries

variable (e : Environment) (w : World) (d : DbgHelp)

def mgwSymInitialize (ret : Bool) (hProcess : HANDLE) (s : Registry) : Bool × Registry :=
  (ret,if ret then mgwhelp_initialize w hProcess s else s)

def MgwSymInitialize (hProcess : HANDLE) (s : Registry) : Bool × Registry :=
  mgwSymInitialize w (d.SymInitialize hProcess) hProcess s

def MgwSymInitializeW (hProcess : HANDLE) (s : Registry) : Bool × Registry :=
  mgwSymInitialize w (d.SymInitializeW hProcess) hProcess s

/-- The module is brought in behind the call of `DbgHelp`. Its return value passes
through a `DWORD`. -/
def mgwSymLoadModuleEx (ret : DWORD64) (hProcess hFile : HANDLE)
    (ImageNameW : Option (List WCHAR)) (BaseOfDll : DWORD64) (s : Registry) :
    Option (DWORD64 × Registry) :=
  let dwRet : DWORD := ret.toUInt32
  if BaseOfDll ≠ 0 then
    (mgwhelp_module_lookup e.toSetting w hProcess hFile ImageNameW BaseOfDll s).map fun r =>
      (dwRet.toUInt64,r.2)
  else some (dwRet.toUInt64,s)

/-- `ImageNameBuf` has room for `MAX_PATH` characters. -/
def imageNameBuf (ImageName : List CHAR) : List WCHAR :=
  cstr (convertInto (e.codePages.ansiToWide ImageName) MAX_PATH (List.replicate MAX_PATH 0)).2

def MgwSymLoadModuleEx (r : LoadRequest CHAR) (s : Registry) : Option (DWORD64 × Registry) :=
  mgwSymLoadModuleEx e w (d.SymLoadModuleEx r) r.hProcess r.hFile
    (r.ImageName.map (imageNameBuf e)) r.BaseOfDll s

def MgwSymLoadModuleExW (r : LoadRequest WCHAR) (s : Registry) : Option (DWORD64 × Registry) :=
  mgwSymLoadModuleEx e w (d.SymLoadModuleExW r) r.hProcess r.hFile r.ImageName r.BaseOfDll s

/-- What dwarfstack reports for an address in a module with debug information. -/
def Module.events (m : Module) (addr : DWORD64) : Option (List DwstEvent) :=
  m.dbg.map fun dbg =>
    e.dwstOfDwarfDebugW dbg.image m.image_base_vma m.LoadedImageName m.Base addr

/-- The name reported, demangled if the options ask for it. -/
def reportedName (name : List CHAR) : List CHAR :=
  if d.SymGetOptions &&& SYMOPT_UNDNAME ≠ 0 then
    (demangle e.toLibraries name UNDNAME_NAME_ONLY).getD name
  else name

/-- `NameLen` and `Name` after a conversion into the record. -/
def SymbolInfo.setName (Symbol : SymbolInfo WCHAR) (name : List WCHAR) : SymbolInfo WCHAR :=
  let r := convertSized (convertInto name) Symbol.MaxNameLen Symbol.Name
  { Symbol with NameLen := UInt32.ofNat r.1, Name := r.2 }

/-- `*pDisplacement` after `pe_find_symbol`. -/
def PeImage.PeAnswer.displacement (a : PeAnswer) (Displacement : Option DWORD64) :
    Option DWORD64 :=
  match a with
  | .refused => Displacement
  | .scanned best => Displacement.map fun _ => best.Displacement

/-- The DWARF or else COFF answer to a symbol lookup, with `*Displacement` as it is
passed on when there is none. -/
def ownSymbol (hProcess : HANDLE) (Address : DWORD64) (Displacement : Option DWORD64)
    (Symbol : SymbolInfo WCHAR) (s : Registry) :
    Option ((Option (Reply DWORD64 (SymbolInfo WCHAR)) × Option DWORD64) × Registry) :=
  match mgwhelp_find_module e.toSetting w hProcess Address s with
  | none => none
  | some (none,s) => some ((none,Displacement),s)
  | some (some (module,Offset),s) =>
    match (module.events e Address).bind dwarf_find_symbol with
    | some info =>
      let name := reportedName e d info.functionname
      some ((some ⟨true,Displacement.map fun _ => info.offset_addr.toUInt64,
        Symbol.setName (e.codePages.utf8ToWide name)⟩,Displacement),s)
    | none =>
      (pe_find_symbol e.build module.image module.nFileSize Offset).map fun answer =>
        let Displacement := answer.displacement Displacement
        ((answer.name.map fun symbol =>
            let symbol_name := cstr (strncpy symbol 1024)
            let name := reportedName e d symbol_name
            ⟨true,Displacement,Symbol.setName (e.codePages.ansiToWide name)⟩,Displacement),s)

def MgwSymFromAddrW (hProcess : HANDLE) (Address : DWORD64) (Displacement : Option DWORD64)
    (Symbol : SymbolInfo WCHAR) (s : Registry) :
    Option (Reply DWORD64 (SymbolInfo WCHAR) × Registry) :=
  (ownSymbol e w d hProcess Address Displacement Symbol s).map fun ((answer,Displacement),s) =>
    (answer.getD (d.SymFromAddrW hProcess Address Displacement Symbol),s)

/-- The local `SYMBOL_INFOW` fills a buffer of 1024 bytes, 88 of them in front of `Name`. -/
def localSymbolW : SymbolInfo WCHAR :=
  ⟨{},0,(1024 - 88) / 2 - 1,List.replicate ((1024 - 88) / 2 + 1) 0⟩

def MgwSymFromAddr (hProcess : HANDLE) (Address : DWORD64) (Displacement : Option DWORD64)
    (Symbol : SymbolInfo CHAR) (s : Registry) :
    Option (Reply DWORD64 (SymbolInfo CHAR) × Registry) :=
  (MgwSymFromAddrW e w d hProcess Address Displacement localSymbolW s).map fun (r,s) =>
    let Name := (convertSized (convertInto (e.codePages.wideToAnsi (cstr r.record.Name)))
      Symbol.MaxNameLen Symbol.Name).2
    (⟨r.ret,r.Displacement,if r.ret then { Symbol with Name := Name } else Symbol⟩,s)

/-- A pointer to a buffer, as a string if a NUL ends one there. -/
def stringIn {C : Type} [Zero C] [DecidableEq C] (buf : List C) : Option (List C) :=
  if 0 ∈ buf then some (cstr buf) else none

/-- The DWARF answer to a line lookup. -/
def ownLine (hProcess : HANDLE) (dwAddr : DWORD64) (pdwDisplacement : Option DWORD)
    (Line : Line WCHAR) (s : MgwHelp) :
    Option (Option (Reply DWORD (DrMingw.Line WCHAR)) × MgwHelp) :=
  match mgwhelp_find_module e.toSetting w hProcess dwAddr s.registry with
  | none => none
  | some (found,registry) =>
    match found.bind fun m => m.1.events e dwAddr with
    | none => some (none,{ s with registry := registry })
    | some events =>
      let r := dwarf_find_line events s.info
      some (if r.1 then
          some ⟨true,pdwDisplacement.map fun _ => r.2.offset_addr,
            { Line with
              FileName := stringIn (strncpy r.2.filename 1024)
              LineNumber := r.2.line }⟩
        else none,⟨registry,r.2⟩)

def MgwSymGetLineFromAddrW64 (hProcess : HANDLE) (dwAddr : DWORD64)
    (pdwDisplacement : Option DWORD) (Line : Line WCHAR) (s : MgwHelp) :
    Option (Reply DWORD (DrMingw.Line WCHAR) × MgwHelp) :=
  (ownLine e w hProcess dwAddr pdwDisplacement Line s).map fun (answer,s) =>
    (answer.getD (d.SymGetLineFromAddrW64 hProcess dwAddr pdwDisplacement Line),s)

def MgwSymGetLineFromAddr64 (hProcess : HANDLE) (dwAddr : DWORD64)
    (pdwDisplacement : Option DWORD) (Line : Line CHAR) (s : MgwHelp) :
    Option (Reply DWORD (DrMingw.Line CHAR) × MgwHelp) :=
  (MgwSymGetLineFromAddrW64 e w d hProcess dwAddr pdwDisplacement {} s).map fun (r,s) =>
    let FileName := (convertInto (e.codePages.wideToAnsi (r.record.FileName.getD [])) 1024
      (List.replicate 1024 0)).2
    (⟨r.ret,r.Displacement,
      if r.ret then
        { Line with FileName := stringIn FileName, LineNumber := r.record.LineNumber }
      else Line⟩,s)

def MgwSymCleanup (hProcess : HANDLE) (s : Registry) : Bool × Registry :=
  let r := unlinkProcess hProcess s.processes s.kernel
  (d.SymCleanup hProcess,⟨r.1,r.2⟩)

inductive Call
  | SymInitialize (hProcess : HANDLE)
  | SymInitializeW (hProcess : HANDLE)
  | SymLoadModuleEx (r : LoadRequest CHAR)
  | SymLoadModuleExW (r : LoadRequest WCHAR)
  | SymFromAddr (hProcess : HANDLE) (Address : DWORD64) (Displacement : Option DWORD64)
      (Symbol : SymbolInfo CHAR)
  | SymFromAddrW (hProcess : HANDLE) (Address : DWORD64) (Displacement : Option DWORD64)
      (Symbol : SymbolInfo WCHAR)
  | SymGetLineFromAddr64 (hProcess : HANDLE) (dwAddr : DWORD64) (pdwDisplacement : Option DWORD)
      (Line : Line CHAR)
  | SymGetLineFromAddrW64 (hProcess : HANDLE) (dwAddr : DWORD64) (pdwDisplacement : Option DWORD)
      (Line : Line WCHAR)
  /-- `SymUnloadModule` and `SymUnloadModule64`, which are exported from `DbgHelp` as they are. -/
  | SymUnloadModule64 (hProcess : HANDLE) (BaseOfDll : DWORD64)
  | SymCleanup (hProcess : HANDLE)

/-- A call with what it finds outside of `MgwHelp`. -/
structure Request where
  call : Call
  world : World
  dbghelp : DbgHelp

/-- The global data after a call. -/
def MgwHelp.step (s : MgwHelp) (q : Request) : Option MgwHelp :=
  let onRegistry (r : Registry) : MgwHelp := { s with registry := r }
  match q.call with
  | .SymInitialize h => some (onRegistry (MgwSymInitialize q.world q.dbghelp h s.registry).2)
  | .SymInitializeW h => some (onRegistry (MgwSymInitializeW q.world q.dbghelp h s.registry).2)
  | .SymLoadModuleEx r =>
    (MgwSymLoadModuleEx e q.world q.dbghelp r s.registry).map fun x => onRegistry x.2
  | .SymLoadModuleExW r =>
    (MgwSymLoadModuleExW e q.world q.dbghelp r s.registry).map fun x => onRegistry x.2
  | .SymFromAddr h a disp Symbol =>
    (MgwSymFromAddr e q.world q.dbghelp h a disp Symbol s.registry).map fun x => onRegistry x.2
  | .SymFromAddrW h a disp Symbol =>
    (MgwSymFromAddrW e q.world q.dbghelp h a disp Symbol s.registry).map fun x => onRegistry x.2
  | .SymGetLineFromAddr64 h a disp Line =>
    (MgwSymGetLineFromAddr64 e q.world q.dbghelp h a disp Line s).map (·.2)
  | .SymGetLineFromAddrW64 h a disp Line =>
    (MgwSymGetLineFromAddrW64 e q.world q.dbghelp h a disp Line s).map (·.2)
  | .SymUnloadModule64 _ _ => some s
  | .SymCleanup h => some (onRegistry (MgwSymCleanup q.dbghelp h s.registry).2)

/-- `MgwHelp` over a sequence of calls, until one of them does not return. -/
def mgwhelp : Machine (Option MgwHelp) Request Empty := .ofPartial fun s q => s.step e q

/-- The global data after a run. -/
def mgwhelpAfter (qs : List Request) : Option MgwHelp := (mgwhelp e).after (some {}) qs

/-- A search for a module in the list of a process. -/
structure ModuleSearch where
  hProcess : HANDLE
  hFile : HANDLE
  ImageName : Option (List WCHAR)
  Base : DWORD64

/-- What a call does to the registry. -/
inductive Effect
  | nothing
  | start (hProcess : HANDLE)
  | search (m : ModuleSearch)
  | cleanup (hProcess : HANDLE)

/-- Nothing is searched for at base 0. -/
def searchAt (m : ModuleSearch) : Effect := if m.Base = 0 then .nothing else .search m

def Request.effect (q : Request) : Effect :=
  let atAddress (h : HANDLE) (a : DWORD64) : Effect :=
    searchAt ⟨h,NULL,none,GetModuleBase e.toSetting q.world h a⟩
  match q.call with
  | .SymInitialize h => if q.dbghelp.SymInitialize h then .start h else .nothing
  | .SymInitializeW h => if q.dbghelp.SymInitializeW h then .start h else .nothing
  | .SymLoadModuleEx r =>
    searchAt ⟨r.hProcess,r.hFile,r.ImageName.map (imageNameBuf e),r.BaseOfDll⟩
  | .SymLoadModuleExW r => searchAt ⟨r.hProcess,r.hFile,r.ImageName,r.BaseOfDll⟩
  | .SymFromAddr h a _ _ | .SymFromAddrW h a _ _ => atAddress h a
  | .SymGetLineFromAddr64 h a _ _ | .SymGetLineFromAddrW64 h a _ _ => atAddress h a
  | .SymUnloadModule64 _ _ => .nothing
  | .SymCleanup h => .cleanup h

def Effect.apply (s : Registry) : Effect → Option Registry
  | .nothing => some s
  | .start h => some ( mgwhelp_initialize w h s)
  | .search m =>
    (mgwhelp_module_lookup e.toSetting w m.hProcess m.hFile m.ImageName m.Base s).map (·.2)
  | .cleanup h =>
    let r := unlinkProcess h s.processes s.kernel
    some ⟨r.1,r.2⟩

/-- A module is brought in: its process is known, no module is listed at its base,
and the steps of its creation succeed. -/
def Effect.maps (s : Registry) : Effect → Bool
  | .search m =>
    match mgwhelp_process_lookup s.processes m.hProcess with
    | none => false
    | some p =>
      (p.modules.find? fun x => x.Base = m.Base).isNone &&
        stepsSucceed e.toSetting w m.hProcess m.hFile m.ImageName m.Base s.kernel.clock
  | _ => false

variable {e w d} {h : HANDLE} {a : DWORD64} {s s' : MgwHelp} {r r' : Registry} {q : Request}

theorem find_module_effect :
    (mgwhelp_find_module e.toSetting w h a r).map (·.2) =
      (searchAt ⟨h,NULL,none,GetModuleBase e.toSetting w h a⟩).apply e w r := by
  unfold mgwhelp_find_module searchAt
  dsimp only
  split
  · simp [Effect.apply]
  · simp [Effect.apply,Option.map_map,Function.comp_def]

theorem load_effect {ret : DWORD64} {hFile : HANDLE} {name : Option (List WCHAR)}
    {base : DWORD64} :
    (mgwSymLoadModuleEx e w ret h hFile name base r).map (·.2) =
      (searchAt ⟨h,hFile,name,base⟩).apply e w r := by
  simp only [mgwSymLoadModuleEx,searchAt]
  by_cases hb : base = 0
  · simp [hb,Effect.apply]
  · simp [hb,Effect.apply,Option.map_map,Function.comp_def]

theorem SymFromAddrW_effect {disp : Option DWORD64} {Symbol : SymbolInfo WCHAR}
    {reply : Reply DWORD64 (SymbolInfo WCHAR)}
    (hs : MgwSymFromAddrW e w d h a disp Symbol r = some (reply,r')) :
    (mgwhelp_find_module e.toSetting w h a r).map (·.2) = some r' := by
  obtain ⟨⟨x,r₁⟩,ho,hx⟩ := Option.map_eq_some_iff.mp hs
  obtain ⟨-,rfl⟩ := Prod.mk.inj hx
  simp only [ownSymbol] at ho
  split at ho
  · simp at ho
  · next hf =>
    obtain ⟨-,rfl⟩ := by simpa using ho
    simp [hf]
  · next module Offset s₁ hf =>
    rw [hf]
    split at ho
    · obtain ⟨-,rfl⟩ := by simpa using ho
      rfl
    · obtain ⟨answer,-,ha⟩ := Option.map_eq_some_iff.mp ho
      exact congrArg some (Prod.mk.inj ha).2

theorem ownLine_effect {disp : Option DWORD} {l : Line WCHAR}
    {answer : Option (Reply DWORD (Line WCHAR))}
    (ho : ownLine e w h a disp l s = some (answer,s')) :
    (mgwhelp_find_module e.toSetting w h a s.registry).map (·.2) = some s'.registry := by
  simp only [ownLine] at ho
  split at ho
  · simp at ho
  · next found registry hf =>
    rw [hf]
    split at ho
    · obtain ⟨-,rfl⟩ := by simpa using ho
      rfl
    · exact congrArg (Option.map fun x => x.2.registry) ho

theorem SymGetLineFromAddrW64_effect {disp : Option DWORD} {l : Line WCHAR}
    {reply : Reply DWORD (Line WCHAR)}
    (hs : MgwSymGetLineFromAddrW64 e w d h a disp l s = some (reply,s')) :
    (mgwhelp_find_module e.toSetting w h a s.registry).map (·.2) = some s'.registry := by
  obtain ⟨⟨x,s₁⟩,ho,hx⟩ := Option.map_eq_some_iff.mp hs
  obtain ⟨-,rfl⟩ := Prod.mk.inj hx
  exact ownLine_effect ho

/-- Each call changes the registry as its effect says. -/
theorem step_effect (hs : s.step e q = some s') :
    (q.effect e).apply e q.world s.registry = some s'.registry := by
  simp only [MgwHelp.step] at hs
  simp only [Request.effect]
  cases hc : q.call with
  | SymInitialize h =>
    simp only [hc,MgwSymInitialize,mgwSymInitialize,Option.some.injEq] at hs
    subst hs
    cases hb : q.dbghelp.SymInitialize h <;> simp [Effect.apply,hb]
  | SymInitializeW h =>
    simp only [hc,MgwSymInitializeW,mgwSymInitialize,Option.some.injEq] at hs
    subst hs
    cases hb : q.dbghelp.SymInitializeW h <;> simp [Effect.apply,hb]
  | SymLoadModuleEx r =>
    simp only [hc,Option.map_eq_some_iff] at hs
    obtain ⟨x,hx,rfl⟩ := hs
    rw [← load_effect,show mgwSymLoadModuleEx .. = some x from hx]
    rfl
  | SymLoadModuleExW r =>
    simp only [hc,Option.map_eq_some_iff] at hs
    obtain ⟨x,hx,rfl⟩ := hs
    rw [← load_effect,show mgwSymLoadModuleEx .. = some x from hx]
    rfl
  | SymFromAddr h a disp Symbol =>
    simp only [hc,MgwSymFromAddr,Option.map_map,Option.map_eq_some_iff,Prod.exists] at hs
    obtain ⟨reply,registry,hx,rfl⟩ := hs
    rw [← find_module_effect,SymFromAddrW_effect hx]
    rfl
  | SymFromAddrW h a disp Symbol =>
    simp only [hc,Option.map_eq_some_iff,Prod.exists] at hs
    obtain ⟨reply,registry,hx,rfl⟩ := hs
    rw [← find_module_effect,SymFromAddrW_effect hx]
  | SymGetLineFromAddr64 h a disp l =>
    simp only [hc,MgwSymGetLineFromAddr64,Option.map_map,Option.map_eq_some_iff,
      Prod.exists] at hs
    obtain ⟨reply,s₁,hx,rfl⟩ := hs
    rw [← find_module_effect,SymGetLineFromAddrW64_effect hx]
    rfl
  | SymGetLineFromAddrW64 h a disp l =>
    simp only [hc,Option.map_eq_some_iff,Prod.exists] at hs
    obtain ⟨reply,s₁,hx,rfl⟩ := hs
    rw [← find_module_effect,SymGetLineFromAddrW64_effect hx]
  | SymUnloadModule64 h base =>
    simp only [hc,Option.some.injEq] at hs
    subst hs
    rfl
  | SymCleanup h =>
    simp only [hc,MgwSymCleanup,Option.some.injEq] at hs
    subst hs
    rfl

theorem searchAt_search {m m' : ModuleSearch} (h : searchAt m = .search m') :
    m = m' ∧ m'.Base ≠ 0 := by
  simp only [searchAt] at h
  split at h
  · simp at h
  · next hb =>
    obtain rfl := by simpa using h
    exact ⟨rfl,hb⟩

/-- Nothing is ever searched for at base 0. -/
theorem effect_search {m : ModuleSearch} (h : q.effect e = .search m) : m.Base ≠ 0 := by
  simp only [Request.effect] at h
  cases hc : q.call with
  | SymInitialize | SymInitializeW =>
    simp only [hc] at h
    split at h <;> simp at h
  | SymLoadModuleEx | SymLoadModuleExW | SymFromAddr | SymFromAddrW | SymGetLineFromAddr64
  | SymGetLineFromAddrW64 =>
    simp only [hc] at h
    exact (searchAt_search h).2
  | SymUnloadModule64 | SymCleanup => simp [hc] at h

end DrMingw
