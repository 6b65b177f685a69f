import DrMingw.RegistryInvariant

/-! Line lookups one after another, against the same lookup made first. Modules stay
listed, which changes no answer while the system is steady; the record of the last
line does. -/
namespace DrMingw
open PeImage

variable {e : Environment} {w : World} {d : DbgHelp} {a : Attempt} {k k' : Kernel}
  {h hFile : HANDLE} {name : Option (List WCHAR)} {base addr : DWORD64} {r r' : Registry}
  {s s' s₀ : MgwHelp}

/-- A result without the kernel it leaves behind, seen through `f`. -/
def outcome {A B : Type} (f : A → B) (x : Option (Option A × Kernel)) : Option (Option B) :=
  x.map fun r => r.1.map f

theorem openDebugImage_steady {w : FileSystem} (hw : w.Steady)
    {nested : FileId → List WCHAR → Kernel → Option (Option DwarfDebug × Kernel)}
    (hn : ∀ file path k k', outcome DwarfDebug.image (nested file path k) =
      outcome DwarfDebug.image (nested file path k'))
    (paths : List (List WCHAR)) (k k' : Kernel) :
    outcome DwarfDebug.image (openDebugImage w nested paths k) =
      outcome DwarfDebug.image (openDebugImage w nested paths k') := by
  induction paths generalizing k k' with
  | nil => rfl
  | cons path paths ih =>
    simp only [openDebugImage]
    rcases acquire_steady hw (.CreateFileW path) k k' with
      ⟨k₁,k₁',h₁,h₁'⟩ | ⟨x,k₁,x',k₁',h₁,h₁'⟩
    · rw [h₁,h₁']
      exact ih k₁ k₁'
    · rw [h₁,h₁']
      have hh := hn (w.fileAt path) path k₁ k₁'
      simpa [outcome,Option.map_map,Function.comp_def] using hh

theorem afterDebugImage_steady {w : FileSystem} (hw : w.Steady) (file : FileId) (nFileSize : ℕ)
    (object hFileMapping lpFileBase object' hFileMapping' lpFileBase' : Resource)
    {x x' : Option DwarfDebug × Kernel}
    (h : x.1.map DwarfDebug.image = x'.1.map DwarfDebug.image) :
    (afterDebugImage w file nFileSize object hFileMapping lpFileBase x).1.map DwarfDebug.image =
      (afterDebugImage w file nFileSize object' hFileMapping' lpFileBase' x').1.map
        DwarfDebug.image := by
  rcases x with ⟨_ | dbg,k⟩
  · rcases x' with ⟨_ | dbg',k'⟩
    · rcases acquire_steady hw .calloc k k' with ⟨k₁,k₁',h₁,h₁'⟩ | ⟨x₁,k₁,x₁',k₁',h₁,h₁'⟩
      · simp [afterDebugImage,h₁,h₁']
      simp only [afterDebugImage,h₁,h₁',Kernel.initObject,hw.2 file k₁.clock k₁'.clock]
      cases w.dwarf_object_init_b file k₁'.clock <;> rfl
    · simp at h
  · rcases x' with ⟨_ | dbg',k'⟩
    · simp at h
    · exact h

/-- In a steady system the debug information found depends on the file only. -/
theorem mgwhelp_dwarf_pe_init_steady (b : Build) (cp : CodePages) {w : FileSystem}
    (hw : w.Steady) (depth : ℕ) (file : FileId) (path : List WCHAR) (k k' : Kernel) :
    outcome DwarfDebug.image (mgwhelp_dwarf_pe_init b cp w depth file path k) =
      outcome DwarfDebug.image (mgwhelp_dwarf_pe_init b cp w depth file path k') := by
  induction depth generalizing file path k k' with
  | zero => rfl
  | succ depth ih =>
    rcases acquire_steady hw .calloc k k' with ⟨k₁,k₁',h₁,h₁'⟩ | ⟨x₁,k₁,x₁',k₁',h₁,h₁'⟩
    · simp [mgwhelp_dwarf_pe_init,h₁,h₁',outcome]
    rcases acquire_steady hw (.CreateFileMapping file) k₁ k₁' with
      ⟨k₂,k₂',h₂,h₂'⟩ | ⟨x₂,k₂,x₂',k₂',h₂,h₂'⟩
    · simp [mgwhelp_dwarf_pe_init,h₁,h₁',h₂,h₂',outcome]
    rcases acquire_steady hw (.MapViewOfFile file) k₂ k₂' with
      ⟨k₃,k₃',h₃,h₃'⟩ | ⟨x₃,k₃,x₃',k₃',h₃,h₃'⟩
    · simp [mgwhelp_dwarf_pe_init,h₁,h₁',h₂,h₂',h₃,h₃',outcome]
    cases hsize : fileSize b (w.contents file) with
    | none => simp [mgwhelp_dwarf_pe_init,h₁,h₁',h₂,h₂',h₃,h₃',hsize]
    | some nFileSize =>
      cases hin : symbolTableExtendsBeyond b (w.contents file) nFileSize with
      | true => simp [mgwhelp_dwarf_pe_init,h₁,h₁',h₂,h₂',h₃,h₃',hsize,hin,outcome]
      | false =>
        rw [mgwhelp_dwarf_pe_init_mapped h₁ h₂ h₃ hsize hin,
          mgwhelp_dwarf_pe_init_mapped h₁' h₂' h₃' hsize hin]
        have ho := openDebugImage_steady hw ih (debugImages b cp (w.contents file) path) k₃ k₃'
        generalize openDebugImage w (mgwhelp_dwarf_pe_init b cp w depth)
          (debugImages b cp (w.contents file) path) k₃ = x at ho ⊢
        generalize openDebugImage w (mgwhelp_dwarf_pe_init b cp w depth)
          (debugImages b cp (w.contents file) path) k₃' = x' at ho ⊢
        rcases x with _ | x
        · rcases x' with _ | x'
          · rfl
          · simp [outcome] at ho
        · rcases x' with _ | x'
          · simp [outcome] at ho
          · exact congrArg some (afterDebugImage_steady hw _ _ _ _ _ _ _ _ (Option.some.inj ho))

/-- What the report of a line depends on besides the address looked up. -/
def Module.source (m : Module) : Option Image × DWORD64 × List WCHAR × DWORD64 :=
  (m.dbg.map (·.image),m.image_base_vma,m.LoadedImageName,m.Base)

theorem events_source {m m' : Module} (h : m.source = m'.source) (addr : DWORD64) :
    m.events e addr = m'.events e addr := by
  simp only [Module.source,Prod.mk.injEq] at h
  obtain ⟨hi,hv,hn,hb⟩ := h
  have hd (x : Module) : x.events e addr = (x.dbg.map (·.image)).map fun image =>
      e.dwstOfDwarfDebugW image x.image_base_vma x.LoadedImageName x.Base addr := by
    simp [Module.events,Function.comp_def]
  rw [hd m,hd m',hi,hv,hn,hb]

theorem mapModule_steady (e : Environment) (hw : w.Steady) (memory memory' : Resource)
    (base : DWORD64) (path : List WCHAR) (file : FileId) (k k' : Kernel) :
    outcome Module.source (mapModule e.toSetting w memory base path file k) =
      outcome Module.source (mapModule e.toSetting w memory' base path file k') := by
  simp only [mapModule]
  rcases acquire_steady hw (.CreateFileMapping file) k k' with
    ⟨k₁,k₁',h₁,h₁'⟩ | ⟨x₁,k₁,x₁',k₁',h₁,h₁'⟩
  · rw [h₁,h₁']
    rfl
  rw [h₁,h₁']
  rcases acquire_steady hw (.MapViewOfFile file) k₁ k₁' with
    ⟨k₂,k₂',h₂,h₂'⟩ | ⟨x₂,k₂,x₂',k₂',h₂,h₂'⟩
  · simp only [h₂,h₂']
    rfl
  simp only [h₂,h₂']
  cases fileSize e.build (w.contents file) with
  | none => rfl
  | some nFileSize =>
    cases PEGetImageBase e.build (w.contents file) with
    | none => rfl
    | some image_base_vma =>
      have hh := congrArg (Option.map fun image =>
        some (image,image_base_vma,path,base))
          (mgwhelp_dwarf_pe_init_steady e.build e.codePages hw e.depth file path k₂ k₂')
      simpa [outcome,Module.source,Option.map_map,Function.comp_def] using hh

theorem outcome_keepOrFree (memory : Resource) (x : Option (Option Module × Kernel)) :
    outcome Module.source (x.map (keepOrFree memory)) = outcome Module.source x := by
  cases x with
  | none => rfl
  | some r => simp [outcome,keepOrFree_fst]

/-- In a steady system every attempt to create a module ends the same way. -/
theorem mgwhelp_module_create_steady (hw : w.Steady) (k k' : Kernel) :
    outcome Module.source (mgwhelp_module_create e.toSetting w h hFile name base k) =
      outcome Module.source (mgwhelp_module_create e.toSetting w h hFile name base k') := by
  simp only [mgwhelp_module_create]
  rcases acquire_steady hw .calloc k k' with ⟨k₁,k₁',h₁,h₁'⟩ | ⟨x₁,k₁,x₁',k₁',h₁,h₁'⟩
  · rw [h₁,h₁']
    rfl
  rw [h₁,h₁']
  dsimp only
  cases loadedImageName e.toSetting w h name base with
  | none => rfl
  | some path =>
    dsimp only
    split
    · rw [outcome_keepOrFree,outcome_keepOrFree]
      exact mapModule_steady e hw ..
    · rcases acquire_steady hw (.CreateFileW path) k₁ k₁' with
        ⟨k₂,k₂',h₂,h₂'⟩ | ⟨x₂,k₂,x₂',k₂',h₂,h₂'⟩
      · rw [h₂,h₂']
        rfl
      · rw [h₂,h₂']
        have hh := mapModule_steady e hw x₁ x₁' base path (w.fileAt path) k₂ k₂'
        simpa [outcome,keepOrFree_fst,Option.map_map,Function.comp_def] using hh

/-- The source of the module a search ends with. -/
def searchSource (e : Environment) (w : World) (h : HANDLE) (base : DWORD64) (r : Registry) :
    Option (Option (Option Image × DWORD64 × List WCHAR × DWORD64)) :=
  (mgwhelp_module_lookup e.toSetting w h 0 none base r).map fun x => x.1.map Module.source

/-- Two registries in which every search ends with the same source. -/
def SameSources (e : Environment) (w : World) (r r' : Registry) : Prop :=
  ∀ h base, searchSource e w h base r = searchSource e w h base r'

theorem searchSource_eq : searchSource e w h base r =
    match mgwhelp_process_lookup r.processes h with
    | none => some none
    | some p =>
      match p.modules.find? fun m => m.Base = base with
      | some m => some (some m.source)
      | none =>
        outcome Module.source (mgwhelp_module_create e.toSetting w h 0 none base r.kernel) := by
  simp only [searchSource,mgwhelp_module_lookup]
  cases mgwhelp_process_lookup r.processes h with
  | none => rfl
  | some p =>
    dsimp only
    cases p.modules.find? fun m => m.Base = base with
    | some m => rfl
    | none =>
      simp only [outcome,Option.map_map,Function.comp_def]
      congr 1
      funext x
      cases x.1 <;> rfl

theorem searchSource_kernel (hw : w.Steady) (ps : List Process) (k k' : Kernel) :
    searchSource e w h base ⟨ps,k⟩ = searchSource e w h base ⟨ps,k'⟩ := by
  simp only [searchSource_eq,mgwhelp_module_create_steady hw k k']

/-- In a steady system no search changes how another one ends. -/
theorem module_lookup_sameSources (hw : w.Steady) {o : Option Module}
    (hl : mgwhelp_module_lookup e.toSetting w h 0 none base r = some (o,r')) :
    SameSources e w r' r := by
  intro h₁ base₁
  have hsource : searchSource e w h base r = some (o.map Module.source) := by
    rw [searchSource,hl]
    rfl
  rcases module_lookup_cases hl with ⟨-,-,rfl⟩ | ⟨p,hp,⟨m,hm,-,rfl⟩ | ⟨k,hm,hc,rfl⟩⟩
  · rfl
  · rfl
  cases o with
  | none => exact searchSource_kernel hw r.processes ..
  | some m =>
    dsimp only [Option.elim_some]
    by_cases hh : h₁ = h
    · subst hh
      by_cases hbase : base = base₁
      · subst hbase
        rw [hsource,searchSource_eq]
        simp [process_lookup_link,hp,(module_create_some hc).1]
      · have hne : m.Base ≠ base₁ := (module_create_some hc).1 ▸ hbase
        rw [searchSource_kernel hw _ _ r.kernel,searchSource_eq,searchSource_eq]
        simp [process_lookup_link,hp,hne]
    · rw [searchSource_kernel hw _ _ r.kernel,searchSource_eq,searchSource_eq]
      simp [process_lookup_link,hh]


/-- What dwarfstack reports for an address when its line is looked up: `none` where no
module with debug information is found. -/
def reported (e : Environment) (w : World) (h : HANDLE) (addr : DWORD64) (r : Registry) :
    Option (Option (List DwstEvent)) :=
  (mgwhelp_find_module e.toSetting w h addr r).map fun x => x.1.bind fun m => m.1.events e addr

theorem reported_sameSources (h : HANDLE) (addr : DWORD64) (hr : SameSources e w r r') :
    reported e w h addr r = reported e w h addr r' := by
  have hs := hr h (GetModuleBase e.toSetting w h addr)
  simp only [reported,mgwhelp_find_module]
  split
  · rfl
  · simp only [searchSource] at hs
    revert hs
    rcases mgwhelp_module_lookup e.toSetting w h 0 none (GetModuleBase e.toSetting w h addr) r
      with _ | ⟨_ | m,r₁⟩ <;>
    rcases mgwhelp_module_lookup e.toSetting w h 0 none (GetModuleBase e.toSetting w h addr) r'
      with _ | ⟨_ | m',r₂⟩ <;> intro hs <;>
      simp only [Option.map_none,Option.map_some,reduceCtorEq,Option.some_inj] at hs
    · rfl
    · rfl
    · simp [events_source hs]

/-- A report of a line, not of a status. -/
def DwstEvent.isLine : DwstEvent → Bool
  | .status _ => false
  | .line .. => true

/-- The file name reported with a line, empty where there is none. -/
def DwstEvent.fileName : DwstEvent → Option (List WCHAR)
  | .status _ => none
  | .line _ filename _ _ => some (filename.getD [])

/-- The file name of the last line reported, empty if there is no line. -/
def lastFileName (events : List DwstEvent) : List WCHAR :=
  (events.filterMap DwstEvent.fileName).getLast?.getD []

theorem foldl_find_line_filename (events : List DwstEvent) :
    (events.foldl find_line_cbW {}).filename = lastFileName events := by
  induction events using List.reverseRecOn with
  | nil => rfl
  | append_singleton events event ih =>
    cases event with
    | status s => simpa [lastFileName,DwstEvent.fileName,find_line_cbW] using ih
    | line addr filename lineno funcname =>
      simp [lastFileName,DwstEvent.fileName,find_line_cbW]

/-- Line reports overwrite the record, status reports leave it as it was. -/
theorem foldl_find_line (events : List DwstEvent) (info : DwarfLineInfo) :
    events.foldl find_line_cbW info =
      if events.any DwstEvent.isLine then events.foldl find_line_cbW {} else info := by
  induction events using List.reverseRecOn with
  | nil => rfl
  | append_singleton events event ih =>
    cases event with
    | status s => simpa [find_line_cbW,DwstEvent.isLine] using ih
    | line addr filename lineno funcname => simp [find_line_cbW,DwstEvent.isLine]

/-- A call of `MgwSymGetLineFromAddrW64`, with `DbgHelp` as it finds it. -/
structure LineLookup where
  hProcess : HANDLE
  dwAddr : DWORD64
  pdwDisplacement : Option DWORD
  Line : Line WCHAR
  dbghelp : DbgHelp

namespace LineLookup

def request (c : LineLookup) (w : World) : Request :=
  ⟨.SymGetLineFromAddrW64 c.hProcess c.dwAddr c.pdwDisplacement c.Line,w,c.dbghelp⟩

variable (e w)

/-- The return value and output fields of a call; `none` if it does not return. -/
def reply (c : LineLookup) (s : MgwHelp) : Option (Reply DWORD (DrMingw.Line WCHAR)) :=
  (MgwSymGetLineFromAddrW64 e w c.dbghelp c.hProcess c.dwAddr c.pdwDisplacement c.Line s).map (·.1)

/-- A call returns without an answer of its own, that of `DbgHelp` is passed on. -/
def PassedOn (c : LineLookup) (s : MgwHelp) : Prop :=
  (ownLine e w c.hProcess c.dwAddr c.pdwDisplacement c.Line s).map (·.1) = some none

/-- What dwarfstack reports to a call made in `s`. -/
def events (c : LineLookup) (s : MgwHelp) : Option (List DwstEvent) :=
  (reported e w c.hProcess c.dwAddr s.registry).getD none

/-- Everything reported to the calls of a list, each of them made in `s`. -/
def history (s : MgwHelp) (cs : List LineLookup) : List DwstEvent :=
  cs.flatMap fun c => (c.events e w s).getD []

/-- The call in state `s` gives what it gives as the first call, in `s₀`; and without
a report of a line it is passed on. -/
structure AsFirst (s₀ s : MgwHelp) (c : LineLookup) : Prop where
  same : c.reply e w s = c.reply e w s₀
  passed : ∀ x, reported e w c.hProcess c.dwAddr s₀.registry = some x →
    (x.getD []).any DwstEvent.isLine = false → c.PassedOn e w s

/-- A call to which a module with debug information reports no line comes after calls
that have left no file name behind. -/
def NotStale (s₀ : MgwHelp) (cs : List LineLookup) (c : LineLookup) : Prop :=
  ∀ events, c.events e w s₀ = some events → events.any DwstEvent.isLine = false →
    lastFileName (history e w s₀ cs) = []

instance (s₀ : MgwHelp) (cs : List LineLookup) (c : LineLookup) :
    Decidable (NotStale e w s₀ cs c) :=
  match h : c.events e w s₀ with
  | none => isTrue (by simp [NotStale,h])
  | some events => decidable_of_iff (events.any DwstEvent.isLine = false →
      lastFileName (history e w s₀ cs) = []) (by simp [NotStale,h])

end LineLookup

/-- The answer to a line lookup, from what is reported and what the record holds. -/
def lineAnswer (events : Option (List DwstEvent)) (info : DwarfLineInfo)
    (pdwDisplacement : Option DWORD) (l : Line WCHAR) :
    Option (Reply DWORD (Line WCHAR)) × DwarfLineInfo :=
  match events with
  | none => (none,info)
  | some events =>
    let r := dwarf_find_line events info
    (if r.1 then
        some ⟨true,pdwDisplacement.map fun _ => r.2.offset_addr,
          { l with
            FileName := stringIn (strncpy r.2.filename 1024)
            LineNumber := r.2.line }⟩
      else none,r.2)

theorem ownLine_eq (disp : Option DWORD) (l : Line WCHAR) :
    ownLine e w h addr disp l s =
      (mgwhelp_find_module e.toSetting w h addr s.registry).map fun x =>
        let r := lineAnswer (x.1.bind fun m => m.1.events e addr) s.info disp l
        (r.1,⟨x.2,r.2⟩) := by
  simp only [ownLine]
  rcases mgwhelp_find_module e.toSetting w h addr s.registry with _ | ⟨found,registry⟩
  · rfl
  · simp only [Option.map_some]
    cases found.bind fun m => m.1.events e addr <;> rfl

theorem ownLine_reported (disp : Option DWORD) (l : Line WCHAR) :
    (ownLine e w h addr disp l s).map (·.1) =
      (reported e w h addr s.registry).map fun events => (lineAnswer events s.info disp l).1 := by
  simp [ownLine_eq,reported,Option.map_map,Function.comp_def]

theorem getLine_reported (disp : Option DWORD) (l : Line WCHAR) :
    (MgwSymGetLineFromAddrW64 e w d h addr disp l s).map (·.1) =
      (reported e w h addr s.registry).map fun events =>
        (lineAnswer events s.info disp l).1.getD (d.SymGetLineFromAddrW64 h addr disp l) := by
  simp [MgwSymGetLineFromAddrW64,ownLine_eq,reported,Option.map_map,Function.comp_def]

theorem lineAnswer_record (events : Option (List DwstEvent)) (info : DwarfLineInfo)
    (disp : Option DWORD) (l : Line WCHAR) :
    (lineAnswer events info disp l).2 = (events.getD []).foldl find_line_cbW info := by
  cases events <;> rfl

theorem dwarf_find_line_line {events : List DwstEvent}
    (he : events.any DwstEvent.isLine = true) (info : DwarfLineInfo) :
    dwarf_find_line events info = dwarf_find_line events {} := by
  simp only [dwarf_find_line]
  rw [foldl_find_line events info,if_pos he]

theorem dwarf_find_line_status {events : List DwstEvent}
    (he : events.any DwstEvent.isLine = false) (info : DwarfLineInfo) :
    dwarf_find_line events info = (decide (info.filename ≠ []),info) := by
  simp only [dwarf_find_line]
  rw [foldl_find_line events info,he]
  simp

/-- A report of a line makes the answer independent of the record. -/
theorem lineAnswer_line {events : List DwstEvent} (he : events.any DwstEvent.isLine = true)
    (info : DwarfLineInfo) (disp : Option DWORD) (l : Line WCHAR) :
    lineAnswer (some events) info disp l = lineAnswer (some events) {} disp l := by
  simp only [lineAnswer,dwarf_find_line_line he info]

/-- Without one the answer is what the record held. -/
theorem lineAnswer_status {events : List DwstEvent} (he : events.any DwstEvent.isLine = false)
    (info : DwarfLineInfo) (disp : Option DWORD) (l : Line WCHAR) :
    (lineAnswer (some events) info disp l).1 = none ↔ info.filename = [] := by
  simp [lineAnswer,dwarf_find_line_status he info]

theorem lineLookup_step (hw : w.Steady) {c : LineLookup}
    (hs : s.step e (c.request w) = some s') :
    SameSources e w s'.registry s.registry ∧
      s'.info = ((c.events e w s).getD []).foldl find_line_cbW s.info := by
  simp only [MgwHelp.step,LineLookup.request,MgwSymGetLineFromAddrW64,ownLine_eq,
    Option.map_map,Option.map_eq_some_iff,Function.comp_apply] at hs
  obtain ⟨⟨found,registry⟩,hf,rfl⟩ := hs
  constructor
  · simp only [mgwhelp_find_module] at hf
    split at hf
    · obtain ⟨-,rfl⟩ := by simpa using hf
      exact fun _ _ => rfl
    · obtain ⟨⟨o,r⟩,hl,hx⟩ := Option.map_eq_some_iff.mp hf
      obtain ⟨-,rfl⟩ := Prod.mk.inj hx
      exact module_lookup_sameSources hw hl
  · rw [lineAnswer_record,LineLookup.events,reported,hf]
    rfl

/-- The record after a run is what the reports to its calls have made of it, each
report the same as to a first call. -/
theorem lineLookup_run (hw : w.Steady) {cs : List LineLookup}
    (hs : (mgwhelp e).after (some s₀) (cs.map (·.request w)) = some s) :
    SameSources e w s.registry s₀.registry ∧
      s.info = (LineLookup.history e w s₀ cs).foldl find_line_cbW s₀.info := by
  induction cs using List.reverseRecOn generalizing s with
  | nil =>
    obtain rfl : s₀ = s := by simpa using hs
    exact ⟨fun _ _ => rfl,rfl⟩
  | append_singleton cs c ih =>
    rw [List.map_append] at hs
    obtain ⟨s₁,hs₁,hstep⟩ := Machine.ofPartial_concat.mp hs
    obtain ⟨hr₁,hi₁⟩ := ih hs₁
    obtain ⟨hr,hi⟩ := lineLookup_step hw hstep
    refine ⟨fun h base => (hr h base).trans (hr₁ h base),?_⟩
    have he : c.events e w s₁ = c.events e w s₀ := by
      simp only [LineLookup.events,reported_sameSources _ _ hr₁]
    rw [hi,he,hi₁]
    simp [LineLookup.history]

namespace LineLookup

variable {c : LineLookup} {found : Option (List DwstEvent)}

theorem passedOn_iff (hx : reported e w c.hProcess c.dwAddr s.registry = some found) :
    c.PassedOn e w s ↔ (lineAnswer found s.info c.pdwDisplacement c.Line).1 = none := by
  simp [PassedOn,ownLine_reported,hx]

/-- With the same reports and the same answer to them a call is as the first one. -/
theorem asFirst_of_answer (hx : reported e w c.hProcess c.dwAddr s.registry = some found)
    (hx₀ : reported e w c.hProcess c.dwAddr s₀.registry = some found)
    (h₀ : s₀.info = {})
    (ha : (lineAnswer found s.info c.pdwDisplacement c.Line).1 =
      (lineAnswer found {} c.pdwDisplacement c.Line).1) : c.AsFirst e w s₀ s := by
  constructor
  · simp only [reply,getLine_reported,hx,hx₀,h₀,Option.map_some,ha]
  · intro x hx' hnoline
    obtain rfl : found = x := Option.some.inj (hx₀.symm.trans hx')
    rw [passedOn_iff hx,ha]
    cases found with
    | none => rfl
    | some events => exact (lineAnswer_status hnoline {} _ _).mpr rfl

/-- A file name in the record is answered where no line is reported. -/
theorem AsFirst.filename_nil {events : List DwstEvent} (h : c.AsFirst e w s₀ s)
    (hx : reported e w c.hProcess c.dwAddr s.registry = some (some events))
    (hx₀ : reported e w c.hProcess c.dwAddr s₀.registry = some (some events))
    (hnoline : events.any DwstEvent.isLine = false) : s.info.filename = [] :=
  (lineAnswer_status hnoline _ _ _).mp ((passedOn_iff hx).mp (h.passed _ hx₀ hnoline))

end LineLookup

/-- A line lookup gives what it would give as the first one exactly if it is not the
case that it finds the file name of an earlier one in the record. -/
theorem line_as_first_iff (e : Environment) (w : World) (hw : w.Steady) (s₀ s : MgwHelp)
    (h₀ : s₀.info = {}) (cs : List LineLookup) (c : LineLookup)
    (hs : (mgwhelp e).after (some s₀) (cs.map (·.request w)) = some s) :
    c.AsFirst e w s₀ s ↔ c.NotStale e w s₀ cs := by
  obtain ⟨hr,hi⟩ := lineLookup_run hw hs
  have hreported := reported_sameSources c.hProcess c.dwAddr hr
  have hname : s.info.filename = lastFileName (LineLookup.history e w s₀ cs) := by
    rw [hi,h₀,foldl_find_line_filename]
  cases hx : reported e w c.hProcess c.dwAddr s₀.registry with
  | none =>
    have hstale : c.NotStale e w s₀ cs := by
      intro events hevents
      simp [LineLookup.events,hx] at hevents
    refine iff_of_true ⟨?_,fun x hx' => by simp [hx] at hx'⟩ hstale
    simp only [LineLookup.reply,getLine_reported,hreported,hx,Option.map_none]
  | some found =>
    have hevents : c.events e w s₀ = found := by simp [LineLookup.events,hx]
    constructor
    · intro hfirst events he hnoline
      obtain rfl : found = some events := hevents.symm.trans he
      exact hname.symm.trans (hfirst.filename_nil (hreported.trans hx) hx hnoline)
    · intro hfresh
      refine LineLookup.asFirst_of_answer (hreported.trans hx) hx h₀ ?_
      cases found with
      | none => rfl
      | some events =>
        cases hline : events.any DwstEvent.isLine with
        | true => rw [lineAnswer_line hline]
        | false =>
          have hempty := hname.trans (hfresh events hevents hline)
          rw [(lineAnswer_status hline _ _ _).mpr hempty,
            (lineAnswer_status hline {} _ _).mpr rfl]

/-- A program with debug information that knows the line of one address. -/
def debugEnvironment : Environment :=
  { bareEnvironment with
    dwstOfDwarfDebugW _ _ _ _ addr :=
      if addr = 0x400010 then [.line addr (some [109,46,99]) 12 []] else [.status .DWST_NOT_FOUND] }

def debugWorld : World :=
  { bareWorld with
    GetModuleFileNameExW _ _ := some [97]
    dwarf_object_init_b _ _ := true }

theorem debugWorld_steady : debugWorld.Steady := ⟨fun _ _ _ => rfl,fun _ _ _ => rfl⟩

/-- After the initialisation for process 1. -/
def debugStart : MgwHelp :=
  (mgwhelpAfter debugEnvironment [⟨.SymInitialize 1,debugWorld,bareDbgHelp⟩]).getD {}

def lookAt (dwAddr : DWORD64) : LineLookup := ⟨1,dwAddr,some 0,{},bareDbgHelp⟩

/-- The state after lookups of the lines of some addresses. -/
def debugAfter (addrs : List DWORD64) : MgwHelp :=
  ((mgwhelp debugEnvironment).after (some debugStart)
    ((addrs.map lookAt).map (·.request debugWorld))).getD {}

theorem line_as_first_known_line :
    (lookAt 0x400010).AsFirst debugEnvironment debugWorld debugStart
      (debugAfter [0x400020,0x400010]) :=
  (line_as_first_iff debugEnvironment debugWorld debugWorld_steady debugStart
    (debugAfter [0x400020,0x400010]) rfl ([0x400020,0x400010].map lookAt) (lookAt 0x400010)
    rfl).mpr (by decide)

/-- An address without a line gets that of the address looked up before. -/
theorem unknown_line_repeats_last :
    ¬ ∀ (e : Environment) (w : World), w.Steady → ∀ (s₀ s : MgwHelp), s₀.info = {} →
      ∀ (cs : List LineLookup) (c : LineLookup),
      (mgwhelp e).after (some s₀) (cs.map (·.request w)) = some s → c.AsFirst e w s₀ s := by
  intro hall
  have hfirst := hall debugEnvironment debugWorld debugWorld_steady debugStart
    (debugAfter [0x400010]) rfl [lookAt 0x400010] (lookAt 0x400020) rfl
  exact absurd hfirst.same (by decide)

end DrMingw
