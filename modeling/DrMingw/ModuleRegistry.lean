import DrMingw.DwarfPe

/-! The registry of `MgwHelp`: the processes it has been initialised for, each with
the modules whose image files it has mapped. -/
namespace DrMingw
open PeImage

/-- `mgwhelp_module`. The view stays mapped, so `image` is what it shows. -/
structure Module where
  memory : Resource
  Base : DWORD64
  LoadedImageName : List WCHAR
  hFileMapping : Resource
  lpFileBase : Resource
  nFileSize : ℕ
  image_base_vma : DWORD64
  /-- `dwarf.dbg`. -/
  dbg : Option DwarfDebug
  file : FileId
  image : Image

/-- `mgwhelp_process`. -/
structure Process where
  memory : Resource
  hProcess : HANDLE
  modules : List Module

/-- The global list `processes`, and the system it takes its resources from. -/
structure Registry where
  processes : List Process := []
  kernel : Kernel := {}

/-- What the system tells about the address space of a process. -/
structure AddressSpaces where
  GetModuleFileNameExW : HANDLE → DWORD64 → Option (List WCHAR)
  GetCurrentProcess : HANDLE
  GetModuleHandleExW : DWORD64 → Option DWORD64
  /-- `AllocationBase` of the region an address lies in. -/
  VirtualQueryEx : HANDLE → DWORD64 → Option DWORD64
  SymGetModuleBase64 : HANDLE → DWORD64 → DWORD64

/-- Everything one call of `MgwHelp` asks of the system. -/
structure World extends FileSystem, AddressSpaces

/-- What does not change from call to call. -/
structure Setting where
  build : Build := {}
  codePages : CodePages
  /-- Nested calls of `mgwhelp_dwarf_pe_init` the stack has room for. -/
  depth : ℕ

/-- A cast to `UINT_PTR`. -/
def Build.uintPtr (b : Build) (a : DWORD64) : DWORD64 := if b.win64 then a else a &&& 0xFFFFFFFF

variable (e : Setting) (w : World)

def GetModuleBase (hProcess : HANDLE) (dwAddress : DWORD64) : DWORD64 :=
  let own := if hProcess = w.GetCurrentProcess then
      w.GetModuleHandleExW (e.build.uintPtr dwAddress)
    else none
  match own with
  | some hModule => hModule
  | none =>
    match w.VirtualQueryEx hProcess (e.build.uintPtr dwAddress) with
    | some AllocationBase => AllocationBase
    | none => w.SymGetModuleBase64 hProcess dwAddress

/-- `LoadedImageName`, cut to `MAX_PATH` characters with the NUL. -/
def loadedImageName (hProcess : HANDLE) (ImageName : Option (List WCHAR)) (Base : DWORD64) :
    Option (List WCHAR) :=
  match ImageName with
  | some name => some (name.take (MAX_PATH - 1))
  | none => w.GetModuleFileNameExW hProcess (e.build.uintPtr Base)

/-- The part of `mgwhelp_module_create` that maps an opened file. -/
def mapModule (memory : Resource) (Base : DWORD64) (name : List WCHAR) (file : FileId)
    (k : Kernel) : Option (Option Module × Kernel) :=
  match k.acquire w.toFileSystem (.CreateFileMapping file) with
  | (none,k) => some (none,k)
  | (some hFileMapping,k) =>
  match k.acquire w.toFileSystem (.MapViewOfFile file) with
  | (none,k) => some (none,k.release hFileMapping)
  | (some lpFileBase,k) =>
  match fileSize e.build (w.contents file), PEGetImageBase e.build (w.contents file) with
  | some nFileSize,some image_base_vma =>
    (mgwhelp_dwarf_pe_init e.build e.codePages w.toFileSystem e.depth file name k).map fun r =>
      (some ⟨memory,Base,name,hFileMapping,lpFileBase,nFileSize,image_base_vma,r.1,file,
        w.contents file⟩,r.2)
  | _,_ => none

/-- The label `no_module_name`, or the module if there is one. -/
def keepOrFree (memory : Resource) (r : Option Module × Kernel) : Option Module × Kernel :=
  match r.1 with
  | some module => (some module,r.2)
  | none => (none,r.2.release memory)

/-- The module is linked to the process by the caller, `mgwhelp_module_lookup`. -/
def mgwhelp_module_create (hProcess hFile : HANDLE) (ImageName : Option (List WCHAR))
    (Base : DWORD64) (k : Kernel) : Option (Option Module × Kernel) :=
  match k.acquire w.toFileSystem .calloc with
  | (none,k) => some (none,k)
  | (some memory,k) =>
  match loadedImageName e w hProcess ImageName Base with
  | none => some (none,k.release memory)
  | some name =>
    if hFile ≠ NULL then
      (mapModule e w memory Base name (w.fileOf hFile) k).map (keepOrFree memory)
    else
      match k.acquire w.toFileSystem (.CreateFileW name) with
      | (none,k) => some (none,k.release memory)
      | (some ownFile,k) => (mapModule e w memory Base name (w.fileAt name) k).map fun r =>
          keepOrFree memory (r.1,r.2.release ownFile)

def mgwhelp_module_destroy (module : Module) (k : Kernel) : Kernel :=
  let k := match module.dbg with
    | none => k
    | some dbg => mgwhelp_dwarf_pe_finish dbg k
  (k.release module.lpFileBase).release module.memory

def mgwhelp_process_lookup (processes : List Process) (hProcess : HANDLE) : Option Process :=
  processes.find? fun p => p.hProcess = hProcess

/-- `process->modules = module` for the process found for the handle. -/
def linkModule (hProcess : HANDLE) (module : Module) : List Process → List Process
  | [] => []
  | p::ps =>
    if p.hProcess = hProcess then { p with modules := module::p.modules } :: ps
    else p :: linkModule hProcess module ps

def mgwhelp_module_lookup (hProcess hFile : HANDLE) (ImageName : Option (List WCHAR))
    (Base : DWORD64) (s : Registry) : Option (Option Module × Registry) :=
  match mgwhelp_process_lookup s.processes hProcess with
  | none => some (none,s)
  | some process =>
    match process.modules.find? fun m => m.Base = Base with
    | some module => some (some module,s)
    | none =>
      (mgwhelp_module_create e w hProcess hFile ImageName Base s.kernel).map fun r =>
        match r.1 with
        | none => (none,{ s with kernel := r.2 })
        | some module => (some module,⟨linkModule hProcess module s.processes,r.2⟩)

/-- The module an address lies in, with the offset of the address in the image. -/
def mgwhelp_find_module (hProcess : HANDLE) (Address : DWORD64) (s : Registry) :
    Option (Option (Module × DWORD64) × Registry) :=
  let Base := GetModuleBase e w hProcess Address
  if Base = 0 then some (none,s)
  else
    (mgwhelp_module_lookup e w hProcess 0 none Base s).map fun r =>
      (r.1.map fun module => (module,module.image_base_vma + Address - module.Base),r.2)

def mgwhelp_initialize (hProcess : HANDLE) (s : Registry) : Registry :=
  match s.kernel.acquire w.toFileSystem .calloc with
  | (none,k) => { s with kernel := k }
  | (some memory,k) => ⟨⟨memory,hProcess,[]⟩::s.processes,k⟩

/-- The walk of `MgwSymCleanup` through the links up to the process of the handle. -/
def unlinkProcess (hProcess : HANDLE) : List Process → Kernel → List Process × Kernel
  | [], k => ([],k)
  | p::ps, k =>
    if p.hProcess = hProcess then
      (ps,(p.modules.foldl (fun k m => mgwhelp_module_destroy m k) k).release p.memory)
    else
      let r := unlinkProcess hProcess ps k
      (p::r.1,r.2)

/-- The file a module is brought in from. -/
def imageFile (hProcess hFile : HANDLE) (ImageName : Option (List WCHAR)) (Base : DWORD64) :
    Option FileId :=
  if hFile ≠ NULL then some (w.fileOf hFile)
  else (loadedImageName e w hProcess ImageName Base).map w.fileAt

/-- The allocation, naming, opening and mapping steps of `mgwhelp_module_create` all
succeed, attempts being numbered from `n`. -/
def stepsSucceed (hProcess hFile : HANDLE) (ImageName : Option (List WCHAR)) (Base : DWORD64)
    (n : ℕ) : Bool :=
  w.succeeds .calloc n &&
    match loadedImageName e w hProcess ImageName Base with
    | none => false
    | some name =>
      if hFile ≠ NULL then
        w.succeeds (.CreateFileMapping (w.fileOf hFile)) (n + 1) &&
          w.succeeds (.MapViewOfFile (w.fileOf hFile)) (n + 2)
      else
        w.succeeds (.CreateFileW name) (n + 1) &&
          (w.succeeds (.CreateFileMapping (w.fileAt name)) (n + 2) &&
            w.succeeds (.MapViewOfFile (w.fileAt name)) (n + 3))

variable {e w} {hProcess hFile : HANDLE} {ImageName : Option (List WCHAR)} {Base : DWORD64}
  {k k' : Kernel} {m : Module} {s s' : Registry} {o : Option Module}

theorem mapModule_some {memory : Resource} {name : List WCHAR} {file : FileId}
    (h : mapModule e w memory Base name file k = some (some m,k')) :
    m.Base = Base ∧ m.file = file := by
  simp only [mapModule] at h
  split at h
  · simp at h
  · split at h
    · simp at h
    · split at h
      · obtain ⟨x,-,hx⟩ := Option.map_eq_some_iff.mp h
        simp only [Prod.mk.injEq,Option.some.injEq] at hx
        obtain ⟨rfl,-⟩ := hx
        exact ⟨rfl,rfl⟩
      · simp at h

theorem mapModule_isSome {memory : Resource} {name : List WCHAR} {file : FileId}
    (h : mapModule e w memory Base name file k = some (o,k')) :
    o.isSome = (w.succeeds (.CreateFileMapping file) k.clock &&
      w.succeeds (.MapViewOfFile file) (k.clock + 1)) := by
  simp only [mapModule] at h
  rcases h₁ : k.acquire w.toFileSystem (.CreateFileMapping file) with ⟨_ | hFileMapping,k₁⟩
  · simp only [h₁] at h
    obtain ⟨rfl,-⟩ := by simpa using h
    simp [acquire_none h₁]
  obtain ⟨-,hs,hclock⟩ := acquire_kind h₁
  simp only [h₁] at h
  rcases h₂ : k₁.acquire w.toFileSystem (.MapViewOfFile file) with ⟨_ | lpFileBase,k₂⟩
  · simp only [h₂] at h
    obtain ⟨rfl,-⟩ := by simpa using h
    have hn := acquire_none h₂
    rw [hclock] at hn
    simp [hn]
  have hs₂ := (acquire_kind h₂).2.1
  rw [hclock] at hs₂
  simp only [h₂] at h
  split at h
  · obtain ⟨x,-,hx⟩ := Option.map_eq_some_iff.mp h
    obtain ⟨rfl,-⟩ := Prod.mk.inj hx
    simp [hs,hs₂]
  · simp at h

theorem keepOrFree_fst (memory : Resource) (r : Option Module × Kernel) :
    (keepOrFree memory r).1 = r.1 := by
  simp only [keepOrFree]
  split
  · next hr => exact hr.symm
  · next hr => exact hr.symm

theorem keepOrFree_some {memory : Resource} {r : Option Module × Kernel}
    (h : keepOrFree memory r = (some m,k')) : r.1 = some m := by
  simp only [keepOrFree] at h
  split at h
  · next hr => rw [hr,(Prod.mk.inj h).1]
  · simp at h

theorem module_create_some
    (h : mgwhelp_module_create e w hProcess hFile ImageName Base k = some (some m,k')) :
    m.Base = Base ∧ imageFile e w hProcess hFile ImageName Base = some m.file := by
  simp only [mgwhelp_module_create] at h
  split at h
  · simp at h
  · split at h
    · simp at h
    · next name hname =>
      split at h
      · next hf =>
        obtain ⟨x,hx,hk⟩ := Option.map_eq_some_iff.mp h
        have ho : x.1 = some m := keepOrFree_some hk
        obtain ⟨hb,hfile⟩ := mapModule_some (hx.trans (congrArg some (Prod.ext ho rfl)))
        simp [hb,hfile,imageFile,hf]
      · next hf =>
        split at h
        · simp at h
        · obtain ⟨x,hx,hk⟩ := Option.map_eq_some_iff.mp h
          have hm := keepOrFree_some hk
          have ho : x.1 = some m := hm
          obtain ⟨hb,hfile⟩ := mapModule_some (hx.trans (congrArg some (Prod.ext ho rfl)))
          simp [hb,hfile,imageFile,hf,hname]

theorem module_create_isSome
    (h : mgwhelp_module_create e w hProcess hFile ImageName Base k = some (o,k')) :
    o.isSome = stepsSucceed e w hProcess hFile ImageName Base k.clock := by
  simp only [mgwhelp_module_create] at h
  simp only [stepsSucceed]
  rcases h₁ : k.acquire w.toFileSystem .calloc with ⟨_ | memory,k₁⟩
  · simp only [h₁] at h
    obtain ⟨rfl,-⟩ := by simpa using h
    simp [acquire_none h₁]
  obtain ⟨-,hs,hclock⟩ := acquire_kind h₁
  simp only [h₁] at h
  cases hname : loadedImageName e w hProcess ImageName Base with
  | none =>
    simp only [hname] at h
    obtain ⟨rfl,-⟩ := by simpa using h
    simp
  | some name =>
    simp only [hname] at h
    by_cases hf : hFile ≠ NULL
    · rw [if_pos hf] at h
      obtain ⟨x,hx,hk⟩ := Option.map_eq_some_iff.mp h
      have ho : x.1 = o := (keepOrFree_fst memory x).symm.trans (congrArg Prod.fst hk)
      rw [← ho,mapModule_isSome hx,hclock]
      simp [hs,hf]
    · rw [if_neg hf] at h
      rcases h₂ : k₁.acquire w.toFileSystem (.CreateFileW name) with ⟨_ | ownFile,k₂⟩
      · simp only [h₂] at h
        obtain ⟨rfl,-⟩ := by simpa using h
        have hn := acquire_none h₂
        rw [hclock] at hn
        simp [hn,hf]
      obtain ⟨-,hs₂,hclock₂⟩ := acquire_kind h₂
      rw [hclock] at hs₂
      simp only [h₂] at h
      obtain ⟨x,hx,hk⟩ := Option.map_eq_some_iff.mp h
      have ho : x.1 = o :=
        (keepOrFree_fst memory (x.1,x.2.release ownFile)).symm.trans (congrArg Prod.fst hk)
      rw [← ho,mapModule_isSome hx,hclock₂,hclock]
      simp [hs,hs₂,hf]

/-- How a search ends: no process, a listed module, or an attempt to create one. -/
theorem module_lookup_cases
    (h : mgwhelp_module_lookup e w hProcess hFile ImageName Base s = some (o,s')) :
    (mgwhelp_process_lookup s.processes hProcess = none ∧ o = none ∧ s' = s) ∨
    ∃ p, mgwhelp_process_lookup s.processes hProcess = some p ∧
      ((∃ m, p.modules.find? (fun m => m.Base = Base) = some m ∧ o = some m ∧ s' = s) ∨
      ∃ k, p.modules.find? (fun m => m.Base = Base) = none ∧
        mgwhelp_module_create e w hProcess hFile ImageName Base s.kernel = some (o,k) ∧
        s' = ⟨o.elim s.processes fun m => linkModule hProcess m s.processes,k⟩) := by
  simp only [mgwhelp_module_lookup] at h
  split at h
  · next hp =>
    obtain ⟨rfl,rfl⟩ := by simpa using h
    exact .inl ⟨hp,rfl,rfl⟩
  · next p hp =>
    refine .inr ⟨p,hp,?_⟩
    split at h
    · next m hm =>
      obtain ⟨rfl,rfl⟩ := by simpa using h
      exact .inl ⟨m,hm,rfl,rfl⟩
    · next hm =>
      obtain ⟨⟨o',k⟩,hc,hx⟩ := Option.map_eq_some_iff.mp h
      cases o' with
      | none =>
        obtain ⟨rfl,rfl⟩ := Prod.mk.inj hx
        exact .inr ⟨k,hm,hc,rfl⟩
      | some m =>
        obtain ⟨rfl,rfl⟩ := Prod.mk.inj hx
        exact .inr ⟨k,hm,hc,rfl⟩

theorem process_lookup_some {ps : List Process} {p : Process}
    (h : mgwhelp_process_lookup ps hProcess = some p) : p ∈ ps ∧ p.hProcess = hProcess :=
  ⟨List.mem_of_find?_eq_some h,by simpa using List.find?_some h⟩

/-- A search finds a module at the base it asks for. -/
theorem module_lookup_base
    (h : mgwhelp_module_lookup e w hProcess hFile ImageName Base s = some (some m,s')) :
    m.Base = Base := by
  rcases module_lookup_cases h with ⟨-,ho,-⟩ | ⟨p,-,⟨m',hm,ho,-⟩ | ⟨k,-,hc,-⟩⟩
  · simp at ho
  · obtain rfl := Option.some.inj ho
    simpa using List.find?_some hm
  · exact (module_create_some hc).1

/-- A search that brings in no module leaves the list as it was. -/
theorem module_lookup_none
    (h : mgwhelp_module_lookup e w hProcess hFile ImageName Base s = some (none,s')) :
    s'.processes = s.processes := by
  rcases module_lookup_cases h with ⟨-,-,rfl⟩ | ⟨p,-,⟨m',-,ho,-⟩ | ⟨k,-,-,rfl⟩⟩
  · rfl
  · simp at ho
  · rfl

theorem find_module_base {Address Offset : DWORD64}
    (h : mgwhelp_find_module e w hProcess Address s = some (some (m,Offset),s')) :
    m.Base = GetModuleBase e w hProcess Address := by
  unfold mgwhelp_find_module at h
  dsimp only at h
  split at h
  · simp at h
  · obtain ⟨⟨o,s₁⟩,hl,hx⟩ := Option.map_eq_some_iff.mp h
    obtain ⟨ho,-⟩ := Prod.mk.inj hx
    obtain ⟨m',rfl,hm⟩ := Option.map_eq_some_iff.mp ho
    obtain ⟨rfl,-⟩ := Prod.mk.inj hm
    exact module_lookup_base hl

end DrMingw
