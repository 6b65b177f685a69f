import DrMingw.MgwHelp

/-! The registry of `MgwHelp` stays well formed over all runs: at most one node for
each handle, at most one module for each base. -/
namespace DrMingw
open PeImage

/-- At most one process for each handle, at most one module for each base, and
none at base 0. -/
structure WellFormed (ps : List Process) : Prop where
  handles : (ps.map (·.hProcess)).Nodup
  bases : ∀ p ∈ ps, (p.modules.map (·.Base)).Nodup
  nonzero : ∀ p ∈ ps, ∀ m ∈ p.modules, m.Base ≠ 0

variable {e : Environment} {w : World} {h : HANDLE} {m : Module} {ps : List Process}
  {r r' : Registry} {s s' : MgwHelp} {q : Request} {qs : List Request}

theorem wellFormed_nil : WellFormed [] := ⟨List.nodup_nil,by simp,by simp⟩

theorem linkModule_handles (h : HANDLE) (m : Module) (ps : List Process) :
    (linkModule h m ps).map (·.hProcess) = ps.map (·.hProcess) := by
  induction ps with
  | nil => rfl
  | cons p ps ih =>
    simp only [linkModule]
    split
    · rfl
    · simp [ih]

theorem process_lookup_link {h : HANDLE} (h' : HANDLE) (m : Module) (ps : List Process) :
    mgwhelp_process_lookup (linkModule h' m ps) h =
      if h = h' then
        (mgwhelp_process_lookup ps h).map fun p => { p with modules := m::p.modules }
      else mgwhelp_process_lookup ps h := by
  induction ps with
  | nil => simp [linkModule,mgwhelp_process_lookup]
  | cons p ps ih =>
    by_cases hp : p.hProcess = h'
    · by_cases hh : h = h'
      · simp [linkModule,mgwhelp_process_lookup,hp,hh]
      · have hne : h' ≠ h := fun he => hh he.symm
        simp [linkModule,mgwhelp_process_lookup,hp,hh,hne]
    · by_cases hh : p.hProcess = h
      · have hne : h ≠ h' := fun he => hp (hh.trans he)
        simp [linkModule,mgwhelp_process_lookup,hh,hne]
      · simpa [linkModule,mgwhelp_process_lookup,hp,hh] using ih

/-- Linking changes the process the handle finds, and no other. -/
theorem mem_linkModule {p' : Process} (hp : p' ∈ linkModule h m ps) :
    p' ∈ ps ∨ ∃ p, mgwhelp_process_lookup ps h = some p ∧
      p' = { p with modules := m::p.modules } := by
  induction ps with
  | nil => simp [linkModule] at hp
  | cons p ps ih =>
    simp only [linkModule] at hp
    by_cases hh : p.hProcess = h
    · rw [if_pos hh,List.mem_cons] at hp
      rcases hp with rfl | hp
      · exact .inr ⟨p,by simp [mgwhelp_process_lookup,hh],rfl⟩
      · exact .inl (List.mem_cons_of_mem p hp)
    · rw [if_neg hh,List.mem_cons] at hp
      rcases hp with rfl | hp
      · exact .inl List.mem_cons_self
      · refine (ih hp).imp (List.mem_cons_of_mem p) ?_
        rintro ⟨p₀,hl,he⟩
        exact ⟨p₀,by simpa [mgwhelp_process_lookup,hh] using hl,he⟩

theorem WellFormed.link (hw : WellFormed ps) (hb : m.Base ≠ 0) {p : Process}
    (hp : mgwhelp_process_lookup ps h = some p)
    (hm : p.modules.find? (fun x => x.Base = m.Base) = none) :
    WellFormed (linkModule h m ps) := by
  refine ⟨by rw [linkModule_handles]; exact hw.handles,fun p' hp' => ?_,fun p' hp' => ?_⟩
  · rcases mem_linkModule hp' with hin | ⟨p₀,hp₀,rfl⟩
    · exact hw.bases p' hin
    · obtain rfl : p = p₀ := Option.some.inj (hp.symm.trans hp₀)
      have hnew : m.Base ∉ p.modules.map (·.Base) := by
        simpa [List.find?_eq_none] using hm
      simpa using ⟨by simpa using hnew,hw.bases p (process_lookup_some hp).1⟩
  · rcases mem_linkModule hp' with hin | ⟨p₀,hp₀,rfl⟩
    · exact hw.nonzero p' hin
    · obtain rfl : p = p₀ := Option.some.inj (hp.symm.trans hp₀)
      intro x hx
      rcases List.mem_cons.mp hx with rfl | hx
      · exact hb
      · exact hw.nonzero p (process_lookup_some hp).1 x hx

/-- With one node for each handle, `MgwSymCleanup` takes out that node only. -/
theorem unlinkProcess_eq_filter (hn : (ps.map (·.hProcess)).Nodup) (k : Kernel) :
    (unlinkProcess h ps k).1 = ps.filter fun p => p.hProcess ≠ h := by
  induction ps with
  | nil => rfl
  | cons p ps ih =>
    simp only [List.map_cons,List.nodup_cons] at hn
    simp only [unlinkProcess]
    by_cases hh : p.hProcess = h
    · have hrest : ∀ p' ∈ ps, p'.hProcess ≠ h := by
        rintro p' hp' rfl
        exact hn.1 (hh ▸ List.mem_map_of_mem hp')
      rw [if_pos hh,List.filter_cons_of_neg (by simp [hh]),List.filter_eq_self.mpr]
      simpa using hrest
    · rw [if_neg hh,List.filter_cons_of_pos (by simp [hh]),← ih hn.2]

theorem WellFormed.sublist (hw : WellFormed ps) {ps' : List Process} (hs : ps'.Sublist ps) :
    WellFormed ps' :=
  ⟨hw.handles.sublist (hs.map _),fun p hp => hw.bases p (hs.subset hp),
    fun p hp => hw.nonzero p (hs.subset hp)⟩

/-- The handles in the list after an effect. -/
def Effect.handles (hs : List HANDLE) : Effect → List HANDLE
  | .nothing | .search _ => hs
  | .start h => h::hs
  | .cleanup h => hs.filter (· ≠ h)

/-- One call keeps the registry well formed, as long as no handle is initialised twice. -/
theorem wellFormed_apply {f : Effect} (hw : WellFormed r.processes)
    (ha : f.apply e w r = some r') (hbase : ∀ m, f = .search m → m.Base ≠ 0)
    (hinit : ∀ h, f = .start h → h ∉ r.processes.map (·.hProcess)) :
    WellFormed r'.processes ∧
      r'.processes.map (·.hProcess) ⊆ f.handles (r.processes.map (·.hProcess)) := by
  cases f with
  | nothing =>
    obtain rfl := by simpa [Effect.apply] using ha
    exact ⟨hw,List.Subset.refl _⟩
  | start h =>
    obtain rfl := by simpa [Effect.apply] using ha
    simp only [ mgwhelp_initialize]
    split
    · exact ⟨hw,List.subset_cons_self _ _⟩
    · refine ⟨⟨?_,?_,?_⟩,List.Subset.refl _⟩
      · exact List.nodup_cons.mpr ⟨hinit h rfl,hw.handles⟩
      · rintro p (_ | ⟨_,hp⟩)
        · exact List.nodup_nil
        · exact hw.bases p hp
      · rintro p (_ | ⟨_,hp⟩)
        · simp
        · exact hw.nonzero p hp
  | search x =>
    obtain ⟨⟨o,r₁⟩,hl,rfl⟩ := Option.map_eq_some_iff.mp ha
    rcases module_lookup_cases hl with ⟨-,-,rfl⟩ | ⟨p,hp,⟨m,-,-,rfl⟩ | ⟨k,hm,hc,rfl⟩⟩
    · exact ⟨hw,List.Subset.refl _⟩
    · exact ⟨hw,List.Subset.refl _⟩
    · cases o with
      | none => exact ⟨hw,List.Subset.refl _⟩
      | some m =>
        have hb : m.Base = x.Base := (module_create_some hc).1
        refine ⟨hw.link (hb ▸ hbase x rfl) hp (by rw [hb]; exact hm),?_⟩
        simp [linkModule_handles,Effect.handles]
  | cleanup h =>
    obtain rfl := by simpa [Effect.apply] using ha
    dsimp only
    rw [unlinkProcess_eq_filter hw.handles]
    refine ⟨hw.sublist List.filter_sublist,?_⟩
    intro x hx
    obtain ⟨p,hp,rfl⟩ := List.mem_map.mp hx
    obtain ⟨hin,hne⟩ := List.mem_filter.mp hp
    exact List.mem_filter.mpr ⟨List.mem_map_of_mem hin,hne⟩

/-- The handles `DbgHelp` is initialised for after a call. -/
def initialisedAfter (known : HANDLE → Bool) (q : Request) : HANDLE → Bool :=
  match q.call with
  | .SymInitialize h =>
    if q.dbghelp.SymInitialize h then Function.update known h true else known
  | .SymInitializeW h =>
    if q.dbghelp.SymInitializeW h then Function.update known h true else known
  | .SymCleanup h => if q.dbghelp.SymCleanup h then Function.update known h false else known
  | _ => known

def initialised (qs : List Request) : HANDLE → Bool := qs.foldl initialisedAfter fun _ => false

/-- `SymInitialize` fails for a handle that is already initialised. -/
def RejectsInitialised (e : Environment) (pre : List Request) (q : Request) : Prop :=
  ∀ h, q.effect e = .start h → initialised pre h = false

theorem initialised_concat (qs : List Request) (q : Request) :
    initialised (qs ++ [q]) = initialisedAfter (initialised qs) q := by
  simp [initialised]

/-- `DbgHelp` is initialised for every handle the list keeps. -/
theorem handles_initialised {known : HANDLE → Bool} {hs : List HANDLE}
    (hk : ∀ h ∈ hs, known h = true) :
    ∀ h ∈ (q.effect e).handles hs, initialisedAfter known q h = true := by
  have hinit (ret : Bool) (h₀ : HANDLE) :
      ∀ h ∈ (if ret then Effect.start h₀ else .nothing).handles hs,
        (if ret then Function.update known h₀ true else known) h = true := by
    intro h hh
    cases ret with
    | false => exact hk h hh
    | true =>
      by_cases he : h = h₀
      · simp [he]
      · have hh' : h ∈ hs := by simpa [Effect.handles,he] using hh
        simp [he,hk h hh']
  have hsearch (x : ModuleSearch) : (searchAt x).handles hs = hs := by
    simp only [searchAt]
    split <;> rfl
  simp only [Request.effect,initialisedAfter]
  cases q.call with
  | SymInitialize h => exact hinit _ h
  | SymInitializeW h => exact hinit _ h
  | SymCleanup h₀ =>
    intro h hh
    obtain ⟨hin,hne⟩ : h ∈ hs ∧ h ≠ h₀ := by simpa [Effect.handles] using hh
    dsimp only
    split <;> simp [hne,hk h hin]
  | SymUnloadModule64 => exact hk
  | SymLoadModuleEx | SymLoadModuleExW | SymFromAddr | SymFromAddrW | SymGetLineFromAddr64
  | SymGetLineFromAddrW64 =>
    intro h hh
    simp only [hsearch] at hh
    exact hk h hh

/-- The registry is well formed and lists initialised processes only, provided that
no initialisation of the run succeeds twice. -/
def WellFormedAfter (e : Environment) (qs : List Request) (s : MgwHelp) : Prop :=
  Machine.AtEach (RejectsInitialised e) qs → WellFormed s.registry.processes ∧
    ∀ h ∈ s.registry.processes.map (·.hProcess), initialised qs h = true

theorem wellFormed_step (hw : WellFormedAfter e qs s) (hstep : s.step e q = some s') :
    WellFormedAfter e (qs ++ [q]) s' := by
  intro hr
  obtain ⟨hr,hq⟩ := Machine.atEach_concat.mp hr
  obtain ⟨hw,hk⟩ := hw hr
  have hnew : ∀ h, q.effect e = .start h → h ∉ s.registry.processes.map (·.hProcess) := by
    intro h hh hin
    have hf := hq h hh
    rw [hk h hin] at hf
    simp at hf
  obtain ⟨hw',hsub⟩ := wellFormed_apply hw (step_effect hstep) (fun _ => effect_search) hnew
  refine ⟨hw',fun h hh => ?_⟩
  rw [initialised_concat]
  exact handles_initialised hk h (hsub hh)

theorem wellFormed_run (hs : mgwhelpAfter e qs = some s) : WellFormedAfter e qs s :=
  Machine.ofPartial_run (fun _ => ⟨wellFormed_nil,by simp⟩)
    (fun _ _ _ _ _ hw hstep => wellFormed_step hw hstep) hs

/-- In every state reached the registry is well formed. From there a module found
for an address has the base given for it, a failed creation leaves the list
unchanged, and `MgwSymCleanup` removes the node of its handle and nothing else. -/
theorem registry_well_formed (e : Environment) (qs : List Request) (s : MgwHelp)
    (hr : ∀ pre q post, qs = pre ++ q::post → RejectsInitialised e pre q)
    (hs : mgwhelpAfter e qs = some s) :
    WellFormed s.registry.processes ∧
      (∀ w h a m offset r', mgwhelp_find_module e.toSetting w h a s.registry =
          some (some (m,offset),r') → m.Base = GetModuleBase e.toSetting w h a) ∧
      (∀ w h hFile name base r', mgwhelp_module_lookup e.toSetting w h hFile name base
          s.registry = some (none,r') → r'.processes = s.registry.processes) ∧
      ∀ d h, (MgwSymCleanup d h s.registry).2.processes =
        s.registry.processes.filter fun p => p.hProcess ≠ h := by
  have hw := (wellFormed_run hs hr).1
  exact ⟨hw,fun _ _ _ _ _ _ hf => find_module_base hf,
    fun _ _ _ _ _ _ hl => module_lookup_none hl,
    fun _ _ => unlinkProcess_eq_filter hw.handles _⟩

/-- A setting in which nothing is reported, and files are empty. -/
def bareEnvironment : Environment where
  codePages := ⟨fun s => s.map (·.toUInt16),fun s => s.map (·.toUInt16),
    fun s => s.map fun c => if c < 256 then c.toUInt8 else 63⟩
  depth := 1
  dwstOfDwarfDebugW _ _ _ _ _ := []
  cplus_demangle_v3 _ _ := none

/-- Every step succeeds except that no file has debug information. -/
def bareWorld : World where
  succeeds _ _ := true
  fileOf h := h
  fileAt _ := 0
  contents _ := []
  dwarf_object_init_b _ _ := false
  GetModuleFileNameExW _ _ := none
  GetCurrentProcess := 0
  GetModuleHandleExW _ := none
  VirtualQueryEx _ a := some (a &&& 0xFFFF0000)
  SymGetModuleBase64 _ _ := 0

/-- Initialisation succeeds and nothing is known about any address. -/
def bareDbgHelp : DbgHelp where
  SymInitialize _ := true
  SymInitializeW _ := true
  SymCleanup _ := true
  SymGetOptions := 0
  SymLoadModuleEx r := r.BaseOfDll
  SymLoadModuleExW r := r.BaseOfDll
  SymFromAddr _ _ disp Symbol := ⟨false,disp,Symbol⟩
  SymFromAddrW _ _ disp Symbol := ⟨false,disp,Symbol⟩
  SymGetLineFromAddr64 _ _ disp l := ⟨false,disp,l⟩
  SymGetLineFromAddrW64 _ _ disp l := ⟨false,disp,l⟩

def bareRequest (c : Call) : Request := ⟨c,bareWorld,bareDbgHelp⟩

def bareLoad (hProcess hFile : HANDLE) (BaseOfDll : DWORD64) : Request :=
  bareRequest (.SymLoadModuleExW
    { hProcess := hProcess, hFile := hFile, ImageName := some [], BaseOfDll := BaseOfDll })

/-- Two processes, a module loaded in each, one of them cleaned up. -/
def twoProcesses : List Request :=
  [bareRequest (.SymInitialize 1),bareRequest (.SymInitializeW 2),bareLoad 1 5 0x400000,
    bareLoad 2 6 0x400000,bareRequest (.SymCleanup 2)]

theorem registry_well_formed_twoProcesses :
    ∃ s, mgwhelpAfter bareEnvironment twoProcesses = some s ∧ WellFormed s.registry.processes ∧
      s.registry.processes.map (·.hProcess) = [1] := by
  have hs : (mgwhelpAfter bareEnvironment twoProcesses).isSome = true := by decide
  have hr : Machine.AtEach (RejectsInitialised bareEnvironment) twoProcesses := by
    simp [twoProcesses,Machine.atEach_cons,Machine.atEach_nil,RejectsInitialised,Request.effect,
      bareRequest,bareLoad,bareDbgHelp,initialised,initialisedAfter,searchAt]
  have heq := (Option.some_get hs).symm
  exact ⟨_,heq,(registry_well_formed bareEnvironment twoProcesses _ hr heq).1,rfl⟩

end DrMingw
