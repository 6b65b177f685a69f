import DrMingw.MgwHelp
import DrMingw.RegistryInvariant

/-! The files, file mappings and views `MgwHelp` takes over whole runs, and what it
still holds once every process has been cleaned up. -/
namespace DrMingw
open PeImage

/-- What `mgwhelp_module_destroy` gives back. -/
def Module.returned (m : Module) : List Resource :=
  debugResources m.dbg ++ [m.lpFileBase,m.memory]

def Module.resources (m : Module) : List Resource := m.hFileMapping :: m.returned

def Process.resources (p : Process) : List Resource :=
  p.memory :: p.modules.flatMap Module.resources

/-- Everything the processes in the list and their modules refer to. -/
def registryResources (ps : List Process) : List Resource := ps.flatMap Process.resources

variable {e : Environment} {w : World} {h hFile : HANDLE} {name : Option (List WCHAR)}
  {base : DWORD64} {k k' : Kernel} {held : List Resource} {m : Module} {o : Option Module}
  {r r' : Registry} {s s' : MgwHelp} {q : Request} {qs : List Request} {ps : List Process}

def moduleResources (o : Option Module) : List Resource := o.elim [] Module.resources

/-- A view that is mapped keeps all of its resources, a failure none of them. -/
theorem mapModule_owns {memory : Resource} {path : List WCHAR} {file : FileId}
    (h : Owns k (memory::held))
    (hm : mapModule e.toSetting w memory base path file k = some (o,k')) :
    (o = none → Owns k' (memory::held)) ∧
      ∀ m, o = some m → Owns k' (m.resources ++ held) ∧ m.hFileMapping.kind = .mapping := by
  simp only [mapModule] at hm
  rcases h₁ : k.acquire w.toFileSystem (.CreateFileMapping file) with ⟨_ | hFileMapping,k₁⟩
  · simp only [h₁] at hm
    obtain ⟨rfl,rfl⟩ := by simpa using hm
    exact ⟨fun _ => h.refused h₁,by simp⟩
  have hown := h.acquired h₁
  simp only [h₁] at hm
  rcases h₂ : k₁.acquire w.toFileSystem (.MapViewOfFile file) with ⟨_ | lpFileBase,k₂⟩
  · simp only [h₂] at hm
    obtain ⟨rfl,rfl⟩ := by simpa using hm
    exact ⟨fun _ => (hown.refused h₂).release,by simp⟩
  replace hown := hown.acquired h₂
  simp only [h₂] at hm
  split at hm
  · obtain ⟨⟨dbg,k₃⟩,hi,hx⟩ := Option.map_eq_some_iff.mp hm
    obtain ⟨rfl,rfl⟩ := Prod.mk.inj hx
    refine ⟨by simp,fun m he => ?_⟩
    obtain rfl := Option.some.inj he
    refine ⟨(mgwhelp_dwarf_pe_init_owns hown hi).perm ?_,(acquire_kind h₁).1⟩
    simp only [Module.resources,Module.returned,List.cons_append,List.append_assoc]
    refine (List.perm_append_comm_assoc _ [lpFileBase,hFileMapping,memory] held).trans ?_
    refine List.Perm.trans (List.Perm.swap _ _ _) (List.Perm.cons _ ?_)
    exact List.perm_append_comm_assoc [lpFileBase,memory] _ held
  · simp at hm

theorem keepOrFree_owns {memory : Resource} {x : Option Module × Kernel}
    (hn : x.1 = none → Owns x.2 (memory::held))
    (hs : ∀ m, x.1 = some m → Owns x.2 (m.resources ++ held) ∧ m.hFileMapping.kind = .mapping)
    (hk : keepOrFree memory x = (o,k')) :
    Owns k' (moduleResources o ++ held) ∧ ∀ m, o = some m → m.hFileMapping.kind = .mapping := by
  obtain ⟨_ | m,k⟩ := x
  · obtain ⟨rfl,rfl⟩ := Prod.mk.inj hk
    exact ⟨(hn rfl).release,by simp⟩
  · obtain ⟨rfl,rfl⟩ := Prod.mk.inj hk
    exact ⟨(hs m rfl).1,fun m' he => Option.some.inj he ▸ (hs m rfl).2⟩

/-- On every path a creation keeps exactly the resources of the module it returns. -/
theorem module_create_owns (hown : Owns k held)
    (hc : mgwhelp_module_create e.toSetting w h hFile name base k = some (o,k')) :
    Owns k' (moduleResources o ++ held) ∧ ∀ m, o = some m → m.hFileMapping.kind = .mapping := by
  simp only [mgwhelp_module_create] at hc
  rcases h₁ : k.acquire w.toFileSystem .calloc with ⟨_ | memory,k₁⟩
  · simp only [h₁] at hc
    obtain ⟨rfl,rfl⟩ := by simpa using hc
    exact ⟨hown.refused h₁,by simp⟩
  replace hown := hown.acquired h₁
  simp only [h₁] at hc
  split at hc
  · obtain ⟨rfl,rfl⟩ := by simpa using hc
    exact ⟨hown.release,by simp⟩
  next path hpath =>
  split at hc
  · obtain ⟨x,hx,hk⟩ := Option.map_eq_some_iff.mp hc
    obtain ⟨hn,hs⟩ := mapModule_owns hown hx
    exact keepOrFree_owns hn hs hk
  · rcases h₂ : k₁.acquire w.toFileSystem (.CreateFileW path) with ⟨_ | ownFile,k₂⟩
    · simp only [h₂] at hc
      obtain ⟨rfl,rfl⟩ := by simpa using hc
      exact ⟨(hown.refused h₂).release,by simp⟩
    replace hown := (hown.acquired h₂).perm (List.Perm.swap memory ownFile held)
    simp only [h₂] at hc
    obtain ⟨x,hx,hk⟩ := Option.map_eq_some_iff.mp hc
    obtain ⟨hn,hs⟩ := mapModule_owns hown hx
    refine keepOrFree_owns (fun ho => ?_) (fun m ho => ?_) hk
    · exact ((hn ho).perm (List.Perm.swap ownFile memory held)).release
    · exact ⟨((hs m ho).1.perm List.perm_middle).release,(hs m ho).2⟩

/-- Destroying a module gives back all but its file mapping. -/
theorem module_destroy_owns (hown : Owns k (m.returned ++ held)) :
    Owns (mgwhelp_module_destroy m k) held := by
  simp only [mgwhelp_module_destroy]
  simp only [Module.returned] at hown
  cases hd : m.dbg with
  | none =>
    rw [hd] at hown
    exact Owns.release (Owns.release hown)
  | some dbg =>
    rw [hd] at hown
    have hh : Owns k (dbg.resources ++ (m.lpFileBase::m.memory::held)) := by
      simpa [debugResources] using hown
    exact hh.finish.release.release

theorem modules_destroy_owns (ms : List Module)
    (hown : Owns k (ms.flatMap Module.resources ++ held)) :
    Owns (ms.foldl (fun k m => mgwhelp_module_destroy m k) k)
      (ms.map (·.hFileMapping) ++ held) := by
  induction ms generalizing k held with
  | nil => exact hown
  | cons m ms ih =>
    have hh : Owns k (m.returned ++ (ms.flatMap Module.resources ++ (m.hFileMapping::held))) := by
      refine hown.perm ?_
      simp only [List.flatMap_cons,Module.resources,List.cons_append,List.append_assoc]
      refine List.perm_middle.symm.trans (List.Perm.append_left _ ?_)
      exact List.perm_middle.symm
    exact (ih (module_destroy_owns hh)).perm List.perm_middle

/-- The file mappings that go with the process of a handle. -/
def mappingsOf (h : HANDLE) (ps : List Process) : List Resource :=
  (mgwhelp_process_lookup ps h).elim [] fun p => p.modules.map (·.hFileMapping)

theorem unlinkProcess_owns (hown : Owns k (registryResources ps ++ held)) :
    Owns (unlinkProcess h ps k).2
      (registryResources (unlinkProcess h ps k).1 ++ (mappingsOf h ps ++ held)) := by
  induction ps generalizing held with
  | nil => exact hown
  | cons p ps ih =>
    have hh : Owns k (p.modules.flatMap Module.resources ++
        (p.memory::(registryResources ps ++ held))) := by
      refine hown.perm ?_
      simp only [registryResources,List.flatMap_cons,Process.resources,List.cons_append,
        List.append_assoc]
      exact List.perm_middle.symm
    simp only [unlinkProcess]
    by_cases he : p.hProcess = h
    · rw [if_pos he]
      have hm : mappingsOf h (p::ps) = p.modules.map (·.hFileMapping) := by
        simp [mappingsOf,mgwhelp_process_lookup,he]
      rw [hm]
      refine (((modules_destroy_owns p.modules hh).perm List.perm_middle).release).perm ?_
      exact List.perm_append_comm_assoc _ _ held
    · rw [if_neg he]
      have hm : mappingsOf h (p::ps) = mappingsOf h ps := by
        simp [mappingsOf,mgwhelp_process_lookup,he]
      have hp : Owns k (registryResources ps ++ (p.resources ++ held)) := by
        refine hown.perm ?_
        simp only [registryResources,List.flatMap_cons,List.append_assoc]
        exact List.perm_append_comm_assoc _ _ held
      rw [hm]
      refine (ih hp).perm ?_
      simp only [registryResources,List.flatMap_cons,List.append_assoc]
      refine List.Perm.trans (List.Perm.append_left _ (List.perm_append_comm_assoc _ _ held)) ?_
      exact List.perm_append_comm_assoc _ _ _

theorem linkModule_resources {p : Process} (hp : mgwhelp_process_lookup ps h = some p) :
    (registryResources (linkModule h m ps)).Perm (m.resources ++ registryResources ps) := by
  induction ps with
  | nil => simp [mgwhelp_process_lookup] at hp
  | cons p₀ ps ih =>
    by_cases he : p₀.hProcess = h
    · simp only [linkModule,if_pos he,registryResources,List.flatMap_cons,Process.resources,
        List.cons_append,List.append_assoc]
      exact List.perm_middle.symm
    · have hp' : mgwhelp_process_lookup ps h = some p := by
        simpa [mgwhelp_process_lookup,he] using hp
      simp only [linkModule,if_neg he,registryResources,List.flatMap_cons]
      refine (List.Perm.append_left _ (ih hp')).trans ?_
      exact List.perm_append_comm_assoc _ _ _

def modulesOf (ps : List Process) : List Module := ps.flatMap Process.modules

theorem linkModule_modules {p : Process} (hp : mgwhelp_process_lookup ps h = some p) :
    (modulesOf (linkModule h m ps)).Perm (m::modulesOf ps) := by
  induction ps with
  | nil => simp [mgwhelp_process_lookup] at hp
  | cons p₀ ps ih =>
    by_cases he : p₀.hProcess = h
    · simp [modulesOf,linkModule,he]
    · have hp' : mgwhelp_process_lookup ps h = some p := by
        simpa [mgwhelp_process_lookup,he] using hp
      simp only [linkModule,if_neg he,modulesOf,List.flatMap_cons]
      exact (List.Perm.append_left _ (ih hp')).trans List.perm_middle

theorem unlinkProcess_modules (h : HANDLE) (ps : List Process) (k : Kernel) :
    (mappingsOf h ps ++ (modulesOf (unlinkProcess h ps k).1).map (·.hFileMapping)).Perm
      ((modulesOf ps).map (·.hFileMapping)) := by
  induction ps with
  | nil => simp [mappingsOf,mgwhelp_process_lookup,unlinkProcess]
  | cons p ps ih =>
    by_cases he : p.hProcess = h
    · simp [mappingsOf,mgwhelp_process_lookup,he,unlinkProcess,modulesOf]
    · have hm : mappingsOf h (p::ps) = mappingsOf h ps := by
        simp [mappingsOf,mgwhelp_process_lookup,he]
      simp only [unlinkProcess,if_neg he,hm,modulesOf,List.flatMap_cons,List.map_append]
      exact (List.perm_append_comm_assoc _ _ _).trans (List.Perm.append_left _ ih)

/-- The registry refers to all resources held but those in `leaked`, and these are
file mappings. -/
structure Balanced (r : Registry) (leaked : List Resource) : Prop where
  owns : Owns r.kernel (registryResources r.processes ++ leaked)
  mappings : ∀ x ∈ (modulesOf r.processes).map (·.hFileMapping) ++ leaked, x.kind = .mapping

/-- All mappings a registry has ever been given, still referred to or leaked. -/
def mappingsTaken (r : Registry) (leaked : List Resource) : List Resource :=
  (modulesOf r.processes).map (·.hFileMapping) ++ leaked

/-- The mapping of a module just linked joins those referred to. -/
theorem Balanced.link {leaked : List Resource} {p : Process} {k : Kernel}
    (hb : Balanced r leaked) (hp : mgwhelp_process_lookup r.processes h = some p)
    (hc : mgwhelp_module_create e.toSetting w h hFile name base r.kernel = some (some m,k)) :
    Balanced ⟨linkModule h m r.processes,k⟩ leaked := by
  obtain ⟨hown,hkind⟩ := module_create_owns hb.owns hc
  refine ⟨hown.perm ?_,fun y hy => ?_⟩
  · rw [← List.append_assoc]
    exact (linkModule_resources hp).symm.append_right leaked
  · have hmem := ((linkModule_modules (m:=m) hp).map (·.hFileMapping)).append_right leaked
    rcases List.mem_cons.mp (hmem.subset hy) with rfl | hy
    · exact hkind m rfl
    · exact hb.mappings y hy

theorem mappingsTaken_link {leaked : List Resource} {p : Process} {k : Kernel}
    (hp : mgwhelp_process_lookup r.processes h = some p) :
    mappingsTaken ⟨linkModule h m r.processes,k⟩ leaked ≠ [] := by
  intro hnil
  have hlen := ((linkModule_modules (m:=m) hp).map (·.hFileMapping)).length_eq
  simp only [mappingsTaken,List.append_eq_nil_iff] at hnil
  simp [hnil.1] at hlen

/-- The mappings of a process cleaned up are leaked. -/
theorem Balanced.unlink {leaked : List Resource} (hb : Balanced r leaked) (h : HANDLE) :
    Balanced ⟨(unlinkProcess h r.processes r.kernel).1,(unlinkProcess h r.processes r.kernel).2⟩
      (mappingsOf h r.processes ++ leaked) := by
  have hperm := (unlinkProcess_modules h r.processes r.kernel).append_right leaked
  refine ⟨unlinkProcess_owns hb.owns,fun y hy => hb.mappings y (hperm.subset ?_)⟩
  simp only [List.mem_append] at hy ⊢
  tauto

theorem mappingsTaken_unlink (leaked : List Resource) (h : HANDLE) :
    mappingsTaken ⟨(unlinkProcess h r.processes r.kernel).1,
        (unlinkProcess h r.processes r.kernel).2⟩ (mappingsOf h r.processes ++ leaked) = [] ↔
      mappingsTaken r leaked = [] := by
  have hlen := ((unlinkProcess_modules h r.processes r.kernel).append_right leaked).length_eq
  simp only [mappingsTaken,← List.length_eq_zero_iff,List.length_append] at hlen ⊢
  omega

/-- A call takes another mapping exactly when it brings in a module, and never gives
one back. -/
theorem balanced_apply {f : Effect} {leaked : List Resource} (hb : Balanced r leaked)
    (ha : f.apply e w r = some r') :
    ∃ leaked', Balanced r' leaked' ∧
      (mappingsTaken r' leaked' = [] ↔ mappingsTaken r leaked = [] ∧ f.maps e w r = false) := by
  cases f with
  | nothing =>
    obtain rfl := by simpa [Effect.apply] using ha
    exact ⟨leaked,hb,by simp [Effect.maps]⟩
  | start h =>
    obtain rfl := by simpa [Effect.apply] using ha
    simp only [ mgwhelp_initialize]
    rcases h₁ : r.kernel.acquire w.toFileSystem .calloc with ⟨_ | memory,k⟩
    · exact ⟨leaked,⟨hb.owns.refused h₁,hb.mappings⟩,by simp [Effect.maps,mappingsTaken]⟩
    · refine ⟨leaked,⟨?_,?_⟩,by simp [Effect.maps,mappingsTaken,modulesOf]⟩
      · exact hb.owns.acquired h₁
      · simpa [modulesOf] using hb.mappings
  | search x =>
    obtain ⟨⟨o,r₁⟩,hl,rfl⟩ := Option.map_eq_some_iff.mp ha
    rcases module_lookup_cases hl with ⟨hp,-,rfl⟩ | ⟨p,hp,⟨m,hm,-,rfl⟩ | ⟨k,hm,hc,rfl⟩⟩
    · exact ⟨leaked,hb,by simp [Effect.maps,hp]⟩
    · exact ⟨leaked,hb,by simp [Effect.maps,hp,hm]⟩
    · have hmaps : (Effect.search x).maps e w r = o.isSome := by
        rw [module_create_isSome hc]
        simp [Effect.maps,hp,hm]
      rw [hmaps]
      cases o with
      | none =>
        have hown := (module_create_owns hb.owns hc).1
        exact ⟨leaked,⟨hown,hb.mappings⟩,by simp [mappingsTaken]⟩
      | some m => exact ⟨leaked,hb.link hp hc,by simpa using mappingsTaken_link hp⟩
  | cleanup h =>
    obtain rfl := by simpa [Effect.apply] using ha
    refine ⟨mappingsOf h r.processes ++ leaked,hb.unlink h,?_⟩
    rw [mappingsTaken_unlink]
    simp [Effect.maps]

/-- The call brings in no module. -/
def BringsNoModule (e : Environment) (pre : List Request) (q : Request) : Prop :=
  ∀ s, mgwhelpAfter e pre = some s → (q.effect e).maps e q.world s.registry = false

/-- The accounts are balanced, and no mapping has been taken exactly if no call of
the run has brought in a module. -/
def BalancedAfter (e : Environment) (qs : List Request) (s : MgwHelp) : Prop :=
  ∃ leaked, Balanced s.registry leaked ∧
    (mappingsTaken s.registry leaked = [] ↔ Machine.AtEach (BringsNoModule e) qs)

theorem balanced_step (hs : mgwhelpAfter e qs = some s) (hb : BalancedAfter e qs s)
    (hstep : s.step e q = some s') : BalancedAfter e (qs ++ [q]) s' := by
  obtain ⟨leaked,hb,hiff⟩ := hb
  obtain ⟨leaked',hb',hiff'⟩ := balanced_apply hb (step_effect hstep)
  refine ⟨leaked',hb',?_⟩
  have hq : BringsNoModule e qs q ↔ (q.effect e).maps e q.world s.registry = false := by
    simp [BringsNoModule,hs]
  rw [hiff',hiff,Machine.atEach_concat,hq]

theorem balanced_run (hs : mgwhelpAfter e qs = some s) : BalancedAfter e qs s :=
  Machine.ofPartial_run
    ⟨[],⟨owns_nil,by simp [modulesOf]⟩,fun _ => Machine.atEach_nil _,fun _ => rfl⟩
    (fun _ _ _ _ hs hb hstep => balanced_step hs hb hstep) hs

/-- Nothing a listed module refers to has been closed. -/
def NothingClosedInUse (r : Registry) : Prop :=
  ∀ p ∈ r.processes, ∀ m ∈ p.modules, ∀ x ∈ m.resources, Ledger.released r.kernel.log x = 0

theorem Balanced.nothing_closed {leaked : List Resource} (hb : Balanced r leaked) :
    NothingClosedInUse r := by
  intro p hp m hm x hx
  refine hb.owns.not_released (List.mem_append_left leaked ?_)
  refine List.mem_flatMap.mpr ⟨p,hp,List.mem_cons_of_mem p.memory ?_⟩
  exact List.mem_flatMap.mpr ⟨m,hm,hx⟩

/-- Each file handle, file mapping and view has been closed exactly once. -/
def ClosedOnce (r : Registry) : Prop :=
  ∀ x : Resource, x.kind ≠ .memory → Ledger.acquired r.kernel.log x ≤ 1 ∧
    Ledger.released r.kernel.log x = Ledger.acquired r.kernel.log x

/-- Once all processes are cleaned up everything has been closed, and nothing too
early, if and only if no module was ever brought in. -/
theorem resources_returned_iff (e : Environment) (qs : List Request) (s : MgwHelp)
    (hs : mgwhelpAfter e qs = some s) (hclean : s.registry.processes = []) :
    (ClosedOnce s.registry ∧ ∀ pre post s', qs = pre ++ post → mgwhelpAfter e pre = some s' →
        NothingClosedInUse s'.registry) ↔
      ∀ pre q post, qs = pre ++ q::post → BringsNoModule e pre q := by
  obtain ⟨leaked,hb,hiff⟩ := balanced_run hs
  have hown : Owns s.registry.kernel leaked := by
    simpa [hclean,registryResources] using hb.owns
  have hkind : ∀ x ∈ leaked, x.kind = .mapping := by
    simpa [hclean,modulesOf] using hb.mappings
  have htaken : mappingsTaken s.registry leaked = leaked := by
    simp [mappingsTaken,hclean,modulesOf]
  have hclosed : ClosedOnce s.registry ↔ leaked = [] := by
    rw [ClosedOnce,Ledger.settledOn_iff hown.distinct hown.holds fun x => x.kind ≠ .memory,
      List.eq_nil_iff_forall_not_mem]
    refine forall₂_congr fun x hx => ?_
    simp [hkind x hx]
  have hearly : ∀ pre post s', qs = pre ++ post → mgwhelpAfter e pre = some s' →
      NothingClosedInUse s'.registry := by
    intro pre post s' _ hs'
    obtain ⟨leaked',hb',-⟩ := balanced_run hs'
    exact hb'.nothing_closed
  rw [hclosed,← htaken]
  exact ⟨fun hh => hiff.mp hh.1,fun hh => ⟨hiff.mpr hh,hearly⟩⟩

/-- No file can be mapped. -/
def unmappableWorld : World := { bareWorld with succeeds := fun a _ => a.kind ≠ .mapping }

/-- A file is opened by its name, and closed as it cannot be mapped. -/
def unmappable : List Request :=
  [bareRequest (.SymInitialize 1),
    ⟨.SymLoadModuleExW { hProcess := 1, hFile := NULL, ImageName := some [120], BaseOfDll := 0x400000 },
      unmappableWorld,bareDbgHelp⟩,
    bareRequest (.SymCleanup 1)]

theorem resources_returned_unmappable :
    Ledger.acquired ((mgwhelpAfter bareEnvironment unmappable).getD {}).registry.kernel.log
        ⟨.file,2⟩ = 1 ∧
      ClosedOnce ((mgwhelpAfter bareEnvironment unmappable).getD {}).registry := by
  have hload : ∀ n, stepsSucceed bareEnvironment.toSetting unmappableWorld 1 NULL (some [120])
      0x400000 n = false := by
    intro n
    simp [stepsSucceed,loadedImageName,unmappableWorld,Attempt.kind]
  have hmaps (r : Registry) : Effect.maps bareEnvironment unmappableWorld r
      (.search ⟨1,NULL,some [120],0x400000⟩) = false := by
    simp only [Effect.maps,hload,Bool.and_false]
    split <;> rfl
  have hnone : Machine.AtEach (BringsNoModule bareEnvironment) unmappable := by
    simp only [unmappable,Machine.atEach_cons,Machine.atEach_nil,and_true]
    exact ⟨fun _ _ => rfl,fun s _ => hmaps s.registry,fun _ _ => rfl⟩
  exact ⟨by decide,((resources_returned_iff bareEnvironment unmappable _ rfl rfl).mpr hnone).1⟩

def loadAndCleanUp : List Request :=
  [bareRequest (.SymInitialize 1),bareLoad 1 5 0x400000,bareRequest (.SymCleanup 1)]

/-- One module is loaded and its process cleaned up; its file mapping stays open. -/
theorem loaded_module_leaks_mapping :
    ¬ ∀ (e : Environment) (qs : List Request) (s : MgwHelp),
      mgwhelpAfter e qs = some s → s.registry.processes = [] →
      ClosedOnce s.registry ∧ ∀ pre post s', qs = pre ++ post → mgwhelpAfter e pre = some s' →
        NothingClosedInUse s'.registry := by
  intro hall
  have hclosed := (hall bareEnvironment loadAndCleanUp
    ((mgwhelpAfter bareEnvironment loadAndCleanUp).getD {}) rfl rfl).1
  exact absurd (hclosed ⟨.mapping,2⟩ (by decide)).2 (by decide)

end DrMingw
